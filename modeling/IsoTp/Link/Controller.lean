import IsoTp.Link.Basic

/-!
CAN controllers as links.

A controller holds frames up to some size and queues one, finds its queue full, or reports a
fault. A frame of higher priority may displace one that is queued; the displaced frame is lost.
-/

namespace IsoTp

/-- What a controller does with a frame handed to it. -/
inductive Submission (φ : Type) where
  | queued (displaced : Option Frame)
  | full
  | fault (f : φ)
deriving DecidableEq, Repr

/-- Controllers with state `κ` and faults of type `φ`. -/
class Controller (κ : Type) (φ : outParam Type) where
  /-- The largest payload of the controller's frames. -/
  maxData : κ → Nat
  submit : κ → Frame → Submission φ × κ

/-- Why a controller did not take a frame. -/
inductive ControllerError (φ : Type) where
  /-- The queue is full; the frame may be offered again later. -/
  | full
  /-- The controller has no frame of this size. -/
  | tooLong
  | fault (f : φ)
deriving DecidableEq, Repr

instance {φ : Type} [ToString φ] : ToString (ControllerError φ) where
  toString
    | .full => "WouldBlock"
    | .tooLong => "InvalidFrame"
    | .fault f => "Can(" ++ toString f ++ ")"

/-- A controller used as a link. -/
structure ControllerLink (κ : Type) where
  controller : κ

instance {κ φ : Type} [Controller κ φ] : Link (ControllerLink κ) (ControllerError φ) where
  put l frame :=
    if frame.data.length ≤ Controller.maxData l.controller then
      let (submission, controller) := Controller.submit l.controller frame
      match submission with
      | .queued _ => (.ok (), ⟨controller⟩)
      | .full => (.error .full, ⟨controller⟩)
      | .fault f => (.error (.fault f), ⟨controller⟩)
    else (.error .tooLong, l)

/-! ### A simulated controller -/

/-- The faults that CAN controllers tell apart. -/
inductive CanFault where
  | overrun
  | bit
  | stuff
  | crc
  | form
  | acknowledge
  | other
deriving DecidableEq, Repr

namespace CanFault

def name : CanFault → String
  | overrun => "Overrun"
  | bit => "Bit"
  | stuff => "Stuff"
  | crc => "Crc"
  | form => "Form"
  | acknowledge => "Acknowledge"
  | other => "Other"

def all : List CanFault := [overrun, bit, stuff, crc, form, acknowledge, other]

/-- The fault of this name. -/
def ofName? (s : String) : Option CanFault := all.find? (·.name == s)

instance : ToString CanFault := ⟨name⟩

end CanFault

/-- A controller that queues as many frames as are left. After that it is full, or has the fault
given. While it queues, it may report an older frame as displaced. -/
structure SimulatedController where
  maxData : Nat
  left : Option Nat := none
  fault : Option CanFault := none
  displaces : Bool := false
deriving DecidableEq, Repr

namespace SimulatedController

/-- The frame reported as displaced. -/
def idle : Frame := { id := .standard 0, data := [] }

instance : Controller SimulatedController CanFault where
  maxData := maxData
  submit c _ :=
    if c.left = some 0 then (c.fault.elim .full .fault, c)
    else
      (.queued (if c.displaces then some idle else none), { c with left := c.left.map (· - 1) })

end SimulatedController

end IsoTp
