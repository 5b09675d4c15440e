import IsoTp.Config
import IsoTp.Error

/-!
The link below a channel.

A link takes a frame or refuses it, and does not wait. Its state has type `σ`; nothing is
assumed of when it refuses. A tap put over a link keeps the frames offered to it with what
became of each.
-/

namespace IsoTp

/-- Links with state `σ` that refuse frames with an error of type `ε`. -/
class Link (σ : Type) (ε : outParam Type) where
  /-- Hands one frame to the link. -/
  put : σ → Frame → Except ε Unit × σ

namespace Link

variable {σ ε : Type} [Link σ ε]

/-- Offers a unit to the link as a frame under the given identifier. A unit that has no frame is
not offered. -/
def offer (cfg : Config) (id : CanId) (pdu : Pdu) (line : σ) : Except (Error ε) Unit × σ :=
  match cfg.encode? pdu with
  | none => (.error .unencodable, line)
  | some data =>
    let (verdict, line) := put line { id, data }
    (verdict.mapError .link, line)

end Link

/-! ### Watching a link -/

/-- A frame offered to a link, and whether the link took it. -/
structure Offer where
  frame : Frame
  taken : Bool
deriving DecidableEq, Repr

/-- A link and the frames offered to it so far, oldest first. -/
structure Tap (σ : Type) where
  line : σ
  offers : List Offer := []

namespace Tap

variable {σ ε : Type}

/-- The frames that the link took. -/
def taken (t : Tap σ) : List Frame :=
  t.offers.filterMap fun o => if o.taken then some o.frame else none

/-- The same link with nothing recorded. -/
def clear (t : Tap σ) : Tap σ := { t with offers := [] }

instance [Link σ ε] : Link (Tap σ) ε where
  put t frame :=
    let (verdict, line) := Link.put t.line frame
    (verdict, { line, offers := t.offers ++ [⟨frame, verdict.isOk⟩] })

end Tap

/-! ### A link of limited patience -/

/-- A refusal without a reason, shown as the empty tuple. -/
inductive Refusal where
  | refused
deriving DecidableEq, Repr

instance : ToString Refusal := ⟨fun _ => "()"⟩

/-- A link that takes as many frames as are left and refuses the rest, or takes all. -/
structure Quota where
  left : Option Nat := none
deriving DecidableEq, Repr

instance : Link Quota Refusal where
  put
    | ⟨none⟩, _ => (.ok (), ⟨none⟩)
    | ⟨some 0⟩, _ => (.error .refused, ⟨some 0⟩)
    | ⟨some (n + 1)⟩, _ => (.ok (), ⟨some n⟩)

end IsoTp
