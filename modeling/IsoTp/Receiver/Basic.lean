import IsoTp.Buffer
import IsoTp.Config
import IsoTp.Error

/-!
The receiving half of a channel: it puts the frames of a message together again.

A message in a single frame is complete at once. A first frame opens a reception, which the
consecutive frames fill in the order of their numbers; the receiver answers with flow control
when the reception opens and at the end of every block. A complete message stays until it is
collected, and nothing replaces it before. The receiver sends nothing itself: it hands what is
to be sent to its caller, who tells it if that could not be done.
-/

namespace IsoTp

/-- A segmented message under way. -/
structure Inbound where
  /-- The declared length. -/
  total : Nat
  /-- The number of the next consecutive frame, modulo 16. -/
  nextSn : Nat
  /-- The block size granted last, and how many frames are missing of the block. -/
  blockSize : Nat
  blockLeft : Nat
  /-- When the reception fails, unless something happens. -/
  deadline : Instant
  /-- Flow control that the link refused and that is still to be sent. -/
  owed : Option FlowControl
deriving DecidableEq, Repr

/-- Where a receiver stands: without a message, in the middle of one, with a complete one, or after
one that failed. -/
inductive Receiver.Phase where
  | idle
  | receiving (m : Inbound)
  | done
  | failed (cause : Abort)
deriving DecidableEq, Repr

structure Receiver where
  phase : Receiver.Phase
  buffer : Buffer
  /-- The longest message taken. -/
  capacity : Nat
  /-- The bytes of the message that stand at the start of the buffer. -/
  written : Nat
deriving DecidableEq, Repr

namespace Receiver

/-- What comes of a frame: nothing to do, flow control to send, the refusal of a message to send,
a complete message, or the end of a reception. -/
inductive Outcome where
  | none
  | answer (fc : FlowControl)
  | refusal (fc : FlowControl)
  | complete (len : Nat)
  | failed (cause : Abort)
deriving DecidableEq, Repr

/-- The phase without its particulars. -/
inductive Status where
  | idle
  | receiving
  | done
  | failed
deriving DecidableEq, Repr

/-- A receiver that fills `buffer` with messages of up to `capacity` bytes. -/
def new (buffer : Buffer) (capacity : Nat) : Receiver :=
  ⟨.idle, buffer, min capacity buffer.size, 0⟩

def status (r : Receiver) : Status :=
  match r.phase with
  | .idle => .idle
  | .receiving _ => .receiving
  | .done => .done
  | .failed _ => .failed

/-- The complete message, or no bytes if there is none. -/
def message (r : Receiver) : Bytes :=
  match r.phase with
  | .done => (r.buffer.read? 0 r.written).getD []
  | _ => []

/-- The flow control owed to the sender. -/
def owed (r : Receiver) : Option FlowControl :=
  match r.phase with
  | .receiving m => m.owed
  | _ => none

/-- Drops the message, complete or not. -/
def clear (r : Receiver) : Receiver := { r with phase := .idle, written := 0 }

/-- Ends the reception without a message. -/
def giveUp (cause : Abort) (r : Receiver) : Receiver × Outcome :=
  ({ r with phase := .failed cause, written := 0 }, .failed cause)

/-! ### Frames -/

/-- A message in a single frame. -/
def single (len : Nat) (data : Bytes) (r : Receiver) : Receiver × Outcome :=
  if r.capacity < len then r.giveUp .tooLong
  else if data.length < len then r.giveUp .outOfBounds
  else
    match r.buffer.write? 0 (data.take len) with
    | none => r.giveUp .outOfBounds
    | some buffer => ({ r with buffer, phase := .done, written := len }, .complete len)

/-- The first frame of a message of `total` bytes. -/
def first (cfg : Config) (policy : FlowPolicy) (now : Instant) (total : Nat) (data : Bytes)
    (r : Receiver) : Receiver × Outcome :=
  let answer := policy.answer total r.capacity
  if answer.status = .overflow then ((r.giveUp .tooLong).1, .refusal answer)
  else
    match r.buffer.write? 0 (data.take total) with
    | none => r.giveUp .outOfBounds
    | some buffer =>
      let m : Inbound :=
        { total
          nextSn := 1
          blockSize := answer.blockSize.toNat
          blockLeft := answer.blockSize.toNat
          deadline := cfg.clock.after now cfg.nCr
          owed := none }
      ({ r with buffer, phase := .receiving m, written := min data.length total }, .answer answer)

/-- A consecutive frame of the message under way. The last one may be longer than what is missing:
the rest is padding. -/
def consecutive (cfg : Config) (policy : FlowPolicy) (now : Instant) (sn : Nat) (data : Bytes)
    (m : Inbound) (r : Receiver) : Receiver × Outcome :=
  if sn ≠ m.nextSn then r.giveUp (.outOfTurn m.nextSn sn)
  else
    let chunk := data.take (m.total - r.written)
    match r.buffer.write? r.written chunk with
    | none => r.giveUp .outOfBounds
    | some buffer =>
      let written := r.written + chunk.length
      let r := { r with buffer, written }
      let m := { m with nextSn := (m.nextSn + 1) % 16, deadline := cfg.clock.after now cfg.nCr }
      if m.total ≤ written then ({ r with phase := .done }, .complete written)
      else if m.blockSize = 0 then ({ r with phase := .receiving m }, .none)
      else if 1 < m.blockLeft then
        ({ r with phase := .receiving { m with blockLeft := m.blockLeft - 1 } }, .none)
      else
        let answer := policy.clearToSend
        let granted := answer.blockSize.toNat
        let m := { m with blockSize := granted, blockLeft := granted }
        ({ r with phase := .receiving m }, .answer answer)

/-- Takes in one unit. While a complete message waits, a single frame is dropped and a first frame
refused; otherwise either of them replaces what is under way. Flow control is for the sender. -/
def accept (cfg : Config) (policy : FlowPolicy) (now : Instant) (pdu : Pdu) (r : Receiver) :
    Receiver × Outcome :=
  match pdu with
  | .single len data =>
    if r.status = .done then (r, .none) else r.single len.toNat data
  | .first len data =>
    if r.status = .done then (r, .answer .overflow) else r.first cfg policy now len.toNat data
  | .consecutive sn data =>
    match r.phase with
    | .receiving m => r.consecutive cfg policy now sn.toNat data m
    | _ => (r, .none)
  | .flowControl .. | .invalid => (r, .none)

/-! ### Owed flow control and deadlines -/

/-- Notes flow control that the link refused, which is owed to the sender until `deadline`. -/
def postpone (fc : FlowControl) (deadline : Instant) (r : Receiver) : Receiver :=
  match r.phase with
  | .receiving m => { r with phase := .receiving { m with owed := some fc, deadline } }
  | _ => r

/-- Notes that the flow control owed has been sent; the sender has until `deadline`. -/
def answered (deadline : Instant) (r : Receiver) : Receiver :=
  match r.phase with
  | .receiving m => { r with phase := .receiving { m with owed := none, deadline } }
  | _ => r

/-- Fails the reception if its deadline has come. -/
def advance (now : Instant) (r : Receiver) : Receiver × Option Abort :=
  match r.phase with
  | .receiving m =>
    if now < m.deadline then (r, none)
    else
      let cause := Abort.timeout (if m.owed.isSome then .nAr else .nCr)
      ((r.giveUp cause).1, some cause)
  | _ => (r, none)

/-- Collects the message into `room` bytes, or tells why there is none. A message that does not fit
is kept; a failure is told once. -/
def collect (room : Nat) (r : Receiver) : Receiver × Except (Error Empty) Bytes :=
  match r.phase with
  | .done =>
    if room < r.written then (r, .error (.noRoom r.written))
    else
      match r.buffer.read? 0 r.written with
      | some data => (r.clear, .ok data)
      | none => (r, .error (.aborted .outOfBounds))
  | .failed cause => (r.clear, .error (.aborted cause))
  | .idle | .receiving _ => (r, .error .noMessage)

end Receiver

end IsoTp
