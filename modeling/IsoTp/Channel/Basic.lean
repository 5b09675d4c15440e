import IsoTp.Pdu.Decode
import IsoTp.Receiver.Basic
import IsoTp.Sender.Basic

/-!
A channel: one conversation with one peer, a sender and a receiver under a pair of identifiers.

The two halves share the link and nothing else. The channel tells flow control for its sender
from message frames for its receiver, puts the receiver's answers on the link, and reports the
end of every transfer as an event. It keeps no clock: every call that needs the time is given it.
-/

namespace IsoTp

/-- The half of a channel that an event concerns. -/
inductive Direction where
  | send
  | receive
deriving DecidableEq, Repr

/-- The end of a transfer: a message of `len` bytes sent, a message received, or one given up. -/
inductive Event where
  | sent (len : Nat)
  | received (data : Bytes)
  | failed (direction : Direction) (cause : Abort)
deriving DecidableEq, Repr

structure Channel where
  cfg : Config
  /-- What the receiver grants from its next answer on. -/
  policy : FlowPolicy
  sender : Sender
  receiver : Receiver

namespace Channel

/-- A channel over buffers that hold at least the configured capacities. -/
def ofBuffers (cfg : Config) (tx rx : Buffer) : Except (Error Empty) Channel :=
  if cfg.Valid ∧ cfg.sendCapacity ≤ tx.size ∧ cfg.receiveCapacity ≤ rx.size then
    .ok ⟨cfg, cfg.policy, .new tx cfg.sendCapacity, .new rx cfg.receiveCapacity⟩
  else .error .invalidConfig

/-- A channel over new buffers. -/
def ofConfig (cfg : Config) (memory : Memory := .ample) : Except (Error Empty) Channel :=
  if cfg.Valid then
    match Buffer.allocate? cfg.sendCapacity memory, Buffer.allocate? cfg.receiveCapacity memory with
    | some tx, some rx => ofBuffers cfg tx rx
    | _, _ => .error .outOfMemory
  else .error .invalidConfig

/-- A channel and its link after a call, with what the call yields and the events it raises. -/
structure Turn (σ α : Type) where
  channel : Channel
  line : σ
  value : α
  events : List Event := []

/-- The event that a sender's event is for the application. -/
def sendEvent : Sender.Event → Event
  | .complete len => .sent len
  | .failed cause => .failed .send cause

variable {σ ε : Type} [Link σ ε]

/-! ### Sending -/

/-- Begins to send `payload` with all its frames under `id`. -/
def sendAs (now : Instant) (id : CanId) (payload : Bytes) (c : Channel) (line : σ) :
    Turn σ (Except (Error ε) Unit) :=
  let turn := c.sender.begin c.cfg now id payload line
  { channel := { c with sender := turn.sender }
    line := turn.line
    value := turn.value.map fun _ => ()
    events := match turn.value with
      | .ok event => event.toList.map sendEvent
      | .error _ => [] }

/-- Begins to send `payload` under the channel's own identifier. -/
def send (now : Instant) (payload : Bytes) (c : Channel) (line : σ) :
    Turn σ (Except (Error ε) Unit) :=
  c.sendAs now c.cfg.txId payload line

/-- Gives up the message being sent, if there is one. -/
def cancel (c : Channel) : Channel := { c with sender := c.sender.cancel }

/-! ### Receiving -/

/-- Changes what the receiver grants, from its next answer on. -/
def setPolicy (policy : FlowPolicy) (c : Channel) : Channel := { c with policy }

/-- Offers flow control to the link. -/
def offerFlowControl (fc : FlowControl) (c : Channel) (line : σ) : Except (Error ε) Unit × σ :=
  Link.offer c.cfg c.cfg.txId fc.toPdu line

/-- Acts on what came of a frame. Flow control that the link refuses is put off, to be sent when
time passes; the refusal of a message is not. -/
def settle (now : Instant) (outcome : Receiver.Outcome) (c : Channel) (line : σ) :
    Turn σ (Except (Error ε) Unit) :=
  match outcome with
  | .none => ⟨c, line, .ok (), []⟩
  | .answer fc =>
    match c.offerFlowControl fc line with
    | (.ok (), line) => ⟨c, line, .ok (), []⟩
    | (.error e, line) =>
      let receiver := c.receiver.postpone fc (c.cfg.clock.after now c.cfg.nAr)
      ⟨{ c with receiver }, line, .error e, []⟩
  | .refusal fc =>
    let (verdict, line) := c.offerFlowControl fc line
    ⟨c, line, verdict, [.failed .receive .tooLong]⟩
  | .complete _ => ⟨c, line, .ok (), [.received c.receiver.message]⟩
  | .failed cause => ⟨c, line, .ok (), [.failed .receive cause]⟩

/-- Takes in a frame from the bus. Remote frames and those under other identifiers are not for this
channel. -/
def accept (now : Instant) (frame : Frame) (c : Channel) (line : σ) :
    Turn σ (Except (Error ε) Unit) :=
  if frame.remote ∨ frame.id ≠ c.cfg.rxId then ⟨c, line, .ok (), []⟩
  else
    match Pdu.decode frame.data with
    | .flowControl status blockSize stMin =>
      let (sender, event) :=
        c.sender.accept c.cfg now (.ofWire status blockSize stMin)
      ⟨{ c with sender }, line, .ok (), event.toList.map sendEvent⟩
    | pdu =>
      let (receiver, outcome) := c.receiver.accept c.cfg c.policy now pdu
      { c with receiver }.settle now outcome line

/-- Collects a received message into `room` bytes. -/
def collect (room : Nat) (c : Channel) : Channel × Except (Error Empty) Bytes :=
  let (receiver, result) := c.receiver.collect room
  ({ c with receiver }, result)

/-! ### The passing of time -/

/-- Tries again to send the flow control owed to the peer, if there is any. -/
def retryFlowControl (now : Instant) (c : Channel) (line : σ) : Channel × σ :=
  match c.receiver.owed with
  | none => (c, line)
  | some fc =>
    match c.offerFlowControl fc line with
    | (.error _, line) => (c, line)
    | (.ok (), line) =>
      ({ c with receiver := c.receiver.answered (c.cfg.clock.after now c.cfg.nCr) }, line)

/-- Lets time pass: first the flow control owed, then the receiver's deadline, then the sender. At
most one flow control frame and one consecutive frame are offered to the link. -/
def advance (now : Instant) (c : Channel) (line : σ) : Turn σ Progress :=
  let (c, line) := c.retryFlowControl now line
  let (receiver, cause) := c.receiver.advance now
  let turn := c.sender.advance c.cfg now line
  { channel := { c with receiver, sender := turn.sender }
    line := turn.line
    value := turn.sender.progress
    events := cause.toList.map (.failed .receive) ++ turn.value.toList.map sendEvent }

end Channel

end IsoTp
