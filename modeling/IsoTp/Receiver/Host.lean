import IsoTp.Receiver.Basic

/-!
A receiver and what its calls are given, run through a list of calls.
-/

namespace IsoTp.Receiver

/-- A receiver with the parameters that its calls are given. -/
structure Host where
  receiver : Receiver
  cfg : Config
  policy : FlowPolicy

/-- A call to the receiver, or a change of what later calls are given. -/
inductive Op where
  | pdu (p : Pdu)
  | advance
  | collect (room : Nat)
  | clear
  | postpone (fc : FlowControl) (deadline : Instant)
  | answered (deadline : Instant)
  | setPolicy (policy : FlowPolicy)
  | setConfig (cfg : Config)

/-- What a call yields. -/
inductive Reply where
  | none
  | outcome (o : Outcome)
  | expired (cause : Option Abort)
  | collected (result : Except (Error Empty) Bytes)

/-- A call with its time, what it yielded, and the receiver before and after it. -/
structure Record where
  now : Instant
  op : Op
  before : Receiver
  reply : Reply
  after : Receiver

namespace Host

/-- A receiver over a buffer of `size` zero bytes, with the policy of its parameters. -/
def new (cfg : Config) (capacity size : Nat) : Host :=
  ⟨.new (.zeroed size) capacity, cfg, cfg.policy⟩

/-- One call at an instant. -/
def step (h : Host) (now : Instant) : Op → Host × Reply
  | .pdu p =>
    let (receiver, o) := h.receiver.accept h.cfg h.policy now p
    ({ h with receiver }, .outcome o)
  | .advance =>
    let (receiver, cause) := h.receiver.advance now
    ({ h with receiver }, .expired cause)
  | .collect room =>
    let (receiver, result) := h.receiver.collect room
    ({ h with receiver }, .collected result)
  | .clear => ({ h with receiver := h.receiver.clear }, .none)
  | .postpone fc deadline => ({ h with receiver := h.receiver.postpone fc deadline }, .none)
  | .answered deadline => ({ h with receiver := h.receiver.answered deadline }, .none)
  | .setPolicy policy => ({ h with policy }, .none)
  | .setConfig cfg => ({ h with cfg }, .none)

/-- The host after a list of calls. -/
def run (h : Host) (calls : List (Instant × Op)) : Host :=
  calls.foldl (fun h call => (h.step call.1 call.2).1) h

/-- What came of each of a list of calls. -/
def trace (h : Host) : List (Instant × Op) → List Record
  | [] => []
  | (now, op) :: calls =>
    let (next, reply) := h.step now op
    ⟨now, op, h.receiver, reply, next.receiver⟩ :: next.trace calls

end Host

end IsoTp.Receiver
