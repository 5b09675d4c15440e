import IsoTp.Receiver.Host

/-!
Reassembly without a buffer.

An assembly keeps the declared length of a message and the pieces that have come, and says of
each call what a receiver is to do. It has no cursor, no running number and no block counter: the
number of a consecutive frame is how many came before it, and a block is full when as many frames
have come since the last answer as that answer granted. It is what a receiver is measured against.
-/

namespace IsoTp.Assembly

open Receiver (Outcome Status Reply Op)

/-- A message under way. -/
structure Underway where
  /-- The declared length. -/
  total : Nat
  /-- The data of the first frame. -/
  head : Bytes
  /-- The data of the consecutive frames, oldest first. -/
  parts : List Bytes
  /-- The block size of the last answer, and the frames that have come since. -/
  granted : Nat
  since : Nat
  deadline : Instant
  owed : Option FlowControl
deriving DecidableEq, Repr

namespace Underway

/-- All bytes that have come, padding of the last frame included. -/
def collected (m : Underway) : Bytes := m.head ++ m.parts.flatten

/-- The number of the frame that is to come next. -/
def nextSn (m : Underway) : Nat := (m.parts.length + 1) % 16

end Underway

/-- Where reassembly stands. A complete message is held as it is. -/
inductive Phase where
  | idle
  | underway (m : Underway)
  | done (message : Bytes)
  | failed (cause : Abort)
deriving DecidableEq, Repr

def Phase.status : Phase → Status
  | idle => .idle
  | underway _ => .receiving
  | done _ => .done
  | failed _ => .failed

/-- The complete message, or no bytes if there is none. -/
def Phase.message : Phase → Bytes
  | done message => message
  | _ => []

def Phase.owed : Phase → Option FlowControl
  | underway m => m.owed
  | _ => none

/-- A consecutive frame of a message under way. -/
def consecutive (policy : FlowPolicy) (deadline : Instant) (sn : Nat) (data : Bytes)
    (m : Underway) : Phase × Outcome :=
  if sn ≠ m.nextSn then
    (.failed (.outOfTurn m.nextSn sn), .failed (.outOfTurn m.nextSn sn))
  else
    let m := { m with parts := m.parts ++ [data], since := m.since + 1, deadline }
    if m.total ≤ m.collected.length then (.done (m.collected.take m.total), .complete m.total)
    else if m.granted ≠ 0 ∧ m.since = m.granted then
      (.underway { m with granted := policy.blockSize.toNat, since := 0 },
        .answer policy.clearToSend)
    else (.underway m, .none)

/-- One unit, for a receiver of the given capacity. -/
def accept (capacity : Nat) (cfg : Config) (policy : FlowPolicy) (now : Instant) (pdu : Pdu)
    (p : Phase) : Phase × Outcome :=
  let deadline := cfg.clock.after now cfg.nCr
  match pdu, p with
  | .single .., .done _ => (p, .none)
  | .first .., .done _ => (p, .answer .overflow)
  | .single len data, _ =>
    if capacity < len.toNat then (.failed .tooLong, .failed .tooLong)
    else (.done (data.take len.toNat), .complete len.toNat)
  | .first len data, _ =>
    if capacity < len.toNat then (.failed .tooLong, .refusal .overflow)
    else
      (.underway
        { total := len.toNat, head := data, parts := [], granted := policy.blockSize.toNat,
          since := 0, deadline, owed := none },
        .answer policy.clearToSend)
  | .consecutive sn data, .underway m => consecutive policy deadline sn.toNat data m
  | .consecutive .., _ => (p, .none)
  | .flowControl .., _ => (p, .none)
  | .invalid, _ => (p, .none)

def advance (now : Instant) (p : Phase) : Phase × Option Abort :=
  match p with
  | .underway m =>
    if now < m.deadline then (p, none)
    else
      let cause := Abort.timeout (if m.owed = none then .nCr else .nAr)
      (.failed cause, some cause)
  | _ => (p, none)

def collect (room : Nat) (p : Phase) : Phase × Except (Error Empty) Bytes :=
  match p with
  | .done message =>
    if message.length ≤ room then (.idle, .ok message)
    else (p, .error (.noRoom message.length))
  | .failed cause => (.idle, .error (.aborted cause))
  | .idle | .underway _ => (p, .error .noMessage)

/-! ### Runs -/

/-- Reassembly with the parameters that its calls are given. -/
structure Host where
  phase : Phase
  capacity : Nat
  cfg : Config
  policy : FlowPolicy

/-- One call at an instant. -/
def Host.step (h : Host) (now : Instant) : Op → Host × Reply
  | .pdu pdu =>
    let (phase, o) := accept h.capacity h.cfg h.policy now pdu h.phase
    ({ h with phase }, .outcome o)
  | .advance =>
    let (phase, cause) := advance now h.phase
    ({ h with phase }, .expired cause)
  | .collect room =>
    let (phase, result) := collect room h.phase
    ({ h with phase }, .collected result)
  | .clear => ({ h with phase := .idle }, .none)
  | .postpone fc deadline =>
    match h.phase with
    | .underway m => ({ h with phase := .underway { m with owed := some fc, deadline } }, .none)
    | _ => (h, .none)
  | .answered deadline =>
    match h.phase with
    | .underway m => ({ h with phase := .underway { m with owed := none, deadline } }, .none)
    | _ => (h, .none)
  | .setPolicy policy => ({ h with policy }, .none)
  | .setConfig cfg => ({ h with cfg }, .none)

/-- The reply to each of a list of calls, with the phase after it. -/
def Host.trace (h : Host) : List (Instant × Op) → List (Reply × Phase)
  | [] => []
  | (now, op) :: calls =>
    let (h, reply) := h.step now op
    (reply, h.phase) :: h.trace calls

end IsoTp.Assembly
