import IsoTp.Can.Frame

/-!
Protocol data units, and how much of a message each kind of frame has room for.

A message of a few bytes goes in a single frame. A longer one goes in a first frame, which
declares its length, and consecutive frames numbered modulo 16. The receiver steers the sender
with flow control frames. Addressing is normal: the control information starts at the first
byte of the frame.
-/

namespace IsoTp

/-- What a flow control frame asks of the sender: go on, wait, or give up the message. -/
inductive FlowStatus where
  | clearToSend
  | wait
  | overflow
deriving DecidableEq, Repr

namespace FlowStatus

/-- The low half of the control byte. -/
def code : FlowStatus → Nat
  | clearToSend => 0
  | wait => 1
  | overflow => 2

def ofCode? : Nat → Option FlowStatus
  | 0 => some clearToSend
  | 1 => some wait
  | 2 => some overflow
  | _ => none

@[simp] theorem ofCode?_code (s : FlowStatus) : ofCode? s.code = some s := by cases s <;> rfl

end FlowStatus

/-- A protocol data unit. The data of a first frame is the start of the message and that of a
consecutive frame its continuation, both with whatever padding follows. A flow control unit holds
its separation time as the byte on the wire. `invalid` stands for a frame that is none of these. -/
inductive Pdu where
  | single (len : UInt8) (data : Bytes)
  | first (len : UInt32) (data : Bytes)
  | consecutive (sn : UInt8) (data : Bytes)
  | flowControl (status : FlowStatus) (blockSize stMin : UInt8)
  | invalid
deriving DecidableEq, Repr

namespace Pdu

/-- The longest length that a first frame declares in 12 bits. -/
def shortLengthMax : Nat := 0x0FFF

/-- The bytes of control information that start the first frame of a message of `total` bytes: a
length of 12 bits fits the control byte and one more, a longer one takes four bytes after them. -/
def firstHeaderLength (total : Nat) : Nat := if total ≤ shortLengthMax then 2 else 6

/-- The longest message that a single frame of `frameLength` bytes carries. -/
def singleRoom (frameLength : Nat) : Nat :=
  if frameLength ≤ FrameLength.classic then frameLength - 1 else frameLength - 2

/-- The bytes of a message of `total` bytes that its first frame has room for. -/
def firstRoom (frameLength total : Nat) : Nat := frameLength - firstHeaderLength total

/-- The bytes of a message that one consecutive frame has room for. -/
def consecutiveRoom (frameLength : Nat) : Nat := frameLength - 1

end Pdu

end IsoTp
