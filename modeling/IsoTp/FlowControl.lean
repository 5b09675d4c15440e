import IsoTp.Pdu.Basic
import IsoTp.SeparationTime

/-!
Flow control as the two sides understand it: what the receiver decides to answer, and what the
sender reads out of the answer.
-/

namespace IsoTp

/-- What one flow control frame says. A block size of 0 grants the rest of the message. -/
structure FlowControl where
  status : FlowStatus
  blockSize : UInt8
  stMin : Duration
deriving DecidableEq, Repr

namespace FlowControl

/-- What a frame received from the peer says. -/
def ofWire (status : FlowStatus) (blockSize stMin : UInt8) : FlowControl :=
  ⟨status, blockSize, SeparationTime.ofWire stMin⟩

/-- The refusal of a message. -/
def overflow : FlowControl := ⟨.overflow, 0, .zero⟩

def stMinByte (fc : FlowControl) : UInt8 := SeparationTime.toByte fc.stMin

def toPdu (fc : FlowControl) : Pdu := .flowControl fc.status fc.blockSize fc.stMinByte

end FlowControl

/-- What a receiver grants to senders. It may change while a message is under way. -/
structure FlowPolicy where
  blockSize : UInt8
  stMin : Duration
deriving DecidableEq, Repr

namespace FlowPolicy

def clearToSend (p : FlowPolicy) : FlowControl := ⟨.clearToSend, p.blockSize, p.stMin⟩

/-- The answer to a first frame: a message is refused only if it is longer than `capacity`. -/
def answer (p : FlowPolicy) (total capacity : Nat) : FlowControl :=
  if capacity < total then .overflow else p.clearToSend

end FlowPolicy

end IsoTp
