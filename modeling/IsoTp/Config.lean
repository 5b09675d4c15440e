import IsoTp.FlowControl
import IsoTp.Pdu.Encode

/-!
The parameters of a channel, and which of them make a working one.
-/

namespace IsoTp

/-- The parameters of a channel. Frames go out under `txId` and come in under `rxId`. The four
timers bound the steps of a transfer: `nAr` a flow control frame on its way out, `nBs` the
sender's wait for one, `nCs` the sender's wait for the link, `nCr` the receiver's wait for the
next consecutive frame. Their deadlines lie where `clock` has them. -/
structure Config where
  txId : CanId := .standard 0
  rxId : CanId := .standard 0
  /-- The longest message to send. -/
  sendCapacity : Nat := 4095
  /-- The longest message to receive. -/
  receiveCapacity : Nat := 4095
  blockSize : UInt8 := 8
  stMin : Duration := .zero
  /-- How many requests to wait in a row the sender puts up with, if there is a limit. -/
  waitLimit : Option UInt8 := none
  padding : Option UInt8 := some Pdu.defaultFill
  frameLength : Nat := FrameLength.classic
  nAr : Duration := .ofMillis 100
  nBs : Duration := .ofMillis 100
  nCs : Duration := .ofMillis 100
  nCr : Duration := .ofMillis 100
  clock : Clock := .counter

namespace Config

/-- The same time for all four timers. -/
def withTimers (c : Config) (d : Duration) : Config :=
  { c with nAr := d, nBs := d, nCs := d, nCr := d }

/-- The parameters a channel can work with. A first frame declares the length in 32 bits and a
separation time travels as one byte, which bounds the capacity to send and `stMin`. -/
structure Valid (c : Config) : Prop where
  sendCapacity_pos : 0 < c.sendCapacity
  receiveCapacity_pos : 0 < c.receiveCapacity
  sendCapacity_lt : c.sendCapacity < 0x100000000
  frameLength_legal : FrameLength.Legal c.frameLength
  txId_ne_rxId : c.txId ≠ c.rxId
  stMin_le : c.stMin ≤ SeparationTime.longest
  nAr_pos : .zero < c.nAr
  nBs_pos : .zero < c.nBs
  nCs_pos : .zero < c.nCs
  nCr_pos : .zero < c.nCr

theorem valid_iff (c : Config) : c.Valid ↔
    0 < c.sendCapacity ∧ 0 < c.receiveCapacity ∧ c.sendCapacity < 0x100000000 ∧
    FrameLength.Legal c.frameLength ∧ c.txId ≠ c.rxId ∧ c.stMin ≤ SeparationTime.longest ∧
    .zero < c.nAr ∧ .zero < c.nBs ∧ .zero < c.nCs ∧ .zero < c.nCr :=
  ⟨fun ⟨a, b, c, d, e, f, g, h, i, j⟩ => ⟨a, b, c, d, e, f, g, h, i, j⟩,
   fun ⟨a, b, c, d, e, f, g, h, i, j⟩ => ⟨a, b, c, d, e, f, g, h, i, j⟩⟩

instance (c : Config) : Decidable c.Valid := decidable_of_iff _ (valid_iff c).symm

/-- What the receiver grants until told otherwise. -/
def policy (c : Config) : FlowPolicy := ⟨c.blockSize, c.stMin⟩

/-- The longest message that goes in a single frame. -/
def singleRoom (c : Config) : Nat := Pdu.singleRoom c.frameLength

/-- The part of a message of `total` bytes that goes in its first frame. -/
def firstRoom (c : Config) (total : Nat) : Nat := Pdu.firstRoom c.frameLength total

/-- The part of a message that goes in one consecutive frame. -/
def consecutiveRoom (c : Config) : Nat := Pdu.consecutiveRoom c.frameLength

/-- The frame of a unit under these parameters. -/
def encode? (c : Config) (pdu : Pdu) : Option Bytes := pdu.encode? c.frameLength c.padding

end Config

end IsoTp
