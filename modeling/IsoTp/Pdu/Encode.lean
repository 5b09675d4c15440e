import IsoTp.Pdu.Basic

/-!
Writing a protocol data unit as a frame.

`Pdu.encode?` first writes the unit with no byte to spare and then fills the frame: up to the
frame length of the link if a padding byte is configured, else only as far as the next size
that a frame can have. It fails on units that no frame of the link can hold.
-/

namespace IsoTp.Pdu

/-- The byte that fills a frame when no padding byte is configured, and the usual choice of one. -/
def defaultFill : UInt8 := 0xCC

/-- The control information of a first frame. -/
def firstHeader (total : Nat) : Bytes :=
  if total ≤ shortLengthMax then [.ofNat (0x10 + total / 256), .ofNat total]
  else 0x10 :: 0x00 :: Bytes.ofNat32 total

/-- The frame of a unit before it is filled. A frame that will be padded past 8 bytes needs the
long form of a single frame, in which the length has a byte of its own. -/
def bare? (frameLength : Nat) (padded : Bool) : Pdu → Option Bytes
  | single len data =>
    if len = 0 ∨ data.length < len.toNat then none
    else if len.toNat ≤ 7 ∧ ¬(padded ∧ FrameLength.classic < frameLength) then
      some (len :: data.take len.toNat)
    else if len.toNat ≤ singleRoom frameLength then some (0x00 :: len :: data.take len.toNat)
    else none
  | first len data =>
    if len.toNat ≤ singleRoom frameLength ∨ data = [] then none
    else some (firstHeader len.toNat ++ data.take (min (firstRoom frameLength len.toNat) len.toNat))
  | consecutive sn data =>
    if data.length ≤ consecutiveRoom frameLength then some (.ofNat (0x20 + sn.toNat % 16) :: data)
    else none
  | flowControl status blockSize stMin => some [.ofNat (0x30 + status.code), blockSize, stMin]
  | invalid => none

/-- Fills a frame to the frame length with the padding byte, or without one to the next size. -/
def fill (frameLength : Nat) (padding : Option UInt8) (used : Bytes) : Bytes :=
  match padding with
  | some b => used ++ .replicate (frameLength - used.length) b
  | none => used ++ .replicate (FrameLength.roundUp used.length - used.length) defaultFill

/-- The frame of a unit on a link with frames of `frameLength` bytes. -/
def encode? (frameLength : Nat) (padding : Option UInt8) (pdu : Pdu) : Option Bytes :=
  if FrameLength.Legal frameLength then
    (pdu.bare? frameLength padding.isSome).map (fill frameLength padding)
  else none

/-- The listing of an encoded frame, its bytes in decimal. -/
def listing (frame : Bytes) : String :=
  "RawFrame([" ++ ", ".intercalate (frame.map fun b => Nat.repr b.toNat) ++ "])"

end IsoTp.Pdu
