import IsoTp.Pdu.Basic

/-!
Reading a frame as a protocol data unit.

Every frame has a reading. One whose control byte is unknown, or which is too short for what its
control information says, reads as `invalid`. Bytes past the declared end are padding.
-/

namespace IsoTp.Pdu

/-- A single frame. Its length stands in the control byte, or if that half is zero in the byte
after it, a form that only frames of more than 8 bytes have; a length above 7 needs such a frame
too. -/
def decodeSingle (low : Nat) (rest : Bytes) : Pdu :=
  let long : Prop := FrameLength.classic < rest.length + 1
  if low = 0 then
    match rest with
    | [] => invalid
    | len :: data =>
      if long ∧ len ≠ 0 ∧ len.toNat ≤ data.length then single len (data.take len.toNat) else invalid
  else if (low ≤ 7 ∨ long) ∧ low ≤ rest.length then single (.ofNat low) (rest.take low)
  else invalid

/-- A first frame. The message must be too long for a single frame. -/
def decodeFirst (low : Nat) (rest : Bytes) : Pdu :=
  let declare (total : Nat) (data : Bytes) : Pdu :=
    if total ≤ singleRoom (rest.length + 1) then invalid else first (.ofNat total) data
  match rest with
  | [] => invalid
  | b :: data =>
    if 256 * low + b.toNat ≠ 0 then declare (256 * low + b.toNat) data
    else if data.length < 4 then invalid
    else declare (Bytes.toNat (data.take 4)) (data.drop 4)

/-- A flow control frame. -/
def decodeFlowControl (low : Nat) : Bytes → Pdu
  | blockSize :: stMin :: _ =>
    match FlowStatus.ofCode? low with
    | some status => flowControl status blockSize stMin
    | none => invalid
  | _ => invalid

/-- The unit that a frame carries. -/
def decode : Bytes → Pdu
  | [] => invalid
  | control :: rest =>
    let low := control.toNat % 16
    match control.toNat / 16 with
    | 0 => decodeSingle low rest
    | 1 => decodeFirst low rest
    | 2 => consecutive (.ofNat low) rest
    | 3 => decodeFlowControl low rest
    | _ => invalid

end IsoTp.Pdu
