import IsoTp.Proofs.Pdu.Canonical

/-!
Reading a frame that goes on.

Padding may follow the bytes that a frame needs, and the reader looks at the length of a frame in
several places. A single frame and flow control read the same whatever follows them. The data of a
first or consecutive frame goes on with what follows, for only the receiver knows where the message
ends; and a first frame is refused as soon as a single frame of its size has room for its message.
-/

namespace IsoTp.Pdu

variable {low : Nat} {rest data : Bytes}

/-- What a unit becomes when its frame goes on with `more` and is then of `size` bytes. -/
def followedBy (more : Bytes) (size : Nat) : Pdu → Pdu
  | single len data => single len data
  | first len data =>
    if singleRoom size < len.toNat then first len (data ++ more) else invalid
  | consecutive sn data => consecutive sn (data ++ more)
  | flowControl status blockSize stMin => flowControl status blockSize stMin
  | invalid => invalid

/-- More bytes keep a long frame long and leave the declared ones where they are. -/
lemma decodeSingle_append {len : UInt8} (h : decodeSingle low rest = single len data)
    (more : Bytes) : decodeSingle low (rest ++ more) = single len data := by
  simp only [decodeSingle] at h ⊢
  split at h
  · next hzero =>
    rw [if_pos hzero]
    cases rest with
    | nil => cases h
    | cons b tail =>
      dsimp only [List.cons_append] at h ⊢
      split at h
      · next hread =>
        obtain ⟨hlong, hne, hfits⟩ := hread
        cases h
        have hlonger : FrameLength.classic < (len :: (tail ++ more)).length + 1 := by
          simp only [List.length_cons, List.length_append] at hlong ⊢
          omega
        have hstill : len.toNat ≤ (tail ++ more).length := by
          rw [List.length_append]
          omega
        rw [if_pos ⟨hlonger, hne, hstill⟩, List.take_append_of_le_length hfits]
      · cases h
  · next hlow =>
    rw [if_neg hlow]
    split at h
    · next hread =>
      obtain ⟨hform, hfits⟩ := hread
      cases h
      have hstill : (low ≤ 7 ∨ FrameLength.classic < (rest ++ more).length + 1) ∧
          low ≤ (rest ++ more).length := by
        rw [List.length_append]
        omega
      rw [if_pos hstill, List.take_append_of_le_length hfits]
    · cases h

/-- A length that was declared is declared again; what may have changed is the room of a single
frame. -/
lemma declared_append {total room : Nat} {len : UInt32} (htotal : total < 0x100000000)
    (h : (if total ≤ room then invalid else first (.ofNat total) rest) = first len data)
    (more : Bytes) (size : Nat) :
    (if total ≤ singleRoom size then invalid else first (.ofNat total) (rest ++ more)) =
      (first len data).followedBy more size := by
  obtain ⟨-, rfl, rfl⟩ := of_declared htotal h
  rw [UInt32.ofNat_toNat, followedBy]
  by_cases hroom : len.toNat ≤ singleRoom size
  · rw [if_pos hroom, if_neg (Nat.not_lt.2 hroom)]
  · rw [if_neg hroom, if_pos (Nat.not_le.1 hroom)]

/-- The length is read from the same bytes, and the frame is longer. -/
lemma decodeFirst_append {len : UInt32} (hlow : low < 16)
    (h : decodeFirst low rest = first len data) (more : Bytes) :
    decodeFirst low (rest ++ more) =
      (first len data).followedBy more (rest.length + 1 + more.length) := by
  cases rest with
  | nil => cases h
  | cons b tail =>
    have hb := b.toNat_lt
    have hsize : (b :: (tail ++ more)).length + 1 = (b :: tail).length + 1 + more.length := by
      simp only [List.length_cons, List.length_append]
      omega
    simp only [List.cons_append, decodeFirst, hsize] at h ⊢
    split at h
    · next hshort =>
      rw [if_pos hshort]
      exact declared_append (by omega) h more _
    · next hzero =>
      rw [if_neg hzero]
      split at h
      · cases h
      · next hfour =>
        obtain ⟨w, x, y, z, tail, rfl⟩ := Bytes.exists_four hfour
        rw [if_neg (by simp)]
        exact declared_append (Bytes.toNat_four_lt w x y z) h more _

lemma decodeFlowControl_append {status : FlowStatus} {blockSize stMin : UInt8}
    (h : decodeFlowControl low rest = flowControl status blockSize stMin) (more : Bytes) :
    decodeFlowControl low (rest ++ more) = flowControl status blockSize stMin := by
  rcases rest with _ | ⟨b, _ | ⟨s, tail⟩⟩
  · cases h
  · cases h
  · exact h

/-- **Reading does not depend on what follows.** If any bytes follow a frame that reads as a unit,
then single frames and flow control read as before, the data of consecutive and first frames goes
on with the bytes, and only a first frame whose message now has room in a single frame is refused.
A first frame never has all bytes of its message. -/
theorem decode_append (f more : Bytes) (h : decode f ≠ invalid) :
    decode (f ++ more) = (decode f).followedBy more (f.length + more.length) ∧
      ∀ len data, decode f = first len data → data.length < len.toNat := by
  refine ⟨?_, fun len data hfirst => ?_⟩
  · -- the two frames share the control byte, and the unit that was read tells its kind
    cases hu : decode f with
    | single len data =>
      obtain ⟨control, rest, rfl, hkind⟩ := exists_control hu rfl
      rw [decode_of_kind_zero hkind] at hu
      rw [List.cons_append, decode_of_kind_zero hkind, decodeSingle_append hu]
      rfl
    | first len data =>
      obtain ⟨control, rest, rfl, hkind⟩ := exists_control hu rfl
      rw [decode_of_kind_one hkind] at hu
      rw [List.cons_append, decode_of_kind_one hkind,
        decodeFirst_append (Nat.mod_lt _ (by decide)) hu, List.length_cons]
    | consecutive sn data =>
      obtain ⟨control, rest, rfl, hkind⟩ := exists_control hu rfl
      rw [decode_of_kind_two hkind] at hu
      cases hu
      rw [List.cons_append, decode_of_kind_two hkind]
      rfl
    | flowControl status blockSize stMin =>
      obtain ⟨control, rest, rfl, hkind⟩ := exists_control hu rfl
      rw [decode_of_kind_three hkind] at hu
      rw [List.cons_append, decode_of_kind_three hkind, decodeFlowControl_append hu]
      rfl
    | invalid => exact absurd hu h
  · have hproper := proper_decode f
    rwa [hfirst] at hproper

/-- The first frame of a message of ten bytes in a frame of 8: three bytes of padding are taken for
data, and with a fourth the message has room in a single frame. -/
theorem decode_append_ten_bytes :
    let opening : Bytes := [0x10, 0x0A, 1, 2, 3, 4, 5, 6]
    decode opening ≠ invalid ∧
      decode (opening ++ [0xCC, 0xCC, 0xCC]) = first 10 [1, 2, 3, 4, 5, 6, 0xCC, 0xCC, 0xCC] ∧
      decode (opening ++ [0xCC, 0xCC, 0xCC, 0xCC]) = invalid := by
  intro opening
  have hread : decode opening = first 10 [1, 2, 3, 4, 5, 6] := by decide
  have hne : decode opening ≠ invalid := by rw [hread]; simp
  refine ⟨hne, ?_, ?_⟩
  · rw [(decode_append opening [0xCC, 0xCC, 0xCC] hne).1, hread]
    rfl
  · rw [(decode_append opening [0xCC, 0xCC, 0xCC, 0xCC] hne).1, hread]
    rfl

end IsoTp.Pdu
