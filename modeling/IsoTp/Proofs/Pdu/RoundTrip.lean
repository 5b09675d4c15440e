import Mathlib.Tactic.Lemma
import Mathlib.Tactic.Set
import IsoTp.Pdu.Decode
import IsoTp.Pdu.Encode

/-!
Reading back what was written.

A frame that was written for a unit reads as that unit, except that consecutive and first frames
keep the bytes that fill the frame: nothing in them says where the message ends. Filling never
takes a frame past the frame length of the link, so a unit whose data leaves no room reads back
as it was.
-/

namespace IsoTp

namespace FrameLength

lemma legal_bounds {n : Nat} (h : Legal n) : 8 ≤ n ∧ n ≤ 64 := by
  revert n
  decide

lemma roundUp_bounds {used n : Nat} (hn : Legal n) (h : used ≤ n) :
    used ≤ roundUp used ∧ roundUp used ≤ n := by
  have key : ∀ n ∈ all, ∀ used ≤ n, used ≤ roundUp used ∧ roundUp used ≤ n := by decide
  exact key n hn used h

end FrameLength

namespace Pdu

variable {frameLength : Nat} {padding : Option UInt8} {f : Bytes}

/-! ### Filling -/

/-- The bytes that fill a frame are copies of one byte and stay within the frame length; with
padding they reach it. -/
lemma fill_eq (padding : Option UInt8) (used : Bytes) (hL : FrameLength.Legal frameLength)
    (h : used.length ≤ frameLength) :
    ∃ n, fill frameLength padding used = used ++ .replicate n (padding.getD defaultFill) ∧
      used.length + n ≤ frameLength ∧ (padding.isSome → used.length + n = frameLength) := by
  cases padding with
  | some b => exact ⟨_, rfl, by omega, fun _ => by omega⟩
  | none =>
    have := FrameLength.roundUp_bounds hL h
    exact ⟨_, rfl, by omega, by simp⟩

lemma encode?_eq_some_iff {pdu : Pdu} : pdu.encode? frameLength padding = some f ↔
    FrameLength.Legal frameLength ∧
      ∃ used, pdu.bare? frameLength padding.isSome = some used ∧
        fill frameLength padding used = f := by
  unfold encode?
  split <;> simp_all

/-! ### What can be written -/

lemma isSome_encode? {pdu : Pdu} (hL : FrameLength.Legal frameLength) :
    (pdu.encode? frameLength padding).isSome ↔ (pdu.bare? frameLength padding.isSome).isSome := by
  unfold encode?
  rw [if_pos hL, Option.isSome_map]

/-- A single frame is written if its length is that of data that has room in one. -/
theorem isSome_encode?_single {len : UInt8} {data : Bytes} (hL : FrameLength.Legal frameLength) :
    ((single len data).encode? frameLength padding).isSome ↔
      1 ≤ len.toNat ∧ len.toNat ≤ data.length ∧ len.toNat ≤ singleRoom frameLength := by
  have h7 : 7 ≤ singleRoom frameLength := by
    have hclassic : FrameLength.classic = 8 := rfl
    have := (FrameLength.legal_bounds hL).1
    unfold singleRoom
    split <;> omega
  have h0 : len = 0 ↔ len.toNat = 0 := UInt8.toNat_inj.symm
  rw [isSome_encode? hL]
  simp only [bare?]
  split
  · next h =>
    rw [h0] at h
    simp only [Option.isSome_none, Bool.false_eq_true, false_iff]
    omega
  · next h =>
    rw [h0] at h
    split
    · simp only [Option.isSome_some, true_iff]
      omega
    · split
      · simp only [Option.isSome_some, true_iff]
        omega
      · simp only [Option.isSome_none, Bool.false_eq_true, false_iff]
        omega

/-- A first frame is written if it has data and its message has no room in a single frame. -/
theorem isSome_encode?_first {len : UInt32} {data : Bytes} (hL : FrameLength.Legal frameLength) :
    ((first len data).encode? frameLength padding).isSome ↔
      singleRoom frameLength < len.toNat ∧ data ≠ [] := by
  rw [isSome_encode? hL]
  simp only [bare?]
  split
  · next h =>
    simp only [Option.isSome_none, Bool.false_eq_true, false_iff]
    rcases h with h | h
    · omega
    · simp [h]
  · next h => simpa using h

/-- A consecutive frame is written if there is room for its data. -/
theorem isSome_encode?_consecutive {sn : UInt8} {data : Bytes}
    (hL : FrameLength.Legal frameLength) :
    ((consecutive sn data).encode? frameLength padding).isSome ↔
      data.length ≤ consecutiveRoom frameLength := by
  rw [isSome_encode? hL]
  simp only [bare?]
  split <;> simp_all

/-- Flow control is always written. -/
theorem isSome_encode?_flowControl {status : FlowStatus} {blockSize stMin : UInt8}
    (hL : FrameLength.Legal frameLength) :
    ((flowControl status blockSize stMin).encode? frameLength padding).isSome := by
  rw [isSome_encode? hL]
  rfl

/-! ### Control bytes

The high half of the control byte tells the kind of a frame, the low half belongs to its fields. -/

variable {control : UInt8} {rest : Bytes}

lemma decode_of_kind_zero (h : control.toNat / 16 = 0) :
    decode (control :: rest) = decodeSingle (control.toNat % 16) rest := by
  simp only [decode, h]

lemma decode_of_kind_one (h : control.toNat / 16 = 1) :
    decode (control :: rest) = decodeFirst (control.toNat % 16) rest := by
  simp only [decode, h]

lemma decode_of_kind_two (h : control.toNat / 16 = 2) :
    decode (control :: rest) = consecutive (.ofNat (control.toNat % 16)) rest := by
  simp only [decode, h]

lemma decode_of_kind_three (h : control.toNat / 16 = 3) :
    decode (control :: rest) = decodeFlowControl (control.toNat % 16) rest := by
  simp only [decode, h]

lemma consecutive_control (n : Nat) :
    (UInt8.ofNat (0x20 + n % 16)).toNat / 16 = 2 ∧
      (UInt8.ofNat (0x20 + n % 16)).toNat % 16 = n % 16 := by
  simp only [UInt8.toNat_ofNat']
  omega

lemma first_control {n : Nat} (h : n ≤ shortLengthMax) :
    (UInt8.ofNat (0x10 + n / 256)).toNat / 16 = 1 ∧
      (UInt8.ofNat (0x10 + n / 256)).toNat % 16 = n / 256 := by
  simp only [UInt8.toNat_ofNat', shortLengthMax] at *
  omega

lemma flowControl_control (s : FlowStatus) :
    (UInt8.ofNat (0x30 + s.code)).toNat / 16 = 3 ∧
      (UInt8.ofNat (0x30 + s.code)).toNat % 16 = s.code := by
  cases s <;> decide

/-! ### The round trip, kind by kind -/

/-- Flow control reads back as it was. -/
theorem decode_flowControl {status : FlowStatus} {blockSize stMin : UInt8}
    (h : (flowControl status blockSize stMin).encode? frameLength padding = some f) :
    decode f = flowControl status blockSize stMin := by
  obtain ⟨hL, used, hused, rfl⟩ := encode?_eq_some_iff.1 h
  have hL8 := (FrameLength.legal_bounds hL).1
  cases hused
  obtain ⟨n, hfill, -⟩ := fill_eq padding [.ofNat (0x30 + status.code), blockSize, stMin] hL
    (by simp only [List.length_cons, List.length_nil]; omega)
  obtain ⟨hkind, hlow⟩ := flowControl_control status
  rw [hfill, List.cons_append, decode_of_kind_three hkind, hlow]
  simp [decodeFlowControl]

/-- A consecutive frame reads back with its fill as data. -/
theorem decode_consecutive {sn : UInt8} {data : Bytes}
    (h : (consecutive sn data).encode? frameLength padding = some f) :
    ∃ n, decode f = consecutive (.ofNat (sn.toNat % 16))
        (data ++ .replicate n (padding.getD defaultFill)) ∧
      data.length + n ≤ consecutiveRoom frameLength := by
  obtain ⟨hL, used, hused, rfl⟩ := encode?_eq_some_iff.1 h
  have hL8 := (FrameLength.legal_bounds hL).1
  simp only [bare?] at hused
  rw [Option.ite_none_right_eq_some] at hused
  obtain ⟨hlen, hused⟩ := hused
  cases hused
  unfold consecutiveRoom at hlen ⊢
  obtain ⟨n, hfill, hn, -⟩ := fill_eq padding (.ofNat (0x20 + sn.toNat % 16) :: data) hL
    (by simp only [List.length_cons]; omega)
  refine ⟨n, ?_, by simp only [List.length_cons] at hn; omega⟩
  obtain ⟨hkind, hlow⟩ := consecutive_control sn.toNat
  rw [hfill, List.cons_append, decode_of_kind_two hkind, hlow]

lemma singleRoom_mono {m n : Nat} (h : m ≤ n) : singleRoom m ≤ singleRoom n := by
  unfold singleRoom FrameLength.classic
  split <;> split <;> omega

/-- The header of a first frame and any data after it read as a first frame, if the message is too
long for a single frame of the same size. -/
lemma decode_firstHeader {len : UInt32} {data : Bytes}
    (h : singleRoom (firstHeaderLength len.toNat + data.length) < len.toNat) :
    decode (firstHeader len.toNat ++ data) = first len data := by
  have hlen : len.toNat < 0x100000000 := len.toNat_lt
  unfold firstHeader firstHeaderLength at *
  split
  · next hshort =>
    rw [if_pos hshort] at h
    obtain ⟨hkind, hlow⟩ := first_control hshort
    have hb : 256 * (len.toNat / 256) + (UInt8.ofNat len.toNat).toNat = len.toNat := by
      simp only [UInt8.toNat_ofNat']
      omega
    have hsize : data.length + 1 + 1 = 2 + data.length := by omega
    rw [List.cons_append, decode_of_kind_one hkind, hlow]
    simp only [List.cons_append, List.nil_append, decodeFirst, hb, List.length_cons, hsize]
    rw [if_pos (by omega), if_neg (by omega), UInt32.ofNat_toNat]
  · next hlong =>
    rw [if_neg hlong] at h
    have hread : Bytes.toNat ((Bytes.ofNat32 len.toNat ++ data).take 4) = len.toNat := by
      rw [List.take_append_of_le_length (by simp), List.take_of_length_le (by simp),
        Bytes.toNat_ofNat32 hlen]
    have hrest : (Bytes.ofNat32 len.toNat ++ data).drop 4 = data := by
      rw [List.drop_append_of_le_length (by simp), List.drop_of_length_le (by simp)]
      rfl
    have hsize : (Bytes.ofNat32 len.toNat ++ data).length + 1 + 1 = 6 + data.length := by
      simp
      omega
    rw [List.cons_append, List.cons_append, decode_of_kind_one (by decide)]
    simp only [decodeFirst, hread, hrest, List.length_cons, hsize]
    rw [if_neg (by decide), if_neg (by simp), if_neg (by omega), UInt32.ofNat_toNat]

lemma length_firstHeader (n : Nat) : (firstHeader n).length = firstHeaderLength n := by
  unfold firstHeader firstHeaderLength
  split <;> simp

/-- A first frame reads back with its fill as data. -/
theorem decode_first {len : UInt32} {data : Bytes}
    (h : (first len data).encode? frameLength padding = some f) :
    ∃ n, decode f = first len (data.take (firstRoom frameLength len.toNat) ++
        .replicate n (padding.getD defaultFill)) ∧
      min data.length (firstRoom frameLength len.toNat) + n ≤
        firstRoom frameLength len.toNat := by
  obtain ⟨hL, used, hused, rfl⟩ := encode?_eq_some_iff.1 h
  have hL8 := (FrameLength.legal_bounds hL).1
  simp only [bare?] at hused
  rw [Option.ite_none_left_eq_some, not_or] at hused
  obtain ⟨⟨hlong, -⟩, hused⟩ := hused
  cases hused
  -- the first part is never longer than the message
  have hroom : firstRoom frameLength len.toNat ≤ singleRoom frameLength := by
    unfold firstRoom firstHeaderLength singleRoom
    split <;> split <;> omega
  have hheader : firstHeaderLength len.toNat + firstRoom frameLength len.toNat = frameLength := by
    unfold firstRoom firstHeaderLength
    split <;> omega
  rw [Nat.min_eq_left (by omega)]
  set part := data.take (firstRoom frameLength len.toNat) with hpart
  have hlen : part.length = min data.length (firstRoom frameLength len.toNat) := by
    rw [hpart, List.length_take, Nat.min_comm]
  obtain ⟨n, hfill, hn, -⟩ := fill_eq padding (firstHeader len.toNat ++ part) hL
    (by rw [List.length_append, length_firstHeader, hlen]; omega)
  rw [List.length_append, length_firstHeader, hlen] at hn
  refine ⟨n, ?_, by omega⟩
  rw [hfill, List.append_assoc, decode_firstHeader]
  refine Nat.lt_of_le_of_lt (singleRoom_mono ?_) (Nat.not_le.1 hlong)
  rw [List.length_append, List.length_replicate, hlen]
  omega

/-- A length in the control byte is read with the data that it counts. -/
lemma decode_shortHeader {len : UInt8} {data rest : Bytes} (hpos : len ≠ 0) (hlen : len.toNat ≤ 7)
    (hdata : data.length = len.toNat) : decode (len :: (data ++ rest)) = single len data := by
  have hne : len.toNat ≠ 0 := fun h0 => hpos (UInt8.toNat_inj.1 h0)
  have hlow : len.toNat % 16 = len.toNat := by omega
  have hfits : len.toNat ≤ (data ++ rest).length := by
    rw [List.length_append, hdata]
    omega
  rw [decode_of_kind_zero (by omega), hlow]
  simp only [decodeSingle]
  rw [if_neg hne, if_pos ⟨Or.inl hlen, hfits⟩, List.take_left' hdata, UInt8.ofNat_toNat]

/-- A length in a byte of its own is read in frames of more than 8 bytes. -/
lemma decode_longHeader {len : UInt8} {data rest : Bytes} (hpos : len ≠ 0)
    (hdata : data.length = len.toNat)
    (hmany : FrameLength.classic < (data ++ rest).length + 1 + 1) :
    decode (0x00 :: len :: (data ++ rest)) = single len data := by
  have hfits : len.toNat ≤ (data ++ rest).length := by
    rw [List.length_append, hdata]
    omega
  rw [decode_of_kind_zero (by decide)]
  simp only [decodeSingle]
  rw [if_pos (by decide), if_pos ⟨hmany, hpos, hfits⟩, List.take_left' hdata]

/-- A single frame reads back as the bytes that its length declares. -/
theorem decode_single {len : UInt8} {data : Bytes}
    (h : (single len data).encode? frameLength padding = some f) :
    decode f = single len (data.take len.toNat) := by
  obtain ⟨hL, used, hused, rfl⟩ := encode?_eq_some_iff.1 h
  have hL8 := (FrameLength.legal_bounds hL).1
  simp only [bare?] at hused
  rw [Option.ite_none_left_eq_some, not_or] at hused
  obtain ⟨⟨hpos, hdata⟩, hused⟩ := hused
  have hpart : (data.take len.toNat).length = len.toNat := by
    rw [List.length_take]
    omega
  split at hused
  · next hshort =>
    cases hused
    obtain ⟨n, hfill, -, -⟩ := fill_eq padding (len :: data.take len.toNat) hL
      (by rw [List.length_cons, hpart]; omega)
    rw [hfill, List.cons_append, decode_shortHeader hpos hshort.1 hpart]
  · next hlong =>
    rw [Option.ite_none_right_eq_some] at hused
    obtain ⟨hroom, hused⟩ := hused
    cases hused
    have hsize : 2 + len.toNat ≤ frameLength := by
      have hclassic : FrameLength.classic = 8 := rfl
      unfold singleRoom at hroom
      split at hroom <;> omega
    obtain ⟨n, hfill, hn, hfull⟩ := fill_eq padding (0x00 :: len :: data.take len.toNat) hL
      (by rw [List.length_cons, List.length_cons, hpart]; omega)
    simp only [List.length_cons, hpart] at hn hfull
    rw [hfill, List.cons_append, List.cons_append, decode_longHeader hpos hpart]
    rw [List.length_append, hpart, List.length_replicate]
    by_cases h7 : len.toNat ≤ 7
    · obtain ⟨hpad, h8⟩ := Decidable.not_not.1 fun hc => hlong ⟨h7, hc⟩
      have := hfull hpad
      omega
    · have hclassic : FrameLength.classic = 8 := rfl
      omega

/-! ### All units -/

/-- A unit that has a frame on a link with frames of this length. -/
def Writable (frameLength : Nat) : Pdu → Prop
  | single len data => 1 ≤ len.toNat ∧ len.toNat ≤ min data.length (singleRoom frameLength)
  | first len data => singleRoom frameLength < len.toNat ∧ data ≠ []
  | consecutive _ data => data.length ≤ frameLength - 1
  | flowControl .. => True
  | invalid => False

/-- What the frame of a unit reads as. A single frame ends with the bytes that it declares; the data
of a first or consecutive frame goes on with what fills the frame. -/
def readBack (frameLength : Nat) (fill : Bytes) : Pdu → Pdu
  | single len data => single len (data.take len.toNat)
  | first len data =>
    let header := if 4095 < len.toNat then 6 else 2
    first len (data.take (min data.length (frameLength - header)) ++ fill)
  | consecutive sn data => consecutive (.ofNat (sn.toNat % 16)) (data ++ fill)
  | flowControl status blockSize stMin => flowControl status blockSize stMin
  | invalid => invalid

/-- A unit whose data leaves nothing of a frame of this length to be filled. -/
def Full (frameLength : Nat) : Pdu → Prop
  | first len data => frameLength - (if 4095 < len.toNat then 6 else 2) ≤ data.length
  | consecutive _ data => data.length = frameLength - 1
  | _ => False

lemma isSome_encode?_iff_writable (hL : FrameLength.Legal frameLength) (pdu : Pdu) :
    (pdu.encode? frameLength padding).isSome ↔ pdu.Writable frameLength := by
  cases pdu with
  | single len data =>
    rw [isSome_encode?_single hL, Writable]
    omega
  | first len data => exact isSome_encode?_first hL
  | consecutive sn data => exact isSome_encode?_consecutive hL
  | flowControl status blockSize stMin =>
    exact iff_of_true (isSome_encode?_flowControl hL) trivial
  | invalid =>
    rw [isSome_encode? hL]
    simp [bare?, Writable]

lemma firstRoom_eq (frameLength total : Nat) :
    firstRoom frameLength total = frameLength - if 4095 < total then 6 else 2 := by
  unfold firstRoom firstHeaderLength shortLengthMax
  by_cases h : total ≤ 4095
  · rw [if_pos h, if_neg (by omega)]
  · rw [if_neg h, if_pos (by omega)]

/-- **Reading undoes writing.** On a link with frames of any legal length, padded or not, exactly
the units that are `Writable` have a frame; and that frame reads as the unit it was written for, but
that the data of first and consecutive frames goes on with copies of the padding byte, of which
there are none if the data fills the frame. -/
theorem decode_of_encode? (hL : FrameLength.Legal frameLength) (padding : Option UInt8)
    (pdu : Pdu) :
    ((pdu.encode? frameLength padding).isSome ↔ pdu.Writable frameLength) ∧
      ∀ f, pdu.encode? frameLength padding = some f →
        ∃ n, decode f = pdu.readBack frameLength (.replicate n (padding.getD 0xCC)) ∧
          (pdu.Full frameLength → n = 0) := by
  refine ⟨isSome_encode?_iff_writable hL pdu, fun f hf => ?_⟩
  cases pdu with
  | single len data => exact ⟨0, decode_single hf, fun hfull => hfull.elim⟩
  | first len data =>
    obtain ⟨n, hread, hn⟩ := decode_first hf
    rw [firstRoom_eq] at hread hn
    refine ⟨n, ?_, fun hfull => ?_⟩
    · rw [hread, readBack, Nat.min_comm, ← List.take_take, List.take_length]
      rfl
    · have hroom : frameLength - (if 4095 < len.toNat then 6 else 2) ≤ data.length := hfull
      omega
  | consecutive sn data =>
    obtain ⟨n, hread, hn⟩ := decode_consecutive hf
    refine ⟨n, hread, fun hfull => ?_⟩
    have hlength : data.length = consecutiveRoom frameLength := hfull
    omega
  | flowControl status blockSize stMin => exact ⟨0, decode_flowControl hf, fun hfull => hfull.elim⟩
  | invalid =>
    rw [encode?, if_pos hL] at hf
    cases hf

/-- A first frame of a long message with three bytes of it, in a frame of 12 bytes. -/
theorem decode_of_encode?_first_with_fill :
    FrameLength.Legal 12 ∧ ∃ f n, (first 5000 [1, 2, 3]).encode? 12 none = some f ∧
      decode f = first 5000 ([1, 2, 3] ++ .replicate n 0xCC) := by
  have hL : FrameLength.Legal 12 := by decide
  obtain ⟨hsome, hread⟩ := decode_of_encode? hL none (first 5000 [1, 2, 3])
  obtain ⟨f, hf⟩ := Option.isSome_iff_exists.1 (hsome.2 ⟨by decide, by decide⟩)
  obtain ⟨n, hn, -⟩ := hread f hf
  exact ⟨hL, f, n, hf, hn⟩

end Pdu

end IsoTp
