import IsoTp.Proofs.Pdu.Proper
import IsoTp.Proofs.Pdu.RoundTrip

/-!
Writing again what was read.

Some units stand in more than one frame: a short length may take 32 bits, the length of a single
frame may be in either place, and anything may follow the bytes that a frame declares. The writer
has one frame for each unit. A frame that is full and has its length where the writer puts it comes
back byte by byte; of the others only the unit does. What cannot be written at all is a single frame
whose length stands in the control byte and whose data fills the rest of more than 8 bytes: next to
a length byte of its own there is no room for so much.
-/

namespace IsoTp.Pdu

variable {frameLength : Nat} {f data : Bytes}

/-! ### Which bytes a unit is read from -/

/-- A first frame with its length in the four bytes after a length of zero. -/
def LongForm (f : Bytes) : Prop := f.take 2 = [0x10, 0x00]

lemma exists_control {u : Pdu} {k : Nat} (h : decode f = u) (hu : u.kind? = some k) :
    ∃ control rest, f = control :: rest ∧ control.toNat / 16 = k := by
  have hne : decode f ≠ invalid := fun hinvalid => by
    rw [← h, hinvalid] at hu
    cases hu
  have hkind := kind?_decode (f := ⟨.standard 0, f, false⟩) hne
  rw [h, hu] at hkind
  cases f with
  | nil => cases hkind
  | cons control rest => exact ⟨control, rest, rfl, by simpa [Frame.kind?] using hkind.symm⟩

lemma eq_of_decode_consecutive {sn : UInt8} (h : decode f = consecutive sn data) :
    f = .ofNat (0x20 + sn.toNat % 16) :: data := by
  obtain ⟨control, rest, rfl, hkind⟩ := exists_control h rfl
  rw [decode_of_kind_two hkind] at h
  cases h
  congr 1
  rw [← UInt8.toNat_inj]
  simp only [UInt8.toNat_ofNat']
  omega

/-- The control byte and the byte after it are the usual header of a length in twelve bits. -/
lemma firstHeader_eq {control b : UInt8} (hkind : control.toNat / 16 = 1) :
    firstHeader (256 * (control.toNat % 16) + b.toNat) = [control, b] := by
  have hb := b.toNat_lt
  have hcontrol :
      UInt8.ofNat (0x10 + (256 * (control.toNat % 16) + b.toNat) / 256) = control := by
    rw [← UInt8.toNat_inj, UInt8.toNat_ofNat']
    omega
  have hbyte : UInt8.ofNat (256 * (control.toNat % 16) + b.toNat) = b := by
    rw [← UInt8.toNat_inj, UInt8.toNat_ofNat']
    omega
  rw [firstHeader, if_pos (by unfold shortLengthMax; omega), hcontrol, hbyte]

lemma of_declared {total room : Nat} {len : UInt32} {rest : Bytes} (htotal : total < 0x100000000)
    (h : (if total ≤ room then invalid else first (.ofNat total) rest) = first len data) :
    room < len.toNat ∧ len.toNat = total ∧ rest = data := by
  split at h
  · cases h
  · next hroom =>
    cases h
    have hlen : (UInt32.ofNat total).toNat = total := by
      rw [UInt32.toNat_ofNat']
      omega
    exact ⟨by omega, hlen, rfl⟩

/-- A first frame is the usual header of its length with the data after it, or the length is a short
one in the long form. The message is too long for a single frame of the same size. -/
lemma eq_of_decode_first {len : UInt32} (h : decode f = first len data) :
    singleRoom f.length < len.toNat ∧
      (f = firstHeader len.toNat ++ data ∨
        len.toNat ≤ shortLengthMax ∧ f = 0x10 :: 0x00 :: (Bytes.ofNat32 len.toNat ++ data)) := by
  obtain ⟨control, rest, rfl, hkind⟩ := exists_control h rfl
  rw [decode_of_kind_one hkind] at h
  cases rest with
  | nil => cases h
  | cons b tail =>
    have hb := b.toNat_lt
    simp only [decodeFirst, List.length_cons] at h
    split at h
    · obtain ⟨hroom, hlen, rfl⟩ := of_declared (by omega) h
      refine ⟨hroom, .inl ?_⟩
      rw [hlen, firstHeader_eq hkind]
      rfl
    · next hzero =>
      split at h
      · cases h
      · next hfour =>
        obtain ⟨w, x, y, z, tail, rfl⟩ := Bytes.exists_four hfour
        obtain ⟨hroom, hlen, rfl⟩ := of_declared (Bytes.toNat_four_lt w x y z) h
        have hlength : Bytes.ofNat32 len.toNat = [w, x, y, z] := by
          rw [hlen, Bytes.ofNat32_toNat]
        obtain rfl : control = 0x10 := UInt8.toNat_inj.1 (show control.toNat = 16 by omega)
        obtain rfl : b = 0x00 := UInt8.toNat_inj.1 (show b.toNat = 0 by omega)
        refine ⟨hroom, ?_⟩
        rw [firstHeader, hlength]
        split
        · next hshort => exact .inr ⟨hshort, rfl⟩
        · exact .inl rfl

/-- A single frame has its length in the control byte, which leaves 8 bytes or fewer to a length of
up to 7, or in the byte after it, in frames of more than 8 bytes. -/
lemma eq_of_decode_single {len : UInt8} (h : decode f = single len data) :
    ∃ rest, f = len :: (data ++ rest) ∧ len.toNat ≤ 15 ∧ (len.toNat ≤ 7 ∨ 8 < f.length) ∨
      f = 0x00 :: len :: (data ++ rest) ∧ 8 < f.length := by
  obtain ⟨control, rest, rfl, hkind⟩ := exists_control h rfl
  have hclassic : FrameLength.classic = 8 := rfl
  rw [decode_of_kind_zero hkind] at h
  simp only [decodeSingle] at h
  split at h
  · next hzero =>
    obtain rfl : control = 0x00 := UInt8.toNat_inj.1 (show control.toNat = 0 by omega)
    split at h
    · cases h
    · next len' tail =>
      split at h
      · next hlong =>
        cases h
        refine ⟨tail.drop len.toNat, .inr ⟨?_, ?_⟩⟩
        · rw [List.take_append_drop]
        · have := hlong.1
          simp only [List.length_cons] at this ⊢
          omega
      · cases h
  · split at h
    · next hfits =>
      cases h
      have hcontrol : UInt8.ofNat (control.toNat % 16) = control := by
        rw [← UInt8.toNat_inj, UInt8.toNat_ofNat']
        omega
      rw [hcontrol]
      refine ⟨rest.drop (control.toNat % 16), .inl ⟨?_, by omega, ?_⟩⟩
      · rw [List.take_append_drop]
      · rw [List.length_cons]
        omega
    · cases h

/-! ### Frames that come back byte by byte -/

variable {padding : Option UInt8}

/-- There is nothing to fill in a full frame. -/
lemma fill_of_full (hL : FrameLength.Legal frameLength) (hf : f.length = frameLength)
    (padding : Option UInt8) : fill frameLength padding f = f := by
  obtain ⟨n, hfill, hn, -⟩ := fill_eq padding f hL (Nat.le_of_eq hf)
  obtain rfl : n = 0 := by omega
  rw [hfill, List.replicate_zero, List.append_nil]

lemma encode?_of_bare? {u : Pdu} (hL : FrameLength.Legal frameLength)
    (hf : f.length = frameLength) (h : u.bare? frameLength padding.isSome = some f) :
    u.encode? frameLength padding = some f :=
  encode?_eq_some_iff.2 ⟨hL, f, h, fill_of_full hL hf padding⟩

lemma encode?_of_decode_consecutive {sn : UInt8} (hL : FrameLength.Legal frameLength)
    (hf : f.length = frameLength) (h : decode f = consecutive sn data) :
    (consecutive sn data).encode? frameLength padding = some f := by
  refine encode?_of_bare? hL hf ?_
  obtain rfl := eq_of_decode_consecutive h
  rw [List.length_cons] at hf
  rw [bare?, if_pos (by unfold consecutiveRoom; omega)]

lemma encode?_of_decode_first {len : UInt32} (hL : FrameLength.Legal frameLength)
    (hf : f.length = frameLength) (h : decode f = first len data)
    (hform : LongForm f → shortLengthMax < len.toNat) :
    (first len data).encode? frameLength padding = some f := by
  refine encode?_of_bare? hL hf ?_
  have hdata : data.length < len.toNat := by
    have hproper := proper_decode f
    rwa [h] at hproper
  have hL8 := (FrameLength.legal_bounds hL).1
  obtain ⟨hroom, rfl | ⟨hshort, rfl⟩⟩ := eq_of_decode_first h
  · rw [hf] at hroom
    rw [List.length_append, length_firstHeader] at hf
    have hheader : firstHeaderLength len.toNat ≤ 6 := by
      unfold firstHeaderLength
      split <;> omega
    have hne : data ≠ [] := List.length_pos_iff.1 (by omega)
    have hall : data.length = min (firstRoom frameLength len.toNat) len.toNat := by
      unfold firstRoom
      omega
    rw [bare?, if_neg (by simp [hne]; omega), ← hall, List.take_length]
  · exact absurd (hform rfl) (Nat.not_lt.2 hshort)

/-! ### Frames of which the unit comes back -/

lemma exists_encode?_flowControl {status : FlowStatus} {blockSize stMin : UInt8}
    (hL : FrameLength.Legal frameLength) :
    ∃ g, (flowControl status blockSize stMin).encode? frameLength padding = some g ∧
      decode g = flowControl status blockSize stMin := by
  have hsome : ((flowControl status blockSize stMin).encode? frameLength padding).isSome :=
    isSome_encode?_flowControl hL
  obtain ⟨g, hg⟩ := Option.isSome_iff_exists.1 hsome
  exact ⟨g, hg, decode_flowControl hg⟩

lemma exists_encode?_single {len : UInt8} (hL : FrameLength.Legal frameLength)
    (h : decode f = single len data) (hroom : len.toNat ≤ singleRoom frameLength) :
    ∃ g, (single len data).encode? frameLength padding = some g ∧ decode g = single len data := by
  obtain ⟨hpos, hlen⟩ : 1 ≤ len.toNat ∧ len.toNat = data.length := by
    have hproper := proper_decode f
    rwa [h] at hproper
  have hsome : ((single len data).encode? frameLength padding).isSome :=
    (isSome_encode?_single hL).2 ⟨hpos, Nat.le_of_eq hlen, hroom⟩
  obtain ⟨g, hg⟩ := Option.isSome_iff_exists.1 hsome
  refine ⟨g, hg, ?_⟩
  rw [decode_single hg, hlen, List.take_length]

/-- A single frame that has more data than there is room for is as long as 12 or 16 bytes, all of
which but the control byte are data. -/
lemma eq_of_singleRoom_lt {len : UInt8} (hL : FrameLength.Legal frameLength)
    (hf : f.length = frameLength) (h : decode f = single len data)
    (hroom : singleRoom frameLength < len.toNat) :
    (frameLength = 12 ∧ len = 11 ∨ frameLength = 16 ∧ len = 15) ∧ f = len :: data := by
  obtain ⟨hpos, hlen⟩ : 1 ≤ len.toNat ∧ len.toNat = data.length := by
    have hproper := proper_decode f
    rwa [h] at hproper
  have hclassic : FrameLength.classic = 8 := rfl
  unfold singleRoom at hroom
  obtain ⟨rest, ⟨rfl, h15, h7⟩ | ⟨rfl, h8⟩⟩ := eq_of_decode_single h
  · rw [hf] at h7
    rw [List.length_cons, List.length_append] at hf
    have hlast : rest.length = 0 ∧ frameLength = len.toNat + 1 ∧ 8 < frameLength := by
      split at hroom <;> omega
    obtain ⟨hrest, hsize, h8⟩ := hlast
    rw [List.length_eq_zero_iff] at hrest
    refine ⟨?_, by rw [hrest, List.append_nil]⟩
    have hsmall : frameLength = 12 ∨ frameLength = 16 := by
      simp only [FrameLength.Legal, FrameLength.all, List.mem_cons, List.not_mem_nil,
        or_false] at hL
      omega
    exact hsmall.imp (fun h12 => ⟨h12, UInt8.toNat_inj.1 (show len.toNat = 11 by omega)⟩)
      fun h16 => ⟨h16, UInt8.toNat_inj.1 (show len.toNat = 15 by omega)⟩
  · rw [hf] at h8
    simp only [List.length_cons, List.length_append] at hf
    split at hroom <;> omega

/-- Eleven bytes in a frame of 12 and fifteen in one of 16 are read as single frames. -/
lemma decode_of_overfull {len : UInt8}
    (hlen : frameLength = 12 ∧ len = 11 ∨ frameLength = 16 ∧ len = 15)
    (hdata : data.length = len.toNat) : decode (len :: data) = single len data := by
  have hclassic : FrameLength.classic = 8 := rfl
  have hbounds : 8 ≤ len.toNat ∧ len.toNat < 16 := by
    obtain ⟨-, rfl⟩ | ⟨-, rfl⟩ := hlen <;> decide
  have hlow : len.toNat % 16 = len.toNat := Nat.mod_eq_of_lt hbounds.2
  rw [decode_of_kind_zero (by omega), hlow]
  simp only [decodeSingle]
  rw [if_neg (by omega), if_pos ⟨.inr (by omega), by omega⟩, ← hdata, List.take_length, hdata,
    UInt8.ofNat_toNat]

/-! ### Main statement -/

/-- **Writing undoes reading.** On a link with frames of any legal length, padded or not, a frame of
this length that reads as a unit is written again for it: byte by byte if it is a consecutive frame
or a first frame, unless that has a length of up to 4095 in the long form; if it is flow control or
a single frame, as a frame that reads as the same unit. The only exceptions are single frames whose
data fills 12 or 16 bytes but for the control byte, which all bytes of data can make; for these
there is no frame. -/
theorem encode?_of_decode (hL : FrameLength.Legal frameLength) (padding : Option UInt8) :
    (∀ f, f.length = frameLength →
      (∀ sn data, decode f = consecutive sn data →
        (consecutive sn data).encode? frameLength padding = some f) ∧
      (∀ len data, decode f = first len data → (LongForm f → 4095 < len.toNat) →
        (first len data).encode? frameLength padding = some f) ∧
      (∀ status blockSize stMin, decode f = flowControl status blockSize stMin →
        ∃ g, (flowControl status blockSize stMin).encode? frameLength padding = some g ∧
          decode g = flowControl status blockSize stMin) ∧
      ∀ len data, decode f = single len data →
        (len.toNat ≤ singleRoom frameLength →
          ∃ g, (single len data).encode? frameLength padding = some g ∧
            decode g = single len data) ∧
        (singleRoom frameLength < len.toNat →
          (frameLength = 12 ∧ len = 11 ∨ frameLength = 16 ∧ len = 15) ∧ f = len :: data ∧
            (single len data).encode? frameLength padding = none)) ∧
    ∀ len data, (frameLength = 12 ∧ len = 11 ∨ frameLength = 16 ∧ len = 15) →
      data.length = len.toNat → decode (len :: data) = single len data := by
  refine ⟨fun f hf => ⟨?_, ?_, ?_, ?_⟩, fun len data => decode_of_overfull⟩
  · exact fun sn data h => encode?_of_decode_consecutive hL hf h
  · exact fun len data h hform => encode?_of_decode_first hL hf h hform
  · exact fun status blockSize stMin _ => exists_encode?_flowControl hL
  · refine fun len data h => ⟨exists_encode?_single hL h, fun hroom => ?_⟩
    obtain ⟨hsize, hfull⟩ := eq_of_singleRoom_lt hL hf h hroom
    refine ⟨hsize, hfull, Option.not_isSome_iff_eq_none.1 fun hsome => ?_⟩
    exact Nat.not_le.2 hroom ((isSome_encode?_single hL).1 hsome).2.2

/-- On a link with frames of 12 bytes: a first frame of 5000 bytes comes back, and a single frame of
eleven does not. -/
theorem encode?_of_decode_twelve_bytes :
    let opening : Bytes := [0x10, 0x00, 0x00, 0x00, 0x13, 0x88, 1, 2, 3, 4, 5, 6]
    let full : Bytes := 11 :: .replicate 11 7
    FrameLength.Legal 12 ∧ opening.length = 12 ∧ full.length = 12 ∧
      decode opening = first 5000 [1, 2, 3, 4, 5, 6] ∧
      (first 5000 [1, 2, 3, 4, 5, 6]).encode? 12 none = some opening ∧
      decode full = single 11 (.replicate 11 7) ∧
      (single 11 (.replicate 11 7)).encode? 12 none = none := by
  intro opening full
  have hL : FrameLength.Legal 12 := by decide
  obtain ⟨hagain, hread⟩ := encode?_of_decode hL none
  have hopening : decode opening = first 5000 [1, 2, 3, 4, 5, 6] := by decide
  have hfull : decode full = single 11 (.replicate 11 7) :=
    hread 11 _ (.inl ⟨rfl, rfl⟩) (by decide)
  obtain ⟨-, hfirst, -⟩ := hagain opening rfl
  obtain ⟨-, -, -, hsingle⟩ := hagain full rfl
  exact ⟨hL, rfl, rfl, hopening, hfirst _ _ hopening fun _ => by decide, hfull,
    ((hsingle _ _ hfull).2 (by decide)).2.2⟩

end IsoTp.Pdu
