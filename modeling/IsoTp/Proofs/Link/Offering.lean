import Mathlib.Tactic.Lemma
import IsoTp.Link.Basic
import IsoTp.Proofs.Pdu.Kind
import IsoTp.Proofs.Pdu.RoundTrip

/-!
What becomes of a unit that is offered to a link.

A unit that has a frame is offered as that frame, and a tap keeps it with the link's answer. The
frame is of a size that exists on the bus and reads as a unit of the same kind. Flow control always
has one, which reads as the flow control it was written for.
-/

namespace IsoTp

/-- A frame that is filled without padding ends at a size that exists on the bus. -/
lemma FrameLength.legal_roundUp {used n : Nat} (hn : Legal n) (h : used ≤ n) :
    roundUp used ≤ classic ∨ Legal (roundUp used) := by
  have key : ∀ n ∈ all, ∀ used ≤ n, roundUp used ≤ classic ∨ roundUp used ∈ all := by decide
  exact key n hn used h

namespace Pdu

variable {frameLength : Nat} {padding : Option UInt8} {pdu : Pdu} {f : Bytes}

/-- A unit takes no more bytes than a frame of the link has, before it is filled. -/
lemma length_le_of_bare? (hL : FrameLength.Legal frameLength) {padded : Bool} {used : Bytes}
    (h : pdu.bare? frameLength padded = some used) : used.length ≤ frameLength := by
  have hL8 := (FrameLength.legal_bounds hL).1
  have hclassic : FrameLength.classic = 8 := rfl
  cases pdu with
  | single len data =>
    simp only [bare?] at h
    split at h
    · cases h
    · split at h
      · next hshort =>
        cases h
        rw [List.length_cons, List.length_take]
        omega
      · rw [Option.ite_none_right_eq_some] at h
        obtain ⟨hroom, h⟩ := h
        cases h
        rw [List.length_cons, List.length_cons, List.length_take]
        unfold singleRoom at hroom
        split at hroom <;> omega
  | first len data =>
    simp only [bare?] at h
    rw [Option.ite_none_left_eq_some] at h
    obtain ⟨-, h⟩ := h
    cases h
    rw [List.length_append, length_firstHeader, List.length_take]
    unfold firstRoom firstHeaderLength
    split <;> omega
  | consecutive sn data =>
    simp only [bare?] at h
    rw [Option.ite_none_right_eq_some] at h
    obtain ⟨hroom, h⟩ := h
    cases h
    unfold consecutiveRoom at hroom
    rw [List.length_cons]
    omega
  | flowControl =>
    cases h
    simp only [List.length_cons, List.length_nil]
    omega
  | invalid => cases h

/-- No frame is longer than the frames of its link. -/
theorem length_le_of_encode? (h : pdu.encode? frameLength padding = some f) :
    f.length ≤ frameLength := by
  obtain ⟨hL, used, hused, rfl⟩ := encode?_eq_some_iff.1 h
  obtain ⟨n, hfill, hn, -⟩ := fill_eq padding used hL (length_le_of_bare? hL hused)
  rw [hfill, List.length_append, List.length_replicate]
  exact hn

lemma length_pos_of_bare? {padded : Bool} {used : Bytes}
    (h : pdu.bare? frameLength padded = some used) : 0 < used.length := by
  cases pdu with
  | single len data =>
    simp only [bare?] at h
    repeat' split at h
    all_goals cases h
    all_goals exact Nat.succ_pos _
  | first len data =>
    simp only [bare?] at h
    rw [Option.ite_none_left_eq_some] at h
    obtain ⟨-, h⟩ := h
    cases h
    rw [List.length_append, length_firstHeader, firstHeaderLength]
    split <;> omega
  | consecutive sn data =>
    simp only [bare?] at h
    rw [Option.ite_none_right_eq_some] at h
    obtain ⟨-, h⟩ := h
    cases h
    exact Nat.succ_pos _
  | flowControl =>
    cases h
    exact Nat.succ_pos _
  | invalid => cases h

/-- A frame that was written has a size that exists on the bus, and with padding the size of the
frames of its link. -/
theorem size_of_encode? (h : pdu.encode? frameLength padding = some f) :
    0 < f.length ∧ (f.length ≤ FrameLength.classic ∨ FrameLength.Legal f.length) ∧
      (padding.isSome → f.length = frameLength) := by
  obtain ⟨hL, used, hused, rfl⟩ := encode?_eq_some_iff.1 h
  have hpos := length_pos_of_bare? hused
  have hle := length_le_of_bare? hL hused
  cases padding with
  | some b =>
    have hlength : (fill frameLength (some b) used).length = frameLength := by
      rw [fill, List.length_append, List.length_replicate]
      omega
    rw [hlength]
    exact ⟨by omega, .inr hL, fun _ => rfl⟩
  | none =>
    have hup := (FrameLength.roundUp_bounds hL hle).1
    have hlength : (fill frameLength none used).length = FrameLength.roundUp used.length := by
      rw [fill, List.length_append, List.length_replicate]
      omega
    rw [hlength]
    exact ⟨by omega, FrameLength.legal_roundUp hL hle, by simp⟩

/-- The frame of a unit reads as a unit of its kind. -/
theorem kind?_decode_of_encode? (h : pdu.encode? frameLength padding = some f) :
    (decode f).kind? = pdu.kind? := by
  cases pdu with
  | single => rw [decode_single h]; rfl
  | first =>
    obtain ⟨n, hread, -⟩ := decode_first h
    rw [hread]
    rfl
  | consecutive =>
    obtain ⟨n, hread, -⟩ := decode_consecutive h
    rw [hread]
    rfl
  | flowControl => rw [decode_flowControl h]
  | invalid =>
    obtain ⟨-, used, hused, -⟩ := encode?_eq_some_iff.1 h
    cases hused

end Pdu

/-- The frame of a unit is of its kind. -/
lemma Frame.kind?_of_encode? {f : Frame} {frameLength : Nat} {padding : Option UInt8} {pdu : Pdu}
    (h : pdu.encode? frameLength padding = some f.data) : f.kind? = pdu.kind? := by
  have hread := Pdu.kind?_decode_of_encode? h
  rw [← hread, ← Pdu.kind?_decode]
  intro hinvalid
  rw [hinvalid] at hread
  cases pdu with
  | single | first | consecutive | flowControl => cases hread
  | invalid =>
    obtain ⟨-, used, hused, -⟩ := Pdu.encode?_eq_some_iff.1 h
    cases hused

variable {cfg : Config}

/-- The frame of flow control under the identifier of a channel. -/
def FlowControl.frame (cfg : Config) (fc : FlowControl) : Frame :=
  ⟨cfg.txId, (cfg.encode? fc.toPdu).getD [], false⟩

namespace FlowControl

lemma encode?_frame (hcfg : cfg.Valid) (fc : FlowControl) :
    cfg.encode? fc.toPdu = some (fc.frame cfg).data := by
  have hsome : (cfg.encode? fc.toPdu).isSome :=
    Pdu.isSome_encode?_flowControl hcfg.frameLength_legal
  obtain ⟨data, hdata⟩ := Option.isSome_iff_exists.1 hsome
  rw [frame, hdata]
  rfl

lemma decode_frame (hcfg : cfg.Valid) (fc : FlowControl) :
    Pdu.decode (fc.frame cfg).data = .flowControl fc.status fc.blockSize fc.stMinByte :=
  Pdu.decode_flowControl (show Pdu.encode? _ _ (.flowControl ..) = _ from encode?_frame hcfg fc)

lemma carriesPart_frame (hcfg : cfg.Valid) (fc : FlowControl) :
    (fc.frame cfg).carriesPart = false := by
  have hread := decode_frame hcfg fc
  have hkind := Pdu.kind?_decode (f := fc.frame cfg) (by simp [hread])
  rw [hread] at hkind
  rw [Frame.carriesPart, ← hkind]
  rfl

end FlowControl

namespace Link

variable {σ ε : Type} [Link σ ε]

/-- A unit that has a frame is offered as that frame, once. -/
lemma offer_eq {pdu : Pdu} {data : Bytes} (hdata : cfg.encode? pdu = some data) (id : CanId)
    (line : Tap σ) :
    ∃ (verdict : Except ε Unit) (rest : σ), offer cfg id pdu line =
      (verdict.mapError .link,
        ⟨rest, line.offers ++ [⟨⟨id, data, false⟩, verdict.isOk⟩]⟩) := by
  rcases hput : put line.line (⟨id, data, false⟩ : Frame) with ⟨verdict, rest⟩
  refine ⟨verdict, rest, ?_⟩
  simp only [offer, hdata, put, hput]

/-- Only frames of a legal length come onto a link. -/
lemma legal_of_offer {id : CanId} {pdu : Pdu} {line : σ}
    (h : (offer cfg id pdu line).1 = .ok ()) : FrameLength.Legal cfg.frameLength := by
  unfold offer at h
  split at h
  · cases h
  · next data hdata => exact (Pdu.encode?_eq_some_iff.1 hdata).1

/-- No error of a unit that has a frame is the encoder's. -/
lemma offer_ne_unencodable {pdu : Pdu} {data : Bytes} (hdata : cfg.encode? pdu = some data)
    (id : CanId) (line : Tap σ) : (offer cfg id pdu line).1 ≠ .error .unencodable := by
  obtain ⟨verdict, rest, hoffer⟩ := offer_eq hdata id line
  rw [hoffer]
  intro hfail
  cases verdict <;> cases hfail

end Link

end IsoTp
