import Mathlib.Tactic.Lemma
import IsoTp.Pdu.Decode

/-!
The kind of a frame.

The high half of the control byte alone tells what a frame can read as. Frames of the first three
kinds carry a part of a message, and those of the first two open one.
-/

namespace IsoTp

/-- The high half of the control byte: 0 for a single frame, 1 for a first frame, 2 for a
consecutive frame and 3 for flow control. -/
def Frame.kind? (f : Frame) : Option Nat := f.data.head?.map (·.toNat / 16)

/-- A frame that carries a part of a message: a single, first or consecutive frame. -/
def Frame.carriesPart (f : Frame) : Bool := f.kind?.any (· ≤ 2)

/-- A frame that opens a message: a single or first frame. -/
def Frame.opens (f : Frame) : Bool := f.kind?.any (· ≤ 1)

lemma Frame.carriesPart_of_opens {f : Frame} (h : f.opens = true) : f.carriesPart = true := by
  unfold opens at h
  unfold carriesPart
  cases hk : f.kind? with
  | none => simp [hk] at h
  | some k =>
    simp only [hk, Option.any_some, decide_eq_true_eq] at h ⊢
    omega

/-- A frame that goes on with a message is a consecutive frame. -/
lemma Frame.kind?_of_not_opens {f : Frame} (hpart : f.carriesPart = true)
    (hopens : f.opens = false) : f.kind? = some 2 := by
  unfold Frame.carriesPart at hpart
  unfold Frame.opens at hopens
  cases hk : f.kind? with
  | none => simp [hk] at hpart
  | some k =>
    simp only [hk, Option.any_some, decide_eq_true_eq, decide_eq_false_iff_not] at hpart hopens
    congr 1
    omega

namespace Pdu

/-- The kind of the frames that read as this unit. -/
def kind? : Pdu → Option Nat
  | single .. => some 0
  | first .. => some 1
  | consecutive .. => some 2
  | flowControl .. => some 3
  | invalid => none

/-- A first frame, which opens a message of more than one frame. -/
def isFirst : Pdu → Bool
  | first .. => true
  | _ => false

/-- A consecutive frame, which goes on with a message. -/
def isConsecutive : Pdu → Bool
  | consecutive .. => true
  | _ => false

/-- Flow control that lets the sender go on. -/
def isClearToSend : Pdu → Bool
  | flowControl .clearToSend _ _ => true
  | _ => false

lemma kind?_decodeSingle (low : Nat) (rest : Bytes) :
    decodeSingle low rest = invalid ∨ (decodeSingle low rest).kind? = some 0 := by
  simp only [decodeSingle]
  repeat' split
  all_goals simp [kind?]

lemma kind?_decodeFirst (low : Nat) (rest : Bytes) :
    decodeFirst low rest = invalid ∨ (decodeFirst low rest).kind? = some 1 := by
  simp only [decodeFirst]
  repeat' split
  all_goals simp [kind?]

lemma kind?_decodeFlowControl (low : Nat) (rest : Bytes) :
    decodeFlowControl low rest = invalid ∨ (decodeFlowControl low rest).kind? = some 3 := by
  simp only [decodeFlowControl]
  repeat' split
  all_goals simp [kind?]

/-- A frame that reads as a unit has the unit's kind. -/
theorem kind?_decode {f : Frame} (h : decode f.data ≠ invalid) :
    (decode f.data).kind? = f.kind? := by
  unfold Frame.kind?
  revert h
  cases f.data with
  | nil => exact fun h => absurd rfl h
  | cons control rest =>
    unfold decode
    dsimp only
    split
    · next hk => intro h; simp [(kind?_decodeSingle _ _).resolve_left h, hk]
    · next hk => intro h; simp [(kind?_decodeFirst _ _).resolve_left h, hk]
    · next hk => intro h; simp [kind?, hk]
    · next hk => intro h; simp [(kind?_decodeFlowControl _ _).resolve_left h, hk]
    · exact fun h => absurd rfl h

/-- The data of a single frame has the declared length. -/
theorem length_of_decode_single {d data : Bytes} {len : UInt8}
    (h : decode d = single len data) : data.length = len.toNat := by
  have hkind := kind?_decode (f := ⟨.standard 0, d, false⟩) (by rw [h]; simp)
  rw [h] at hkind
  cases d with
  | nil => cases h
  | cons control rest =>
    have hk : control.toNat / 16 = 0 := by simpa [kind?, Frame.kind?] using hkind.symm
    simp only [decode, hk] at h
    simp only [decodeSingle] at h
    split at h
    · split at h
      · cases h
      · split at h
        · next hlen =>
          cases h
          exact List.length_take_of_le hlen.2.2
        · cases h
    · split at h
      · next hlen =>
        cases h
        rw [List.length_take_of_le hlen.2]
        simp only [UInt8.toNat_ofNat']
        omega
      · cases h

end Pdu

end IsoTp
