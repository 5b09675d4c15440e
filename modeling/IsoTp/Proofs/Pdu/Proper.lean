import IsoTp.Proofs.Pdu.Kind

/-!
What the reading of a frame promises of the unit.

A single frame that is read has the bytes that it declares, and at least one. A first frame has
fewer than it declares: those that a single frame of the same size would do for are refused.
-/

namespace IsoTp

lemma Bytes.toNat_four_lt (a b c d : UInt8) : toNat [a, b, c, d] < 0x100000000 := by
  have ha := a.toNat_lt
  have hb := b.toNat_lt
  have hc := c.toNat_lt
  have hd := d.toNat_lt
  simp only [toNat, List.foldl_cons, List.foldl_nil]
  omega

lemma Bytes.exists_four {bs : Bytes} (h : ¬bs.length < 4) :
    ∃ a b c d rest, bs = a :: b :: c :: d :: rest := by
  rcases bs with _ | ⟨a, _ | ⟨b, _ | ⟨c, _ | ⟨d, rest⟩⟩⟩⟩
  iterate 4 exact absurd (by simp) h
  exact ⟨a, b, c, d, rest, rfl⟩

namespace Pdu

/-- A unit that a frame can read as. -/
def Proper : Pdu → Prop
  | single len data => 1 ≤ len.toNat ∧ len.toNat = data.length
  | first len data => data.length < len.toNat
  | _ => True

lemma proper_decodeSingle {low : Nat} (hlow : low < 16) (rest : Bytes) :
    (decodeSingle low rest).Proper := by
  simp only [decodeSingle]
  split
  · split
    · trivial
    · next len data =>
      split
      · next h =>
        have hne : len.toNat ≠ 0 := fun h0 => h.2.1 (UInt8.toNat_inj.1 h0)
        simp only [Proper, List.length_take]
        omega
      · trivial
  · split
    · simp only [Proper, UInt8.toNat_ofNat', List.length_take]
      omega
    · trivial

/-- The room of a single frame is what remains of a first frame after its shortest header, or
more. -/
lemma proper_decodeFirst {low : Nat} (hlow : low < 16) (rest : Bytes) :
    (decodeFirst low rest).Proper := by
  have hdeclare (total : Nat) (data : Bytes) (htotal : total < 0x100000000)
      (hdata : data.length + 1 ≤ rest.length) :
      (if total ≤ singleRoom (rest.length + 1) then invalid
        else first (.ofNat total) data).Proper := by
    split
    · trivial
    · next hlong =>
      unfold singleRoom at hlong
      simp only [Proper, UInt32.toNat_ofNat']
      split at hlong <;> omega
  cases rest with
  | nil => trivial
  | cons b data =>
    have hb := b.toNat_lt
    simp only [decodeFirst]
    split
    · exact hdeclare _ _ (by omega) (Nat.le_refl _)
    · split
      · trivial
      · next hlen =>
        obtain ⟨w, x, y, z, tail, rfl⟩ := Bytes.exists_four hlen
        exact hdeclare _ _ (Bytes.toNat_four_lt w x y z) (by
          simp only [List.length_cons, List.drop_succ_cons, List.drop_zero]
          omega)

theorem proper_decode (d : Bytes) : (decode d).Proper := by
  unfold decode
  split
  · trivial
  · next control rest =>
    have hlow : control.toNat % 16 < 16 := Nat.mod_lt _ (by decide)
    dsimp only
    split
    · exact proper_decodeSingle hlow rest
    · exact proper_decodeFirst hlow rest
    · trivial
    · unfold decodeFlowControl
      repeat' split
      all_goals trivial
    · trivial

end Pdu

end IsoTp
