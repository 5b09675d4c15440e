import Mathlib.Tactic.Lemma
import IsoTp.Buffer

/-!
Buffers of which only the first bytes are in use.

Reading and writing within the first `n` bytes of a buffer depends on these alone, and leaves all
others as they are.
-/

namespace IsoTp.Buffer

variable {n start count : Nat} {b b' d : Buffer} {data : Bytes}

/-- Two buffers with room for `n` bytes, the first `n` of which are the same. -/
structure Alike (n : Nat) (b b' : Buffer) : Prop where
  le_left : n ≤ b.size
  le_right : n ≤ b'.size
  take_eq : b.toList.take n = b'.toList.take n

/-- The buffer differs from another in its first `n` bytes at most. -/
structure Keeps (n : Nat) (b d : Buffer) : Prop where
  size_eq : d.size = b.size
  drop_eq : d.toList.drop n = b.toList.drop n

lemma Keeps.refl (n : Nat) (b : Buffer) : Keeps n b b := ⟨rfl, rfl⟩

lemma Keeps.trans (h : Keeps n b b') (h' : Keeps n b' d) : Keeps n b d :=
  ⟨h'.size_eq.trans h.size_eq, h'.drop_eq.trans h.drop_eq⟩

lemma length_of_read? (h : b.read? start count = some data) : data.length = count := by
  rw [read?_eq, Option.ite_none_right_eq_some] at h
  obtain ⟨hle, hdata⟩ := h
  cases hdata
  rw [List.length_take, List.length_drop, length_toList]
  omega

/-- What is read within the first `n` bytes depends on them alone. -/
lemma Alike.read?_eq (h : Alike n b b') (hle : start + count ≤ n) :
    b'.read? start count = b.read? start count := by
  have hleft := h.le_left
  have hright := h.le_right
  have hwithin (l : Bytes) : (l.drop start).take count = ((l.take n).drop start).take count := by
    rw [List.drop_take, List.take_take, Nat.min_eq_left (by omega)]
  rw [Buffer.read?_eq, Buffer.read?_eq, if_pos (by omega), if_pos (by omega), hwithin,
    hwithin b.toList, h.take_eq]

/-- The first `n` bytes after a write within them. -/
lemma take_of_write?_within (h : b.write? start data = some d) (hle : start + data.length ≤ n)
    (hn : n ≤ b.size) : d.toList.take n =
      (b.toList.take n).take start ++ (data ++ (b.toList.take n).drop (start + data.length)) := by
  have htake : (b.toList.take start).length = start := by
    rw [List.length_take, length_toList]
    omega
  rw [toList_of_write? h, List.take_append, List.take_append, htake, List.take_take,
    List.take_take, List.drop_take, List.take_of_length_le (i := n - start) (l := data) (by omega),
    Nat.min_eq_right (by omega), Nat.min_eq_left (by omega), Nat.sub_add_eq]

/-- A write within the first `n` bytes succeeds, and leaves the others as they are. -/
lemma exists_write? (hle : start + data.length ≤ n) (hn : n ≤ b.size) :
    ∃ d, b.write? start data = some d ∧ Keeps n b d := by
  obtain ⟨d, hd⟩ := Option.isSome_iff_exists.1
    (isSome_write?_iff.2 (show start + data.length ≤ b.size by omega))
  exact ⟨d, hd, size_of_write? hd, drop_of_write? hd hle⟩

/-- Writing within the first `n` bytes of two buffers alike leaves them alike. -/
lemma Alike.exists_write? (h : Alike n b b') (hle : start + data.length ≤ n)
    (hd : b.write? start data = some d) :
    ∃ d', b'.write? start data = some d' ∧ Alike n d d' := by
  obtain ⟨d', hd', hkeeps⟩ := Buffer.exists_write? hle h.le_right
  refine ⟨d', hd', ?_, ?_, ?_⟩
  · rw [size_of_write? hd]
    exact h.le_left
  · rw [hkeeps.size_eq]
    exact h.le_right
  · rw [take_of_write?_within hd hle h.le_left, take_of_write?_within hd' hle h.le_right,
      h.take_eq]

end IsoTp.Buffer
