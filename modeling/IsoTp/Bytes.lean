/-!
Strings of bytes and numbers written in them, most significant byte first.
-/

namespace IsoTp

abbrev Bytes := List UInt8

namespace Bytes

/-- The number that the bytes write, most significant byte first. -/
def toNat (bs : Bytes) : Nat := bs.foldl (fun n b => 256 * n + b.toNat) 0

/-- The low 32 bits of `n` as four bytes, most significant first. -/
def ofNat32 (n : Nat) : Bytes :=
  [.ofNat (n / 0x1000000), .ofNat (n / 0x10000), .ofNat (n / 0x100), .ofNat n]

@[simp] theorem length_ofNat32 (n : Nat) : (ofNat32 n).length = 4 := rfl

/-- Writing a 32-bit number and reading it back gives the number. -/
theorem toNat_ofNat32 {n : Nat} (h : n < 0x100000000) : toNat (ofNat32 n) = n := by
  simp [toNat, ofNat32]
  omega

/-- Reading four bytes and writing the number gives them back. -/
theorem ofNat32_toNat (a b c d : UInt8) : ofNat32 (toNat [a, b, c, d]) = [a, b, c, d] := by
  have ha := a.toNat_lt
  have hb := b.toNat_lt
  have hc := c.toNat_lt
  have hd := d.toNat_lt
  simp only [toNat, ofNat32, List.foldl_cons, List.foldl_nil, List.cons.injEq, and_true,
    ← UInt8.toNat_inj, UInt8.toNat_ofNat']
  refine ⟨?_, ?_, ?_, ?_⟩ <;> omega

end Bytes

end IsoTp
