import Mathlib.Tactic.Lemma
import IsoTp.FlowControl

/-!
Writing a separation time as a byte, and reading it back.

A gap is first cut down to whole microseconds and then rounded up to the next gap that has a byte.
The peer therefore keeps the least gap with a byte that is not shorter, unless the one asked for
lies less than a microsecond over a gap with a byte: then it keeps that one, which is shorter.
-/

namespace IsoTp

namespace Duration

/-- The length of time without what is below a microsecond. -/
def wholeMicros (d : Duration) : Duration := .ofMicros d.micros

lemma micros_ofMicros (n : Nat) : (ofMicros n).micros = n := Nat.mul_div_cancel n (by omega)

lemma ofMillis_eq (n : Nat) : ofMillis n = ofMicros (1000 * n) :=
  congrArg Duration.mk (show n * 1000000 = 1000 * n * 1000 by omega)

lemma ofMicros_le_ofMicros {m n : Nat} : ofMicros m ≤ ofMicros n ↔ m ≤ n :=
  Nat.mul_le_mul_right_iff (by omega)

/-- Less than a microsecond is cut off. -/
lemma lt_wholeMicros_add (d : Duration) : d < d.wholeMicros + .ofMicros 1 := by
  change d.nanos < d.nanos / 1000 * 1000 + 1 * 1000
  omega

end Duration

namespace SeparationTime

/-! ### Gaps with a byte -/

/-- The gaps that have a byte: whole milliseconds up to 127, and tenths of one up to nine. -/
def Representable (g : Duration) : Prop :=
  (∃ n ≤ 127, g = .ofMillis n) ∨ ∃ n, 1 ≤ n ∧ n ≤ 9 ∧ g = .ofMicros (100 * n)

/-- `g` is the least gap with a byte that is not shorter than `d`. -/
structure RoundsUp (d g : Duration) : Prop where
  representable : Representable g
  le : d ≤ g
  least : ∀ g', Representable g' → d ≤ g' → g ≤ g'

/-- A gap that lies less than a microsecond over one with a byte. -/
def JustOver (d : Duration) : Prop := ∃ g, Representable g ∧ g < d ∧ d < g + .ofMicros 1

/-- The gap that a peer keeps when it is asked for `d`. -/
def kept (d : Duration) : Duration := ofWire (toByte d)

variable {d e g : Duration}

lemma ofByte?_ofNat_millis {n : Nat} (hn : n ≤ 127) : ofByte? (.ofNat n) = some (.ofMillis n) := by
  have hnat : (UInt8.ofNat n).toNat = n := by rw [UInt8.toNat_ofNat']; omega
  have hle : UInt8.ofNat n ≤ 0x7F := by rw [UInt8.le_iff_toNat_le, hnat]; exact hn
  rw [ofByte?, if_pos hle, hnat]

lemma ofByte?_ofNat_tenths {n : Nat} (hpos : 1 ≤ n) (hn : n ≤ 9) :
    ofByte? (.ofNat (0xF0 + n)) = some (.ofMicros (100 * n)) := by
  have hnat : (UInt8.ofNat (0xF0 + n)).toNat = 0xF0 + n := by rw [UInt8.toNat_ofNat']; omega
  have hlow : ¬UInt8.ofNat (0xF0 + n) ≤ 0x7F := by
    rw [UInt8.le_iff_toNat_le, hnat]
    exact Nat.not_le.2 (show 0x7F < 0xF0 + n by omega)
  have hhigh : 0xF1 ≤ UInt8.ofNat (0xF0 + n) ∧ UInt8.ofNat (0xF0 + n) ≤ 0xF9 := by
    rw [UInt8.le_iff_toNat_le, UInt8.le_iff_toNat_le, hnat]
    exact ⟨show 0xF1 ≤ 0xF0 + n by omega, show 0xF0 + n ≤ 0xF9 by omega⟩
  rw [ofByte?, if_neg hlow, if_pos hhigh, hnat, Nat.add_sub_cancel_left]

/-- A gap has a byte if one stands for it. -/
lemma representable_iff : Representable g ↔ ∃ b, ofByte? b = some g := by
  constructor
  · rintro (⟨n, hn, rfl⟩ | ⟨n, hpos, hn, rfl⟩)
    · exact ⟨_, ofByte?_ofNat_millis hn⟩
    · exact ⟨_, ofByte?_ofNat_tenths hpos hn⟩
  · rintro ⟨b, hb⟩
    unfold ofByte? at hb
    split at hb
    · next hlow =>
      obtain rfl := Option.some.inj hb
      exact .inl ⟨b.toNat, UInt8.le_iff_toNat_le.1 hlow, rfl⟩
    · split at hb
      · next hhigh =>
        obtain rfl := Option.some.inj hb
        have hge : 0xF1 ≤ b.toNat := UInt8.le_iff_toNat_le.1 hhigh.1
        have hle : b.toNat ≤ 0xF9 := UInt8.le_iff_toNat_le.1 hhigh.2
        exact .inr ⟨b.toNat - 0xF0, by omega, by omega, rfl⟩
      · cases hb

/-! ### Rounding, in microseconds -/

/-- `n` microseconds rounded up to tenths of a millisecond, or from the last of these on to whole
milliseconds, of which there are no more than 127. -/
def roundedMicros (n : Nat) : Nat :=
  if n ≤ 900 then 100 * ((n + 99) / 100) else 1000 * min ((n + 999) / 1000) 127

/-- No byte that is written is reserved. -/
lemma ofByte?_toByte (d : Duration) :
    ofByte? (toByte d) = some (.ofMicros (roundedMicros d.micros)) := by
  unfold toByte roundedMicros
  by_cases hzero : d.micros = 0
  · rw [if_pos hzero, hzero]
    rfl
  · rw [if_neg hzero]
    by_cases hshort : d.micros ≤ 900
    · rw [if_pos hshort, if_pos hshort]
      exact ofByte?_ofNat_tenths (by omega) (by omega)
    · rw [if_neg hshort, if_neg hshort]
      have hmillis := ofByte?_ofNat_millis (show min ((d.micros + 999) / 1000) 0x7F ≤ 127 by omega)
      rw [hmillis, Duration.ofMillis_eq]

lemma kept_eq (d : Duration) : kept d = .ofMicros (roundedMicros d.micros) := by
  rw [kept, ofWire, ofByte?_toByte]
  rfl

lemma representable_kept (d : Duration) : Representable (kept d) :=
  representable_iff.2 ⟨toByte d, by rw [ofByte?_toByte, kept_eq]⟩

lemma roundedMicros_mono {m n : Nat} (h : m ≤ n) : roundedMicros m ≤ roundedMicros n := by
  unfold roundedMicros
  split <;> split <;> omega

lemma le_roundedMicros {n : Nat} (h : n ≤ 127000) : n ≤ roundedMicros n := by
  unfold roundedMicros
  split <;> omega

lemma micros_le {d : Duration} (hd : d ≤ longest) : d.micros ≤ 127000 :=
  Nat.div_le_div_right (c := 1000) hd

/-- A gap with a byte is one of whole microseconds that are rounded to themselves. -/
lemma Representable.eq_ofMicros (hg : Representable g) :
    ∃ n, g = .ofMicros n ∧ roundedMicros n = n := by
  rcases hg with ⟨n, hn, rfl⟩ | ⟨n, hpos, hn, rfl⟩
  · refine ⟨1000 * n, Duration.ofMillis_eq n, ?_⟩
    unfold roundedMicros
    split <;> omega
  · refine ⟨100 * n, rfl, ?_⟩
    unfold roundedMicros
    split <;> omega

lemma kept_of_representable (hg : Representable g) : kept g = g := by
  obtain ⟨n, rfl, hn⟩ := hg.eq_ofMicros
  rw [kept_eq, Duration.micros_ofMicros, hn]

lemma kept_mono (h : d ≤ e) : kept d ≤ kept e := by
  rw [kept_eq, kept_eq, Duration.ofMicros_le_ofMicros]
  exact roundedMicros_mono (Nat.div_le_div_right h)

/-! ### Rounding up -/

/-- What is kept is no longer than any gap with a byte that would do. -/
lemma kept_le (hg : Representable g) (hd : d ≤ g) : kept d ≤ g := by
  have hmono := kept_mono hd
  rwa [kept_of_representable hg] at hmono

/-- Whole microseconds are rounded up. -/
lemma wholeMicros_le_kept (hd : d ≤ longest) : d.wholeMicros ≤ kept d := by
  rw [kept_eq, Duration.wholeMicros, Duration.ofMicros_le_ofMicros]
  exact le_roundedMicros (micros_le hd)

lemma lt_kept_add (hd : d ≤ longest) : d < kept d + .ofMicros 1 :=
  Nat.lt_of_lt_of_le d.lt_wholeMicros_add (Nat.add_le_add_right (wholeMicros_le_kept hd) _)

lemma kept_wholeMicros (d : Duration) : kept d.wholeMicros = kept d := by
  rw [kept_eq, Duration.wholeMicros, Duration.micros_ofMicros, ← kept_eq]

/-- What is cut off is all that a gap just over one with a byte has more. -/
lemma kept_of_justOver (hg : Representable g) (hlt : g < d) (hlt' : d < g + .ofMicros 1) :
    kept d = g := by
  obtain ⟨n, rfl, hn⟩ := hg.eq_ofMicros
  have hmicros : d.micros = n := by
    have hlow : n * 1000 < d.nanos := hlt
    have hhigh : d.nanos < n * 1000 + 1 * 1000 := hlt'
    unfold Duration.micros
    omega
  rw [kept_eq, hmicros, hn]

/-- What is kept is shorter than what is asked for only where that lies just over it. -/
lemma le_kept_iff (hd : d ≤ longest) : d ≤ kept d ↔ ¬JustOver d := by
  constructor
  · rintro hle ⟨g, hg, hlt, hlt'⟩
    rw [kept_of_justOver hg hlt hlt'] at hle
    exact Nat.not_le.2 hlt hle
  · intro hnot
    exact Nat.not_lt.1 fun hlt => hnot ⟨kept d, representable_kept d, hlt, lt_kept_add hd⟩

/-! ### Main statement -/

/-- What becomes of a gap that a peer is asked for. -/
structure Rounds (d : Duration) : Prop where
  /-- The byte is not reserved, and the peer takes the gap that it stands for. -/
  ofByte?_eq : ofByte? (toByte d) = some (kept d)
  peer : ∀ status blockSize, (FlowControl.ofWire status blockSize (toByte d)).stMin = kept d
  /-- The peer keeps the least gap with a byte that is not shorter, but for what is below a
  microsecond. -/
  whole : d ≤ longest → RoundsUp d.wholeMicros (kept d)
  roundsUp_iff : d ≤ longest → (RoundsUp d (kept d) ↔ ¬JustOver d)
  lt_add : d ≤ longest → d < kept d + .ofMicros 1
  long : longest < d → toByte d = 0x7F
  mono : ∀ e, d ≤ e → kept d ≤ kept e
  same : Representable d → kept d = d

/-- **A gap is rounded up, in whole microseconds.** Whatever the length of time, to the nanosecond:
its byte is not reserved, longer gaps than the longest with a byte have the byte of that, longer
gaps are kept as long or longer, and gaps with a byte are kept as they are. Up to the longest, what
the peer keeps is the least gap with a byte that is not shorter, unless the gap lies less than a
microsecond over one with a byte; then it is shorter by less than a microsecond. -/
theorem rounds_up (d : Duration) : Rounds d where
  ofByte?_eq := by rw [ofByte?_toByte, kept_eq]
  peer _ _ := rfl
  whole hd := by
    refine ⟨representable_kept d, wholeMicros_le_kept hd, fun g hg hle => ?_⟩
    rw [← kept_wholeMicros]
    exact kept_le hg hle
  roundsUp_iff hd := by
    rw [← le_kept_iff hd]
    exact ⟨RoundsUp.le, fun hle => ⟨representable_kept d, hle, fun g hg hle => kept_le hg hle⟩⟩
  lt_add := lt_kept_add
  long hd := by
    have hlong : 127 * 1000000 < d.nanos := hd
    have hmicros : 127000 ≤ d.micros := by unfold Duration.micros; omega
    have hmin : min ((d.micros + 999) / 1000) 0x7F = 0x7F := by omega
    rw [toByte, if_neg (by omega), if_neg (by omega), hmin]
    rfl
  mono _ := kept_mono
  same := kept_of_representable

/-- In the hole between nine tenths of a millisecond and a whole one, and a nanosecond more than
whole microseconds. -/
theorem rounds_over_the_hole :
    let d : Duration := ⟨950001⟩
    d ≤ longest ∧ ¬JustOver d ∧ kept d = .ofMillis 1 ∧ RoundsUp d (kept d) := by
  intro d
  have hd : d ≤ longest := by decide
  have hup : ¬JustOver d := (le_kept_iff hd).1 (by decide)
  exact ⟨hd, hup, by decide, ((rounds_up d).roundsUp_iff hd).2 hup⟩

/-- One nanosecond is asked for, and no gap at all is kept. -/
theorem kept_of_one_nanosecond :
    let d : Duration := ⟨1⟩
    d ≤ longest ∧ toByte d = 0 ∧ kept d < d ∧ ¬RoundsUp d (kept d) := by
  intro d
  have hlt : kept d < d := by decide
  exact ⟨by decide, by decide, hlt, fun hup => Nat.not_le.2 hlt hup.le⟩

end SeparationTime

end IsoTp
