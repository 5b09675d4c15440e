/-!
Lengths of time, and the clocks that deadlines are reckoned on.

A duration is exact to the nanosecond. An instant is the reading of a clock in the clock's own unit,
and only the clock knows where the deadline lies that is some time after it. There are two clocks
here: a 64-bit counter of microseconds, which drops the part of a duration below a microsecond and
puts a deadline past its end at its end, and the steady clock of a platform, which is exact.
-/

namespace IsoTp

/-- A length of time in nanoseconds. -/
structure Duration where
  nanos : Nat
deriving DecidableEq, Repr

namespace Duration

def zero : Duration := ⟨0⟩

/-- Whole seconds and the nanoseconds beyond them. -/
def ofParts (seconds nanos : Nat) : Duration := ⟨seconds * 1000000000 + nanos⟩

def ofMillis (n : Nat) : Duration := ⟨n * 1000000⟩

def ofMicros (n : Nat) : Duration := ⟨n * 1000⟩

def seconds (d : Duration) : Nat := d.nanos / 1000000000

/-- The nanoseconds beyond the whole seconds. -/
def subsecond (d : Duration) : Nat := d.nanos % 1000000000

/-- The whole microseconds. -/
def micros (d : Duration) : Nat := d.nanos / 1000

instance : LE Duration := ⟨fun a b => a.nanos ≤ b.nanos⟩
instance : LT Duration := ⟨fun a b => a.nanos < b.nanos⟩
instance : Add Duration := ⟨fun a b => ⟨a.nanos + b.nanos⟩⟩
/-- The difference, or zero if the second length is the greater. -/
instance : Sub Duration := ⟨fun a b => ⟨a.nanos - b.nanos⟩⟩

instance (a b : Duration) : Decidable (a ≤ b) := inferInstanceAs (Decidable (a.nanos ≤ b.nanos))
instance (a b : Duration) : Decidable (a < b) := inferInstanceAs (Decidable (a.nanos < b.nanos))

theorem lt_iff {a b : Duration} : a < b ↔ a.nanos < b.nanos := Iff.rfl

end Duration

/-- A reading of a clock, in the unit of that clock. -/
abbrev Instant := Nat

/-- A clock, by what it makes of its readings. -/
structure Clock where
  /-- The instant some time after another. -/
  after : Instant → Duration → Instant
  /-- The time at one instant since another. -/
  elapsed : Instant → Instant → Duration

/-! ### The microsecond counter -/

namespace Instant

/-- The last value the counter can show. -/
def last : Instant := 0xFFFFFFFFFFFFFFFF

/-- The instant `d` after `t`, or the last one if the counter ends before it. -/
def after (t : Instant) (d : Duration) : Instant := min (t + d.micros) last

/-- The time since `earlier`; none has passed since an instant still to come. -/
def elapsed (now earlier : Instant) : Duration := .ofMicros (now - earlier)

end Instant

namespace Clock

/-- The counter of microseconds. -/
def counter : Clock := ⟨Instant.after, Instant.elapsed⟩

@[simp] theorem counter_after : counter.after = Instant.after := rfl

end Clock

/-! ### The steady clock of a platform

It reads the time since some fixed origin and counts seconds in a signed 64-bit word. -/

namespace SteadyClock

/-- The first reading that the platform cannot hold. -/
def limit : Duration := .ofParts 0x8000000000000000 0

/-- A hundred years of 365 days. -/
def century : Duration := .ofParts (100 * 365 * 24 * 60 * 60) 0

/-- The reading `d` after `t`. One that the platform cannot hold is put a century after `t`, so
that it still lies in the future, unless the platform cannot hold that either. -/
def after (t d : Duration) : Duration :=
  if t + d < limit then t + d else if t + century < limit then t + century else t

/-- The time since `earlier`; none has passed since a reading still to come. -/
def elapsed (now earlier : Duration) : Duration := now - earlier

end SteadyClock

/-- The steady clock, read in nanoseconds. -/
def Clock.steady : Clock where
  after t d := (SteadyClock.after ⟨t⟩ d).nanos
  elapsed now earlier := SteadyClock.elapsed ⟨now⟩ ⟨earlier⟩

end IsoTp
