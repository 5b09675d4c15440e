import IsoTp.Proofs.Receiver.Outcome
import IsoTp.Proofs.Sender.Timers

/-!
The timers that a sender and a receiver run, and their deadlines.

Each half of a channel runs one timer at most: the sender while it waits for flow control or the
link refuses its frame, the receiver while it waits for a frame or owes flow control. The deadline
of a timer lies after the instant at which it was armed, unless the timer is shorter than what the
clock can tell, which is a microsecond for the counter and a nanosecond for the steady clock: then
it lies at that instant.
-/

namespace IsoTp

/-- How long a timer runs under these parameters. -/
def Config.timer (cfg : Config) : Timer → Duration
  | .nAr => cfg.nAr
  | .nBs => cfg.nBs
  | .nCs => cfg.nCs
  | .nCr => cfg.nCr

lemma Config.Valid.timer_pos {cfg : Config} (h : cfg.Valid) : ∀ k, .zero < cfg.timer k
  | .nAr => h.nAr_pos
  | .nBs => h.nBs_pos
  | .nCs => h.nCs_pos
  | .nCr => h.nCr_pos

/-- A timer armed at an instant, and how long it runs. -/
structure Armed where
  start : Instant
  length : Duration
deriving DecidableEq, Repr

def Armed.deadline (clock : Clock) (a : Armed) : Instant := clock.after a.start a.length

/-- What a clock can tell at an instant: only a duration shorter than `unit` does not lead past
it. -/
def Clock.Discerns (clock : Clock) (unit : Duration) (t : Instant) : Prop :=
  ∀ d, clock.after t d ≤ t ↔ d < unit

/-- Before its end the counter tells a microsecond. -/
lemma Clock.discerns_counter {t : Instant} (h : t < Instant.last) :
    counter.Discerns (.ofMicros 1) t := by
  intro d
  have hmicros : d < .ofMicros 1 ↔ d.micros = 0 := by
    change d.nanos < 1 * 1000 ↔ d.nanos / 1000 = 0
    omega
  have hlt : t < counter.after t d ↔ t < t + d.micros ∧ t < Instant.last := Nat.lt_min
  rw [hmicros, ← Nat.not_lt, hlt, and_iff_left h, Nat.lt_add_right_iff_pos, Nat.not_lt, Nat.le_zero]

/-- Up to a century before its end the steady clock tells a nanosecond. -/
lemma Clock.discerns_steady {t : Nat} (h : ⟨t⟩ + SteadyClock.century < SteadyClock.limit) :
    steady.Discerns ⟨1⟩ t := by
  intro d
  have hexact (n : Nat) : t + n ≤ t ↔ n < 1 := by omega
  have hafter : steady.after t d =
      if ⟨t⟩ + d < SteadyClock.limit then t + d.nanos else t + SteadyClock.century.nanos := by
    simp only [steady, SteadyClock.after, if_pos h]
    split <;> rfl
  rw [hafter]
  split
  · exact hexact d.nanos
  · next hlong =>
    -- a duration that leads past the end is longer than a century
    have hlate : SteadyClock.limit.nanos ≤ t + d.nanos := Nat.not_lt.1 hlong
    have hsoon : t + SteadyClock.century.nanos < SteadyClock.limit.nanos := h
    have hpos : 0 < SteadyClock.century.nanos := by decide
    rw [hexact]
    change SteadyClock.century.nanos < 1 ↔ d.nanos < 1
    omega

/-- A frame of a message that takes several: a first or a consecutive frame. -/
def Pdu.isSegment (pdu : Pdu) : Bool := pdu.isFirst || pdu.isConsecutive

/-! ### The sender -/

namespace Sender

variable {cfg : Config} {s s' : Sender} {now i : Instant} {k : Timer}

/-- The timer that a sender runs, and when it runs out. -/
def timer? (cfg : Config) (s : Sender) : Option (Timer × Instant) :=
  match s.phase with
  | .waiting _ deadline => some (.nBs, deadline)
  | .sending t => t.refusedSince.map fun i => (.nCs, cfg.clock.after i cfg.nCs)
  | _ => none

lemma timer?_of_waiting {t : Transfer} (h : s.phase = .waiting t i) :
    s.timer? cfg = some (.nBs, i) := by
  simp only [timer?, h]

lemma timer?_of_sending {t : Transfer} (h : s.phase = .sending t) :
    s.timer? cfg = t.refusedSince.map fun i => (.nCs, cfg.clock.after i cfg.nCs) := by
  simp only [timer?, h]

lemma timer?_of_not_busy (h : ¬s.Busy) : s.timer? cfg = none := by
  unfold timer?
  split
  · next hphase => exact absurd (busy_of_waiting hphase) h
  · next hphase => exact absurd (busy_of_sending hphase) h
  · rfl

/-- A sender that waits runs the timer for flow control, and one whose frame the link refused the
timer for the link. -/
lemma exists_timer?_iff : (∃ i, s.timer? cfg = some (k, i)) ↔
    k = .nBs ∧ s.isWaiting = true ∨ k = .nCs ∧ s.progress = .stalled := by
  obtain ⟨phase, buffer, capacity⟩ := s
  cases phase with
  | waiting t deadline => simp [timer?, isWaiting, progress, eq_comm]
  | sending t =>
    cases hr : t.refusedSince <;> simp [timer?, isWaiting, progress, hr, eq_comm]
  | idle | done | failed => simp [timer?, isWaiting, progress]

lemma due_eq_expired_iff_timer? (h : s.HasMore) :
    s.due cfg now = .expired k ↔ ∃ i, s.timer? cfg = some (k, i) ∧ i ≤ now := by
  rw [due_eq_expired_iff h]
  obtain ⟨phase, buffer, capacity⟩ := s
  cases phase with
  | waiting t deadline => cases k <;> simp [timer?, and_assoc]
  | sending t => cases k <;> cases hr : t.refusedSince <;> simp [timer?, hr]
  | idle | done | failed => simp [timer?]

lemma not_busy_cancel (s : Sender) : ¬s.cancel.Busy := by
  unfold cancel
  split
  · rintro ⟨⟩
  · next hidle => exact hidle

/-- A message that is not begun leaves no frame on the link. -/
lemma Begins.not_taken {ε : Type} {id : CanId} {payload : Bytes} {new : List Offer} {e : Error ε}
    (h : s.Begins cfg now id payload s' new (.error e)) : ∀ o ∈ new, o.taken = false := by
  cases h with
  | rejected => simp
  | refused => simp

end Sender

/-! ### The receiver -/

namespace Receiver

variable {cfg : Config} {policy : FlowPolicy} {r : Receiver} {now i : Instant} {k : Timer}
  {pdu : Pdu} {m : Inbound}

/-- The timer that a receiver runs, and when it runs out. -/
def timer? (r : Receiver) : Option (Timer × Instant) :=
  match r.phase with
  | .receiving m => some (if m.owed.isSome then .nAr else .nCr, m.deadline)
  | _ => none

lemma timer?_of_receiving (h : r.phase = .receiving m) :
    r.timer? = some (if m.owed.isSome then .nAr else .nCr, m.deadline) := by
  simp only [timer?, h]

lemma timer?_of_ne (h : r.status ≠ .receiving) : r.timer? = none := by
  unfold timer?
  split
  · next m hphase => exact absurd (status_eq_receiving.2 ⟨m, hphase⟩) h
  · rfl

/-- In the middle of a message the receiver runs the timer for flow control on its way out if it
owes any, and else the one for the next frame. -/
lemma exists_timer?_iff : (∃ i, r.timer? = some (k, i)) ↔
    k = .nAr ∧ r.owed.isSome ∨ k = .nCr ∧ r.status = .receiving ∧ r.owed = none := by
  obtain ⟨phase, buffer, capacity⟩ := r
  cases phase with
  | receiving m => cases ho : m.owed <;> simp [timer?, owed, status, ho, eq_comm]
  | idle | done | failed => simp [timer?, owed, status]

/-- Time gives up the message if the timer has run out. -/
lemma advance_cause_iff {cause : Abort} : (r.advance now).2 = some cause ↔
    ∃ k i, r.timer? = some (k, i) ∧ i ≤ now ∧ cause = .timeout k := by
  unfold Receiver.advance
  cases hphase : r.phase with
  | receiving m =>
    rw [timer?_of_receiving hphase]
    dsimp only
    split
    · next hlt => simp [Nat.not_le.2 hlt]
    · next hle =>
      rw [Nat.not_lt] at hle
      constructor
      · rintro ⟨⟩
        exact ⟨_, _, rfl, hle, rfl⟩
      · rintro ⟨k, i, ⟨⟩, -, rfl⟩
        rfl
  | idle | done | failed => simp [timer?, hphase]

/-- A reception that goes on after a unit has a new deadline if that was a frame of its message, and
owes nothing right after a first frame. Any other unit has done nothing. -/
lemma deadline_accept (h : (r.accept cfg policy now pdu).1.phase = .receiving m) :
    pdu.isSegment = true ∧ m.deadline = cfg.clock.after now cfg.nCr ∧
        (m.owed.isSome → pdu.isConsecutive) ∨
      pdu.isSegment = false ∧ (r.accept cfg policy now pdu).1 = r := by
  cases pdu with
  | single len data =>
    refine .inr ⟨rfl, ?_⟩
    unfold Receiver.accept at h ⊢
    dsimp only at h ⊢
    split at h
    · next hdone => rw [if_pos hdone]
    · exact absurd (status_eq_receiving.2 ⟨m, h⟩) (status_single len.toNat data r).1
  | first len data =>
    refine .inl ⟨rfl, ?_⟩
    unfold Receiver.accept at h
    dsimp only at h
    split at h
    · next hdone => cases hdone.symm.trans (status_eq_receiving.2 ⟨m, h⟩)
    · unfold Receiver.first at h
      dsimp only at h
      split at h
      · cases h
      · split at h
        · cases h
        · cases h
          exact ⟨rfl, by simp⟩
  | consecutive sn data =>
    refine .inl ⟨rfl, ?_, fun _ => rfl⟩
    unfold Receiver.accept at h
    dsimp only at h
    split at h
    · unfold Receiver.consecutive Receiver.giveUp at h
      dsimp only at h
      repeat' split at h
      all_goals
        cases h
        try rfl
    · next hne => exact absurd h (hne m)
  | flowControl | invalid => exact .inr ⟨rfl, rfl⟩

end Receiver

end IsoTp
