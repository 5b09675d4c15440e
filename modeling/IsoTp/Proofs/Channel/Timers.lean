import IsoTp.Proofs.Channel.Arming

/-!
When the timers of a channel run out.

Every call stops, arms or leaves the timers, so the deadline of one that runs is told by the call
that armed it last. Time at the deadline or later ends the message. So a timer does not run out at
the instant at which it was armed, unless it is shorter than what the clock can tell. The counter
can tell a microsecond, and the steady clock tells all timers of a channel from none.
-/

namespace IsoTp.Channel

variable {σ ε : Type}

/-! ### The latest arming -/

/-- The armings of a timer, oldest first. -/
def armings (cfg : Config) (k : Timer) (past : List (Record σ ε)) : List Armed :=
  past.filterMap fun y => (y.arms? cfg k).map (Armed.mk y.now)

def lastArmed (cfg : Config) (k : Timer) (past : List (Record σ ε)) : Option Armed :=
  (armings cfg k past).getLast?

variable {cfg : Config} {past : List (Record σ ε)} {y : Record σ ε} {k : Timer}

lemma lastArmed_concat : lastArmed cfg k (past ++ [y]) =
    ((y.arms? cfg k).map (Armed.mk y.now)).or (lastArmed cfg k past) :=
  latest_concat ..

/-- A timer that runs has been armed, and its deadline is that of the latest arming. -/
def Reckoned (cfg : Config) (past : List (Record σ ε)) (running : Option (Timer × Instant)) :
    Prop :=
  ∀ k i, running = some (k, i) → ∃ a, lastArmed cfg k past = some a ∧ a.deadline cfg.clock = i

lemma reckoned_of_winds {x x' : Option (Timer × Instant)} (h : y.Winds cfg x x')
    (hx : Reckoned cfg past x) : Reckoned cfg (past ++ [y]) x' := by
  intro k i hrun
  rw [lastArmed_concat]
  cases h with
  | stopped => cases hrun
  | armed harms =>
    cases hrun
    rw [harms]
    exact ⟨_, rfl, rfl⟩
  | kept hquiet =>
    rw [hquiet k i hrun]
    exact hx k i hrun

lemma length_lastArmed {a : Armed} (h : lastArmed cfg k past = some a) :
    a.length = cfg.timer k ∨ k = .nAr ∧ a.length = cfg.nCr := by
  obtain ⟨y, -, hy⟩ := List.mem_filterMap.1 (List.mem_of_getLast? h)
  obtain ⟨length, hlength, rfl⟩ := Option.map_eq_some_iff.1 hy
  exact Record.length_of_arms? hlength

/-- If no instant lies before an earlier one, a timer armed at the last instant has its latest
arming there, too. -/
lemma start_lastArmed (hclock : (past ++ [y]).Pairwise fun x z => x.now ≤ z.now) {x : Record σ ε}
    (hx : x ∈ past ++ [y]) (harms : (x.arms? cfg k).isSome) (hnow : x.now = y.now) :
    ∃ a, lastArmed cfg k (past ++ [y]) = some a ∧ a.start = y.now := by
  have hordered : (armings cfg k (past ++ [y])).Pairwise fun a b => a.start ≤ b.start := by
    refine List.Pairwise.filterMap _ (fun x z hle a ha b hb => ?_) hclock
    obtain ⟨_, -, rfl⟩ := Option.map_eq_some_iff.1 ha
    obtain ⟨_, -, rfl⟩ := Option.map_eq_some_iff.1 hb
    exact hle
  obtain ⟨length, hlength⟩ := Option.isSome_iff_exists.1 harms
  have hmem : ⟨x.now, length⟩ ∈ armings cfg k (past ++ [y]) :=
    List.mem_filterMap.2 ⟨x, hx, by rw [hlength]; rfl⟩
  -- the latest arming is not before that of `x`, and not after `y`
  obtain ⟨a, ha⟩ : ∃ a, lastArmed cfg k (past ++ [y]) = some a :=
    Option.isSome_iff_exists.1 (List.getLast?_isSome.2 (List.ne_nil_of_mem hmem))
  refine ⟨a, ha, Nat.le_antisymm ?_ ?_⟩
  · obtain ⟨z, hz, hza⟩ := List.mem_filterMap.1 (List.mem_of_getLast? ha)
    obtain ⟨_, -, rfl⟩ := Option.map_eq_some_iff.1 hza
    rcases List.mem_append.1 hz with hz | hz
    · exact (List.pairwise_append.1 hclock).2.2 z hz y (List.mem_singleton_self y)
    · exact Nat.le_of_eq (congrArg Record.now (List.mem_singleton.1 hz))
  · obtain ⟨front, hfront⟩ := List.getLast?_eq_some_iff.1 ha
    rw [hfront] at hmem hordered
    rw [← hnow]
    rcases List.mem_append.1 hmem with hmem | hmem
    · exact (List.pairwise_append.1 hordered).2.2 _ hmem a (List.mem_singleton_self a)
    · exact Nat.le_of_eq (congrArg Armed.start (List.mem_singleton.1 hmem))

/-! ### Time -/

/-- What time does about the timers, after the calls `past`. -/
structure Record.Expires (cfg : Config) (past : List (Record σ ε)) (y : Record σ ε) : Prop where
  /-- A timer runs out if it runs and the deadline of its latest arming has come. -/
  expires : ∀ k, k ∈ y.timeouts ↔ y.runs k = true ∧
    ∃ a, lastArmed cfg k (past ++ [y]) = some a ∧ a.deadline cfg.clock ≤ y.now
  /-- A timer is armed for its own time, or the one for owed flow control for that of the next
  frame. -/
  length : ∀ k a, lastArmed cfg k (past ++ [y]) = some a →
    a.length = cfg.timer k ∨ k = .nAr ∧ a.length = cfg.nCr
  /-- On the counter, and armed at this very instant, a timer that runs runs out if it is shorter
  than a microsecond. -/
  atOnce : cfg.clock = .counter → ∀ k a, lastArmed cfg k (past ++ [y]) = some a → a.start = y.now →
    y.now < Instant.last → (k ∈ y.timeouts ↔ y.runs k = true ∧ a.length < .ofMicros 1)
  /-- Where all four are a microsecond or longer, none that any call armed at this instant runs out,
  as long as no instant lies before an earlier one. -/
  notAtOnce : cfg.clock = .counter → (∀ k, .ofMicros 1 ≤ cfg.timer k) →
    ((past ++ [y]).Pairwise fun x z => x.now ≤ z.now) → y.now < Instant.last →
      ∀ k, ∀ x ∈ past ++ [y], x.now = y.now → (x.arms? cfg k).isSome → k ∉ y.timeouts
  /-- On the steady clock that is so of any timers, up to a century before its end. -/
  steady : cfg.clock = .steady → ((past ++ [y]).Pairwise fun x z => x.now ≤ z.now) →
    ⟨y.now⟩ + SteadyClock.century < SteadyClock.limit →
      ∀ k, ∀ x ∈ past ++ [y], x.now = y.now → (x.arms? cfg k).isSome → k ∉ y.timeouts

section Ticks

variable {x : Channel} {unit : Duration}

/-- As time passes, a running timer runs out if the deadline of its latest arming has come. -/
lemma Record.Ticks.mem_timeouts_iff (h : y.Ticks x) (hcfg : y.before.cfg = cfg)
    (hpast : ∀ d, Reckoned cfg past (y.before.timer? d)) : k ∈ y.timeouts ↔ y.runs k = true ∧
      ∃ a, lastArmed cfg k (past ++ [y]) = some a ∧ a.deadline cfg.clock ≤ y.now := by
  subst hcfg
  have hx (d : Direction) := reckoned_of_winds (h.winds d) (hpast d)
  rw [h.timeouts, h.runs]
  constructor
  · rintro ⟨d, i, hrun, hle⟩
    obtain ⟨a, ha, rfl⟩ := hx d k i hrun
    exact ⟨⟨d, _, hrun⟩, a, ha, hle⟩
  · rintro ⟨⟨d, i, hrun⟩, a, ha, hle⟩
    obtain ⟨a', ha', rfl⟩ := hx d k i hrun
    cases ha.symm.trans ha'
    exact ⟨d, _, hrun, hle⟩

/-- Armed at this very instant, a timer that runs runs out if the clock cannot tell it from none. -/
lemma Record.Ticks.mem_timeouts_iff_of_start (h : y.Ticks x) (hcfg : y.before.cfg = cfg)
    (hpast : ∀ d, Reckoned cfg past (y.before.timer? d)) (hunit : cfg.clock.Discerns unit y.now)
    {a : Armed} (ha : lastArmed cfg k (past ++ [y]) = some a) (hstart : a.start = y.now) :
    k ∈ y.timeouts ↔ y.runs k = true ∧ a.length < unit := by
  rw [h.mem_timeouts_iff hcfg hpast, ha, ← hunit, ← hstart]
  simp [Armed.deadline]

/-- Where the clock can tell all four, none that is armed at this instant runs out. -/
lemma Record.Ticks.notMem_timeouts (h : y.Ticks x) (hcfg : y.before.cfg = cfg)
    (hpast : ∀ d, Reckoned cfg past (y.before.timer? d)) (hunit : cfg.clock.Discerns unit y.now)
    (hlong : ∀ k, unit ≤ cfg.timer k) (hordered : (past ++ [y]).Pairwise fun x z => x.now ≤ z.now)
    (k : Timer) (z : Record σ ε) (hz : z ∈ past ++ [y]) (hat : z.now = y.now)
    (harms : (z.arms? cfg k).isSome) : k ∉ y.timeouts := by
  obtain ⟨a, ha, hstart⟩ := start_lastArmed hordered hz harms hat
  rw [h.mem_timeouts_iff_of_start hcfg hpast hunit ha hstart, not_and, Duration.lt_iff, Nat.not_lt]
  intro _
  rcases length_lastArmed ha with hlength | ⟨-, hlength⟩
  · rw [hlength]
    exact hlong k
  · rw [hlength]
    exact hlong .nCr

lemma Record.Ticks.expires (h : y.Ticks x) (hvalid : cfg.Valid) (hcfg : y.before.cfg = cfg)
    (hpast : ∀ d, Reckoned cfg past (y.before.timer? d)) : y.Expires cfg past where
  expires _ := h.mem_timeouts_iff hcfg hpast
  length _ _ := length_lastArmed
  atOnce hclock _ _ ha hstart hnow :=
    h.mem_timeouts_iff_of_start hcfg hpast (hclock ▸ Clock.discerns_counter hnow) ha hstart
  notAtOnce hclock hlong hordered hnow :=
    h.notMem_timeouts hcfg hpast (hclock ▸ Clock.discerns_counter hnow) hlong hordered
  steady hclock hordered hnow :=
    h.notMem_timeouts hcfg hpast (hclock ▸ Clock.discerns_steady hnow) hvalid.timer_pos hordered

end Ticks

/-! ### Runs -/

variable [Link σ ε] {c : Channel}

/-- A run from a fresh channel keeps the deadlines. -/
lemma Host.run_reckoned (hc : Fresh cfg c) (line : σ) (calls : List (Instant × Op σ)) :
    let h : Host σ := ⟨c, line⟩
    (h.run calls).Fit cfg ∧
      ∀ d, Reckoned cfg (h.trace calls) ((h.run calls).channel.timer? d) := by
  intro h
  have hidle (d : Direction) : c.timer? d = none := by
    obtain ⟨-, tx, rx, -, -, rfl⟩ := hc.eq_new
    cases d <;> rfl
  have hstart : h.Fit cfg ∧ ∀ d, Reckoned cfg ([] : List (Record σ ε)) (h.channel.timer? d) := by
    refine ⟨hc.fit line, fun d k i hrun => ?_⟩
    cases (hidle d).symm.trans hrun
  refine Host.stepwise.keeps
    (fun past h => h.Fit cfg ∧ ∀ d, Reckoned cfg past (h.channel.timer? d)) hstart
    fun call _ past h hinv => ?_
  obtain ⟨hfit, hpast⟩ := hinv
  refine ⟨hfit.step call.1 call.2, fun d => ?_⟩
  rw [← Host.step_after call.1 call.2]
  exact reckoned_of_winds (Host.step_winds hfit call.1 call.2 d) (hpast d)

/-- **A timer runs out at its deadline, which is told by the call that armed it last.** Whatever the
calls, their instants, the link and the clock: as time passes, exactly those of the running timers
run out whose deadline has come. On the counter, a timer of a microsecond or longer does not run out
at the instant at which it was armed, unless that is the last of the counter; a shorter one does. On
the steady clock none does, up to a century before the end of that clock. -/
theorem timers_of_run (hc : Fresh cfg c) (line : σ) (calls : List (Instant × Op σ)) :
    let records := Host.trace ⟨c, line⟩ calls
    ∀ u z w, records = u ++ z :: w → z.op = .advance → z.Expires cfg u := by
  intro records u z w hsplit hop
  obtain ⟨earlier, ⟨now, op⟩, later, -, rfl, rfl, -⟩ := Host.split_trace hsplit
  obtain ⟨hfit, hpast⟩ := Host.run_reckoned (ε := ε) hc line earlier
  rw [Host.step_op] at hop
  subst hop
  obtain ⟨x, hticks⟩ := Host.step_ticks hfit now
  refine hticks.expires hc.eq_new.1 ?_ ?_
  · rw [Host.step_before]
    exact hfit.cfg_eq
  · rw [Host.step_before]
    exact hpast

/-- Timers of one microsecond: the one for flow control does not run out at the instant of the first
frame, and runs out at the next. -/
theorem timers_of_run_one_microsecond :
    let cfg : Config := Config.withTimers { rxId := .standard 1 } (.ofMicros 1)
    let c : Channel :=
      ⟨cfg, cfg.policy, .new (.zeroed 4095) 4095, .new (.zeroed 4095) 4095⟩
    let y₀ := Host.step ⟨c, (⟨none⟩ : Quota)⟩ 0 (.send (.replicate 9 7))
    let y₁ := y₀.1.step 0 .advance
    let y₂ := y₁.1.step 1 .advance
    Fresh cfg c ∧ y₀.2.arms? cfg .nBs = some (.ofMicros 1) ∧ .nBs ∉ y₁.2.timeouts ∧
      .nBs ∈ y₂.2.timeouts := by
  intro cfg c y₀ y₁ y₂
  have hc : Fresh cfg c := .ofBuffers (.zeroed 4095) (.zeroed 4095) rfl
  have harms : y₀.2.arms? cfg .nBs = some (.ofMicros 1) := by decide +kernel
  have hsplit : Host.trace ⟨c, (⟨none⟩ : Quota)⟩
      [(0, .send (.replicate 9 7)), (0, .advance), (1, .advance)] =
        [y₀.2] ++ y₁.2 :: [y₂.2] := by
    simp only [Host.trace_cons]
    rfl
  have hfirst := timers_of_run hc (⟨none⟩ : Quota) _ _ _ _ hsplit rfl
  have hsecond := timers_of_run hc (⟨none⟩ : Quota) _ [y₀.2, y₁.2] _ _ hsplit rfl
  refine ⟨hc, harms, ?_, ?_⟩
  · have hlong : ∀ k, .ofMicros 1 ≤ cfg.timer k := by
      rintro (_ | _ | _ | _) <;> decide
    exact hfirst.notAtOnce rfl hlong (by decide +kernel) (by decide) .nBs y₀.2
      List.mem_cons_self rfl (by rw [harms]; rfl)
  · refine (hsecond.expires .nBs).2 ⟨by decide +kernel, ⟨0, .ofMicros 1⟩, ?_, by decide⟩
    decide +kernel

/-- A timer of half a microsecond, which the parameters of a channel may have, runs out at the
instant at which the first frame went out. -/
theorem timer_runs_out_at_once :
    let cfg : Config := { rxId := .standard 1, nBs := ⟨500⟩ }
    let c : Channel :=
      ⟨cfg, cfg.policy, .new (.zeroed 4095) 4095, .new (.zeroed 4095) 4095⟩
    let y₀ := Host.step ⟨c, (⟨none⟩ : Quota)⟩ 0 (.send (.replicate 9 7))
    let y₁ := y₀.1.step 0 .advance
    Fresh cfg c ∧ y₀.2.arms? cfg .nBs = some cfg.nBs ∧ y₁.2.now = y₀.2.now ∧
      y₁.2.now < Instant.last ∧ y₁.2.timeouts = [.nBs] := by
  intro cfg c y₀ y₁
  have hc : Fresh cfg c := .ofBuffers (.zeroed 4095) (.zeroed 4095) rfl
  exact ⟨hc, by decide +kernel, rfl, by decide, by decide +kernel⟩

/-- On the steady clock the same timer runs out half a microsecond later. -/
example :
    let cfg : Config := { rxId := .standard 1, nBs := ⟨500⟩, clock := .steady }
    let c : Channel :=
      ⟨cfg, cfg.policy, .new (.zeroed 4095) 4095, .new (.zeroed 4095) 4095⟩
    let y := Host.step ⟨c, (⟨none⟩ : Quota)⟩ 0 (.send (.replicate 9 7))
    (y.1.step 499 .advance).2.timeouts = [] ∧ (y.1.step 500 .advance).2.timeouts = [.nBs] := by
  decide +kernel

end IsoTp.Channel
