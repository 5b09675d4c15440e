import IsoTp.Proofs.Sender.History

/-!
The requests to wait that a sender puts up with.

The peer may ask for more time as often as it likes: what counts against the limit is how often it
has done so since the first frame, or since it last cleared the sender to send. The sender counts as
far as 255. So it gives up on the request that exceeds the limit if the limit is less than that, and
it never does if the limit is 255, which the count does not exceed.
-/

namespace IsoTp.Sender

variable {σ ε : Type}

/-- How often the peer has asked to wait since the last first frame or clear to send. -/
def waitsInARow (past : List (Record σ ε)) : Nat :=
  since (fun y => y.opens || y.grant?.isSome) (fun n y => if y.asksToWait then n + 1 else n) 0 past

lemma waitsInARow_concat (past : List (Record σ ε)) (y : Record σ ε) :
    waitsInARow (past ++ [y]) =
      if y.opens || y.grant?.isSome then 0
      else if y.asksToWait then waitsInARow past + 1 else waitsInARow past :=
  since_concat ..

/-! ### One call -/

/-- The sender is over the limit once it counts this many requests. -/
def IsOver (limit : Option UInt8) (waits : Nat) : Prop :=
  ∃ m, limit = some m ∧ m.toNat < min waits 255

/-- What a call does to the count of requests to wait: it starts anew with a first frame or a clear
to send, a request adds to it or is one too many, and nothing else changes it. -/
inductive Record.Counts (cfg : Config) (y : Record σ ε) : Prop
  | anew (hy : (y.opens || y.grant?.isSome) = true) (hasks : y.asksToWait = false)
      (hgoes : y.gaveUp? ≠ some .tooManyWaits)
      (hwaits : ∀ t, y.after.transfer? = some t → t.waits = 0)
  | same (hy : (y.opens || y.grant?.isSome) = false) (hasks : y.asksToWait = false)
      (hgoes : y.gaveUp? ≠ some .tooManyWaits)
      (hwaits : ∀ t, y.after.transfer? = some t →
        ∃ t', y.before.transfer? = some t' ∧ t'.waits = t.waits)
  | putOff {t : Transfer} {d : Instant} (hy : (y.opens || y.grant?.isSome) = false)
      (hasks : y.asksToWait = true) (hphase : y.before.phase = .waiting t d)
      (hlimit : ¬IsOver cfg.waitLimit (t.waits + 1)) (hreply : y.reply = .event none)
      (hafter : y.after = { y.before with
        phase := .waiting { t with waits := min (t.waits + 1) 255 }
          (cfg.clock.after y.now cfg.nBs) })
  | tired {t : Transfer} {d : Instant} (hy : (y.opens || y.grant?.isSome) = false)
      (hasks : y.asksToWait = true) (hphase : y.before.phase = .waiting t d)
      (hlimit : IsOver cfg.waitLimit (t.waits + 1))
      (hreply : y.reply = .event (some (.failed .tooManyWaits)))
      (hafter : y.after = { y.before with phase := .failed .tooManyWaits })

section Outcomes

variable {cfg : Config} {now : Instant} {s s' : Sender}

lemma isOver_iff {limit : Option UInt8} {waits : Nat} :
    IsOver limit waits ↔ limit.any (·.toNat < min waits 255) = true := by
  simp [IsOver, Option.any_eq_true]

variable {y : Record σ ε}

lemma Opens.counts {id : CanId} {payload : Bytes} {value : Except (Error ε) (Option Event)}
    (h : y.before.Opens cfg y.now id y.after y.offers value) (hop : y.op = .begin id payload)
    (hreply : y.reply = .begun value) : y.Counts cfg := by
  obtain ⟨hgrant, hasks⟩ := Record.tells_nothing (y := y) (by simp [hop])
  have hgoes : y.gaveUp? ≠ some .tooManyWaits := by simp [Record.gaveUp?, hreply]
  generalize hoffers : y.offers = new at h
  generalize hafter : y.after = s' at h
  cases h with
  | rejected e hnew =>
    refine .same ?_ hasks hgoes fun t ht => ⟨t, hafter ▸ ht, rfl⟩
    have hopens := Record.opens_eq_false_of_refused fun o ho => (hnew o (hoffers ▸ ho)).1
    simp [hopens, hgrant]
  | whole len hs hf =>
    refine .same (by simp [Record.opens, hgrant, hoffers, hf]) hasks hgoes ?_
    rw [hafter]
    rintro t ⟨⟩
  | part len buffer hs hL hf =>
    refine .anew (by simp [Record.opens, hoffers, hf]) hasks hgoes ?_
    rw [hafter]
    rintro t ⟨⟩
    rfl

lemma Heeds.counts {fc : FlowControl} {event : Option Event}
    (h : y.before.Heeds cfg y.now fc y.after event) (hop : y.op = .flowControl fc)
    (hreply : y.reply = .event event) (hoffers : y.offers = []) : y.Counts cfg := by
  obtain ⟨hopens, -, -, hgrant, hasks⟩ := Record.tells_of_flowControl hop hoffers
  generalize hafter : y.after = s' at h
  cases h with
  | ignored hwaits =>
    exact .same (by simp [hopens, hgrant, grants, hwaits]) (by simp [hasks, hwaits])
      (by simp [Record.gaveUp?, hreply]) fun t ht => ⟨t, hafter ▸ ht, rfl⟩
  | cleared hphase hfc =>
    have hwaits := isWaiting_iff.2 ⟨_, _, hphase⟩
    refine .anew (by simp [hgrant, grants, hwaits, hfc]) (by simp [hasks, hfc])
      (by simp [Record.gaveUp?, hreply]) ?_
    rw [hafter]
    rintro t ⟨⟩
    rfl
  | putOff hphase hfc hlimit =>
    have hwaits := isWaiting_iff.2 ⟨_, _, hphase⟩
    refine .putOff (by simp [hopens, hgrant, grants, hfc]) (by simp [hasks, hwaits, hfc]) hphase
      (fun hover => ?_) hreply hafter
    rw [isOver_iff, hlimit] at hover
    cases hover
  | tired hphase hfc hlimit =>
    have hwaits := isWaiting_iff.2 ⟨_, _, hphase⟩
    exact .tired (by simp [hopens, hgrant, grants, hfc]) (by simp [hasks, hwaits, hfc]) hphase
      (isOver_iff.2 hlimit) hreply hafter
  | refused hphase hfc =>
    refine .same (by simp [hopens, hgrant, grants, hfc]) (by simp [hasks, hfc])
      (by simp [Record.gaveUp?, hreply, giveUp]) ?_
    rw [hafter]
    rintro t ⟨⟩

/-- Time does not change the count, and is no reason to lose patience. -/
lemma Proceeds.counts {event : Option Event}
    (h : y.before.Proceeds cfg y.now y.after y.offers event) (hop : y.op = .advance)
    (hreply : y.reply = .event event) : y.Counts cfg := by
  obtain ⟨hgrant, hasks⟩ := Record.tells_nothing (y := y) (by simp [hop])
  have hy : (y.opens || y.grant?.isSome) = false := by
    simp [Record.opens_eq_false h.isConsecutive_eq, hgrant]
  suffices event ≠ some (.failed .tooManyWaits) ∧ ∀ t, y.after.transfer? = some t →
      ∃ t', y.before.transfer? = some t' ∧ t'.waits = t.waits from
    .same hy hasks (by simpa [Record.gaveUp?_eq_some, hreply] using this.1) this.2
  generalize y.offers = new at h
  generalize y.after = s' at h
  cases h with
  | rest => exact ⟨by simp, fun t ht => ⟨t, ht, rfl⟩⟩
  | expired => exact ⟨by simp [giveUp], by rintro t ⟨⟩⟩
  | unwritten hdue | refused hdue =>
    refine ⟨by simp, ?_⟩
    rintro t ⟨⟩
    exact ⟨_, transfer?_of_sending (due_eq_frame hdue).1, rfl⟩
  | taken hdue hf hplaces =>
    cases hplaces with
    | last => exact ⟨by simp, by rintro t ⟨⟩⟩
    | next | blockEnd =>
      refine ⟨by simp, ?_⟩
      rintro t ⟨⟩
      exact ⟨_, transfer?_of_sending (due_eq_frame hdue).1, rfl⟩

variable [Link σ ε] {h : Host σ}

lemma Host.step_counts (hs : h.sender.Sound) (now : Instant) (op : Op σ) :
    (h.step now op).2.Counts h.cfg := by
  cases op with
  | begin id payload =>
    obtain ⟨value, hreply, hopens⟩ := step_begin hs now id payload
    exact hopens.counts rfl hreply
  | flowControl fc =>
    obtain ⟨event, hreply, hheeds⟩ := step_flowControl (h := h) now fc
    exact hheeds.counts rfl hreply rfl
  | advance =>
    obtain ⟨event, hreply, hproceeds⟩ := step_advance hs now
    exact hproceeds.counts rfl hreply
  | cancel =>
    refine .same rfl rfl (by rintro ⟨⟩) fun t ht => ?_
    have hcancel : h.sender.cancel.transfer? = some t := ht
    unfold Sender.cancel at hcancel
    split at hcancel
    · cases hcancel
    · exact ⟨t, hcancel, rfl⟩
  | setConfig | setLine => exact .same rfl rfl (by rintro ⟨⟩) fun t ht => ⟨t, ht, rfl⟩

end Outcomes

/-! ### The sender keeps count -/

/-- The sender knows as far as 255 how often the peer has asked to wait, and it has put up with
that. -/
def Patient (limit : Option UInt8) (past : List (Record σ ε)) (s : Sender) : Prop :=
  ∀ t, s.transfer? = some t →
    t.waits = min (waitsInARow past) 255 ∧ ¬IsOver limit (waitsInARow past)

lemma not_isOver_zero (limit : Option UInt8) : ¬IsOver limit 0 := by
  rintro ⟨m, -, hm⟩
  omega

/-- The count stops where no limit can be told from it, so it does for the whole number. -/
lemma isOver_min_succ {limit : Option UInt8} {n : Nat} :
    IsOver limit (min n 255 + 1) ↔ IsOver limit (n + 1) := by
  have hmin : min (min n 255 + 1) 255 = min (n + 1) 255 := by omega
  rw [IsOver, IsOver, hmin]

/-- One request more is too many exactly if it exceeds the limit by one and the limit is less than
what is counted to. -/
lemma isOver_succ_iff {limit : Option UInt8} {n : Nat} (h : ¬IsOver limit n) :
    IsOver limit (n + 1) ↔ ∃ m, limit = some m ∧ m < 255 ∧ n + 1 = m.toNat + 1 := by
  refine exists_congr fun m => and_congr_right fun hm => ?_
  have hle : ¬m.toNat < min n 255 := fun hlt => h ⟨m, hm, hlt⟩
  rw [UInt8.lt_iff_toNat_lt]
  have h255 : (255 : UInt8).toNat = 255 := rfl
  omega

variable {cfg : Config} {past : List (Record σ ε)} {y : Record σ ε}

lemma Record.Counts.patient (h : y.Counts cfg) (hp : Patient cfg.waitLimit past y.before) :
    Patient cfg.waitLimit (past ++ [y]) y.after := by
  intro t ht
  rw [waitsInARow_concat]
  cases h with
  | anew hy hasks hgoes hwaits =>
    rw [if_pos hy, hwaits t ht]
    exact ⟨rfl, not_isOver_zero _⟩
  | same hy hasks hgoes hwaits =>
    obtain ⟨t', ht', heq⟩ := hwaits t ht
    rw [if_neg (by simp [hy]), if_neg (by simp [hasks]), ← heq]
    exact hp t' ht'
  | putOff hy hasks hphase hlimit hreply hafter =>
    obtain ⟨hcount, hover⟩ := hp _ (transfer?_of_waiting hphase)
    rw [hafter] at ht
    cases ht
    rw [if_neg (by simp [hy]), if_pos hasks]
    rw [hcount, isOver_min_succ] at hlimit
    exact ⟨by dsimp only; omega, hlimit⟩
  | tired hy hasks hphase hlimit hreply hafter =>
    rw [hafter] at ht
    cases ht

/-- How a request to wait is taken after these calls. It makes the sender give up exactly if it
exceeds the limit, counted from the first frame or the last clear to send, and the limit is less
than what the sender counts to. Any other request moves the deadline to `nBs` from now and leaves
the rest as it is, apart from the count. -/
structure Record.Bears (cfg : Config) (past : List (Record σ ε)) (y : Record σ ε) : Prop where
  gaveUp_iff : y.gaveUp? = some .tooManyWaits ↔
    y.asksToWait = true ∧
      ∃ m, cfg.waitLimit = some m ∧ m < 255 ∧ waitsInARow (past ++ [y]) = m.toNat + 1
  gaveUp : y.gaveUp? = some .tooManyWaits →
    y.after = { y.before with phase := .failed .tooManyWaits }
  putOff : y.asksToWait = true → y.gaveUp? ≠ some .tooManyWaits →
    y.reply = .event none ∧
      ∃ t d, y.before.phase = .waiting t d ∧
        y.after = { y.before with
          phase := .waiting { t with waits := min (waitsInARow (past ++ [y])) 255 }
            (cfg.clock.after y.now cfg.nBs) }

lemma Record.Counts.bears (h : y.Counts cfg) (hp : Patient cfg.waitLimit past y.before) :
    y.Bears cfg past := by
  have hrow := waitsInARow_concat past y
  cases h with
  | anew hy hasks hgoes hwaits | same hy hasks hgoes hwaits =>
    exact ⟨by simp [hgoes, hasks], fun h => absurd h hgoes, by simp [hasks]⟩
  | putOff hy hasks hphase hlimit hreply hafter =>
    -- the limit is tested on the sender's count, which is as good as the whole number
    have hgoes : y.gaveUp? ≠ some .tooManyWaits := by simp [Record.gaveUp?, hreply]
    obtain ⟨hcount, hover⟩ := hp _ (transfer?_of_waiting hphase)
    rw [hcount, isOver_min_succ, isOver_succ_iff hover] at hlimit
    rw [if_neg (by simp [hy]), if_pos hasks] at hrow
    refine ⟨⟨fun h => absurd h hgoes, fun h => ?_⟩, fun h => absurd h hgoes,
      fun _ _ => ⟨hreply, _, _, hphase, ?_⟩⟩
    · rw [hrow] at h
      exact absurd h.2 hlimit
    · have hmin : min (min (waitsInARow past) 255 + 1) 255 = min (waitsInARow past + 1) 255 := by
        omega
      rw [hafter, hcount, hmin, hrow]
  | tired hy hasks hphase hlimit hreply hafter =>
    have hgoes : y.gaveUp? = some .tooManyWaits := Record.gaveUp?_eq_some.2 hreply
    obtain ⟨hcount, hover⟩ := hp _ (transfer?_of_waiting hphase)
    rw [hcount, isOver_min_succ, isOver_succ_iff hover] at hlimit
    rw [if_neg (by simp [hy]), if_pos hasks] at hrow
    refine ⟨⟨fun _ => ⟨hasks, ?_⟩, fun _ => hgoes⟩, fun _ => hafter, fun _ h => absurd hgoes h⟩
    rw [hrow]
    exact hlimit

/-! ### Runs -/

section Runs

variable [Link σ ε] (buffer : Buffer) (capacity : Nat) (cfg : Config) (line : σ)
  (calls : List (Instant × Op σ))

/-- Under one limit, a run from a new sender leaves a sound one that is patient. -/
lemma Host.run_patient
    (hlimit : ∀ call ∈ calls, ∀ cfg', call.2 = .setConfig cfg' → cfg'.waitLimit = cfg.waitLimit) :
    let h : Host σ := ⟨.new buffer capacity, cfg, line⟩
    (h.run calls).sender.Sound ∧ (h.run calls).cfg = configIn cfg (h.trace calls) ∧
      (h.run calls).cfg.waitLimit = cfg.waitLimit ∧
      Patient cfg.waitLimit (h.trace calls) (h.run calls).sender := by
  intro h
  have hnew : Patient cfg.waitLimit ([] : List (Record σ ε)) h.sender := by rintro t ⟨⟩
  refine Host.stepwise.keeps
    (fun past h => h.sender.Sound ∧ h.cfg = configIn cfg past ∧ h.cfg.waitLimit = cfg.waitLimit ∧
      Patient cfg.waitLimit past h.sender)
    ⟨sound_new buffer capacity, rfl, rfl, hnew⟩ fun call hcall past h hinv => ?_
  obtain ⟨hs, hcfg, hwl, hp⟩ := hinv
  refine ⟨Host.step_sound hs call.1 call.2, Host.step_config hcfg call.1 call.2, ?_, ?_⟩
  · cases hop : call.2 with
    | setConfig cfg' => exact hlimit call hcall cfg' hop
    | begin | flowControl | advance | cancel | setLine => exact hwl
  · rw [← hwl, ← Host.step_before call.1 call.2] at hp
    rw [← hwl, ← Host.step_after call.1 call.2]
    exact (Host.step_counts hs call.1 call.2).patient hp

/-- The limit to the requests to wait, in every run that keeps it: each request is taken as the ones
before it in a row, that limit, and the timers in force make it be. -/
theorem waits_of_run
    (hlimit : ∀ call ∈ calls, ∀ cfg', call.2 = .setConfig cfg' → cfg'.waitLimit = cfg.waitLimit) :
    ∀ u y w, Host.trace ⟨.new buffer capacity, cfg, line⟩ calls = u ++ y :: w →
      (configIn cfg u).waitLimit = cfg.waitLimit ∧ y.Bears (configIn cfg u) u := by
  intro u y w hsplit
  obtain ⟨earlier, call, later, rfl, rfl, rfl, -⟩ := Host.stepwise.split hsplit
  obtain ⟨hs, hcfg, hwl, hp⟩ := Host.run_patient (ε := ε) buffer capacity cfg line earlier
    fun call hcall => hlimit call (List.mem_append_left _ hcall)
  rw [← hwl, ← Host.step_before call.1 call.2] at hp
  rw [← hcfg]
  exact ⟨hwl, (Host.step_counts hs call.1 call.2).bears hp⟩

end Runs

/-- With a limit of two, the third request in a row is one too many. Two came before the clear to
send, and one while the sender did not wait, which do not count, and the limit stays the same when
the timers are changed. -/
theorem waits_of_run_third_in_a_row :
    let cfg : Config := { waitLimit := some 2 }
    let ask : Op Quota := .flowControl ⟨.wait, 0, .zero⟩
    let earlier : List (Instant × Op Quota) :=
      [(0, .begin (.standard 1) (.replicate 20 7)), (1, ask), (2, ask),
        (3, .flowControl ⟨.clearToSend, 1, .zero⟩), (4, ask), (5, .advance),
        (6, .setConfig { cfg with nBs := .ofMillis 50 }), (7, ask), (8, ask)]
    let h : Host Quota := ⟨.new (.zeroed 20) 20, cfg, ⟨none⟩⟩
    let y := ((h.run earlier).step 9 ask).2
    (∀ call ∈ earlier ++ [(9, ask)], ∀ cfg', call.2 = .setConfig cfg' →
      cfg'.waitLimit = cfg.waitLimit) ∧
      waitsInARow (h.trace earlier ++ [y]) = 3 ∧ y.gaveUp? = some .tooManyWaits ∧
      y.after.phase = .failed .tooManyWaits := by
  intro cfg ask earlier h y
  have hlimit : ∀ call ∈ earlier ++ [(9, ask)], ∀ cfg', call.2 = .setConfig cfg' →
      cfg'.waitLimit = cfg.waitLimit := by
    simp [earlier, ask]
  have hsplit : h.trace (earlier ++ [(9, ask)]) = h.trace earlier ++ y :: [] :=
    Host.stepwise.trace_split h earlier (9, ask) []
  obtain ⟨hsame, hbears⟩ :=
    waits_of_run (.zeroed 20) 20 cfg (⟨none⟩ : Quota) (earlier ++ [(9, ask)]) hlimit _ _ _ hsplit
  have hrow : waitsInARow (h.trace earlier ++ [y]) = 3 := by decide +kernel
  have hgoes := hbears.gaveUp_iff.2 ⟨by decide +kernel, 2, hsame, by decide, hrow⟩
  refine ⟨hlimit, hrow, hgoes, ?_⟩
  rw [hbears.gaveUp hgoes]

/-- With a limit of 255, the request that exceeds it is put up with like those before: the count
stays at 255. -/
theorem waits_past_the_count :
    let cfg : Config := { waitLimit := some 255 }
    let ask : Op Quota := .flowControl ⟨.wait, 0, .zero⟩
    let earlier : List (Instant × Op Quota) :=
      (0, .begin (.standard 1) (.replicate 10 7)) :: .replicate 255 (1, ask)
    let h : Host Quota := ⟨.new (.zeroed 10) 10, cfg, ⟨none⟩⟩
    let y := ((h.run earlier).step 1 ask).2
    ¬(y.gaveUp? = some .tooManyWaits ↔
        y.asksToWait = true ∧
          ∃ m, cfg.waitLimit = some m ∧ waitsInARow (h.trace earlier ++ [y]) = m.toNat + 1) ∧
      y.after.isWaiting = true := by
  intro cfg ask earlier h y
  have hasks : y.asksToWait = true := by decide +kernel
  have hrow : waitsInARow (h.trace earlier ++ [y]) = 256 := by decide +kernel
  have hgoes : y.gaveUp? = none := by decide +kernel
  refine ⟨fun hiff => ?_, by decide +kernel⟩
  have hover := hiff.2 ⟨hasks, 255, rfl, hrow⟩
  rw [hgoes] at hover
  cases hover

end IsoTp.Sender
