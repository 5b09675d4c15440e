import IsoTp.Proofs.Sender.History

/-!
When a sender loses patience with its peer, and with the link.

Both deadlines are in the history of a run under one set of parameters. Flow control is waited for
until `nBs` after the latest of the first frame, the last frame of a block, and a request to wait. A
link that refuses the next consecutive frame has until `nCs` after the first refusal. Time gives up
the message in flight at one of these deadlines or later, and for no other reason.
-/

namespace IsoTp.Sender

variable {σ ε : Type}

/-! ### What counts of the past -/

namespace Record

variable (y : Record σ ε)

/-- The sender waits for flow control anew: a first frame or the last frame of a block has gone out,
or the peer has asked for more time. -/
def arms : Bool := y.opens || y.asksToWait || (0 < y.sent && y.after.isWaiting)

/-- A consecutive frame has gone out, or the sender may send one. -/
def movesOn : Bool := 0 < y.sent || y.grant?.isSome

end Record

section History

variable (past : List (Record σ ε)) (y : Record σ ε)

/-- When the sender last began to wait for flow control. -/
def lastArmed : Option Instant := latest (fun y => if y.arms then some y.now else none) past

/-- When the link first refused a consecutive frame since the sender last moved on. -/
def firstRefusal : Option Instant :=
  since Record.movesOn (fun r y => if y.stalls then some (r.getD y.now) else r) none past

lemma lastArmed_concat :
    lastArmed (past ++ [y]) = if y.arms then some y.now else lastArmed past := by
  rw [lastArmed, latest_concat]
  cases y.arms <;> rfl

lemma firstRefusal_concat : firstRefusal (past ++ [y]) =
    if y.movesOn then none
    else if y.stalls then some ((firstRefusal past).getD y.now) else firstRefusal past :=
  since_concat ..

end History

/-! ### One call -/

/-- What a call does to the deadlines of the message in flight, if there is one after it. -/
inductive Record.Times (cfg : Config) (y : Record σ ε) : Prop
  | armed {t : Transfer} (harms : y.arms = true) (hL : FrameLength.Legal cfg.frameLength)
      (hafter : y.after.phase = .waiting t (cfg.clock.after y.now cfg.nBs))
  | anew {t : Transfer} (hmoves : y.movesOn = true) (hbusy : y.before.Busy)
      (hafter : y.after.phase = .sending t) (hrefused : t.refusedSince = none)
  | stalled {t : Transfer} (hmoves : y.movesOn = false) (hstalls : y.stalls = true)
      (hbefore : y.before.phase = .sending t)
      (hafter : y.after.phase =
        .sending { t with refusedSince := some (t.refusedSince.getD y.now) })
  | same (harms : y.arms = false) (hmoves : y.movesOn = false) (hstalls : y.stalls = false)
      (hafter : y.after.phase = y.before.phase)
  | ended (hafter : ¬y.after.Busy)

section Outcomes

variable {cfg : Config} {now : Instant} {s s' : Sender} {y : Record σ ε}

lemma Opens.times {id : CanId} {payload : Bytes} {value : Except (Error ε) (Option Event)}
    (h : y.before.Opens cfg y.now id y.after y.offers value) (hop : y.op = .begin id payload) :
    y.Times cfg := by
  obtain ⟨hgrant, hasks⟩ := Record.tells_nothing (y := y) (by simp [hop])
  obtain ⟨hsent, hstalls⟩ := Record.sent_eq_zero h.isConsecutive_eq
  generalize hoffers : y.offers = new at h
  generalize hafter : y.after = s' at h
  cases h with
  | rejected e hnew =>
    have hopens := Record.opens_eq_false_of_refused fun o ho => (hnew o (hoffers ▸ ho)).1
    exact .same (by simp [Record.arms, hopens, hasks, hsent])
      (by simp [Record.movesOn, hsent, hgrant]) hstalls (by rw [hafter])
  | whole len hs hf =>
    exact .ended (by rw [hafter]; rintro ⟨⟩)
  | part len buffer hs hL hf =>
    exact .armed (by simp [Record.arms, Record.opens, hoffers, hf]) hL (by rw [hafter])

lemma Heeds.times {fc : FlowControl} {event : Option Event}
    (h : y.before.Heeds cfg y.now fc y.after event) (hop : y.op = .flowControl fc)
    (hoffers : y.offers = []) (hs : y.before.Sound)
    (hL : y.before.Busy → FrameLength.Legal cfg.frameLength) : y.Times cfg := by
  obtain ⟨hopens, hsent, hstalls, hgrant, hasks⟩ := Record.tells_of_flowControl hop hoffers
  have hphases := hs.phase
  generalize hafter : y.after = s' at h
  cases h with
  | ignored hwaits =>
    exact .same (by simp [Record.arms, hopens, hasks, hwaits, hsent])
      (by simp [Record.movesOn, hsent, hgrant, grants, hwaits]) hstalls (by rw [hafter])
  | cleared hphase hfc =>
    have hwaits := isWaiting_iff.2 ⟨_, _, hphase⟩
    rw [hphase] at hphases
    refine .anew (by simp [Record.movesOn, hgrant, grants, hwaits, hfc]) (busy_of_waiting hphase)
      (by rw [hafter]) ?_
    exact hphases.2
  | putOff hphase hfc hlimit =>
    have hwaits := isWaiting_iff.2 ⟨_, _, hphase⟩
    exact .armed (by simp [Record.arms, hasks, hwaits, hfc]) (hL (busy_of_waiting hphase))
      (by rw [hafter])
  | tired | refused =>
    exact .ended (by rw [hafter]; rintro ⟨⟩)

/-- Where frames can be written, a consecutive frame that does not go out has been refused. -/
lemma Proceeds.times {event : Option Event}
    (h : y.before.Proceeds cfg y.now y.after y.offers event) (hop : y.op = .advance)
    (hL : y.before.Busy → FrameLength.Legal cfg.frameLength) : y.Times cfg := by
  have hopens := Record.opens_eq_false h.isConsecutive_eq
  obtain ⟨hgrant, hasks⟩ := Record.tells_nothing (y := y) (by simp [hop])
  generalize hoffers : y.offers = new at h
  generalize hafter : y.after = s' at h
  cases h with
  | rest =>
    have hsent : y.sent = 0 := by simp [Record.sent, hoffers]
    exact .same (by simp [Record.arms, hopens, hasks, hsent])
      (by simp [Record.movesOn, hsent, hgrant]) (by simp [Record.stalls, hoffers]) (by rw [hafter])
  | expired =>
    exact .ended (by rw [hafter]; rintro ⟨⟩)
  | @unwritten t chunk hdue hf =>
    -- the parameters that had a frame for the first part of the message have one for every part
    obtain ⟨hphase, hread⟩ := due_eq_frame hdue
    have hlegal := hL (busy_of_sending hphase)
    have hroom : chunk.length ≤ cfg.consecutiveRoom :=
      Buffer.length_of_read? hread ▸ Nat.min_le_right ..
    have hsome : (cfg.encode? (.consecutive (.ofNat t.nextSn) chunk)).isSome :=
      (Pdu.isSome_encode?_consecutive hlegal).2 hroom
    rw [hf] at hsome
    cases hsome
  | refused hdue hf =>
    have hconsecutive := isConsecutive_of_encode? hf
    refine .stalled ?_ ?_ (due_eq_frame hdue).1 (by rw [hafter]; rfl)
    · simp [Record.movesOn, Record.sent, hoffers, hgrant]
    · simp [Record.stalls, hoffers, hconsecutive]
  | taken hdue hf hplaces =>
    have hbusy := busy_of_sending (due_eq_frame hdue).1
    have hsent : 0 < y.sent := by
      simp [Record.sent, hoffers, isConsecutive_of_encode? hf]
    cases hplaces with
    | last =>
      exact .ended (by rw [hafter]; rintro ⟨⟩)
    | next => exact .anew (by simp [Record.movesOn, hsent]) hbusy (by rw [hafter]) rfl
    | blockEnd =>
      exact .armed (by simp [Record.arms, hsent, hafter, isWaiting]) (hL hbusy) (by rw [hafter])

variable [Link σ ε] {h : Host σ}

lemma Host.step_times (hs : h.sender.Sound)
    (hL : h.sender.Busy → FrameLength.Legal h.cfg.frameLength) (now : Instant) (op : Op σ) :
    (h.step now op).2.Times h.cfg := by
  cases op with
  | begin id payload =>
    obtain ⟨value, hreply, hopens⟩ := step_begin hs now id payload
    exact hopens.times rfl
  | flowControl fc =>
    obtain ⟨event, hreply, hheeds⟩ := step_flowControl (h := h) now fc
    exact hheeds.times rfl rfl hs hL
  | advance =>
    obtain ⟨event, hreply, hproceeds⟩ := step_advance hs now
    exact hproceeds.times rfl hL
  | cancel =>
    by_cases hbusy : h.sender.Busy
    · refine .ended ?_
      have hcancel : (h.step now .cancel).2.after = { h.sender with phase := .idle } := if_pos hbusy
      rw [hcancel]
      rintro ⟨⟩
    · exact .same rfl rfl rfl (congrArg Sender.phase (if_neg hbusy))
  | setConfig | setLine => exact .same rfl rfl rfl rfl

end Outcomes

/-! ### The sender keeps the deadlines -/

/-- A message in flight has both its deadlines from the history, and its frames can be written. -/
structure Timed (cfg : Config) (past : List (Record σ ε)) (s : Sender) : Prop where
  legal : s.Busy → FrameLength.Legal cfg.frameLength
  waiting : ∀ t d, s.phase = .waiting t d →
    ∃ i, lastArmed past = some i ∧ d = cfg.clock.after i cfg.nBs
  sending : ∀ t, s.phase = .sending t → t.refusedSince = firstRefusal past

lemma timed_of_not_busy {cfg : Config} {past : List (Record σ ε)} {s : Sender} (hs : ¬s.Busy) :
    Timed cfg past s := by
  refine ⟨fun hbusy => absurd hbusy hs, fun t d ht => ?_, fun t ht => ?_⟩
  · exact absurd (busy_of_waiting ht) hs
  · exact absurd (busy_of_sending ht) hs

variable {cfg : Config} {past : List (Record σ ε)} {y : Record σ ε}

lemma Record.Times.timed (h : y.Times cfg) (ht : Timed cfg past y.before) :
    Timed cfg (past ++ [y]) y.after := by
  cases h with
  | armed harms hL hafter =>
    refine ⟨fun _ => hL, fun t d hphase => ?_, fun t hphase => ?_⟩
    · rw [hafter] at hphase
      cases hphase
      exact ⟨y.now, by rw [lastArmed_concat, if_pos harms], rfl⟩
    · rw [hafter] at hphase
      cases hphase
  | anew hmoves hbusy hafter hrefused =>
    refine ⟨fun _ => ht.legal hbusy, fun t d hphase => ?_, fun t hphase => ?_⟩
    · rw [hafter] at hphase
      cases hphase
    · rw [hafter] at hphase
      cases hphase
      rw [firstRefusal_concat, if_pos hmoves, hrefused]
  | @stalled t hmoves hstalls hbefore hafter =>
    refine ⟨fun _ => ht.legal (busy_of_sending hbefore), fun t d hphase => ?_, fun t hphase => ?_⟩
    · rw [hafter] at hphase
      cases hphase
    · rw [hafter] at hphase
      cases hphase
      rw [firstRefusal_concat, if_neg (by simp [hmoves]), if_pos hstalls, ht.sending t hbefore]
  | same harms hmoves hstalls hafter =>
    refine ⟨fun hbusy => ht.legal ?_, fun t d hphase => ?_, fun t hphase => ?_⟩
    · rwa [Busy, ← transfer?_congr hafter]
    · rw [lastArmed_concat, if_neg (by simp [harms])]
      exact ht.waiting t d (hafter ▸ hphase)
    · rw [firstRefusal_concat, if_neg (by simp [hmoves]), if_neg (by simp [hstalls])]
      exact ht.sending t (hafter ▸ hphase)
  | ended hafter => exact timed_of_not_busy hafter

/-! ### Time -/

section Time

variable {now : Instant} {s s' : Sender}

lemma due_eq_expired_iff (h : s.HasMore) {timer : Timer} : s.due cfg now = .expired timer ↔
    (timer = .nBs ∧ ∃ t d, s.phase = .waiting t d ∧ d ≤ now) ∨
      (timer = .nCs ∧ ∃ t r, s.phase = .sending t ∧ t.refusedSince = some r ∧
        cfg.clock.after r cfg.nCs ≤ now) := by
  constructor
  · intro hdue
    cases hphase : s.phase with
    | waiting t d =>
      simp only [due, hphase] at hdue
      split at hdue
      · next hover =>
        cases hdue
        exact .inl ⟨rfl, t, d, rfl, hover⟩
      · cases hdue
    | sending t =>
      rw [due_of_hasMore h hphase] at hdue
      split at hdue
      · next hover =>
        cases hdue
        obtain ⟨r, hr, hover⟩ := (Option.any_eq_true _ _).1 hover
        exact .inr ⟨rfl, t, r, rfl, hr, of_decide_eq_true hover⟩
      · split at hdue
        · cases hdue
        · split at hdue <;> cases hdue
    | idle | done | failed =>
      simp only [due, hphase] at hdue
      cases hdue
  · rintro (⟨rfl, t, d, hphase, hover⟩ | ⟨rfl, t, r, hphase, hr, hover⟩)
    · simp only [due, hphase, if_pos hover]
    · rw [due_of_hasMore h hphase, hr, Option.any_some, if_pos (decide_eq_true hover)]

/-- Time gives up a message if a timer has expired, and then offers nothing. -/
lemma Proceeds.gaveUp {new : List Offer} {event : Option Event}
    (h : s.Proceeds cfg now s' new event) (cause : Abort) :
    (event = some (.failed cause) ↔
      ∃ timer, s.due cfg now = .expired timer ∧ cause = .timeout timer) ∧
    (event = some (.failed cause) → new = [] ∧ s' = { s with phase := .failed cause }) := by
  cases h with
  | rest hdue => simp [hdue]
  | expired hdue => simp [hdue, giveUp, eq_comm]
  | unwritten hdue | refused hdue => simp [hdue]
  | taken hdue hf hplaces => cases hplaces <;> simp [hdue]

/-- A message in flight stays so as time passes, is completed, or is given up. -/
lemma Proceeds.busy {new : List Offer} {event : Option Event}
    (h : s.Proceeds cfg now s' new event) (hbusy : s.Busy) :
    s'.Busy ∨ (∃ len, s'.phase = .done len) ∨ ∃ cause, event = some (.failed cause) := by
  cases h with
  | rest => exact .inl hbusy
  | expired => exact .inr (.inr ⟨_, rfl⟩)
  | unwritten | refused => exact .inl rfl
  | taken hdue hf hplaces =>
    cases hplaces with
    | last => exact .inr (.inl ⟨_, rfl⟩)
    | next | blockEnd => exact .inl rfl

lemma Timed.due_nBs_iff (ht : Timed cfg past s) (hmore : s.HasMore) :
    s.due cfg now = .expired .nBs ↔ s.isWaiting = true ∧
      ∃ i, lastArmed past = some i ∧ cfg.clock.after i cfg.nBs ≤ now := by
  rw [due_eq_expired_iff hmore, isWaiting_iff]
  constructor
  · rintro (⟨-, t, d, hphase, hover⟩ | ⟨⟨⟩, -⟩)
    obtain ⟨i, hi, rfl⟩ := ht.waiting t d hphase
    exact ⟨⟨t, _, hphase⟩, i, hi, hover⟩
  · rintro ⟨⟨t, d, hphase⟩, i, hi, hover⟩
    obtain ⟨i', hi', rfl⟩ := ht.waiting t d hphase
    rw [hi] at hi'
    cases hi'
    exact .inl ⟨rfl, t, _, hphase, hover⟩

lemma Timed.due_nCs_iff (ht : Timed cfg past s) (hmore : s.HasMore) :
    s.due cfg now = .expired .nCs ↔ (∃ t, s.phase = .sending t) ∧
      ∃ r, firstRefusal past = some r ∧ cfg.clock.after r cfg.nCs ≤ now := by
  rw [due_eq_expired_iff hmore]
  constructor
  · rintro (⟨⟨⟩, -⟩ | ⟨-, t, r, hphase, hr, hover⟩)
    exact ⟨⟨t, hphase⟩, r, (ht.sending t hphase).symm.trans hr, hover⟩
  · rintro ⟨⟨t, hphase⟩, r, hr, hover⟩
    exact .inr ⟨rfl, t, r, hphase, (ht.sending t hphase).trans hr, hover⟩

end Time

/-- What passing time does to a message in flight after these calls. It is given up for want of flow
control exactly if the sender waits for that and `nBs` are over since it began to; it is given up
because of the link exactly if the sender is in the middle of a block and `nCs` are over since the
first refusal. A call that gives it up offers nothing, and apart from that a message ends only with
its last frame. -/
structure Record.Expires (cfg : Config) (past : List (Record σ ε)) (y : Record σ ε) : Prop where
  nBs : y.gaveUp? = some (.timeout .nBs) ↔
    y.before.isWaiting = true ∧ ∃ i, lastArmed past = some i ∧ cfg.clock.after i cfg.nBs ≤ y.now
  nCs : y.gaveUp? = some (.timeout .nCs) ↔
    (∃ t, y.before.phase = .sending t) ∧
      ∃ r, firstRefusal past = some r ∧ cfg.clock.after r cfg.nCs ≤ y.now
  cause : ∀ cause, y.gaveUp? = some cause →
    (cause = .timeout .nBs ∨ cause = .timeout .nCs) ∧ y.offers = [] ∧
      y.after = { y.before with phase := .failed cause }
  goesOn : y.before.Busy → y.gaveUp? = none → y.after.Busy ∨ ∃ len, y.after.phase = .done len

lemma Proceeds.expires {event : Option Event}
    (h : y.before.Proceeds cfg y.now y.after y.offers event) (hreply : y.reply = .event event)
    (ht : Timed cfg past y.before) (hmore : y.before.HasMore) : y.Expires cfg past := by
  have hgoes : ∀ cause, y.gaveUp? = some cause ↔ event = some (.failed cause) := by
    simp [Record.gaveUp?_eq_some, hreply]
  refine ⟨?_, ?_, fun cause hcause => ?_, fun hbusy hnone => ?_⟩
  · rw [hgoes, (h.gaveUp _).1, ← ht.due_nBs_iff hmore]
    simp
  · rw [hgoes, (h.gaveUp _).1, ← ht.due_nCs_iff hmore]
    simp
  · rw [hgoes] at hcause
    obtain ⟨timer, hdue, rfl⟩ := (h.gaveUp cause).1.1 hcause
    refine ⟨?_, (h.gaveUp _).2 hcause⟩
    obtain ⟨rfl, -⟩ | ⟨rfl, -⟩ := (due_eq_expired_iff hmore).1 hdue
    · exact .inl rfl
    · exact .inr rfl
  · obtain hstays | hdone | ⟨cause, hevent⟩ := h.busy hbusy
    · exact .inl hstays
    · exact .inr hdone
    · rw [(hgoes cause).2 hevent] at hnone
      cases hnone

/-! ### Runs -/

section Runs

variable [Link σ ε] (buffer : Buffer) (capacity : Nat) (cfg : Config) (line : σ)
  (calls : List (Instant × Op σ))

/-- Under one set of parameters, a run from a new sender leaves a sound one that keeps the
deadlines. -/
lemma Host.run_timed
    (hcfg : ∀ call ∈ calls, ∀ cfg', call.2 = .setConfig cfg' → cfg' = cfg) :
    let h : Host σ := ⟨.new buffer capacity, cfg, line⟩
    (h.run calls).sender.Sound ∧ (h.run calls).cfg = cfg ∧
      Timed cfg (h.trace calls) (h.run calls).sender := by
  intro h
  have hnew : Timed cfg ([] : List (Record σ ε)) h.sender := timed_of_not_busy (by rintro ⟨⟩)
  refine Host.stepwise.keeps
    (fun past h => h.sender.Sound ∧ h.cfg = cfg ∧ Timed cfg past h.sender)
    ⟨sound_new buffer capacity, rfl, hnew⟩ fun call hcall past h hinv => ?_
  obtain ⟨hs, hsame, ht⟩ := hinv
  refine ⟨Host.step_sound hs call.1 call.2, ?_, ?_⟩
  · cases hop : call.2 with
    | setConfig cfg' => exact hcfg call hcall cfg' hop
    | begin | flowControl | advance | cancel | setLine => exact hsame
  · have htimes := Host.step_times (ε := ε) hs (hsame ▸ ht.legal) call.1 call.2
    rw [hsame] at htimes
    rw [← Host.step_before call.1 call.2] at ht
    rw [← Host.step_after call.1 call.2]
    exact htimes.timed ht

/-- The timers of a sender, in every run under one set of parameters: whenever time passes, what it
does to the message in flight is told by the calls before. -/
theorem timeouts_of_run
    (hcfg : ∀ call ∈ calls, ∀ cfg', call.2 = .setConfig cfg' → cfg' = cfg) :
    ∀ u y w, Host.trace ⟨.new buffer capacity, cfg, line⟩ calls = u ++ y :: w → y.op = .advance →
      y.Expires cfg u := by
  intro u y w hsplit hop
  obtain ⟨earlier, ⟨now, op⟩, later, rfl, rfl, rfl, -⟩ := Host.stepwise.split hsplit
  obtain ⟨hs, hsame, ht⟩ := Host.run_timed (ε := ε) buffer capacity cfg line earlier
    fun call hcall => hcfg call (List.mem_append_left _ hcall)
  rw [Host.step_op] at hop
  obtain rfl : op = .advance := hop
  obtain ⟨event, hreply, hproceeds⟩ := Host.step_advance hs now
  rw [hsame] at hproceeds
  exact hproceeds.expires hreply ht hs.hasMore

end Runs

/-- The link refuses a frame at 10 microseconds and twice again, the last time one microsecond
before the hundred milliseconds are over that count from the first refusal. -/
theorem timeouts_of_run_refused_thrice :
    let cfg : Config := {}
    let earlier : List (Instant × Op Quota) :=
      [(0, .begin (.standard 1) (.replicate 20 7)), (5, .flowControl ⟨.clearToSend, 0, .zero⟩),
        (6, .setLine ⟨some 0⟩), (10, .advance), (50, .advance), (100009, .advance)]
    let h : Host Quota := ⟨.new (.zeroed 20) 20, cfg, ⟨none⟩⟩
    let y := ((h.run earlier).step 100010 .advance).2
    (∀ call ∈ earlier ++ [(100010, .advance)], ∀ cfg', call.2 = .setConfig cfg' → cfg' = cfg) ∧
      (h.trace earlier).map Record.stalls = [false, false, false, true, true, true] ∧
      y.gaveUp? = some (.timeout .nCs) ∧
      (∃ r, firstRefusal (h.trace earlier) = some r ∧ cfg.clock.after r cfg.nCs ≤ y.now) ∧
      y.offers = [] := by
  intro cfg earlier h y
  have hcfg : ∀ call ∈ earlier ++ [(100010, .advance)], ∀ cfg', call.2 = .setConfig cfg' →
      cfg' = cfg := by
    simp [earlier]
  have hsplit : h.trace (earlier ++ [(100010, .advance)]) = h.trace earlier ++ y :: [] :=
    Host.stepwise.trace_split h earlier (100010, .advance) []
  have hexpires : y.Expires cfg (h.trace earlier) :=
    timeouts_of_run (.zeroed 20) 20 cfg (⟨none⟩ : Quota) (earlier ++ [(100010, .advance)]) hcfg
      _ _ _ hsplit rfl
  have hgoes : y.gaveUp? = some (.timeout .nCs) := by decide +kernel
  exact ⟨hcfg, by decide +kernel, hgoes, (hexpires.nCs.1 hgoes).2, (hexpires.cause _ hgoes).2.1⟩

end IsoTp.Sender
