import IsoTp.Proofs.Exchange.Agreement

/-!
A transfer between two parties that cooperate always comes to its end.

Each consecutive frame goes out in the first round in which the separation time is over, which
fixes the round of every frame and with it that of the last one. The receiver's timer starts a
round after the sender's, and is no shorter than the separation time, so it never runs out.
-/

namespace IsoTp.Exchange

open Channel Segmentation

variable {σ ε : Type} [Link σ ε] {a b : Channel} {payload : Bytes} {i : Nat} {last : Option Instant}
  {x : State σ}

/-! ### Rounds -/

/-- The first party's sender is at work. -/
def Busy (x : State σ) : Prop := x.a.channel.sender.Busy

lemma Ahead.busy (hx : Ahead a b payload i last x)
    (hmore : i + 1 < (frames a.cfg payload).length) : Busy x := by
  obtain ⟨s, f, events, -, hstands, ha⟩ := hx.sender
  rw [Stands, if_neg (Nat.ne_of_lt hmore)] at hstands
  unfold Busy
  rw [ha.channel]
  have hs := hstands.2
  split at hs
  · obtain ⟨t, deadline, hphase, -⟩ := hs
    simp [Sender.Busy, Sender.transfer?, hphase]
  · obtain ⟨t, hphase, -⟩ := hs
    simp [Sender.Busy, Sender.transfer?, hphase]

/-- With the last frame the sender is through. -/
lemma Ahead.completed (hx : Ahead a b payload i last x)
    (hlast : i + 1 = (frames a.cfg payload).length) :
    x.a.channel.sender.progress = .completed := by
  obtain ⟨s, f, events, -, hstands, ha⟩ := hx.sender
  rw [Stands, if_pos hlast] at hstands
  rw [ha.channel]
  simp only [Sender.progress, hstands.1]

lemma Met.busy {come : Instant} (hx : Met a b payload i last come x) : Busy x := by
  obtain ⟨s, ⟨t, hphase, -⟩, ha⟩ := hx.sender
  unfold Busy
  rw [ha.channel]
  simp [Sender.Busy, Sender.transfer?, hphase]

/-- On the counter, and in rounds of this period, a gap takes this many rounds, and the receiver's
timer is longer than all but the last of them. -/
structure Paced (a b : Channel) (period rounds : Nat) : Prop where
  clock_a : a.cfg.clock = .counter
  clock_b : b.cfg.clock = .counter
  period_pos : 1 ≤ period
  pos : 1 ≤ rounds
  enough : (gap b).micros ≤ rounds * period
  needed : ∀ k, 1 ≤ k → k < rounds → k * period < (gap b).micros
  patient : ∀ k < rounds, k * period < b.cfg.nCr.micros

/-- How many rounds a gap takes: at least one, and as many periods as it takes to cover it. -/
def pace (stMin : Duration) (period : Nat) : Nat := max 1 ((stMin.micros + period - 1) / period)

lemma paced (hclockA : a.cfg.clock = .counter) (hclockB : b.cfg.clock = .counter) {period : Nat}
    (hperiod : 1 ≤ period) (hnCr : .ofMicros 1 ≤ b.cfg.nCr) (hgap : gap b ≤ b.cfg.nCr) :
    Paced a b period (pace (gap b) period) := by
  have hmicros : 1 ≤ b.cfg.nCr.micros := by
    have : 1000 ≤ b.cfg.nCr.nanos := hnCr
    unfold Duration.micros
    omega
  have hle : (gap b).micros ≤ b.cfg.nCr.micros := Nat.div_le_div_right hgap
  have hneeded (k : Nat) (hk : 1 ≤ k) (hlt : k < pace (gap b) period) :
      k * period < (gap b).micros := by
    have hceil : k + 1 ≤ ((gap b).micros + period - 1) / period := by
      unfold pace at hlt
      omega
    rw [Nat.le_div_iff_mul_le hperiod, Nat.add_mul] at hceil
    omega
  refine ⟨hclockA, hclockB, hperiod, Nat.le_max_left .., ?_, hneeded, fun k hk => ?_⟩
  · have hsplit := Nat.div_add_mod' ((gap b).micros + period - 1) period
    have hmod := Nat.mod_lt ((gap b).micros + period - 1) hperiod
    calc (gap b).micros
      _ ≤ ((gap b).micros + period - 1) / period * period := by omega
      _ ≤ pace (gap b) period * period := Nat.mul_le_mul_right _ (Nat.le_max_right ..)
  · by_cases hk1 : 1 ≤ k
    · exact Nat.lt_of_lt_of_le (hneeded k hk1 hk) hle
    · have hk0 : k = 0 := by omega
      rw [hk0, Nat.zero_mul]
      exact hmicros

lemma lt_after_iff (t u : Nat) (d : Duration) :
    t < Instant.after u d ↔ t < u + d.micros ∧ t < Instant.last := Nat.lt_min

variable {period w sent : Nat}

/-- A gap is over after its rounds, and not before. -/
lemma Paced.wait_iff (hp : Paced a b period w) (sent : Nat) {k : Nat} (hk : 1 ≤ k) (hle : k ≤ w)
    (hclock : sent + w * period < Instant.last) :
    sent + k * period < a.cfg.clock.after sent (gap b) ↔ k < w := by
  have henough := hp.enough
  have hmul : k * period ≤ w * period := Nat.mul_le_mul_right _ hle
  rw [hp.clock_a, Clock.counter_after, lt_after_iff]
  rcases Nat.lt_or_eq_of_le hle with hlt | rfl
  · have hneeded := hp.needed k hk hlt
    omega
  · omega

/-- The receiver's timer does not run out before the gap is over. -/
lemma Paced.in_time (hp : Paced a b period w) (sent : Nat) {k : Nat} (hk : 1 ≤ k) (hle : k ≤ w)
    (hclock : sent + w * period < Instant.last) :
    sent + k * period < b.cfg.clock.after (sent + period) b.cfg.nCr := by
  obtain ⟨j, rfl⟩ := Nat.exists_eq_add_of_le' hk
  have hpatient := hp.patient j (by omega)
  have hmul : (j + 1) * period ≤ w * period := Nat.mul_le_mul_right _ hle
  rw [Nat.add_mul, Nat.one_mul] at hmul ⊢
  rw [hp.clock_b, Clock.counter_after, lt_after_iff]
  omega

/-- What the bus carries in the rounds in which the frame of number `i` is on its way. -/
structure Carries (a b : Channel) (payload : Bytes) (i : Nat) (entries : List (Entry ε)) :
    Prop where
  there : sentBy .a entries = frameAt a payload i
  back : sentBy .b entries = answerTo b i

/-- One round after a frame has been sent. -/
lemma Ahead.round (hx : Ahead a b payload i last x) (h : Suited a b payload)
    (hmore : i + 1 < (frames a.cfg payload).length)
    (hnow : x.now < b.cfg.clock.after x.now b.cfg.nCr) (period : Nat) :
    Carries a b payload i (x.round [] period).2 ∧
      if last.any (x.now < a.cfg.clock.after · (gap b)) then
        Met a b payload i last x.now (x.round [] period).1
      else Ahead a b payload (i + 1) (some x.now) (x.round [] period).1 := by
  obtain ⟨hmet, hthere, hback⟩ := hx.handOver h hmore
  exact ⟨⟨hthere, hback⟩, hmet.tick h hmore hnow period⟩

/-- One round while the sender keeps the gap. -/
lemma Met.round {come : Instant} (hx : Met a b payload i last come x) (h : Suited a b payload)
    (hmore : i + 1 < (frames a.cfg payload).length)
    (hnow : x.now < b.cfg.clock.after come b.cfg.nCr) (period : Nat) :
    (x.round [] period).2 = [] ∧
      if last.any (x.now < a.cfg.clock.after · (gap b)) then
        Met a b payload i last come (x.round [] period).1
      else Ahead a b payload (i + 1) (some x.now) (x.round [] period).1 := by
  obtain ⟨hmet, hentries⟩ := hx.handOver
  exact ⟨hentries, hmet.tick h hmore hnow period⟩

/-- The rounds that are left of a gap of which `k` have passed. -/
lemma Met.rounds (h : Suited a b payload) (hp : Paced a b period w)
    (hmore : i + 1 < (frames a.cfg payload).length)
    (hclock : sent + w * period + period ≤ Instant.last) {k left : Nat} (hk : 1 ≤ k)
    (hsum : k + left = w) (hx : Met a b payload i (some sent) (sent + period) x)
    (hnow : x.now = sent + k * period) :
    Ahead a b payload (i + 1) (some (sent + w * period)) (x.rounds [] period (left + 1)).1 ∧
      (x.rounds [] period (left + 1)).1.now = sent + w * period + period ∧
      (x.rounds [] period (left + 1)).2 = [] ∧
      ∀ j ≤ left, Busy (x.rounds [] period j).1 := by
  have hperiod := hp.period_pos
  induction left generalizing k x with
  | zero =>
    obtain rfl : k = w := by omega
    have hwait := hp.wait_iff sent hk (Nat.le_refl k) (by omega)
    have hintime := hp.in_time sent hk (Nat.le_refl k) (by omega)
    rw [← hnow] at hwait hintime hclock
    obtain ⟨hentries, hnext⟩ := hx.round h hmore hintime period
    rw [if_neg (by simpa using hwait)] at hnext
    rw [Nat.zero_add, State.rounds_one, ← hnow]
    refine ⟨hnext, State.now_round hclock, hentries, fun j hj => ?_⟩
    obtain rfl : j = 0 := by omega
    exact hx.busy
  | succ left ih =>
    have hlt : k < w := by omega
    have hmul : (k + 1) * period ≤ w * period := Nat.mul_le_mul_right _ hlt
    have hsucc : (k + 1) * period = k * period + period := by rw [Nat.add_mul, Nat.one_mul]
    have hwait := hp.wait_iff sent hk (Nat.le_of_lt hlt) (by omega)
    have hintime := hp.in_time sent hk (Nat.le_of_lt hlt) (by omega)
    have hfits : sent + k * period + period ≤ Instant.last := by omega
    rw [← hnow] at hwait hintime hfits
    have hround := State.now_round hfits
    obtain ⟨hentries, hnext⟩ := hx.round h hmore hintime period
    rw [if_pos (by simpa using hwait.2 hlt)] at hnext
    obtain ⟨hahead, hend, hnone, hbusy⟩ :=
      ih (Nat.le_succ_of_le hk) (by omega) hnext (by rw [hround, hnow, hsucc, Nat.add_assoc])
    rw [State.rounds_succ]
    dsimp only
    refine ⟨hahead, hend, ?_, fun j hj => ?_⟩
    · simp only [hentries, hnone, List.append_nil]
    · cases j with
      | zero => exact hx.busy
      | succ j => exact hbusy j (by omega)

/-- The rounds from one consecutive frame to the next. -/
lemma Ahead.rounds (h : Suited a b payload) (hp : Paced a b period w)
    (hmore : i + 1 < (frames a.cfg payload).length)
    (hclock : sent + w * period + period ≤ Instant.last)
    (hx : Ahead a b payload i (some sent) x) (hnow : x.now = sent + period) :
    Ahead a b payload (i + 1) (some (sent + w * period)) (x.rounds [] period w).1 ∧
      (x.rounds [] period w).1.now = sent + w * period + period ∧
      Carries a b payload i (x.rounds [] period w).2 ∧
      ∀ j < w, Busy (x.rounds [] period j).1 := by
  have hwait := hp.wait_iff sent (Nat.le_refl 1) hp.pos (by have := hp.period_pos; omega)
  have hintime : x.now < b.cfg.clock.after x.now b.cfg.nCr := by
    have := hp.in_time sent (Nat.le_refl 1) hp.pos (by have := hp.period_pos; omega)
    rwa [Nat.one_mul, ← hnow] at this
  have hmul : 1 * period ≤ w * period := Nat.mul_le_mul_right _ hp.pos
  have hfits : sent + period + period ≤ Instant.last := by omega
  rw [Nat.one_mul, ← hnow] at hwait
  rw [← hnow] at hfits
  have hround := State.now_round hfits
  obtain ⟨hcarries, hnext⟩ := hx.round h hmore hintime period
  by_cases hone : w = 1
  · rw [if_neg (by simpa [hone] using hwait)] at hnext
    rw [hone, State.rounds_one, Nat.one_mul, ← hnow]
    refine ⟨hnext, hround, hcarries, fun j hj => ?_⟩
    obtain rfl : j = 0 := by omega
    exact hx.busy hmore
  · have hpos := hp.pos
    obtain ⟨left, hleft⟩ := Nat.exists_eq_add_of_le' (show 2 ≤ w by omega)
    rw [if_pos (by simpa using hwait.2 (by omega))] at hnext
    have hnow' : (x.round [] period).1.now = sent + 2 * period := by
      rw [hround, hnow, Nat.two_mul, Nat.add_assoc]
    rw [hnow] at hnext
    obtain ⟨hahead, hend, hnone, hbusy⟩ :=
      hnext.rounds h hp hmore hclock (by omega) (show 2 + left = w by omega) hnow'
    subst hleft
    rw [State.rounds_succ]
    dsimp only
    refine ⟨hahead, hend, ⟨?_, ?_⟩, fun j hj => ?_⟩
    · rw [hnone, List.append_nil, hcarries.there]
    · rw [hnone, List.append_nil, hcarries.back]
    · cases j with
      | zero => exact hx.busy hmore
      | succ j => exact hbusy j (by omega)

/-- What the bus has carried when the frames up to that of number `i` have come. -/
structure Carried (a b : Channel) (payload : Bytes) (i : Nat) (entries : List (Entry ε)) :
    Prop where
  there : sentBy .a entries =
    ((frames a.cfg payload).take (i + 1)).map (⟨a.cfg.txId, ·, false⟩)
  back : sentBy .b entries = .replicate (i / b.cfg.blockSize.toNat + 1) (answer b)

lemma Carries.carried {entries : List (Entry ε)} (h : Carries a b payload 0 entries) :
    Carried a b payload 0 entries := by
  refine ⟨?_, ?_⟩
  · rw [h.there, frameAt, List.take_add_one, List.take_zero, List.nil_append]
  · rw [h.back, answerTo, Nat.zero_mod, Nat.zero_div]
    rfl

lemma Carried.append {u v : List (Entry ε)} (hu : Carried a b payload i u)
    (hv : Carries a b payload (i + 1) v) : Carried a b payload (i + 1) (u ++ v) := by
  refine ⟨?_, ?_⟩
  · rw [sentBy_append, hu.there, hv.there, List.take_add_one (i := i + 1), List.map_append, frameAt]
  · rw [sentBy_append, hu.back, hv.back, answerTo]
    split
    · next hmod =>
      rw [Nat.succ_div_of_mod_eq_zero hmod, List.replicate_succ' (n := i / _ + 1)]
    · next hmod => rw [Nat.succ_div_of_mod_ne_zero hmod, List.append_nil]

/-- All rounds up to the one in which the consecutive frame of number `i + 1` is sent. -/
lemma Ahead.rounds_from_start (h : Suited a b payload)
    (hp : Paced a b period w) {start : Nat} (hx : Ahead a b payload 0 none x)
    (hnow : x.now = start) (hmore : i + 1 < (frames a.cfg payload).length)
    (hclock : start + (1 + i * w) * period ≤ Instant.last) :
    Ahead a b payload (i + 1) (some (start + i * w * period))
        (x.rounds [] period (1 + i * w)).1 ∧
      (x.rounds [] period (1 + i * w)).1.now = start + (1 + i * w) * period ∧
      Carried a b payload i (x.rounds [] period (1 + i * w)).2 ∧
      ∀ j < 1 + i * w, Busy (x.rounds [] period j).1 := by
  have hperiod := hp.period_pos
  induction i with
  | zero =>
    have hpatient := hp.patient 0 hp.pos
    simp only [Nat.zero_mul, Nat.add_zero, Nat.one_mul] at hclock ⊢
    have hintime : start < b.cfg.clock.after start b.cfg.nCr := by
      rw [hp.clock_b, Clock.counter_after, lt_after_iff]
      omega
    rw [← hnow] at hintime hclock ⊢
    obtain ⟨hcarries, hnext⟩ := hx.round h hmore hintime period
    rw [if_neg (by simp)] at hnext
    rw [State.rounds_one]
    refine ⟨hnext, State.now_round hclock, hcarries.carried, fun j hj => ?_⟩
    obtain rfl : j = 0 := by omega
    exact hx.busy hmore
  | succ i ih =>
    have hsplit : 1 + (i + 1) * w = 1 + i * w + w := by rw [Nat.add_mul, Nat.one_mul, Nat.add_assoc]
    have hone : (1 + i * w) * period = period + i * w * period := by rw [Nat.add_mul, Nat.one_mul]
    have hmul : (1 + (i + 1) * w) * period = period + i * w * period + w * period := by
      rw [hsplit, Nat.add_mul, hone]
    have hnext : start + (i + 1) * w * period = start + i * w * period + w * period := by
      rw [Nat.add_mul, Nat.one_mul, Nat.add_mul, Nat.add_assoc]
    obtain ⟨hahead, hnow', hcarried, hbusy⟩ := ih (by omega) (by omega)
    have hsent : (x.rounds [] period (1 + i * w)).1.now = start + i * w * period + period := by
      rw [hnow', hone, Nat.add_comm period, Nat.add_assoc]
    obtain ⟨hlast, hend, hcarries, hbusy'⟩ := hahead.rounds h hp hmore (by omega) hsent
    rw [hsplit, State.rounds_add]
    dsimp only
    refine ⟨?_, ?_, hcarried.append hcarries, fun j hj => ?_⟩
    · rw [hnext]
      exact hlast
    · calc _ = start + i * w * period + w * period + period := hend
        _ = start + (1 + i * w + w) * period := by rw [← hsplit, hmul]; omega
    · by_cases hlt : j < 1 + i * w
      · exact hbusy j hlt
      · obtain ⟨k, rfl⟩ := Nat.exists_eq_add_of_le (Nat.not_lt.1 hlt)
        rw [State.rounds_add]
        exact hbusy' k (by omega)

/-! ### Main statement -/

/-- How many consecutive frames a message has. -/
def consecutives (cfg : Config) (payload : Bytes) : Nat := (frames cfg payload).length - 1

/-- The rounds that a transfer takes: the first consecutive frame goes out in the first one, and
every other keeps the separation time that the receiver asks for. -/
def roundsFor (cfgA cfgB : Config) (payload : Bytes) (period : Nat) : Nat :=
  1 + (consecutives cfgA payload - 1) *
    pace (SeparationTime.ofWire (SeparationTime.toByte cfgB.stMin)) period

/-- The first party begins to send. -/
lemma ahead_of_send (h : Suited a b payload) {lineA lineB : σ} (hA : Link.Willing lineA)
    (hB : Link.Willing lineB) (start : Instant) :
    let begun := (⟨a, ⟨lineA, []⟩, 0, []⟩ : Party σ).send start payload
    begun.2 = .ok () ∧
      Ahead a b payload 0 none (⟨begun.1, ⟨b, ⟨lineB, []⟩, 0, []⟩, start⟩ : State σ) := by
  intro begun
  have hs := h.sendable
  have hf := List.getElem?_eq_getElem (length_frames_pos hs)
  obtain ⟨hvalue, hyields⟩ :=
    send_of_idle start (show Link.Willing (Tap.mk lineA []).line from hA) h.idle_a hs
      h.capacity_a.1 hf
  have ha := Party.Shows.after (p := ⟨a, ⟨lineA, []⟩, 0, []⟩) ⟨rfl, rfl, rfl, hA⟩ hyields
  refine ⟨hvalue, ⟨_, _, _, hf, ?_, ha⟩,
    b.receiver, .idle, h.refines_b, rfl, rfl, rfl, rfl, rfl, hB⟩
  unfold Stands
  by_cases hshort : payload.length ≤ a.cfg.singleRoom
  · rw [Sender.opened_of_short hshort, length_frames_of_short hs hshort, if_pos rfl]
    exact ⟨rfl, rfl⟩
  · obtain ⟨buffer, -, hopened, hcarries⟩ := Sender.opened_of_long (s := a.sender) hs
      (Nat.not_le.1 hshort) (Nat.le_trans h.capacity_a.1 h.capacity_a.2) start a.cfg.txId
    have hmore : 0 + 1 ≠ (frames a.cfg payload).length := Nat.ne_of_lt hcarries.lt_length
    rw [hopened, if_neg hmore, Nat.zero_mod, if_pos rfl]
    exact ⟨rfl, _, _, rfl, hcarries, rfl, rfl⟩

/-- How many times the receiver answers: once after the first frame, and once after every block but
the one that the message ends in. -/
def answersFor (cfgA cfgB : Config) (payload : Bytes) : Nat :=
  if consecutives cfgA payload = 0 then 0
  else if cfgB.blockSize = 0 then 1
  else 1 + (consecutives cfgA payload - 1) / cfgB.blockSize.toNat

/-- The sender is through after this many rounds and not before, and the receiver as soon as the
frames are handed over once more. By then the bus has carried the frames of the message and the
receiver's answers. -/
structure Completes (a b : Channel) (payload : Bytes) (period r : Nat) (x : State σ) : Prop where
  busy : ∀ k, 1 ≤ k → k < r → Busy (x.rounds [] period k).1
  completed : (x.rounds [] period r).1.a.channel.sender.progress = .completed
  through : Over a b payload (x.rounds [] period r).1.handOver.1
  there : sentBy .a ((x.rounds [] period r).2 ++ (x.rounds [] period r).1.handOver.2) =
    (frames a.cfg payload).map (⟨a.cfg.txId, ·, false⟩)
  back : sentBy .b ((x.rounds [] period r).2 ++ (x.rounds [] period r).1.handOver.2) =
    .replicate (answersFor a.cfg b.cfg payload) (answer b)

/-- A message in a single frame. -/
lemma Ahead.completes_of_short (hx : Ahead a b payload 0 none x) (h : Suited a b payload)
    (hone : (frames a.cfg payload).length = 1) (period : Nat) :
    Completes a b payload period (roundsFor a.cfg b.cfg payload period) x := by
  have hnone : consecutives a.cfg payload = 0 := by rw [consecutives, hone]
  have hrounds : roundsFor a.cfg b.cfg payload period = 1 := by
    rw [roundsFor, hnone, Nat.zero_sub, Nat.zero_mul]
  obtain ⟨hover, hthere, hback⟩ := hx.handOver_last h hone.symm
  have hover' : Over a b payload (x.round [] period).1 := hover.tick h period
  obtain ⟨hend, hentries⟩ := hover'.handOver
  rw [hrounds]
  refine ⟨fun k hk hlt => absurd hk (Nat.not_le.2 hlt), ?_, ?_, ?_, ?_⟩ <;>
    rw [State.rounds_one]
  · exact hover'.completed
  · exact hend
  · rw [hentries, List.append_nil]
    refine hthere.trans ?_
    have htake := List.take_add_one (l := frames a.cfg payload) (i := 0)
    rw [List.take_zero, List.nil_append, List.take_of_length_le (Nat.le_of_eq hone)] at htake
    rw [frameAt, ← htake]
  · rw [hentries, List.append_nil, answersFor, if_pos hnone]
    exact hback

/-- A message in several frames. -/
lemma Ahead.completes_of_long (hx : Ahead a b payload 0 none x) (h : Suited a b payload)
    {period start : Nat} (hp : Paced a b period (pace (gap b) period)) (hnow : x.now = start)
    (hmore : 1 < (frames a.cfg payload).length)
    (hclock : start + roundsFor a.cfg b.cfg payload period * period ≤ Instant.last) :
    Completes a b payload period (roundsFor a.cfg b.cfg payload period) x := by
  obtain ⟨i, hi⟩ := Nat.exists_eq_add_of_le' hmore
  have hcount : consecutives a.cfg payload = i + 1 := by rw [consecutives, hi]; rfl
  have hrounds : roundsFor a.cfg b.cfg payload period = 1 + i * pace (gap b) period := by
    rw [roundsFor, hcount]
    rfl
  rw [hrounds] at hclock ⊢
  obtain ⟨hahead, -, hcarried, hbusy⟩ :=
    hx.rounds_from_start h hp hnow (by omega) hclock
  obtain ⟨hover, hthere, hback⟩ := hahead.handOver_last h hi.symm
  refine ⟨fun k _ hlt => hbusy k hlt, hahead.completed hi.symm, hover, ?_, ?_⟩
  · rw [sentBy_append, hthere, hcarried.there, frameAt, ← List.map_append, ← List.take_add_one,
      List.take_of_length_le (Nat.le_of_eq hi)]
  · rw [sentBy_append, hback, hcarried.back, List.append_nil, answersFor, hcount]
    rw [if_neg (Nat.succ_ne_zero i), Nat.add_sub_cancel, Nat.add_comm 1]
    split
    · next h0 => simp [h0]
    · rfl

/-- **A transfer between two parties that cooperate comes to its end.** On links that take every
frame, over a counter that does not come to its end: the sender is through after the stated number
of rounds and not before, and with the frames handed over once more, so is the receiver. It holds
the message and has reported it once. The bus has carried the frames of the message and, at the end
of every block that the message goes beyond, the receiver's answer. -/
theorem transfer_completes (h : Suited a b payload) {lineA lineB : σ} (hA : Link.Willing lineA)
    (hB : Link.Willing lineB) (hclockA : a.cfg.clock = .counter) (hclockB : b.cfg.clock = .counter)
    (hnCr : .ofMicros 1 ≤ b.cfg.nCr) (hgap : gap b ≤ b.cfg.nCr)
    {period : Nat} (hperiod : 1 ≤ period) (start : Instant)
    (hclock : start + roundsFor a.cfg b.cfg payload period * period ≤ Instant.last) :
    let begun := (⟨a, ⟨lineA, []⟩, 0, []⟩ : Party σ).send start payload
    let x (k : Nat) :=
      State.rounds [] period k (⟨begun.1, ⟨b, ⟨lineB, []⟩, 0, []⟩, start⟩ : State σ)
    let r := roundsFor a.cfg b.cfg payload period
    let y := (x r).1.handOver
    let entries := (x r).2 ++ y.2
    begun.2 = .ok () ∧
    (∀ k, 1 ≤ k → k < r → Busy (x k).1) ∧
    (x r).1.a.channel.sender.progress = .completed ∧
    y.1.b.channel.receiver.status = .done ∧
    (∀ room, payload.length ≤ room → (y.1.b.channel.collect room).2 = .ok payload) ∧
    y.1.a.events = [.sent payload.length] ∧ y.1.b.events = [.received payload] ∧
    y.1.a.line.taken = [] ∧ y.1.b.line.taken = [] ∧
    sentBy .a entries = (frames a.cfg payload).map (⟨a.cfg.txId, ·, false⟩) ∧
    (sentBy .a entries).countP (Frame.kind? · = some 2) = consecutives a.cfg payload ∧
    b.cfg.encode? b.cfg.policy.clearToSend.toPdu = some (answer b).data ∧
    sentBy .b entries = .replicate (answersFor a.cfg b.cfg payload) (answer b) := by
  intro begun x r y entries
  obtain ⟨hbegun, hahead⟩ := ahead_of_send h hA hB start
  have hend : Completes a b payload period r
      (⟨begun.1, ⟨b, ⟨lineB, []⟩, 0, []⟩, start⟩ : State σ) := by
    by_cases hone : (frames a.cfg payload).length = 1
    · exact hahead.completes_of_short h hone period
    · have hpos := length_frames_pos h.sendable
      have hpaced := paced hclockA hclockB hperiod hnCr hgap
      exact hahead.completes_of_long h hpaced rfl (by omega) hclock
  have hover : Over a b payload y.1 := hend.through
  obtain ⟨hdone, hcollect⟩ := hover.collect
  obtain ⟨s, -, ha⟩ := hover.sender
  obtain ⟨r', -, hb⟩ := hover.receiver
  refine ⟨hbegun, hend.busy, hend.completed, hdone, hcollect, ha.events, hb.events, ha.waiting,
    hb.waiting, hend.there, ?_, h.encode?_answer, hend.back⟩
  have hcount := countP_kind_frames h.sendable a.cfg.txId
  rw [← hend.there] at hcount
  exact hcount

/-- Twenty bytes in three frames, in blocks of one frame and with two rounds to the gap. -/
theorem transfer_completes_twenty_bytes :
    let cfgA : Config := { rxId := .standard 1 }
    let cfgB : Config := { txId := .standard 1, blockSize := 1, stMin := .ofMillis 1,
                           frameLength := 12, padding := none }
    let a : Channel := ⟨cfgA, cfgA.policy, .new (.zeroed 4095) 4095, .new (.zeroed 4095) 4095⟩
    let b : Channel := ⟨cfgB, cfgB.policy, .new (.zeroed 4095) 4095, .new (.zeroed 4095) 4095⟩
    let payload : Bytes := .replicate 20 7
    let begun := (⟨a, ⟨⟨none⟩, []⟩, 0, []⟩ : Party Quota).send 0 payload
    let x := State.rounds [] 500 3 (⟨begun.1, ⟨b, ⟨⟨none⟩, []⟩, 0, []⟩, 0⟩ : State Quota)
    Suited a b payload ∧ .ofMicros 1 ≤ b.cfg.nCr ∧ gap b ≤ b.cfg.nCr ∧
      roundsFor cfgA cfgB payload 500 = 3 ∧ x.1.handOver.1.b.events = [.received payload] ∧
      sentBy .b (x.2 ++ x.1.handOver.2) =
        [⟨.standard 1, [0x30, 1, 1], false⟩, ⟨.standard 1, [0x30, 1, 1], false⟩] := by
  intro cfgA cfgB a b payload begun x
  have ha : Fresh cfgA a := .ofBuffers (.zeroed 4095) (.zeroed 4095) rfl
  have hb : Fresh cfgB b := .ofBuffers (.zeroed 4095) (.zeroed 4095) rfl
  have hs : Suited a b payload :=
    ⟨ha, hb, rfl, rfl, by decide +kernel, by decide +kernel, by decide +kernel⟩
  have hnCr : .ofMicros 1 ≤ b.cfg.nCr := by decide +kernel
  have hgap : gap b ≤ b.cfg.nCr := by decide +kernel
  have hrounds : roundsFor a.cfg b.cfg payload 500 = 3 := by decide +kernel
  have hclock : 0 + roundsFor a.cfg b.cfg payload 500 * 500 ≤ Instant.last := by
    rw [hrounds]
    decide
  have h := transfer_completes hs Link.willing_without_limit Link.willing_without_limit rfl rfl hnCr
    hgap (by decide) 0 hclock
  rw [hrounds] at h
  obtain ⟨-, -, -, -, -, -, hevents, -, -, -, -, -, hback⟩ := h
  refine ⟨hs, hnCr, hgap, hrounds, by simpa only [x, begun] using hevents, hback.trans ?_⟩
  decide +kernel

end IsoTp.Exchange
