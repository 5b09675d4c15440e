import IsoTp.Proofs.Channel.Deferral
import IsoTp.Proofs.Deadlines

/-!
Which calls of a channel arm its timers, and what time does about them.

A call stops the timer that a half of the channel runs, arms one, or leaves it running as it was.
What it arms is seen in its record: the frames that it offered with the link's answers, and what the
frame that came in reads as. As time passes, the flow control owed is offered first, which may arm a
timer of the receiver; then exactly the running timers whose deadline has come are reported.
-/

namespace IsoTp

lemma Direction.exists_iff {P : Direction → Prop} : (∃ d, P d) ↔ P .send ∨ P .receive := by
  constructor
  · rintro ⟨_ | _, hd⟩
    · exact .inl hd
    · exact .inr hd
  · rintro (hd | hd)
    · exact ⟨_, hd⟩
    · exact ⟨_, hd⟩

/-- Flow control that asks the sender to wait. -/
def Pdu.isWait : Pdu → Bool
  | flowControl .wait _ _ => true
  | _ => false

namespace Channel

/-! ### What counts in a call -/

/-- The timer that one half of a channel runs, and when it runs out. -/
def timer? (c : Channel) : Direction → Option (Timer × Instant)
  | .send => c.sender.timer? c.cfg
  | .receive => c.receiver.timer?

/-- The timers that events report to have run out. -/
def timeouts (events : List Event) : List Timer :=
  events.filterMap fun
    | .failed _ (.timeout k) => some k
    | _ => none

lemma timeouts_append (u v : List Event) : timeouts (u ++ v) = timeouts u ++ timeouts v :=
  List.filterMap_append ..

namespace Record

variable {σ ε : Type} (cfg : Config) (y : Record σ ε)

/-- The timers that a call reports to have run out. -/
def timeouts : List Timer := Channel.timeouts y.events

/-- The frames of messages that a call offers. -/
def offered : List Offer := y.offers.filter (·.frame.carriesPart)

/-- What a frame that is for this channel reads as. -/
def unit? : Option Pdu :=
  match y.op with
  | .frame f => if f.remote ∨ f.id ≠ y.before.cfg.rxId then none else some (Pdu.decode f.data)
  | _ => none

/-- The sender waits for flow control anew: a first frame or the last frame of a block goes out, or
the peer asks for more time. -/
def awaits : Bool :=
  (y.offered.any Offer.taken && y.after.sender.isWaiting) ||
    (y.before.sender.isWaiting && y.unit?.any Pdu.isWait)

/-- The link refuses a consecutive frame that it has not refused yet. -/
def stalls : Bool := y.offered.any (!·.taken) && y.before.sender.progress = .sending

/-- A first or consecutive frame is accepted, and more are to come. -/
def follows : Bool := y.unit?.any Pdu.isSegment && y.after.receiver.status = .receiving

/-- Flow control that was owed goes out. -/
def catchesUp : Bool :=
  match y.op with
  | .advance => y.answers.any Offer.taken
  | _ => false

/-- Flow control for a frame is put off. -/
def defers : Bool := y.unit?.isSome && y.answers.any (!·.taken) && y.after.receiver.owed.isSome

/-- A consecutive frame is accepted while flow control stays owed. -/
def prolongs : Bool := y.unit?.any Pdu.isConsecutive && y.after.receiver.owed.isSome

/-- How long a timer runs that a call arms. While flow control is owed, a consecutive frame arms the
timer for it, but for as long as the one for the next frame runs. -/
def arms? : Timer → Option Duration
  | .nAr => if y.defers then some cfg.nAr else if y.prolongs then some cfg.nCr else none
  | .nBs => if y.awaits then some cfg.nBs else none
  | .nCs => if y.stalls then some cfg.nCs else none
  | .nCr => if y.follows || y.catchesUp then some cfg.nCr else none

/-- A timer runs when time passes: the sender waits for flow control, or its frame has been refused;
the receiver waits for a frame and owes nothing any more, or flow control that it owes is refused
again. -/
def runs : Timer → Bool
  | .nAr => y.answers.any (!·.taken)
  | .nBs => y.before.sender.isWaiting
  | .nCs => y.before.sender.progress = .stalled
  | .nCr => y.before.receiver.status = .receiving && y.answers.all Offer.taken

/-- What a call does to the timer that one half of a channel runs: it stops it, arms one, or leaves
it running as it was and does not arm it. -/
inductive Winds (x : Option (Timer × Instant)) : Option (Timer × Instant) → Prop
  | stopped : Winds x none
  | armed {k : Timer} {length : Duration} (h : y.arms? cfg k = some length) :
      Winds x (some (k, cfg.clock.after y.now length))
  | kept (h : ∀ k i, x = some (k, i) → y.arms? cfg k = none) : Winds x x

variable {cfg y}

lemma unit?_of_frame {f : Frame} (hop : y.op = .frame f) : y.unit? =
    if f.remote ∨ f.id ≠ y.before.cfg.rxId then none else some (Pdu.decode f.data) := by
  rw [unit?, hop]

lemma catchesUp_eq (hop : y.op ≠ .advance) : y.catchesUp = false := by
  unfold catchesUp
  split
  · next h => exact absurd h hop
  · rfl

lemma length_of_arms? {k : Timer} {length : Duration} (h : y.arms? cfg k = some length) :
    length = cfg.timer k ∨ k = .nAr ∧ length = cfg.nCr := by
  cases k with
  | nAr =>
    simp only [arms?] at h
    split at h
    · cases h
      exact .inl rfl
    · obtain ⟨-, h⟩ := Option.ite_none_right_eq_some.1 h
      cases h
      exact .inr ⟨rfl, rfl⟩
  | nBs | nCs | nCr =>
    obtain ⟨-, h⟩ := Option.ite_none_right_eq_some.1 h
    cases h
    exact .inl rfl

end Record

/-! ### The sender's timers -/

section Outcomes

variable {σ ε : Type} {y : Record σ ε}

/-- A call that does not make a waiting sender wait anew arms no timer that the sender runs. -/
lemma arms?_of_running {cfg : Config} (h : y.before.sender.isWaiting = true → y.awaits = false)
    (k : Timer) (i : Instant) (hrun : y.before.sender.timer? cfg = some (k, i)) :
    y.arms? cfg k = none := by
  obtain ⟨rfl, hwaits⟩ | ⟨rfl, hstalled⟩ := Sender.exists_timer?_iff.1 ⟨i, hrun⟩
  · simp [Record.arms?, h hwaits]
  · simp [Record.arms?, Record.stalls, hstalled]

lemma awaits_eq_false (htaken : y.offered.any Offer.taken = false)
    (hasks : y.unit?.any Pdu.isWait = false) : y.awaits = false := by
  simp [Record.awaits, htaken, hasks]

/-- A call that leaves the sender as it was. -/
lemma winds_of_sender_eq (htaken : y.offered.any Offer.taken = false)
    (hasks : y.before.sender.isWaiting = true → y.unit?.any Pdu.isWait = false)
    (hcfg : y.after.cfg = y.before.cfg) (hsender : y.after.sender = y.before.sender) :
    y.Winds y.before.cfg (y.before.timer? .send) (y.after.timer? .send) := by
  rw [timer?, timer?, hcfg, hsender]
  exact .kept (arms?_of_running fun hwaits => awaits_eq_false htaken (hasks hwaits))

/-- A call that leaves the sender without a message in flight. -/
lemma winds_of_sender_idle (h : ¬y.after.sender.Busy) :
    y.Winds y.before.cfg (y.before.timer? .send) (y.after.timer? .send) := by
  rw [show y.after.timer? .send = none from Sender.timer?_of_not_busy h]
  exact .stopped

/-- A call that leaves the sender waiting for flow control anew. -/
lemma winds_of_awaits {t : Transfer} (h : y.awaits = true)
    (hafter : y.after.sender.phase = .waiting t (y.before.cfg.clock.after y.now y.before.cfg.nBs)) :
    y.Winds y.before.cfg (y.before.timer? .send) (y.after.timer? .send) := by
  rw [show y.after.timer? .send = _ from Sender.timer?_of_waiting hafter]
  exact .armed (by rw [Record.arms?, if_pos h])

lemma Sends.winds {id : CanId} {payload : Bytes} {value : Except (Error ε) Unit}
    {z : Option Cargo} (h : Sends y.now id payload y.before y.after y.offers y.events value)
    (hready : y.before.sender.Ready y.before.cfg z) (hunit : y.unit? = none) :
    y.Winds y.before.cfg (y.before.timer? .send) (y.after.timer? .send) := by
  have hfits := hready.fits
  generalize hoffers : y.offers = new at h
  generalize hafter : y.after = x at h
  generalize y.events = events at h
  rw [← hafter]
  cases h with
  | error hbegins =>
    have htaken : y.offered.any Offer.taken = false := by
      rw [Record.offered, hoffers, List.any_eq_false]
      intro o ho
      simp [hbegins.not_taken o (List.mem_filter.1 ho).1]
    exact winds_of_sender_eq htaken (by simp [hunit]) (by rw [hafter]) (by rw [hafter])
  | ok hbegins =>
    cases hbegins with
    | @taken f hidle hs hcap hf =>
      by_cases hshort : payload.length ≤ y.before.cfg.singleRoom
      · refine winds_of_sender_idle ?_
        rw [hafter, Sender.opened_of_short hshort]
        rintro ⟨⟩
      · obtain ⟨buffer, -, hopened, -⟩ := Sender.opened_of_long (s := y.before.sender) hs
          (Nat.not_le.1 hshort) (by omega) y.now id
        have hpart := (Segmentation.kind_frame hs hf id false).1
        rw [hopened] at hafter
        refine winds_of_awaits ?_ (by rw [hafter])
        simp [Record.awaits, Record.offered, hoffers, hpart, hafter, Sender.isWaiting]

/-- Flow control that comes in stops the sender's timer or arms it, if the sender waits for it. -/
lemma winds_of_heeds {status : FlowStatus} {blockSize stMin : UInt8} {s : Sender}
    {event : Option Sender.Event} (h : y.before.sender.Heeds y.before.cfg y.now
      (.ofWire status blockSize stMin) s event)
    (hunit : y.unit? = some (.flowControl status blockSize stMin))
    (htaken : y.offered.any Offer.taken = false) (hs : y.before.sender.Sound)
    (hcfg : y.after.cfg = y.before.cfg) (hsender : y.after.sender = s) :
    y.Winds y.before.cfg (y.before.timer? .send) (y.after.timer? .send) := by
  have hphases := hs.phase
  cases h with
  | ignored hwaits => exact winds_of_sender_eq htaken (by simp [hwaits]) hcfg hsender
  | cleared hphase =>
    rw [hphase] at hphases
    have htimer : y.after.timer? .send = none := by
      rw [timer?, hsender, Sender.timer?_of_sending rfl, hphases.2, Option.map_none]
    rw [htimer]
    exact .stopped
  | putOff hphase hfc =>
    have hwaits := Sender.isWaiting_iff.2 ⟨_, _, hphase⟩
    have hwait : status = .wait := hfc
    refine winds_of_awaits ?_ (by rw [hsender])
    simp [Record.awaits, hwaits, hunit, hwait, Pdu.isWait]
  | tired | refused =>
    refine winds_of_sender_idle ?_
    rw [hsender]
    rintro ⟨⟩

lemma Accepts.winds_send {f : Frame}
    (h : Accepts y.now f y.before y.after y.offers y.events) (hop : y.op = .frame f)
    (hcfg : y.before.cfg.Valid) (hs : y.before.sender.Sound) :
    y.Winds y.before.cfg (y.before.timer? .send) (y.after.timer? .send) := by
  have hunit := Record.unit?_of_frame hop
  have hoffered : y.offered = [] := filter_answers hcfg h.isAnswer
  have htaken : y.offered.any Offer.taken = false := by rw [hoffered]; rfl
  generalize hafter : y.after = x at h
  generalize y.offers = new at h
  generalize y.events = events at h
  rw [← hafter]
  cases h with
  | foreign hf =>
    rw [if_pos hf] at hunit
    exact winds_of_sender_eq htaken (by simp [hunit]) (by rw [hafter]) (by rw [hafter])
  | flowControl hf hread =>
    rw [if_neg hf, hread] at hunit
    exact winds_of_heeds (Sender.heeds ..) hunit htaken hs (by rw [hafter]) (by rw [hafter])
  | unit hf hread =>
    rw [if_neg hf] at hunit
    refine winds_of_sender_eq htaken (fun _ => ?_) (by rw [hafter]) (by rw [hafter])
    rw [hunit, Option.any_some]
    unfold Pdu.isWait
    split
    · next hflow => exact absurd hflow (hread _ _ _)
    · rfl

/-- What a sender offers as time passes, next to what the receiver does. -/
lemma offered_of_advances {answers parts : List Offer} (hcfg : y.before.cfg.Valid)
    (hoffers : y.offers = answers ++ parts)
    (hanswers : ∀ o ∈ answers, IsAnswer y.before.cfg o.frame)
    (hparts : ∀ o ∈ parts, Segmentation.IsPart y.before.cfg o.frame.data) : y.offered = parts := by
  rw [Record.offered, hoffers, List.filter_append, filter_answers hcfg hanswers, List.nil_append]
  exact List.filter_eq_self.2 fun o ho => (hparts o ho).carriesPart o.frame.id o.frame.remote

lemma winds_of_advances {s : Sender} {parts : List Offer} {event : Option Sender.Event}
    (h : y.before.sender.Advances y.before.cfg y.now s parts event) (hoffered : y.offered = parts)
    (hunit : y.unit? = none) (hcfg : y.after.cfg = y.before.cfg) (hsender : y.after.sender = s) :
    y.Winds y.before.cfg (y.before.timer? .send) (y.after.timer? .send) := by
  cases h with
  | rest => exact winds_of_sender_eq (by simp [hoffered]) (by simp [hunit]) hcfg hsender
  | expired =>
    refine winds_of_sender_idle ?_
    rw [hsender]
    rintro ⟨⟩
  | @refused t o f hphase =>
    have htimer : y.before.timer? .send =
        t.refusedSince.map fun i => (.nCs, y.before.cfg.clock.after i y.before.cfg.nCs) :=
      Sender.timer?_of_sending hphase
    have htimer' : y.after.timer? .send =
        some (.nCs, y.before.cfg.clock.after (t.refusedSince.getD y.now) y.before.cfg.nCs) := by
      rw [timer?, hcfg, hsender, Sender.timer?_of_sending rfl, Option.map_some]
    rw [htimer, htimer']
    -- the timer counts from the first refusal, so that another one does not arm it
    cases hr : t.refusedSince with
    | none =>
      have hprogress : y.before.sender.progress = .sending := by
        simp [Sender.progress, hphase, hr]
      exact .armed (by simp [Record.arms?, Record.stalls, hoffered, hprogress])
    | some i =>
      refine .kept ?_
      rintro _ _ ⟨⟩
      have hprogress : y.before.sender.progress = .stalled := by
        simp [Sender.progress, hphase, hr]
      simp [Record.arms?, Record.stalls, hprogress]
  | @taken t o f hphase =>
    have hplaces := Sender.places y.before.cfg y.now t (o.chunk y.before.cfg).length y.before.sender
    rw [← hsender] at hplaces
    generalize hafter : y.after.sender = s at hplaces
    generalize (Sender.placed ..).2 = event at hplaces
    cases hplaces with
    | last =>
      refine winds_of_sender_idle ?_
      rw [hafter]
      rintro ⟨⟩
    | next =>
      have htimer : y.after.timer? .send = none := by
        rw [timer?, hafter, Sender.timer?_of_sending rfl]
        rfl
      rw [htimer]
      exact .stopped
    | blockEnd =>
      refine winds_of_awaits ?_ (by rw [hafter])
      simp [Record.awaits, hoffered, hafter, Sender.isWaiting]

/-- Time gives up the message being sent if the sender's timer has run out. -/
lemma mem_timeouts_of_advances {c : Channel} {now : Instant} {s : Sender} {parts : List Offer}
    {event : Option Sender.Event} (h : c.sender.Advances c.cfg now s parts event)
    (hmore : c.sender.HasMore) (k : Timer) :
    k ∈ timeouts (event.toList.map sendEvent) ↔ ∃ i, c.timer? .send = some (k, i) ∧ i ≤ now := by
  rw [timer?, ← Sender.due_eq_expired_iff_timer? hmore]
  cases h with
  | rest hdue => simp [timeouts, hdue]
  | expired hdue => simp [timeouts, hdue, Sender.giveUp, sendEvent, eq_comm]
  | refused hphase hc hf hdue => simp [timeouts, hdue]
  | @taken t o f hphase hc hf hdue =>
    rw [hdue]
    have hplaces := Sender.places c.cfg now t (o.chunk c.cfg).length c.sender
    generalize (Sender.placed ..).1 = s at hplaces
    generalize (Sender.placed ..).2 = event at hplaces
    cases hplaces <;> simp [timeouts, sendEvent]

/-! ### The receiver's timers -/

/-- A call that leaves the receiver as it was, and is neither a frame for it nor the passing of
time. -/
lemma winds_of_receiver_eq (hunit : y.unit?.any Pdu.isSegment = false)
    (hdefers : y.defers = false) (hcatchesUp : y.catchesUp = false)
    (hreceiver : y.after.receiver = y.before.receiver) :
    y.Winds y.before.cfg (y.before.timer? .receive) (y.after.timer? .receive) := by
  have hconsecutive : y.unit?.any Pdu.isConsecutive = false := by
    cases hu : y.unit? with
    | none => rfl
    | some pdu =>
      rw [hu, Option.any_some, Pdu.isSegment, Bool.or_eq_false_iff] at hunit
      exact hunit.2
  rw [timer?, timer?, hreceiver]
  refine .kept fun k i hrun => ?_
  obtain ⟨rfl, -⟩ | ⟨rfl, -⟩ := Receiver.exists_timer?_iff.1 ⟨i, hrun⟩
  · simp [Record.arms?, hdefers, Record.prolongs, hconsecutive]
  · simp [Record.arms?, Record.follows, hunit, hcatchesUp]

/-- A call that leaves the receiver without a message under way. -/
lemma winds_of_receiver_ne (h : y.after.receiver.status ≠ .receiving) :
    y.Winds y.before.cfg (y.before.timer? .receive) (y.after.timer? .receive) := by
  rw [show y.after.timer? .receive = none from Receiver.timer?_of_ne h]
  exact .stopped

/-- A unit for which no flow control is put off. -/
lemma winds_of_unit {pdu : Pdu} (hunit : y.unit? = some pdu) (hop : y.op ≠ .advance)
    (hdefers : y.defers = false) (hafter : y.after.receiver =
      (y.before.receiver.accept y.before.cfg y.before.policy y.now pdu).1) :
    y.Winds y.before.cfg (y.before.timer? .receive) (y.after.timer? .receive) := by
  by_cases hstatus : y.after.receiver.status = .receiving
  · obtain ⟨m, hphase⟩ := Receiver.status_eq_receiving.1 hstatus
    have hdeadline := Receiver.deadline_accept (hafter ▸ hphase)
    rw [← hafter] at hdeadline
    rcases hdeadline with ⟨hsegment, hdeadline, howed⟩ | ⟨hsegment, hsame⟩
    · rw [show y.after.timer? .receive = _ from Receiver.timer?_of_receiving hphase, hdeadline]
      refine .armed ?_
      split
      · next hsome =>
        have hafter' : y.after.receiver.owed.isSome := by simpa only [Receiver.owed, hphase]
        simp [Record.arms?, hdefers, Record.prolongs, hunit, howed hsome, hafter']
      · simp [Record.arms?, Record.follows, hunit, hsegment, hstatus]
    · exact winds_of_receiver_eq (by simp [hunit, hsegment]) hdefers (Record.catchesUp_eq hop) hsame
  · exact winds_of_receiver_ne hstatus

/-- What comes of a unit: the receiver's timer is as the unit left it, but for flow control put
off. -/
lemma Resolves.winds {pdu : Pdu} {r : Receiver} {events : List Event}
    (h : let x := y.before.receiver.accept y.before.cfg y.before.policy y.now pdu
      Resolves y.now { y.before with receiver := x.1 } x.2 r y.offers events)
    (hcfg : y.before.cfg.Valid) (hop : y.op ≠ .advance) (hunit : y.unit? = some pdu)
    (hafter : y.after.receiver = r) :
    y.Winds y.before.cfg (y.before.timer? .receive) (y.after.timer? .receive) := by
  generalize hoffers : y.offers = new at h
  have hanswers : y.answers = new.filter (!·.frame.carriesPart) := by rw [Record.answers, hoffers]
  have hcases (fc : FlowControl) := @Receiver.answer_cases y.before.receiver y.before.cfg
    y.before.policy y.now fc pdu
  generalize hz : y.before.receiver.accept y.before.cfg y.before.policy y.now pdu = z at h hcases
  obtain ⟨q, outcome⟩ := z
  cases h with
  | none | complete | failed =>
    refine winds_of_unit hunit hop ?_ (by rw [hafter, hz])
    simp [Record.defers, hanswers]
  | answered fc =>
    refine winds_of_unit hunit hop ?_ (by rw [hafter, hz])
    simp [Record.defers, hanswers, answers_of_frame hcfg]
  | refusal fc taken =>
    -- with the refusal of a message, the one under way has ended as well
    refine winds_of_receiver_ne ?_
    rw [hafter]
    exact ((hcases fc rfl).resolve_left (by simp)).2
  | postponed fc =>
    by_cases hstatus : q.status = .receiving
    · have howes :=
        Receiver.owes_postpone hstatus fc (y.before.cfg.clock.after y.now y.before.cfg.nAr)
      rw [show q.postpone .. = y.after.receiver from hafter.symm] at howes
      have howed := howes.owed_eq
      obtain ⟨m, hphase, hm, hdeadline⟩ := howes
      rw [show y.after.timer? .receive = _ from Receiver.timer?_of_receiving hphase, hm, hdeadline]
      exact .armed (by simp [Record.arms?, Record.defers, hunit, hanswers, answers_of_frame hcfg,
        howed])
    · refine winds_of_receiver_ne ?_
      rw [hafter, Receiver.postpone_of_ne hstatus]
      exact hstatus

lemma Accepts.winds_receive {f : Frame}
    (h : Accepts y.now f y.before y.after y.offers y.events) (hop : y.op = .frame f)
    (hcfg : y.before.cfg.Valid) :
    y.Winds y.before.cfg (y.before.timer? .receive) (y.after.timer? .receive) := by
  have hunit := Record.unit?_of_frame hop
  have htime : y.op ≠ .advance := by simp [hop]
  generalize hoffers : y.offers = new at h
  generalize hafter : y.after = x at h
  generalize y.events = events at h
  rw [← hafter]
  cases h with
  | foreign hf =>
    rw [if_pos hf] at hunit
    exact winds_of_receiver_eq (by simp [hunit]) (by simp [Record.defers, hunit])
      (Record.catchesUp_eq htime) (by rw [hafter])
  | flowControl hf hread =>
    rw [if_neg hf, hread] at hunit
    exact winds_of_receiver_eq (by simp [hunit, Pdu.isSegment, Pdu.isFirst, Pdu.isConsecutive])
      (by simp [Record.defers, Record.answers, hoffers]) (Record.catchesUp_eq htime)
      (by rw [hafter])
  | unit hf hread hresolves =>
    rw [if_neg hf] at hunit
    rw [← hoffers] at hresolves
    exact hresolves.winds hcfg htime hunit (by rw [hafter])

/-- What becomes of the flow control owed tells which timer the receiver runs from then on, and
whether that has been armed by it. -/
lemma Retries.winds {r : Receiver} {answers : List Offer}
    (h : Retries y.now y.before r answers) (hcfg : y.before.cfg.Valid) (hop : y.op = .advance)
    (hanswers : y.answers = answers.filter (!·.frame.carriesPart)) :
    y.Winds y.before.cfg y.before.receiver.timer? r.timer? ∧
      ∀ k, (∃ i, r.timer? = some (k, i)) ↔
        k = .nAr ∧ y.runs .nAr = true ∨ k = .nCr ∧ y.runs .nCr = true := by
  have hunit : y.unit? = none := by rw [Record.unit?, hop]
  have hcatches : y.catchesUp = y.answers.any Offer.taken := by rw [Record.catchesUp, hop]
  have hkept (hrefused : y.answers.any Offer.taken = false) :
      ∀ k i, y.before.receiver.timer? = some (k, i) → y.arms? y.before.cfg k = none := by
    intro k i hrun
    obtain ⟨rfl, -⟩ | ⟨rfl, -⟩ := Receiver.exists_timer?_iff.1 ⟨i, hrun⟩
    · simp [Record.arms?, Record.defers, Record.prolongs, hunit]
    · simp [Record.arms?, Record.follows, hunit, hcatches, hrefused]
  cases h with
  | nothing howed =>
    have hnone : y.answers = [] := hanswers
    refine ⟨.kept (hkept (by simp [hnone])), fun k => ?_⟩
    rw [Receiver.exists_timer?_iff, howed]
    simp [Record.runs, hnone]
  | refused howed =>
    rw [answers_of_frame hcfg] at hanswers
    refine ⟨.kept (hkept (by simp [hanswers])), fun k => ?_⟩
    rw [Receiver.exists_timer?_iff, howed]
    simp [Record.runs, hanswers]
  | taken howed =>
    rw [answers_of_frame hcfg] at hanswers
    have hstatus : y.before.receiver.status = .receiving :=
      Decidable.byContradiction fun hne => by cases howed.symm.trans (Receiver.owed_of_ne hne)
    obtain ⟨m, hphase⟩ := Receiver.status_eq_receiving.1 hstatus
    have htimer (deadline : Instant) :
        (y.before.receiver.answered deadline).timer? = some (.nCr, deadline) := by
      simp only [Receiver.answered, hphase]
      rfl
    rw [htimer]
    refine ⟨.armed (by simp [Record.arms?, hcatches, hanswers]), fun k => ?_⟩
    simp [Record.runs, hanswers, hstatus, eq_comm]

/-! ### Time -/

lemma mem_timeouts_of_advance (r : Receiver) (now : Instant) (k : Timer) :
    k ∈ timeouts ((r.advance now).2.toList.map (.failed .receive)) ↔
      ∃ i, r.timer? = some (k, i) ∧ i ≤ now := by
  have hmem (cause : Option Abort) :
      k ∈ timeouts (cause.toList.map (.failed .receive)) ↔ cause = some (.timeout k) := by
    rcases cause with _ | cause
    · simp [timeouts]
    · cases cause <;> simp [timeouts, eq_comm]
  rw [hmem, Receiver.advance_cause_iff]
  constructor
  · rintro ⟨k, i, hrun, hle, ⟨⟩⟩
    exact ⟨i, hrun, hle⟩
  · rintro ⟨i, hrun, hle⟩
    exact ⟨k, i, hrun, hle, rfl⟩

/-- As time passes, the timers that run are those of `x`: they have been armed before or are armed
now, and those whose deadline has come are reported. -/
structure Record.Ticks (y : Record σ ε) (x : Channel) : Prop where
  winds : ∀ d, y.Winds y.before.cfg (y.before.timer? d) (x.timer? d)
  runs : ∀ k, y.runs k = true ↔ ∃ d i, x.timer? d = some (k, i)
  timeouts : ∀ k, k ∈ y.timeouts ↔ ∃ d i, x.timer? d = some (k, i) ∧ i ≤ y.now

/-- The flow control owed is offered before any timer is looked at. -/
lemma Elapses.ticks (h : Elapses y.now y.before y.after y.offers y.events) (hop : y.op = .advance)
    (hcfg : y.before.cfg.Valid) (hmore : y.before.sender.HasMore) : (∃ x, y.Ticks x) ∧
      ∀ d, y.Winds y.before.cfg (y.before.timer? d) (y.after.timer? d) := by
  have hunit : y.unit? = none := by rw [Record.unit?, hop]
  generalize hoffers : y.offers = new at h
  generalize hafter : y.after = x at h
  generalize hevents : y.events = events at h
  rw [← hafter]
  cases h with
  | @mk r s answers parts event hretries hadvances =>
    have hoffered := offered_of_advances hcfg hoffers hretries.isAnswer hadvances.isPart
    have hanswers : y.answers = answers.filter (!·.frame.carriesPart) := by
      rw [Record.answers, hoffers, List.filter_append, answers_of_parts hadvances.isPart,
        List.append_nil]
    obtain ⟨hwinds, hruns⟩ := hretries.winds hcfg hop hanswers
    have hwaits (hwaits : y.before.sender.isWaiting = true) : y.awaits = false := by
      obtain ⟨t, d, hphase⟩ := Sender.isWaiting_iff.1 hwaits
      refine awaits_eq_false ?_ (by simp [hunit])
      rw [hoffered]
      cases hadvances with
      | rest | expired => rfl
      | refused hsending | taken hsending => cases hphase.symm.trans hsending
    -- the timers are looked at after the flow control owed was offered, which the sender is not
    -- concerned in
    refine ⟨⟨{ y.before with receiver := r }, ?_, fun k => ?_, fun k => ?_⟩, ?_⟩
    · rintro (_ | _)
      · exact .kept (arms?_of_running hwaits)
      · exact hwinds
    · rw [Direction.exists_iff, timer?, timer?, Sender.exists_timer?_iff, hruns]
      cases k <;> simp [Record.runs]
    · rw [Direction.exists_iff, Record.timeouts, hevents, timeouts_append, List.mem_append, or_comm,
        mem_timeouts_of_advances hadvances hmore, mem_timeouts_of_advance]
      rfl
    · rintro (_ | _)
      · exact winds_of_advances hadvances hoffered hunit (by rw [hafter]) (by rw [hafter])
      · rw [show y.after.timer? .receive = (r.advance y.now).1.timer? by rw [hafter]; rfl]
        rcases Receiver.advance_eq_or_ended y.now r with hsame | hended
        · rw [hsame]
          exact hwinds
        · rw [Receiver.timer?_of_ne hended]
          exact .stopped

end Outcomes

/-! ### Every call -/

namespace Host

variable {σ ε : Type} [Link σ ε] {cfg : Config} {h : Host σ}

/-- Every call stops, arms or leaves the timers. -/
lemma step_winds (hfit : h.Fit cfg) (now : Instant) (op : Op σ) (d : Direction) :
    let y := (h.step now op).2
    y.Winds cfg (h.channel.timer? d) (y.after.timer? d) := by
  obtain ⟨rfl, hsound, z, hready⟩ := hfit
  intro y
  cases op with
  | send payload =>
    obtain ⟨value, -, hsends⟩ := step_send now hready payload
    cases d with
    | send => exact Sends.winds (y := y) hsends hready rfl
    | receive => exact winds_of_receiver_eq (y := y) rfl rfl rfl hsends.receiver_eq
  | sendAs id payload =>
    obtain ⟨value, -, hsends⟩ := step_sendAs now hready id payload
    cases d with
    | send => exact Sends.winds (y := y) hsends hready rfl
    | receive => exact winds_of_receiver_eq (y := y) rfl rfl rfl hsends.receiver_eq
  | frame f =>
    have haccepts : Accepts y.now f y.before y.after y.offers y.events :=
      step_frame now hready.valid f
    cases d with
    | send => exact haccepts.winds_send rfl hready.valid hsound.sender
    | receive => exact haccepts.winds_receive rfl hready.valid
  | advance =>
    have helapses : Elapses y.now y.before y.after y.offers y.events := step_advance now hready
    exact (helapses.ticks rfl hready.valid hready.hasMore).2 d
  | collect room =>
    cases d with
    | send => exact winds_of_sender_eq (y := y) rfl (fun _ => rfl) rfl rfl
    | receive =>
      rcases Receiver.collect_eq_or_ended room h.channel.receiver with hkept | hended
      · exact winds_of_receiver_eq (y := y) rfl rfl rfl hkept
      · exact winds_of_receiver_ne (y := y) hended
  | cancel =>
    cases d with
    | send => exact winds_of_sender_idle (y := y) (Sender.not_busy_cancel h.channel.sender)
    | receive => exact winds_of_receiver_eq (y := y) rfl rfl rfl rfl
  | setPolicy | setLine =>
    cases d with
    | send => exact winds_of_sender_eq (y := y) rfl (fun _ => rfl) rfl rfl
    | receive => exact winds_of_receiver_eq (y := y) rfl rfl rfl rfl

/-- As time passes, exactly those of the running timers run out whose deadline has come. -/
lemma step_ticks (hfit : h.Fit cfg) (now : Instant) : ∃ x, (h.step now .advance).2.Ticks x := by
  obtain ⟨rfl, hsound, z, hready⟩ := hfit
  have helapses : let y := (h.step now .advance).2
      Elapses y.now y.before y.after y.offers y.events := step_advance now hready
  exact (helapses.ticks rfl hready.valid hready.hasMore).1

end Host

end Channel

end IsoTp
