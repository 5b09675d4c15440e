import IsoTp.Proofs.Channel.Endings

/-!
The gap that a channel keeps between consecutive frames.

What counts is in the history of the run: when the link took the last consecutive frame of the
message, and which separation time the last clear to send asked for that came while the sender
waited. A sender keeps both, through blocks, requests to wait and refusals, and offers no
consecutive frame before the one is over after the other.
-/

namespace IsoTp

open Segmentation

lemma SeparationTime.ofWire_of_reserved {b : UInt8} (h : 0x7F < b ∧ b < 0xF1 ∨ 0xF9 < b) :
    ofWire b = .ofMillis 127 := by
  have hlow : ¬b ≤ 0x7F := by grind
  have hhigh : ¬(0xF1 ≤ b ∧ b ≤ 0xF9) := by grind
  rw [ofWire, ofByte?, if_neg hlow, if_neg hhigh]
  rfl

/-! ### The sender -/

namespace Sender

/-- The sender goes by this instant of the last consecutive frame and, in the middle of a block, by
this separation time. -/
structure Paced (last : Option Instant) (gap : Option Duration) (s : Sender) : Prop where
  last : ∀ t, s.transfer? = some t → t.lastSent = last
  gap : ∀ t, s.phase = .sending t → gap = some t.stMin

/-- The separation time of flow control that clears the sender to send while it waits for that. -/
def clears (fc : FlowControl) (s : Sender) : Option Duration :=
  match s.phase, fc.status with
  | .waiting _ _, .clearToSend => some fc.stMin
  | _, _ => none

variable {cfg : Config} {now : Instant} {s s' : Sender} {t : Transfer} {last : Option Instant}
  {gap : Option Duration} {new : List Offer} {event : Option Event}

lemma paced_of_idle (h : s.transfer? = none) : s.Paced last gap := by
  refine ⟨fun t ht => ?_, fun t ht => ?_⟩
  · rw [h] at ht
    cases ht
  · simp [transfer?, ht] at h

/-- Flow control changes the separation time if it clears the sender, and nothing else. -/
lemma Paced.accept (hp : s.Paced last gap) (cfg : Config) (now : Instant) (fc : FlowControl) :
    (s.accept cfg now fc).1.Paced last ((s.clears fc).or gap) := by
  have hlast := hp.last
  unfold Sender.accept clears
  cases hphase : s.phase with
  | waiting t deadline =>
    simp only [transfer?, hphase, Option.some.injEq, forall_eq'] at hlast
    cases fc.status with
    | clearToSend => exact ⟨by rintro - ⟨⟩; exact hlast, by rintro - ⟨⟩; rfl⟩
    | wait =>
      dsimp only
      split
      · exact paced_of_idle rfl
      · exact ⟨by rintro - ⟨⟩; exact hlast, by rintro - ⟨⟩⟩
    | overflow => exact paced_of_idle rfl
  | idle | sending | done | failed => exact hp

/-- Only a consecutive frame on the link sets the instant anew. -/
lemma Paced.placed (hp : s.Paced last gap) (hphase : s.phase = .sending t) (cfg : Config)
    (now : Instant) (count : Nat) : (s.placed cfg now t count).1.Paced (some now) gap := by
  have hgap := hp.gap t hphase
  unfold Sender.placed
  dsimp only
  split
  · exact paced_of_idle rfl
  · split
    · exact ⟨by rintro - ⟨⟩; rfl, by rintro - ⟨⟩; exact hgap⟩
    · split
      · exact ⟨by rintro - ⟨⟩; rfl, by rintro - ⟨⟩; exact hgap⟩
      · exact ⟨by rintro - ⟨⟩; rfl, nofun⟩

lemma Paced.refused (hp : s.Paced last gap) (hphase : s.phase = .sending t) (now : Instant) :
    (s.refused now t).Paced last gap := by
  have hlast := hp.last t (transfer?_of_sending hphase)
  have hgap := hp.gap t hphase
  exact ⟨by rintro - ⟨⟩; exact hlast, by rintro - ⟨⟩; exact hgap⟩

lemma Paced.cancel (hp : s.Paced last gap) : s.cancel.Paced last gap := by
  unfold Sender.cancel
  split
  · exact paced_of_idle rfl
  · exact hp

/-- A message that was just begun has no consecutive frame on the link. -/
lemma Begins.paced {ε : Type} {x : Option Cargo} {id : CanId} {payload : Bytes}
    (hready : s.Ready cfg x)
    (h : s.Begins (ε := ε) cfg now id payload s' new (.ok event)) : s'.Paced none gap := by
  cases h with
  | taken hidle hs hcap =>
    have hfits := hready.fits
    by_cases hshort : payload.length ≤ cfg.singleRoom
    · rw [opened_of_short hshort]
      exact paced_of_idle rfl
    · obtain ⟨buffer, -, hopened, -⟩ :=
        opened_of_long (s := s) hs (Nat.not_le.1 hshort) (by omega) now id
      rw [hopened]
      exact ⟨by rintro - ⟨⟩; rfl, nofun⟩

/-- Before the separation time is over, no consecutive frame is due. -/
lemma due_of_early (hmore : s.HasMore) {instant : Instant} (hphase : s.phase = .sending t)
    (hlast : t.lastSent = some instant) (hearly : now < cfg.clock.after instant t.stMin) :
    s.due cfg now = if t.refusedSince.any (cfg.clock.after · cfg.nCs ≤ now) then .expired .nCs
      else .nothing := by
  rw [due_of_hasMore hmore hphase, hlast, Option.any_some, if_pos (decide_eq_true hearly)]

/-- Before the separation time is over, a sender does nothing, unless the link has refused the frame
for too long. -/
lemma Advances.of_early (h : s.Advances cfg now s' new event) (hmore : s.HasMore)
    {instant : Instant} (hphase : s.phase = .sending t) (hlast : t.lastSent = some instant)
    (hearly : now < cfg.clock.after instant t.stMin) :
    new = [] ∧ (s' = s ∧ event = none ∨
      t.refusedSince.any (cfg.clock.after · cfg.nCs ≤ now) ∧
        s' = (s.giveUp (.timeout .nCs)).1 ∧ event = some (.failed (.timeout .nCs))) := by
  have hdue' := due_of_early hmore hphase hlast hearly
  cases h with
  | rest => exact ⟨rfl, .inl ⟨rfl, rfl⟩⟩
  | expired hdue =>
    rw [hdue] at hdue'
    split at hdue'
    · next hover =>
      cases hdue'
      exact ⟨rfl, .inr ⟨hover, rfl, rfl⟩⟩
    · cases hdue'
  | refused _ _ _ hdue | taken _ _ _ hdue =>
    rw [hdue] at hdue'
    split at hdue' <;> cases hdue'

end Sender

namespace Channel

/-! ### What counts in a call -/

/-- The consecutive frames among those offered that the link took. -/
def consecutivesOf (offers : List Offer) : List Frame :=
  (takenOf offers).filter (Frame.kind? · = some 2)

lemma consecutivesOf_append (u v : List Offer) :
    consecutivesOf (u ++ v) = consecutivesOf u ++ consecutivesOf v := by
  rw [consecutivesOf, takenOf, List.filterMap_append, List.filter_append]
  rfl

/-- The separation time of a frame that clears a channel to send while its sender waits for that. -/
def clears (f : Frame) (c : Channel) : Option Duration :=
  if f.remote ∨ f.id ≠ c.cfg.rxId then none
  else
    match Pdu.decode f.data with
    | .flowControl status blockSize stMin => c.sender.clears (.ofWire status blockSize stMin)
    | _ => none

namespace Record

variable {σ ε : Type} (y : Record σ ε)

/-- The consecutive frames that the link took. -/
def consecutives : List Frame := consecutivesOf y.offers

/-- The separation time that a call asks for, if it clears the sender to send. -/
def gap? : Option Duration :=
  match y.op with
  | .frame f => y.before.clears f
  | _ => none

end Record

section History

variable {σ ε : Type} (past : List (Record σ ε)) (y : Record σ ε)

/-- The separation time asked for last. -/
def lastGap : Option Duration := (past.filterMap Record.gap?).getLast?

/-- When the link took the last consecutive frame of the message begun last. -/
def lastConsecutive : Option Instant :=
  past.foldl (fun last y =>
    if y.begun.isSome then none else if y.consecutives = [] then last else some y.now) none

lemma lastGap_concat : lastGap (past ++ [y]) = y.gap?.or (lastGap past) := by
  unfold lastGap
  rw [List.filterMap_append]
  cases hgap : y.gap? <;> simp [hgap]

lemma lastConsecutive_concat : lastConsecutive (past ++ [y]) =
    if y.begun.isSome then none else if y.consecutives = [] then lastConsecutive past
    else some y.now := by
  rw [lastConsecutive, List.foldl_append]
  rfl

variable {past}

/-- Calls that put no consecutive frame on the link and begin no message do not count. -/
lemma lastConsecutive_append {v : List (Record σ ε)}
    (hv : ∀ k ∈ v, k.consecutives = [] ∧ k.begun = none) :
    lastConsecutive (past ++ v) = lastConsecutive past := by
  induction v generalizing past with
  | nil => rw [List.append_nil]
  | cons k v ih =>
    obtain ⟨⟨hnone, hbegun⟩, hv⟩ := List.forall_mem_cons.1 hv
    rw [List.append_cons, ih hv, lastConsecutive_concat, hbegun, if_neg (by simp), if_pos hnone]

end History

/-! ### What a call does -/

section Outcomes

variable {cfg : Config} {c x : Channel} {now : Instant} {new : List Offer} {events : List Event}
  {last : Option Instant} {gap : Option Duration}

/-- Every consecutive frame is a frame with a part of a message. -/
lemma consecutivesOf_of_filter (h : new.filter (·.frame.carriesPart) = []) :
    consecutivesOf new = [] := by
  refine List.filter_eq_nil_iff.2 fun f hf hkind => ?_
  obtain ⟨o, ho, htaken⟩ := List.mem_filterMap.1 hf
  obtain ⟨-, hf⟩ := Option.ite_none_right_eq_some.1 htaken
  cases hf
  refine List.filter_eq_nil_iff.1 h o ho ?_
  rw [Frame.carriesPart, of_decide_eq_true hkind]
  rfl

lemma consecutivesOf_answers (hcfg : cfg.Valid) (h : ∀ o ∈ new, IsAnswer cfg o.frame) :
    consecutivesOf new = [] :=
  consecutivesOf_of_filter (filter_answers hcfg h)

/-- Of the frames of a cargo, all but the first are consecutive frames. -/
lemma consecutivesOf_part {payload f : Bytes} {k : Nat} (hs : Sendable cfg payload)
    (hf : (frames cfg payload)[k]? = some f) (id : CanId) :
    consecutivesOf [⟨⟨id, f, false⟩, true⟩] = if k = 0 then [] else [⟨id, f, false⟩] := by
  obtain ⟨hpart, hopens⟩ := kind_frame hs hf id false
  unfold consecutivesOf takenOf
  split
  · next hk =>
    have hkind : Frame.kind? ⟨id, f, false⟩ ≠ some 2 := fun h2 => by
      simp [Frame.opens, h2, hk] at hopens
    simp [hkind]
  · next hk =>
    have hkind := Frame.kind?_of_not_opens hpart (by simpa [hk] using hopens)
    simp [hkind]

lemma Accepts.paced {f : Frame} (h : Accepts now f c x new events)
    (hp : c.sender.Paced last gap) : x.sender.Paced last ((c.clears f).or gap) := by
  unfold clears
  cases h with
  | foreign hf =>
    rw [if_pos hf]
    exact hp
  | flowControl hf hread =>
    rw [if_neg hf, hread]
    exact hp.accept ..
  | unit hf hread hresolves =>
    rw [if_neg hf]
    split
    · next hflow => exact absurd hflow (hread _ _ _)
    · exact hp

/-- The frame that a sender offers as time passes is a consecutive frame. -/
lemma paced_of_advances {s s' : Sender} {event : Option Sender.Event}
    (h : s.Advances cfg now s' new event) (hp : s.Paced last gap) :
    s'.Paced (if consecutivesOf new = [] then last else some now) gap ∧
      (consecutivesOf new).length ≤ 1 := by
  cases h with
  | rest => exact ⟨hp, Nat.zero_le _⟩
  | expired => exact ⟨Sender.paced_of_idle rfl, Nat.zero_le _⟩
  | @refused t o f hphase hc hf =>
    have hnew : consecutivesOf [⟨⟨o.id, f, false⟩, false⟩] = [] := rfl
    rw [hnew, if_pos rfl]
    exact ⟨hp.refused hphase now, Nat.zero_le _⟩
  | @taken t o f hphase hc hf =>
    have hcount := hc.count_pos
    have hnew : consecutivesOf [⟨⟨o.id, f, false⟩, true⟩] = [⟨o.id, f, false⟩] := by
      rw [consecutivesOf_part hc.sendable hf, if_neg (by omega)]
    rw [hnew, if_neg (by simp)]
    exact ⟨hp.placed hphase cfg now _, Nat.le_refl _⟩

lemma Elapses.paced (hcfg : c.cfg.Valid) (h : Elapses now c x new events)
    (hp : c.sender.Paced last gap) :
    x.sender.Paced (if consecutivesOf new = [] then last else some now) gap ∧
      (consecutivesOf new).length ≤ 1 := by
  cases h with
  | mk hretries hadvances =>
    rw [consecutivesOf_append, consecutivesOf_answers hcfg hretries.isAnswer, List.nil_append]
    exact paced_of_advances hadvances hp

/-- Before the separation time is over, time does nothing about the message in flight, unless the
link has refused the next frame of it for too long. -/
lemma Elapses.of_early {t : Transfer} {instant : Instant} {z : Option Cargo}
    (hready : c.sender.Ready c.cfg z) (h : Elapses now c x new events)
    (hphase : c.sender.phase = .sending t) (hlast : t.lastSent = some instant)
    (hearly : now < c.cfg.clock.after instant t.stMin) :
    new.filter (·.frame.carriesPart) = [] ∧
      (x.sender = c.sender ∧ endings events = [] ∨
        t.refusedSince.any (c.cfg.clock.after · c.cfg.nCs ≤ now) ∧
          x.sender = (c.sender.giveUp (.timeout .nCs)).1 ∧
          endings events = [.failed (.timeout .nCs)]) := by
  cases h with
  | mk hretries hadvances =>
    obtain ⟨rfl, hcases⟩ := hadvances.of_early hready.hasMore hphase hlast hearly
    rw [List.append_nil, endings_append, endings_receive, List.nil_append, endings_sendEvent]
    refine ⟨filter_answers hready.valid hretries.isAnswer, hcases.imp ?_ ?_⟩
    · rintro ⟨rfl, rfl⟩
      exact ⟨rfl, rfl⟩
    · rintro ⟨hover, rfl, rfl⟩
      exact ⟨hover, rfl, rfl⟩

/-- Time has a consecutive frame put on the link only in the middle of a block. -/
lemma Elapses.sending (hcfg : c.cfg.Valid) (h : Elapses now c x new events)
    (hsome : consecutivesOf new ≠ []) : ∃ t, c.sender.phase = .sending t := by
  cases h with
  | mk hretries hadvances =>
    rw [consecutivesOf_append, consecutivesOf_answers hcfg hretries.isAnswer,
      List.nil_append] at hsome
    cases hadvances with
    | rest | expired => exact absurd rfl hsome
    | refused hphase | taken hphase => exact ⟨_, hphase⟩

/-- An opening frame is no consecutive frame. -/
lemma consecutivesOf_begins {ε : Type} {s s' : Sender} {id : CanId} {payload : Bytes}
    {value : Except (Error ε) (Option Sender.Event)}
    (h : s.Begins cfg now id payload s' new value) : consecutivesOf new = [] := by
  cases h with
  | rejected => rfl
  | refused => rfl
  | taken _ hs _ hf => rw [consecutivesOf_part hs hf, if_pos rfl]

lemma Sends.consecutivesOf_eq {ε : Type} {id : CanId} {payload : Bytes}
    {value : Except (Error ε) Unit} (h : Sends now id payload c x new events value) :
    consecutivesOf new = [] := by
  cases h with
  | error hbegins => exact consecutivesOf_begins hbegins
  | ok hbegins => exact consecutivesOf_begins hbegins

lemma Sends.paced {ε : Type} {z : Option Cargo} {id : CanId} {payload : Bytes}
    {value : Except (Error ε) Unit} (hready : c.sender.Ready c.cfg z)
    (h : Sends now id payload c x new events value) (hp : c.sender.Paced last gap) :
    x.sender.Paced (if value.toOption.isSome then none else last) gap := by
  cases h with
  | error => exact hp
  | ok hbegins => exact hbegins.paced hready

end Outcomes

/-! ### Calls -/

section Calls

variable {σ ε : Type} [Link σ ε] {h : Host σ} {z : Option Cargo} {past : List (Record σ ε)}

/-- A sender that goes by what the calls so far put on the link and asked for does so after one more
call. A consecutive frame goes out only as time passes, and one at a time. -/
theorem Host.step_paced (hready : h.channel.sender.Ready h.channel.cfg z)
    (hp : h.channel.sender.Paced (lastConsecutive past) (lastGap past)) (now : Instant)
    (op : Op σ) :
    let y := h.step now op
    y.1.channel.sender.Paced (lastConsecutive (past ++ [y.2])) (lastGap (past ++ [y.2])) ∧
      (y.2.consecutives ≠ [] → y.2.op = .advance ∧ y.2.consecutives.length = 1) := by
  intro y
  rw [lastConsecutive_concat, lastGap_concat]
  cases op with
  | send payload =>
    obtain ⟨value, hreply, hsends⟩ := step_send now hready payload
    have hnone : y.2.consecutives = [] := hsends.consecutivesOf_eq
    rw [Record.begun_of_verdict hreply rfl, Option.isSome_map, if_pos hnone]
    exact ⟨hsends.paced hready hp, fun hsome => absurd hnone hsome⟩
  | sendAs id payload =>
    obtain ⟨value, hreply, hsends⟩ := step_sendAs now hready id payload
    have hnone : y.2.consecutives = [] := hsends.consecutivesOf_eq
    rw [Record.begun_of_verdict hreply rfl, Option.isSome_map, if_pos hnone]
    exact ⟨hsends.paced hready hp, fun hsome => absurd hnone hsome⟩
  | frame f =>
    have haccepts := step_frame now hready.valid f
    have hnone : y.2.consecutives = [] := consecutivesOf_answers hready.valid haccepts.isAnswer
    rw [Record.begun_eq_none rfl, if_neg (by simp), if_pos hnone]
    exact ⟨haccepts.paced hp, fun hsome => absurd hnone hsome⟩
  | advance =>
    obtain ⟨hpaced, hlength⟩ := (step_advance now hready).paced hready.valid hp
    rw [Record.begun_eq_none rfl, if_neg (by simp)]
    refine ⟨hpaced, fun hsome => ⟨rfl, Nat.le_antisymm hlength ?_⟩⟩
    exact List.length_pos_iff.2 hsome
  | cancel => exact ⟨hp.cancel, fun hsome => absurd rfl hsome⟩
  | collect | setPolicy | setLine => exact ⟨hp, fun hsome => absurd rfl hsome⟩

theorem Host.run_paced (past : List (Record σ ε))
    (hready : h.channel.sender.Ready h.channel.cfg z)
    (hp : h.channel.sender.Paced (lastConsecutive past) (lastGap past))
    (calls : List (Instant × Op σ)) :
    (h.run calls).channel.sender.Paced (lastConsecutive (past ++ h.trace calls))
        (lastGap (past ++ h.trace calls)) ∧
      ∀ y ∈ h.trace calls, y.consecutives ≠ [] →
        y.op = .advance ∧ y.consecutives.length = 1 := by
  induction calls generalizing h z past with
  | nil =>
    rw [trace, List.append_nil]
    exact ⟨hp, List.forall_mem_nil _⟩
  | cons call calls ih =>
    obtain ⟨hpaced, hone⟩ := step_paced hready hp call.1 call.2
    obtain ⟨hcfg, z', -, hready'⟩ := h.step_moves hready call.1 call.2
    rw [← hcfg] at hready'
    obtain ⟨hrun, hall⟩ := ih _ hready' hpaced
    rw [List.append_assoc] at hrun
    exact ⟨hrun, List.forall_mem_cons.2 ⟨hone, hall⟩⟩

end Calls

/-! ### Main statement -/

section Runs

variable {σ ε : Type} [Link σ ε] {cfg : Config} {c : Channel}

/-- A call that offers no frame of a message and fails the one in flight, because the link has
refused the next frame of it for too long. -/
structure Record.Stalls (y : Record σ ε) (t : Transfer) : Prop where
  expired : t.refusedSince.any (y.before.cfg.clock.after · y.before.cfg.nCs ≤ y.now)
  offers : y.offers.filter (·.frame.carriesPart) = []
  endings : y.endings = [.failed (.timeout .nCs)]
  sender : y.after.sender = (y.before.sender.giveUp (.timeout .nCs)).1

/-- Before the separation time is over, a call that lets time pass rests or stalls. -/
lemma Host.advance_of_early {h : Host σ} {z : Option Cargo} {t : Transfer} {instant : Instant}
    (hready : h.channel.sender.Ready h.channel.cfg z)
    (hphase : h.channel.sender.phase = .sending t) (hlast : t.lastSent = some instant)
    {now : Instant} (hearly : now < h.channel.cfg.clock.after instant t.stMin) :
    (h.step now .advance).2.Rests ∨ (h.step now .advance).2.Stalls t := by
  obtain ⟨hoffers, hcases⟩ := (step_advance now hready).of_early hready hphase hlast hearly
  refine hcases.imp (fun ⟨hsender, hends⟩ => ?_) (fun ⟨hover, hsender, hends⟩ => ?_)
  · exact ⟨hoffers, (Record.endings_eq rfl).trans hends, hsender⟩
  · exact ⟨hover, hoffers, (Record.endings_eq rfl).trans hends, hsender⟩

/-- **Consecutive frames keep their distance.** Whatever the calls, their instants and the link: a
consecutive frame goes out only as time passes, and one at a time. After one was taken, the next one
of the same message is taken no sooner than the separation time later that the last clear to send
asked for that came while the sender waited, be it at a block's start after the first of the two
frames or before it. Up to then a call that lets time pass offers no frame of the message and leaves
the sender as it is, or fails the message if the link has refused its next frame for too long. A
reserved byte asks for the longest separation time. -/
theorem gap_of_run (hc : Fresh cfg c) (line : σ) (calls : List (Instant × Op σ)) :
    let records := Host.trace ⟨c, line⟩ calls
    (∀ y ∈ records, y.consecutives ≠ [] → y.op = .advance ∧ y.consecutives.length = 1) ∧
      (∀ u y v z w, records = u ++ y :: v ++ z :: w → y.consecutives ≠ [] →
        (∀ k ∈ v, k.consecutives = [] ∧ k.begun = none) →
        (z.consecutives ≠ [] →
          ∃ gap, lastGap (u ++ y :: v) = some gap ∧ cfg.clock.after y.now gap ≤ z.now) ∧
        ∀ t, z.op = .advance → z.before.sender.phase = .sending t →
          ∃ gap, lastGap (u ++ y :: v) = some gap ∧
            (z.now < cfg.clock.after y.now gap → z.Rests ∨ z.Stalls t)) ∧
      ∀ b : UInt8, 0x7F < b ∧ b < 0xF1 ∨ 0xF9 < b →
        SeparationTime.ofWire b = .ofMillis 127 := by
  intro records
  obtain ⟨rfl, hready⟩ := hc.ready
  have hnew : c.sender.Paced none none := by
    obtain ⟨-, tx, rx, -, -, hnew⟩ := hc.eq_new
    rw [hnew]
    exact Sender.paced_of_idle rfl
  have hone : ∀ y ∈ records, y.consecutives ≠ [] → y.op = .advance ∧ y.consecutives.length = 1 :=
    (Host.run_paced (h := ⟨c, line⟩) [] hready hnew calls).2
  refine ⟨hone, fun u y v z w hsplit hy hv => ?_, fun b => SeparationTime.ofWire_of_reserved⟩
  · obtain ⟨earlier, ⟨now, op⟩, later, -, hpast, rfl, -⟩ := Host.split_trace hsplit
    obtain ⟨hcfg, x, hready'⟩ := Host.ready_run (h := ⟨c, line⟩) hready earlier
    rw [← hcfg] at hready'
    have hpaced := (Host.run_paced (h := ⟨c, line⟩) [] hready hnew earlier).1
    have hlast : lastConsecutive (u ++ y :: v) = some y.now := by
      obtain ⟨hop, -⟩ := hone y (by rw [hsplit]; simp) hy
      rw [List.append_cons, lastConsecutive_append hv, lastConsecutive_concat,
        Record.begun_eq_none (by rw [hop]; rfl), if_neg (by simp), if_neg hy]
    rw [List.nil_append, ← hpast, hlast] at hpaced
    rw [Host.step_now, Host.step_op, Host.step_before]
    refine ⟨fun hz => ?_, fun t hop hphase => ?_⟩
    · obtain ⟨hop, -⟩ := hone _ (by rw [hsplit]; simp) hz
      rw [Host.step_op] at hop
      subst hop
      obtain ⟨t, hphase⟩ := (Host.step_advance now hready').sending hready'.valid hz
      refine ⟨_, hpaced.gap t hphase, Nat.not_lt.1 fun hearly => hz ?_⟩
      rw [← hcfg] at hearly
      have hlastSent := hpaced.last t (Sender.transfer?_of_sending hphase)
      exact consecutivesOf_of_filter
        ((Host.step_advance now hready').of_early hready' hphase hlastSent hearly).1
    · subst hop
      refine ⟨_, hpaced.gap t hphase, fun hearly => ?_⟩
      rw [← hcfg] at hearly
      have hlastSent := hpaced.last t (Sender.transfer?_of_sending hphase)
      exact Host.advance_of_early hready' hphase hlastSent hearly

/-- A message in two blocks of one frame each. The second block asks for ten milliseconds, which are
not over at the first try. -/
theorem gap_of_run_raised :
    let cfg : Config := { rxId := .standard 1 }
    let c : Channel :=
      ⟨cfg, cfg.policy, .new (.zeroed 4095) 4095, .new (.zeroed 4095) 4095⟩
    let calls : List (Instant × Op Quota) :=
      [(0, .send (.replicate 20 7)), (1, .frame ⟨.standard 1, [0x30, 1, 1], false⟩), (2, .advance),
        (3, .frame ⟨.standard 1, [0x30, 1, 10], false⟩), (1002, .advance), (10002, .advance)]
    let records := Host.trace ⟨c, (⟨none⟩ : Quota)⟩ calls
    Fresh cfg c ∧
      (∀ u y v z w, records = u ++ y :: v ++ z :: w → y.consecutives ≠ [] →
        (∀ k ∈ v, k.consecutives = [] ∧ k.begun = none) → z.consecutives ≠ [] →
        ∃ gap, lastGap (u ++ y :: v) = some gap ∧ cfg.clock.after y.now gap ≤ z.now) ∧
      records.map (fun y => (y.now, y.consecutives.length)) =
        [(0, 0), (1, 0), (2, 1), (3, 0), (1002, 0), (10002, 1)] ∧
      lastGap records = some (.ofMillis 10) := by
  intro cfg c calls records
  have hc : Fresh cfg c := .ofBuffers (.zeroed 4095) (.zeroed 4095) rfl
  have hgap := (gap_of_run hc (⟨none⟩ : Quota) calls).2.1
  exact ⟨hc, fun u y v z w hsplit hy hv => (hgap u y v z w hsplit hy hv).1, by decide +kernel,
    by decide +kernel⟩

end Runs

end Channel

end IsoTp
