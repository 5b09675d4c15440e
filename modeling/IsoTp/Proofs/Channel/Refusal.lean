import IsoTp.Proofs.Channel.Halves
import IsoTp.Proofs.Channel.Soundness
import IsoTp.Proofs.Link.Indistinct

/-!
A message that is not begun leaves no trace.

A message to be sent is turned away without a look at the link while another is in flight, if it is
empty, and if it is too long, in this order. Else its opening frame is offered, once, and the answer
of the link is the verdict. Nothing is written to the buffer and no phase changes before the link
has taken that frame. So the channel is as it was after every refusal, and goes on as if it had not
been asked, on its link or on any other that answers the same.
-/

namespace IsoTp

open Segmentation

/-! ### The same calls on links that cannot be told apart -/

namespace Sender

variable {σ ε : Type} [Link σ ε] {t t' : Tap σ} {s : Sender}

/-- A call that comes out the same on two links. -/
structure Turn.Indistinct {α : Type} (turn turn' : Turn (Tap σ) α) : Prop where
  sender : turn.sender = turn'.sender
  value : turn.value = turn'.value
  line : turn.line.Indistinct turn'.line

lemma begin_indistinct (h : t.Indistinct t') (cfg : Config) (now : Instant) (id : CanId)
    (payload : Bytes) :
    (s.begin cfg now id payload t).Indistinct (s.begin cfg now id payload t') := by
  unfold Sender.begin
  split
  · exact ⟨rfl, rfl, h⟩
  · next pdu hok =>
    obtain ⟨verdict, l, l', hoffer, hoffer', hline⟩ := h.offer cfg id pdu
    rw [hoffer, hoffer']
    cases verdict with
    | error e => exact ⟨rfl, rfl, hline⟩
    | ok _ => exact ⟨rfl, rfl, hline⟩

lemma advance_indistinct (h : t.Indistinct t') (cfg : Config) (now : Instant) :
    (s.advance cfg now t).Indistinct (s.advance cfg now t') := by
  unfold Sender.advance
  cases s.due cfg now with
  | nothing | expired | finished | outOfBounds => exact ⟨rfl, rfl, h⟩
  | frame transfer chunk =>
    obtain ⟨verdict, l, l', hoffer, hoffer', hline⟩ :=
      h.offer cfg transfer.id (.consecutive (.ofNat transfer.nextSn) chunk)
    simp only [hoffer, hoffer']
    cases verdict with
    | error e => exact ⟨rfl, rfl, hline⟩
    | ok _ => exact ⟨rfl, rfl, hline⟩

end Sender

namespace Channel

section Indistinct

variable {σ ε : Type} [Link σ ε] {t t' : Tap σ} {c : Channel}

/-- A call that comes out the same on two links. -/
structure Turn.Indistinct {α : Type} (turn turn' : Turn (Tap σ) α) : Prop where
  channel : turn.channel = turn'.channel
  value : turn.value = turn'.value
  events : turn.events = turn'.events
  line : turn.line.Indistinct turn'.line

lemma sendAs_indistinct (h : t.Indistinct t') (now : Instant) (id : CanId) (payload : Bytes) :
    (c.sendAs now id payload t).Indistinct (c.sendAs now id payload t') := by
  have hbegin := Sender.begin_indistinct (s := c.sender) h c.cfg now id payload
  refine ⟨?_, ?_, ?_, hbegin.line⟩
  · simp only [sendAs, hbegin.sender]
  · simp only [sendAs, hbegin.value]
  · simp only [sendAs, hbegin.value]

lemma settle_indistinct (h : t.Indistinct t') (now : Instant) (outcome : Receiver.Outcome) :
    (c.settle now outcome t).Indistinct (c.settle now outcome t') := by
  unfold settle offerFlowControl
  cases outcome with
  | none | complete | failed => exact ⟨rfl, rfl, rfl, h⟩
  | answer fc | refusal fc =>
    obtain ⟨verdict, l, l', hoffer, hoffer', hline⟩ := h.offer c.cfg c.cfg.txId fc.toPdu
    simp only [hoffer, hoffer']
    cases verdict with
    | error e => exact ⟨rfl, rfl, rfl, hline⟩
    | ok _ => exact ⟨rfl, rfl, rfl, hline⟩

lemma accept_indistinct (h : t.Indistinct t') (now : Instant) (f : Frame) :
    (c.accept now f t).Indistinct (c.accept now f t') := by
  unfold accept
  split
  · exact ⟨rfl, rfl, rfl, h⟩
  · split
    · exact ⟨rfl, rfl, rfl, h⟩
    · exact settle_indistinct h now _

lemma retryFlowControl_indistinct (h : t.Indistinct t') (now : Instant) :
    (c.retryFlowControl now t).1 = (c.retryFlowControl now t').1 ∧
      (c.retryFlowControl now t).2.Indistinct (c.retryFlowControl now t').2 := by
  unfold retryFlowControl offerFlowControl
  cases c.receiver.owed with
  | none => exact ⟨rfl, h⟩
  | some fc =>
    obtain ⟨verdict, l, l', hoffer, hoffer', hline⟩ := h.offer c.cfg c.cfg.txId fc.toPdu
    simp only [hoffer, hoffer']
    cases verdict with
    | error e => exact ⟨rfl, hline⟩
    | ok _ => exact ⟨rfl, hline⟩

lemma advance_indistinct (h : t.Indistinct t') (now : Instant) :
    (c.advance now t).Indistinct (c.advance now t') := by
  obtain ⟨hchannel, hline⟩ := retryFlowControl_indistinct (c := c) h now
  unfold advance
  rcases hretry : c.retryFlowControl now t with ⟨x, l⟩
  rcases hretry' : c.retryFlowControl now t' with ⟨x', l'⟩
  rw [hretry, hretry'] at hchannel hline
  obtain rfl : x = x' := hchannel
  have hadvance := Sender.advance_indistinct (s := x.sender) hline x.cfg now
  refine ⟨?_, ?_, ?_, hadvance.line⟩
  · simp only [hadvance.sender]
  · simp only [hadvance.sender]
  · simp only [hadvance.value]

namespace Host

variable {line line' : σ}

lemma step_indistinct (h : Link.Indistinct line line') (now : Instant) (op : Op σ) :
    let y := step ⟨c, line⟩ now op
    let y' := step ⟨c, line'⟩ now op
    y.1.channel = y'.1.channel ∧ y.2 = y'.2 ∧ Link.Indistinct y.1.line y'.1.line := by
  have htaps : (Tap.mk line []).Indistinct (Tap.mk line' []) := ⟨h, rfl⟩
  have hmoved {α : Type} {turn turn' : Turn (Tap σ) α} (hturn : turn.Indistinct turn')
      (reply : α → Reply ε) :
      turn.channel = turn'.channel ∧
        (⟨now, op, c, reply turn.value, turn.events, turn.line.offers, turn.channel⟩ :
            Record σ ε) =
          ⟨now, op, c, reply turn'.value, turn'.events, turn'.line.offers, turn'.channel⟩ ∧
        Link.Indistinct turn.line.line turn'.line.line := by
    refine ⟨hturn.channel, ?_, hturn.line.line⟩
    rw [hturn.channel, hturn.value, hturn.events, hturn.line.offers]
  cases op with
  | send payload => exact hmoved (sendAs_indistinct htaps now c.cfg.txId payload) .verdict
  | sendAs id payload => exact hmoved (sendAs_indistinct htaps now id payload) .verdict
  | frame f => exact hmoved (accept_indistinct htaps now f) .verdict
  | advance => exact hmoved (advance_indistinct htaps now) .progress
  | collect | cancel | setPolicy => exact ⟨rfl, rfl, h⟩
  | setLine line => exact ⟨rfl, rfl, .refl line⟩

/-- No calls tell a channel on one link from the same channel on the other. -/
theorem trace_indistinct {a b : Host σ} (hchannel : a.channel = b.channel)
    (hline : Link.Indistinct a.line b.line) (calls : List (Instant × Op σ)) :
    a.trace calls = b.trace calls := by
  induction calls generalizing a b with
  | nil => rfl
  | cons call calls ih =>
    obtain ⟨c, line⟩ := a
    obtain ⟨c', line'⟩ := b
    obtain rfl : c = c' := hchannel
    obtain ⟨hnext, hrecord, hline'⟩ := step_indistinct (c := c) hline call.1 call.2
    rw [trace_cons, trace_cons, hrecord, ih hnext hline']

end Host

end Indistinct

end Channel

/-! ### Why a message is turned away -/

namespace Sender

variable {σ ε : Type} {cfg : Config} {s : Sender} {x : Option Cargo} {payload : Bytes}

/-- What speaks against a message before the link is asked. -/
def objection? (payload : Bytes) (s : Sender) : Option (Error ε) :=
  if s.Busy then some .busy
  else if payload = [] then some .emptyPayload
  else if s.capacity < payload.length then some (.payloadTooLong payload.length s.capacity)
  else none

lemma objection?_eq_some {e : Error ε} (h : s.objection? payload = some e) :
    s.Busy ∧ e = .busy ∨ ¬s.Busy ∧ payload = [] ∧ e = .emptyPayload ∨
      ¬s.Busy ∧ payload ≠ [] ∧ s.capacity < payload.length ∧
        e = .payloadTooLong payload.length s.capacity := by
  unfold objection? at h
  split at h
  · next hbusy => exact .inl ⟨hbusy, (Option.some.inj h).symm⟩
  · next hidle =>
    split at h
    · next hnil => exact .inr (.inl ⟨hidle, hnil, (Option.some.inj h).symm⟩)
    · next hne =>
      split at h
      · next hlong => exact .inr (.inr ⟨hidle, hne, hlong, (Option.some.inj h).symm⟩)
      · cases h

lemma objection?_eq_none : s.objection? (ε := ε) payload = none ↔
    ¬s.Busy ∧ payload ≠ [] ∧ payload.length ≤ s.capacity := by
  unfold objection?
  repeat' split
  all_goals simp_all

/-- A message with something against it has no opening frame. -/
lemma opening_of_objection {e : Error ε} (h : s.objection? payload = some e) (cfg : Config) :
    s.opening cfg payload = .error e := by
  unfold opening
  dsimp only
  obtain ⟨hbusy, rfl⟩ | ⟨hidle, rfl, rfl⟩ | ⟨hidle, hne, hlong, rfl⟩ := objection?_eq_some h
  · rw [if_pos hbusy]
  · rw [if_neg hidle, if_pos List.length_nil]
  · rw [if_neg hidle, if_neg (hne ∘ List.length_eq_zero_iff.1), if_pos hlong]

end Sender

/-- A unit that has a frame is offered as that frame, and the answer is the link's. -/
lemma Link.offer_of_encode? {σ ε : Type} [Link σ ε] {cfg : Config} {pdu : Pdu} {data : Bytes}
    (hdata : cfg.encode? pdu = some data) (id : CanId) (line : Tap σ) :
    let f : Frame := ⟨id, data, false⟩
    let answer := Link.put line.line f
    Link.offer cfg id pdu line =
      (answer.1.mapError .link, ⟨answer.2, line.offers ++ [⟨f, answer.1.isOk⟩]⟩) := by
  simp only [Link.offer, hdata]
  rfl

namespace Channel

variable {σ ε : Type} [Link σ ε] {cfg : Config} {h : Host σ} {x : Option Cargo}

/-! ### What becomes of a message to be sent -/

/-- A message is turned away before the link is asked, or its opening frame is offered, and refused
or taken. -/
inductive Host.Submits (cfg : Config) (id : CanId) (payload : Bytes) (h : Host σ)
    (y : Host σ × Record σ ε) : Prop
  | rejected {e : Error ε} (hobjection : h.channel.sender.objection? payload = some e)
      (hhost : y.1 = h) (hreply : y.2.reply = .verdict (.error e)) (hoffers : y.2.offers = [])
      (hevents : y.2.events = [])
  | refused {f : Bytes} {e : ε}
      (hobjection : h.channel.sender.objection? (ε := ε) payload = none)
      (hf : (frames cfg payload)[0]? = some f)
      (hput : (Link.put h.line (⟨id, f, false⟩ : Frame)).1 = .error e)
      (hchannel : y.1.channel = h.channel) (hreply : y.2.reply = .verdict (.error (.link e)))
      (hoffers : y.2.offers = [⟨⟨id, f, false⟩, false⟩]) (hevents : y.2.events = [])
  | taken {f : Bytes}
      (hobjection : h.channel.sender.objection? (ε := ε) payload = none)
      (hf : (frames cfg payload)[0]? = some f)
      (hput : (Link.put h.line (⟨id, f, false⟩ : Frame)).1 = .ok ())
      (hreply : y.2.reply = .verdict (.ok ())) (hoffers : y.2.offers = [⟨⟨id, f, false⟩, true⟩])

namespace Host

lemma submits_sendAs (hready : h.channel.sender.Ready h.channel.cfg x) (now : Instant) (id : CanId)
    (payload : Bytes) :
    Submits h.channel.cfg id payload h (h.step now (.sendAs id payload)) := by
  cases hobjection : h.channel.sender.objection? (ε := ε) payload with
  | some e =>
    have hopening := Sender.opening_of_objection hobjection h.channel.cfg
    have hsend : h.channel.sendAs now id payload (Tap.mk h.line []) =
        ⟨h.channel, Tap.mk h.line [], .error e, []⟩ := by
      simp only [sendAs, Sender.begin, hopening]
      rfl
    refine .rejected hobjection ?_ ?_ ?_ ?_ <;> simp only [step, hsend]
  | none =>
    obtain ⟨hidle, hne, hle⟩ := Sender.objection?_eq_none.1 hobjection
    have hs : Sendable h.channel.cfg payload :=
      ⟨hready.valid, hne, Nat.lt_of_le_of_lt hle hready.capacity_lt⟩
    obtain ⟨pdu, hopening, hf⟩ :=
      Sender.opening_of_idle (ε := ε) (Option.not_isSome_iff_eq_none.1 hidle) hs hle
    obtain ⟨f, hframe⟩ : ∃ f, (frames h.channel.cfg payload)[0]? = some f :=
      ⟨_, List.getElem?_eq_getElem (length_frames_pos hs)⟩
    have hoffer := Link.offer_of_encode? (hf.symm.trans hframe) id (Tap.mk h.line [])
    rcases hput : Link.put h.line (⟨id, f, false⟩ : Frame) with ⟨e | _, rest⟩
    · have hsend : h.channel.sendAs now id payload (Tap.mk h.line []) =
          ⟨h.channel, ⟨rest, [⟨⟨id, f, false⟩, false⟩]⟩, .error (.link e), []⟩ := by
        simp only [sendAs, Sender.begin, hopening, hoffer, hput]
        rfl
      refine .refused hobjection hframe (by rw [hput]) ?_ ?_ ?_ ?_ <;> simp only [step, hsend]
    · refine .taken hobjection hframe (by rw [hput]) ?_ ?_
      · simp only [step, sendAs, Sender.begin, hopening, hoffer, hput]
        rfl
      · simp only [step, sendAs, Sender.begin, hopening, hoffer, hput]
        rfl

lemma submits_send (hready : h.channel.sender.Ready h.channel.cfg x) (now : Instant)
    (payload : Bytes) :
    Submits h.channel.cfg h.channel.cfg.txId payload h (h.step now (.send payload)) := by
  have hsubmits := submits_sendAs hready now h.channel.cfg.txId payload
  cases hsubmits with
  | rejected hobjection hhost hreply hoffers hevents =>
    exact .rejected hobjection hhost hreply hoffers hevents
  | refused hobjection hf hput hchannel hreply hoffers hevents =>
    exact .refused hobjection hf hput hchannel hreply hoffers hevents
  | taken hobjection hf hput hreply hoffers => exact .taken hobjection hf hput hreply hoffers

end Host

/-! ### Main statement -/

/-- What a message to be sent comes to, for a channel `h` and its link, with `y` what there is after
the call and its record. -/
structure AllOrNothing (cfg : Config) (id : CanId) (payload : Bytes) (h : Host σ)
    (y : Host σ × Record σ ε) : Prop where
  /-- It is turned away while another one is in flight, else if it is empty, else if it is too
  long. -/
  busy_iff : y.2.reply = .verdict (.error .busy) ↔ h.channel.sender.Busy
  empty_iff : ¬h.channel.sender.Busy →
    (y.2.reply = .verdict (.error .emptyPayload) ↔ payload = [])
  tooLong_iff : ¬h.channel.sender.Busy → payload ≠ [] →
    (y.2.reply = .verdict (.error (.payloadTooLong payload.length cfg.sendCapacity)) ↔
      cfg.sendCapacity < payload.length)
  /-- Else its opening frame is offered, once, and the verdict is the link's. -/
  link_iff : ¬h.channel.sender.Busy → payload ≠ [] → payload.length ≤ cfg.sendCapacity →
    ∃ f, (frames cfg payload)[0]? = some f ∧
      (∃ taken, y.2.offers = [⟨⟨id, f, false⟩, taken⟩]) ∧
      (∀ e, y.2.reply = .verdict (.error (.link e)) ↔
        (Link.put h.line (⟨id, f, false⟩ : Frame)).1 = .error e) ∧
      (y.2.reply = .verdict (.ok ()) ↔ (Link.put h.line (⟨id, f, false⟩ : Frame)).1 = .ok ())
  /-- There are no other errors. -/
  errors : ∀ e, y.2.reply = .verdict (.error e) →
    e = .busy ∨ e = .emptyPayload ∨ e = .payloadTooLong payload.length cfg.sendCapacity ∨
      ∃ e', e = .link e'
  /-- Only the link's own refusal has anything to do with the link. -/
  untouched : ∀ e, y.2.reply = .verdict (.error e) → (∀ e', e ≠ .link e') →
    y.1 = h ∧ y.2.offers = []
  /-- After an error no frame is on the link, nothing is reported, and the channel is as it was. -/
  unchanged : ∀ e, y.2.reply = .verdict (.error e) →
    (∀ o ∈ y.2.offers, o.taken = false) ∧ y.2.events = [] ∧ y.1.channel = h.channel
  /-- So it goes on as if it had not been asked, on any links that answer the same. -/
  goesOn : ∀ e, y.2.reply = .verdict (.error e) → ∀ line line' : σ,
    Link.Indistinct line line' → ∀ calls,
      Host.trace ⟨y.1.channel, line⟩ calls = Host.trace ⟨h.channel, line'⟩ calls

lemma Host.Submits.allOrNothing {id : CanId} {payload : Bytes} {y : Host σ × Record σ ε}
    (hsubmits : Submits cfg id payload h y) (hcap : h.channel.sender.capacity = cfg.sendCapacity) :
    AllOrNothing cfg id payload h y := by
  cases hsubmits with
  | rejected hobjection hhost hreply hoffers hevents =>
    have hcases := Sender.objection?_eq_some hobjection
    rw [hcap] at hcases
    have hchannel : y.1.channel = h.channel := by rw [hhost]
    -- whatever speaks against the message, the call comes to nothing
    have hsame (e : Error ε) (he : y.2.reply = .verdict (.error e)) :
        (∀ o ∈ y.2.offers, o.taken = false) ∧ y.2.events = [] ∧ y.1.channel = h.channel :=
      ⟨by simp [hoffers], hevents, hchannel⟩
    have hgoesOn (line line' : σ) (hline : Link.Indistinct line line') :=
      Host.trace_indistinct (a := ⟨y.1.channel, line⟩) (b := ⟨h.channel, line'⟩) hchannel hline
    obtain ⟨hbusy, rfl⟩ | ⟨hidle, hnil, rfl⟩ | ⟨hidle, hne, hlong, rfl⟩ := hcases
    · exact ⟨iff_of_true hreply hbusy, absurd hbusy, absurd hbusy, absurd hbusy, by simp [hreply],
        fun _ _ _ => ⟨hhost, hoffers⟩, hsame, fun _ _ => hgoesOn⟩
    · exact ⟨by simp [hreply, hidle], fun _ => iff_of_true hreply hnil, fun _ => absurd hnil,
        fun _ => absurd hnil, by simp [hreply], fun _ _ _ => ⟨hhost, hoffers⟩, hsame,
        fun _ _ => hgoesOn⟩
    · exact ⟨by simp [hreply, hidle], by simp [hreply, hne], fun _ _ => iff_of_true hreply hlong,
        fun _ _ => absurd hlong ∘ Nat.not_lt.2, by simp [hreply],
        fun _ _ _ => ⟨hhost, hoffers⟩, hsame, fun _ _ => hgoesOn⟩
  | refused hobjection hf hput hchannel hreply hoffers hevents =>
    obtain ⟨hidle, hne, hle⟩ := Sender.objection?_eq_none.1 hobjection
    rw [hcap] at hle
    refine ⟨?_, ?_, ?_, ?_, ?_, ?_, ?_, ?_⟩
    · simp [hreply, hidle]
    · simp [hreply, hne]
    · simpa [hreply] using fun _ _ => hle
    · refine fun _ _ _ => ⟨_, hf, ⟨_, hoffers⟩, ?_, ?_⟩
      · simp [hreply, hput]
      · simp [hreply, hput]
    · simp [hreply]
    · simp [hreply]
    · simp [hoffers, hevents, hchannel]
    · exact fun _ _ _ _ hline => Host.trace_indistinct hchannel hline
  | taken hobjection hf hput hreply hoffers =>
    obtain ⟨hidle, hne, hle⟩ := Sender.objection?_eq_none.1 hobjection
    rw [hcap] at hle
    refine ⟨?_, ?_, ?_, ?_, ?_, ?_, ?_, ?_⟩
    · simp [hreply, hidle]
    · simp [hreply, hne]
    · simpa [hreply] using fun _ _ => hle
    · refine fun _ _ _ => ⟨_, hf, ⟨_, hoffers⟩, ?_, ?_⟩
      · simp [hreply, hput]
      · simp [hreply, hput]
    all_goals simp [hreply]

/-- **A message that is not begun changes nothing.** At any moment of a run, whatever the link: a
message to be sent is turned away while another one is in flight, else if it is empty, else if it is
longer than the capacity, and else begun unless the link refuses its opening frame. In each of these
cases no frame is on the link, nothing is reported, and the channel is as it was in all its parts,
so that it goes on as if it had not been asked. But for the last case, the link has not been
either. -/
theorem send_all_or_nothing {c : Channel} (hc : Fresh cfg c) (line : σ)
    (calls : List (Instant × Op σ)) (now : Instant) (id : CanId) (payload : Bytes) :
    let h := Host.run ⟨c, line⟩ calls
    AllOrNothing cfg id payload h (h.step now (.sendAs id payload)) ∧
      AllOrNothing cfg cfg.txId payload h (h.step now (.send payload)) := by
  intro h
  obtain ⟨hsound, hsend, -⟩ := hc.sound
  have hcap : h.channel.sender.capacity = cfg.sendCapacity :=
    (hsound.run hsound.twin_refl line calls).1.sender.capacity.trans hsend
  obtain ⟨hcfg, hready⟩ := hc.ready
  rw [← hcfg] at hready
  obtain ⟨hsame, x, hx⟩ := Host.ready_run (h := ⟨c, line⟩) hready calls
  have hcfg' : h.channel.cfg = cfg := hsame.trans hcfg
  have hx' : h.channel.sender.Ready h.channel.cfg x := by
    rw [hcfg', ← hcfg]
    exact hx
  have hsendAs := Host.submits_sendAs hx' now id payload
  have hsend := Host.submits_send hx' now payload
  rw [hcfg'] at hsendAs hsend
  exact ⟨hsendAs.allOrNothing hcap, hsend.allOrNothing hcap⟩

/-- A message that the link refuses to take while another one comes in, and the calls after it. -/
theorem send_all_or_nothing_refused :
    let cfg : Config := { rxId := .standard 1, sendCapacity := 20, receiveCapacity := 20 }
    let c : Channel := ⟨cfg, cfg.policy, .new (.zeroed 20) 20, .new (.zeroed 20) 20⟩
    let calls : List (Instant × Op Quota) :=
      [(0, .frame ⟨.standard 1, [0x10, 8, 1, 2, 3, 4, 5, 6], false⟩)]
    let more : List (Instant × Op Quota) :=
      [(2, .frame ⟨.standard 1, [0x21, 7, 8], false⟩), (3, .setLine ⟨none⟩),
        (4, .send (.replicate 10 7)), (5, .send []), (6, .cancel), (7, .send (.replicate 21 7))]
    let h := Host.run ⟨c, (⟨some 1⟩ : Quota)⟩ calls
    let y := h.step 1 (.send (.replicate 10 7))
    Fresh cfg c ∧ y.2.reply = .verdict (.error (.link .refused)) ∧
      y.2.offers.map Offer.taken = [false] ∧ y.1.channel = h.channel ∧
      y.1.trace more = h.trace more ∧
      (h.trace more).map (fun k => k.offers.map Offer.taken) = [[], [], [true], [], [], []] := by
  intro cfg c calls more h y
  have hc : Fresh cfg c := .ofBuffers (.zeroed 20) (.zeroed 20) rfl
  have hreply : y.2.reply = .verdict (.error (.link .refused)) := rfl
  have hline : y.1.line = h.line := rfl
  have hsame : Link.Indistinct y.1.line h.line := by
    rw [hline]
    exact .refl _
  have hall :=
    (send_all_or_nothing hc (⟨some 1⟩ : Quota) calls 1 cfg.txId (.replicate 10 7)).2
  have hunchanged := hall.unchanged _ hreply
  exact ⟨hc, hreply, rfl, hunchanged.2.2, hall.goesOn _ hreply _ _ hsame more,
    by decide +kernel⟩

end Channel

end IsoTp
