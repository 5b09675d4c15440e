import IsoTp.Proofs.Channel.Outcome
import IsoTp.Proofs.Channel.Willing

/-!
Two channels of which one half is the same.

The other halves may differ in everything. On links that take every frame, a call for the half in
common does the same to it in both channels, and a call for the other half does nothing to it: what
that puts on the link is of another kind, and what it reports is of the other direction.
-/

namespace IsoTp

/-! ### Whose frames, events and calls -/

namespace Direction

/-- The kinds of frames that a half sends: parts of messages, or flow control. -/
def sends : Direction → Option Nat → Bool
  | .send, kind => kind.any (· ≤ 2)
  | .receive, kind => kind = some 3

/-- What a half consists of: the sender, or the receiver and what it grants. -/
def Half : Direction → Type
  | .send => Sender
  | .receive => FlowPolicy × Receiver

end Direction

/-- The half that an event concerns. -/
def Event.direction : Event → Direction
  | .sent _ => .send
  | .received _ => .receive
  | .failed direction _ => direction

/-- Flow control under the identifier that a channel listens to. -/
def Frame.isFlowControlFor (cfg : Config) (f : Frame) : Bool :=
  !f.remote && f.id = cfg.rxId && (Pdu.decode f.data).kind? = some 3

namespace Channel

def half : (d : Direction) → Channel → d.Half
  | .send, c => c.sender
  | .receive, c => (c.policy, c.receiver)

/-- The events that concern a half. -/
def eventsOf (d : Direction) (events : List Event) : List Event :=
  events.filter (·.direction = d)

/-- The calls that concern a half. Time and the link concern both; of the frames, flow control under
the identifier that the channel listens to concerns the sender, and the others the receiver. -/
def Op.concerns {σ : Type} (cfg : Config) : Direction → Op σ → Bool
  | _, .advance | _, .setLine _ => true
  | .send, .frame f => f.isFlowControlFor cfg
  | .receive, .frame f => !f.isFlowControlFor cfg
  | d, .send _ | d, .sendAs .. | d, .cancel => d = .send
  | d, .collect _ | d, .setPolicy _ => d = .receive

end Channel

/-! ### Two taps -/

section Taps

variable {σ ε : Type} [Link σ ε] {d : Direction} {t t' : Tap σ}

/-- Two links that take every frame and have taken the same frames of one half. -/
structure Tap.Alike (d : Direction) (t t' : Tap σ) : Prop where
  willing : Link.Willing t.line
  willing' : Link.Willing t'.line
  frames : t.taken.filter (d.sends ·.kind?) = t'.taken.filter (d.sends ·.kind?)

namespace Tap.Alike

lemma symm (h : t.Alike d t') : t'.Alike d t := ⟨h.willing', h.willing, h.frames.symm⟩

/-- The same unit offered to both. -/
lemma offer (h : t.Alike d t') (cfg : Config) (id : CanId) (pdu : Pdu) :
    ∃ verdict l l', Link.offer cfg id pdu t = (verdict, l) ∧
      Link.offer cfg id pdu t' = (verdict, l') ∧ l.Alike d l' := by
  cases hdata : cfg.encode? pdu with
  | none =>
    refine ⟨.error .unencodable, t, t', ?_, ?_, h⟩
    · simp only [Link.offer, hdata]
    · simp only [Link.offer, hdata]
  | some data =>
    obtain ⟨l, hoffer, htaken, hwilling⟩ := Channel.offer_of_willing h.willing hdata id
    obtain ⟨l', hoffer', htaken', hwilling'⟩ := Channel.offer_of_willing h.willing' hdata id
    refine ⟨.ok (), l, l', hoffer, hoffer', hwilling, hwilling', ?_⟩
    rw [htaken, htaken', List.filter_append, List.filter_append, h.frames]

/-- A unit of the other half offered to one of them. -/
lemma offer_left (h : t.Alike d t') (cfg : Config) (id : CanId) {pdu : Pdu}
    (hpdu : d.sends pdu.kind? = false) : (Link.offer cfg id pdu t).2.Alike d t' := by
  cases hdata : cfg.encode? pdu with
  | none =>
    simp only [Link.offer, hdata]
    exact h
  | some data =>
    obtain ⟨l, hoffer, htaken, hwilling⟩ := Channel.offer_of_willing h.willing hdata id
    have hkind : Frame.kind? ⟨id, data, false⟩ = pdu.kind? := Frame.kind?_of_encode? hdata
    rw [hoffer]
    refine ⟨hwilling, h.willing', ?_⟩
    rw [htaken, List.filter_append, List.filter_cons_of_neg (by simp [hkind, hpdu]),
      List.filter_nil, List.append_nil, h.frames]

end Tap.Alike

end Taps

/-! ### The sender -/

namespace Sender

variable {σ ε : Type} [Link σ ε] {d : Direction} {t t' : Tap σ} {s : Sender}

/-- A call that comes out the same on two links. -/
structure Turn.Alike {α : Type} (d : Direction) (turn turn' : Turn (Tap σ) α) : Prop where
  sender : turn.sender = turn'.sender
  value : turn.value = turn'.value
  line : turn.line.Alike d turn'.line

lemma kind?_of_opening {cfg : Config} {payload : Bytes} {pdu : Pdu}
    (h : s.opening (ε := ε) cfg payload = .ok pdu) : pdu.kind? = some 0 ∨ pdu.kind? = some 1 := by
  unfold opening at h
  dsimp only at h
  repeat' split at h
  all_goals cases h
  · exact .inl rfl
  · exact .inr rfl

lemma begin_alike (h : t.Alike d t') (cfg : Config) (now : Instant) (id : CanId)
    (payload : Bytes) :
    (s.begin cfg now id payload t).Alike d (s.begin cfg now id payload t') := by
  unfold Sender.begin
  split
  · exact ⟨rfl, rfl, h⟩
  · next pdu hok =>
    obtain ⟨verdict, l, l', hoffer, hoffer', hline⟩ := h.offer cfg id pdu
    rw [hoffer, hoffer']
    cases verdict with
    | error e => exact ⟨rfl, rfl, hline⟩
    | ok _ => exact ⟨rfl, rfl, hline⟩

lemma begin_apart (h : t.Alike .receive t') (cfg : Config) (now : Instant) (id : CanId)
    (payload : Bytes) : (s.begin cfg now id payload t).line.Alike .receive t' := by
  unfold Sender.begin
  split
  · exact h
  · next pdu hok =>
    have hpdu : Direction.receive.sends pdu.kind? = false := by
      rcases kind?_of_opening hok with hkind | hkind <;> rw [hkind] <;> rfl
    have hline := h.offer_left cfg id hpdu
    split
    · next hoffer => rwa [hoffer] at hline
    · next hoffer => rwa [hoffer] at hline

lemma advance_alike (h : t.Alike d t') (cfg : Config) (now : Instant) :
    (s.advance cfg now t).Alike d (s.advance cfg now t') := by
  unfold Sender.advance
  cases s.due cfg now with
  | nothing | expired | finished | outOfBounds => exact ⟨rfl, rfl, h⟩
  | frame transfer chunk =>
    obtain ⟨verdict, l, l', hoffer, hoffer', hline⟩ :=
      h.offer cfg transfer.id (.consecutive (.ofNat transfer.nextSn) chunk)
    simp only [hoffer, hoffer']
    cases verdict with
    | error e => exact ⟨rfl, rfl, hline⟩
    | ok _ => exact ⟨rfl, rfl, hline⟩

lemma advance_apart (h : t.Alike .receive t') (cfg : Config) (now : Instant) :
    (s.advance cfg now t).line.Alike .receive t' := by
  unfold Sender.advance
  cases s.due cfg now with
  | nothing | expired | finished | outOfBounds => exact h
  | frame transfer chunk =>
    have hpart : Direction.receive.sends (Pdu.consecutive (.ofNat transfer.nextSn) chunk).kind? =
        false := rfl
    have hline := h.offer_left cfg transfer.id hpart
    dsimp only
    split
    · next hoffer => rwa [hoffer] at hline
    · next hoffer => rwa [hoffer] at hline

end Sender

/-! ### Calls of a channel -/

namespace Channel

/-- Two channels with the same parameters, of which one half is the same. -/
structure Alike (d : Direction) (c c' : Channel) : Prop where
  cfg : c.cfg = c'.cfg
  half : c.half d = c'.half d

lemma Alike.refl (d : Direction) (c : Channel) : Alike d c c := ⟨rfl, rfl⟩

/-- Channels with the same sender differ in the other half at most. -/
lemma Alike.eq_of_send {c c' : Channel} (h : Alike .send c c') :
    ∃ policy receiver, c' = { c with policy, receiver } := by
  obtain ⟨cfg, policy, s, r⟩ := c
  obtain ⟨cfg', policy', s', r'⟩ := c'
  obtain rfl : cfg = cfg' := h.cfg
  obtain rfl : s = s' := h.half
  exact ⟨policy', r', rfl⟩

/-- Channels with the same receiver and policy differ in the sender at most. -/
lemma Alike.eq_of_receive {c c' : Channel} (h : Alike .receive c c') :
    ∃ sender, c' = { c with sender } := by
  obtain ⟨cfg, policy, s, r⟩ := c
  obtain ⟨cfg', policy', s', r'⟩ := c'
  obtain rfl : cfg = cfg' := h.cfg
  obtain ⟨rfl, rfl⟩ : policy = policy' ∧ r = r' := Prod.ext_iff.1 h.half
  exact ⟨s', rfl⟩

lemma Alike.cancel {c c' : Channel} (h : Alike .send c c') : Alike .send c.cancel c'.cancel :=
  ⟨h.cfg, congrArg Sender.cancel h.half⟩

lemma Alike.setPolicy {c c' : Channel} (h : Alike .receive c c') (policy : FlowPolicy) :
    Alike .receive (c.setPolicy policy) (c'.setPolicy policy) := by
  obtain ⟨s, rfl⟩ := h.eq_of_receive
  exact ⟨rfl, rfl⟩

lemma Alike.collect {c c' : Channel} (h : Alike .receive c c') (room : Nat) :
    (c.collect room).1.Alike .receive (c'.collect room).1 ∧
      (c.collect room).2 = (c'.collect room).2 := by
  obtain ⟨s, rfl⟩ := h.eq_of_receive
  exact ⟨⟨rfl, rfl⟩, rfl⟩

lemma eventsOf_append (d : Direction) (u v : List Event) :
    eventsOf d (u ++ v) = eventsOf d u ++ eventsOf d v := List.filter_append ..

/-- A sender's event concerns the sender. -/
lemma eventsOf_sendEvent (event : Option Sender.Event) :
    eventsOf .receive (event.toList.map sendEvent) = [] := by
  rcases event with _ | ⟨len⟩ | cause <;> rfl

/-- A reception that fails with time concerns the receiver. -/
lemma eventsOf_expired (cause : Option Abort) :
    eventsOf .send (cause.toList.map (.failed .receive)) = [] := by
  cases cause <;> rfl

variable {σ ε : Type} [Link σ ε] {d : Direction} {t t' : Tap σ} {c c' : Channel}

/-- A call that comes out the same for one half of two channels. -/
structure Turn.Alike {α : Type} (d : Direction) (turn turn' : Turn (Tap σ) α) : Prop where
  channel : turn.channel.Alike d turn'.channel
  line : turn.line.Alike d turn'.line
  events : eventsOf d turn.events = eventsOf d turn'.events

/-- A call that does nothing to one half of a channel. -/
structure Turn.Apart {α : Type} (d : Direction) (c' : Channel) (t' : Tap σ)
    (turn : Turn (Tap σ) α) : Prop where
  channel : turn.channel.Alike d c'
  line : turn.line.Alike d t'
  events : eventsOf d turn.events = []

/-! #### Sending -/

lemma sendAs_alike (hc : Alike .send c c') (ht : t.Alike .send t') (now : Instant) (id : CanId)
    (payload : Bytes) :
    (c.sendAs now id payload t).Alike .send (c'.sendAs now id payload t') ∧
      (c.sendAs now id payload t).value = (c'.sendAs now id payload t').value := by
  obtain ⟨policy, r, rfl⟩ := hc.eq_of_send
  have hbegin := Sender.begin_alike (s := c.sender) ht c.cfg now id payload
  refine ⟨⟨⟨rfl, hbegin.sender⟩, hbegin.line, ?_⟩, ?_⟩
  · simp only [sendAs, hbegin.value]
  · simp only [sendAs, hbegin.value]

lemma send_alike (hc : Alike .send c c') (ht : t.Alike .send t') (now : Instant)
    (payload : Bytes) :
    (c.send now payload t).Alike .send (c'.send now payload t') ∧
      (c.send now payload t).value = (c'.send now payload t').value := by
  have hsend := sendAs_alike hc ht now c.cfg.txId payload
  rw [send, send, ← hc.cfg]
  exact hsend

lemma sendAs_apart (hc : Alike .receive c c') (ht : t.Alike .receive t') (now : Instant)
    (id : CanId) (payload : Bytes) : (c.sendAs now id payload t).Apart .receive c' t' := by
  refine ⟨⟨hc.cfg, hc.half⟩, Sender.begin_apart ht c.cfg now id payload, ?_⟩
  simp only [sendAs]
  split
  · exact eventsOf_sendEvent _
  · rfl

/-! #### Frames -/

lemma settle_alike (hc : Alike .receive c c') (ht : t.Alike .receive t') (now : Instant)
    (outcome : Receiver.Outcome) :
    (c.settle now outcome t).Alike .receive (c'.settle now outcome t') ∧
      (c.settle now outcome t).value = (c'.settle now outcome t').value := by
  obtain ⟨s, rfl⟩ := hc.eq_of_receive
  unfold settle offerFlowControl
  cases outcome with
  | none | complete | failed => exact ⟨⟨hc, ht, rfl⟩, rfl⟩
  | answer fc =>
    obtain ⟨verdict, l, l', hoffer, hoffer', hline⟩ := ht.offer c.cfg c.cfg.txId fc.toPdu
    simp only [hoffer, hoffer']
    cases verdict with
    | error e => exact ⟨⟨⟨rfl, rfl⟩, hline, rfl⟩, rfl⟩
    | ok _ => exact ⟨⟨hc, hline, rfl⟩, rfl⟩
  | refusal fc =>
    obtain ⟨verdict, l, l', hoffer, hoffer', hline⟩ := ht.offer c.cfg c.cfg.txId fc.toPdu
    simp only [hoffer, hoffer']
    exact ⟨⟨hc, hline, rfl⟩, trivial⟩

lemma settle_apart (hc : Alike .send c c') (ht : t.Alike .send t') (now : Instant)
    (outcome : Receiver.Outcome) : (c.settle now outcome t).Apart .send c' t' := by
  have hflow (fc : FlowControl) : (Link.offer c.cfg c.cfg.txId fc.toPdu t).2.Alike .send t' :=
    ht.offer_left c.cfg c.cfg.txId rfl
  unfold settle offerFlowControl
  cases outcome with
  | none | complete | failed => exact ⟨hc, ht, rfl⟩
  | answer fc =>
    specialize hflow fc
    dsimp only
    split
    · next hoffer => exact ⟨hc, by rwa [hoffer] at hflow, rfl⟩
    · next hoffer => exact ⟨⟨hc.cfg, hc.half⟩, by rwa [hoffer] at hflow, rfl⟩
  | refusal fc => exact ⟨hc, hflow fc, rfl⟩

lemma isFlowControlFor_iff {cfg : Config} {f : Frame} : f.isFlowControlFor cfg ↔
    ¬(f.remote ∨ f.id ≠ cfg.rxId) ∧
      ∃ status blockSize stMin, Pdu.decode f.data = .flowControl status blockSize stMin := by
  unfold Frame.isFlowControlFor
  cases hread : Pdu.decode f.data <;> simp [Pdu.kind?]

/-- Flow control under the channel's identifier is for the sender. -/
lemma accept_own_flowControl {f : Frame} (hf : f.isFlowControlFor c.cfg) (now : Instant) :
    ∃ fc : FlowControl, ∀ (c' : Channel) (t : Tap σ), c'.cfg = c.cfg → c'.accept now f t =
      ⟨{ c' with sender := (c'.sender.accept c.cfg now fc).1 }, t, .ok (),
        (c'.sender.accept c.cfg now fc).2.toList.map sendEvent⟩ := by
  obtain ⟨hown, status, blockSize, stMin, hread⟩ := isFlowControlFor_iff.1 hf
  refine ⟨.ofWire status blockSize stMin, fun c' t hcfg => ?_⟩
  unfold accept
  rw [hcfg, if_neg hown]
  simp only [hread]

/-- Every other frame under that identifier is for the receiver. -/
lemma accept_own_unit {f : Frame} (hown : ¬(f.remote ∨ f.id ≠ c.cfg.rxId))
    (hf : f.isFlowControlFor c.cfg = false) (now : Instant) (t : Tap σ) :
    c.accept now f t =
      let x := c.receiver.accept c.cfg c.policy now (Pdu.decode f.data)
      { c with receiver := x.1 }.settle now x.2 t := by
  have hread : ∀ status blockSize stMin,
      Pdu.decode f.data ≠ .flowControl status blockSize stMin := by
    intro status blockSize stMin hread
    rw [isFlowControlFor_iff.2 ⟨hown, _, _, _, hread⟩] at hf
    cases hf
  unfold accept
  rw [if_neg hown]
  split
  · next h => exact absurd h (hread _ _ _)
  · rfl

/-- A frame of either sort acts on the half it is for, and in the same way whatever the other half
is. -/
lemma accept_alike (hc : Alike d c c') (ht : t.Alike d t') (now : Instant) {f : Frame}
    (hf : (Op.frame f : Op σ).concerns c.cfg d) :
    (c.accept now f t).Alike d (c'.accept now f t') ∧
      (c.accept now f t).value = (c'.accept now f t').value := by
  cases d with
  | send =>
    obtain ⟨fc, haccept⟩ := accept_own_flowControl (σ := σ) (ε := ε) hf now
    have hsender : c.sender = c'.sender := hc.half
    rw [haccept c t rfl, haccept c' t' hc.cfg.symm, hsender]
    exact ⟨⟨⟨hc.cfg, rfl⟩, ht, rfl⟩, rfl⟩
  | receive =>
    have hother : f.isFlowControlFor c.cfg = false := by simpa [Op.concerns] using hf
    by_cases hforeign : f.remote ∨ f.id ≠ c.cfg.rxId
    · rw [accept_foreign now t hforeign, accept_foreign now t' (hc.cfg ▸ hforeign)]
      exact ⟨⟨hc, ht, rfl⟩, rfl⟩
    · rw [accept_own_unit hforeign hother, accept_own_unit (hc.cfg ▸ hforeign) (hc.cfg ▸ hother)]
      obtain ⟨s, rfl⟩ := hc.eq_of_receive
      dsimp only
      generalize c.receiver.accept c.cfg c.policy now (Pdu.decode f.data) = x
      refine settle_alike ?_ ht now x.2
      exact ⟨rfl, rfl⟩

/-- A frame for the other half does nothing to this one. -/
lemma accept_apart (hc : Alike d c c') (ht : t.Alike d t') (now : Instant) {f : Frame}
    (hf : (Op.frame f : Op σ).concerns c.cfg d = false) :
    (c.accept now f t).Apart d c' t' := by
  cases d with
  | send =>
    by_cases hforeign : f.remote ∨ f.id ≠ c.cfg.rxId
    · rw [accept_foreign now t hforeign]
      exact ⟨hc, ht, rfl⟩
    · rw [accept_own_unit hforeign hf]
      generalize c.receiver.accept c.cfg c.policy now (Pdu.decode f.data) = x
      exact settle_apart (c := { c with receiver := x.1 }) ⟨hc.cfg, hc.half⟩ ht now x.2
  | receive =>
    have hflow : f.isFlowControlFor c.cfg = true := by simpa [Op.concerns] using hf
    obtain ⟨fc, haccept⟩ := accept_own_flowControl (σ := σ) (ε := ε) hflow now
    rw [haccept c t rfl]
    exact ⟨⟨hc.cfg, hc.half⟩, ht, eventsOf_sendEvent _⟩

/-! #### Time -/

lemma retryFlowControl_alike (hc : Alike .receive c c') (ht : t.Alike .receive t')
    (now : Instant) :
    (c.retryFlowControl now t).1.Alike .receive (c'.retryFlowControl now t').1 ∧
      (c.retryFlowControl now t).2.Alike .receive (c'.retryFlowControl now t').2 := by
  obtain ⟨s, rfl⟩ := hc.eq_of_receive
  unfold retryFlowControl offerFlowControl
  dsimp only
  cases c.receiver.owed with
  | none => exact ⟨hc, ht⟩
  | some fc =>
    obtain ⟨verdict, l, l', hoffer, hoffer', hline⟩ := ht.offer c.cfg c.cfg.txId fc.toPdu
    simp only [hoffer, hoffer']
    cases verdict with
    | error e => exact ⟨hc, hline⟩
    | ok _ => exact ⟨⟨rfl, rfl⟩, hline⟩

lemma retryFlowControl_apart (hc : Alike .send c c') (ht : t.Alike .send t') (now : Instant) :
    (c.retryFlowControl now t).1.Alike .send c' ∧
      (c.retryFlowControl now t).2.Alike .send t' := by
  unfold retryFlowControl offerFlowControl
  split
  · exact ⟨hc, ht⟩
  · next fc howed =>
    have hflow : (Link.offer c.cfg c.cfg.txId fc.toPdu t).2.Alike .send t' :=
      ht.offer_left c.cfg c.cfg.txId rfl
    split
    · next hoffer => exact ⟨hc, by rwa [hoffer] at hflow⟩
    · next hoffer => exact ⟨⟨hc.cfg, hc.half⟩, by rwa [hoffer] at hflow⟩

/-- As time passes, each half goes its own way. -/
lemma advance_alike (hc : Alike d c c') (ht : t.Alike d t') (now : Instant) :
    (c.advance now t).Alike d (c'.advance now t') := by
  unfold Channel.advance
  cases d with
  | send =>
    -- what the receivers owe goes out first, and may go out in one channel only
    obtain ⟨hleft, hline⟩ := retryFlowControl_apart hc ht now
    obtain ⟨hright, hline'⟩ :=
      retryFlowControl_apart ⟨hleft.cfg.symm, hleft.half.symm⟩ hline.symm now
    generalize c.retryFlowControl now t = x at hright hline' ⊢
    generalize c'.retryFlowControl now t' = x' at hright hline' ⊢
    obtain ⟨x, l⟩ := x
    obtain ⟨x', l'⟩ := x'
    obtain ⟨policy, r, rfl⟩ := hright.eq_of_send
    have hturn := Sender.advance_alike (s := x'.sender) hline'.symm x'.cfg now
    refine ⟨⟨rfl, hturn.sender⟩, hturn.line, ?_⟩
    simp only [eventsOf_append, eventsOf_expired, hturn.value]
  | receive =>
    obtain ⟨hchannel, hline⟩ := retryFlowControl_alike hc ht now
    generalize c.retryFlowControl now t = x at hchannel hline ⊢
    generalize c'.retryFlowControl now t' = x' at hchannel hline ⊢
    obtain ⟨x, l⟩ := x
    obtain ⟨x', l'⟩ := x'
    obtain ⟨s, rfl⟩ := hchannel.eq_of_receive
    refine ⟨⟨rfl, rfl⟩, ?_, ?_⟩
    · have hleft := Sender.advance_apart (s := x.sender) hline x.cfg now
      exact (Sender.advance_apart (s := s) hleft.symm x.cfg now).symm
    · simp only [eventsOf_append, eventsOf_sendEvent]

end Channel

end IsoTp
