import IsoTp.Channel.Host
import IsoTp.Proofs.Link.Offering
import IsoTp.Proofs.Runs
import IsoTp.Proofs.Sender.Cargo

/-!
What the calls of a channel come to, whatever its link.

The link's answers are all that is not known beforehand. Each relation lists what can come of a
call: the half of the channel that it leaves, the frames that it offers with the answers to them,
and what it yields or reports.
-/

namespace IsoTp

namespace Segmentation

/-- The data of a frame with a part of a message. -/
def IsPart (cfg : Config) (f : Bytes) : Prop :=
  ∃ (payload : Bytes) (k : Nat), Sendable cfg payload ∧ (frames cfg payload)[k]? = some f

variable {cfg : Config} {f : Bytes}

lemma IsPart.carriesPart (h : IsPart cfg f) (id : CanId) (remote : Bool) :
    Frame.carriesPart ⟨id, f, remote⟩ = true := by
  obtain ⟨payload, k, hs, hf⟩ := h
  exact (kind_frame hs hf id remote).1

lemma IsPart.length_le (h : IsPart cfg f) : f.length ≤ cfg.frameLength := by
  obtain ⟨payload, k, -, hf⟩ := h
  obtain ⟨u, -, hu⟩ := List.mem_filterMap.1 (List.mem_of_getElem? hf)
  exact Pdu.length_le_of_encode? hu

end Segmentation

open Segmentation

/-! ### The sender -/

namespace Sender

/-- What can come of a message to be sent: it is not let in, or the link refuses its opening frame
or takes it. -/
inductive Begins (cfg : Config) (now : Instant) (id : CanId) (payload : Bytes) (s : Sender)
    {ε : Type} : Sender → List Offer → Except (Error ε) (Option Event) → Prop
  | rejected (e : Error ε) : Begins cfg now id payload s s [] (.error e)
  | refused {f : Bytes} (hs : Sendable cfg payload) (hf : (frames cfg payload)[0]? = some f)
      (e : Error ε) : Begins cfg now id payload s s [⟨⟨id, f, false⟩, false⟩] (.error e)
  | taken {f : Bytes} (hidle : s.transfer? = none) (hs : Sendable cfg payload)
      (hcap : payload.length ≤ s.capacity) (hf : (frames cfg payload)[0]? = some f) :
      Begins cfg now id payload s (s.opened cfg now id payload).1 [⟨⟨id, f, false⟩, true⟩]
        (.ok (s.opened cfg now id payload).2)

/-- What can come of time for a sender: nothing is due, a timer expires, or the link refuses the
next consecutive frame or takes it. -/
inductive Advances (cfg : Config) (now : Instant) (s : Sender) :
    Sender → List Offer → Option Event → Prop
  | rest (hdue : s.due cfg now = .nothing) : Advances cfg now s s [] none
  | expired {timer : Timer} (hdue : s.due cfg now = .expired timer) :
      Advances cfg now s (s.giveUp (.timeout timer)).1 [] (s.giveUp (.timeout timer)).2
  | refused {t : Transfer} {o : Cargo} {f : Bytes} (hphase : s.phase = .sending t)
      (hc : t.Carries cfg s.buffer o) (hf : (frames cfg o.payload)[o.count]? = some f)
      (hdue : s.due cfg now = .frame t (o.chunk cfg)) :
      Advances cfg now s (s.refused now t) [⟨⟨o.id, f, false⟩, false⟩] none
  | taken {t : Transfer} {o : Cargo} {f : Bytes} (hphase : s.phase = .sending t)
      (hc : t.Carries cfg s.buffer o) (hf : (frames cfg o.payload)[o.count]? = some f)
      (hdue : s.due cfg now = .frame t (o.chunk cfg)) :
      Advances cfg now s (s.placed cfg now t (o.chunk cfg).length).1 [⟨⟨o.id, f, false⟩, true⟩]
        (s.placed cfg now t (o.chunk cfg).length).2

variable {σ ε : Type} [Link σ ε] {cfg : Config} {s : Sender} {x : Option Cargo}

lemma Begins.isPart {now : Instant} {id : CanId} {payload : Bytes} {s' : Sender}
    {new : List Offer} {value : Except (Error ε) (Option Event)}
    (h : s.Begins cfg now id payload s' new value) : ∀ o ∈ new, IsPart cfg o.frame.data := by
  cases h with
  | rejected => simp
  | refused hs hf => simpa using ⟨payload, 0, hs, hf⟩
  | taken _ hs _ hf => simpa using ⟨payload, 0, hs, hf⟩

lemma Advances.isPart {now : Instant} {s' : Sender} {new : List Offer} {event : Option Event}
    (h : s.Advances cfg now s' new event) : ∀ o ∈ new, IsPart cfg o.frame.data := by
  cases h with
  | rest | expired => simp
  | refused _ hc hf => simpa using ⟨_, _, hc.sendable, hf⟩
  | taken _ hc hf => simpa using ⟨_, _, hc.sendable, hf⟩

lemma due_eq_outOfBounds {now : Instant} (h : s.due cfg now = .outOfBounds) :
    ∃ t, s.phase = .sending t ∧
      s.buffer.read? t.offset (min (t.length - t.offset) cfg.consecutiveRoom) = none := by
  unfold due at h
  split at h
  · split at h <;> cases h
  · next t hphase =>
    split at h
    · cases h
    · split at h
      · cases h
      · split at h
        · cases h
        · split at h
          · cases h
          · next hread => exact ⟨t, hphase, hread⟩
  · cases h

lemma Ready.begins (h : s.Ready cfg x) (now : Instant) (id : CanId) (payload : Bytes)
    (line : Tap σ) :
    let turn := s.begin cfg now id payload line
    ∃ new, turn.line.offers = line.offers ++ new ∧
      Begins cfg now id payload s turn.sender new turn.value := by
  unfold Sender.begin
  split
  · exact ⟨[], (List.append_nil _).symm, .rejected _⟩
  · next pdu hok =>
    obtain ⟨rfl, hs, hcap, hopen⟩ := h.opening_eq_ok hok
    obtain ⟨f, hf⟩ : ∃ f, (frames cfg payload)[0]? = some f :=
      ⟨_, List.getElem?_eq_getElem (length_frames_pos hs)⟩
    obtain ⟨verdict, rest, hoffer⟩ := Link.offer_eq (hopen.symm.trans hf) id line
    rw [hoffer]
    cases verdict with
    | error e => exact ⟨_, rfl, .refused hs hf _⟩
    | ok _ => exact ⟨_, rfl, .taken h.holds hs hcap hf⟩

lemma Ready.advances (h : s.Ready cfg x) (now : Instant) (line : Tap σ) :
    let turn := s.advance cfg now line
    ∃ new, turn.line.offers = line.offers ++ new ∧
      Advances cfg now s turn.sender new turn.value := by
  have hcarries {t : Transfer} (hphase : s.phase = .sending t) := h.carries (t := t) (by
    simp only [transfer?, hphase])
  unfold Sender.advance
  split
  · next hdue => exact ⟨[], (List.append_nil _).symm, .rest hdue⟩
  · next hdue => exact ⟨[], (List.append_nil _).symm, .expired hdue⟩
  · next hdue => exact absurd hdue (due_ne_finished h.hasMore now _)
  · next hdue =>
    obtain ⟨t, hphase, hread⟩ := due_eq_outOfBounds hdue
    obtain ⟨o, -, hc⟩ := hcarries hphase
    rw [hc.read?] at hread
    cases hread
  · next t chunk hdue =>
    obtain ⟨hphase, hread⟩ := due_eq_frame hdue
    obtain ⟨o, -, hc⟩ := hcarries hphase
    rw [hc.read?] at hread
    cases hread
    obtain ⟨f, hf⟩ : ∃ f, (frames cfg o.payload)[o.count]? = some f :=
      ⟨_, List.getElem?_eq_getElem hc.lt_length⟩
    obtain ⟨verdict, rest, hoffer⟩ := Link.offer_eq (hc.getElem?_frames.symm.trans hf) t.id line
    rw [hoffer, hc.id]
    cases verdict with
    | error e => exact ⟨_, rfl, .refused hphase hc hf hdue⟩
    | ok _ => exact ⟨_, rfl, .taken hphase hc hf hdue⟩

end Sender

/-! ### The receiver -/

namespace Channel

/-- What can come of a unit's outcome: flow control is taken or put off, the refusal of a message is
offered once, and what ends a reception is reported. -/
inductive Resolves (now : Instant) (c : Channel) :
    Receiver.Outcome → Receiver → List Offer → List Event → Prop
  | none : Resolves now c .none c.receiver [] []
  | answered (fc : FlowControl) :
      Resolves now c (.answer fc) c.receiver [⟨fc.frame c.cfg, true⟩] []
  | postponed (fc : FlowControl) :
      Resolves now c (.answer fc) (c.receiver.postpone fc (c.cfg.clock.after now c.cfg.nAr))
        [⟨fc.frame c.cfg, false⟩] []
  | refusal (fc : FlowControl) (taken : Bool) :
      Resolves now c (.refusal fc) c.receiver [⟨fc.frame c.cfg, taken⟩] [.failed .receive .tooLong]
  | complete (len : Nat) :
      Resolves now c (.complete len) c.receiver [] [.received c.receiver.message]
  | failed (cause : Abort) : Resolves now c (.failed cause) c.receiver [] [.failed .receive cause]

/-- What can become of the flow control owed when time passes: there is none, or the link takes it
or refuses it again. -/
inductive Retries (now : Instant) (c : Channel) : Receiver → List Offer → Prop
  | nothing (howed : c.receiver.owed = none) : Retries now c c.receiver []
  | taken {fc : FlowControl} (howed : c.receiver.owed = some fc) :
      Retries now c (c.receiver.answered (c.cfg.clock.after now c.cfg.nCr)) [⟨fc.frame c.cfg, true⟩]
  | refused {fc : FlowControl} (howed : c.receiver.owed = some fc) :
      Retries now c c.receiver [⟨fc.frame c.cfg, false⟩]

variable {σ ε : Type} [Link σ ε] {c : Channel} (now : Instant) (line : Tap σ)

lemma resolves (hcfg : c.cfg.Valid) (outcome : Receiver.Outcome) :
    let turn := c.settle now outcome line
    ∃ r new, turn.channel = { c with receiver := r } ∧ turn.line.offers = line.offers ++ new ∧
      Resolves now c outcome r new turn.events := by
  have hoffers (fc : FlowControl) :=
    Link.offer_eq (FlowControl.encode?_frame hcfg fc) c.cfg.txId line
  unfold settle offerFlowControl
  cases outcome with
  | none => exact ⟨_, [], rfl, (List.append_nil _).symm, .none⟩
  | answer fc =>
    obtain ⟨verdict, rest, hoffer⟩ := hoffers fc
    simp only [hoffer]
    cases verdict with
    | error e => exact ⟨_, _, rfl, rfl, .postponed fc⟩
    | ok _ => exact ⟨_, _, rfl, rfl, .answered fc⟩
  | refusal fc =>
    obtain ⟨verdict, rest, hoffer⟩ := hoffers fc
    simp only [hoffer]
    exact ⟨_, _, rfl, rfl, .refusal fc _⟩
  | complete len => exact ⟨_, [], rfl, (List.append_nil _).symm, .complete len⟩
  | failed cause => exact ⟨_, [], rfl, (List.append_nil _).symm, .failed cause⟩

lemma retries (hcfg : c.cfg.Valid) :
    ∃ r new, (c.retryFlowControl now line).1 = { c with receiver := r } ∧
      (c.retryFlowControl now line).2.offers = line.offers ++ new ∧ Retries now c r new := by
  unfold retryFlowControl offerFlowControl
  cases howed : c.receiver.owed with
  | none => exact ⟨_, [], rfl, (List.append_nil _).symm, .nothing howed⟩
  | some fc =>
    obtain ⟨verdict, rest, hoffer⟩ :=
      Link.offer_eq (FlowControl.encode?_frame hcfg fc) c.cfg.txId line
    simp only [hoffer]
    cases verdict with
    | error e => exact ⟨_, _, rfl, rfl, .refused howed⟩
    | ok _ => exact ⟨_, _, rfl, rfl, .taken howed⟩

/-! ### Frames and time -/

/-- What can come of a frame: it is left to others, flow control goes to the sender, and every
other frame to the receiver. -/
inductive Accepts (now : Instant) (f : Frame) (c : Channel) :
    Channel → List Offer → List Event → Prop
  | foreign (hf : f.remote ∨ f.id ≠ c.cfg.rxId) : Accepts now f c c [] []
  | flowControl {status : FlowStatus} {blockSize stMin : UInt8}
      (hf : ¬(f.remote ∨ f.id ≠ c.cfg.rxId))
      (hread : Pdu.decode f.data = .flowControl status blockSize stMin) :
      Accepts now f c
        { c with sender := (c.sender.accept c.cfg now (.ofWire status blockSize stMin)).1 } []
        ((c.sender.accept c.cfg now (.ofWire status blockSize stMin)).2.toList.map sendEvent)
  | unit (hf : ¬(f.remote ∨ f.id ≠ c.cfg.rxId))
      (hread : ∀ status blockSize stMin, Pdu.decode f.data ≠ .flowControl status blockSize stMin)
      {r : Receiver} {new : List Offer} {events : List Event}
      (hresolves :
        let x := c.receiver.accept c.cfg c.policy now (Pdu.decode f.data)
        Resolves now { c with receiver := x.1 } x.2 r new events) :
      Accepts now f c { c with receiver := r } new events

lemma accepts (hcfg : c.cfg.Valid) (f : Frame) :
    let turn := c.accept now f line
    ∃ new, turn.line.offers = line.offers ++ new ∧
      Accepts now f c turn.channel new turn.events := by
  unfold accept
  split
  · next hf => exact ⟨[], (List.append_nil _).symm, .foreign hf⟩
  · next hf =>
    split
    · next hread => exact ⟨[], (List.append_nil _).symm, .flowControl hf hread⟩
    · next hread =>
      have hnot : ∀ status blockSize stMin,
          Pdu.decode f.data ≠ .flowControl status blockSize stMin := hread
      obtain ⟨r, new, hchannel, hoffers, hresolves⟩ := resolves now line
        (c := { c with receiver := (c.receiver.accept c.cfg c.policy now (Pdu.decode f.data)).1 })
        hcfg (c.receiver.accept c.cfg c.policy now (Pdu.decode f.data)).2
      refine ⟨new, hoffers, ?_⟩
      rw [hchannel]
      exact .unit hf hnot hresolves

/-- What can come of time: first the flow control owed is offered again, then the receiver's
deadline is looked at, and then it is the sender's turn. -/
inductive Elapses (now : Instant) (c : Channel) : Channel → List Offer → List Event → Prop
  | mk {r : Receiver} {s : Sender} {answers parts : List Offer} {event : Option Sender.Event}
      (hretries : Retries now c r answers)
      (hadvances : c.sender.Advances c.cfg now s parts event) :
      Elapses now c { c with receiver := (r.advance now).1, sender := s } (answers ++ parts)
        ((r.advance now).2.toList.map (.failed .receive) ++ event.toList.map sendEvent)

lemma elapses {x : Option Cargo} (h : c.sender.Ready c.cfg x) :
    let turn := c.advance now line
    ∃ new, turn.line.offers = line.offers ++ new ∧
      Elapses now c turn.channel new turn.events := by
  obtain ⟨r, answers, hchannel, hanswers, hretries⟩ := retries now line h.valid (c := c)
  unfold advance
  rcases hretry : c.retryFlowControl now line with ⟨c', line'⟩
  rw [hretry] at hchannel hanswers
  dsimp only at hchannel hanswers ⊢
  subst hchannel
  obtain ⟨parts, hparts, hadvances⟩ := h.advances now line'
  refine ⟨answers ++ parts, ?_, .mk hretries hadvances⟩
  rw [hparts, hanswers, List.append_assoc]

/-! ### Flow control frames -/

/-- A frame with flow control. -/
def IsAnswer (cfg : Config) (f : Frame) : Prop := ∃ fc : FlowControl, f = fc.frame cfg

lemma IsAnswer.carriesPart {cfg : Config} {f : Frame} (hcfg : cfg.Valid) (h : IsAnswer cfg f) :
    f.carriesPart = false := by
  obtain ⟨fc, rfl⟩ := h
  exact FlowControl.carriesPart_frame hcfg fc

section Answers

variable {x : Channel} {now : Instant} {r : Receiver} {new : List Offer} {events : List Event}

lemma Resolves.isAnswer {outcome : Receiver.Outcome} (h : Resolves now c outcome r new events) :
    ∀ o ∈ new, IsAnswer c.cfg o.frame := by
  cases h with
  | none | complete | failed => simp
  | answered fc | postponed fc | refusal fc => simpa using ⟨fc, rfl⟩

/-- A frame that comes in has nothing but flow control sent for it. -/
lemma Accepts.isAnswer {f : Frame} (h : Accepts now f c x new events) :
    ∀ o ∈ new, IsAnswer c.cfg o.frame := by
  cases h with
  | foreign | flowControl => simp
  | unit hf hread hresolves => exact hresolves.isAnswer

lemma Retries.isAnswer (h : Retries now c r new) : ∀ o ∈ new, IsAnswer c.cfg o.frame := by
  cases h with
  | nothing => simp
  | taken | refused => simpa using ⟨_, rfl⟩

lemma filter_answers {cfg : Config} (hcfg : cfg.Valid) (h : ∀ o ∈ new, IsAnswer cfg o.frame) :
    new.filter (·.frame.carriesPart) = [] :=
  List.filter_eq_nil_iff.2 fun o ho => by simp [(h o ho).carriesPart hcfg]

end Answers

/-! ### Sending -/

/-- What can come of a message to be sent. -/
inductive Sends (now : Instant) (id : CanId) (payload : Bytes) (c : Channel) {ε : Type} :
    Channel → List Offer → List Event → Except (Error ε) Unit → Prop
  | error {new : List Offer} {e : Error ε}
      (hbegins : c.sender.Begins c.cfg now id payload c.sender new (.error e)) :
      Sends now id payload c c new [] (.error e)
  | ok {s : Sender} {new : List Offer} {event : Option Sender.Event}
      (hbegins : c.sender.Begins (ε := ε) c.cfg now id payload s new (.ok event)) :
      Sends now id payload c { c with sender := s } new (event.toList.map sendEvent) (.ok ())

lemma sends {x : Option Cargo} (h : c.sender.Ready c.cfg x) (id : CanId) (payload : Bytes) :
    let turn := c.sendAs now id payload line
    ∃ new, turn.line.offers = line.offers ++ new ∧
      Sends now id payload c turn.channel new turn.events turn.value := by
  obtain ⟨new, hoffers, hbegins⟩ := h.begins now id payload line
  refine ⟨new, hoffers, ?_⟩
  unfold sendAs
  rcases hbegin : c.sender.begin c.cfg now id payload line with ⟨s, line', e | event⟩
  · rw [hbegin] at hbegins
    obtain rfl : s = c.sender := by
      cases hbegins <;> rfl
    exact .error hbegins
  · rw [hbegin] at hbegins
    exact .ok hbegins

/-! ### Calls -/

namespace Host

variable {h : Host σ} {x : Option Cargo}

@[simp] lemma step_now (op : Op σ) : (h.step now op).2.now = now := by cases op <;> rfl

@[simp] lemma step_op (op : Op σ) : (h.step now op).2.op = op := by cases op <;> rfl

@[simp] lemma step_before (op : Op σ) : (h.step now op).2.before = h.channel := by cases op <;> rfl

@[simp] lemma step_after (op : Op σ) : (h.step now op).2.after = (h.step now op).1.channel := by
  cases op <;> rfl

lemma step_frame (hcfg : h.channel.cfg.Valid) (f : Frame) :
    let y := h.step now (.frame f)
    Accepts now f h.channel y.1.channel y.2.offers y.2.events := by
  obtain ⟨new, hoffers, haccepts⟩ := accepts now (Tap.mk h.line []) hcfg f
  rw [← show _ = new from hoffers] at haccepts
  exact haccepts

lemma step_advance (hready : h.channel.sender.Ready h.channel.cfg x) :
    let y := h.step now .advance
    Elapses now h.channel y.1.channel y.2.offers y.2.events := by
  obtain ⟨new, hoffers, helapses⟩ := elapses now (Tap.mk h.line []) hready
  rw [← show _ = new from hoffers] at helapses
  exact helapses

lemma step_sendAs (hready : h.channel.sender.Ready h.channel.cfg x) (id : CanId)
    (payload : Bytes) :
    let y := h.step now (.sendAs id payload)
    ∃ value, y.2.reply = .verdict value ∧
      Sends now id payload h.channel y.1.channel y.2.offers y.2.events value := by
  obtain ⟨new, hoffers, hsends⟩ := sends now (Tap.mk h.line []) hready id payload
  rw [← show _ = new from hoffers] at hsends
  exact ⟨_, rfl, hsends⟩

lemma step_send (hready : h.channel.sender.Ready h.channel.cfg x) (payload : Bytes) :
    let y := h.step now (.send payload)
    ∃ value, y.2.reply = .verdict value ∧
      Sends now h.channel.cfg.txId payload h.channel y.1.channel y.2.offers y.2.events value :=
  step_sendAs now hready h.channel.cfg.txId payload

lemma trace_cons (h : Host σ) (call : Instant × Op σ) (calls : List (Instant × Op σ)) :
    h.trace (call :: calls) =
      (h.step call.1 call.2).2 :: (h.step call.1 call.2).1.trace calls := rfl

lemma stepwise :
    Stepwise (fun (h : Host σ) (call : Instant × Op σ) => h.step call.1 call.2) run trace :=
  ⟨fun _ => rfl, fun _ _ _ => rfl, fun _ => rfl, fun _ _ _ => rfl⟩

/-- A trace is cut where its calls are cut. -/
lemma split_trace_append {calls : List (Instant × Op σ)} {u v : List (Record σ ε)}
    (hsplit : h.trace calls = u ++ v) :
    ∃ earlier later, calls = earlier ++ later ∧ u = h.trace earlier ∧
      v = (h.run earlier).trace later :=
  stepwise.split_append hsplit

lemma split_trace {calls : List (Instant × Op σ)} {u v : List (Record σ ε)} {y : Record σ ε}
    (hsplit : h.trace calls = u ++ y :: v) :
    ∃ earlier call later, calls = earlier ++ call :: later ∧ u = h.trace earlier ∧
      y = ((h.run earlier).step call.1 call.2).2 ∧
      v = ((h.run earlier).step call.1 call.2).1.trace later :=
  stepwise.split hsplit

end Host

end Channel

end IsoTp
