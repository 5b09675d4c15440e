import IsoTp.Proofs.Channel.Outcome
import IsoTp.Proofs.Channel.Transmission

/-!
Which frames a channel offers to its link.

Every size that the two halves of a channel work out is one that the encoder takes: what they have
to write always has a frame, and if it does not go out, that is the link's doing. The frames are of
sizes that exist on the bus, and no call offers more than one for each half.
-/

namespace IsoTp

open Segmentation

/-- A frame for a link with these parameters: it is not empty, no longer than the frame length and
of a size that exists on the bus, and with padding it has the frame length. -/
structure Frame.Lawful (cfg : Config) (f : Frame) : Prop where
  length_pos : 1 ≤ f.data.length
  length_le : f.data.length ≤ cfg.frameLength
  size : f.data.length ≤ 8 ∨ f.data.length ∈ [12, 16, 20, 24, 32, 48, 64]
  padded : cfg.padding.isSome → f.data.length = cfg.frameLength

lemma Frame.lawful_of_encode? {cfg : Config} {f : Frame} {pdu : Pdu}
    (h : cfg.encode? pdu = some f.data) : f.Lawful cfg := by
  obtain ⟨hpos, hsize, hpadded⟩ := Pdu.size_of_encode? h
  refine ⟨hpos, Pdu.length_le_of_encode? h, ?_, hpadded⟩
  rcases hsize with hclassic | hlegal
  · exact .inl hclassic
  · rcases List.mem_cons.1 hlegal with heq | hmem
    · exact .inl (Nat.le_of_eq heq)
    · exact .inr hmem

lemma Segmentation.IsPart.lawful {cfg : Config} {f : Frame} (h : IsPart cfg f.data) :
    f.Lawful cfg := by
  obtain ⟨payload, k, -, hf⟩ := h
  obtain ⟨u, -, hu⟩ := List.mem_filterMap.1 (List.mem_of_getElem? hf)
  exact Frame.lawful_of_encode? hu

/-- The next consecutive frame of a transfer may go out: the separation time is over, and the link
has not refused the frame for too long. -/
structure Transfer.MayGoOn (cfg : Config) (now : Instant) (t : Transfer) : Prop where
  gap : ∀ last, t.lastSent = some last → cfg.clock.after last t.stMin ≤ now
  patience : ∀ since, t.refusedSince = some since → now < cfg.clock.after since cfg.nCs

/-! ### The sender -/

namespace Sender

/-- What a sender offers as time passes: at most the next consecutive frame, under the identifier of
its transfer. It does offer that if it may go out, and it stalls if the link refuses it and for no
other reason. -/
structure GoesOn (cfg : Config) (now : Instant) (s s' : Sender) (new : List Offer) : Prop where
  length_le : new.length ≤ 1
  consecutive : ∀ o ∈ new, (Pdu.decode o.frame.data).kind? = some 2 ∧
    ∃ t, s.phase = .sending t ∧ o.frame.id = t.id
  due : ∀ t, s.phase = .sending t → t.MayGoOn cfg now → new ≠ []
  stalled_iff : ∀ o ∈ new, s'.progress = .stalled ↔ o.taken = false
  stalled : new = [] → s'.progress = .stalled → s.progress = .stalled

variable {cfg : Config} {now : Instant} {s s' : Sender} {x : Option Cargo} {t : Transfer}
  {new : List Offer}

lemma Ready.due_of_mayGoOn (h : s.Ready cfg x) (hphase : s.phase = .sending t)
    (hgo : t.MayGoOn cfg now) : ∃ chunk, s.due cfg now = .frame t chunk := by
  obtain ⟨o, -, hc⟩ := h.carries (t := t) (by simp only [transfer?, hphase])
  have hpatience : ¬t.refusedSince.any (cfg.clock.after · cfg.nCs ≤ now) := by
    rw [Option.any_eq_true]
    rintro ⟨since, hsince, hle⟩
    exact Nat.not_le.2 (hgo.patience since hsince) (of_decide_eq_true hle)
  have hgap : ¬t.lastSent.any (now < cfg.clock.after · t.stMin) := by
    rw [Option.any_eq_true]
    rintro ⟨last, hlast, hlt⟩
    exact Nat.not_lt.2 (hgo.gap last hlast) (of_decide_eq_true hlt)
  refine ⟨o.chunk cfg, ?_⟩
  rw [due_of_hasMore h.hasMore hphase, if_neg hpatience, if_neg hgap, hc.read?]

lemma progress_placed_ne (count : Nat) : (s.placed cfg now t count).1.progress ≠ .stalled := by
  unfold placed finish
  dsimp only
  repeat' split
  all_goals simp [progress]

/-- The next frame of a message is the consecutive frame of its transfer. -/
lemma kind?_of_carries {buffer : Buffer} {o : Cargo} {f : Bytes} (hc : t.Carries cfg buffer o)
    (hf : (frames cfg o.payload)[o.count]? = some f) : (Pdu.decode f).kind? = some 2 :=
  Pdu.kind?_decode_of_encode? (hc.getElem?_frames.symm.trans hf)

lemma Ready.goesOn {event : Option Event} (h : s.Ready cfg x)
    (hadvances : s.Advances cfg now s' new event) : s.GoesOn cfg now s' new := by
  have hdue {t : Transfer} (hphase : s.phase = .sending t) (hgo : t.MayGoOn cfg now) :=
    h.due_of_mayGoOn hphase hgo
  cases hadvances with
  | rest hnothing =>
    refine ⟨Nat.zero_le _, List.forall_mem_nil _, fun t hphase hgo => ?_, List.forall_mem_nil _,
      fun _ => id⟩
    obtain ⟨chunk, hframe⟩ := hdue hphase hgo
    cases hnothing.symm.trans hframe
  | expired htimer =>
    refine ⟨Nat.zero_le _, List.forall_mem_nil _, fun t hphase hgo => ?_, List.forall_mem_nil _,
      fun _ hstalled => ?_⟩
    · obtain ⟨chunk, hframe⟩ := hdue hphase hgo
      cases htimer.symm.trans hframe
    · cases hstalled
  | refused hphase hc hf =>
    refine ⟨Nat.le_refl _, ?_, fun _ _ _ => List.cons_ne_nil _ _, ?_, nofun⟩
    · exact List.forall_mem_singleton.2 ⟨kind?_of_carries hc hf, _, hphase, hc.id.symm⟩
    · exact List.forall_mem_singleton.2 (iff_of_true rfl rfl)
  | taken hphase hc hf =>
    refine ⟨Nat.le_refl _, ?_, fun _ _ _ => List.cons_ne_nil _ _, ?_, nofun⟩
    · exact List.forall_mem_singleton.2 ⟨kind?_of_carries hc hf, _, hphase, hc.id.symm⟩
    · simp [progress_placed_ne]

lemma Begins.length_le {ε : Type} {id : CanId} {payload : Bytes}
    {value : Except (Error ε) (Option Event)} (h : s.Begins cfg now id payload s' new value) :
    new.length ≤ 1 := by
  cases h with
  | rejected => exact Nat.zero_le _
  | refused | taken => exact Nat.le_refl _

/-- No message is turned down for want of a frame. -/
lemma opening_ne_unencodable {ε : Type} {payload : Bytes} :
    s.opening (ε := ε) cfg payload ≠ .error .unencodable := by
  unfold opening
  dsimp only
  repeat' split
  all_goals simp

lemma Ready.begin_ne_unencodable {σ ε : Type} [Link σ ε] (h : s.Ready cfg x) (now : Instant)
    (id : CanId) (payload : Bytes) (line : Tap σ) :
    (s.begin cfg now id payload line).value ≠ .error .unencodable := by
  unfold Sender.begin
  split
  · next e hrejected =>
    rintro ⟨⟩
    exact opening_ne_unencodable hrejected
  · next pdu hok =>
    obtain ⟨-, hs, -, hopen⟩ := h.opening_eq_ok hok
    obtain ⟨f, hf⟩ : ∃ f, (frames cfg payload)[0]? = some f :=
      ⟨_, List.getElem?_eq_getElem (length_frames_pos hs)⟩
    have hne := Link.offer_ne_unencodable (hopen.symm.trans hf) id line
    split
    · next e line' hoffer =>
      rw [hoffer] at hne
      rintro ⟨⟩
      exact hne rfl
    · simp

end Sender

namespace Channel

/-! ### What a channel has to write -/

/-- Whatever a channel has to write has a frame: what opens a message that is let in, the next part
of a message under way, and flow control. -/
structure Encodes (c : Channel) : Prop where
  opening : ∀ (ε : Type) payload pdu, c.sender.opening (ε := ε) c.cfg payload = .ok pdu →
    (c.cfg.encode? pdu).isSome
  part : ∀ now t chunk, c.sender.due c.cfg now = .frame t chunk →
    (c.cfg.encode? (.consecutive (.ofNat t.nextSn) chunk)).isSome
  flowControl : ∀ fc : FlowControl, (c.cfg.encode? fc.toPdu).isSome

/-- At most one frame, with flow control under the channel's own identifier. -/
structure OneAnswer (cfg : Config) (new : List Offer) : Prop where
  length_le : new.length ≤ 1
  flowControl : ∀ o ∈ new, o.frame.id = cfg.txId ∧ (Pdu.decode o.frame.data).kind? = some 3

variable {cfg : Config} {c x : Channel} {z : Option Cargo} {now : Instant} {r : Receiver}
  {new : List Offer} {events : List Event}

lemma encodes_of_ready (h : c.sender.Ready c.cfg z) : c.Encodes := by
  refine ⟨fun ε payload pdu hok => ?_, fun now t chunk hdue => ?_, fun fc => ?_⟩
  · obtain ⟨-, hs, -, hopen⟩ := h.opening_eq_ok hok
    rw [← hopen, List.getElem?_eq_getElem (length_frames_pos hs)]
    rfl
  · -- the chunk that is due is the one the segmentation of the message has there
    obtain ⟨hphase, hread⟩ := Sender.due_eq_frame hdue
    obtain ⟨o, -, hc⟩ := h.carries (t := t) (by simp only [Sender.transfer?, hphase])
    obtain rfl := Option.some.inj (hc.read?.symm.trans hread)
    rw [← hc.getElem?_frames, List.getElem?_eq_getElem hc.lt_length]
    rfl
  · exact Pdu.isSome_encode?_flowControl h.valid.frameLength_legal

lemma oneAnswer_nil : OneAnswer cfg [] := ⟨Nat.zero_le _, List.forall_mem_nil _⟩

lemma oneAnswer_frame (hcfg : cfg.Valid) (fc : FlowControl) (taken : Bool) :
    OneAnswer cfg [⟨fc.frame cfg, taken⟩] := by
  refine ⟨Nat.le_refl _, List.forall_mem_singleton.2 ⟨rfl, ?_⟩⟩
  rw [FlowControl.decode_frame hcfg]
  rfl

lemma IsAnswer.lawful {f : Frame} (hcfg : cfg.Valid) (h : IsAnswer cfg f) : f.Lawful cfg := by
  obtain ⟨fc, rfl⟩ := h
  exact Frame.lawful_of_encode? (FlowControl.encode?_frame hcfg fc)

lemma Resolves.oneAnswer {outcome : Receiver.Outcome} (h : Resolves now c outcome r new events)
    (hcfg : c.cfg.Valid) : OneAnswer c.cfg new := by
  cases h with
  | none | complete | failed => exact oneAnswer_nil
  | answered | postponed | refusal => exact oneAnswer_frame hcfg _ _

lemma Accepts.oneAnswer {f : Frame} (h : Accepts now f c x new events) (hcfg : c.cfg.Valid) :
    OneAnswer c.cfg new := by
  cases h with
  | foreign | flowControl => exact oneAnswer_nil
  | unit hf hread hresolves => exact hresolves.oneAnswer hcfg

lemma Retries.oneAnswer (h : Retries now c r new) (hcfg : c.cfg.Valid) : OneAnswer c.cfg new := by
  cases h with
  | nothing => exact oneAnswer_nil
  | taken | refused => exact oneAnswer_frame hcfg _ _

/-- As time passes, the receiver's half offers its frame before the sender's half. -/
lemma Elapses.budget (h : Elapses now c x new events) (hready : c.sender.Ready c.cfg z) :
    ∃ answers parts, new = answers ++ parts ∧ OneAnswer c.cfg answers ∧
      c.sender.GoesOn c.cfg now x.sender parts := by
  cases h with
  | mk hretries hadvances =>
    exact ⟨_, _, rfl, hretries.oneAnswer hready.valid, hready.goesOn hadvances⟩

lemma Elapses.lawful (h : Elapses now c x new events) (hcfg : c.cfg.Valid) :
    ∀ o ∈ new, o.frame.Lawful c.cfg := by
  cases h with
  | mk hretries hadvances =>
    intro o ho
    rcases List.mem_append.1 ho with hanswer | hpart
    · exact (hretries.isAnswer o hanswer).lawful hcfg
    · exact (hadvances.isPart o hpart).lawful

lemma Sends.begins {ε : Type} {id : CanId} {payload : Bytes} {value : Except (Error ε) Unit}
    (h : Sends now id payload c x new events value) :
    ∃ s' result, c.sender.Begins (ε := ε) c.cfg now id payload s' new result := by
  cases h with
  | error hbegins => exact ⟨_, _, hbegins⟩
  | ok hbegins => exact ⟨_, _, hbegins⟩

section Calls

variable {σ ε : Type} [Link σ ε]

lemma sendAs_ne_unencodable (h : c.sender.Ready c.cfg z) (id : CanId) (payload : Bytes)
    (line : Tap σ) : (c.sendAs now id payload line).value ≠ .error .unencodable := by
  have hne := h.begin_ne_unencodable now id payload line
  simp only [sendAs]
  cases hvalue : (c.sender.begin c.cfg now id payload line).value with
  | error e =>
    rw [hvalue] at hne
    simpa [Except.map] using hne
  | ok event => simp [Except.map]

lemma settle_ne_unencodable (hcfg : c.cfg.Valid) (outcome : Receiver.Outcome) (line : Tap σ) :
    (c.settle now outcome line).value ≠ .error .unencodable := by
  have hne (fc : FlowControl) :=
    Link.offer_ne_unencodable (FlowControl.encode?_frame hcfg fc) c.cfg.txId line
  unfold settle
  cases outcome with
  | answer fc =>
    specialize hne fc
    dsimp only
    split
    · simp
    · next e line' hoffer =>
      rw [show Link.offer c.cfg c.cfg.txId fc.toPdu line = _ from hoffer] at hne
      exact hne
  | refusal fc => exact hne fc
  | none | complete | failed => simp

lemma accept_ne_unencodable (hcfg : c.cfg.Valid) (f : Frame) (line : Tap σ) :
    (c.accept now f line).value ≠ .error .unencodable := by
  unfold Channel.accept
  split
  · simp
  · split
    · simp
    · exact settle_ne_unencodable
        (c := { c with receiver := (c.receiver.accept c.cfg c.policy now (Pdu.decode f.data)).1 })
        hcfg _ line

end Calls

/-! ### Calls -/

namespace Record

variable {σ ε : Type} (cfg) (y : Record σ ε)

/-- The frames that a call may offer: a message to be sent one, a frame that comes in one with flow
control, and time one with flow control and after it one consecutive frame. -/
def WithinBudget : Prop :=
  match y.op with
  | .send _ | .sendAs .. => y.offers.length ≤ 1
  | .frame _ => OneAnswer cfg y.offers
  | .advance => ∃ answers parts, y.offers = answers ++ parts ∧ OneAnswer cfg answers ∧
      y.before.sender.GoesOn cfg y.now y.after.sender parts
  | .collect _ | .cancel | .setPolicy _ | .setLine _ => y.offers = []

/-- A call that offers lawful frames only, as many as it may, and does not fail for want of one. -/
structure Lawful : Prop where
  encodes : y.before.Encodes
  reply_ne : y.reply ≠ .verdict (.error .unencodable)
  frames : ∀ o ∈ y.offers, o.frame.Lawful cfg
  budget : y.WithinBudget cfg

end Record

variable {σ ε : Type} [Link σ ε]

theorem Host.step_lawful {h : Host σ} (hready : h.channel.sender.Ready h.channel.cfg z)
    (now : Instant) (op : Op σ) : (h.step now op).2.Lawful h.channel.cfg := by
  have hcfg := hready.valid
  have hencodes : (h.step now op).2.before.Encodes := by
    rw [step_before]
    exact encodes_of_ready hready
  cases op with
  | send payload =>
    obtain ⟨value, -, hsends⟩ := step_send now hready payload
    obtain ⟨s, result, hbegins⟩ := hsends.begins
    refine ⟨hencodes, ?_, fun o ho => (hbegins.isPart o ho).lawful, hbegins.length_le⟩
    exact fun heq => sendAs_ne_unencodable hready _ _ _ (Reply.verdict.inj heq)
  | sendAs id payload =>
    obtain ⟨value, -, hsends⟩ := step_sendAs now hready id payload
    obtain ⟨s, result, hbegins⟩ := hsends.begins
    refine ⟨hencodes, ?_, fun o ho => (hbegins.isPart o ho).lawful, hbegins.length_le⟩
    exact fun heq => sendAs_ne_unencodable hready _ _ _ (Reply.verdict.inj heq)
  | frame f =>
    have haccepts := step_frame now hcfg f
    refine ⟨hencodes, ?_, fun o ho => (haccepts.isAnswer o ho).lawful hcfg,
      haccepts.oneAnswer hcfg⟩
    exact fun heq => accept_ne_unencodable hcfg f _ (Reply.verdict.inj heq)
  | advance =>
    have helapses := step_advance now hready
    exact ⟨hencodes, nofun, helapses.lawful hcfg, helapses.budget hready⟩
  | collect | cancel | setPolicy | setLine =>
    exact ⟨hencodes, nofun, List.forall_mem_nil _, rfl⟩

/-! ### Main statement -/

/-- **Only lawful frames reach the link, and few at a time.** Whatever the calls, their instants and
the link: what a channel has to write always has a frame, so that no call fails for want of one and
the next consecutive frame, once it may go out, is held back by nothing but the link. Every frame
offered is not empty, no longer than the frame length, of a size that exists on the bus, and of the
frame length if padding is configured. A message to be sent offers at most one frame, a frame that
comes in at most one with flow control, and time at most one with flow control and then at most one
consecutive frame. -/
theorem lawful_of_run {cfg : Config} {c : Channel} (hc : Fresh cfg c) (line : σ)
    (calls : List (Instant × Op σ)) :
    ∀ y ∈ Host.trace ⟨c, line⟩ calls, y.Lawful cfg := by
  intro y hy
  obtain ⟨u, v, hsplit⟩ := List.append_of_mem hy
  obtain ⟨earlier, call, later, -, -, rfl, -⟩ := Host.split_trace hsplit
  obtain ⟨hcfg, hready⟩ := hc.ready
  rw [← hcfg] at hready ⊢
  obtain ⟨hkept, z, hready'⟩ := Host.ready_run (h := ⟨c, line⟩) hready earlier
  rw [← show (Host.run ⟨c, line⟩ earlier).channel.cfg = c.cfg from hkept] at hready' ⊢
  exact Host.step_lawful hready' call.1 call.2

/-- Twenty bytes in two frames of 12, the second of which the link refuses at first. -/
theorem lawful_of_run_refused_once :
    let cfg : Config := { rxId := .standard 1, frameLength := 12 }
    let c : Channel :=
      ⟨cfg, cfg.policy, .new (.zeroed 4095) 4095, .new (.zeroed 4095) 4095⟩
    let records := Host.trace ⟨c, (⟨some 1⟩ : Quota)⟩
      [(0, .send (.replicate 20 7)), (1, .frame ⟨.standard 1, [0x30, 0, 0], false⟩), (2, .advance),
        (3, .setLine ⟨none⟩), (4, .advance)]
    Fresh cfg c ∧ (∀ y ∈ records, y.Lawful cfg) ∧
      records.map (fun y => y.offers.map fun o => (o.frame.data.length, o.taken)) =
        [[(12, true)], [], [(12, false)], [], [(12, true)]] := by
  intro cfg c records
  have hc : Fresh cfg c := .ofBuffers (.zeroed 4095) (.zeroed 4095) rfl
  exact ⟨hc, lawful_of_run hc _ _, by decide +kernel⟩

end Channel

end IsoTp
