import IsoTp.Proofs.Channel.Answers
import IsoTp.Proofs.Channel.Collection

/-!
Flow control that the link refuses.

In the middle of a message the flow control is owed: it is offered again whenever time passes, and
the message fails at the deadline. This is the one for flow control on its way out, until the next
consecutive frame comes; from then on it is the one for the frame after it, although the flow
control is owed as before. The refusal of a message is not owed, and is not offered again.
-/

namespace IsoTp

/-! ### The receiver -/

lemma FlowPolicy.status_answer (p : FlowPolicy) (total capacity : Nat) :
    (p.answer total capacity).status = .overflow ∨
      (p.answer total capacity).status = .clearToSend := by
  unfold FlowPolicy.answer
  split
  · exact .inl rfl
  · exact .inr rfl

/-- A unit after which the message goes on, with so many bytes in the buffer before it, and no flow
control is due: none that opens a message, and a consecutive frame only if it is the next one and
the last neither of the message nor of a block. -/
def Inbound.Continues (written : Nat) (m : Inbound) : Pdu → Prop
  | .single .. | .first .. => False
  | .consecutive sn data => sn.toNat = m.nextSn ∧ written + data.length < m.total ∧
      (m.blockSize = 0 ∨ 1 < m.blockLeft)
  | .flowControl .. | .invalid => True

instance (written : Nat) (m : Inbound) : (pdu : Pdu) → Decidable (m.Continues written pdu)
  | .single .. | .first .. => inferInstanceAs (Decidable False)
  | .consecutive .. => inferInstanceAs (Decidable (_ ∧ _ ∧ _))
  | .flowControl .. | .invalid => inferInstanceAs (Decidable True)

namespace Receiver

/-- A unit lets the message under way go on, if there is one. -/
def Continues (pdu : Pdu) (r : Receiver) : Prop :=
  match r.phase with
  | .receiving m => m.Continues r.written pdu
  | _ => True

instance (pdu : Pdu) (r : Receiver) : Decidable (r.Continues pdu) :=
  match hphase : r.phase with
  | .receiving m => decidable_of_iff (m.Continues r.written pdu) (by simp [Continues, hphase])
  | .idle | .done | .failed _ => isTrue (by simp [Continues, hphase])

/-- The receiver is in the middle of a message that fails at the deadline, and owes flow control. -/
def Owes (fc : FlowControl) (deadline : Instant) (r : Receiver) : Prop :=
  ∃ m, r.phase = .receiving m ∧ m.owed = some fc ∧ m.deadline = deadline

variable {r : Receiver} {cfg : Config} {policy : FlowPolicy} {now deadline : Instant}
  {fc : FlowControl} {pdu : Pdu}

lemma Owes.owed_eq (h : r.Owes fc deadline) : r.owed = some fc := by
  obtain ⟨m, hphase, howed, -⟩ := h
  simp only [Receiver.owed, hphase, howed]

/-- A consecutive frame sets the deadline anew, whatever is owed. -/
lemma Owes.accept (h : r.Owes fc deadline) (hr : r.Sound) (cfg : Config) (policy : FlowPolicy)
    (now : Instant) (hnext : r.Continues pdu) :
    ∃ x, r.accept cfg policy now pdu = (x, .none) ∧
      x.Owes fc (if pdu.isConsecutive then cfg.clock.after now cfg.nCr else deadline) := by
  obtain ⟨m, hphase, howed, rfl⟩ := h
  have hm := hr.phase
  rw [hphase] at hm
  rw [Continues, hphase] at hnext
  cases pdu with
  | single | first => exact hnext.elim
  | flowControl | invalid => exact ⟨r, rfl, m, hphase, howed, rfl⟩
  | consecutive sn data =>
    obtain ⟨hsn, hshort, hblock⟩ := hnext
    have hle := hm.total_le
    obtain ⟨buffer, hwrite, -⟩ :=
      Buffer.exists_write? (show r.written + data.length ≤ r.capacity by omega) hr.fits
    have hchunk : data.take (m.total - r.written) = data := List.take_of_length_le (by omega)
    unfold Receiver.accept
    simp only [hphase]
    unfold Receiver.consecutive
    rw [if_neg (Decidable.not_not.2 hsn)]
    simp only [hchunk, hwrite]
    rw [if_neg (by omega)]
    split
    · exact ⟨_, rfl, _, rfl, howed, rfl⟩
    · next hsize =>
      rw [if_pos (hblock.resolve_left hsize)]
      exact ⟨_, rfl, _, rfl, howed, rfl⟩

lemma Owes.advance_of_lt (h : r.Owes fc deadline) (hlt : now < deadline) :
    r.advance now = (r, none) := by
  obtain ⟨m, hphase, -, rfl⟩ := h
  simp only [Receiver.advance, hphase, if_pos hlt]

lemma Owes.advance_of_le (h : r.Owes fc deadline) (hle : deadline ≤ now) :
    r.advance now = ((r.giveUp (.timeout .nAr)).1, some (.timeout .nAr)) := by
  obtain ⟨m, hphase, howed, rfl⟩ := h
  simp only [Receiver.advance, hphase, howed, if_neg (Nat.not_lt.2 hle), Option.isSome_some,
    if_true]

lemma Owes.collect (h : r.Owes fc deadline) (room : Nat) :
    (r.collect room).1.Owes fc deadline := by
  obtain ⟨m, hphase, howed, rfl⟩ := h
  unfold Receiver.collect
  rw [hphase]
  exact ⟨m, hphase, howed, rfl⟩

lemma owes_postpone (h : r.status = .receiving) (fc : FlowControl) (deadline : Instant) :
    (r.postpone fc deadline).Owes fc deadline := by
  obtain ⟨_ | m | _ | _, buffer, capacity, written⟩ := r
  · cases h
  · exact ⟨_, rfl, rfl, rfl⟩
  · cases h
  · cases h

lemma owed_of_ne (h : r.status ≠ .receiving) : r.owed = none := by
  obtain ⟨_ | m | _ | _, buffer, capacity, written⟩ := r
  · rfl
  · exact absurd rfl h
  · rfl
  · rfl

/-- Only in the middle of a message is flow control put off. -/
lemma postpone_of_ne (h : r.status ≠ .receiving) (fc : FlowControl) (deadline : Instant) :
    r.postpone fc deadline = r := by
  obtain ⟨_ | m | _ | _, buffer, capacity, written⟩ := r
  · rfl
  · exact absurd rfl h
  · rfl
  · rfl

/-- Flow control says what its outcome stands for: an answer clears the sender, and a refusal
refuses the message. -/
def Outcome.Fits : Outcome → Prop
  | .answer fc => fc.status = .clearToSend
  | .refusal fc => fc.status = .overflow
  | _ => True

lemma fits_first (total : Nat) (data : Bytes) : (r.first cfg policy now total data).2.Fits := by
  have hstatus := policy.status_answer total r.capacity
  unfold Receiver.first Receiver.giveUp
  dsimp only
  split
  · next hover => exact hover
  · next hover =>
    split
    · trivial
    · exact hstatus.resolve_left hover

lemma fits_consecutive (sn : Nat) (data : Bytes) (m : Inbound) :
    (r.consecutive cfg policy now sn data m).2.Fits := by
  unfold Receiver.consecutive Receiver.giveUp
  dsimp only
  repeat' split
  all_goals trivial

/-- A receiver without a complete message clears the sender or refuses the message. -/
lemma fits_accept (hdone : r.status ≠ .done) : (r.accept cfg policy now pdu).2.Fits := by
  unfold Receiver.accept
  cases pdu with
  | single len data =>
    dsimp only
    rw [if_neg hdone]
    unfold Receiver.single Receiver.giveUp
    repeat' split
    all_goals trivial
  | first len data =>
    dsimp only
    rw [if_neg hdone]
    exact fits_first ..
  | consecutive sn data =>
    dsimp only
    split
    · exact fits_consecutive ..
    · trivial
  | flowControl | invalid => trivial

/-- Flow control that a unit calls for clears the sender in the middle of a message, or refuses the
message. -/
lemma answer_cases (h : (r.accept cfg policy now pdu).2.flowControl? = some fc) :
    fc.status = .clearToSend ∧ (r.accept cfg policy now pdu).2 = .answer fc ∧
        (r.accept cfg policy now pdu).1.status = .receiving ∨
      fc.status = .overflow ∧ (r.accept cfg policy now pdu).1.status ≠ .receiving := by
  by_cases hdone : r.status = .done
  · rw [accept_of_done hdone] at h ⊢
    refine .inr ⟨?_, by simp [hdone]⟩
    cases pdu with
    | first => cases h; rfl
    | single | consecutive | flowControl | invalid => cases h
  · have htells := tells_accept hdone cfg policy now pdu
    have hfits : (r.accept cfg policy now pdu).2.Fits := fits_accept hdone
    generalize r.accept cfg policy now pdu = x at h htells hfits ⊢
    obtain ⟨q, outcome⟩ := x
    cases outcome with
    | answer => cases h; exact .inl ⟨hfits, rfl, htells⟩
    | refusal =>
      cases h
      have hphase : q.phase = .failed .tooLong := htells
      exact .inr ⟨hfits, by simp [Receiver.status, hphase]⟩
    | none | complete | failed => cases h

end Receiver

namespace Channel

/-! ### What a call does -/

/-- A frame that lets the message under way go on, as frames for others do. -/
def Continues (f : Frame) (c : Channel) : Prop :=
  ¬(f.remote ∨ f.id ≠ c.cfg.rxId) → c.receiver.Continues (Pdu.decode f.data)

instance (f : Frame) (c : Channel) : Decidable (c.Continues f) :=
  inferInstanceAs (Decidable (_ → _))

/-- The deadline that a frame sets for the message under way. -/
def renews? (now : Instant) (f : Frame) (c : Channel) : Option Instant :=
  if f.remote ∨ f.id ≠ c.cfg.rxId then none
  else if (Pdu.decode f.data).isConsecutive then some (c.cfg.clock.after now c.cfg.nCr) else none

variable {c x : Channel} {now deadline : Instant} {fc : FlowControl} {new : List Offer}
  {events : List Event}

lemma Accepts.of_owes {f : Frame} (h : Accepts now f c x new events) (hr : c.receiver.Sound)
    (howes : c.receiver.Owes fc deadline) (hnext : Continues f c) :
    x.receiver.Owes fc ((renews? now f c).getD deadline) ∧ aborts events = [] := by
  unfold renews?
  cases h with
  | foreign hf =>
    rw [if_pos hf]
    exact ⟨howes, rfl⟩
  | flowControl hf hread =>
    rw [if_neg hf, hread]
    exact ⟨howes, aborts_sendEvent _⟩
  | unit hf hread hresolves =>
    obtain ⟨q, haccept, hq⟩ := howes.accept hr c.cfg c.policy now (hnext hf)
    rw [haccept] at hresolves
    cases hresolves
    rw [if_neg hf]
    refine ⟨?_, rfl⟩
    split at hq
    · next hconsecutive =>
      rw [if_pos hconsecutive]
      exact hq
    · next hconsecutive =>
      rw [if_neg hconsecutive]
      exact hq

/-- As time passes, what is owed is offered again. If the link refuses it once more, the message
fails at the deadline and not before. -/
lemma Elapses.of_owes (hcfg : c.cfg.Valid) (h : Elapses now c x new events)
    (howes : c.receiver.Owes fc deadline) :
    ∃ taken, new.filter (!·.frame.carriesPart) = [⟨fc.frame c.cfg, taken⟩] ∧
      (taken = false →
        (now < deadline → x.receiver = c.receiver ∧ aborts events = []) ∧
        (deadline ≤ now → x.receiver.phase = .failed (.timeout .nAr) ∧
          aborts events = [.timeout .nAr])) := by
  have howed := howes.owed_eq
  cases h with
  | mk hretries hadvances =>
    rw [List.filter_append, answers_of_parts hadvances.isPart, List.append_nil, aborts_append,
      aborts_sendEvent, List.append_nil]
    cases hretries with
    | nothing hnone => simp [howed] at hnone
    | taken hsome =>
      obtain rfl := Option.some.inj (howed.symm.trans hsome)
      exact ⟨true, answers_of_frame hcfg fc true, nofun⟩
    | refused hsome =>
      obtain rfl := Option.some.inj (howed.symm.trans hsome)
      refine ⟨false, answers_of_frame hcfg fc false, fun _ => ⟨fun hlt => ?_, fun hle => ?_⟩⟩
      · rw [howes.advance_of_lt hlt]
        exact ⟨rfl, rfl⟩
      · rw [howes.advance_of_le hle]
        exact ⟨rfl, rfl⟩

lemma Sends.aborts_eq {ε : Type} {id : CanId} {payload : Bytes} {value : Except (Error ε) Unit}
    (h : Sends now id payload c x new events value) : aborts events = [] := by
  cases h with
  | error => rfl
  | ok => exact aborts_sendEvent _

/-- Flow control that the link refuses is owed if it clears the sender, and not if it refuses the
message. -/
lemma Accepts.of_refused {f : Frame} {opens : Bool} (h : Accepts now f c x new events)
    (hdecides : c.decides now f = some (opens, fc)) (hrefused : ∀ o ∈ new, o.taken = false) :
    fc.status = .clearToSend ∧ x.receiver.Owes fc (c.cfg.clock.after now c.cfg.nAr) ∨
      fc.status = .overflow ∧ x.receiver.owed = none := by
  unfold decides at hdecides
  cases h with
  | foreign hf =>
    rw [if_pos hf] at hdecides
    cases hdecides
  | flowControl hf hread =>
    rw [if_neg hf, hread] at hdecides
    cases hdecides
  | unit hf hread hresolves =>
    rw [if_neg hf] at hdecides
    obtain ⟨fc', hfc, heq⟩ := Option.map_eq_some_iff.1 hdecides
    cases heq
    have hcases := Receiver.answer_cases hfc
    generalize c.receiver.accept c.cfg c.policy now (Pdu.decode f.data) = z at hresolves hfc hcases
    obtain ⟨q, outcome⟩ := z
    rcases hcases with ⟨hclear, houtcome, hreceiving⟩ | ⟨hover, hreceiving⟩
    · obtain rfl : outcome = .answer fc := houtcome
      cases hresolves with
      | answered => simp at hrefused
      | postponed => exact .inl ⟨hclear, Receiver.owes_postpone hreceiving fc _⟩
    · refine .inr ⟨hover, ?_⟩
      cases hresolves with
      | none | complete | failed => cases hfc
      | answered => simp at hrefused
      | postponed =>
        rw [Receiver.postpone_of_ne hreceiving]
        exact Receiver.owed_of_ne hreceiving
      | refusal => exact Receiver.owed_of_ne hreceiving

/-- Where none is owed and none decided on, none is offered. -/
lemma Answers.of_none {cfg : Config} {owed : Option FlowControl}
    (h : Answers cfg none owed none new) : owed = none ∧ new = [] := by
  cases h with
  | nothing howed => exact ⟨howed.elim id id, rfl⟩
  | again howed => cases howed

section Calls

variable {σ ε : Type} [Link σ ε]

/-- Of what comes of a frame, only flow control that the link refuses is an error. -/
lemma settle_error {outcome : Receiver.Outcome} {line : Tap σ} {e : Error ε}
    (h : (c.settle now outcome line).value = .error e) (hcfg : c.cfg.Valid) :
    ∃ fc, outcome.flowControl? = some fc ∧
      (c.settle now outcome line).line.offers = line.offers ++ [⟨fc.frame c.cfg, false⟩] := by
  have hoffers (fc : FlowControl) :=
    Link.offer_eq (FlowControl.encode?_frame hcfg fc) c.cfg.txId line
  unfold settle offerFlowControl at h ⊢
  cases outcome with
  | answer fc | refusal fc =>
    obtain ⟨verdict, rest, hoffer⟩ := hoffers fc
    simp only [hoffer] at h ⊢
    cases verdict with
    | error => exact ⟨fc, rfl, rfl⟩
    | ok => cases h
  | none | complete | failed => cases h

lemma accept_error {f : Frame} {line : Tap σ} {e : Error ε}
    (h : (c.accept now f line).value = .error e) (hcfg : c.cfg.Valid) :
    ∃ opens fc, c.decides now f = some (opens, fc) ∧
      (c.accept now f line).line.offers = line.offers ++ [⟨fc.frame c.cfg, false⟩] := by
  unfold decides
  unfold Channel.accept at h ⊢
  split at h
  · cases h
  · next hf =>
    rw [if_neg hf, if_neg hf]
    cases hread : Pdu.decode f.data with
    | flowControl =>
      simp only [hread] at h
      cases h
    | single | first | consecutive | invalid =>
      simp only [hread] at h
      obtain ⟨fc, hfc, hoffers⟩ := settle_error h hcfg
      exact ⟨_, fc, Option.map_eq_some_iff.2 ⟨fc, hfc, rfl⟩, hoffers⟩

end Calls

/-! ### Runs -/

section Runs

variable {σ ε : Type}

/-- The deadline that a call sets for the message under way. -/
def Record.renews? (y : Record σ ε) : Option Instant :=
  match y.op with
  | .frame f => y.before.renews? y.now f
  | _ => none

/-- The deadline after a list of calls. -/
def deadlineAfter (deadline : Instant) (ys : List (Record σ ε)) : Instant :=
  ys.foldl (fun deadline y => y.renews?.getD deadline) deadline

lemma deadlineAfter_of_none {ys : List (Record σ ε)} (h : ∀ y ∈ ys, y.renews? = none) :
    deadlineAfter deadline ys = deadline := by
  induction ys with
  | nil => rfl
  | cons y ys ih =>
    obtain ⟨hy, hys⟩ := List.forall_mem_cons.1 h
    rw [deadlineAfter, List.foldl_cons, hy]
    exact ih hys

/-- A frame that lets the message go on, a time before the deadline, or any other call. -/
def Record.GoesOn (deadline : Instant) (y : Record σ ε) : Prop :=
  match y.op with
  | .frame f => y.before.Continues f
  | .advance => y.now < deadline
  | _ => True

instance (deadline : Instant) (y : Record σ ε) : Decidable (y.GoesOn deadline) :=
  match hop : y.op with
  | .frame f => decidable_of_iff (y.before.Continues f) (by simp [Record.GoesOn, hop])
  | .advance => decidable_of_iff (y.now < deadline) (by simp [Record.GoesOn, hop])
  | .send _ | .sendAs _ _ | .collect _ | .cancel | .setPolicy _ | .setLine _ =>
    isTrue (by simp [Record.GoesOn, hop])

/-- A call through which flow control stays owed. -/
def Record.Withholds (deadline : Instant) (y : Record σ ε) : Prop :=
  (∀ o ∈ y.answers, o.taken = false) ∧ y.GoesOn deadline

instance (deadline : Instant) (y : Record σ ε) : Decidable (y.Withholds deadline) :=
  inferInstanceAs (Decidable (_ ∧ _))

/-- Calls through which flow control stays owed: the link takes none, every frame lets the message
go on, and the deadline does not come. -/
def Withheld : Instant → List (Record σ ε) → Prop
  | _, [] => True
  | deadline, y :: ys => y.Withholds deadline ∧ Withheld (y.renews?.getD deadline) ys

instance : (deadline : Instant) → (ys : List (Record σ ε)) → Decidable (Withheld deadline ys)
  | _, [] => isTrue trivial
  | deadline, y :: ys =>
    have := instDecidableWithheld (y.renews?.getD deadline) ys
    inferInstanceAs (Decidable (_ ∧ _))

variable [Link σ ε] {cfg : Config} {h : Host σ}

/-- A channel under these parameters that is within its bounds and whose sender is ready. -/
structure Host.Fit (cfg : Config) (h : Host σ) : Prop where
  cfg_eq : h.channel.cfg = cfg
  sound : h.channel.Sound
  ready : ∃ z, h.channel.sender.Ready h.channel.cfg z

lemma Fresh.fit {c : Channel} (hc : Fresh cfg c) (line : σ) : Host.Fit cfg ⟨c, line⟩ := by
  obtain ⟨rfl, hready⟩ := hc.ready
  exact ⟨rfl, hc.sound.1, none, hready⟩

lemma Host.Fit.step (hfit : h.Fit cfg) (now : Instant) (op : Op σ) :
    (h.step now op).1.Fit cfg := by
  obtain ⟨rfl, hsound, z, hready⟩ := hfit
  obtain ⟨hcfg, z', -, hready'⟩ := h.step_moves hready now op
  rw [← hcfg] at hready'
  exact ⟨hcfg, (hsound.step hsound.twin_refl h.line now op).1.sound hsound, z', hready'⟩

lemma Host.Fit.run (hfit : h.Fit cfg) (calls : List (Instant × Op σ)) :
    (h.run calls).Fit cfg := by
  induction calls generalizing h with
  | nil => exact hfit
  | cons call calls ih => exact ih (hfit.step call.1 call.2)

/-- A call through which flow control stays owed keeps the message going. -/
theorem Host.step_owes (hfit : h.Fit cfg) (howes : h.channel.receiver.Owes fc deadline)
    (now : Instant) (op : Op σ) (hy : (h.step now op).2.Withholds deadline) :
    let y := h.step now op
    y.1.channel.receiver.Owes fc (y.2.renews?.getD deadline) ∧ aborts y.2.events = [] := by
  obtain ⟨-, hsound, z, hready⟩ := hfit
  cases op with
  | send payload =>
    obtain ⟨value, -, hsends⟩ := step_send now hready payload
    refine ⟨?_, hsends.aborts_eq⟩
    rw [hsends.receiver_eq]
    exact howes
  | sendAs id payload =>
    obtain ⟨value, -, hsends⟩ := step_sendAs now hready id payload
    refine ⟨?_, hsends.aborts_eq⟩
    rw [hsends.receiver_eq]
    exact howes
  | frame f => exact (step_frame now hready.valid f).of_owes hsound.receiver howes hy.2
  | advance =>
    obtain ⟨taken, hanswers, hcases⟩ := (step_advance now hready).of_owes hready.valid howes
    have htaken : taken = false := by
      refine hy.1 ⟨fc.frame h.channel.cfg, taken⟩ ?_
      rw [Record.answers, hanswers]
      exact List.mem_singleton_self _
    obtain ⟨hsame, haborts⟩ := (hcases htaken).1 hy.2
    refine ⟨?_, haborts⟩
    rw [hsame]
    exact howes
  | collect room => exact ⟨howes.collect room, rfl⟩
  | cancel | setPolicy | setLine => exact ⟨howes, rfl⟩

theorem Host.run_owes (hfit : h.Fit cfg) (howes : h.channel.receiver.Owes fc deadline)
    (calls : List (Instant × Op σ)) (hys : Withheld deadline (h.trace calls)) :
    (h.run calls).channel.receiver.Owes fc (deadlineAfter deadline (h.trace calls)) ∧
      ∀ y ∈ h.trace calls, aborts y.events = [] := by
  induction calls generalizing h deadline with
  | nil => exact ⟨howes, List.forall_mem_nil _⟩
  | cons call calls ih =>
    obtain ⟨hy, hys⟩ := hys
    obtain ⟨howes', haborts⟩ := step_owes hfit howes call.1 call.2 hy
    obtain ⟨hrun, hall⟩ := ih (hfit.step call.1 call.2) howes' hys
    exact ⟨hrun, List.forall_mem_cons.2 ⟨haborts, hall⟩⟩

/-- What is owed is offered again as time passes. If the link refuses it once more, the message
fails at the deadline. -/
lemma Host.advance_of_owes (hfit : h.Fit cfg) (howes : h.channel.receiver.Owes fc deadline)
    (now : Instant) :
    let y := (h.step now .advance).2
    ∃ taken, y.answers = [⟨fc.frame cfg, taken⟩] ∧
      (taken = false → deadline ≤ now →
        aborts y.events = [.timeout .nAr] ∧ y.after.receiver.phase = .failed (.timeout .nAr)) := by
  obtain ⟨rfl, -, z, hready⟩ := hfit
  obtain ⟨taken, hanswers, hcases⟩ := (step_advance now hready).of_owes hready.valid howes
  exact ⟨taken, hanswers, fun htaken hle => ((hcases htaken).2 hle).symm⟩

/-- A frame yields an error only if the link refuses flow control for it. -/
lemma Host.refused_of_error {now : Instant} {f : Frame} {e : Error ε} (hfit : h.Fit cfg)
    (hreply : (h.step now (.frame f)).2.reply = .verdict (.error e)) :
    ∃ opens fc, (h.step now (.frame f)).2.decides = some (opens, fc) ∧
      (h.step now (.frame f)).2.offers = [⟨fc.frame cfg, false⟩] := by
  obtain ⟨rfl, hsound, -⟩ := hfit
  exact accept_error (Reply.verdict.inj hreply) hsound.valid

/-- Flow control that a frame calls for and the link refuses is owed or dropped. -/
lemma Host.owes_of_refused {opens : Bool} (hfit : h.Fit cfg) (now : Instant) (op : Op σ)
    (hdecides : (h.step now op).2.decides = some (opens, fc))
    (hrefused : ∀ o ∈ (h.step now op).2.offers, o.taken = false) :
    let r := (h.step now op).1.channel.receiver
    fc.status = .clearToSend ∧ r.Owes fc (cfg.clock.after now cfg.nAr) ∨
      fc.status = .overflow ∧ r.owed = none := by
  obtain ⟨rfl, hsound, -⟩ := hfit
  cases op with
  | frame f => exact (step_frame now hsound.valid f).of_refused hdecides hrefused
  | send | sendAs | advance | collect | cancel | setPolicy | setLine => cases hdecides

/-- Where none is owed, calls that decide on no flow control offer none. -/
theorem Host.run_silent (hfit : h.Fit cfg) (howed : h.channel.receiver.owed = none)
    (calls : List (Instant × Op σ)) (hys : ∀ y ∈ h.trace calls, y.decides = none) :
    ∀ y ∈ h.trace calls, y.answers = [] := by
  induction calls generalizing h with
  | nil => exact List.forall_mem_nil _
  | cons call calls ih =>
    rw [trace_cons, List.forall_mem_cons] at hys ⊢
    obtain ⟨hdecides, hys⟩ := hys
    obtain ⟨z, hready⟩ := hfit.ready
    have hanswers := step_answers hready call.1 call.2
    rw [hdecides, howed] at hanswers
    obtain ⟨howed', hnone⟩ := hanswers.of_none
    exact ⟨hnone, ih (hfit.step call.1 call.2) howed' hys⟩

/-! ### Main statements -/

/-- A call that decides on flow control which the link refuses and which is owed from then on. -/
structure Record.Postpones (fc : FlowControl) (y : Record σ ε) : Prop where
  decides : ∃ opens, y.decides = some (opens, fc)
  refused : ∀ o ∈ y.offers, o.taken = false
  owed : y.after.receiver.owed = some fc

/-- **A message for which flow control is owed fails in time.** Whatever the calls, their instants
and the link: after flow control was put off, as long as the link takes none and no frame ends the
message, replaces it or calls for other flow control, the message does not fail before the deadline,
and at the first chance after it fails for flow control that did not go out. The deadline is the one
for flow control on its way out, or, once a consecutive frame came, the one for the frame after
it. -/
theorem deferral_of_run {c : Channel} (hc : Fresh cfg c) (line : σ)
    (calls : List (Instant × Op σ)) :
    let records := Host.trace ⟨c, line⟩ calls
    ∀ u y v w fc, records = u ++ y :: (v ++ w) → y.Postpones fc →
      let start := cfg.clock.after y.now cfg.nAr
      Withheld start v →
        (∀ k ∈ v, aborts k.events = []) ∧
        ((∀ k ∈ v, k.renews? = none) → deadlineAfter start v = start) ∧
        ∀ z rest, w = z :: rest → z.op = .advance → (∀ o ∈ z.answers, o.taken = false) →
          deadlineAfter start v ≤ z.now →
            aborts z.events = [.timeout .nAr] ∧
              z.after.receiver.phase = .failed (.timeout .nAr) := by
  intro records u y v w fc hsplit hy start hv
  obtain ⟨earlier, ⟨now, op⟩, later, -, -, rfl, hlater⟩ := Host.split_trace hsplit
  obtain ⟨middle, later, -, rfl, rfl⟩ := Host.split_trace_append hlater.symm
  have hfit := (hc.fit line).run earlier
  have hstart : start = cfg.clock.after now cfg.nAr := by simp only [start, Host.step_now]
  rw [hstart] at hv ⊢
  obtain ⟨⟨opens, hdecides⟩, hrefused, howed⟩ := hy
  rw [Host.step_after] at howed
  have howes := (Host.owes_of_refused hfit now op hdecides hrefused).elim And.right
    fun ⟨_, hnone⟩ => by rw [hnone] at howed; cases howed
  obtain ⟨howes', haborts⟩ := Host.run_owes (hfit.step now op) howes middle hv
  refine ⟨haborts, deadlineAfter_of_none, fun z rest hz hop hanswers hle => ?_⟩
  cases later with
  | nil => cases hz
  | cons call later =>
    rw [Host.trace_cons] at hz
    obtain ⟨rfl, -⟩ := List.cons.inj hz
    rw [Host.step_op] at hop
    rw [Host.step_now] at hle
    rw [hop] at hanswers ⊢
    obtain ⟨taken, htaken, hfails⟩ :=
      Host.advance_of_owes ((hfit.step now op).run middle) howes' call.1
    refine hfails (hanswers ⟨fc.frame cfg, taken⟩ ?_) hle
    rw [htaken]
    exact List.mem_singleton_self _

/-- A consecutive frame that comes in the meantime puts the deadline off by the time for the next
one. -/
theorem deferral_of_run_put_off :
    let cfg : Config := { rxId := .standard 1 }
    let c : Channel :=
      ⟨cfg, cfg.policy, .new (.zeroed 4095) 4095, .new (.zeroed 4095) 4095⟩
    let first : Frame := ⟨.standard 1, [0x10, 20, 1, 2, 3, 4, 5, 6], false⟩
    let next : Frame := ⟨.standard 1, [0x21, 7, 8, 9, 10, 11, 12, 13], false⟩
    let y₀ := Host.step ⟨c, (⟨some 0⟩ : Quota)⟩ 0 (.frame first)
    let y₁ := y₀.1.step 50000 (.frame next)
    let y₂ := y₁.1.step 100000 .advance
    let y₃ := y₂.1.step 150000 .advance
    Fresh cfg c ∧ y₀.2.Postpones cfg.policy.clearToSend ∧
      Withheld (cfg.clock.after y₀.2.now cfg.nAr) [y₁.2, y₂.2] ∧
      aborts y₂.2.events = [] ∧ aborts y₃.2.events = [.timeout .nAr] := by
  intro cfg c first next y₀ y₁ y₂ y₃
  have hc : Fresh cfg c := .ofBuffers (.zeroed 4095) (.zeroed 4095) rfl
  have hy : y₀.2.Postpones cfg.policy.clearToSend :=
    ⟨⟨true, by decide +kernel⟩, by decide +kernel, by decide +kernel⟩
  have hv : Withheld (cfg.clock.after y₀.2.now cfg.nAr) [y₁.2, y₂.2] := by decide +kernel
  have hsplit : Host.trace ⟨c, (⟨some 0⟩ : Quota)⟩
      [(0, .frame first), (50000, .frame next), (100000, .advance), (150000, .advance)] =
        [] ++ y₀.2 :: ([y₁.2, y₂.2] ++ [y₃.2]) := by
    simp only [Host.trace_cons]
    rfl
  obtain ⟨haborts, -, hfails⟩ := deferral_of_run hc (⟨some 0⟩ : Quota) _ _ _ _ _ _ hsplit hy hv
  refine ⟨hc, hy, hv, haborts _ (by simp), ?_⟩
  exact (hfails y₃.2 [] rfl rfl (by decide +kernel) (by decide +kernel)).1

/-- With a consecutive frame in the meantime, the deadline for flow control on its way out comes and
the message does not fail. -/
theorem deferral_prolonged :
    let cfg : Config := { rxId := .standard 1 }
    let c : Channel :=
      ⟨cfg, cfg.policy, .new (.zeroed 4095) 4095, .new (.zeroed 4095) 4095⟩
    let calls : List (Instant × Op Quota) :=
      [(0, .frame ⟨.standard 1, [0x10, 20, 1, 2, 3, 4, 5, 6], false⟩),
        (50000, .frame ⟨.standard 1, [0x21, 7, 8, 9, 10, 11, 12, 13], false⟩), (100000, .advance)]
    let records := Host.trace ⟨c, (⟨some 0⟩ : Quota)⟩ calls
    Fresh cfg c ∧ cfg.clock.after 0 cfg.nAr ≤ 100000 ∧
      records.map (fun y => y.answers.map Offer.taken) = [[false], [], [false]] ∧
      records.map (fun y => y.after.receiver.owed) =
        .replicate 3 (some cfg.policy.clearToSend) ∧
      records.map (fun y => aborts y.events) = [[], [], []] := by
  intro cfg c calls records
  exact ⟨.ofBuffers (.zeroed 4095) (.zeroed 4095) rfl, by decide +kernel, by decide +kernel,
    by decide +kernel, by decide +kernel⟩

/-- **Flow control that clears the sender is offered until the link takes it.** Whatever the calls,
their instants and the link: a frame that comes in yields an error only if the link refuses flow
control for it. If that clears the sender, it is owed, and every time it is offered again as long as
the link took none, no frame ends the message, replaces it or calls for other flow control, and the
deadline did not come. If it refuses the message, it is not owed, and none is offered until a frame
calls for it. -/
theorem retries_of_run {c : Channel} (hc : Fresh cfg c) (line : σ)
    (calls : List (Instant × Op σ)) :
    let records := Host.trace ⟨c, line⟩ calls
    ∀ u y rest f e, records = u ++ y :: rest → y.op = .frame f → y.reply = .verdict (.error e) →
      ∃ fc, y.offers = [⟨fc.frame cfg, false⟩] ∧
        (fc.status = .clearToSend ∧ y.after.receiver.owed = some fc ∧
            (∀ v z w, rest = v ++ z :: w → Withheld (cfg.clock.after y.now cfg.nAr) v →
              z.op = .advance → ∃ taken, z.answers = [⟨fc.frame cfg, taken⟩]) ∨
          fc.status = .overflow ∧ y.after.receiver.owed = none ∧
            ∀ v w, rest = v ++ w → (∀ k ∈ v, k.decides = none) → ∀ k ∈ v, k.answers = []) := by
  intro records u y rest f e hsplit hop hreply
  obtain ⟨earlier, ⟨now, op⟩, later, -, -, rfl, rfl⟩ := Host.split_trace hsplit
  have hfit := (hc.fit line).run earlier
  rw [Host.step_op] at hop
  subst hop
  obtain ⟨opens, fc, hdecides, hoffers⟩ := Host.refused_of_error hfit hreply
  have hnext := hfit.step now (.frame f)
  refine ⟨fc, hoffers, ?_⟩
  rcases Host.owes_of_refused hfit now (.frame f) hdecides (by rw [hoffers]; simp) with
    ⟨hclear, howes⟩ | ⟨hover, hnone⟩
  · refine .inl ⟨hclear, howes.owed_eq, fun v z w hrest hv hop => ?_⟩
    obtain ⟨middle, call, -, -, rfl, rfl, -⟩ := Host.split_trace hrest
    obtain ⟨howes', -⟩ := Host.run_owes hnext howes middle hv
    obtain ⟨taken, htaken, -⟩ := Host.advance_of_owes (hnext.run middle) howes' call.1
    rw [Host.step_op] at hop
    rw [hop]
    exact ⟨taken, htaken⟩
  · refine .inr ⟨hover, hnone, fun v w hrest hquiet => ?_⟩
    obtain ⟨middle, -, -, rfl, -⟩ := Host.split_trace_append hrest
    exact Host.run_silent hnext hnone middle hquiet

/-- Flow control for a first frame that the link refuses twice and is offered a third time. -/
theorem retries_of_run_third_try :
    let cfg : Config := { rxId := .standard 1 }
    let c : Channel :=
      ⟨cfg, cfg.policy, .new (.zeroed 4095) 4095, .new (.zeroed 4095) 4095⟩
    let first : Frame := ⟨.standard 1, [0x10, 20, 1, 2, 3, 4, 5, 6], false⟩
    let y₀ := Host.step ⟨c, (⟨some 0⟩ : Quota)⟩ 0 (.frame first)
    let y₁ := y₀.1.step 1000 .advance
    let y₂ := y₁.1.step 2000 .advance
    Fresh cfg c ∧ y₀.2.reply = .verdict (.error (.link .refused)) ∧
      Withheld (cfg.clock.after y₀.2.now cfg.nAr) [y₁.2] ∧
      ∃ taken, y₂.2.answers = [⟨cfg.policy.clearToSend.frame cfg, taken⟩] := by
  intro cfg c first y₀ y₁ y₂
  have hc : Fresh cfg c := .ofBuffers (.zeroed 4095) (.zeroed 4095) rfl
  have hreply : y₀.2.reply = .verdict (.error (.link .refused)) := rfl
  have hv : Withheld (cfg.clock.after y₀.2.now cfg.nAr) [y₁.2] := by decide +kernel
  have hsplit : Host.trace ⟨c, (⟨some 0⟩ : Quota)⟩
      [(0, .frame first), (1000, .advance), (2000, .advance)] = [] ++ y₀.2 :: [y₁.2, y₂.2] := by
    simp only [Host.trace_cons]
    rfl
  obtain ⟨fc, -, hcases⟩ := retries_of_run hc (⟨some 0⟩ : Quota) _ _ _ _ _ _ hsplit rfl hreply
  have howed : y₀.2.after.receiver.owed = some cfg.policy.clearToSend := by decide +kernel
  rcases hcases with ⟨-, hsome, hretries⟩ | ⟨-, hnone, -⟩
  · cases hsome.symm.trans howed
    exact ⟨hc, hreply, hv, hretries [y₁.2] y₂.2 [] rfl hv rfl⟩
  · cases hnone.symm.trans howed

/-- The refusal of a message that is too long is not offered again, though the link would take
it. -/
theorem refusal_dropped :
    let cfg : Config := { rxId := .standard 1, receiveCapacity := 10 }
    let c : Channel := ⟨cfg, cfg.policy, .new (.zeroed 4095) 4095, .new (.zeroed 10) 10⟩
    let long : Frame := ⟨.standard 1, [0x10, 20, 1, 2, 3, 4, 5, 6], false⟩
    let y₀ := Host.step ⟨c, (⟨some 0⟩ : Quota)⟩ 0 (.frame long)
    let y₁ := y₀.1.step 500 (.setLine ⟨none⟩)
    let y₂ := y₁.1.step 1000 .advance
    Fresh cfg c ∧ y₀.2.reply = .verdict (.error (.link .refused)) ∧
      y₀.2.offers = [⟨FlowControl.overflow.frame cfg, false⟩] ∧
      y₂.2.now < cfg.clock.after y₀.2.now cfg.nAr ∧ y₂.2.offers = [] := by
  intro cfg c long y₀ y₁ y₂
  exact ⟨.ofBuffers (.zeroed 4095) (.zeroed 10) rfl, rfl, by decide +kernel, by decide +kernel,
    by decide +kernel⟩

end Runs

end Channel

end IsoTp
