import IsoTp.Proofs.Channel.Reception
import IsoTp.Proofs.Channel.Soundness

/-!
What the application gets of the messages that a channel receives.

A complete message is held until it is collected, and a failure until it is told or a frame opens
another message. Every call keeps the balance: what was held before it and what it reports are what
it hands out and what is held after it. A run then hands out what it reports, but for what is still
held.
-/

namespace IsoTp

/-- A unit that opens a message. -/
def Pdu.Opens : Pdu → Prop
  | single .. | first .. => True
  | _ => False

/-- A frame opens a message by its kind alone, if it can be read. -/
lemma Pdu.opens_decode_iff {f : Frame} :
    (Pdu.decode f.data).Opens ↔ Pdu.decode f.data ≠ .invalid ∧ f.opens = true := by
  by_cases hread : Pdu.decode f.data = .invalid
  · simp [hread, Pdu.Opens]
  · rw [Frame.opens, ← Pdu.kind?_decode hread]
    cases hpdu : Pdu.decode f.data <;> simp [Pdu.Opens, Pdu.kind?, hpdu] at hread ⊢

namespace Receiver

/-- The complete message, if there is one. -/
def held (r : Receiver) : List Bytes := if r.status = .done then [r.message] else []

/-- The failure that has not been told. -/
def untold (r : Receiver) : List Abort :=
  match r.phase with
  | .failed cause => [cause]
  | _ => []

variable {r : Receiver}

lemma held_of_done (h : r.status = .done) : r.held = [r.message] := if_pos h

lemma held_of_ne (h : r.status ≠ .done) : r.held = [] := if_neg h

lemma untold_of_phase {cause : Abort} (h : r.phase = .failed cause) : r.untold = [cause] := by
  simp only [untold, h]

lemma untold_of_ne (h : r.status ≠ .failed) : r.untold = [] := by
  unfold status at h
  unfold untold
  cases hphase : r.phase with
  | failed => simp [hphase] at h
  | idle | receiving | done => rfl

@[simp] lemma held_postpone (fc : FlowControl) (deadline : Instant) :
    (r.postpone fc deadline).held = r.held := by
  obtain ⟨_ | _ | _ | _, _, _⟩ := r <;> rfl

@[simp] lemma untold_postpone (fc : FlowControl) (deadline : Instant) :
    (r.postpone fc deadline).untold = r.untold := by
  obtain ⟨_ | _ | _ | _, _, _⟩ := r <;> rfl

@[simp] lemma held_answered (deadline : Instant) : (r.answered deadline).held = r.held := by
  obtain ⟨_ | _ | _ | _, _, _⟩ := r <;> rfl

@[simp] lemma untold_answered (deadline : Instant) : (r.answered deadline).untold = r.untold := by
  obtain ⟨_ | _ | _ | _, _, _⟩ := r <;> rfl

/-- A unit that opens a message never goes without an outcome, unless a complete message waits. -/
lemma accept_ne_none (hdone : r.status ≠ .done) (cfg : Config) (policy : FlowPolicy)
    (now : Instant) (pdu : Pdu) (hpdu : pdu.Opens) : (r.accept cfg policy now pdu).2 ≠ .none := by
  unfold Receiver.accept
  cases pdu with
  | single len data =>
    dsimp only
    rw [if_neg hdone]
    unfold Receiver.single Receiver.giveUp
    repeat' split
    all_goals simp
  | first len data =>
    dsimp only
    rw [if_neg hdone]
    unfold Receiver.first Receiver.giveUp
    dsimp only
    repeat' split
    all_goals simp
  | consecutive | flowControl | invalid => cases hpdu

end Receiver

namespace Channel

/-! ### The balance of a call -/

/-- What a receiver held before a call and what the call reports are what it hands out and what is
held after it. A failure is kept, told or replaced; a call that opens a message replaces it. -/
structure Balanced (r r' : Receiver) (events : List Event) (out : List Bytes) (told : List Abort)
    (opens : Prop) : Prop where
  messages : r.held ++ received events = out ++ r'.held
  failures : (¬opens ∧ told = [] ∧ aborts events = [] ∧ r'.untold = r.untold) ∨
    (told.Sublist r.untold ∧ r'.untold = aborts events)

variable {c x : Channel} {r r' : Receiver} {now : Instant} {new : List Offer} {events : List Event}

/-- A call that leaves the receiver alone and reports nothing of it. -/
lemma balanced_of_still {opens : Prop} (hopens : ¬opens) (hreceived : received events = [])
    (haborts : aborts events = []) : Balanced r r events [] [] opens :=
  ⟨by rw [hreceived, List.append_nil, List.nil_append], .inl ⟨hopens, rfl, haborts, rfl⟩⟩

/-- A complete message is kept whatever the unit. -/
lemma Resolves.balanced_of_done (hdone : c.receiver.status = .done) {pdu : Pdu}
    (h : Resolves now { c with receiver := (c.receiver.accept c.cfg c.policy now pdu).1 }
      (c.receiver.accept c.cfg c.policy now pdu).2 r' new events) :
    Balanced c.receiver r' events [] [] pdu.Opens := by
  have huntold : c.receiver.untold = [] := Receiver.untold_of_ne (by simp [hdone])
  have hsame {q : Receiver} (hheld : q.held = c.receiver.held)
      (hq : q.untold = c.receiver.untold) : Balanced c.receiver q [] [] [] pdu.Opens :=
    ⟨by simp [hheld, received], .inr ⟨List.nil_sublist _, hq.trans huntold⟩⟩
  rw [Receiver.accept_of_done hdone] at h
  cases pdu with
  | first len data =>
    cases h with
    | answered => exact hsame rfl rfl
    | postponed => exact hsame (Receiver.held_postpone ..) (Receiver.untold_postpone ..)
  | single | consecutive | flowControl | invalid =>
    cases h
    exact hsame rfl rfl

/-- Where no message is held, a unit completes one, goes on with one or ends one, or else leaves the
receiver as it is. -/
lemma Resolves.balanced_of_ne (hdone : c.receiver.status ≠ .done) {pdu : Pdu}
    (h : Resolves now { c with receiver := (c.receiver.accept c.cfg c.policy now pdu).1 }
      (c.receiver.accept c.cfg c.policy now pdu).2 r' new events) :
    Balanced c.receiver r' events [] [] pdu.Opens := by
  have htells := Receiver.tells_accept hdone c.cfg c.policy now pdu
  have hopens := Receiver.accept_ne_none hdone c.cfg c.policy now pdu
  have hheld := Receiver.held_of_ne hdone
  generalize c.receiver.accept c.cfg c.policy now pdu = y at h htells hopens
  obtain ⟨q, outcome⟩ := y
  -- a reception under way holds nothing, and nothing of it is left to be told
  have hunderway {q' : Receiver} (hq : q.status = .receiving) (hh : q'.held = q.held)
      (hu : q'.untold = q.untold) : Balanced c.receiver q' [] [] [] pdu.Opens := by
    refine ⟨?_, .inr ⟨List.nil_sublist _, ?_⟩⟩
    · rw [hheld, hh, Receiver.held_of_ne (by simp [hq])]
      rfl
    · rw [hu, Receiver.untold_of_ne (by simp [hq])]
      rfl
  -- a failure is reported as it is noted
  have hfailed {cause : Abort} (hq : q.phase = .failed cause) :
      Balanced c.receiver q [.failed .receive cause] [] [] pdu.Opens := by
    refine ⟨?_, .inr ⟨List.nil_sublist _, Receiver.untold_of_phase hq⟩⟩
    rw [hheld, Receiver.held_of_ne (by simp [Receiver.status, hq])]
    rfl
  cases h with
  | none =>
    rcases htells with hq | ⟨-, hq⟩
    · dsimp only at hq ⊢
      rw [hq]
      refine ⟨by simp [received], .inl ⟨fun hpdu => hopens hpdu rfl, rfl, rfl, rfl⟩⟩
    · exact hunderway hq rfl rfl
  | answered => exact hunderway htells rfl rfl
  | postponed => exact hunderway htells (Receiver.held_postpone ..) (Receiver.untold_postpone ..)
  | refusal => exact hfailed htells
  | complete =>
    have hq : q.status = .done := htells
    refine ⟨?_, .inr ⟨List.nil_sublist _, Receiver.untold_of_ne (by simp [hq])⟩⟩
    rw [hheld, Receiver.held_of_done hq]
    rfl
  | failed => exact hfailed htells

/-- What comes of a unit keeps the balance. -/
lemma Resolves.balanced {pdu : Pdu}
    (h : Resolves now { c with receiver := (c.receiver.accept c.cfg c.policy now pdu).1 }
      (c.receiver.accept c.cfg c.policy now pdu).2 r' new events) :
    Balanced c.receiver r' events [] [] pdu.Opens := by
  by_cases hdone : c.receiver.status = .done
  · exact h.balanced_of_done hdone
  · exact h.balanced_of_ne hdone

/-- The unit of a frame for this channel opens a message. -/
def OpensOwn (c : Channel) (f : Frame) : Prop :=
  ¬(f.remote ∨ f.id ≠ c.cfg.rxId) ∧ (Pdu.decode f.data).Opens

lemma Accepts.balanced {f : Frame} (h : Accepts now f c x new events) :
    Balanced c.receiver x.receiver events [] [] (OpensOwn c f) := by
  cases h with
  | foreign hf => exact balanced_of_still (fun hown => hown.1 hf) rfl rfl
  | flowControl hf hread =>
    refine balanced_of_still (fun hown => ?_) (received_sendEvent _) (aborts_sendEvent _)
    rw [OpensOwn, hread] at hown
    exact hown.2
  | unit hf hread hresolves =>
    obtain ⟨hmessages, hfailures⟩ := hresolves.balanced
    exact ⟨hmessages, hfailures.imp_left fun ⟨hopens, hrest⟩ => ⟨fun hown => hopens hown.2, hrest⟩⟩

/-- A deadline that has come ends a reception, which is reported. -/
lemma balanced_advance (now : Instant) :
    (r.advance now).1.held = r.held ∧
      ((r.advance now).2 = none ∧ (r.advance now).1.untold = r.untold ∨
        (r.advance now).1.untold = (r.advance now).2.toList) := by
  unfold Receiver.advance
  cases hphase : r.phase with
  | receiving m =>
    dsimp only
    split
    · exact ⟨rfl, .inl ⟨rfl, rfl⟩⟩
    · refine ⟨?_, .inr rfl⟩
      rw [Receiver.held_of_ne (by simp [Receiver.status, Receiver.giveUp]),
        Receiver.held_of_ne (by simp [Receiver.status, hphase])]
  | idle | done | failed => exact ⟨rfl, .inl ⟨rfl, rfl⟩⟩

lemma Elapses.balanced (h : Elapses now c x new events) :
    Balanced c.receiver x.receiver events [] [] False := by
  cases h with
  | @mk q s answers parts event hretries hadvances =>
    have hq : q.held = c.receiver.held ∧ q.untold = c.receiver.untold := by
      cases hretries with
      | nothing | refused => exact ⟨rfl, rfl⟩
      | taken => exact ⟨Receiver.held_answered _, Receiver.untold_answered _⟩
    have hreports (cause : Option Abort) :
        received (cause.toList.map (.failed .receive)) = [] ∧
          aborts (cause.toList.map (.failed .receive)) = cause.toList := by
      cases cause <;> exact ⟨rfl, rfl⟩
    obtain ⟨hheld, hcases⟩ := balanced_advance (r := q) now
    obtain ⟨hreceived, haborts⟩ := hreports (q.advance now).2
    refine ⟨?_, ?_⟩
    · rw [received_append, hreceived, received_sendEvent, hheld, hq.1]
      simp
    · rw [aborts_append, haborts, aborts_sendEvent, List.append_nil]
      rcases hcases with ⟨hnone, huntold⟩ | huntold
      · exact .inl ⟨id, rfl, by rw [hnone]; rfl, huntold.trans hq.2⟩
      · exact .inr ⟨List.nil_sublist _, huntold⟩

lemma Sends.balanced {ε : Type} {id : CanId} {payload : Bytes} {value : Except (Error ε) Unit}
    (h : Sends now id payload c x new events value) :
    Balanced c.receiver x.receiver events [] [] False := by
  cases h with
  | error => exact balanced_of_still not_false rfl rfl
  | ok => exact balanced_of_still not_false (received_sendEvent _) (aborts_sendEvent _)

/-! ### Collecting -/

/-- A complete message is handed out if there is room for it and kept if not, and a failure is told
and dropped. -/
lemma collect_cases (h : r.Sound) (room : Nat) :
    (r.status = .done ∧ r.collect room =
      if r.message.length ≤ room then (r.clear, .ok r.message)
      else (r, .error (.noRoom r.message.length))) ∨
    (∃ cause, r.phase = .failed cause ∧ r.collect room = (r.clear, .error (.aborted cause))) ∨
    (r.status ≠ .done ∧ r.collect room = (r, .error .noMessage)) := by
  unfold Receiver.collect Receiver.status Receiver.message
  cases hphase : r.phase with
  | done =>
    obtain ⟨data, hdata, -⟩ := h.read? ⟨h.fits, h.fits, rfl⟩ hphase
    have hlength := Buffer.length_of_read? hdata
    refine .inl ⟨rfl, ?_⟩
    simp only [hdata, Option.getD_some, hlength]
    by_cases hroom : r.written ≤ room
    · rw [if_pos hroom, if_neg (by omega)]
    · rw [if_neg hroom, if_pos (by omega)]
  | failed cause => exact .inr (.inl ⟨cause, rfl, rfl⟩)
  | idle | receiving => exact .inr (.inr ⟨by simp, rfl⟩)

namespace Record

variable {σ ε : Type} (r : Record σ ε)

/-- The message that a call hands out. -/
def collected : List Bytes :=
  match r.reply with
  | .collected (.ok data) => [data]
  | _ => []

/-- The failure that a call tells. -/
def told : List Abort :=
  match r.reply with
  | .collected (.error (.aborted cause)) => [cause]
  | _ => []

/-- A collection that yields no message tells a failure, or else that there is no message, or no
room for it. -/
def Explains : Prop :=
  ∀ e, r.reply = .collected (.error e) →
    (∃ cause, e = .aborted cause ∧ r.told = [cause]) ∨ e = .noMessage ∨ ∃ len, e = .noRoom len

/-- A call that takes in a frame of its channel that opens a message. -/
def Opens : Prop := ∃ f, r.op = .frame f ∧ OpensOwn r.before f

/-- The balance of a call. -/
def IsBalanced : Prop :=
  Balanced r.before.receiver r.after.receiver r.events r.collected r.told r.Opens

end Record

variable {σ ε : Type}

section Calls

variable [Link σ ε]

/-- To collect a message or to be told a failure keeps the balance. -/
lemma Sound.balanced_collect (hc : c.Sound) (line : σ) (now : Instant) (room : Nat) :
    let y := Host.step ⟨c, line⟩ now (.collect room)
    Balanced c.receiver y.2.after.receiver [] y.2.collected y.2.told False := by
  rcases collect_cases hc.receiver room with
    ⟨hdone, hcollect⟩ | ⟨cause, hphase, hcollect⟩ | ⟨-, hcollect⟩
  · simp only [Host.step, Channel.collect, hcollect]
    split
    · refine ⟨?_, .inr ⟨List.nil_sublist _, rfl⟩⟩
      rw [Receiver.held_of_done hdone]
      rfl
    · exact balanced_of_still not_false rfl rfl
  · simp only [Host.step, Channel.collect, hcollect]
    refine ⟨?_, .inr ⟨?_, rfl⟩⟩
    · rw [Receiver.held_of_ne (by simp [Receiver.status, hphase])]
      rfl
    · rw [Receiver.untold_of_phase hphase]
      exact List.Sublist.refl _
  · simp only [Host.step, Channel.collect, hcollect]
    exact balanced_of_still not_false rfl rfl

/-- Every call of a channel keeps the balance. -/
theorem Sound.balanced {z : Option Cargo} (hc : c.Sound) (hready : c.sender.Ready c.cfg z)
    (line : σ) (now : Instant) (op : Op σ) : (Host.step ⟨c, line⟩ now op).2.IsBalanced := by
  -- of the calls, only a frame can open a message
  have hnot {events : List Event} {r' : Receiver} {out : List Bytes} {told : List Abort}
      (h : Balanced c.receiver r' events out told False) (hop : ∀ f, op ≠ .frame f) :
      Balanced c.receiver r' events out told (∃ f, op = .frame f ∧ OpensOwn c f) := by
    have hfalse : (∃ f, op = .frame f ∧ OpensOwn c f) = False :=
      propext ⟨fun ⟨f, hf, _⟩ => hop f hf, False.elim⟩
    rwa [hfalse]
  cases op with
  | send payload =>
    obtain ⟨value, -, hsends⟩ := Host.step_send (h := ⟨c, line⟩) now hready payload
    exact hnot hsends.balanced (by simp)
  | sendAs id payload =>
    obtain ⟨value, -, hsends⟩ := Host.step_sendAs (h := ⟨c, line⟩) now hready id payload
    exact hnot hsends.balanced (by simp)
  | frame f =>
    have hframe := (Host.step_frame (h := ⟨c, line⟩) now hc.valid f).balanced
    have hown : OpensOwn c f = ∃ f', Op.frame (σ := σ) f = .frame f' ∧ OpensOwn c f' :=
      propext ⟨fun hown => ⟨f, rfl, hown⟩, fun ⟨f', hf', hown⟩ => by cases hf'; exact hown⟩
    rw [hown] at hframe
    exact hframe
  | advance => exact hnot (Host.step_advance (h := ⟨c, line⟩) now hready).balanced (by simp)
  | collect room => exact hnot (hc.balanced_collect line now room) (by simp)
  | cancel => exact hnot (balanced_of_still not_false rfl rfl) (by simp)
  | setPolicy policy => exact hnot (balanced_of_still not_false rfl rfl) (by simp)
  | setLine line => exact hnot (balanced_of_still not_false rfl rfl) (by simp)

theorem Sound.explains (hc : c.Sound) (line : σ) (now : Instant) (op : Op σ) :
    (Host.step ⟨c, line⟩ now op).2.Explains := by
  intro e he
  cases op with
  | collect room =>
    have hresult : (c.receiver.collect room).2 = .error e := Reply.collected.inj he
    rcases collect_cases hc.receiver room with
      ⟨-, hcollect⟩ | ⟨cause, -, hcollect⟩ | ⟨-, hcollect⟩
    · rw [hcollect] at hresult
      split at hresult <;> cases hresult
      exact .inr (.inr ⟨_, rfl⟩)
    · rw [hcollect] at hresult
      cases hresult
      refine .inl ⟨cause, rfl, ?_⟩
      simp only [Record.told, he]
    · rw [hcollect] at hresult
      cases hresult
      exact .inr (.inl rfl)
  | send | sendAs | frame | advance | cancel | setPolicy | setLine => cases he

end Calls

/-! ### While a message waits -/

/-- What a call does while a complete message waits: only to collect it changes the receiver, which
hands it out if there is room for it; a first frame is refused once, and a single frame does
nothing. -/
structure Record.Spares (cfg : Config) (r : Record σ ε) : Prop where
  kept : (∀ room, r.op = .collect room → room < r.before.receiver.message.length) →
    r.after.receiver = r.before.receiver
  collect : ∀ room, r.op = .collect room →
    if r.before.receiver.message.length ≤ room then
      r.reply = .collected (.ok r.before.receiver.message) ∧ r.after.receiver.status = .idle
    else r.reply = .collected (.error (.noRoom r.before.receiver.message.length))
  first : ∀ f len data, r.op = .frame f → f.remote = false → f.id = cfg.rxId →
    Pdu.decode f.data = .first len data →
      ∃ taken, r.offers = [⟨FlowControl.overflow.frame cfg, taken⟩] ∧ r.events = []
  single : ∀ f len data, r.op = .frame f → f.remote = false → f.id = cfg.rxId →
    Pdu.decode f.data = .single len data → r.offers = [] ∧ r.events = []

lemma phase_of_done (hdone : r.status = .done) : r.phase = .done := by
  unfold Receiver.status at hdone
  cases hphase : r.phase with
  | done => rfl
  | idle | receiving | failed => simp [hphase] at hdone

lemma Accepts.of_done {f : Frame} (h : Accepts now f c x new events)
    (hdone : c.receiver.status = .done) : x.receiver = c.receiver ∧
      (f.remote = false → f.id = c.cfg.rxId →
        (∀ len data, Pdu.decode f.data = .first len data →
          ∃ taken, new = [⟨FlowControl.overflow.frame c.cfg, taken⟩] ∧ events = []) ∧
        ∀ len data, Pdu.decode f.data = .single len data → new = [] ∧ events = []) := by
  have hphase := phase_of_done hdone
  cases h with
  | foreign hf => exact ⟨rfl, fun hremote hid => absurd hf (by simp [hremote, hid])⟩
  | flowControl hf hread =>
    exact ⟨rfl, fun _ _ => ⟨fun _ _ hfirst => by simp [hread] at hfirst,
      fun _ _ hsingle => by simp [hread] at hsingle⟩⟩
  | unit hf hread hresolves =>
    rw [Receiver.accept_of_done hdone] at hresolves
    cases hdecode : Pdu.decode f.data with
    | first len data =>
      rw [hdecode] at hresolves
      cases hresolves with
      | answered =>
        exact ⟨rfl, fun _ _ => ⟨fun _ _ _ => ⟨_, rfl, rfl⟩, fun _ _ hsingle => nomatch hsingle⟩⟩
      | postponed =>
        refine ⟨?_, fun _ _ => ⟨fun _ _ _ => ⟨_, rfl, rfl⟩, fun _ _ hsingle => nomatch hsingle⟩⟩
        simp only [Receiver.postpone, hphase]
    | single | consecutive | flowControl | invalid =>
      rw [hdecode] at hresolves
      cases hresolves
      exact ⟨rfl, fun _ _ => ⟨fun _ _ hfirst => (nomatch hfirst), fun _ _ _ => ⟨rfl, rfl⟩⟩⟩

lemma Elapses.of_done (h : Elapses now c x new events) (hdone : c.receiver.status = .done) :
    x.receiver = c.receiver := by
  have hphase := phase_of_done hdone
  have howed : c.receiver.owed = none := by simp only [Receiver.owed, hphase]
  cases h with
  | mk hretries hadvances =>
    cases hretries with
    | nothing => simp only [Receiver.advance, hphase]
    | taken hsome | refused hsome => simp [howed] at hsome

lemma Sends.receiver_eq {id : CanId} {payload : Bytes} {value : Except (Error ε) Unit}
    (h : Sends now id payload c x new events value) : x.receiver = c.receiver := by
  cases h <;> rfl

lemma Record.spares_of_kept {cfg : Config} {y : Record σ ε}
    (hkept : y.after.receiver = y.before.receiver) (hframe : ∀ f, y.op ≠ .frame f)
    (hcollect : ∀ room, y.op ≠ .collect room) : y.Spares cfg :=
  ⟨fun _ => hkept, fun room h => absurd h (hcollect room), fun f _ _ h => absurd h (hframe f),
    fun f _ _ h => absurd h (hframe f)⟩

/-- A complete message is kept through every call but its collection. -/
theorem Sound.spares [Link σ ε] {z : Option Cargo} (hc : c.Sound) (hready : c.sender.Ready c.cfg z)
    (hdone : c.receiver.status = .done) (line : σ) (now : Instant) (op : Op σ) :
    (Host.step ⟨c, line⟩ now op).2.Spares c.cfg := by
  cases op with
  | send payload =>
    obtain ⟨value, -, hsends⟩ := Host.step_send (h := ⟨c, line⟩) now hready payload
    exact Record.spares_of_kept hsends.receiver_eq (by simp) (by simp)
  | sendAs id payload =>
    obtain ⟨value, -, hsends⟩ := Host.step_sendAs (h := ⟨c, line⟩) now hready id payload
    exact Record.spares_of_kept hsends.receiver_eq (by simp) (by simp)
  | frame f =>
    obtain ⟨hkept, hown⟩ :=
      (Host.step_frame (h := ⟨c, line⟩) now hc.valid f).of_done hdone
    refine ⟨fun _ => hkept, by simp, ?_, ?_⟩
    · intro f' len data hf' hremote hid hread
      cases hf'
      exact (hown hremote hid).1 len data hread
    · intro f' len data hf' hremote hid hread
      cases hf'
      exact (hown hremote hid).2 len data hread
  | advance =>
    have helapses := Host.step_advance (h := ⟨c, line⟩) now hready
    exact Record.spares_of_kept (helapses.of_done hdone) (by simp) (by simp)
  | collect room =>
    rcases collect_cases hc.receiver room with
      ⟨-, hcollect⟩ | ⟨cause, hphase, -⟩ | ⟨hne, -⟩
    · refine ⟨fun hroom => ?_, fun room' hop => ?_, by simp, by simp⟩
      · have hless : room < c.receiver.message.length := hroom room rfl
        simp only [Host.step, Channel.collect, hcollect, if_neg (Nat.not_le.2 hless)]
      · obtain rfl : room = room' := Op.collect.inj hop
        simp only [Host.step, Channel.collect, hcollect]
        split
        · exact ⟨rfl, rfl⟩
        · rfl
    · simp [Receiver.status, hphase] at hdone
    · exact absurd hdone hne
  | cancel => exact Record.spares_of_kept rfl (by simp) (by simp)
  | setPolicy policy => exact Record.spares_of_kept rfl (by simp) (by simp)
  | setLine line => exact Record.spares_of_kept rfl (by simp) (by simp)

/-! ### Runs -/

/-- A failure was reported by one of these calls, and after it none told or reported a failure or
opened a message. -/
def Pending (past : List (Record σ ε)) (cause : Abort) : Prop :=
  ∃ u e v, past = u ++ e :: v ∧ cause ∈ aborts e.events ∧
    ∀ k ∈ v, k.told = [] ∧ aborts k.events = [] ∧ ¬k.Opens

variable {y : Record σ ε}

namespace Record.IsBalanced

lemma pending (h : y.IsBalanced) (past : List (Record σ ε))
    (hpast : ∀ cause ∈ y.before.receiver.untold, Pending past cause) :
    ∀ cause ∈ y.after.receiver.untold, Pending (past ++ [y]) cause := by
  intro cause hcause
  rcases h.failures with ⟨hopens, htold, haborts, hsame⟩ | ⟨-, hfresh⟩
  · rw [hsame] at hcause
    obtain ⟨u, e, v, rfl, he, hv⟩ := hpast cause hcause
    refine ⟨u, e, v ++ [y], by simp, he, fun k hk => ?_⟩
    rcases List.mem_append.1 hk with hk | hk
    · exact hv k hk
    · rw [List.mem_singleton.1 hk]
      exact ⟨htold, haborts, hopens⟩
  · rw [hfresh] at hcause
    exact ⟨past, y, [], rfl, hcause, by simp⟩

/-- Only a failure that was left is told. -/
lemma told_sublist (h : y.IsBalanced) : y.told.Sublist y.before.receiver.untold := by
  rcases h.failures with ⟨-, htold, -⟩ | ⟨htold, -⟩
  · rw [htold]
    exact List.nil_sublist _
  · exact htold

lemma sublist (h : y.IsBalanced) : (y.told ++ y.after.receiver.untold).Sublist
    (y.before.receiver.untold ++ aborts y.events) := by
  rcases h.failures with ⟨-, htold, haborts, hsame⟩ | ⟨htold, hfresh⟩
  · rw [htold, haborts, hsame, List.append_nil]
    exact List.Sublist.refl _
  · rw [hfresh]
    exact htold.append (List.Sublist.refl _)

end Record.IsBalanced

variable [Link σ ε]

/-- What a run hands out and tells, with what is left of it at the end, is what was left at its
start and what it reports. -/
theorem Sound.accounts {z : Option Cargo} (hc : c.Sound) (hready : c.sender.Ready c.cfg z)
    (line : σ) (calls : List (Instant × Op σ)) {past : List (Record σ ε)}
    (hpast : ∀ cause ∈ c.receiver.untold, Pending past cause) :
    let records := Host.trace ⟨c, line⟩ calls
    let last := (Host.run ⟨c, line⟩ calls).channel.receiver
    c.receiver.held ++ received (records.flatMap Record.events) =
        records.flatMap Record.collected ++ last.held ∧
      (records.flatMap Record.told ++ last.untold).Sublist
        (c.receiver.untold ++ aborts (records.flatMap Record.events)) ∧
      (∀ y ∈ records, y.Explains ∧ (y.before.receiver.status = .done → y.Spares c.cfg)) ∧
      ∀ u y v, records = u ++ y :: v → ∀ cause ∈ y.told, Pending (past ++ u) cause := by
  induction calls generalizing c line z past with
  | nil =>
    refine ⟨?_, ?_, by simp [Host.trace], ?_⟩
    · simp [Host.trace, received]
    · simp [Host.trace, aborts]
    · intro u y v h
      simp [Host.trace] at h
  | cons call calls ih =>
    have hbalanced := hc.balanced hready line call.1 call.2
    have hmessages := hbalanced.messages
    have hsublist := hbalanced.sublist
    have htold := hbalanced.told_sublist
    have hpending := hbalanced.pending past
    rw [Host.step_before] at hmessages hsublist htold hpending
    obtain ⟨hcfg, z', -, hready'⟩ := Host.step_moves ⟨c, line⟩ hready call.1 call.2
    have hsound := (hc.step hc.twin_refl line call.1 call.2).1.sound hc
    rw [← hcfg] at hready'
    rw [Host.step_after] at hmessages hsublist hpending
    obtain ⟨hmessages', hsublist', hcalls', htold'⟩ := ih hsound hready'
      (Host.step ⟨c, line⟩ call.1 call.2).1.line (hpending hpast)
    simp only [Host.trace_cons, Host.run_cons, List.flatMap_cons]
    refine ⟨?_, ?_, fun y hy => ?_, fun u y v hrecords cause hcause => ?_⟩
    · rw [received_append, ← List.append_assoc, hmessages, List.append_assoc, List.append_assoc]
      exact congrArg _ hmessages'
    · rw [aborts_append, ← List.append_assoc, List.append_assoc]
      refine (hsublist'.append_left _).trans ?_
      rw [← List.append_assoc]
      exact hsublist.append_right _
    · rcases List.mem_cons.1 hy with rfl | hy
      · refine ⟨hc.explains line call.1 call.2, fun hdone => ?_⟩
        rw [Host.step_before] at hdone
        exact hc.spares hready hdone line call.1 call.2
      · rw [← hcfg]
        exact hcalls' y hy
    · rcases List.cons_eq_append_iff.1 hrecords with ⟨rfl, hy⟩ | ⟨w, rfl, hrest⟩
      · rw [(List.cons.inj hy).1] at hcause
        rw [List.append_nil]
        exact hpast cause (htold.subset hcause)
      · have hlater := htold' w y v hrest cause hcause
        rw [List.append_assoc] at hlater
        exact hlater

/-! ### Main statement -/

/-- **Received messages are handed out once each, as they came and in their order.** Whatever the
calls, their instants and the link: the messages reported as received are those handed out, and
after them the one that is held, if there is one. While it is held, no call but its collection
changes the receiver. The failures told are a subsequence of those reported: each is the last one
reported before, was told by no call since, and no frame has opened a message since; and a
collection that yields nothing tells one, unless there is no message or no room for it. -/
theorem collected_of_run {cfg : Config} (hc : Fresh cfg c) (line : σ)
    (calls : List (Instant × Op σ)) :
    let records := Host.trace ⟨c, line⟩ calls
    received (records.flatMap Record.events) =
        records.flatMap Record.collected ++ (Host.run ⟨c, line⟩ calls).channel.receiver.held ∧
      (∀ y ∈ records, y.Explains ∧ (y.before.receiver.status = .done → y.Spares cfg)) ∧
      (records.flatMap Record.told).Sublist (aborts (records.flatMap Record.events)) ∧
      ∀ u y v, records = u ++ y :: v → ∀ cause ∈ y.told, Pending u cause := by
  intro records
  obtain ⟨hsound, -, -⟩ := hc.sound
  obtain ⟨rfl, hready⟩ := hc.ready
  have hidle : c.receiver.held = [] ∧ c.receiver.untold = [] := by
    obtain ⟨-, tx, rx, -, -, hnew⟩ := hc.eq_new
    rw [hnew]
    exact ⟨rfl, rfl⟩
  have hpast : ∀ cause ∈ c.receiver.untold, Pending ([] : List (Record σ ε)) cause := by
    rw [hidle.2]
    simp
  obtain ⟨hmessages, hfailures, hcalls, htold⟩ := hsound.accounts hready line calls hpast
  rw [hidle.1] at hmessages
  rw [hidle.2] at hfailures
  exact ⟨hmessages, hcalls, (List.sublist_append_left ..).trans hfailures, htold⟩

/-- A message that is kept when a second one is announced and when there is no room for it, and
then a reception that fails. -/
theorem collected_of_run_kept_message :
    let cfg : Config := { rxId := .standard 1 }
    let c : Channel :=
      ⟨cfg, cfg.policy, .new (.zeroed 4095) 4095, .new (.zeroed 4095) 4095⟩
    let first : Frame := ⟨.standard 1, [0x10, 20, 1, 2, 3, 4, 5, 6], false⟩
    let calls : List (Instant × Op Quota) :=
      [(0, .frame ⟨.standard 1, [3, 7, 8, 9], false⟩), (1, .frame first), (2, .collect 2),
        (3, .collect 3), (4, .frame first), (5, .frame ⟨.standard 1, [0x25, 7, 8], false⟩),
        (6, .collect 20)]
    let records := Host.trace ⟨c, (⟨none⟩ : Quota)⟩ calls
    Fresh cfg c ∧
      received (records.flatMap Record.events) = records.flatMap Record.collected ++
        (Host.run ⟨c, (⟨none⟩ : Quota)⟩ calls).channel.receiver.held ∧
      records.map Record.collected = [[], [], [], [[7, 8, 9]], [], [], []] ∧
      records.map Record.told = [[], [], [], [], [], [], [.outOfTurn 1 5]] := by
  intro cfg c first calls records
  have hc : Fresh cfg c := .ofBuffers (.zeroed 4095) (.zeroed 4095) rfl
  exact ⟨hc, (collected_of_run hc (⟨none⟩ : Quota) calls).1, by decide +kernel, by decide +kernel⟩

end Channel

end IsoTp
