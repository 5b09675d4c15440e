import IsoTp.Proofs.Channel.Outcome
import IsoTp.Proofs.Channel.Transmission

/-!
The flow control that a channel offers, told by the decisions behind it.

A receiver decides on flow control when a first frame comes and at the end of every block. Flow
control that the link refuses is owed and offered again as time passes. Decisions are numbered
within their reception, and every flow control frame is put down to its decision.

What is owed is not dropped when the link takes the flow control of a later decision, so that the
older one follows it. Where this does not happen, nothing is offered any more of a decision, or of
one before it, once the link took it.
-/

namespace IsoTp

/-- The flow control that an outcome is to send. -/
def Receiver.Outcome.flowControl? : Receiver.Outcome → Option FlowControl
  | .answer fc | .refusal fc => some fc
  | _ => Option.none

namespace Receiver

variable {r : Receiver}

/-- A unit leaves owed what was owed, or nothing; a first frame and a refusal leave nothing. -/
lemma owed_accept (cfg : Config) (policy : FlowPolicy) (now : Instant) (pdu : Pdu) :
    let x := r.accept cfg policy now pdu
    x.1.owed = none ∨ x.1.owed = r.owed ∧ pdu.isFirst = false ∧ ∀ fc, x.2 ≠ .refusal fc := by
  unfold Receiver.accept
  cases pdu with
  | single len data =>
    dsimp only
    split
    · exact .inr ⟨rfl, rfl, by simp⟩
    · refine .inl ?_
      unfold Receiver.single Receiver.giveUp
      repeat' split
      all_goals rfl
  | first len data =>
    refine .inl ?_
    dsimp only
    split
    · next hdone =>
      unfold Receiver.status at hdone
      unfold Receiver.owed
      split <;> simp_all
    · unfold Receiver.first Receiver.giveUp
      dsimp only
      repeat' split
      all_goals rfl
  | consecutive sn data =>
    dsimp only
    split
    · next m hphase =>
      have howed : r.owed = m.owed := by simp only [Receiver.owed, hphase]
      unfold Receiver.consecutive Receiver.giveUp
      dsimp only
      rw [howed]
      repeat' split
      all_goals first
        | exact .inl rfl
        | exact .inr ⟨rfl, rfl, by simp⟩
    · exact .inr ⟨rfl, rfl, by simp⟩
  | flowControl | invalid => exact .inr ⟨rfl, rfl, by simp⟩

lemma owed_postpone (fc : FlowControl) (deadline : Instant) :
    (r.postpone fc deadline).owed = some fc ∨ (r.postpone fc deadline).owed = none := by
  obtain ⟨_ | _ | _ | _, _, _⟩ := r
  · exact .inr rfl
  · exact .inl rfl
  · exact .inr rfl
  · exact .inr rfl

lemma owed_answered (deadline : Instant) : (r.answered deadline).owed = none := by
  obtain ⟨_ | _ | _ | _, _, _⟩ := r <;> rfl

lemma owed_advance (now : Instant) :
    (r.advance now).1.owed = none ∨ (r.advance now).1.owed = r.owed := by
  unfold Receiver.advance
  split
  · split
    · exact .inr rfl
    · exact .inl rfl
  · exact .inr rfl

lemma owed_collect (room : Nat) :
    (r.collect room).1.owed = none ∨ (r.collect room).1.owed = r.owed := by
  unfold Receiver.collect
  repeat' split
  all_goals first
    | exact .inr rfl
    | exact .inl rfl

end Receiver

open Segmentation

namespace Channel

/-! ### What a call does about flow control -/

/-- The flow control that a channel decides on when a frame comes, and whether it opens a
reception. -/
def decides (now : Instant) (f : Frame) (c : Channel) : Option (Bool × FlowControl) :=
  if f.remote ∨ f.id ≠ c.cfg.rxId then none
  else
    let pdu := Pdu.decode f.data
    (c.receiver.accept c.cfg c.policy now pdu).2.flowControl?.map (pdu.isFirst, ·)

namespace Record

variable {σ ε : Type} (y : Record σ ε)

/-- The flow control that a call decides on, and whether it opens a reception. -/
def decides : Option (Bool × FlowControl) :=
  match y.op with
  | .frame f => y.before.decides y.now f
  | _ => none

/-- The flow control frames that a call offers. -/
def answers : List Offer := y.offers.filter (!·.frame.carriesPart)

end Record

/-- What a call can do about flow control: nothing, offer again what is owed, or offer what it
decides on. Only the end of a block leaves an older answer owed when the link takes the new one. -/
inductive Answers (cfg : Config) (owed owed' : Option FlowControl) :
    Option (Bool × FlowControl) → List Offer → Prop
  | nothing (h : owed' = none ∨ owed' = owed) : Answers cfg owed owed' none []
  | again {fc : FlowControl} {taken : Bool} (howed : owed = some fc)
      (h : owed' = none ∨ taken = false ∧ owed' = owed) :
      Answers cfg owed owed' none [⟨fc.frame cfg, taken⟩]
  | decided {opens : Bool} {fc : FlowControl} {taken : Bool}
      (h : owed' = none ∨ taken = false ∧ owed' = some fc ∨
        taken = true ∧ opens = false ∧ owed' = owed) :
      Answers cfg owed owed' (some (opens, fc)) [⟨fc.frame cfg, taken⟩]

variable {cfg : Config} {c x : Channel} {now : Instant} {new : List Offer} {events : List Event}

/-- Frames with parts of messages are no flow control. -/
lemma answers_of_parts (h : ∀ o ∈ new, IsPart cfg o.frame.data) :
    new.filter (!·.frame.carriesPart) = [] := by
  refine List.filter_eq_nil_iff.2 fun o ho => ?_
  have hpart : o.frame.carriesPart = true := (h o ho).carriesPart o.frame.id o.frame.remote
  simp [hpart]

lemma answers_of_frame (hcfg : cfg.Valid) (fc : FlowControl) (taken : Bool) :
    [(⟨fc.frame cfg, taken⟩ : Offer)].filter (!·.frame.carriesPart) = [⟨fc.frame cfg, taken⟩] := by
  simp [FlowControl.carriesPart_frame hcfg fc]

/-- Flow control for what comes of a unit: it is decided on as the outcome says, and owed if the
link refuses it. -/
lemma Resolves.answers (hcfg : c.cfg.Valid) {pdu : Pdu} {r' : Receiver}
    (h : Resolves now { c with receiver := (c.receiver.accept c.cfg c.policy now pdu).1 }
      (c.receiver.accept c.cfg c.policy now pdu).2 r' new events) :
    Answers c.cfg c.receiver.owed r'.owed
      ((c.receiver.accept c.cfg c.policy now pdu).2.flowControl?.map (pdu.isFirst, ·))
      (new.filter (!·.frame.carriesPart)) := by
  have howed := Receiver.owed_accept (r := c.receiver) c.cfg c.policy now pdu
  generalize c.receiver.accept c.cfg c.policy now pdu = z at h howed
  obtain ⟨q, outcome⟩ := z
  have hsame : q.owed = Option.none ∨ q.owed = c.receiver.owed := howed.imp_right And.left
  cases h with
  | none => exact .nothing hsame
  | complete | failed => exact .nothing hsame
  | answered fc =>
    rw [answers_of_frame hcfg]
    exact .decided (howed.imp_right fun ⟨heq, hfirst, _⟩ => .inr ⟨rfl, hfirst, heq⟩)
  | postponed fc =>
    rw [answers_of_frame hcfg]
    exact .decided ((Receiver.owed_postpone fc _).symm.imp_right fun heq => .inl ⟨rfl, heq⟩)
  | refusal fc taken =>
    rw [answers_of_frame hcfg]
    exact .decided (howed.imp_right fun ⟨_, _, hrefusal⟩ => absurd rfl (hrefusal fc))

lemma Accepts.answers (hcfg : c.cfg.Valid) {f : Frame} (h : Accepts now f c x new events) :
    Answers c.cfg c.receiver.owed x.receiver.owed (c.decides now f)
      (new.filter (!·.frame.carriesPart)) := by
  unfold decides
  cases h with
  | foreign hf =>
    rw [if_pos hf]
    exact .nothing (.inr rfl)
  | flowControl hf hread =>
    rw [if_neg hf, hread]
    exact .nothing (.inr rfl)
  | unit hf hread hresolves =>
    rw [if_neg hf]
    exact hresolves.answers hcfg

lemma Retries.answers (hcfg : c.cfg.Valid) {r' : Receiver} (h : Retries now c r' new) :
    Answers c.cfg c.receiver.owed (r'.advance now).1.owed none
      (new.filter (!·.frame.carriesPart)) := by
  have hadvance := Receiver.owed_advance (r := r') now
  cases h with
  | nothing => exact .nothing hadvance
  | taken howed =>
    rw [answers_of_frame hcfg]
    rw [Receiver.owed_answered, or_self] at hadvance
    exact .again howed (.inl hadvance)
  | refused howed =>
    rw [answers_of_frame hcfg]
    exact .again howed (hadvance.imp_right fun heq => ⟨rfl, heq⟩)

lemma Elapses.answers (hcfg : c.cfg.Valid) (h : Elapses now c x new events) :
    Answers c.cfg c.receiver.owed x.receiver.owed none (new.filter (!·.frame.carriesPart)) := by
  cases h with
  | mk hretries hadvances =>
    rw [List.filter_append, answers_of_parts hadvances.isPart, List.append_nil]
    exact hretries.answers hcfg

lemma Sends.answers {ε : Type} {id : CanId} {payload : Bytes} {value : Except (Error ε) Unit}
    (h : Sends now id payload c x new events value) :
    x.receiver = c.receiver ∧ new.filter (!·.frame.carriesPart) = [] := by
  cases h with
  | error hbegins => exact ⟨rfl, answers_of_parts hbegins.isPart⟩
  | ok hbegins => exact ⟨rfl, answers_of_parts hbegins.isPart⟩

/-- Every call does one of these things about flow control. -/
theorem Host.step_answers {σ ε : Type} [Link σ ε] {h : Host σ} {z : Option Cargo}
    (hready : h.channel.sender.Ready h.channel.cfg z) (now : Instant) (op : Op σ) :
    Answers h.channel.cfg h.channel.receiver.owed (h.step now op).1.channel.receiver.owed
      (h.step now op).2.decides (h.step now op).2.answers := by
  unfold Record.decides Record.answers
  rw [step_op, step_now, step_before]
  cases op with
  | send payload =>
    obtain ⟨value, -, hsends⟩ := step_send now hready payload
    obtain ⟨hreceiver, hanswers⟩ := hsends.answers
    rw [hreceiver, hanswers]
    exact .nothing (.inr rfl)
  | sendAs id payload =>
    obtain ⟨value, -, hsends⟩ := step_sendAs now hready id payload
    obtain ⟨hreceiver, hanswers⟩ := hsends.answers
    rw [hreceiver, hanswers]
    exact .nothing (.inr rfl)
  | frame f => exact (step_frame (h := h) now hready.valid f).answers hready.valid
  | advance => exact (step_advance now hready).answers hready.valid
  | collect room => exact .nothing (Receiver.owed_collect room)
  | cancel => exact .nothing (.inr rfl)
  | setPolicy policy => exact .nothing (.inr rfl)
  | setLine line => exact .nothing (.inr rfl)

/-! ### Decisions -/

/-- A decision on flow control: its number, from 0, in the reception of this number. -/
structure Decision where
  reception : Nat
  number : Nat
  fc : FlowControl
deriving DecidableEq, Repr

/-- One decision was made earlier than another. -/
def Decision.Before (d e : Decision) : Prop :=
  d.reception < e.reception ∨ d.reception = e.reception ∧ d.number < e.number

instance (d e : Decision) : Decidable (d.Before e) := inferInstanceAs (Decidable (_ ∨ _))

/-- Flow control put before the link, with the decision that it tells. -/
structure Attempt where
  decision : Decision
  offer : Offer
deriving DecidableEq, Repr

/-- If the link took the first, the second is of a later decision. -/
def Attempt.Leads (x z : Attempt) : Prop := x.offer.taken → x.decision.Before z.decision

instance (x z : Attempt) : Decidable (x.Leads z) := inferInstanceAs (Decidable (_ → _))

/-- The number of receptions opened, that of the decisions in the last of them, and the last
decision of which the link refused the flow control. -/
structure Ledger where
  reception : Nat := 0
  made : Nat := 0
  refused : Option Decision := none

namespace Ledger

variable {σ ε : Type} (l : Ledger) (y : Record σ ε)

/-- The decision that a call makes. -/
def decision? : Option Decision :=
  y.decides.map fun (opens, fc) =>
    if opens then ⟨l.reception + 1, 0, fc⟩ else ⟨l.reception, l.made, fc⟩

/-- The decision that the flow control of a call tells: that of the call, or else the one refused
last. -/
def source? : Option Decision := (l.decision? y).or l.refused

/-- The flow control that a call puts before the link. -/
def attempts : List Attempt := y.answers.filterMap fun o => (l.source? y).map (⟨·, o⟩)

def step : Ledger :=
  let refused := if y.answers.all Offer.taken then l.refused else l.source? y
  match l.decision? y with
  | none => { l with refused }
  | some d => ⟨d.reception, d.number + 1, refused⟩

/-- The flow control that calls put before the link, in order. -/
def log : Ledger → List (Record σ ε) → List Attempt
  | _, [] => []
  | l, y :: ys => l.attempts y ++ (l.step y).log ys

/-- The ledger after a list of calls. -/
def run (ys : List (Record σ ε)) : Ledger := ys.foldl step l

/-- The decision is in the ledger. -/
def Made (d : Decision) : Prop :=
  d.reception < l.reception ∨ d.reception = l.reception ∧ d.number < l.made

end Ledger

/-- A call at the end of a block whose flow control the link takes while an older one is owed. -/
def Record.Overtakes {σ ε : Type} (y : Record σ ε) : Prop :=
  y.before.receiver.owed.isSome ∧ y.decides.any (!·.1) ∧ y.answers.any Offer.taken

instance {σ ε : Type} (y : Record σ ε) : Decidable y.Overtakes :=
  inferInstanceAs (Decidable (_ ∧ _))

/-! ### Runs -/

/-- What a ledger tells of the flow control put before the link so far, and of what is owed: all of
it is in the ledger, and of the decision that is owed none was taken. -/
structure Ledger.Covers (l : Ledger) (past : List Attempt) (owed : Option FlowControl) : Prop where
  made : ∀ x ∈ past, l.Made x.decision
  ordered : past.Pairwise Attempt.Leads
  owed : ∀ fc, owed = some fc → ∃ d, l.refused = some d ∧ d.fc = fc ∧ l.Made d ∧
    ∀ x ∈ past, x.offer.taken → x.decision.Before d

namespace Ledger

variable {σ ε : Type} {l : Ledger} {past : List Attempt} {owed owed' : Option FlowControl}
  {d : Decision} {y : Record σ ε}

lemma pairwise_concat (h : past.Pairwise Attempt.Leads)
    (hd : ∀ x ∈ past, x.offer.taken → x.decision.Before d) (o : Offer) :
    (past ++ [(⟨d, o⟩ : Attempt)]).Pairwise Attempt.Leads := by
  refine List.pairwise_append.2 ⟨h, List.pairwise_singleton .., fun x hx z hz => ?_⟩
  rw [List.mem_singleton.1 hz]
  exact hd x hx

lemma forall_mem_concat {P : Attempt → Prop} {x : Attempt} (h : ∀ z ∈ past, P z) (hx : P x) :
    ∀ z ∈ past ++ [x], P z := by
  intro z hz
  rcases List.mem_append.1 hz with hz | hz
  · exact h z hz
  · rw [List.mem_singleton.1 hz]
    exact hx

lemma Covers.anti (h : l.Covers past owed) (howed : owed' = none ∨ owed' = owed) :
    l.Covers past owed' := by
  rcases howed with rfl | rfl
  · exact ⟨h.made, h.ordered, nofun⟩
  · exact h

/-- Of what is owed, nothing was taken, so it can be offered again. -/
lemma Covers.again {fc : FlowControl} (h : l.Covers past (some fc)) (cfg : Config) (taken : Bool)
    (howed : owed' = none ∨ taken = false ∧ owed' = some fc) :
    ∃ d, l.refused = some d ∧ d.fc = fc ∧
      l.Covers (past ++ [⟨d, ⟨fc.frame cfg, taken⟩⟩]) owed' := by
  obtain ⟨d, hrefused, hfc, hmade, hbefore⟩ := h.owed fc rfl
  refine ⟨d, hrefused, hfc, forall_mem_concat h.made hmade, pairwise_concat h.ordered hbefore _, ?_⟩
  rintro fc' rfl
  rcases howed with hnone | ⟨rfl, hsame⟩
  · cases hnone
  · cases hsame
    exact ⟨d, hrefused, hfc, hmade, forall_mem_concat hbefore (by simp)⟩

/-- A decision comes after all that are in the ledger. -/
lemma Covers.decided (h : l.Covers past owed) (hnew : ∀ e, l.Made e → e.Before d)
    (cfg : Config) (taken : Bool) (howed : owed' = none ∨ taken = false ∧ owed' = some d.fc) :
    Covers ⟨d.reception, d.number + 1, if taken then l.refused else some d⟩
      (past ++ [⟨d, ⟨d.fc.frame cfg, taken⟩⟩]) owed' := by
  have hbefore : ∀ x ∈ past, x.decision.Before d := fun x hx => hnew _ (h.made x hx)
  have hself : Made ⟨d.reception, d.number + 1, if taken then l.refused else some d⟩ d :=
    .inr ⟨rfl, Nat.lt_succ_self _⟩
  refine ⟨forall_mem_concat (fun x hx => (hbefore x hx).imp_right fun ⟨heq, hlt⟩ =>
    ⟨heq, Nat.lt_succ_of_lt hlt⟩) hself,
    pairwise_concat h.ordered (fun x hx _ => hbefore x hx) _, ?_⟩
  rintro fc' rfl
  rcases howed with hnone | ⟨rfl, hsame⟩
  · cases hnone
  · cases hsame
    exact ⟨d, rfl, rfl, hself, forall_mem_concat (fun x hx _ => hbefore x hx) (by simp)⟩

/-- A call keeps the ledger, and its own flow control is put down to its decision. -/
lemma Covers.step (h : l.Covers past y.before.receiver.owed) (hover : ¬y.Overtakes)
    (hy : Answers cfg y.before.receiver.owed owed' y.decides y.answers) :
    (l.step y).Covers (past ++ l.attempts y) owed' ∧
      (l.attempts y).map Attempt.offer = y.answers ∧
      ∀ x ∈ l.attempts y, x.offer.frame = x.decision.fc.frame cfg := by
  unfold Record.Overtakes at hover
  unfold Ledger.step attempts source? decision?
  generalize y.before.receiver.owed = owed at h hy hover
  generalize y.decides = decides at hy hover ⊢
  generalize y.answers = answers at hy hover ⊢
  cases hy with
  | nothing howed =>
    refine ⟨?_, by simp, by simp⟩
    simpa using h.anti howed
  | @again fc taken howes howed =>
    subst howes
    obtain ⟨d, hrefused, rfl, hcovers⟩ := h.again cfg taken howed
    obtain ⟨reception, made, refused⟩ := l
    obtain rfl : refused = some d := hrefused
    refine ⟨?_, by simp, by simp⟩
    simpa using hcovers
  | @decided opens fc taken howed =>
    -- at the end of a block nothing was owed, or else the link refused this answer too
    have howed' : owed' = none ∨ taken = false ∧ owed' = some fc := by
      rcases howed with hnone | hrefused | ⟨rfl, rfl, rfl⟩
      · exact .inl hnone
      · exact .inr hrefused
      · refine .inl (Option.not_isSome_iff_eq_none.1 fun hsome => hover ⟨hsome, rfl, rfl⟩)
    have hdecision : (if opens then (⟨l.reception + 1, 0, fc⟩ : Decision)
        else ⟨l.reception, l.made, fc⟩).fc = fc := by
      split <;> rfl
    have hnew (e : Decision) (he : l.Made e) : e.Before
        (if opens then ⟨l.reception + 1, 0, fc⟩ else ⟨l.reception, l.made, fc⟩) := by
      split
      · exact .inl (Nat.lt_succ_of_le (he.elim Nat.le_of_lt fun h => Nat.le_of_eq h.1))
      · exact he
    have hcovers := h.decided hnew cfg taken (by rwa [hdecision])
    rw [hdecision] at hcovers
    refine ⟨?_, by simp, by simp [hdecision]⟩
    cases taken <;> simpa using hcovers

end Ledger

variable {σ ε : Type} [Link σ ε]

/-- A run in which no answer overtakes an older one keeps the ledger. -/
theorem Ledger.covers_run {c : Channel} {line : σ} {z : Option Cargo} {l : Ledger}
    {past : List Attempt} (hready : c.sender.Ready c.cfg z) (h : l.Covers past c.receiver.owed)
    (calls : List (Instant × Op σ))
    (hover : ∀ y ∈ Host.trace ⟨c, line⟩ calls, ¬Record.Overtakes y) :
    let records := Host.trace ⟨c, line⟩ calls
    (l.run records).Covers (past ++ l.log records)
        (Host.run ⟨c, line⟩ calls).channel.receiver.owed ∧
      (l.log records).map Attempt.offer = records.flatMap Record.answers ∧
      ∀ x ∈ l.log records, x.offer.frame = x.decision.fc.frame c.cfg := by
  induction calls generalizing c line z l past with
  | nil => exact ⟨by simpa [log, run, Host.trace] using h, rfl, nofun⟩
  | cons call calls ih =>
    rw [Host.trace_cons, List.forall_mem_cons] at hover
    have hanswers := Host.step_answers (h := ⟨c, line⟩) hready call.1 call.2
    obtain ⟨hcfg, z', -, hready'⟩ := Host.step_moves ⟨c, line⟩ hready call.1 call.2
    rw [← hcfg] at hready'
    obtain ⟨hcovers, hlog, hframes⟩ := Covers.step (y := (Host.step ⟨c, line⟩ call.1 call.2).2)
      (by rwa [Host.step_before]) hover.1 (by rwa [Host.step_before])
    obtain ⟨hcovers', hlog', hframes'⟩ := ih hready' hcovers hover.2
    rw [List.append_assoc] at hcovers'
    rw [hcfg] at hframes'
    refine ⟨hcovers', ?_, ?_⟩
    · rw [Host.trace_cons, List.flatMap_cons, ← hlog', ← hlog, ← List.map_append]
      rfl
    · intro x hx
      rcases List.mem_append.1 hx with hx | hx
      · exact hframes x hx
      · exact hframes' x hx

/-! ### Main statement -/

/-- **Flow control is not offered again once it was taken.** Whatever the calls, their instants
and the link, unless at the end of a block the link takes an answer while an older one is owed: the
link takes no flow control twice for one decision and none out of order, and after it took that of a
decision, none of that decision or of one before it is offered or owed. -/
theorem answers_of_run (hc : Fresh cfg c) (line : σ) (calls : List (Instant × Op σ))
    (hover : ∀ y ∈ Host.trace ⟨c, line⟩ calls, ¬Record.Overtakes y) :
    let records := Host.trace ⟨c, line⟩ calls
    let log := Ledger.log {} records
    log.map Attempt.offer = records.flatMap Record.answers ∧
      (∀ x ∈ log, x.offer.frame = x.decision.fc.frame cfg) ∧
      log.Pairwise (fun x z => x.offer.taken → x.decision.Before z.decision) ∧
      ∀ fc, (Host.run ⟨c, line⟩ calls).channel.receiver.owed = some fc →
        ∃ d, (Ledger.run {} records).refused = some d ∧ d.fc = fc ∧
          ∀ x ∈ log, x.offer.taken → x.decision.Before d := by
  intro records log
  obtain ⟨rfl, hready⟩ := hc.ready
  have hnew : Ledger.Covers {} [] c.receiver.owed := by
    obtain ⟨-, tx, rx, -, -, hnew⟩ := hc.eq_new
    rw [hnew]
    exact ⟨nofun, .nil, nofun⟩
  obtain ⟨hcovers, hlog, hframes⟩ := Ledger.covers_run hready hnew calls hover
  rw [List.nil_append] at hcovers
  refine ⟨hlog, hframes, hcovers.ordered, fun fc howed => ?_⟩
  obtain ⟨d, hrefused, hfc, -, hbefore⟩ := hcovers.owed fc howed
  exact ⟨d, hrefused, hfc, hbefore⟩

/-- An answer that the link refuses twice and takes at the third try, and the next one after it. -/
theorem answers_of_run_refused_twice :
    let cfg : Config := { rxId := .standard 1, blockSize := 1 }
    let c : Channel :=
      ⟨cfg, cfg.policy, .new (.zeroed 4095) 4095, .new (.zeroed 4095) 4095⟩
    let calls : List (Instant × Op Quota) :=
      [(0, .frame ⟨.standard 1, [0x10, 20, 1, 2, 3, 4, 5, 6], false⟩), (1, .advance),
        (2, .setLine ⟨none⟩), (3, .advance),
        (4, .frame ⟨.standard 1, [0x21, 7, 8, 9, 10, 11, 12, 13], false⟩), (5, .advance)]
    let records := Host.trace ⟨c, (⟨some 0⟩ : Quota)⟩ calls
    let log := Ledger.log {} records
    Fresh cfg c ∧ (∀ y ∈ records, ¬Record.Overtakes y) ∧
      log.Pairwise (fun x z => x.offer.taken → x.decision.Before z.decision) ∧
      log.map (fun x => (x.decision.number, x.offer.taken)) =
        [(0, false), (0, false), (0, true), (1, true)] := by
  intro cfg c calls records log
  have hc : Fresh cfg c := .ofBuffers (.zeroed 4095) (.zeroed 4095) rfl
  have hover : ∀ y ∈ records, ¬Record.Overtakes y := by decide +kernel
  exact ⟨hc, hover, (answers_of_run hc (⟨some 0⟩ : Quota) calls hover).2.2.1, by decide +kernel⟩

/-- The answer at the end of a block overtakes the one to the first frame, which the link refused:
with the next call the older one follows. -/
theorem answers_overtaken :
    let cfg : Config := { rxId := .standard 1, blockSize := 1 }
    let c : Channel :=
      ⟨cfg, cfg.policy, .new (.zeroed 4095) 4095, .new (.zeroed 4095) 4095⟩
    let calls : List (Instant × Op Quota) :=
      [(0, .frame ⟨.standard 1, [0x10, 20, 1, 2, 3, 4, 5, 6], false⟩), (1, .setLine ⟨none⟩),
        (2, .frame ⟨.standard 1, [0x21, 7, 8, 9, 10, 11, 12, 13], false⟩), (3, .advance)]
    let log := Ledger.log {} (Host.trace ⟨c, (⟨some 0⟩ : Quota)⟩ calls)
    Fresh cfg c ∧
      log.map (fun x => (x.decision.number, x.offer.taken)) = [(0, false), (1, true), (0, true)] ∧
      ¬log.Pairwise fun x z => x.offer.taken → x.decision.Before z.decision := by
  intro cfg c calls log
  exact ⟨.ofBuffers (.zeroed 4095) (.zeroed 4095) rfl, by decide +kernel, by decide +kernel⟩

end Channel

end IsoTp
