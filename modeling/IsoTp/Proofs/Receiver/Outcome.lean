import IsoTp.Proofs.Renewal
import IsoTp.Proofs.Runs

/-!
What the calls of a receiver come to, and what their records tell.

A record shows whether a frame opened a reception, whether it was the one that a reception was
waiting for, and which answer there is for the sender. A first frame that is let in opens a
reception with the block that its answer grants, and a consecutive frame in turn goes on with it.
Whatever else happens leaves of a reception no more than it was, and its block as it was.
-/

namespace IsoTp

/-- A reception that has come one frame further. -/
def Inbound.follow (cfg : Config) (now : Instant) (m : Inbound) : Inbound :=
  { m with nextSn := (m.nextSn + 1) % 16, deadline := cfg.clock.after now cfg.nCr }

namespace Receiver

open Assembly (Refines)

/-! ### What a record tells -/

/-- The answer that there is in what comes of a frame. -/
@[simp] def Outcome.answer? : Outcome → Option FlowControl
  | .answer fc => some fc
  | _ => Option.none

namespace Record

variable (y : Record)

/-- The flow control that a call has for the sender. -/
def answer? : Option FlowControl :=
  match y.reply with
  | .outcome o => o.answer?
  | _ => none

/-- A first frame is let in: no complete message waits, and there is room for what it declares. -/
def opens : Bool :=
  match y.op with
  | .pdu (.first len _) => y.before.status ≠ .done && len.toNat ≤ y.before.capacity
  | _ => false

/-- The reception under way and the data of the frame, for a consecutive frame in turn. -/
def part? : Option (Inbound × Bytes) :=
  match y.op, y.before.phase with
  | .pdu (.consecutive sn data), .receiving m =>
    if sn.toNat = m.nextSn then some (m, data) else none
  | _, _ => none

/-- A consecutive frame is taken in. -/
def takes : Bool := y.part?.isSome

/-- It has the rest of the message. -/
def completes : Bool := y.part?.any fun x => x.1.total ≤ y.before.written + x.2.length

/-- The policy that later calls are given. -/
def newPolicy? : Option FlowPolicy :=
  match y.op with
  | .setPolicy policy => some policy
  | _ => none

/-- Neither a frame nor the end of a reception: a change of the parameters, time before the
deadline, flow control that could not be sent or then was, or a question for the message. -/
def Bides : Prop :=
  match y.op with
  | .setPolicy _ | .setConfig _ | .postpone .. | .answered _ | .collect _ => True
  | .advance => ∀ m, y.before.phase = .receiving m → y.now < m.deadline
  | .pdu _ | .clear => False

variable {y}

lemma answer?_of_reply {o : Outcome} (h : y.reply = .outcome o) : y.answer? = o.answer? := by
  rw [answer?, h]

lemma takes_of_part? {m : Inbound} {data : Bytes} (h : y.part? = some (m, data)) :
    y.takes = true ∧ (y.completes = true ↔ m.total ≤ y.before.written + data.length) := by
  simp [takes, completes, h]

lemma opens_iff : y.opens = true ↔ ∃ len data, y.op = .pdu (.first len data) ∧
    y.before.status ≠ .done ∧ len.toNat ≤ y.before.capacity := by
  unfold opens
  split
  · next len data hop => simp [hop]
  · next hother => simpa using fun len data hop => absurd hop (hother len data)

/-- A frame in turn is a consecutive frame with the number that is expected. -/
lemma part?_eq_some {m : Inbound} {data : Bytes} : y.part? = some (m, data) ↔
    y.before.phase = .receiving m ∧
      ∃ sn : UInt8, y.op = .pdu (.consecutive sn data) ∧ sn.toNat = m.nextSn := by
  constructor
  · intro h
    unfold part? at h
    split at h
    · next sn _ _ hop hphase =>
      obtain ⟨hsn, hm⟩ := Option.ite_none_right_eq_some.1 h
      obtain ⟨rfl, rfl⟩ := Prod.mk.inj (Option.some.inj hm)
      exact ⟨hphase, sn, hop, hsn⟩
    · cases h
  · rintro ⟨hphase, sn, hop, hsn⟩
    simp only [part?, hop, hphase, if_pos hsn]

end Record

/-! ### What a call does to a block -/

/-- What a consecutive frame in turn leads to when `count` bytes of the message come in it: the
message is through, the block goes on, or the block is full. -/
inductive Appends (cfg : Config) (policy : FlowPolicy) (now : Instant) (count : Nat) (m : Inbound)
    (r : Receiver) : Receiver → Outcome → Prop
  | last (buffer : Buffer) (hend : m.total ≤ r.written + count) :
      Appends cfg policy now count m r
        { r with buffer, phase := .done, written := r.written + count }
        (.complete (r.written + count))
  | next (buffer : Buffer) {left : Nat} (hmore : r.written + count < m.total)
      (hleft : m.blockSize = 0 ∧ left = m.blockLeft ∨
        0 < m.blockSize ∧ 1 < m.blockLeft ∧ left = m.blockLeft - 1) :
      Appends cfg policy now count m r
        { r with
          buffer
          phase := .receiving { m.follow cfg now with blockLeft := left }
          written := r.written + count }
        .none
  | blockEnd (buffer : Buffer) (hmore : r.written + count < m.total)
      (hfull : 0 < m.blockSize ∧ m.blockLeft ≤ 1) :
      Appends cfg policy now count m r
        { r with
          buffer
          phase := .receiving { m.follow cfg now with
            blockSize := policy.blockSize.toNat
            blockLeft := policy.blockSize.toNat }
          written := r.written + count }
        (.answer policy.clearToSend)

variable {r r' : Receiver} {p : Assembly.Phase} {m m' : Inbound} {cfg : Config}
  {policy : FlowPolicy} {now : Instant} {count : Nat} {outcome : Outcome}

lemma status_eq_receiving : r.status = .receiving ↔ ∃ m, r.phase = .receiving m := by
  unfold status
  cases r.phase <;> simp

namespace Appends

lemma answer_eq {fc : FlowControl} (h : Appends cfg policy now count m r r' outcome)
    (hanswer : outcome.answer? = some fc) : fc = policy.clearToSend := by
  cases h with
  | last | next => cases hanswer
  | blockEnd =>
    cases hanswer
    rfl

lemma ne_failed (h : Appends cfg policy now count m r r' outcome) (cause : Abort) :
    outcome ≠ .failed cause := by
  cases h <;> simp

lemma status_eq_done (h : Appends cfg policy now count m r r' outcome) :
    r'.status = .done ↔ m.total ≤ r.written + count := by
  cases h with
  | last buffer hend => exact ⟨fun _ => hend, fun _ => rfl⟩
  | next buffer hmore | blockEnd buffer hmore =>
    refine ⟨by rintro ⟨⟩, fun hend => ?_⟩
    exact absurd hend (Nat.not_le.2 hmore)

end Appends

/-- There is room for the data of a frame in turn. -/
lemma appends (h : Refines r p) (hphase : r.phase = .receiving m) (cfg : Config)
    (policy : FlowPolicy) (now : Instant) (data : Bytes) :
    let x := r.consecutive cfg policy now m.nextSn data m
    Appends cfg policy now (min (m.total - r.written) data.length) m r x.1 x.2 := by
  have hwrite : ∃ buffer,
      r.buffer.write? r.written (data.take (m.total - r.written)) = some buffer := by
    have hrep := h.represents
    cases p with
    | underway a =>
      obtain ⟨i, hi, ha⟩ := hrep
      rw [hphase] at hi
      cases hi
      obtain ⟨buffer, hb, -⟩ := ha.write? data
      exact ⟨buffer, hb⟩
    | idle | failed => cases hphase.symm.trans hrep
    | done => cases hphase.symm.trans hrep.1
  obtain ⟨buffer, hb⟩ := hwrite
  rw [← List.length_take]
  unfold Receiver.consecutive
  simp only [ne_eq, not_true_eq_false, if_false, hb]
  split
  · next hend => exact .last buffer hend
  · next hmore =>
    have hmore := Nat.not_le.1 hmore
    split
    · next hfree => exact .next buffer hmore (.inl ⟨hfree, rfl⟩)
    · next hblock =>
      split
      · next hleft => exact .next buffer hmore (.inr ⟨Nat.pos_of_ne_zero hblock, hleft, rfl⟩)
      · next hfull =>
        exact .blockEnd buffer hmore ⟨Nat.pos_of_ne_zero hblock, Nat.not_lt.1 hfull⟩

/-- A first frame that is let in is answered, and its reception has the block of the answer. -/
lemma first_of_le (h : Refines r p) (cfg : Config) (policy : FlowPolicy) (now : Instant)
    {total : Nat} (hle : total ≤ r.capacity) (data : Bytes) :
    let x := r.first cfg policy now total data
    x.2 = .answer policy.clearToSend ∧
      ∃ m, x.1.phase = .receiving m ∧ m.blockSize = policy.blockSize.toNat ∧
        m.blockLeft = policy.blockSize.toNat := by
  intro x
  have hx := h.first cfg policy now total data
  rw [if_neg (Nat.not_lt.2 hle)] at hx
  obtain ⟨m, hm, hin⟩ := hx.refines.represents
  exact ⟨hx.yields, m, hm, hin.blockSize, hin.blockLeft⟩

/-- What is left of a reception has the block that it had. -/
def Rests (r r' : Receiver) : Prop :=
  ∀ m', r'.phase = .receiving m' →
    ∃ m, r.phase = .receiving m ∧ m' = { m with deadline := m'.deadline, owed := m'.owed }

lemma rests_refl (r : Receiver) : Rests r r := fun m hm => ⟨m, hm, rfl⟩

/-- A reception that is over has no block. -/
lemma rests_of_status (h : r'.status ≠ .receiving) : Rests r r' := by
  intro m' hm'
  exact absurd (status_eq_receiving.2 ⟨m', hm'⟩) h

lemma status_single (len : Nat) (data : Bytes) (r : Receiver) :
    (r.single len data).1.status ≠ .receiving ∧ (r.single len data).2.answer? = none := by
  unfold Receiver.single giveUp
  split
  · simp [status]
  · split
    · simp [status]
    · split <;> simp [status]

/-- A unit that neither opens a reception nor is in turn. -/
lemma accept_rest (hr : r.status ≠ .done) (cfg : Config) (policy : FlowPolicy) (now : Instant)
    (pdu : Pdu) (hfirst : ∀ len data, pdu = .first len data → r.capacity < len.toNat)
    (hturn : ∀ sn data m, pdu = .consecutive sn data → r.phase = .receiving m →
      sn.toNat ≠ m.nextSn) :
    let x := r.accept cfg policy now pdu
    x.2.answer? = none ∧ Rests r x.1 := by
  cases pdu with
  | single len data =>
    obtain ⟨hstatus, hanswer⟩ := status_single len.toNat data r
    simp only [Receiver.accept, if_neg hr]
    exact ⟨hanswer, rests_of_status hstatus⟩
  | first len data =>
    have hlong := hfirst len data rfl
    simp only [Receiver.accept, if_neg hr, Receiver.first, FlowPolicy.answer, if_pos hlong]
    exact ⟨by simp [FlowControl.overflow],
      rests_of_status (by simp [FlowControl.overflow, giveUp, status])⟩
  | consecutive sn data =>
    cases hphase : r.phase with
    | receiving m =>
      have hsn := hturn sn data m rfl hphase
      simp only [Receiver.accept, hphase, Receiver.consecutive, if_pos hsn, giveUp]
      exact ⟨rfl, rests_of_status (by simp [status])⟩
    | idle | done | failed =>
      simp only [Receiver.accept, hphase]
      exact ⟨rfl, rests_refl r⟩
  | flowControl | invalid => exact ⟨rfl, rests_refl r⟩

/-- Time leaves the receiver alone or ends the reception. -/
lemma advance_eq_or_ended (now : Instant) (r : Receiver) :
    (r.advance now).1 = r ∨ (r.advance now).1.status ≠ .receiving := by
  unfold Receiver.advance
  split
  · split
    · exact .inl rfl
    · exact .inr (by simp [giveUp, status])
  · exact .inl rfl

/-- So does a question for the message. -/
lemma collect_eq_or_ended (room : Nat) (r : Receiver) :
    (r.collect room).1 = r ∨ (r.collect room).1.status ≠ .receiving := by
  unfold Receiver.collect
  split
  · split
    · exact .inl rfl
    · split
      · exact .inr (by simp [status, clear])
      · exact .inl rfl
  · exact .inr (by simp [status, clear])
  · exact .inl rfl
  · exact .inl rfl

lemma rests_of_eq_or_ended (h : r' = r ∨ r'.status ≠ .receiving) : Rests r r' := by
  rcases h with rfl | hended
  · exact rests_refl r'
  · exact rests_of_status hended

lemma rests_postpone (fc : FlowControl) (deadline : Instant) (r : Receiver) :
    Rests r (r.postpone fc deadline) := by
  unfold Receiver.postpone
  split
  · next m hphase =>
    rintro m' ⟨⟩
    exact ⟨m, hphase, rfl⟩
  · exact rests_refl r

lemma rests_answered (deadline : Instant) (r : Receiver) : Rests r (r.answered deadline) := by
  unfold Receiver.answered
  split
  · next m hphase =>
    rintro m' ⟨⟩
    exact ⟨m, hphase, rfl⟩
  · exact rests_refl r

/-! ### Calls -/

namespace Host

variable {h : Host}

/-- One call with its record. -/
def call (h : Host) (c : Instant × Op) : Host × Record :=
  let y := h.step c.1 c.2
  (y.1, ⟨c.1, c.2, h.receiver, y.2, y.1.receiver⟩)

lemma stepwise : Stepwise call run trace :=
  ⟨fun _ => rfl, fun _ _ _ => rfl, fun _ => rfl, fun _ _ _ => rfl⟩

/-- Every call leaves a receiver that stands for an assembly. -/
lemma call_refines (hr : ∃ p, Refines h.receiver p) (c : Instant × Op) :
    ∃ p, Refines (h.call c).1.receiver p := by
  obtain ⟨p, hp⟩ := hr
  have hsame : h.Abreast h := ⟨⟨rfl, p, hp, hp⟩, rfl, rfl⟩
  obtain ⟨-, q, hq, -⟩ := (hsame.step c.1 c.2).1.receiver
  exact ⟨q, hq⟩

/-- A first frame that is let in is answered with the policy in force. -/
lemma call_opens (hr : ∃ p, Refines h.receiver p) (c : Instant × Op) :
    let y := (h.call c).2
    y.opens = true →
      y.answer? = some h.policy.clearToSend ∧
        ∃ m, y.after.phase = .receiving m ∧ m.blockSize = h.policy.blockSize.toNat ∧
          m.blockLeft = h.policy.blockSize.toNat := by
  intro y hopens
  obtain ⟨p, hp⟩ := hr
  obtain ⟨now, op⟩ := c
  obtain ⟨len, data, hop, hstatus, hle⟩ := Record.opens_iff.1 hopens
  obtain rfl : op = .pdu (.first len data) := hop
  have hstatus : h.receiver.status ≠ .done := hstatus
  obtain ⟨houtcome, hafter⟩ := first_of_le hp h.cfg h.policy now hle data
  have haccept : h.receiver.accept h.cfg h.policy now (.first len data) =
      h.receiver.first h.cfg h.policy now len.toNat data := by
    simp only [Receiver.accept, if_neg hstatus]
  rw [← haccept] at houtcome hafter
  have hreply : y.reply = .outcome (h.receiver.accept h.cfg h.policy now (.first len data)).2 := rfl
  rw [Record.answer?_of_reply hreply, houtcome]
  exact ⟨rfl, hafter⟩

/-- A frame in turn goes on with the reception. -/
lemma call_takes (hr : ∃ p, Refines h.receiver p) (c : Instant × Op) {m : Inbound} {data : Bytes} :
    let y := (h.call c).2
    y.part? = some (m, data) →
      h.receiver.phase = .receiving m ∧ ∃ outcome, y.reply = .outcome outcome ∧
        Appends h.cfg h.policy c.1 (min (m.total - h.receiver.written) data.length) m h.receiver
          y.after outcome := by
  intro y hpart
  obtain ⟨p, hp⟩ := hr
  obtain ⟨now, op⟩ := c
  obtain ⟨hbefore, sn, hop, hsn⟩ := Record.part?_eq_some.1 hpart
  have hphase : h.receiver.phase = .receiving m := hbefore
  obtain rfl : op = .pdu (.consecutive sn data) := hop
  have happends := appends hp hphase h.cfg h.policy now data
  rw [← hsn] at happends
  have haccept : h.receiver.accept h.cfg h.policy now (.consecutive sn data) =
      h.receiver.consecutive h.cfg h.policy now sn.toNat data m := by
    simp only [Receiver.accept, hphase]
  rw [← haccept] at happends
  exact ⟨hphase, _, rfl, happends⟩

/-- Without a first frame that is let in and a consecutive frame in turn there is no answer, but for
the refusal of a message while a complete one waits, and no block changes. -/
lemma call_rest (c : Instant × Op) :
    let y := (h.call c).2
    y.opens = false → y.takes = false →
      (y.answer? = none ∨ y.before.status = .done ∧ y.answer? = some .overflow) ∧
        Rests y.before y.after := by
  intro y hopens htakes
  obtain ⟨now, op⟩ := c
  cases op with
  | pdu pdu =>
    by_cases hdone : h.receiver.status = .done
    · have haccept := @accept_of_done h.receiver h.cfg hdone h.policy now pdu
      have hafter : y.after = h.receiver := by simp only [y, call, Host.step, haccept]
      refine ⟨?_, ?_⟩
      · have hreply : y.reply = .outcome (h.receiver.accept h.cfg h.policy now pdu).2 := rfl
        rw [Record.answer?_of_reply hreply, haccept]
        cases pdu with
        | first => exact .inr ⟨hdone, rfl⟩
        | single | consecutive | flowControl | invalid => exact .inl rfl
      · rw [hafter]
        exact rests_refl h.receiver
    · obtain ⟨hanswer, hrests⟩ := accept_rest hdone h.cfg h.policy now pdu
        (fun len data hpdu => by
          subst hpdu
          have hlong : ¬len.toNat ≤ h.receiver.capacity := fun hle =>
            Bool.eq_false_iff.1 hopens (Record.opens_iff.2 ⟨len, data, rfl, hdone, hle⟩)
          exact Nat.not_le.1 hlong)
        (fun sn data m hpdu hphase => by
          subst hpdu
          simpa [Record.takes, Record.part?, y, call, hphase] using htakes)
      refine ⟨.inl ?_, hrests⟩
      exact (Record.answer?_of_reply rfl).trans hanswer
  | advance => exact ⟨.inl rfl, rests_of_eq_or_ended (advance_eq_or_ended now h.receiver)⟩
  | collect room => exact ⟨.inl rfl, rests_of_eq_or_ended (collect_eq_or_ended room h.receiver)⟩
  | clear => exact ⟨.inl rfl, rests_of_status (by simp [y, call, Host.step, clear, status])⟩
  | postpone fc deadline => exact ⟨.inl rfl, rests_postpone fc deadline h.receiver⟩
  | answered deadline => exact ⟨.inl rfl, rests_answered deadline h.receiver⟩
  | setPolicy | setConfig => exact ⟨.inl rfl, rests_refl h.receiver⟩

/-- What a frame does that is not in turn: it ends the reception. -/
lemma call_outOfTurn (now : Instant) {sn : UInt8} {data : Bytes} {m : Inbound}
    (hphase : h.receiver.phase = .receiving m) (hsn : sn.toNat ≠ m.nextSn) :
    (h.call (now, .pdu (.consecutive sn data))).2.reply =
      .outcome (.failed (.outOfTurn m.nextSn sn.toNat)) := by
  have haccept : h.receiver.accept h.cfg h.policy now (.consecutive sn data) =
      h.receiver.giveUp (.outOfTurn m.nextSn sn.toNat) := by
    simp only [Receiver.accept, hphase, Receiver.consecutive, if_pos hsn]
  simp only [call, Host.step, haccept, giveUp]

lemma call_bides (c : Instant × Op) {m : Inbound} (hphase : h.receiver.phase = .receiving m) :
    let y := (h.call c).2
    y.Bides → y.after.written = y.before.written ∧
      ∃ deadline owed, y.after.phase = .receiving { m with deadline, owed } := by
  intro y hbides
  obtain ⟨now, op⟩ := c
  cases op with
  | pdu | clear => exact hbides.elim
  | advance =>
    have hearly : now < m.deadline := hbides m hphase
    have hstep : h.receiver.advance now = (h.receiver, none) := by
      simp only [Receiver.advance, hphase, if_pos hearly]
    simp only [y, call, Host.step, hstep]
    exact ⟨trivial, m.deadline, m.owed, hphase⟩
  | collect room =>
    have hstep : h.receiver.collect room = (h.receiver, .error .noMessage) := by
      simp only [Receiver.collect, hphase]
    simp only [y, call, Host.step, hstep]
    exact ⟨trivial, m.deadline, m.owed, hphase⟩
  | postpone fc deadline =>
    simp only [y, call, Host.step, Receiver.postpone, hphase]
    exact ⟨trivial, deadline, some fc, rfl⟩
  | answered deadline =>
    simp only [y, call, Host.step, Receiver.answered, hphase]
    exact ⟨trivial, deadline, none, rfl⟩
  | setPolicy | setConfig => exact ⟨rfl, m.deadline, m.owed, hphase⟩

end Host

end Receiver

end IsoTp
