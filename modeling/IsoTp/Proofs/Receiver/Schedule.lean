import IsoTp.Proofs.Receiver.Outcome

/-!
When a receiver answers.

A first frame that is let in is answered at once, and so is the last frame of a block, both times
with the policy of that moment. How long a block is was said by the answer before it, and the policy
may have changed since: the receiver keeps what it granted, and how many frames are missing. The
history has the same two numbers, the answer given last and the consecutive frames in turn after it.
Nothing else that happens to a reception counts for the block.
-/

namespace IsoTp.Receiver

open Assembly (Refines)

/-! ### What counts of the past -/

/-- The policy in force after these calls, `policy` at first. -/
def policyIn (policy : FlowPolicy) (past : List Record) : FlowPolicy :=
  (latest Record.newPolicy? past).getD policy

/-- How many consecutive frames were taken in in these calls. -/
def takenIn (calls : List Record) : Nat := calls.countP Record.takes

/-- `past` ends with an answer `fc` and the calls `later`, which gave no other and in which the
reception went on. -/
structure Granted (past : List Record) (fc : FlowControl) (later : List Record) : Prop where
  answered : ∃ earlier x, past = earlier ++ x :: later ∧ x.answer? = some fc ∧
    (x.opens = true ∨ x.takes = true)
  within : ∀ k ∈ later, k.answer? = none ∧ k.before.status = .receiving ∧
    k.after.status = .receiving

/-! ### The receiver keeps count -/

/-- A reception has the block that the answer before granted, and knows what is missing of it. -/
def Counts (past : List Record) (m : Inbound) : Prop :=
  ∃ fc later, Granted past fc later ∧ m.blockSize = fc.blockSize.toNat ∧
    (0 < m.blockSize → 0 < m.blockLeft ∧ m.blockLeft + takenIn later = m.blockSize)

section Counting

variable {past later : List Record} {y : Record} {fc : FlowControl} {m m' : Inbound}

lemma takenIn_concat (later : List Record) (y : Record) :
    takenIn (later ++ [y]) = takenIn later + if y.takes then 1 else 0 := by
  rw [takenIn, List.countP_append, List.countP_singleton]
  rfl

lemma Granted.concat (hg : Granted past fc later) (hanswer : y.answer? = none)
    (hbefore : y.before.status = .receiving) (hafter : y.after.status = .receiving) :
    Granted (past ++ [y]) fc (later ++ [y]) := by
  obtain ⟨earlier, x, rfl, hx⟩ := hg.answered
  refine ⟨⟨earlier, x, by simp, hx⟩, fun k hk => ?_⟩
  obtain hk | hk := List.mem_append.1 hk
  · exact hg.within k hk
  · obtain rfl := List.mem_singleton.1 hk
    exact ⟨hanswer, hbefore, hafter⟩

/-- With an answer a block begins. -/
lemma counts_of_answer (hanswer : y.answer? = some fc) (hy : y.opens = true ∨ y.takes = true)
    (hsize : m.blockSize = fc.blockSize.toNat) (hleft : m.blockLeft = fc.blockSize.toNat) :
    Counts (past ++ [y]) m := by
  refine ⟨fc, [], ⟨⟨past, y, rfl, hanswer, hy⟩, List.forall_mem_nil _⟩, hsize, fun hpos => ?_⟩
  rw [hleft, ← hsize]
  exact ⟨hpos, rfl⟩

/-- Without an answer, the frame that is taken in is one less to come. -/
lemma Counts.concat (hcounts : Counts past m) (hanswer : y.answer? = none)
    (hbefore : y.before.status = .receiving) (hafter : y.after.status = .receiving)
    (hsize : m'.blockSize = m.blockSize)
    (hleft : 0 < m.blockSize → 0 < m'.blockLeft ∧
      m'.blockLeft + (if y.takes then 1 else 0) = m.blockLeft) :
    Counts (past ++ [y]) m' := by
  obtain ⟨fc, later, hg, hfc, hcount⟩ := hcounts
  refine ⟨fc, later ++ [y], hg.concat hanswer hbefore hafter, hsize.trans hfc, fun hpos => ?_⟩
  rw [hsize] at hpos ⊢
  obtain ⟨-, hsum⟩ := hcount hpos
  obtain ⟨hmore, hone⟩ := hleft hpos
  rw [takenIn_concat]
  exact ⟨hmore, by omega⟩

end Counting

namespace Host

variable {h : Host} {past : List Record}

lemma call_policy {policy : FlowPolicy} (hpolicy : h.policy = policyIn policy past)
    (c : Instant × Op) : (h.call c).1.policy = policyIn policy (past ++ [(h.call c).2]) := by
  have hstep : (h.call c).1.policy = (h.call c).2.newPolicy?.getD h.policy := by
    obtain ⟨now, op⟩ := c
    cases op <;> rfl
  rw [hstep, hpolicy, policyIn, policyIn, latest_concat, Option.getD_or]

/-- A consecutive frame in turn is answered exactly if it is the last of its block, and there is
more of the message. -/
lemma call_takes_answer (hr : ∃ p, Refines h.receiver p)
    (hcounts : ∀ m, h.receiver.phase = .receiving m → Counts past m) (c : Instant × Op) :
    let y := (h.call c).2
    y.takes = true → ∃ fc later, Granted past fc later ∧
      (y.answer? = some h.policy.clearToSend ↔
        takenIn later + 1 = fc.blockSize.toNat ∧ fc.blockSize ≠ 0 ∧ y.completes = false) := by
  intro y htakes
  obtain ⟨⟨m, data⟩, hpart⟩ := Option.isSome_iff_exists.1 htakes
  obtain ⟨hphase, outcome, hreply, happends⟩ := call_takes hr c hpart
  obtain ⟨-, hend⟩ := Record.takes_of_part? hpart
  have hend : y.completes = true ↔ m.total ≤ h.receiver.written + data.length := hend
  obtain ⟨fc, later, hg, hsize, hcount⟩ := hcounts m hphase
  refine ⟨fc, later, hg, ?_⟩
  have hanswer : y.answer? = outcome.answer? := Record.answer?_of_reply hreply
  rw [← hsize, hanswer]
  generalize y.after = r' at happends
  cases happends with
  | last buffer hlast =>
    have hdone : y.completes = true := hend.2 (by omega)
    simp [hdone, Outcome.answer?]
  | next buffer hmore hleft =>
    refine ⟨by rintro ⟨⟩, ?_⟩
    rintro ⟨hone, -, -⟩
    obtain ⟨-, hsum⟩ := hcount (by omega)
    omega
  | blockEnd buffer hmore hfull =>
    obtain ⟨hpos, hsum⟩ := hcount hfull.1
    refine ⟨fun _ => ⟨by omega, ?_, ?_⟩, fun _ => rfl⟩
    · intro hzero
      rw [hzero] at hsize
      exact absurd hsize (Nat.ne_of_gt hfull.1)
    · rw [Bool.eq_false_iff, ne_eq, hend]
      omega

/-- Every call keeps count of the block. -/
theorem call_counts (hr : ∃ p, Refines h.receiver p)
    (hcounts : ∀ m, h.receiver.phase = .receiving m → Counts past m) (c : Instant × Op) :
    let y := h.call c
    ∀ m', y.1.receiver.phase = .receiving m' → Counts (past ++ [y.2]) m' := by
  intro y m' hm'
  have hphase' : y.2.after.phase = .receiving m' := hm'
  have hafter : y.2.after.status = .receiving := status_eq_receiving.2 ⟨m', hphase'⟩
  have hbefore {m : Inbound} (hm : h.receiver.phase = .receiving m) :
      y.2.before.status = .receiving := status_eq_receiving.2 ⟨m, hm⟩
  by_cases hopens : y.2.opens = true
  · obtain ⟨hanswer, m, hm, hsize, hleft⟩ := call_opens hr c hopens
    rw [hphase'] at hm
    cases hm
    exact counts_of_answer hanswer (.inl hopens) hsize hleft
  by_cases htakes : y.2.takes = true
  · obtain ⟨⟨m, data⟩, hpart⟩ := Option.isSome_iff_exists.1 htakes
    obtain ⟨hphase, outcome, hreply, happends⟩ := call_takes hr c hpart
    generalize hr' : (h.call c).2.after = r' at happends
    have hphase' : r'.phase = .receiving m' := hr' ▸ hphase'
    cases happends with
    | last => cases hphase'
    | next buffer hmore hleft =>
      cases hphase'
      have hanswer : y.2.answer? = none := Record.answer?_of_reply hreply
      refine (hcounts m hphase).concat hanswer (hbefore hphase) hafter rfl fun hpos => ?_
      rw [if_pos htakes]
      dsimp only
      omega
    | blockEnd =>
      cases hphase'
      have hanswer : y.2.answer? = some h.policy.clearToSend := Record.answer?_of_reply hreply
      exact counts_of_answer hanswer (.inr htakes) rfl rfl
  · -- no frame of a message, so there was a reception and it has the same block
    obtain ⟨hnone, hrests⟩ :=
      call_rest c (Bool.eq_false_iff.2 hopens) (Bool.eq_false_iff.2 htakes)
    obtain ⟨m, hm, heq⟩ := hrests m' hphase'
    have hanswer : y.2.answer? = none := by
      obtain hnone | ⟨hdone, -⟩ := hnone
      · exact hnone
      · cases (hbefore hm).symm.trans hdone
    refine (hcounts m hm).concat hanswer (hbefore hm) hafter (by rw [heq]) fun hpos => ?_
    obtain ⟨_, _, _, -, hcount⟩ := hcounts m hm
    rw [if_neg htakes, heq]
    exact ⟨(hcount hpos).1, rfl⟩

end Host

/-! ### Runs -/

/-- What a record has to do with answers, after these records and with this policy in force. -/
structure Record.Schedules (policy : FlowPolicy) (past : List Record) (y : Record) : Prop where
  /-- A first frame that is let in is answered: the sender may go on, with the block size and the
  separation time in force. -/
  opens : y.opens = true →
    y.answer? = some ⟨.clearToSend, policy.blockSize, policy.stMin⟩ ∧ y.after.status = .receiving
  /-- A consecutive frame is answered if it is the last of the block that the answer before it
  granted, with no other since and in the same reception, and does not complete the message. -/
  takes : y.takes = true → ∃ fc later, Granted past fc later ∧
    (y.answer? = some ⟨.clearToSend, policy.blockSize, policy.stMin⟩ ↔
      takenIn later + 1 = fc.blockSize.toNat ∧ fc.blockSize ≠ 0 ∧ y.completes = false)
  /-- There are no other answers, but for the refusal of a message while a complete one waits. -/
  answers : ∀ fc, y.answer? = some fc →
    fc = ⟨.clearToSend, policy.blockSize, policy.stMin⟩ ∧ (y.opens = true ∨ y.takes = true) ∨
      fc = ⟨.overflow, 0, .zero⟩ ∧ y.before.status = .done
  /-- A consecutive frame is taken in if it does not end the reception without a message. -/
  taken_iff : ∀ sn data, y.op = .pdu (.consecutive sn data) → y.before.status = .receiving →
    (y.takes = true ↔ ∀ cause, y.reply ≠ .outcome (.failed cause))
  completes_iff : y.takes = true → (y.completes = true ↔ y.after.status = .done)
  /-- Nothing but frames moves the end of a block, or where the reception stands. -/
  bides : y.Bides → ∀ m, y.before.phase = .receiving m →
    y.after.written = y.before.written ∧
      ∃ deadline owed, y.after.phase = .receiving { m with deadline, owed }
  /-- What is missing of the block is what the answer granted less the frames since. -/
  counts : ∀ m, y.after.phase = .receiving m → Counts (past ++ [y]) m

/-- What a call has to do with answers, for a receiver that keeps count. -/
lemma Host.call_schedules {h : Host} {past : List Record} (hr : ∃ p, Refines h.receiver p)
    (hcounts : ∀ m, h.receiver.phase = .receiving m → Counts past m) (c : Instant × Op) :
    (h.call c).2.Schedules h.policy past where
  opens hopens := by
    obtain ⟨hanswer, m, hm, -⟩ := call_opens hr c hopens
    exact ⟨hanswer, status_eq_receiving.2 ⟨m, hm⟩⟩
  takes := call_takes_answer hr hcounts c
  answers fc hfc := by
    by_cases hopens : (h.call c).2.opens = true
    · obtain ⟨hanswer, -⟩ := call_opens hr c hopens
      obtain rfl := Option.some.inj (hfc.symm.trans hanswer)
      exact .inl ⟨rfl, .inl hopens⟩
    · by_cases htakes : (h.call c).2.takes = true
      · obtain ⟨_, hpart⟩ := Option.isSome_iff_exists.1 htakes
        obtain ⟨-, outcome, hreply, happends⟩ := call_takes hr c hpart
        rw [Record.answer?_of_reply hreply] at hfc
        exact .inl ⟨happends.answer_eq hfc, .inr htakes⟩
      · obtain ⟨hnone | ⟨hdone, hover⟩, -⟩ :=
          call_rest c (Bool.eq_false_iff.2 hopens) (Bool.eq_false_iff.2 htakes)
        · cases hnone.symm.trans hfc
        · obtain rfl := Option.some.inj (hfc.symm.trans hover)
          exact .inr ⟨rfl, hdone⟩
  taken_iff sn data hop hstatus := by
    obtain ⟨now, op⟩ := c
    obtain rfl : op = .pdu (.consecutive sn data) := hop
    constructor
    · intro htakes cause hfailed
      obtain ⟨_, hpart⟩ := Option.isSome_iff_exists.1 htakes
      obtain ⟨-, outcome, hreply, happends⟩ := call_takes hr _ hpart
      exact happends.ne_failed cause (Reply.outcome.inj (hreply.symm.trans hfailed))
    · intro hreply
      obtain ⟨m, hphase⟩ := status_eq_receiving.1 hstatus
      have hsn : sn.toNat = m.nextSn := Decidable.byContradiction fun hsn =>
        hreply _ (call_outOfTurn now hphase hsn)
      exact Option.isSome_of_eq_some (Record.part?_eq_some.2 ⟨hphase, sn, rfl, hsn⟩)
  completes_iff htakes := by
    obtain ⟨⟨m, data⟩, hpart⟩ := Option.isSome_iff_exists.1 htakes
    obtain ⟨-, outcome, -, happends⟩ := call_takes hr c hpart
    have hbefore : (h.call c).2.before.written = h.receiver.written := rfl
    rw [happends.status_eq_done, (Record.takes_of_part? hpart).2, hbefore]
    omega
  bides hbides m hphase := call_bides c hphase hbides
  counts := call_counts hr hcounts c

section Runs

variable (buffer : Buffer) (capacity : Nat) (cfg : Config) (policy : FlowPolicy)
  (calls : List (Instant × Op))

/-- A run from a new receiver leaves one that keeps count, and the policy given last. -/
lemma Host.run_counts :
    let h : Host := ⟨.new buffer capacity, cfg, policy⟩
    (∃ p, Refines (h.run calls).receiver p) ∧
      (h.run calls).policy = policyIn policy (h.trace calls) ∧
      ∀ m, (h.run calls).receiver.phase = .receiving m → Counts (h.trace calls) m := by
  intro h
  have hnew : (∃ p, Refines h.receiver p) ∧ h.policy = policyIn policy [] ∧
      ∀ m, h.receiver.phase = .receiving m → Counts [] m :=
    ⟨⟨_, Assembly.refines_new buffer capacity⟩, rfl, by rintro m ⟨⟩⟩
  exact Host.stepwise.keeps
    (fun past h => (∃ p, Refines h.receiver p) ∧ h.policy = policyIn policy past ∧
      ∀ m, h.receiver.phase = .receiving m → Counts past m) hnew
    fun c _ past h hinv =>
      ⟨Host.call_refines hinv.1 c, Host.call_policy hinv.2.1 c, Host.call_counts hinv.1 hinv.2.2 c⟩

/-- **The schedule of answers.** In a run of a receiver whose policy changes at will, a first frame
that is let in is answered, and a consecutive frame exactly if as many have come since the answer
before as that granted, and there is more of the message. The answer is the policy in force at that
moment. A change of the policy, time before the deadline, and answers that could not be sent or are
sent later move no end of a block. -/
theorem schedule_of_run {u w : List Record} {y : Record}
    (hsplit : Host.trace ⟨.new buffer capacity, cfg, policy⟩ calls = u ++ y :: w) :
    y.Schedules (policyIn policy u) u := by
  obtain ⟨earlier, c, later, -, rfl, rfl, -⟩ := Host.stepwise.split hsplit
  obtain ⟨hr, hpolicy, hcounts⟩ := Host.run_counts buffer capacity cfg policy earlier
  rw [← hpolicy]
  exact Host.call_schedules hr hcounts c

end Runs

/-- Forty bytes in blocks of two frames, while the policy comes to grant one. The answer to the
first frame is refused by the link, and the second frame ends the block of two all the same. -/
theorem schedule_of_run_other_policy :
    let first : List (Instant × Op) := [(0, .pdu (.first 40 (.replicate 6 7)))]
    let between : List (Instant × Op) :=
      [(1, .setPolicy ⟨1, .zero⟩), (2, .postpone ⟨.clearToSend, 2, .zero⟩ 90), (3, .advance),
        (4, .pdu (.consecutive 1 (.replicate 7 7))), (5, .answered 95), (6, .setPolicy ⟨0, .zero⟩)]
    let last : List (Instant × Op) :=
      [(8, .setPolicy ⟨1, .zero⟩), (9, .pdu (.consecutive 3 (.replicate 7 7)))]
    let policy : FlowPolicy := ⟨2, .zero⟩
    let calls := first ++ between ++ (7, .pdu (.consecutive 2 (.replicate 7 7))) :: last
    ∃ u y w, Host.trace ⟨.new (.zeroed 40) 40, {}, policy⟩ calls = u ++ y :: w ∧
      policyIn policy u = ⟨0, .zero⟩ ∧ y.takes = true ∧
      (∃ fc later, Granted u fc later ∧ takenIn later + 1 = fc.blockSize.toNat) ∧
      y.answer? = some ⟨.clearToSend, 0, .zero⟩ ∧
      w.map Record.answer? = [none, none] := by
  intro first between last policy calls
  let h : Host := ⟨.new (.zeroed 40) 40, {}, policy⟩
  let ended := (h.run (first ++ between)).call (7, .pdu (.consecutive 2 (.replicate 7 7)))
  let u := h.trace (first ++ between)
  have hsplit : h.trace calls = u ++ ended.2 :: ended.1.trace last :=
    Host.stepwise.trace_split h (first ++ between) _ last
  have hpolicy : policyIn policy u = ⟨0, .zero⟩ := by decide +kernel
  have htakes : ended.2.takes = true := by decide +kernel
  have hanswer : ended.2.answer? = some ⟨.clearToSend, 0, .zero⟩ := by decide +kernel
  have hschedule := schedule_of_run (.zeroed 40) 40 {} policy calls hsplit
  rw [hpolicy] at hschedule
  obtain ⟨fc, later, hg, hiff⟩ := hschedule.takes htakes
  exact ⟨u, ended.2, ended.1.trace last, hsplit, hpolicy, htakes,
    ⟨fc, later, hg, (hiff.1 hanswer).1⟩, hanswer, by decide +kernel⟩

end IsoTp.Receiver

