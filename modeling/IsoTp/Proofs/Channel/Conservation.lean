import IsoTp.Proofs.Channel.Balance

/-!
What two parties in the middle of a message owe each other.

While the sender waits, exactly one thing is outstanding: the frame that is to be answered, the
answer that the link refused, or the answer on its way. While it sends, no answer is, and both count
the same frames of the block.
-/

namespace IsoTp.Channel

open Segmentation Assembly

variable {cfgA cfgB : Config} {payload : Bytes} {n m : Nat} {p : Assembly.Phase} {u : Underway}

/-! ### What the parties show -/

namespace Duplex

variable {σ τ ε δ : Type} [Link σ ε] [Link τ δ] (d : Duplex σ τ)

/-- The number of consecutive frames on their way to the second party. -/
def consecutives : Nat := d.toB.countP fun f => (Pdu.decode f.data).isConsecutive

/-- The last frame on its way to the second party is one that it answers: the first frame, or the
consecutive frame that ends its block. -/
def AnswerDue : Prop :=
  ∃ f, d.toB.getLast? = some f ∧ ((Pdu.decode f.data).isFirst ∨
    (Pdu.decode f.data).isConsecutive ∧ ∃ i, d.b.channel.receiver.phase = .receiving i ∧
      i.blockSize ≠ 0 ∧ i.blockLeft = d.consecutives)

/-- There is one frame on its way to the first party that clears it to send. -/
def Answered : Prop := d.toA.countP (fun f => (Pdu.decode f.data).isClearToSend) = 1

/-- The parties keep one account of the frames that the second one has granted. While the first one
waits, exactly one of these holds: an answer is due, it is owed, or it is on its way. While it
sends, none is, and what is left of its block is what the second one still counts, less the frames
on their way; without a block no answer comes any more. The message does not fail, and the first
party does not wait for nothing. -/
structure Conserves : Prop where
  waiting : ∀ t deadline, d.a.channel.sender.phase = .waiting t deadline →
    d.AnswerDue ∧ d.b.channel.receiver.owed = none ∧ ¬d.Answered ∨
      ¬d.AnswerDue ∧ d.b.channel.receiver.owed.isSome ∧ ¬d.Answered ∨
      ¬d.AnswerDue ∧ d.b.channel.receiver.owed = none ∧ d.Answered
  answers : d.toA.length ≤ 1 ∧ ∀ f ∈ d.toA, (Pdu.decode f.data).isClearToSend
  sending : ∀ t, d.a.channel.sender.phase = .sending t →
    d.b.channel.receiver.owed = none ∧ d.toA = []
  counted : ∀ t, d.a.channel.sender.phase = .sending t → t.blockSize ≠ 0 →
    ∃ i, d.b.channel.receiver.phase = .receiving i ∧ i.blockSize = t.blockSize ∧
      i.blockLeft = t.blockLeft + d.consecutives
  free : ∀ t, d.a.channel.sender.phase = .sending t → t.blockSize = 0 →
    ∀ later, (d.run later).Calm → (d.run later).offered = d.offered
  unfailed : d.b.channel.receiver.status ≠ .failed
  live : (∃ len, d.a.channel.sender.phase = .done len) ∨
    (∃ t, d.a.channel.sender.phase = .sending t) ∨
    (∃ t deadline, d.a.channel.sender.phase = .waiting t deadline) ∧
      (d.toB ≠ [] ∨ d.b.channel.receiver.owed.isSome ∨ d.toA ≠ [])

variable {d}

lemma not_answered (htoA : d.toA = []) : ¬d.Answered := by
  rw [Answered, htoA]
  exact Nat.zero_ne_one

lemma conserves_of_waiting {t : Transfer} {deadline : Instant}
    (hphase : d.a.channel.sender.phase = .waiting t deadline)
    (haccount : d.AnswerDue ∧ d.b.channel.receiver.owed = none ∧ ¬d.Answered ∨
      ¬d.AnswerDue ∧ d.b.channel.receiver.owed.isSome ∧ ¬d.Answered ∨
      ¬d.AnswerDue ∧ d.b.channel.receiver.owed = none ∧ d.Answered)
    (hanswers : d.toA.length ≤ 1 ∧ ∀ f ∈ d.toA, (Pdu.decode f.data).isClearToSend)
    (hunfailed : d.b.channel.receiver.status ≠ .failed) : d.Conserves where
  waiting _ _ _ := haccount
  answers := hanswers
  sending t' ht' := nomatch hphase.symm.trans ht'
  counted t' ht' := nomatch hphase.symm.trans ht'
  free t' ht' := nomatch hphase.symm.trans ht'
  unfailed := hunfailed
  live := by
    refine .inr (.inr ⟨⟨t, deadline, hphase⟩, ?_⟩)
    rcases haccount with ⟨⟨f, hf, -⟩, -⟩ | ⟨-, howed, -⟩ | ⟨-, -, hanswered⟩
    · refine .inl fun hnil => ?_
      rw [hnil] at hf
      cases hf
    · exact .inr (.inl howed)
    · exact .inr (.inr fun hnil => not_answered hnil hanswered)

lemma conserves_of_done {len : Nat} (hphase : d.a.channel.sender.phase = .done len)
    (htoA : d.toA = []) (hunfailed : d.b.channel.receiver.status ≠ .failed) :
    d.Conserves where
  waiting t deadline ht := nomatch hphase.symm.trans ht
  answers := by simp [htoA]
  sending t ht := nomatch hphase.symm.trans ht
  counted t ht := nomatch hphase.symm.trans ht
  free t ht := nomatch hphase.symm.trans ht
  unfailed := hunfailed
  live := .inl ⟨len, hphase⟩

end Duplex

namespace Balance

variable {σ τ ε δ : Type} [Link σ ε] [Link τ δ] {d : Duplex σ τ}

/-- A message under way at the second party, as its receiver counts it. -/
lemma inbound (h : Balance cfgA cfgB payload n m (.underway u) d) :
    ∃ i, d.b.channel.receiver.phase = .receiving i ∧ i.blockSize = u.granted ∧
      i.blockLeft = u.granted - u.since := by
  obtain ⟨i, hi, hbuffer⟩ := h.b.refines.represents
  exact ⟨i, hi, hbuffer.blockSize, hbuffer.blockLeft⟩

/-- Once the first frame has come, those on their way are consecutive frames. -/
lemma consecutives_eq (hp : Paired cfgA cfgB payload)
    (h : Balance cfgA cfgB payload n m (.underway u) d) :
    d.consecutives = n - m ∧ ∀ f ∈ d.toB, (Pdu.decode f.data).isConsecutive := by
  have hm : 1 ≤ m := by
    have hcount : m = _ := (h.b.whole u rfl).count
    omega
  have hall := isConsecutive_of_between (n := n) hp.sendable hm
  rw [← h.toB] at hall
  refine ⟨?_, hall⟩
  rw [Duplex.consecutives, List.countP_eq_length.2 hall, h.toB, length_between h.le_length]

lemma answerDue_first (hp : Paired cfgA cfgB payload)
    (h : Balance cfgA cfgB payload 1 0 .idle d) : d.AnswerDue := by
  obtain ⟨data, hdata⟩ : ∃ data, (frames cfgA payload)[0]? = some data :=
    ⟨_, List.getElem?_eq_getElem h.le_length⟩
  have htoB : d.toB = [⟨cfgA.txId, data, false⟩] := by
    rw [h.toB, between_succ (Nat.le_refl 0) hdata, between_self]
    rfl
  refine ⟨⟨cfgA.txId, data, false⟩, by rw [htoB]; rfl, .inl ?_⟩
  rw [decode_frame_zero hp.sendable hp.long hdata]
  rfl

lemma answerDue_last (hp : Paired cfgA cfgB payload)
    (h : Balance cfgA cfgB payload n m (.underway u) d) (hlt : m < n)
    (hsince : u.since + (n - m) = u.granted) : d.AnswerDue := by
  obtain ⟨hcount, hall⟩ := h.consecutives_eq hp
  obtain ⟨i, hi, hsize, hleft⟩ := h.inbound
  have hne : d.toB ≠ [] := by
    have hlength : (between cfgA payload m n).length = n - m := length_between h.le_length
    rw [h.toB, ← List.length_pos_iff]
    omega
  exact ⟨_, List.getLast?_eq_some_getLast hne,
    .inr ⟨hall _ (List.getLast_mem hne), i, hi, by omega, by omega⟩⟩

lemma not_answerDue (h : Balance cfgA cfgB payload n n p d) : ¬d.AnswerDue := by
  rintro ⟨f, hf, -⟩
  rw [h.toB, between_self] at hf
  cases hf

/-- While the sender sends, both parties count the same frames of the block, and without a block
they come through all later acts without an answer. -/
lemma conserves_of_sending (hp : Paired cfgA cfgB payload)
    (h : Balance cfgA cfgB payload n m (.underway u) d) {t : Transfer}
    (hphase : d.a.channel.sender.phase = .sending t) (howed : d.b.channel.receiver.owed = none)
    (htoA : d.toA = []) (hsize : t.blockSize = u.granted)
    (hleft : u.granted ≠ 0 → 1 ≤ t.blockLeft ∧ u.since + (n - m) + t.blockLeft = u.granted)
    (hunfailed : d.b.channel.receiver.status ≠ .failed) : d.Conserves := by
  obtain ⟨hcount, -⟩ := h.consecutives_eq hp
  obtain ⟨i, hi, hsize', hleft'⟩ := h.inbound
  have hsame {t' : Transfer} (ht' : d.a.channel.sender.phase = .sending t') : t' = t :=
    Sender.Phase.sending.inj (ht'.symm.trans hphase)
  refine ⟨fun t' deadline ht' => (nomatch hphase.symm.trans ht'), by simp [htoA],
    fun t' _ => ⟨howed, htoA⟩, fun t' ht' h0 => ?_, fun t' ht' h0 later hcalm => ?_, hunfailed,
    .inr (.inl ⟨t, hphase⟩)⟩
  · rw [hsame ht'] at h0 ⊢
    have := hleft (by omega)
    exact ⟨i, hi, hsize'.trans hsize.symm, by omega⟩
  · rw [hsame ht'] at h0
    obtain ⟨_, _, _, _, hfree⟩ := h.run hp later hcalm
    refine (hfree ⟨fun t' deadline ht' => (nomatch hphase.symm.trans ht'), ?_⟩).2
    rintro _ ⟨⟩
    exact hsize.symm.trans h0

/-- Parties in balance show it. -/
theorem conserves (hp : Paired cfgA cfgB payload) (h : Balance cfgA cfgB payload n m p d) :
    d.Conserves := by
  have howed := h.b.refines.represents.owed
  have hunfailed : d.b.channel.receiver.status ≠ .failed := by
    rw [h.b.refines.represents.status]
    cases p with
    | failed cause => exact absurd rfl (h.credit.ne_failed cause)
    | idle | underway | done => nofun
  have hcredit := h.credit
  generalize hphase : d.a.channel.sender.phase = q at hcredit
  generalize htoA : d.toA = toA at hcredit
  have hnil (hempty : toA = []) : d.toA.length ≤ 1 ∧ ∀ f ∈ d.toA,
      (Pdu.decode f.data).isClearToSend := by simp [htoA, hempty]
  cases hcredit with
  | opening =>
    exact Duplex.conserves_of_waiting hphase
      (.inl ⟨h.answerDue_first hp, howed, Duplex.not_answered htoA⟩) (hnil rfl) hunfailed
  | ending hnone hmore hgranted hsince =>
    exact Duplex.conserves_of_waiting hphase
      (.inl ⟨h.answerDue_last hp hmore hsince, howed.trans hnone, Duplex.not_answered htoA⟩)
      (hnil rfl) hunfailed
  | owing hsome hgrants =>
    refine Duplex.conserves_of_waiting hphase
      (.inr (.inl ⟨h.not_answerDue, ?_, Duplex.not_answered htoA⟩)) (hnil rfl) hunfailed
    rw [howed.trans hsome]
    rfl
  | @answered _ _ _ _ fc hnone hgrants =>
    have hclear : (Pdu.decode (fc.frame cfgB).data).isClearToSend := by
      rw [FlowControl.decode_frame hp.valid fc, hgrants.status]
      rfl
    refine Duplex.conserves_of_waiting hphase
      (.inr (.inr ⟨h.not_answerDue, howed.trans hnone, ?_⟩)) ?_ hunfailed
    · rw [Duplex.Answered, htoA]
      simp [hclear]
    · rw [htoA]
      simp [hclear]
  | sending hnone hsize hleft =>
    exact h.conserves_of_sending hp hphase (howed.trans hnone) htoA hsize hleft hunfailed
  | through hnone hleft => exact Duplex.conserves_of_done hphase htoA hunfailed
  | complete => exact Duplex.conserves_of_done hphase htoA hunfailed

end Balance

/-! ### The start -/

namespace Duplex

variable {σ τ ε δ : Type} [Link σ ε] [Link τ δ] {a b : Channel} {d : Duplex σ τ}

/-- Two channels between which nothing has passed. -/
structure Silent (a b : Channel) (d : Duplex σ τ) : Prop where
  a_eq : d.a.channel = a
  b_eq : ∃ policy, d.b.channel = { b with policy }
  toB : d.toB = []
  toA : d.toA = []

/-- Before the first message nothing passes. -/
lemma Silent.step (h : Silent a b d) (ha : Fresh cfgA a) (hb : Fresh cfgB b) (act : Act σ τ) :
    Silent a b (d.step act) := by
  obtain ⟨-, txA, rxA, -, -, rfl⟩ := ha.eq_new
  obtain ⟨-, txB, rxB, -, -, rfl⟩ := hb.eq_new
  obtain ⟨⟨a, lineA⟩, ⟨b, lineB⟩, toB, toA, offered, events⟩ := d
  obtain ⟨rfl, ⟨policy, rfl⟩, rfl, rfl⟩ := h
  cases act with
  | setPolicy policy' => exact ⟨rfl, ⟨policy', rfl⟩, rfl, rfl⟩
  | timeA | timeB | arriveB | arriveA | setLineA | setLineB => exact ⟨rfl, ⟨policy, rfl⟩, rfl, rfl⟩

lemma Silent.run (h : Silent a b d) (ha : Fresh cfgA a) (hb : Fresh cfgB b)
    (acts : List (Act σ τ)) : Silent a b (d.run acts) := by
  induction acts generalizing d with
  | nil => exact h
  | cons act acts ih => exact ih (h.step ha hb act)

/-- The message is begun: its first frame is on its way. -/
lemma Silent.balance (h : Silent a b d) (ha : Fresh cfgA a) (hb : Fresh cfgB b)
    (hlong : cfgA.singleRoom < payload.length) (hfits : payload.length ≤ cfgB.receiveCapacity)
    (now : Instant)
    (hbegun : (d.a.step now (.send payload)).2.begun = some (cfgA.txId, payload)) :
    Sendable cfgA payload ∧ Balance cfgA cfgB payload 1 0 .idle (d.callA now (.send payload)) := by
  obtain ⟨hcfg, hready⟩ := ha.ready
  have hidle : a.receiver.phase = .idle := by
    obtain ⟨-, tx, rx, -, -, hnew⟩ := ha.eq_new
    rw [hnew]
    rfl
  rw [← h.a_eq] at hcfg hready hidle
  rw [← hcfg] at hready
  obtain ⟨value, hreply, hsends⟩ := Host.step_send now hready payload
  obtain ⟨-, z, -, hready'⟩ := d.a.step_moves hready now (.send payload)
  rw [Record.begun, hreply] at hbegun
  generalize hchannel : (d.a.step now (.send payload)).1.channel = x at hsends hready'
  generalize hoffers : (d.a.step now (.send payload)).2.offers = new at hsends
  generalize (d.a.step now (.send payload)).2.events = events at hsends
  cases hsends with
  | error => cases hbegun
  | ok hbegins =>
    cases hbegins with
    | @taken f hfree hs hcap hf =>
      rw [hcfg] at hs hf hready' hchannel hoffers
      obtain ⟨buffer, -, hopened, hcarries⟩ := Sender.opened_of_long (s := d.a.channel.sender) hs
        hlong (Nat.le_trans hcap hready.fits) now cfgA.txId
      rw [hopened] at hchannel hready'
      refine ⟨hs, ?_, ?_, Nat.zero_le 1, length_frames_pos hs, ?_, ?_⟩
      · rw [show (d.callA now (.send payload)).a.channel = _ from hchannel]
        refine ⟨rfl, hidle, ⟨z, hready'⟩, ?_⟩
        intro t ht
        cases ht
        exact hcarries
      · obtain ⟨-, tx, rx, -, hrx, rfl⟩ := hb.eq_new
        obtain ⟨policy, hpolicy⟩ := h.b_eq
        rw [show (d.callA now (.send payload)).b.channel = _ from hpolicy]
        refine ⟨rfl, rfl, hb.ready.2, refines_new .., ?_, by rintro _ ⟨⟩⟩
        exact Nat.le_trans hfits (Nat.le_min.2 ⟨Nat.le_refl _, hrx⟩)
      · have htoB : (d.callA now (.send payload)).toB = d.toB ++ takenOf _ :=
          congrArg (d.toB ++ takenOf ·) hoffers
        rw [htoB, h.toB, between_succ (Nat.le_refl 0) hf, between_self]
        rfl
      · rw [show (d.callA now (.send payload)).a.channel = _ from hchannel,
          show (d.callA now (.send payload)).toA = _ from h.toA]
        exact .opening

/-! ### Main statement -/

/-- **Two parties never grant or use up more than was granted, and never wait for each other.**
Whatever the instants, the order in which frames arrive, what the second party grants and what the
links take: as long as no timer expires, a message in more than one frame that the second party has
room for leaves the two with one account of the frames granted. -/
theorem conserves_of_run (ha : Fresh cfgA a) (hb : Fresh cfgB b) (hthere : cfgA.txId = cfgB.rxId)
    (hback : cfgB.txId = cfgA.rxId) (hlong : cfgA.singleRoom < payload.length)
    (hfits : payload.length ≤ cfgB.receiveCapacity) (lineA : σ) (lineB : τ)
    (before : List (Act σ τ)) (now : Instant) (acts : List (Act σ τ)) :
    let d := run ⟨⟨a, lineA⟩, ⟨b, lineB⟩, [], [], [], []⟩ before
    let e := (d.callA now (.send payload)).run acts
    (d.a.step now (.send payload)).2.begun = some (cfgA.txId, payload) → e.Calm →
      e.Conserves := by
  intro d e hbegun hcalm
  have hstart : Silent a b (⟨⟨a, lineA⟩, ⟨b, lineB⟩, [], [], [], []⟩ : Duplex σ τ) :=
    ⟨rfl, ⟨b.policy, rfl⟩, rfl, rfl⟩
  have hsilent := hstart.run ha hb before
  obtain ⟨hs, hbalance⟩ := hsilent.balance ha hb hlong hfits now hbegun
  have hp : Paired cfgA cfgB payload := ⟨hb.eq_new.1, hthere, hback, hs, hlong⟩
  obtain ⟨n, m, p, hend, -⟩ := hbalance.run hp acts hcalm
  exact hend.conserves hp

/-- The first answer is refused once; then two frames fill a block, of which one has come. -/
theorem conserves_of_run_block_of_two :
    let cfgA : Config := { rxId := .standard 1 }
    let cfgB : Config := { txId := .standard 1, blockSize := 2 }
    let a : Channel := ⟨cfgA, cfgA.policy, .new (.zeroed 4095) 4095, .new (.zeroed 4095) 4095⟩
    let b : Channel := ⟨cfgB, cfgB.policy, .new (.zeroed 4095) 4095, .new (.zeroed 4095) 4095⟩
    let payload : Bytes := .replicate 30 7
    let before : List (Act Quota Quota) := [.setLineB ⟨some 0⟩]
    let acts : List (Act Quota Quota) :=
      [.arriveB 1, .setLineB ⟨none⟩, .timeB 2, .arriveA 3, .timeA 4, .timeA 5, .arriveB 6]
    let d := run ⟨⟨a, ⟨none⟩⟩, ⟨b, ⟨none⟩⟩, [], [], [], []⟩ before
    let e := (d.callA 0 (.send payload)).run acts
    Fresh cfgA a ∧ Fresh cfgB b ∧
      (d.a.step 0 (.send payload)).2.begun = some (cfgA.txId, payload) ∧ e.Calm ∧ e.Conserves ∧
      e.a.channel.sender.progress = .waiting ∧ e.toB.length = 1 := by
  intro cfgA cfgB a b payload before acts d e
  have ha : Fresh cfgA a := .ofBuffers (.zeroed 4095) (.zeroed 4095) rfl
  have hb : Fresh cfgB b := .ofBuffers (.zeroed 4095) (.zeroed 4095) rfl
  have hbegun : (d.a.step 0 (.send payload)).2.begun = some (cfgA.txId, payload) := by
    decide +kernel
  have hcalm : e.Calm := by decide +kernel
  have hlong : cfgA.singleRoom < payload.length := by decide
  have hfits : payload.length ≤ cfgB.receiveCapacity := by decide
  have h : e.Conserves := conserves_of_run ha hb rfl rfl hlong hfits (⟨none⟩ : Quota)
    (⟨none⟩ : Quota) before 0 acts hbegun hcalm
  exact ⟨ha, hb, hbegun, hcalm, h, by decide +kernel, by decide +kernel⟩

end Duplex

end IsoTp.Channel
