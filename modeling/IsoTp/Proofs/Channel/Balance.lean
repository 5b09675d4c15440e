import IsoTp.Proofs.Channel.Credit
import IsoTp.Proofs.Channel.Duplex
import IsoTp.Proofs.Channel.Reception

/-!
Two parties in the middle of a message.

The first party has put a number of its frames on the link, of which some have come to the second.
The frames between them are on their way, and the parties and the flow control on its way back keep
the account of `Credit`. Every act without a timeout leaves them so.
-/

namespace IsoTp.Channel

open Segmentation Assembly

/-! ### The two parties -/

/-- The first party, with `n` frames of the message on its link. -/
structure SideA (cfg : Config) (payload : Bytes) (n : Nat) (c : Channel) : Prop where
  cfg_eq : c.cfg = cfg
  receiver : c.receiver.phase = .idle
  ready : ∃ x, c.sender.Ready cfg x
  carries : ∀ t, c.sender.transfer? = some t →
    t.Carries cfg c.sender.buffer ⟨cfg.txId, payload, n⟩

/-- The second party, to which `m` frames of the message have come. -/
structure SideB (cfgA cfgB : Config) (payload : Bytes) (m : Nat) (p : Assembly.Phase)
    (c : Channel) : Prop where
  cfg_eq : c.cfg = cfgB
  sender : c.sender.phase = .idle
  ready : c.sender.Ready cfgB none
  refines : Refines c.receiver p
  capacity : payload.length ≤ c.receiver.capacity
  whole : ∀ u, p = .underway u → Whole cfgA ⟨cfgA.txId, payload, m⟩ u.pieces

variable {cfgA cfgB : Config} {payload : Bytes} {n m : Nat} {q : Sender.Phase}
  {p : Assembly.Phase} {toA : List Frame} {c x : Channel} {now : Instant} {new : List Offer}
  {events : List Event} {u : Underway}

/-- The link takes the next frame of the sender, which ends the message or a block, or neither. -/
lemma Credit.placed {s : Sender} {t : Transfer}
    (hcredit : Credit cfgB (frames cfgA payload).length n m (.sending t) p toA) (hm : m ≤ n)
    (hc : t.Carries cfgA s.buffer ⟨cfgA.txId, payload, n⟩) (now : Instant) :
    let x := (s.placed cfgA now t (Cargo.chunk cfgA ⟨cfgA.txId, payload, n⟩).length).1
    (∀ t', x.transfer? = some t' → t'.Carries cfgA x.buffer ⟨cfgA.txId, payload, n + 1⟩) ∧
      Credit cfgB (frames cfgA payload).length (n + 1) m x.phase p toA ∧
      (Free (.sending t) p → Free x.phase p) := by
  dsimp only
  rw [Sender.placed_eq hc now]
  split
  · next hlast =>
    have hdone := hcredit.finished hm hlast payload.length
    refine ⟨nofun, ?_, fun hfree => ⟨nofun, hfree.receiver⟩⟩
    rw [show n + 1 = _ from hlast]
    exact hdone
  · next hlast =>
    have hnext := Sender.carries_placed hc now hlast
    split
    · next h0 =>
      refine ⟨?_, hcredit.unbounded h0 rfl, fun hfree => ⟨nofun, hfree.receiver⟩⟩
      rintro _ ⟨⟩
      exact hnext
    · next h0 =>
      split
      · next hmore =>
        refine ⟨?_, hcredit.within hm hmore rfl rfl, fun hfree => ⟨nofun, hfree.receiver⟩⟩
        rintro _ ⟨⟩
        exact hnext.congr ⟨rfl, rfl, rfl, rfl⟩
      · next hlast =>
        refine ⟨?_, hcredit.halted hm h0 hlast _, fun hfree => ?_⟩
        · rintro _ ⟨⟩
          exact hnext.congr ⟨rfl, rfl, rfl, rfl⟩
        · exact absurd (hcredit.blockSize_of_free hfree) h0

/-- What time does to the sender: nothing, or the link refuses or takes the next frame. -/
lemma SideA.time (h : SideA cfgA payload n c)
    (hcredit : Credit cfgB (frames cfgA payload).length n m c.sender.phase p toA) (hm : m ≤ n)
    (hn : n ≤ (frames cfgA payload).length) {s : Sender} {event : Option Sender.Event}
    (hadvances : c.sender.Advances cfgA now s new event)
    (huntimed : ∀ timer, event ≠ some (.failed (.timeout timer))) :
    ∃ k, m ≤ k ∧ k ≤ (frames cfgA payload).length ∧
      between cfgA payload m k = between cfgA payload m n ++ takenOf new ∧
      (∀ t, s.transfer? = some t → t.Carries cfgA s.buffer ⟨cfgA.txId, payload, k⟩) ∧
      Credit cfgB (frames cfgA payload).length k m s.phase p toA ∧
      (Free c.sender.phase p → Free s.phase p) := by
  -- the cargo of a transfer is the message
  have hcargo {t : Transfer} {o : Cargo} (hphase : c.sender.phase = .sending t)
      (hc : t.Carries cfgA c.sender.buffer o) : o = ⟨cfgA.txId, payload, n⟩ :=
    hc.cargo_eq (h.carries t (by simp only [Sender.transfer?, hphase]))
  cases hadvances with
  | rest => exact ⟨n, hm, hn, (List.append_nil _).symm, h.carries, hcredit, id⟩
  | expired => exact absurd rfl (huntimed _)
  | @refused t o f hphase hc hf =>
    obtain rfl := hcargo hphase hc
    rw [hphase] at hcredit ⊢
    refine ⟨n, hm, hn, (List.append_nil _).symm, ?_, hcredit.refused rfl rfl, ?_⟩
    · rintro _ ⟨⟩
      exact hc.congr ⟨rfl, rfl, rfl, rfl⟩
    · exact fun hfree => ⟨by rintro _ _ ⟨⟩, hfree.receiver⟩
  | @taken t o f hphase hc hf =>
    obtain rfl := hcargo hphase hc
    rw [hphase] at hcredit ⊢
    exact ⟨n + 1, Nat.le_succ_of_le hm, hc.lt_length, between_succ hm hf, hcredit.placed hm hc now⟩

/-- The answer of the second party starts a block. -/
lemma SideA.arrive (hp : Paired cfgA cfgB payload) (h : SideA cfgA payload n c) {f : Frame}
    {rest : List Frame}
    (hcredit : Credit cfgB (frames cfgA payload).length n m c.sender.phase p (f :: rest))
    (haccepts : Accepts now f c x new events) :
    new = [] ∧ x.receiver = c.receiver ∧
      (∀ t, x.sender.transfer? = some t →
        t.Carries cfgA x.sender.buffer ⟨cfgA.txId, payload, n⟩) ∧
      Credit cfgB (frames cfgA payload).length n m x.sender.phase p rest ∧
      ¬Free c.sender.phase p := by
  generalize hphase : c.sender.phase = q at hcredit
  generalize htoA : f :: rest = toA at hcredit
  cases hcredit with
  | opening | ending | owing | sending | through | complete => cases htoA
  | @answered _ t deadline u fc howed hgrants =>
    cases htoA
    have hdecode := FlowControl.decode_frame hp.valid fc
    cases haccepts with
    | foreign hf => exact absurd hf (by simp [FlowControl.frame, h.cfg_eq, hp.back])
    | unit hf hread => exact absurd hdecode (hread _ _ _)
    | @flowControl status blockSize stMin hf hread =>
      rw [hdecode] at hread
      cases hread
      have hcarries := h.carries t (by simp only [Sender.transfer?, hphase])
      simp only [Sender.accept, hphase, FlowControl.ofWire, hgrants.status]
      refine ⟨trivial, trivial, ?_, ?_, fun hfree => hfree.sender t deadline rfl⟩
      · rintro _ ⟨⟩
        exact hcarries.congr ⟨rfl, rfl, rfl, rfl⟩
      · refine .sending howed hgrants.blockSize fun hgranted => ?_
        have hsize := hgrants.blockSize
        have hsince := hgrants.since
        dsimp only
        omega

/-- The second party answers: its answer is on its way, or it owes it. -/
lemma SideB.answer (h : SideB cfgA cfgB payload m (.underway u) c) (howed : u.owed = none)
    {fc : FlowControl} (hgrants : Grants fc u) {r : Receiver}
    (hresolves : Resolves now c (.answer fc) r new events) (total : Nat) (t : Transfer)
    (deadline : Instant) :
    ∃ p', SideB cfgA cfgB payload m p' { c with receiver := r } ∧
      Credit cfgB total m m (.waiting t deadline) p' (takenOf new) := by
  cases hresolves with
  | answered =>
    obtain rfl : c.cfg = cfgB := h.cfg_eq
    exact ⟨_, h, .answered howed hgrants⟩
  | postponed =>
    have hpostpone := h.refines.postpone fc (c.cfg.clock.after now c.cfg.nAr)
    refine ⟨_, ⟨h.cfg_eq, h.sender, h.ready, hpostpone.refines, ?_, ?_⟩,
      .owing (u := { u with owed := some fc, deadline := c.cfg.clock.after now c.cfg.nAr }) rfl
        ⟨hgrants.status, hgrants.blockSize, hgrants.since⟩⟩
    · rw [hpostpone.capacity_eq]
      exact h.capacity
    · rintro _ ⟨⟩
      exact h.whole u rfl

/-- The second party with what comes of a frame of the message. -/
lemma SideB.receive (h : SideB cfgA cfgB payload m p c) {y : Receiver × Receiver.Outcome}
    {z : Assembly.Phase × Receiver.Outcome} (hagrees : Agrees c.receiver.capacity y z) {k : Nat}
    (hwhole : ∀ u, z.1 = .underway u → Whole cfgA ⟨cfgA.txId, payload, k⟩ u.pieces) :
    SideB cfgA cfgB payload k z.1 { c with receiver := y.1 } :=
  ⟨h.cfg_eq, h.sender, h.ready, hagrees.refines, by rw [hagrees.capacity_eq]; exact h.capacity,
    hwhole⟩

/-- The first frame comes to the second party. -/
lemma SideB.arrive_first (hp : Paired cfgA cfgB payload) (h : SideB cfgA cfgB payload 0 .idle c)
    {data : Bytes} (hf : (frames cfgA payload)[0]? = some data)
    (haccepts : Accepts now ⟨cfgA.txId, data, false⟩ c x new events) (total : Nat) (t : Transfer)
    (deadline : Instant) :
    ∃ p', SideB cfgA cfgB payload 1 p' x ∧
      Credit cfgB total 1 1 (.waiting t deadline) p' (takenOf new) := by
  have hdecode := decode_frame_zero hp.sendable hp.long hf
  cases haccepts with
  | foreign hf => exact absurd hf (by simp [h.cfg_eq, hp.there])
  | flowControl hf hread => simp [hdecode] at hread
  | unit hf hread hresolves =>
    have hagrees := h.refines.accept c.cfg c.policy now (sound_decode data)
    dsimp only at hresolves
    rw [hagrees.yields] at hresolves
    rw [hdecode] at hagrees hresolves
    simp only [Assembly.accept, hp.sendable.toNat_length, if_neg (Nat.not_lt.2 h.capacity)]
      at hagrees hresolves
    have hreceive := h.receive (k := 1) hagrees fun u hu => by
      cases hu
      exact ⟨follows_first cfgA.txId, rfl⟩
    exact hreceive.answer rfl ⟨rfl, rfl, rfl⟩ hresolves total t deadline

/-- A consecutive frame comes to the second party. -/
lemma SideB.arrive_next (hp : Paired cfgA cfgB payload)
    (h : SideB cfgA cfgB payload m (.underway u) c)
    (hcredit : Credit cfgB (frames cfgA payload).length n m q (.underway u) toA) (hm : m < n)
    (hn : n ≤ (frames cfgA payload).length)
    (hq : (∀ len, q ≠ .done len) → n < (frames cfgA payload).length) {data : Bytes}
    (hf : (frames cfgA payload)[m]? = some data)
    (haccepts : Accepts now ⟨cfgA.txId, data, false⟩ c x new events) :
    ∃ p', SideB cfgA cfgB payload (m + 1) p' x ∧
      Credit cfgB (frames cfgA payload).length n (m + 1) q p' (toA ++ takenOf new) ∧
      (Free q (.underway u) → Free q p' ∧ new = []) := by
  have hwhole := h.whole u rfl
  obtain ⟨sn, fill, hdecode, -⟩ := Cargo.decode_next (c := ⟨cfgA.txId, payload, m⟩) cfgA
    hp.sendable (by rw [hwhole.count]; exact Nat.le_add_left ..) hf
  cases haccepts with
  | foreign hf => exact absurd hf (by simp [h.cfg_eq, hp.there])
  | flowControl hf hread => simp [hdecode] at hread
  | unit hf' hread hresolves =>
    have hagrees := h.refines.accept c.cfg c.policy now (sound_decode data)
    have haccept := hwhole.accept hp.sendable hf c.receiver.capacity c.cfg c.policy now
    dsimp only at hresolves haccept
    rw [hagrees.yields] at hresolves
    split at haccept
    · next hlast =>
      rw [haccept] at hagrees hresolves
      cases hresolves
      refine ⟨_, h.receive (k := m + 1) hagrees nofun, ?_,
        fun hfree => ⟨⟨hfree.sender, nofun⟩, rfl⟩⟩
      rw [show takenOf [] = [] from rfl, List.append_nil]
      exact hcredit.last hm hq hlast payload
    · next hlast =>
      obtain ⟨part, hpart, hy⟩ := haccept
      rw [hy] at hagrees hresolves
      split at hagrees
      · next hfull =>
        rw [if_pos hfull] at hresolves
        obtain ⟨⟨t, deadline, rfl⟩, rfl, howed, rfl⟩ := hcredit.full hm hlast hn hfull
        have hreceive := h.receive (k := m + 1) hagrees fun u' hu' => by
          cases hu'
          exact hpart
        obtain ⟨p', hb, hcredit'⟩ := hreceive.answer (u := { u.push part _ with
          granted := c.policy.blockSize.toNat, since := 0 }) howed ⟨rfl, rfl, rfl⟩ hresolves
          (frames cfgA payload).length t deadline
        exact ⟨p', hb, hcredit', fun hfree => absurd rfl (hfree.sender t deadline)⟩
      · next hnot =>
        rw [if_neg hnot] at hresolves
        cases hresolves
        have hreceive := h.receive (k := m + 1) hagrees fun u' hu' => by
          cases hu'
          exact hpart
        refine ⟨_, hreceive, ?_, fun hfree => ⟨⟨hfree.sender, ?_⟩, rfl⟩⟩
        · rw [show takenOf [] = [] from rfl, List.append_nil]
          exact hcredit.more hm hnot rfl rfl rfl
        · rintro _ ⟨⟩
          exact hfree.receiver u rfl

/-- What time does to the second party: the link may take the answer that it owes. -/
lemma SideB.time (h : SideB cfgA cfgB payload m p c) {total : Nat}
    (hcredit : Credit cfgB total n m q p toA) {r : Receiver} {s : Sender}
    {answers parts : List Offer} {event : Option Sender.Event}
    (hretries : Retries now c r answers)
    (hadvances : c.sender.Advances c.cfg now s parts event) :
    ∃ p', SideB cfgA cfgB payload m p' { c with receiver := r, sender := s } ∧
      Credit cfgB total n m q p' (toA ++ takenOf (answers ++ parts)) ∧
      (Free q p → Free q p' ∧ answers ++ parts = []) := by
  have hidle : s = c.sender ∧ parts = [] := by
    cases hadvances with
    | rest => exact ⟨rfl, rfl⟩
    | expired hdue => simp [Sender.due, h.sender] at hdue
    | refused hphase | taken hphase => simp [h.sender] at hphase
  obtain ⟨rfl, rfl⟩ := hidle
  rw [List.append_nil]
  have howed := h.refines.represents.owed
  cases hretries with
  | nothing =>
    exact ⟨p, h, by rwa [show takenOf [] = [] from rfl, List.append_nil], fun hfree => ⟨hfree, rfl⟩⟩
  | @refused fc howes =>
    obtain ⟨t, deadline, u, rfl, rfl, rfl, rfl, hgrants⟩ := hcredit.owes (howed.symm.trans howes)
    exact ⟨_, h, hcredit, fun hfree => absurd rfl (hfree.sender t deadline)⟩
  | @taken fc howes =>
    obtain ⟨t, deadline, u, rfl, rfl, rfl, rfl, hgrants⟩ := hcredit.owes (howed.symm.trans howes)
    have hanswered := h.refines.answered (c.cfg.clock.after now c.cfg.nCr)
    refine ⟨_, ⟨h.cfg_eq, h.sender, h.ready, hanswered.refines, ?_, ?_⟩, ?_,
      fun hfree => absurd rfl (hfree.sender t deadline)⟩
    · rw [hanswered.capacity_eq]
      exact h.capacity
    · rintro _ ⟨⟩
      exact h.whole u rfl
    · rw [h.cfg_eq]
      exact .answered rfl ⟨hgrants.status, hgrants.blockSize, hgrants.since⟩

/-! ### Acts -/

/-- Two parties in the middle of a message, with the frames on their way. -/
structure Balance {σ τ : Type} (cfgA cfgB : Config) (payload : Bytes) (n m : Nat)
    (p : Assembly.Phase) (d : Duplex σ τ) : Prop where
  a : SideA cfgA payload n d.a.channel
  b : SideB cfgA cfgB payload m p d.b.channel
  le : m ≤ n
  le_length : n ≤ (frames cfgA payload).length
  toB : d.toB = between cfgA payload m n
  credit : Credit cfgB (frames cfgA payload).length n m d.a.channel.sender.phase p d.toA

namespace Balance

variable {σ τ ε δ : Type} [Link σ ε] [Link τ δ] {d e : Duplex σ τ}

/-- One act takes the parties from one balance to another. Where the sender does not wait and no
block is counted, it stays so, and the second party offers nothing. -/
def Continues (cfgA cfgB : Config) (payload : Bytes) (p : Assembly.Phase) (d e : Duplex σ τ) :
    Prop :=
  ∃ n m p', Balance cfgA cfgB payload n m p' e ∧
    (Free d.a.channel.sender.phase p →
      Free e.a.channel.sender.phase p' ∧ e.offered = d.offered)

/-- An act that concerns neither half of the transfer. -/
lemma keep (h : Balance cfgA cfgB payload n m p d)
    (ha : e.a.channel = d.a.channel)
    (hb : ∃ policy, e.b.channel = { d.b.channel with policy }) (htoB : e.toB = d.toB)
    (htoA : e.toA = d.toA) (hoffered : e.offered = d.offered) :
    Continues cfgA cfgB payload p d e := by
  obtain ⟨policy, hb⟩ := hb
  refine ⟨n, m, p, ⟨?_, ?_, h.le, h.le_length, htoB.trans h.toB, ?_⟩, fun hfree => ⟨?_, hoffered⟩⟩
  · rw [ha]
    exact h.a
  · rw [hb]
    exact ⟨h.b.cfg_eq, h.b.sender, h.b.ready, h.b.refines, h.b.capacity, h.b.whole⟩
  · rw [ha, htoA]
    exact h.credit
  · rw [ha]
    exact hfree

lemma timeA (h : Balance cfgA cfgB payload n m p d) (now : Instant)
    (hcalm : (d.step (.timeA now)).Calm) :
    Continues cfgA cfgB payload p d (d.step (.timeA now)) := by
  obtain ⟨z, hready⟩ := h.a.ready
  rw [← h.a.cfg_eq] at hready
  obtain ⟨hcfg, z', -, hready'⟩ := d.a.step_moves hready now .advance
  have helapses := Host.step_advance now hready
  obtain ⟨r, s, answers, parts, event, hx, hnew, hretries, hadvances, huntimed⟩ :=
    helapses.of_untimed (untimed_append.1 hcalm).2
  rw [h.a.cfg_eq] at hadvances
  have hidle : r = d.a.channel.receiver ∧ answers = [] := by
    have howed : d.a.channel.receiver.owed = none := by
      simp only [Receiver.owed, h.a.receiver]
    cases hretries with
    | nothing => exact ⟨rfl, rfl⟩
    | taken hsome | refused hsome => simp [howed] at hsome
  obtain ⟨rfl, rfl⟩ := hidle
  obtain ⟨k, hmk, hk, hbetween, hcarries, hcredit, hfree⟩ :=
    h.a.time h.credit h.le h.le_length hadvances huntimed
  have hchannel : (d.step (.timeA now)).a.channel = { d.a.channel with sender := s } := hx
  have htoB : (d.step (.timeA now)).toB = d.toB ++ takenOf parts :=
    congrArg (d.toB ++ takenOf ·) hnew
  refine ⟨k, m, p, ⟨?_, h.b, hmk, hk, ?_, ?_⟩, fun hfree' => ⟨?_, rfl⟩⟩
  · rw [hchannel]
    refine ⟨h.a.cfg_eq, h.a.receiver, ⟨z', ?_⟩, hcarries⟩
    rw [h.a.cfg_eq] at hready'
    have hsender := congrArg Channel.sender hchannel
    exact hsender ▸ hready'
  · rw [htoB, hbetween, h.toB]
  · rw [hchannel]
    exact hcredit
  · rw [hchannel]
    exact hfree hfree'

lemma timeB (h : Balance cfgA cfgB payload n m p d) (now : Instant)
    (hcalm : (d.step (.timeB now)).Calm) :
    Continues cfgA cfgB payload p d (d.step (.timeB now)) := by
  have helapses := Host.step_advance (h := d.b) now (h.b.cfg_eq ▸ h.b.ready)
  obtain ⟨r, s, answers, parts, event, hx, hnew, hretries, hadvances, -⟩ :=
    helapses.of_untimed (untimed_append.1 hcalm).2
  obtain ⟨p', hb, hcredit, hfree⟩ := h.b.time h.credit hretries hadvances
  have hchannel : (d.step (.timeB now)).b.channel =
      { d.b.channel with receiver := r, sender := s } := hx
  have htoA : (d.step (.timeB now)).toA = d.toA ++ takenOf (answers ++ parts) :=
    congrArg (d.toA ++ takenOf ·) hnew
  have hoffered : (d.step (.timeB now)).offered = d.offered ++ (answers ++ parts) :=
    congrArg (d.offered ++ ·) hnew
  refine ⟨n, m, p', ⟨h.a, ?_, h.le, h.le_length, h.toB, ?_⟩, fun hfree' => ⟨(hfree hfree').1, ?_⟩⟩
  · rw [hchannel]
    exact hb
  · rw [htoA]
    exact hcredit
  · rw [hoffered, (hfree hfree').2, List.append_nil]

/-- A sender that is not through has frames left. -/
lemma lt_length (h : Balance cfgA cfgB payload n m p d)
    (hq : ∀ len, d.a.channel.sender.phase ≠ .done len) : n < (frames cfgA payload).length := by
  have hcredit := h.credit
  have hcarries := h.a.carries
  unfold Sender.transfer? at hcarries
  cases hphase : d.a.channel.sender.phase with
  | waiting t deadline =>
    rw [hphase] at hcarries
    exact (hcarries t rfl).lt_length
  | sending t =>
    rw [hphase] at hcarries
    exact (hcarries t rfl).lt_length
  | done len => exact absurd hphase (hq len)
  | idle | failed =>
    rw [hphase] at hcredit
    cases hcredit

/-- The second party with what it makes of the first frame on its way. -/
lemma arrived (h : Balance cfgA cfgB payload n m p d) (now : Instant) (f : Frame)
    {rest : List Frame} (hlt : m < n) (hrest : rest = between cfgA payload (m + 1) n)
    {p' : Assembly.Phase}
    (hb : SideB cfgA cfgB payload (m + 1) p' (d.b.step now (.frame f)).1.channel)
    (hcredit : Credit cfgB (frames cfgA payload).length n (m + 1) d.a.channel.sender.phase p'
      (d.toA ++ takenOf (d.b.step now (.frame f)).2.offers))
    (hfree : Free d.a.channel.sender.phase p →
      Free d.a.channel.sender.phase p' ∧ (d.b.step now (.frame f)).2.offers = []) :
    Continues cfgA cfgB payload p d
      (({ d with toB := rest } : Duplex σ τ).callB now (.frame f)) := by
  refine ⟨n, m + 1, p', ⟨h.a, hb, hlt, h.le_length, hrest, hcredit⟩,
    fun hfree' => ⟨(hfree hfree').1, ?_⟩⟩
  exact (congrArg (d.offered ++ ·) (hfree hfree').2).trans (List.append_nil _)

lemma arriveB (hp : Paired cfgA cfgB payload) (h : Balance cfgA cfgB payload n m p d)
    (now : Instant) : Continues cfgA cfgB payload p d (d.step (.arriveB now)) := by
  simp only [Duplex.step]
  split
  · exact h.keep rfl ⟨_, rfl⟩ rfl rfl rfl
  · next f rest hwire =>
    obtain ⟨hlt, data, hf, rfl, hrest⟩ := between_eq_cons (h.toB.symm.trans hwire)
    have haccepts := Host.step_frame (h := d.b) now (by rw [h.b.cfg_eq]; exact hp.valid)
      ⟨cfgA.txId, data, false⟩
    have hcredit := h.credit
    cases p with
    | idle =>
      obtain ⟨⟨t, deadline, hphase⟩, rfl, rfl, htoA⟩ := hcredit.of_idle
      obtain ⟨p', hb, hcredit'⟩ :=
        h.b.arrive_first hp hf haccepts (frames cfgA payload).length t deadline
      rw [← List.nil_append (takenOf _), ← htoA, ← hphase] at hcredit'
      exact h.arrived now _ hlt hrest hb hcredit' fun hfree =>
        absurd hphase (hfree.sender t deadline)
    | underway u =>
      obtain ⟨p', hb, hcredit', hfree⟩ :=
        h.b.arrive_next hp hcredit hlt h.le_length h.lt_length hf haccepts
      exact h.arrived now _ hlt hrest hb hcredit' hfree
    | done message => exact absurd hcredit.of_done (Nat.ne_of_gt hlt)
    | failed cause => exact absurd rfl (hcredit.ne_failed cause)

lemma arriveA (hp : Paired cfgA cfgB payload) (h : Balance cfgA cfgB payload n m p d)
    (now : Instant) : Continues cfgA cfgB payload p d (d.step (.arriveA now)) := by
  simp only [Duplex.step]
  split
  · exact h.keep rfl ⟨_, rfl⟩ rfl rfl rfl
  · next f rest hwire =>
    obtain ⟨z, hready⟩ := h.a.ready
    rw [← h.a.cfg_eq] at hready
    obtain ⟨hcfg, z', -, hready'⟩ := d.a.step_moves hready now (.frame f)
    have haccepts := Host.step_frame (h := d.a) now hready.valid f
    have hcredit := h.credit
    rw [hwire] at hcredit
    obtain ⟨hnew, hreceiver, hcarries, hcredit', hfree⟩ := h.a.arrive hp hcredit haccepts
    rw [h.a.cfg_eq] at hcfg hready'
    refine ⟨n, m, p, ⟨⟨hcfg, hreceiver.symm ▸ h.a.receiver, ⟨z', hready'⟩, hcarries⟩, h.b, h.le,
      h.le_length, ?_, hcredit'⟩, fun hfree' => absurd hfree' hfree⟩
    exact (congrArg (d.toB ++ takenOf ·) hnew).trans ((List.append_nil _).trans h.toB)

/-- Every act takes the parties from one balance to another. -/
theorem step (hp : Paired cfgA cfgB payload) (h : Balance cfgA cfgB payload n m p d)
    (act : Duplex.Act σ τ) (hcalm : (d.step act).Calm) :
    Continues cfgA cfgB payload p d (d.step act) := by
  cases act with
  | timeA now => exact h.timeA now hcalm
  | timeB now => exact h.timeB now hcalm
  | arriveB now => exact h.arriveB hp now
  | arriveA now => exact h.arriveA hp now
  | setPolicy policy =>
    exact h.keep rfl ⟨policy, rfl⟩ rfl (List.append_nil _) (List.append_nil _)
  | setLineA line => exact h.keep rfl ⟨_, rfl⟩ (List.append_nil _) rfl rfl
  | setLineB line => exact h.keep rfl ⟨_, rfl⟩ rfl (List.append_nil _) (List.append_nil _)

theorem run (hp : Paired cfgA cfgB payload) (h : Balance cfgA cfgB payload n m p d)
    (acts : List (Duplex.Act σ τ)) (hcalm : (d.run acts).Calm) :
    Continues cfgA cfgB payload p d (d.run acts) := by
  induction acts generalizing d n m p with
  | nil => exact ⟨n, m, p, h, fun hfree => ⟨hfree, rfl⟩⟩
  | cons act acts ih =>
    obtain ⟨n', m', p', h', hfree⟩ := h.step hp act (Duplex.Calm.of_run hcalm)
    obtain ⟨n'', m'', p'', h'', hfree'⟩ := ih h' hcalm
    refine ⟨n'', m'', p'', h'', fun hf => ?_⟩
    obtain ⟨hf', hoffered⟩ := hfree hf
    obtain ⟨hf'', hoffered'⟩ := hfree' hf'
    exact ⟨hf'', hoffered'.trans hoffered⟩

end Balance

end IsoTp.Channel
