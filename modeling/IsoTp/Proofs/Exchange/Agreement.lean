import IsoTp.Proofs.Exchange.Suited

/-!
Two parties that cooperate, through the two halves of a round.

Before the frames are handed over, one frame may be on its way; after that, either the sender may
go on and the receiver waits for it, or the message is through. An answer reaches the sender in the
same half of the round as the frame it answers, before any timer is looked at.
-/

namespace IsoTp.Exchange

open Channel Segmentation Assembly

variable {a b : Channel} {payload : Bytes} {i : Nat} {last : Option Instant} {s : Sender}
variable {σ ε : Type} [Link σ ε] {x : State σ}

/-- The frame of number `i` is on its way, and all before it have come. -/
structure Ahead (a b : Channel) (payload : Bytes) (i : Nat) (last : Option Instant)
    (x : State σ) : Prop where
  sender : ∃ s f events, (frames a.cfg payload)[i]? = some f ∧ Stands a b payload i last s events ∧
    x.a.Shows { a with sender := s } [⟨a.cfg.txId, f, false⟩] events
  receiver : ∃ r p, Refines r p ∧ r.capacity = b.receiver.capacity ∧ Awaits a b payload i p ∧
    x.b.Shows { b with receiver := r } [] []

/-- The frames up to that of number `i` have come, the last one at an instant, and the sender may
go on. -/
structure Met (a b : Channel) (payload : Bytes) (i : Nat) (last : Option Instant)
    (come : Instant) (x : State σ) : Prop where
  sender : ∃ s, Cleared a b payload i last s ∧ x.a.Shows { a with sender := s } [] []
  receiver : ∃ r m, Refines r (.underway m) ∧ r.capacity = b.receiver.capacity ∧
    Gathers a b payload i come m ∧ x.b.Shows { b with receiver := r } [] []

/-- The message is through. -/
structure Over (a b : Channel) (payload : Bytes) (x : State σ) : Prop where
  sender : ∃ s, s.phase = .done payload.length ∧
    x.a.Shows { a with sender := s } [] [.sent payload.length]
  receiver : ∃ r, Refines r (.done payload) ∧
    x.b.Shows { b with receiver := r } [] [.received payload]

/-- The frame of number `i`, as far as there is one. -/
def frameAt (a : Channel) (payload : Bytes) (i : Nat) : List Frame :=
  (frames a.cfg payload)[i]?.toList.map (⟨a.cfg.txId, ·, false⟩)

/-- The second party's answer to the frame of number `i`. -/
def answerTo (b : Channel) (i : Nat) : List Frame :=
  if i % b.cfg.blockSize.toNat = 0 then [answer b] else []

/-- The first party takes an answer in. -/
lemma accept_answer (h : Suited a b payload) (hs : Halted a payload i last s)
    (hi : i % b.cfg.blockSize.toNat = 0) (now : Instant) :
    ∃ s', Cleared a b payload i last s' ∧ ∀ line : Tap σ, Link.Willing line.line →
      (({ a with sender := s } : Channel).accept now (answer b) line).value = .ok () ∧
        (({ a with sender := s } : Channel).accept now (answer b) line).Yields line
          { a with sender := s' } [] [] := by
  obtain ⟨s', hcleared, haccept⟩ := hs.accept hi now
  have hread := Pdu.decode_flowControl
    (show Pdu.encode? _ _ (.flowControl ..) = _ from h.encode?_answer)
  refine ⟨s', hcleared, fun line hline => ?_⟩
  obtain ⟨hvalue, hyields⟩ :=
    accept_flowControl (c := { a with sender := s }) now hline rfl h.back hread
  refine ⟨hvalue, ?_⟩
  have hfc : s.accept a.cfg now (.ofWire b.cfg.policy.clearToSend.status
      b.cfg.policy.clearToSend.blockSize b.cfg.policy.clearToSend.stMinByte) = (s', none) := haccept
  rw [hfc] at hyields
  exact hyields

/-- The second party takes a frame in. -/
lemma accept_frameAt (h : Suited a b payload) {r : Receiver} {p : Phase}
    (hr : Refines r p) (hcap : r.capacity = b.receiver.capacity)
    {f : Bytes} (hf : (frames a.cfg payload)[i]? = some f) (now : Instant) :
    let y := Assembly.accept b.receiver.capacity b.cfg b.policy now (Pdu.decode f) p
    ∀ new events, Settles b.cfg y new events →
      ∃ r', Refines r' y.1 ∧ r'.capacity = b.receiver.capacity ∧
        ∀ line : Tap σ, Link.Willing line.line →
          let turn := ({ b with receiver := r } : Channel).accept now ⟨a.cfg.txId, f, false⟩ line
          turn.value = .ok () ∧ turn.Yields line { b with receiver := r' } new events := by
  intro y new events hsettles
  have hpart := (kind_frame h.sendable hf a.cfg.txId false).1
  have haccept := accept_part (σ := σ) (c := { b with receiver := r }) now hr rfl h.there hpart
    (y := y) (by simp only [y, hcap]) hsettles
  rw [hcap] at haccept
  exact haccept

lemma frameAt_eq {f : Bytes} (hf : (frames a.cfg payload)[i]? = some f) :
    frameAt a payload i = [⟨a.cfg.txId, f, false⟩] := by
  rw [frameAt, hf]
  rfl

/-- The last frame gets the message through. -/
lemma Ahead.handOver_last (hx : Ahead a b payload i last x) (h : Suited a b payload)
    (hlast : i + 1 = (frames a.cfg payload).length) :
    Over a b payload x.handOver.1 ∧ sentBy .a x.handOver.2 = frameAt a payload i ∧
      sentBy .b x.handOver.2 = [] := by
  obtain ⟨s, f, events, hf, hstands, ha⟩ := hx.sender
  obtain ⟨r, p, hr, hcap, hp, hb⟩ := hx.receiver
  rw [Stands, if_pos hlast] at hstands
  obtain ⟨hphase, rfl⟩ := hstands
  have hy := hp.takes h hf x.now
  rw [Takes, if_pos hlast] at hy
  obtain ⟨r', hr', -, hthere⟩ := accept_frameAt (σ := σ) h hr hcap hf x.now [] [.received payload]
    (by rw [hy]; exact ⟨rfl, rfl⟩)
  rw [hy] at hr'
  obtain ⟨ha', hb', hentries⟩ := State.handOver_of_one ha hb hthere
  refine ⟨⟨⟨s, hphase, ha'⟩, r', hr', hb'⟩, ?_, ?_⟩
  · rw [hentries, frameAt_eq hf]
    rfl
  · rw [hentries]
    rfl

/-- Any other frame comes, and is answered at the end of a block. -/
lemma Ahead.handOver (hx : Ahead a b payload i last x) (h : Suited a b payload)
    (hmore : i + 1 < (frames a.cfg payload).length) :
    Met a b payload i last x.now x.handOver.1 ∧
      sentBy .a x.handOver.2 = frameAt a payload i ∧ sentBy .b x.handOver.2 = answerTo b i := by
  obtain ⟨s, f, events, hf, hstands, ha⟩ := hx.sender
  obtain ⟨r, p, hr, hcap, hp, hb⟩ := hx.receiver
  rw [Stands, if_neg (Nat.ne_of_lt hmore)] at hstands
  obtain ⟨rfl, hstands⟩ := hstands
  have hy := hp.takes h hf x.now
  rw [Takes, if_neg (Nat.ne_of_lt hmore)] at hy
  obtain ⟨m, hm, hy⟩ := hy
  rw [frameAt_eq hf, answerTo]
  by_cases hi : i % b.cfg.blockSize.toNat = 0
  · rw [if_pos hi] at hstands hy ⊢
    obtain ⟨r', hr', hcap', hthere⟩ := accept_frameAt (σ := σ) h hr hcap hf x.now [answer b] []
      (by rw [hy]; exact ⟨_, h.encode?_answer, rfl, rfl⟩)
    obtain ⟨s', hcleared, hback⟩ := accept_answer (σ := σ) h hstands hi x.now
    rw [hy] at hr'
    obtain ⟨ha', hb', hentries⟩ := State.handOver_of_answer ha hb hthere hback
    refine ⟨⟨⟨s', hcleared, ha'⟩, r', m, hr', hcap', hm, hb'⟩, ?_, ?_⟩ <;> rw [hentries] <;> rfl
  · rw [if_neg hi] at hstands hy ⊢
    obtain ⟨r', hr', hcap', hthere⟩ := accept_frameAt (σ := σ) h hr hcap hf x.now [] []
      (by rw [hy]; exact ⟨rfl, rfl⟩)
    rw [hy] at hr'
    obtain ⟨ha', hb', hentries⟩ := State.handOver_of_one ha hb hthere
    refine ⟨⟨⟨s, hstands, ha'⟩, r', m, hr', hcap', hm, hb'⟩, ?_, ?_⟩ <;> rw [hentries] <;> rfl

lemma Met.handOver {come : Instant} (hx : Met a b payload i last come x) :
    Met a b payload i last come x.handOver.1 ∧ x.handOver.2 = [] := by
  obtain ⟨s, hs, ha⟩ := hx.sender
  obtain ⟨r, m, hr, hcap, hm, hb⟩ := hx.receiver
  obtain ⟨ha', hb', hentries⟩ := State.handOver_of_nil ha hb
  exact ⟨⟨⟨s, hs, ha'⟩, r, m, hr, hcap, hm, hb'⟩, hentries⟩

lemma Over.handOver (hx : Over a b payload x) :
    Over a b payload x.handOver.1 ∧ x.handOver.2 = [] := by
  obtain ⟨s, hs, ha⟩ := hx.sender
  obtain ⟨r, hr, hb⟩ := hx.receiver
  obtain ⟨ha', hb', hentries⟩ := State.handOver_of_nil ha hb
  exact ⟨⟨⟨s, hs, ha'⟩, r, hr, hb'⟩, hentries⟩

/-! ### Time -/

/-- A receiver is not touched by time before its deadline. -/
lemma Gathers.untouched {come now : Instant} {m : Underway} {r : Receiver}
    (hm : Gathers a b payload i come m) (hr : Refines r (.underway m))
    (hnow : now < b.cfg.clock.after come b.cfg.nCr) : Untouched now r := by
  have howed := hr.represents.owed
  obtain ⟨j, hj, hbuffer⟩ := hr.represents
  refine ⟨howed.trans hm.owed, ?_⟩
  have hdeadline := hbuffer.deadline.trans hm.deadline
  simp only [Receiver.advance, hj, hdeadline, if_pos hnow]

lemma untouched_of_done {r : Receiver} {message : Bytes} (hr : Refines r (.done message))
    (now : Instant) : Untouched now r := by
  refine ⟨hr.represents.owed, ?_⟩
  simp only [Receiver.advance, hr.represents.1]

/-- Where the sender may go on, it sends the next frame as soon as the gap is over. -/
lemma Met.tick {come : Instant} (hx : Met a b payload i last come x) (h : Suited a b payload)
    (hmore : i + 1 < (frames a.cfg payload).length)
    (hnow : x.now < b.cfg.clock.after come b.cfg.nCr) (period : Nat) :
    if last.any (x.now < a.cfg.clock.after · (gap b)) then
      Met a b payload i last come (x.tick period)
    else Ahead a b payload (i + 1) (some x.now) (x.tick period) := by
  obtain ⟨s, hs, ha⟩ := hx.sender
  obtain ⟨r, m, hr, hcap, hm, hb⟩ := hx.receiver
  obtain ⟨t, hcarries, hdue, hstands⟩ := hs.next x.now
  have hb' := hb.advance fun line hline =>
    advance_of_nothing (c := { b with receiver := r }) x.now hline (hm.untouched hr hnow)
      (h.nothing_due_b x.now)
  split
  · next hwait =>
    rw [if_pos hwait] at hdue
    have ha' := ha.advance fun line hline =>
      advance_of_nothing (c := { a with sender := s }) x.now hline (h.untouched_a x.now) hdue
    exact ⟨⟨s, hs, ha'⟩, r, m, hr, hcap, hm, hb'⟩
  · next hwait =>
    rw [if_neg hwait] at hdue
    have hf := List.getElem?_eq_getElem hmore
    have ha' := ha.advance fun line hline =>
      advance_of_frame (c := { a with sender := s }) x.now hline (h.untouched_a x.now) hcarries
        hdue hf
    exact ⟨⟨_, _, _, hf, hstands, ha'⟩, r, _, hr, hcap, ⟨m, come, rfl, hm⟩, hb'⟩

lemma Over.tick (hx : Over a b payload x) (h : Suited a b payload) (period : Nat) :
    Over a b payload (x.tick period) := by
  obtain ⟨s, hs, ha⟩ := hx.sender
  obtain ⟨r, hr, hb⟩ := hx.receiver
  have hdue : s.due a.cfg x.now = .nothing := by simp only [Sender.due, hs]
  have ha' := ha.advance fun line hline =>
    advance_of_nothing (c := { a with sender := s }) x.now hline (h.untouched_a x.now) hdue
  have hb' := hb.advance fun line hline =>
    advance_of_nothing (c := { b with receiver := r }) x.now hline
      (untouched_of_done hr x.now) (h.nothing_due_b x.now)
  exact ⟨⟨s, hs, ha'⟩, r, hr, hb'⟩

lemma Over.completed (hx : Over a b payload x) : x.a.channel.sender.progress = .completed := by
  obtain ⟨s, hs, ha⟩ := hx.sender
  rw [ha.channel]
  simp only [Sender.progress, hs]

/-- The receiver holds the message until it is collected. -/
lemma Over.collect (hx : Over a b payload x) : x.b.channel.receiver.status = .done ∧
    ∀ room, payload.length ≤ room → (x.b.channel.collect room).2 = .ok payload := by
  obtain ⟨r, hr, hb⟩ := hx.receiver
  rw [hb.channel]
  refine ⟨?_, fun room hroom => ?_⟩
  · simp only [Receiver.status, hr.represents.1]
  · refine (hr.collect room).yields.trans ?_
    simp only [Assembly.collect, if_pos hroom]

end IsoTp.Exchange
