import IsoTp.Proofs.Exchange.Rounds

/-!
A message on its way, as either party sees it.

Both parties count the consecutive frames from the same start: a block ends after a frame exactly
if the block size divides its number, where a block size of 0 divides only 0. After such a frame
the sender waits, and there the receiver answers.
-/

namespace IsoTp.Exchange

open Channel Segmentation Assembly

/-- Two channels as they are built, of which the second listens to what the first sends and the
first to what the second answers, and a message that both have room for. -/
structure Suited (a b : Channel) (payload : Bytes) : Prop where
  fresh_a : Fresh a.cfg a
  fresh_b : Fresh b.cfg b
  there : a.cfg.txId = b.cfg.rxId
  back : b.cfg.txId = a.cfg.rxId
  ne_nil : payload ≠ []
  le_send : payload.length ≤ a.cfg.sendCapacity
  le_receive : payload.length ≤ b.cfg.receiveCapacity

/-- The separation time that the second party asks for, as the first one reads it. -/
def gap (b : Channel) : Duration := SeparationTime.ofWire (SeparationTime.toByte b.cfg.stMin)

/-- The flow control that the second party sends. -/
def answer (b : Channel) : Frame :=
  ⟨b.cfg.txId, (b.cfg.encode? b.cfg.policy.clearToSend.toPdu).getD [], false⟩

variable {a b : Channel} {payload : Bytes} {i : Nat}

namespace Suited

lemma sendable (h : Suited a b payload) : Sendable a.cfg payload := by
  have hvalid := h.fresh_a.eq_new.1
  have := hvalid.sendCapacity_lt
  have := h.le_send
  exact ⟨hvalid, h.ne_nil, by omega⟩

lemma capacity_a (h : Suited a b payload) : payload.length ≤ a.sender.capacity ∧
    a.sender.capacity ≤ a.sender.buffer.size := by
  obtain ⟨-, tx, rx, htx, -, hnew⟩ := h.fresh_a.eq_new
  have := h.le_send
  rw [hnew]
  simp only [Sender.new]
  omega

lemma capacity_b (h : Suited a b payload) : payload.length ≤ b.receiver.capacity := by
  obtain ⟨-, tx, rx, -, hrx, hnew⟩ := h.fresh_b.eq_new
  have := h.le_receive
  rw [hnew]
  simp only [Receiver.new]
  omega

lemma policy_b (h : Suited a b payload) : b.policy = b.cfg.policy := by
  obtain ⟨-, tx, rx, -, -, hnew⟩ := h.fresh_b.eq_new
  rw [hnew]

lemma refines_b (h : Suited a b payload) : Refines b.receiver .idle := by
  obtain ⟨-, tx, rx, -, -, hnew⟩ := h.fresh_b.eq_new
  rw [hnew]
  exact refines_new ..

lemma idle_a (h : Suited a b payload) : a.sender.transfer? = none := by
  obtain ⟨-, tx, rx, -, -, hnew⟩ := h.fresh_a.eq_new
  rw [hnew]
  rfl

lemma untouched_a (h : Suited a b payload) (now : Instant) : Untouched now a.receiver := by
  obtain ⟨-, tx, rx, -, -, hnew⟩ := h.fresh_a.eq_new
  rw [hnew]
  exact ⟨rfl, rfl⟩

lemma nothing_due_b (h : Suited a b payload) (now : Instant) :
    b.sender.due b.cfg now = .nothing := by
  obtain ⟨-, tx, rx, -, -, hnew⟩ := h.fresh_b.eq_new
  rw [hnew]
  rfl

lemma encode?_answer (h : Suited a b payload) :
    b.cfg.encode? b.cfg.policy.clearToSend.toPdu = some (answer b).data := by
  have hsome : (b.cfg.encode? b.cfg.policy.clearToSend.toPdu).isSome :=
    Pdu.isSome_encode?_flowControl h.fresh_b.eq_new.1.frameLength_legal
  obtain ⟨data, hdata⟩ := Option.isSome_iff_exists.1 hsome
  rw [answer, hdata]
  rfl

end Suited

/-! ### The receiver -/

/-- A message under way of which the first frame and `i` consecutive frames have come, the last of
them at an instant. -/
structure Gathers (a b : Channel) (payload : Bytes) (i : Nat) (last : Instant) (m : Underway) :
    Prop where
  follows : Follows a.cfg ⟨a.cfg.txId, payload, i + 1⟩ m.pieces
  count : m.parts.length = i
  granted : m.granted = b.cfg.blockSize.toNat
  since : m.granted ≠ 0 → m.since = i % m.granted
  owed : m.owed = none
  deadline : m.deadline = b.cfg.clock.after last b.cfg.nCr

/-- The receiver's phase when the frame of number `i` is to come. -/
def Awaits (a b : Channel) (payload : Bytes) : Nat → Phase → Prop
  | 0, p => p = .idle
  | i + 1, p => ∃ m last, p = .underway m ∧ Gathers a b payload i last m

/-- The count of the frames since a block began starts again when the block is full. -/
lemma add_one_mod {g : Nat} (hg : g ≠ 0) (i : Nat) :
    (i + 1) % g = if i % g + 1 = g then 0 else i % g + 1 := by
  have hlt := Nat.mod_lt i (Nat.pos_of_ne_zero hg)
  have hsplit : i + 1 = i % g + 1 + g * (i / g) := by
    have := Nat.mod_add_div i g
    omega
  rw [hsplit, Nat.add_mul_mod_self_left]
  split
  · next hfull => rw [hfull, Nat.mod_self]
  · rw [Nat.mod_eq_of_lt (by omega)]

/-- A block is full after the frame of number `i + 1` exactly if the block size divides that. -/
lemma full_iff {g since : Nat} (hsince : g ≠ 0 → since = i % g) :
    (g ≠ 0 ∧ since + 1 = g) ↔ (i + 1) % g = 0 := by
  by_cases hg : g = 0
  · simp [hg]
  · rw [add_one_mod hg, hsince hg]
    split
    · next hfull => simp [hg, hfull]
    · next hfull => simp [hfull]

lemma since_succ {g since : Nat} (hsince : g ≠ 0 → since = i % g) (hmore : (i + 1) % g ≠ 0)
    (hg : g ≠ 0) : since + 1 = (i + 1) % g := by
  have hmod := add_one_mod hg i
  rw [hsince hg]
  split at hmod
  · exact absurd hmod hmore
  · exact hmod.symm

/-- What the frame of number `i` does to the receiver: the last frame completes the message, and
every other is answered if a block ends with it. -/
def Takes (a b : Channel) (payload : Bytes) (i : Nat) (now : Instant)
    (y : Phase × Receiver.Outcome) : Prop :=
  if i + 1 = (frames a.cfg payload).length then y = (.done payload, .complete payload.length)
  else ∃ m, Gathers a b payload i now m ∧
    y = (.underway m,
      if i % b.cfg.blockSize.toNat = 0 then .answer b.cfg.policy.clearToSend else .none)

variable {f : Bytes}

/-- The frame that opens the message. -/
lemma takes_opening (h : Suited a b payload) (hf : (frames a.cfg payload)[0]? = some f)
    (now : Instant) : Takes a b payload 0 now
      (Assembly.accept b.receiver.capacity b.cfg b.policy now (Pdu.decode f) .idle) := by
  have hs := h.sendable
  have hcap := Nat.not_lt.2 h.capacity_b
  unfold Takes
  by_cases hshort : payload.length ≤ a.cfg.singleRoom
  · rw [if_pos (length_frames_of_short hs hshort).symm, decode_frame_of_short hs hshort hf]
    simp only [Assembly.accept, toNat_length_of_short hs.valid hshort, if_neg hcap,
      List.take_length]
  · have hmore : 1 < (frames a.cfg payload).length := by
      have hfirst := firstRoom_le_singleRoom a.cfg payload.length
      rw [lt_length_frames_iff hs (by omega) (Nat.le_refl 1), reach_one]
      omega
    rw [if_neg (by omega), Nat.zero_mod, if_pos rfl, decode_frame_zero hs (by omega) hf]
    simp only [Assembly.accept, hs.toNat_length, if_neg hcap, h.policy_b]
    refine ⟨_, ⟨follows_first a.cfg.txId, rfl, rfl, fun _ => ?_, rfl, rfl⟩, rfl⟩
    rw [Nat.zero_mod]

/-- A frame that goes on with the message. -/
lemma Gathers.takes {come : Instant} {m : Underway} (hm : Gathers a b payload i come m)
    (h : Suited a b payload) (hf : (frames a.cfg payload)[i + 1]? = some f) (now : Instant) :
    Takes a b payload (i + 1) now
      (Assembly.accept b.receiver.capacity b.cfg b.policy now (Pdu.decode f) (.underway m)) := by
  have hwhole : Whole a.cfg ⟨a.cfg.txId, payload, i + 1⟩ m.pieces :=
    ⟨hm.follows, congrArg (· + 1) hm.count.symm⟩
  have haccept := hwhole.accept h.sendable hf b.receiver.capacity b.cfg b.policy now
  unfold Takes
  by_cases hlast : i + 1 + 1 = (frames a.cfg payload).length
  · rw [if_pos hlast]
    rwa [if_pos (show Cargo.count _ = _ from hlast)] at haccept
  · rw [if_neg (show ¬Cargo.count _ = _ from hlast)] at haccept
    obtain ⟨data, hnext, hy⟩ := haccept
    have hcount : (m.push data (b.cfg.clock.after now b.cfg.nCr)).parts.length = i + 1 :=
      Nat.succ.inj hnext.count.symm
    have hfull := full_iff hm.since
    rw [if_neg hlast, hy, ← hm.granted, h.policy_b]
    by_cases hzero : (i + 1) % m.granted = 0
    · rw [if_pos (hfull.2 hzero), if_pos hzero]
      refine ⟨_, ?_, rfl⟩
      refine ⟨hnext.follows, hcount, rfl, fun _ => ?_, hm.owed, rfl⟩
      rw [hm.granted] at hzero
      exact hzero.symm
    · rw [if_neg fun hx => hzero (hfull.1 hx), if_neg hzero]
      refine ⟨_, ?_, rfl⟩
      exact ⟨hnext.follows, hcount, hm.granted, since_succ hm.since hzero, hm.owed, rfl⟩

/-- The receiver takes the frame it waits for. -/
lemma Awaits.takes {p : Phase} (hp : Awaits a b payload i p) (h : Suited a b payload)
    (hf : (frames a.cfg payload)[i]? = some f) (now : Instant) : Takes a b payload i now
      (Assembly.accept b.receiver.capacity b.cfg b.policy now (Pdu.decode f) p) := by
  cases i with
  | zero =>
    obtain rfl : p = .idle := hp
    exact takes_opening h hf now
  | succ i =>
    obtain ⟨m, come, rfl, hm⟩ := hp
    exact hm.takes h hf now

/-! ### The sender -/

/-- A transfer of which the first frame and `i` consecutive frames are on the link, the last of the
latter since an instant. -/
structure Sending (a : Channel) (payload : Bytes) (i : Nat) (last : Option Instant) (s : Sender)
    (t : Transfer) : Prop where
  carries : t.Carries a.cfg s.buffer ⟨a.cfg.txId, payload, i + 1⟩
  refused : t.refusedSince = none
  last : t.lastSent = last

/-- What is left of a block after `i` consecutive frames. -/
structure Granted (b : Channel) (i : Nat) (t : Transfer) : Prop where
  blockSize : t.blockSize = b.cfg.blockSize.toNat
  blockLeft : t.blockSize ≠ 0 → t.blockLeft = t.blockSize - i % t.blockSize
  stMin : t.stMin = gap b

/-- A sender in the middle of a block. -/
def Cleared (a b : Channel) (payload : Bytes) (i : Nat) (last : Option Instant) (s : Sender) :
    Prop :=
  ∃ t, s.phase = .sending t ∧ Sending a payload i last s t ∧ Granted b i t

/-- A sender at the end of a block. -/
def Halted (a : Channel) (payload : Bytes) (i : Nat) (last : Option Instant) (s : Sender) : Prop :=
  ∃ t deadline, s.phase = .waiting t deadline ∧ Sending a payload i last s t

variable {last : Option Instant} {s : Sender}

/-- The answer of the second party starts a block. -/
lemma Halted.accept (hs : Halted a payload i last s) (hi : i % b.cfg.blockSize.toNat = 0)
    (now : Instant) : ∃ s', Cleared a b payload i last s' ∧ s.accept a.cfg now
        (.ofWire .clearToSend b.cfg.blockSize (SeparationTime.toByte b.cfg.stMin)) =
      (s', none) := by
  obtain ⟨t, deadline, hphase, hsending⟩ := hs
  simp only [Sender.accept, hphase]
  refine ⟨_, ?_, rfl⟩
  refine ⟨_, rfl, ⟨hsending.carries.congr ⟨rfl, rfl, rfl, rfl⟩, hsending.refused, hsending.last⟩,
    rfl, fun _ => ?_, rfl⟩
  simp only [FlowControl.ofWire, hi]
  rfl

/-- Where a sender stands with the frame of number `i` on the link, and which events it has raised:
it is through after the last frame, and halted after one that ends a block. -/
def Stands (a b : Channel) (payload : Bytes) (i : Nat) (last : Option Instant) (s : Sender)
    (events : List Event) : Prop :=
  if i + 1 = (frames a.cfg payload).length then
    s.phase = .done payload.length ∧ events = [.sent payload.length]
  else events = [] ∧
    if i % b.cfg.blockSize.toNat = 0 then Halted a payload i last s
    else Cleared a b payload i last s

/-- The next frame is due when the gap is over, and takes the sender one frame further. -/
lemma Cleared.next (hs : Cleared a b payload i last s) (now : Instant) :
    ∃ t, t.Carries a.cfg s.buffer ⟨a.cfg.txId, payload, i + 1⟩ ∧
      s.due a.cfg now = (if last.any (now < a.cfg.clock.after · (gap b)) then .nothing
        else .frame t (Cargo.chunk a.cfg ⟨a.cfg.txId, payload, i + 1⟩)) ∧
      let x := s.placed a.cfg now t (Cargo.chunk a.cfg ⟨a.cfg.txId, payload, i + 1⟩).length
      Stands a b payload (i + 1) (some now) x.1 (x.2.toList.map sendEvent) := by
  obtain ⟨t, hphase, hsending, hgranted⟩ := hs
  have hcarries := hsending.carries
  refine ⟨t, hcarries, ?_, ?_⟩
  · rw [Sender.due_of_carries hphase hcarries hsending.refused, hsending.last, hgranted.stMin]
  · have hsize := hgranted.blockSize
    have hleft := hgranted.blockLeft
    rw [Sender.placed_eq hcarries now]
    unfold Stands
    by_cases hlast : i + 1 + 1 = (frames a.cfg payload).length
    · rw [if_pos hlast, if_pos (show Cargo.count _ = _ from hlast)]
      exact ⟨rfl, rfl⟩
    · have hplaced := Sender.carries_placed hcarries now hlast
      rw [if_neg hlast, if_neg (show ¬Cargo.count _ = _ from hlast), ← hsize]
      by_cases h0 : t.blockSize = 0
      · rw [if_pos h0, if_neg (by simp [h0])]
        exact ⟨rfl, _, rfl, ⟨hplaced, rfl, rfl⟩, hsize, absurd h0, hgranted.stMin⟩
      · have hlt := Nat.mod_lt i (Nat.pos_of_ne_zero h0)
        have hmod := add_one_mod h0 i
        rw [if_neg h0, hleft h0]
        by_cases hfull : i % t.blockSize + 1 = t.blockSize
        · rw [if_pos hfull] at hmod
          rw [if_neg (by omega), if_pos hmod]
          exact ⟨rfl, _, _, rfl, hplaced.congr ⟨rfl, rfl, rfl, rfl⟩, rfl, rfl⟩
        · rw [if_neg hfull] at hmod
          rw [if_pos (by omega), if_neg (by omega)]
          refine ⟨rfl, _, rfl, ⟨hplaced.congr ⟨rfl, rfl, rfl, rfl⟩, rfl, rfl⟩, hsize, fun _ => ?_,
            hgranted.stMin⟩
          simp only [Transfer.placed]
          omega

end IsoTp.Exchange
