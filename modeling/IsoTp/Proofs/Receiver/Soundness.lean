import IsoTp.Proofs.Buffer
import IsoTp.Proofs.Pdu.Proper
import IsoTp.Receiver.Basic

/-!
What holds of a receiver at all times.

A reception has fewer bytes than it declares, and declares no more than the capacity. Every access
to the buffer therefore ends within the capacity: it succeeds, leaves what is beyond alone, and
comes out the same in a twin, a receiver whose buffer is the same as far as the capacity. That a new
reception has fewer bytes than it declares rests on the reading of first frames.
-/

namespace IsoTp

/-- A reception with so many bytes in the buffer is within its bounds. -/
structure Inbound.InOrder (capacity written : Nat) (m : Inbound) : Prop where
  written_lt : written < m.total
  total_le : m.total ≤ capacity
  nextSn_le : m.nextSn ≤ 15
  blockSize_le : m.blockSize ≤ 255
  block : 0 < m.blockSize → 1 ≤ m.blockLeft ∧ m.blockLeft ≤ m.blockSize

namespace Receiver

/-- A phase with so many bytes in the buffer is within the bounds of the capacity. Only a message
under way or complete has any. -/
def Phase.InOrder (capacity written : Nat) : Phase → Prop
  | .idle => written = 0
  | .receiving m => m.InOrder capacity written
  | .done => 1 ≤ written ∧ written ≤ capacity
  | .failed cause => cause ≠ .outOfBounds ∧ written = 0

/-- A receiver whose buffer has room for its capacity and whose phase is within it. -/
structure Sound (r : Receiver) : Prop where
  fits : r.capacity ≤ r.buffer.size
  phase : r.phase.InOrder r.capacity r.written

/-- Nothing is left over of a message that failed or was collected. -/
lemma Sound.written_eq_zero {r : Receiver} (h : r.Sound)
    (hstatus : r.status = .idle ∨ r.status = .failed) : r.written = 0 := by
  have hp := h.phase
  unfold status at hstatus
  cases hphase : r.phase with
  | idle =>
    rw [hphase] at hp
    exact hp
  | failed cause =>
    rw [hphase] at hp
    exact hp.2
  | receiving | done => simp [hphase] at hstatus

/-- Two receivers that differ in nothing but what their buffers have beyond the capacity. -/
def Twin (r r' : Receiver) : Prop :=
  ∃ b, Buffer.Alike r.capacity r.buffer b ∧ r' = { r with buffer := b }

/-- A call takes a receiver and its twin to sound twins, and writes nothing beyond the capacity. -/
structure Stays (r x x' : Receiver) : Prop where
  sound : x.Sound
  twin : Twin x x'
  capacity : x.capacity = r.capacity
  keeps : Buffer.Keeps r.capacity r.buffer x.buffer

variable {r r' x x' y y' : Receiver} {b : Buffer} {cfg : Config}

lemma sound_new (buffer : Buffer) (capacity : Nat) : (Receiver.new buffer capacity).Sound :=
  ⟨Nat.min_le_right .., rfl⟩

lemma Sound.twin_refl (h : r.Sound) : Twin r r := ⟨r.buffer, ⟨h.fits, h.fits, rfl⟩, rfl⟩

lemma Sound.stays (h : r.Sound) (ht : Twin r r') : Stays r r r' := ⟨h, ht, rfl, .refl ..⟩

lemma Stays.trans (h : Stays r x x') (hy : Stays x y y') : Stays r y y' := by
  have hkeeps := hy.keeps
  rw [h.capacity] at hkeeps
  exact ⟨hy.sound, hy.twin, hy.capacity.trans h.capacity, h.keeps.trans hkeeps⟩

lemma Twin.owed (h : Twin r r') : r'.owed = r.owed := by
  obtain ⟨b, -, rfl⟩ := h
  rfl

/-- Twins show the same message. -/
lemma Sound.message_eq (h : r.Sound) (ht : Twin r r') : r'.message = r.message := by
  obtain ⟨b, hb, rfl⟩ := ht
  have hp := h.phase
  simp only [message]
  cases hphase : r.phase with
  | done =>
    rw [hphase] at hp
    simp only [hb.read?_eq (show 0 + r.written ≤ r.capacity by have := hp.2; omega)]
  | idle | receiving | failed => rfl

/-! ### What each call does -/

/-- A call that leaves the buffer alone. -/
lemma Sound.setPhase (h : r.Sound) (hb : Buffer.Alike r.capacity r.buffer b) (phase : Phase)
    (written : Nat) (hphase : phase.InOrder r.capacity written) :
    Stays r { r with phase, written } { r with phase, written, buffer := b } :=
  ⟨⟨h.fits, hphase⟩, ⟨b, hb, rfl⟩, rfl, .refl ..⟩

/-- A write that ends within the capacity succeeds, here and in the twin. -/
lemma Sound.write (h : r.Sound) (hb : Buffer.Alike r.capacity r.buffer b) {start : Nat}
    {data : Bytes} (hle : start + data.length ≤ r.capacity) :
    ∃ d d', r.buffer.write? start data = some d ∧ b.write? start data = some d' ∧
      ∀ (phase : Phase) (written : Nat), phase.InOrder r.capacity written →
        Stays r { r with buffer := d, phase, written } { r with buffer := d', phase, written } := by
  obtain ⟨d, hd, hkeeps⟩ := Buffer.exists_write? hle h.fits
  obtain ⟨d', hd', halike⟩ := hb.exists_write? hle hd
  exact ⟨d, d', hd, hd', fun phase written hphase =>
    ⟨⟨halike.le_left, hphase⟩, ⟨d', halike, rfl⟩, rfl, hkeeps⟩⟩

/-- A call of a receiver and the same call of its twin yield the same. -/
def Same {α : Type} (r : Receiver) (x x' : Receiver × α) : Prop := Stays r x.1 x'.1 ∧ x'.2 = x.2

lemma Sound.giveUp (h : r.Sound) (ht : Twin r r') (cause : Abort) (hcause : cause ≠ .outOfBounds) :
    Same r (r.giveUp cause) (r'.giveUp cause) := by
  obtain ⟨b, hb, rfl⟩ := ht
  exact ⟨h.setPhase hb _ 0 ⟨hcause, rfl⟩, rfl⟩

lemma Sound.single (h : r.Sound) (ht : Twin r r') {len : Nat} {data : Bytes}
    (hdata : 1 ≤ len ∧ len = data.length) : Same r (r.single len data) (r'.single len data) := by
  have hover := h.giveUp ht .tooLong (by simp)
  obtain ⟨b, hb, rfl⟩ := ht
  unfold Receiver.single
  split
  · exact hover
  · next hcap =>
    have htake : data.take len = data := List.take_of_length_le (Nat.le_of_eq hdata.2.symm)
    obtain ⟨d, d', hd, hd', hstays⟩ :=
      h.write hb (show 0 + data.length ≤ r.capacity by omega)
    rw [if_neg (by omega), if_neg (by omega), htake]
    simp only [hd, hd']
    exact ⟨hstays .done len ⟨hdata.1, by omega⟩, rfl⟩

lemma Sound.first (h : r.Sound) (ht : Twin r r') (policy : FlowPolicy) (now : Instant) {total : Nat}
    {data : Bytes} (hdata : data.length < total) :
    Same r (r.first cfg policy now total data) (r'.first cfg policy now total data) := by
  obtain ⟨b, hb, rfl⟩ := ht
  unfold Receiver.first FlowPolicy.answer
  by_cases hcap : r.capacity < total
  · simp only [if_pos hcap]
    exact ⟨h.setPhase hb (.failed .tooLong) 0 (by simp [Phase.InOrder]), rfl⟩
  · have htake : data.take total = data := List.take_of_length_le (Nat.le_of_lt hdata)
    have hsize := policy.clearToSend.blockSize.toNat_lt
    have hclear : policy.clearToSend.status ≠ .overflow := by simp [FlowPolicy.clearToSend]
    obtain ⟨d, d', hd, hd', hstays⟩ :=
      h.write hb (show 0 + data.length ≤ r.capacity by omega)
    simp only [if_neg hcap, if_neg hclear, htake, hd, hd']
    refine ⟨hstays (.receiving _) _ ⟨?_, ?_, ?_, ?_, ?_⟩, rfl⟩ <;> dsimp only <;> omega

/-- What is written for a consecutive frame is what the message lacks, at most. -/
lemma Sound.consecutive (h : r.Sound) (ht : Twin r r') {m : Inbound}
    (hm : m.InOrder r.capacity r.written) (policy : FlowPolicy) (now : Instant) (sn : Nat)
    (data : Bytes) :
    Same r (r.consecutive cfg policy now sn data m) (r'.consecutive cfg policy now sn data m) := by
  have hturn := h.giveUp ht (.outOfTurn m.nextSn sn) (by simp)
  obtain ⟨b, hb, rfl⟩ := ht
  unfold Receiver.consecutive
  split
  · exact hturn
  · obtain ⟨hwritten, htotal, -, hsize, hblock⟩ := hm
    have hgranted := policy.clearToSend.blockSize.toNat_lt
    have hlength : (data.take (m.total - r.written)).length ≤ m.total - r.written :=
      List.length_take_le ..
    obtain ⟨d, d', hd, hd', hstays⟩ := h.write hb
      (show r.written + (data.take (m.total - r.written)).length ≤ r.capacity by omega)
    simp only [hd, hd']
    split
    · next hdone =>
      refine ⟨hstays .done _ ⟨?_, ?_⟩, rfl⟩ <;> omega
    · split
      · refine ⟨hstays (.receiving _) _ ⟨?_, htotal, ?_, hsize, hblock⟩, rfl⟩ <;>
          dsimp only <;> omega
      · split
        · refine ⟨hstays (.receiving _) _ ⟨?_, htotal, ?_, hsize, ?_⟩, rfl⟩ <;>
            dsimp only <;> omega
        · refine ⟨hstays (.receiving _) _ ⟨?_, htotal, ?_, ?_, ?_⟩, rfl⟩ <;> dsimp only <;> omega

theorem Sound.accept (h : r.Sound) (ht : Twin r r') (cfg : Config) (policy : FlowPolicy)
    (now : Instant) {pdu : Pdu} (hpdu : pdu.Proper) :
    Same r (r.accept cfg policy now pdu) (r'.accept cfg policy now pdu) := by
  have hstays := h.stays ht
  have hstatus : r'.status = r.status := by
    obtain ⟨b, -, rfl⟩ := ht
    rfl
  unfold Receiver.accept
  cases pdu with
  | single len data =>
    dsimp only
    rw [hstatus]
    split
    · exact ⟨hstays, rfl⟩
    · exact h.single ht hpdu
  | first len data =>
    dsimp only
    rw [hstatus]
    split
    · exact ⟨hstays, rfl⟩
    · exact h.first ht policy now hpdu
  | consecutive sn data =>
    have hp := h.phase
    have hphase' : r'.phase = r.phase := by
      obtain ⟨b, -, rfl⟩ := ht
      rfl
    dsimp only
    rw [hphase']
    cases hphase : r.phase with
    | receiving m =>
      rw [hphase] at hp
      exact h.consecutive ht hp policy now sn.toNat data
    | idle | done | failed => exact ⟨hstays, rfl⟩
  | flowControl | invalid => exact ⟨hstays, rfl⟩

/-- Other flow control owed, and another deadline. -/
lemma Sound.setOwed (h : r.Sound) (hb : Buffer.Alike r.capacity r.buffer b) {m : Inbound}
    (hphase : r.phase = .receiving m) (owed : Option FlowControl) (deadline : Instant) :
    Stays r { r with phase := .receiving { m with owed, deadline } }
      { r with phase := .receiving { m with owed, deadline }, buffer := b } := by
  have hp := h.phase
  rw [hphase] at hp
  exact h.setPhase hb (.receiving _) r.written
    ⟨hp.written_lt, hp.total_le, hp.nextSn_le, hp.blockSize_le, hp.block⟩

lemma Sound.postpone (h : r.Sound) (ht : Twin r r') (fc : FlowControl) (deadline : Instant) :
    Stays r (r.postpone fc deadline) (r'.postpone fc deadline) := by
  have hstays := h.stays ht
  obtain ⟨b, hb, rfl⟩ := ht
  unfold Receiver.postpone
  cases hphase : r.phase with
  | receiving m => exact h.setOwed hb hphase _ _
  | idle | done | failed =>
    rw [hphase] at hstays
    exact hstays

lemma Sound.answered (h : r.Sound) (ht : Twin r r') (deadline : Instant) :
    Stays r (r.answered deadline) (r'.answered deadline) := by
  have hstays := h.stays ht
  obtain ⟨b, hb, rfl⟩ := ht
  unfold Receiver.answered
  cases hphase : r.phase with
  | receiving m => exact h.setOwed hb hphase _ _
  | idle | done | failed =>
    rw [hphase] at hstays
    exact hstays

lemma Sound.advance (h : r.Sound) (ht : Twin r r') (now : Instant) :
    Same r (r.advance now) (r'.advance now) := by
  have hstays := h.stays ht
  obtain ⟨b, hb, rfl⟩ := ht
  unfold Receiver.advance
  cases hphase : r.phase with
  | receiving m =>
    rw [hphase] at hstays
    dsimp only
    split
    · exact ⟨hstays, rfl⟩
    · exact ⟨h.setPhase hb (.failed _) 0 (by simp [Phase.InOrder]), rfl⟩
  | idle | done | failed =>
    rw [hphase] at hstays
    exact ⟨hstays, rfl⟩

/-- A complete message is read within the capacity. -/
lemma Sound.read? (h : r.Sound) (hb : Buffer.Alike r.capacity r.buffer b)
    (hphase : r.phase = .done) :
    ∃ data, r.buffer.read? 0 r.written = some data ∧ b.read? 0 r.written = some data := by
  have hp := h.phase
  have hfits := h.fits
  rw [hphase] at hp
  have hlen := hp.2
  obtain ⟨data, hdata⟩ := Option.isSome_iff_exists.1
    (Buffer.isSome_read?_iff.2 (show 0 + r.written ≤ r.buffer.size by omega))
  exact ⟨data, hdata, (hb.read?_eq (by omega)).trans hdata⟩

lemma Sound.collect (h : r.Sound) (ht : Twin r r') (room : Nat) :
    Same r (r.collect room) (r'.collect room) := by
  have hstays := h.stays ht
  obtain ⟨b, hb, rfl⟩ := ht
  have hclear : Stays r r.clear { r.clear with buffer := b } := h.setPhase hb .idle 0 rfl
  unfold Receiver.collect
  cases hphase : r.phase with
  | done =>
    obtain ⟨data, hdata, hdata'⟩ := h.read? hb hphase
    rw [hphase] at hstays
    dsimp only
    split
    · exact ⟨hstays, rfl⟩
    · simp only [hdata, hdata']
      exact ⟨hclear, rfl⟩
  | failed cause => exact ⟨hclear, rfl⟩
  | idle | receiving =>
    rw [hphase] at hstays
    exact ⟨hstays, rfl⟩

/-! ### What an outcome tells -/

/-- An outcome tells where the receiver stands after a unit. -/
def Tells (r : Receiver) (x : Receiver × Outcome) : Prop :=
  match x.2 with
  | .none => x.1 = r ∨ r.status = .receiving ∧ x.1.status = .receiving
  | .answer _ => x.1.status = .receiving
  | .refusal _ => x.1.phase = .failed .tooLong
  | .complete _ => x.1.status = .done
  | .failed cause => x.1.phase = .failed cause

lemma tells_single (len : Nat) (data : Bytes) : Tells r (r.single len data) := by
  unfold Receiver.single Receiver.giveUp
  repeat' split
  all_goals rfl

lemma tells_first (policy : FlowPolicy) (now : Instant) (total : Nat) (data : Bytes) :
    Tells r (r.first cfg policy now total data) := by
  unfold Receiver.first Receiver.giveUp
  dsimp only
  repeat' split
  all_goals rfl

lemma tells_consecutive (policy : FlowPolicy) (now : Instant) (sn : Nat) (data : Bytes)
    {m : Inbound} (hphase : r.phase = .receiving m) :
    Tells r (r.consecutive cfg policy now sn data m) := by
  have hstatus : r.status = .receiving := by simp only [Receiver.status, hphase]
  unfold Receiver.consecutive Receiver.giveUp
  dsimp only
  split
  · rfl
  · split
    · rfl
    · split
      · rfl
      · split
        · exact .inr ⟨hstatus, rfl⟩
        · split
          · exact .inr ⟨hstatus, rfl⟩
          · rfl

/-- While a complete message waits, no unit changes anything, and a first frame is refused. -/
lemma accept_of_done (hdone : r.status = .done) (policy : FlowPolicy) (now : Instant) (pdu : Pdu) :
    r.accept cfg policy now pdu =
      (r, match pdu with
        | .first .. => .answer .overflow
        | _ => .none) := by
  unfold Receiver.accept
  cases pdu with
  | single | first => simp only [hdone, if_true]
  | consecutive sn data =>
    unfold Receiver.status at hdone
    cases hphase : r.phase with
    | receiving => simp [hphase] at hdone
    | idle | done | failed => rfl
  | flowControl | invalid => rfl

/-- Where no complete message waits, the outcome of a unit tells where the receiver stands. -/
lemma tells_accept (hdone : r.status ≠ .done) (cfg : Config) (policy : FlowPolicy)
    (now : Instant) (pdu : Pdu) : Tells r (r.accept cfg policy now pdu) := by
  unfold Receiver.accept
  cases pdu with
  | single len data =>
    dsimp only
    rw [if_neg hdone]
    exact tells_single ..
  | first len data =>
    dsimp only
    rw [if_neg hdone]
    exact tells_first ..
  | consecutive sn data =>
    dsimp only
    split
    · next hphase => exact tells_consecutive _ _ _ _ hphase
    · exact .inl rfl
  | flowControl | invalid => exact .inl rfl

/-! ### No access out of bounds -/

lemma Sound.accept_ne_outOfBounds (h : r.Sound) (policy : FlowPolicy) (now : Instant) {pdu : Pdu}
    (hpdu : pdu.Proper) : (r.accept cfg policy now pdu).2 ≠ .failed .outOfBounds := by
  intro hfail
  by_cases hdone : r.status = .done
  · rw [accept_of_done hdone] at hfail
    cases pdu <;> cases hfail
  · have hp := (h.accept h.twin_refl cfg policy now hpdu).1.sound.phase
    have htells := tells_accept hdone cfg policy now pdu
    simp only [Tells, hfail] at htells
    rw [htells] at hp
    exact hp.1 rfl

lemma advance_ne_outOfBounds (now : Instant) : (r.advance now).2 ≠ some .outOfBounds := by
  unfold Receiver.advance
  dsimp only
  split
  · split <;> simp
  · simp

lemma Sound.collect_ne_outOfBounds (h : r.Sound) (room : Nat) :
    (r.collect room).2 ≠ .error (.aborted .outOfBounds) := by
  have hp := h.phase
  unfold Receiver.collect
  cases hphase : r.phase with
  | done =>
    obtain ⟨data, hdata, -⟩ := h.read? ⟨h.fits, h.fits, rfl⟩ hphase
    dsimp only
    split
    · simp
    · simp [hdata]
  | failed cause =>
    rw [hphase] at hp
    simpa using hp.1
  | idle | receiving => simp

end Receiver

end IsoTp
