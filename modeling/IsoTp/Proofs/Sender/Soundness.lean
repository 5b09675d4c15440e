import IsoTp.Proofs.Buffer
import IsoTp.Proofs.Link.Offering
import IsoTp.Proofs.Sender.Cargo

/-!
What holds of a sender at all times.

A transfer in flight has some of its bytes on the link but not all, and is no longer than the
capacity. Every access to the buffer therefore ends within the capacity: it succeeds, leaves what is
beyond alone, and comes out the same in a twin, a sender whose buffer is the same as far as the
capacity.
-/

namespace IsoTp

/-- A transfer within its bounds. -/
structure Transfer.InOrder (capacity : Nat) (t : Transfer) : Prop where
  offset_pos : 0 < t.offset
  offset_lt : t.offset < t.length
  length_le : t.length ≤ capacity
  nextSn_le : t.nextSn ≤ 15
  blockSize_le : t.blockSize ≤ 255
  waits_le : t.waits ≤ 255

namespace Sender

/-- A phase within the bounds of the capacity. While the sender waits, the link has refused
nothing; in the middle of a block, some frames of it are left. -/
def Phase.InOrder (capacity : Nat) : Phase → Prop
  | .waiting t _ => t.InOrder capacity ∧ t.refusedSince = none
  | .sending t =>
    t.InOrder capacity ∧ (0 < t.blockSize → 1 ≤ t.blockLeft ∧ t.blockLeft ≤ t.blockSize)
  | .failed cause => cause ≠ .outOfBounds
  | .idle | .done _ => True

/-- A sender whose buffer has room for its capacity and whose phase is within it. -/
structure Sound (s : Sender) : Prop where
  fits : s.capacity ≤ s.buffer.size
  phase : s.phase.InOrder s.capacity

/-- Two senders that differ in nothing but what their buffers have beyond the capacity. -/
def Twin (s s' : Sender) : Prop :=
  ∃ b, Buffer.Alike s.capacity s.buffer b ∧ s' = { s with buffer := b }

/-- A call takes a sender and its twin to sound twins, and writes nothing beyond the capacity. -/
structure Stays (s x x' : Sender) : Prop where
  sound : x.Sound
  twin : Twin x x'
  capacity : x.capacity = s.capacity
  keeps : Buffer.Keeps s.capacity s.buffer x.buffer

variable {s s' x x' y y' : Sender} {b : Buffer} {t : Transfer} {cfg : Config}

lemma sound_new (buffer : Buffer) (capacity : Nat) : (Sender.new buffer capacity).Sound :=
  ⟨Nat.min_le_right .., trivial⟩

lemma Sound.twin_refl (h : s.Sound) : Twin s s := ⟨s.buffer, ⟨h.fits, h.fits, rfl⟩, rfl⟩

lemma Sound.stays (h : s.Sound) (ht : Twin s s') : Stays s s s' := ⟨h, ht, rfl, .refl ..⟩

lemma Stays.trans (h : Stays s x x') (hy : Stays x y y') : Stays s y y' := by
  have hkeeps := hy.keeps
  rw [h.capacity] at hkeeps
  exact ⟨hy.sound, hy.twin, hy.capacity.trans h.capacity, h.keeps.trans hkeeps⟩

lemma Twin.progress (h : Twin s s') : s'.progress = s.progress := by
  obtain ⟨b, -, rfl⟩ := h
  rfl

/-- A call that leaves the buffer alone. -/
lemma Sound.setPhase (h : s.Sound) (hb : Buffer.Alike s.capacity s.buffer b) (phase : Phase)
    (hphase : phase.InOrder s.capacity) :
    Stays s { s with phase } { s with phase, buffer := b } :=
  ⟨⟨h.fits, hphase⟩, ⟨b, hb, rfl⟩, rfl, .refl ..⟩

/-- A call of a sender and the same call of its twin yield the same. -/
def Same {α : Type} (s : Sender) (x x' : Sender × α) : Prop := Stays s x.1 x'.1 ∧ x'.2 = x.2

lemma Sound.giveUp (h : s.Sound) (ht : Twin s s') (cause : Abort) (hcause : cause ≠ .outOfBounds) :
    Same s (s.giveUp cause) (s'.giveUp cause) := by
  obtain ⟨b, hb, rfl⟩ := ht
  exact ⟨h.setPhase hb _ hcause, rfl⟩

lemma Sound.finish (h : s.Sound) (ht : Twin s s') (len : Nat) :
    Same s (s.finish len) (s'.finish len) := by
  obtain ⟨b, hb, rfl⟩ := ht
  exact ⟨h.setPhase hb (.done len) trivial, rfl⟩

lemma Sound.cancel (h : s.Sound) (ht : Twin s s') : Stays s s.cancel s'.cancel := by
  have hstays := h.stays ht
  obtain ⟨b, hb, rfl⟩ := ht
  unfold Sender.cancel
  by_cases hbusy : s.Busy
  · rw [if_pos hbusy, if_pos (show Busy { s with buffer := b } from hbusy)]
    exact h.setPhase hb .idle trivial
  · rw [if_neg hbusy, if_neg (show ¬Busy { s with buffer := b } from hbusy)]
    exact hstays

/-! ### Opening frames -/

lemma Sound.opened (h : s.Sound) (ht : Twin s s') (hL : FrameLength.Legal cfg.frameLength)
    (now : Instant) (id : CanId) {payload : Bytes} (hcap : payload.length ≤ s.capacity) :
    Same s (s.opened cfg now id payload) (s'.opened cfg now id payload) := by
  have hfinish := h.finish ht payload.length
  obtain ⟨b, hb, rfl⟩ := ht
  unfold Sender.opened
  dsimp only
  split
  · exact hfinish
  · next hlong =>
    have hpos := Segmentation.firstRoom_pos hL payload.length
    have hroom := Segmentation.firstRoom_le_singleRoom cfg payload.length
    obtain ⟨d, hd, hkeeps⟩ :=
      Buffer.exists_write? (show 0 + payload.length ≤ s.capacity by omega) h.fits
    obtain ⟨d', hd', halike⟩ := hb.exists_write? (by omega) hd
    simp only [hd, hd']
    refine ⟨⟨⟨halike.le_left, ⟨?_, ?_, hcap, ?_, ?_, ?_⟩, rfl⟩, ⟨d', halike, rfl⟩, rfl, hkeeps⟩,
      rfl⟩ <;> dsimp only <;> omega

/-- What is let in is no longer than the capacity. -/
lemma length_le_of_opening {ε : Type} {payload : Bytes} {pdu : Pdu}
    (h : s.opening (ε := ε) cfg payload = .ok pdu) : payload.length ≤ s.capacity := by
  unfold opening at h
  dsimp only at h
  split at h
  · cases h
  · split at h
    · cases h
    · split at h
      · cases h
      · omega

section Begin

variable {σ ε : Type} [Link σ ε] (now : Instant) (line : σ)

/-- A call of a sender and the same call of its twin do the same on a link. -/
structure Matches {α : Type} (s : Sender) (x x' : Turn σ α) : Prop where
  stays : Stays s x.sender x'.sender
  line : x'.line = x.line
  value : x'.value = x.value

theorem Sound.begin (h : s.Sound) (ht : Twin s s') (cfg : Config) (id : CanId)
    (payload : Bytes) :
    Matches s (s.begin cfg now id payload line) (s'.begin cfg now id payload line) := by
  have hstays := h.stays ht
  have hopening : s'.opening (ε := ε) cfg payload = s.opening cfg payload := by
    obtain ⟨b, -, rfl⟩ := ht
    rfl
  unfold Sender.begin
  rw [hopening]
  split
  · exact ⟨hstays, rfl, rfl⟩
  · next pdu hok =>
    split
    · exact ⟨hstays, rfl, rfl⟩
    · next line' hoffer =>
      have hL := Link.legal_of_offer (congrArg Prod.fst hoffer)
      obtain ⟨hopened, hevent⟩ := h.opened ht hL now id (length_le_of_opening hok)
      exact ⟨hopened, rfl, congrArg Except.ok hevent⟩

end Begin

/-! ### Flow control -/

theorem Sound.accept (h : s.Sound) (ht : Twin s s') (cfg : Config) (now : Instant)
    (fc : FlowControl) :
    Same s (s.accept cfg now fc) (s'.accept cfg now fc) := by
  have hp := h.phase
  have hstays := h.stays ht
  have hgiveUp := h.giveUp ht
  have hsize := fc.blockSize.toNat_lt
  obtain ⟨b, hb, rfl⟩ := ht
  unfold Sender.accept
  cases hphase : s.phase with
  | waiting t deadline =>
    rw [hphase] at hp hgiveUp
    obtain ⟨ht, hrefused⟩ := hp
    dsimp only
    split
    · refine ⟨h.setPhase hb (.sending _) ⟨{ ht with
        blockSize_le := ?_, waits_le := ?_ }, ?_⟩, rfl⟩ <;> dsimp only <;> omega
    · split
      · exact hgiveUp _ (by simp)
      · refine ⟨h.setPhase hb (.waiting _ _) ⟨{ ht with waits_le := ?_ }, hrefused⟩, rfl⟩
        dsimp only
        omega
    · exact hgiveUp _ (by simp)
  | idle | sending | done | failed =>
    rw [hphase] at hstays
    exact ⟨hstays, rfl⟩

/-! ### Consecutive frames -/

lemma Sound.hasMore (h : s.Sound) : s.HasMore := by
  intro t hphase
  have hp := h.phase
  rw [hphase] at hp
  exact hp.1.offset_lt

/-- The next part of the message is read within the capacity. -/
lemma Sound.due_eq (h : s.Sound) (ht : Twin s s') (cfg : Config) (now : Instant) :
    s'.due cfg now = s.due cfg now ∧ s.due cfg now ≠ .outOfBounds := by
  have hp := h.phase
  have hfits := h.fits
  obtain ⟨b, hb, rfl⟩ := ht
  unfold Sender.due
  cases hphase : s.phase with
  | sending t =>
    rw [hphase] at hp
    have hlt := hp.1.offset_lt
    have hle := hp.1.length_le
    have hread := hb.read?_eq
      (show t.offset + min (t.length - t.offset) cfg.consecutiveRoom ≤ s.capacity by omega)
    obtain ⟨chunk, hchunk⟩ := Option.isSome_iff_exists.1 (Buffer.isSome_read?_iff.2
      (show t.offset + min (t.length - t.offset) cfg.consecutiveRoom ≤ s.buffer.size by omega))
    simp only [hread, hchunk, true_and]
    repeat' split
    all_goals simp
  | waiting t deadline =>
    dsimp only
    refine ⟨rfl, ?_⟩
    split <;> simp
  | idle | done | failed => exact ⟨rfl, by simp⟩

lemma Sound.placed (h : s.Sound) (ht : Twin s s') (hphase : s.phase = .sending t) (cfg : Config)
    (now : Instant) (count : Nat) :
    Same s (s.placed cfg now t count) (s'.placed cfg now t count) := by
  have hp := h.phase
  have hfinish := h.finish ht t.length
  rw [hphase] at hp
  obtain ⟨⟨hpos, hlt, hle, hsn, hsize, hwaits⟩, hblock⟩ := hp
  obtain ⟨b, hb, rfl⟩ := ht
  unfold Sender.placed
  dsimp only
  split
  · exact hfinish
  · have horder (lastSent : Option Instant) (blockLeft : Nat) : Transfer.InOrder s.capacity
        { t with
          offset := t.offset + count, nextSn := (t.nextSn + 1) % 16, blockLeft, lastSent
          refusedSince := none } := by
      refine ⟨?_, ?_, hle, ?_, hsize, hwaits⟩ <;> dsimp only <;> omega
    split
    · exact ⟨h.setPhase hb (.sending _) ⟨horder .., hblock⟩, rfl⟩
    · split
      · refine ⟨h.setPhase hb (.sending _) ⟨horder .., ?_⟩, rfl⟩
        dsimp only
        omega
      · exact ⟨h.setPhase hb (.waiting _ _) ⟨horder .., rfl⟩, rfl⟩

lemma Sound.refused (h : s.Sound) (ht : Twin s s') (hphase : s.phase = .sending t) (now : Instant) :
    Stays s (s.refused now t) (s'.refused now t) := by
  have hp := h.phase
  rw [hphase] at hp
  obtain ⟨b, hb, rfl⟩ := ht
  exact h.setPhase hb (.sending _) ⟨{ hp.1 with }, hp.2⟩

variable {σ ε : Type} [Link σ ε] (now : Instant) (line : σ)

theorem Sound.advance (h : s.Sound) (ht : Twin s s') (cfg : Config) :
    Matches s (s.advance cfg now line) (s'.advance cfg now line) := by
  have hstays := h.stays ht
  obtain ⟨hdue, hbounds⟩ := h.due_eq ht cfg now
  unfold Sender.advance
  rw [hdue]
  split
  · exact ⟨hstays, rfl, rfl⟩
  · obtain ⟨hgiveUp, hevent⟩ := h.giveUp ht (.timeout _) (by simp)
    exact ⟨hgiveUp, rfl, hevent⟩
  · next hfinished => exact absurd hfinished (due_ne_finished h.hasMore now _)
  · next hout => exact absurd hout hbounds
  · next t chunk hframe =>
    have hphase := (due_eq_frame hframe).1
    split
    · exact ⟨h.refused ht hphase now, rfl, rfl⟩
    · obtain ⟨hplaced, hevent⟩ := h.placed ht hphase cfg now chunk.length
      exact ⟨hplaced, rfl, hevent⟩

/-! ### No access out of bounds -/

/-- The end of a transfer that is told is the one that the sender notes. -/
def Notes (x : Sender × Option Event) : Prop :=
  ∀ cause, x.2 = some (.failed cause) → x.1.phase = .failed cause

lemma notes_accept (now : Instant) (fc : FlowControl) : Notes (s.accept cfg now fc) := by
  unfold Sender.accept Sender.giveUp
  dsimp only
  repeat' split
  all_goals simp [Notes]

lemma notes_opened (now : Instant) (id : CanId) (payload : Bytes) :
    Notes (s.opened cfg now id payload) := by
  unfold Sender.opened Sender.giveUp Sender.finish
  dsimp only
  repeat' split
  all_goals simp [Notes]

lemma notes_placed (now : Instant) (count : Nat) : Notes (s.placed cfg now t count) := by
  unfold Sender.placed Sender.finish
  dsimp only
  repeat' split
  all_goals simp [Notes]

/-- A sound sender has told of no access out of bounds. -/
lemma Sound.ne_outOfBounds {x : Sender × Option Event} (h : x.1.Sound) (hx : Notes x) :
    x.2 ≠ some (.failed .outOfBounds) := by
  intro hfail
  have hp := h.phase
  rw [hx _ hfail] at hp
  exact hp rfl

lemma Sound.progress_ne (h : s.Sound) : s.progress ≠ .failed .outOfBounds := by
  have hp := h.phase
  unfold progress
  cases hphase : s.phase with
  | failed cause =>
    rw [hphase] at hp
    simpa [Phase.InOrder] using hp
  | sending t =>
    dsimp only
    split <;> simp
  | idle | waiting | done => simp

end Sender

end IsoTp
