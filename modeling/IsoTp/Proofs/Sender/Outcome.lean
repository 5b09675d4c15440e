import IsoTp.Proofs.Runs
import IsoTp.Proofs.Sender.Soundness
import IsoTp.Sender.Host

/-!
What the calls of a sender come to, under any parameters and on any link.

Nothing is asked of the parameters, which may change from call to call: where no frame can be
written under them, none is offered, and the sender takes that for a refusal. Each relation lists
what can come of a call, with the frames that it offers and the answers to them. In a run from a new
sender every call finds a sound sender, so none of them ends in an access out of bounds.
-/

namespace IsoTp

/-- The frame offered is a consecutive frame. -/
def Offer.isConsecutive (o : Offer) : Bool := o.frame.kind? = some 2

namespace Link

variable {σ ε : Type} [Link σ ε] {cfg : Config} {id : CanId} {pdu : Pdu} {line : Tap σ}

/-- What can come of a unit that is offered: there is no frame for it, or the link refuses the frame
or takes it. -/
inductive Answers (cfg : Config) (id : CanId) (pdu : Pdu) {ε : Type} :
    Except (Error ε) Unit → List Offer → Prop
  | unwritten (hf : cfg.encode? pdu = none) : Answers cfg id pdu (.error .unencodable) []
  | refused {f : Bytes} (hf : cfg.encode? pdu = some f) (e : Error ε) :
      Answers cfg id pdu (.error e) [⟨⟨id, f, false⟩, false⟩]
  | taken {f : Bytes} (hf : cfg.encode? pdu = some f) :
      Answers cfg id pdu (.ok ()) [⟨⟨id, f, false⟩, true⟩]

lemma answers (cfg : Config) (id : CanId) (pdu : Pdu) (line : σ) :
    let x := offer cfg id pdu (Tap.mk line [])
    Answers cfg id pdu x.1 x.2.offers := by
  cases hf : cfg.encode? pdu with
  | none =>
    simp only [offer, hf]
    exact .unwritten hf
  | some f =>
    obtain ⟨verdict, rest, hoffer⟩ := offer_eq hf id (Tap.mk line [])
    simp only [hoffer]
    cases verdict with
    | error e => exact .refused hf _
    | ok _ => exact .taken hf

end Link

/-- The transfer of a message whose first frame has just been taken. -/
def Transfer.opening (cfg : Config) (id : CanId) (length : Nat) : Transfer :=
  { id, length, offset := min length (cfg.firstRoom length) }

namespace Sender

variable {cfg : Config} {now : Instant} {s : Sender} {t : Transfer}

/-! ### Opening frames -/

/-- What can come of a message to be sent: it is not let in or its frame is refused, or it goes out
whole, or its first frame does. -/
inductive Opens (cfg : Config) (now : Instant) (id : CanId) (s : Sender) {ε : Type} :
    Sender → List Offer → Except (Error ε) (Option Event) → Prop
  | rejected (e : Error ε) {new : List Offer}
      (hnew : ∀ o ∈ new, o.taken = false ∧ o.isConsecutive = false) :
      Opens cfg now id s s new (.error e)
  | whole (len : Nat) {f : Frame} (hs : ¬s.Busy) (hf : f.kind? = some 0) :
      Opens cfg now id s { s with phase := .done len } [⟨f, true⟩] (.ok (some (.complete len)))
  | part (len : Nat) (buffer : Buffer) {f : Frame} (hs : ¬s.Busy)
      (hL : FrameLength.Legal cfg.frameLength) (hf : f.kind? = some 1) :
      Opens cfg now id s
        { s with
          buffer
          phase := .waiting (Transfer.opening cfg id len) (cfg.clock.after now cfg.nBs) }
        [⟨f, true⟩] (.ok none)

/-- A message that is let in goes in a single frame if there is room, and else is begun with a first
frame. -/
lemma opening_eq_ok {ε : Type} {payload : Bytes} {pdu : Pdu}
    (h : s.opening (ε := ε) cfg payload = .ok pdu) : ¬s.Busy ∧
      (payload.length ≤ cfg.singleRoom ∧ pdu.kind? = some 0 ∨
        cfg.singleRoom < payload.length ∧ pdu.kind? = some 1) := by
  unfold opening at h
  dsimp only at h
  split at h
  · cases h
  · next hbusy =>
    refine ⟨hbusy, ?_⟩
    split at h
    · cases h
    · split at h
      · cases h
      · split at h
        · next hshort =>
          cases h
          exact .inl ⟨hshort, rfl⟩
        · next hlong =>
          split at h
          · cases h
          · cases h
            exact .inr ⟨Nat.not_le.1 hlong, rfl⟩

lemma Sound.opens {σ ε : Type} [Link σ ε] (h : s.Sound) (cfg : Config) (now : Instant) (id : CanId)
    (payload : Bytes) (line : σ) :
    let turn := s.begin cfg now id payload (Tap.mk line [])
    Opens cfg now id s turn.sender turn.line.offers turn.value := by
  unfold Sender.begin
  split
  · exact .rejected _ (List.forall_mem_nil _)
  · next pdu hok =>
    obtain ⟨hs, hpdu⟩ := opening_eq_ok hok
    have hcap := length_le_of_opening hok
    have hanswers := Link.answers cfg id pdu line
    rcases hoffer : Link.offer cfg id pdu (Tap.mk line []) with ⟨verdict, line'⟩
    rw [hoffer] at hanswers
    dsimp only at hanswers ⊢
    generalize hnew : line'.offers = new at hanswers
    cases hanswers with
    | unwritten => exact .rejected _ (by simp [hnew])
    | refused hf =>
      have hkind := Frame.kind?_of_encode? (f := ⟨id, _, false⟩) hf
      have hother : pdu.kind? ≠ some 2 := by
        obtain ⟨-, hk⟩ | ⟨-, hk⟩ := hpdu <;> simp [hk]
      exact .rejected _ (by simp [hnew, Offer.isConsecutive, hkind, hother])
    | taken hf =>
      have hkind := Frame.kind?_of_encode? (f := ⟨id, _, false⟩) hf
      dsimp only
      rw [hnew]
      obtain ⟨hshort, hk⟩ | ⟨hlong, hk⟩ := hpdu
      · rw [opened_of_short hshort]
        exact .whole _ hs (hkind.trans hk)
      · have hfits := h.fits
        obtain ⟨buffer, hb, -⟩ :=
          Buffer.exists_write? (show 0 + payload.length ≤ s.capacity by omega) h.fits
        have hopened : s.opened cfg now id payload =
            ({ s with
              buffer
              phase := .waiting (Transfer.opening cfg id payload.length)
                (cfg.clock.after now cfg.nBs) }, none) := by
          simp only [Sender.opened, if_neg (Nat.not_le.2 hlong), hb, Transfer.opening]
        rw [hopened]
        exact .part _ buffer hs (Pdu.encode?_eq_some_iff.1 hf).1 (hkind.trans hk)

/-! ### Consecutive frames -/

/-- What the next frame of a transfer leads to when `count` bytes of the message go out in it: the
message is through, the block goes on, or the block is full. -/
inductive Places (cfg : Config) (now : Instant) (t : Transfer) (count : Nat) (s : Sender) :
    Sender → Option Event → Prop
  | last (hend : t.length ≤ t.offset + count) :
      Places cfg now t count s { s with phase := .done t.length } (some (.complete t.length))
  | next {left : Nat} (hmore : t.offset + count < t.length)
      (hleft : t.blockSize = 0 ∧ left = t.blockLeft ∨
        0 < t.blockSize ∧ 1 < t.blockLeft ∧ left = t.blockLeft - 1) :
      Places cfg now t count s
        { s with phase := .sending { t.placed now count with blockLeft := left } } none
  | blockEnd (hmore : t.offset + count < t.length) (hfull : 0 < t.blockSize ∧ t.blockLeft ≤ 1) :
      Places cfg now t count s
        { s with
          phase :=
            .waiting { t.placed now count with blockLeft := 0 } (cfg.clock.after now cfg.nBs) }
        none

lemma places (cfg : Config) (now : Instant) (t : Transfer) (count : Nat) (s : Sender) :
    Places cfg now t count s (s.placed cfg now t count).1 (s.placed cfg now t count).2 := by
  unfold Sender.placed
  dsimp only
  split
  · next hend => exact .last hend
  · next hmore =>
    have hmore := Nat.not_le.1 hmore
    split
    · next hfree => exact .next hmore (.inl ⟨hfree, rfl⟩)
    · next hblock =>
      split
      · next hleft => exact .next hmore (.inr ⟨Nat.pos_of_ne_zero hblock, hleft, rfl⟩)
      · next hfull => exact .blockEnd hmore ⟨Nat.pos_of_ne_zero hblock, Nat.not_lt.1 hfull⟩

/-- What can come of time: nothing is due, a timer expires, or the next consecutive frame cannot be
written, is refused, or is taken. -/
inductive Proceeds (cfg : Config) (now : Instant) (s : Sender) :
    Sender → List Offer → Option Event → Prop
  | rest (hdue : s.due cfg now = .nothing) : Proceeds cfg now s s [] none
  | expired {timer : Timer} (hdue : s.due cfg now = .expired timer) :
      Proceeds cfg now s (s.giveUp (.timeout timer)).1 [] (s.giveUp (.timeout timer)).2
  | unwritten {t : Transfer} {chunk : Bytes} (hdue : s.due cfg now = .frame t chunk)
      (hf : cfg.encode? (.consecutive (.ofNat t.nextSn) chunk) = none) :
      Proceeds cfg now s (s.refused now t) [] none
  | refused {t : Transfer} {chunk f : Bytes} (hdue : s.due cfg now = .frame t chunk)
      (hf : cfg.encode? (.consecutive (.ofNat t.nextSn) chunk) = some f) :
      Proceeds cfg now s (s.refused now t) [⟨⟨t.id, f, false⟩, false⟩] none
  | taken {t : Transfer} {chunk f : Bytes} {s' : Sender} {event : Option Event}
      (hdue : s.due cfg now = .frame t chunk)
      (hf : cfg.encode? (.consecutive (.ofNat t.nextSn) chunk) = some f)
      (hplaces : Places cfg now t chunk.length s s' event) :
      Proceeds cfg now s s' [⟨⟨t.id, f, false⟩, true⟩] event

lemma Sound.proceeds {σ ε : Type} [Link σ ε] (h : s.Sound) (cfg : Config) (now : Instant)
    (line : σ) :
    let turn := s.advance cfg now (Tap.mk line [])
    Proceeds cfg now s turn.sender turn.line.offers turn.value := by
  unfold Sender.advance
  split
  · next hdue => exact .rest hdue
  · next hdue => exact .expired hdue
  · next hdue => exact absurd hdue (due_ne_finished h.hasMore now _)
  · next hdue => exact absurd hdue (h.due_eq h.twin_refl cfg now).2
  · next t chunk hdue =>
    have hanswers := Link.answers cfg t.id (.consecutive (.ofNat t.nextSn) chunk) line
    rcases hoffer : Link.offer cfg t.id (.consecutive (.ofNat t.nextSn) chunk) (Tap.mk line [])
      with ⟨verdict, line'⟩
    rw [hoffer] at hanswers
    dsimp only at hanswers ⊢
    generalize hnew : line'.offers = new at hanswers
    cases hanswers with
    | unwritten hf =>
      dsimp only
      rw [hnew]
      exact .unwritten hdue hf
    | refused hf =>
      dsimp only
      rw [hnew]
      exact .refused hdue hf
    | taken hf =>
      dsimp only
      rw [hnew]
      exact .taken hdue hf (places ..)

/-! ### Flow control -/

/-- The sender waits for flow control. -/
def isWaiting (s : Sender) : Bool :=
  match s.phase with
  | .waiting _ _ => true
  | _ => false

lemma isWaiting_iff : s.isWaiting = true ↔ ∃ t d, s.phase = .waiting t d := by
  unfold isWaiting
  cases s.phase <;> simp

/-- What can come of flow control: it is not waited for, it clears the sender to send, it asks it to
wait, which may be once too often, or it refuses the message. -/
inductive Heeds (cfg : Config) (now : Instant) (fc : FlowControl) (s : Sender) :
    Sender → Option Event → Prop
  | ignored (hs : s.isWaiting = false) : Heeds cfg now fc s s none
  | cleared {t : Transfer} {d : Instant} (hphase : s.phase = .waiting t d)
      (hfc : fc.status = .clearToSend) :
      Heeds cfg now fc s
        { s with
          phase := .sending { t with
            waits := 0
            blockSize := fc.blockSize.toNat
            blockLeft := fc.blockSize.toNat
            stMin := fc.stMin } } none
  | putOff {t : Transfer} {d : Instant} (hphase : s.phase = .waiting t d) (hfc : fc.status = .wait)
      (hlimit : cfg.waitLimit.any (·.toNat < min (t.waits + 1) 255) = false) :
      Heeds cfg now fc s
        { s with
          phase :=
            .waiting { t with waits := min (t.waits + 1) 255 } (cfg.clock.after now cfg.nBs) }
        none
  | tired {t : Transfer} {d : Instant} (hphase : s.phase = .waiting t d) (hfc : fc.status = .wait)
      (hlimit : cfg.waitLimit.any (·.toNat < min (t.waits + 1) 255)) :
      Heeds cfg now fc s (s.giveUp .tooManyWaits).1 (s.giveUp .tooManyWaits).2
  | refused {t : Transfer} {d : Instant} (hphase : s.phase = .waiting t d)
      (hfc : fc.status = .overflow) :
      Heeds cfg now fc s (s.giveUp .refused).1 (s.giveUp .refused).2

lemma heeds (cfg : Config) (now : Instant) (fc : FlowControl) (s : Sender) :
    Heeds cfg now fc s (s.accept cfg now fc).1 (s.accept cfg now fc).2 := by
  unfold Sender.accept
  cases hphase : s.phase with
  | waiting t d =>
    dsimp only
    split
    · next hfc => exact .cleared hphase hfc
    · next hfc =>
      split
      · next hlimit => exact .tired hphase hfc hlimit
      · next hlimit => exact .putOff hphase hfc (Bool.not_eq_true _ ▸ hlimit)
    · next hfc => exact .refused hphase hfc
  | idle | sending | done | failed => exact .ignored (by simp [isWaiting, hphase])

/-! ### Calls -/

namespace Host

variable {σ ε : Type} [Link σ ε] {h : Host σ}

lemma stepwise :
    Stepwise (fun (h : Host σ) (call : Instant × Op σ) => h.step call.1 call.2) run trace :=
  ⟨fun _ => rfl, fun _ _ _ => rfl, fun _ => rfl, fun _ _ _ => rfl⟩

@[simp] lemma step_now (now : Instant) (op : Op σ) : (h.step now op).2.now = now := by
  cases op <;> rfl

@[simp] lemma step_op (now : Instant) (op : Op σ) : (h.step now op).2.op = op := by
  cases op <;> rfl

@[simp] lemma step_before (now : Instant) (op : Op σ) : (h.step now op).2.before = h.sender := by
  cases op <;> rfl

@[simp] lemma step_after (now : Instant) (op : Op σ) :
    (h.step now op).2.after = (h.step now op).1.sender := by
  cases op <;> rfl

lemma step_begin (hs : h.sender.Sound) (now : Instant) (id : CanId) (payload : Bytes) :
    let y := h.step now (.begin id payload)
    ∃ value, y.2.reply = .begun value ∧
      Opens h.cfg now id h.sender y.1.sender y.2.offers value :=
  ⟨_, rfl, hs.opens h.cfg now id payload h.line⟩

lemma step_flowControl (now : Instant) (fc : FlowControl) :
    let y := h.step now (.flowControl fc)
    ∃ event, y.2.reply = .event event ∧ Heeds h.cfg now fc h.sender y.1.sender event :=
  ⟨_, rfl, heeds h.cfg now fc h.sender⟩

lemma step_advance (hs : h.sender.Sound) (now : Instant) :
    let y := h.step now .advance
    ∃ event, y.2.reply = .event event ∧
      Proceeds h.cfg now h.sender y.1.sender y.2.offers event :=
  ⟨_, rfl, hs.proceeds h.cfg now h.line⟩

/-- Every call leaves a sound sender. -/
lemma step_sound (hs : h.sender.Sound) (now : Instant) (op : Op σ) :
    (h.step now op).1.sender.Sound := by
  have ht := hs.twin_refl
  cases op with
  | begin id payload =>
    exact (hs.begin now (Tap.mk h.line []) ht h.cfg id payload).stays.sound
  | flowControl fc => exact (hs.accept ht h.cfg now fc).1.sound
  | advance => exact (hs.advance now (Tap.mk h.line []) ht h.cfg).stays.sound
  | cancel => exact (hs.cancel ht).sound
  | setConfig | setLine => exact hs

end Host

end Sender

end IsoTp
