import Mathlib.Tactic.Lemma
import IsoTp.Sender.Basic
import IsoTp.Proofs.Segmentation

/-!
What a sender has on its way, and how each call moves it on.

A sender keeps an offset, a running number and a copy of the message. A cargo keeps the message
itself and how many of its frames are on the link, from which all of these follow. Every call
leaves the cargo alone, drops it, or puts its next frame on the link, and tells that the message
is sent exactly when that frame is the last.
-/

namespace IsoTp

open Segmentation

/-- A message on its way: the identifier of its frames, its bytes, and how many of its frames are
on the link. -/
structure Cargo where
  id : CanId
  payload : Bytes
  count : Nat
deriving DecidableEq, Repr

namespace Cargo

variable (cfg : Config) (c : Cargo)

/-- The cargo with its next frame on the link. -/
def next : Cargo := { c with count := c.count + 1 }

/-- What is left on its way of a cargo: it is gone once all its frames are on the link. -/
def left? : Option Cargo := if c.count < (frames cfg c.payload).length then some c else none

/-- The lengths that are reported as sent when a cargo has come this far. -/
def sent : List Nat :=
  if c.count = (frames cfg c.payload).length then [c.payload.length] else []

/-- The message of a cargo that has come this far, if all of it is on the link. -/
def whole : List Bytes := if c.count = (frames cfg c.payload).length then [c.payload] else []

/-- The bytes of the next frame, if it is a consecutive frame. -/
def chunk : Bytes :=
  (c.payload.drop (reach cfg c.payload.length c.count)).take cfg.consecutiveRoom

lemma length_chunk : (c.chunk cfg).length =
    min cfg.consecutiveRoom (c.payload.length - reach cfg c.payload.length c.count) := by
  rw [chunk, List.length_take, List.length_drop]

/-- The next frame reads as a consecutive frame with its bytes and fill, in no more room than there
is. -/
lemma decode_next {c : Cargo} (hs : Sendable cfg c.payload) (hc : 1 ≤ c.count) {f : Bytes}
    (hf : (frames cfg c.payload)[c.count]? = some f) :
    ∃ sn : UInt8, ∃ fill, Pdu.decode f = .consecutive sn (c.chunk cfg ++ fill) ∧
      sn.toNat = c.count % 16 ∧
      min (c.payload.length - reach cfg c.payload.length c.count) cfg.consecutiveRoom +
        fill.length ≤ cfg.consecutiveRoom := by
  have hlong := singleRoom_lt_of_lt_length hs hc (List.getElem?_eq_some_iff.1 hf).1
  obtain ⟨n, hread, hn⟩ := decode_frame hs hlong hc hf
  refine ⟨_, _, hread, ?_, ?_⟩
  · simp only [UInt8.toNat_ofNat']
    omega
  · rw [List.length_replicate]
    exact hn

end Cargo

/-- What a call does for the messages of a sender: which one it begins, the frames it puts on the
link, and the lengths it reports as sent. -/
structure Effect where
  begun : Option (CanId × Bytes) := none
  frames : List Frame := []
  sent : List Nat := []

/-- The steps of a cargo. -/
inductive Move (cfg : Config) : Option Cargo → Effect → Option Cargo → Prop
  | rest (x : Option Cargo) : Move cfg x {} x
  | quit (x : Option Cargo) : Move cfg x {} none
  | begin (id : CanId) {payload f : Bytes} (hs : Sendable cfg payload)
      (hf : (frames cfg payload)[0]? = some f) :
      Move cfg none ⟨some (id, payload), [⟨id, f, false⟩], Cargo.sent cfg ⟨id, payload, 1⟩⟩
        (Cargo.left? cfg ⟨id, payload, 1⟩)
  | next {c : Cargo} {f : Bytes} (hs : Sendable cfg c.payload) (hc : 1 ≤ c.count)
      (hf : (frames cfg c.payload)[c.count]? = some f) :
      Move cfg (some c) ⟨none, [⟨c.id, f, false⟩], c.next.sent cfg⟩ (c.next.left? cfg)

/-- The frames of a cargo all carry a part of it. -/
lemma Move.filter_frames {cfg : Config} {x y : Option Cargo} {e : Effect} (h : Move cfg x e y) :
    e.frames.filter Frame.carriesPart = e.frames := by
  cases h with
  | rest | quit => rfl
  | begin id hs hf => simp [(kind_frame hs hf _ false).1]
  | next hs hc hf => simp [(kind_frame hs hf _ false).1]

/-! ### A sender that has a cargo on its way -/

/-- A transfer of a cargo: the offset and the running number stand where the frames on the link
have brought them, and the buffer has the message. -/
structure Transfer.Carries (cfg : Config) (t : Transfer) (buffer : Buffer) (c : Cargo) : Prop where
  id : t.id = c.id
  length : t.length = c.payload.length
  sendable : Sendable cfg c.payload
  long : cfg.singleRoom < c.payload.length
  count_pos : 1 ≤ c.count
  offset : t.offset = reach cfg c.payload.length c.count
  offset_lt : t.offset < t.length
  nextSn : t.nextSn = c.count % 16
  bytes : buffer.toList.take c.payload.length = c.payload

/-- The transfer with `count` more bytes on the link. -/
def Transfer.placed (now : Instant) (count : Nat) (t : Transfer) : Transfer :=
  { t with
    offset := t.offset + count
    nextSn := (t.nextSn + 1) % 16
    lastSent := some now
    refusedSince := none }

variable {cfg : Config} {t : Transfer} {buffer : Buffer} {c : Cargo}

namespace Transfer.Carries

lemma lt_length (h : t.Carries cfg buffer c) : c.count < (frames cfg c.payload).length := by
  have hlt := h.offset_lt
  rw [h.offset, h.length] at hlt
  exact (lt_length_frames_iff h.sendable h.long h.count_pos).2 hlt

lemma left?_eq (h : t.Carries cfg buffer c) : c.left? cfg = some c := if_pos h.lt_length

lemma length_le_size (h : t.Carries cfg buffer c) : c.payload.length ≤ buffer.size := by
  have hlen := congrArg List.length h.bytes
  rw [List.length_take, Buffer.length_toList] at hlen
  omega

lemma read? (h : t.Carries cfg buffer c) :
    buffer.read? t.offset (min (t.length - t.offset) cfg.consecutiveRoom) =
      some (c.chunk cfg) := by
  have hlt := h.offset_lt
  have hsize := h.length_le_size
  have hlength := h.length
  have hmin : min (t.length - t.offset) cfg.consecutiveRoom =
      min cfg.consecutiveRoom (t.length - t.offset) := Nat.min_comm ..
  rw [Buffer.read?_eq, if_pos (by omega), hmin, ← List.take_take, ← List.drop_take, h.length,
    h.bytes, h.offset]
  rfl

/-- The next consecutive frame is the next frame of the message. -/
lemma getElem?_frames (h : t.Carries cfg buffer c) : (frames cfg c.payload)[c.count]? =
    cfg.encode? (.consecutive (.ofNat t.nextSn) (c.chunk cfg)) := by
  have hlt := h.offset_lt
  rw [h.offset, h.length] at hlt
  rw [Segmentation.getElem?_frames h.sendable,
    getElem?_units h.sendable.valid h.long h.count_pos, if_pos hlt, h.nextSn]
  rfl

lemma congr (h : t.Carries cfg buffer c) {t' : Transfer}
    (hsame : t'.id = t.id ∧ t'.length = t.length ∧ t'.offset = t.offset ∧ t'.nextSn = t.nextSn) :
    t'.Carries cfg buffer c := by
  obtain ⟨hid, hlength, hoffset, hsn⟩ := hsame
  refine ⟨hid.trans h.id, hlength.trans h.length, h.sendable, h.long, h.count_pos,
    hoffset.trans h.offset, ?_, hsn.trans h.nextSn, h.bytes⟩
  rw [hoffset, hlength]
  exact h.offset_lt

/-- A transfer carries one cargo. -/
lemma cargo_eq {c' : Cargo} (h : t.Carries cfg buffer c) (h' : t.Carries cfg buffer c') :
    c = c' := by
  have hpayload : c.payload = c'.payload := by
    rw [← h.bytes, ← h'.bytes, ← h.length, ← h'.length]
  have hreach : reach cfg c.payload.length c.count = reach cfg c.payload.length c'.count := by
    rw [← h.offset, h'.offset, hpayload]
  have hroom := consecutiveRoom_pos h.sendable.valid
  have hstep (i j : Nat) (hi : 1 ≤ i) (hij : i < j) :
      reach cfg c.payload.length i < reach cfg c.payload.length j := by
    have hmono := reach_mono cfg c.payload.length (Nat.succ_le_of_lt hij)
    rw [reach_succ cfg _ hi] at hmono
    omega
  have hcount : c.count = c'.count := by
    rcases Nat.lt_trichotomy c.count c'.count with hlt | heq | hgt
    · exact absurd hreach (Nat.ne_of_lt (hstep _ _ h.count_pos hlt))
    · exact heq
    · exact absurd hreach.symm (Nat.ne_of_lt (hstep _ _ h'.count_pos hgt))
  obtain ⟨id, payload, count⟩ := c
  obtain ⟨id', payload', count'⟩ := c'
  obtain rfl : id = id' := h.id.symm.trans h'.id
  obtain rfl : payload = payload' := hpayload
  obtain rfl : count = count' := hcount
  rfl

/-- With its next frame on the link, a cargo is through if the offset has come to the end, and
carried on if not. -/
lemma placed (h : t.Carries cfg buffer c) (now : Instant) :
    let t' := t.placed now (c.chunk cfg).length
    if t'.length ≤ t'.offset then c.next.count = (frames cfg c.payload).length
    else t'.Carries cfg buffer c.next := by
  intro t'
  have hlt := h.offset_lt
  have hcount := h.count_pos
  have hn := h.lt_length
  have hsucc := reach_succ cfg c.payload.length hcount
  have hnext := lt_length_frames_iff h.sendable h.long (k := c.count + 1) (by omega)
  have ho := h.offset
  have hl := h.length
  have hlength : t'.length = t.length := rfl
  have hoffset : t'.offset = t.offset + (c.chunk cfg).length := rfl
  rw [Cargo.length_chunk] at hoffset
  split
  · simp only [Cargo.next]
    omega
  · refine ⟨h.id, h.length, h.sendable, h.long, ?_, ?_, ?_, ?_, h.bytes⟩
    · exact Nat.le_add_left ..
    · simp only [Cargo.next]
      omega
    · omega
    · simp only [t', Transfer.placed, h.nextSn, Cargo.next]
      omega

end Transfer.Carries

/-! ### Links -/

namespace Tap

variable {σ ε : Type} [Link σ ε] {id : CanId} {pdu : Pdu} {line line' : Tap σ}

/-- A unit offered with success is a frame that the link took. -/
lemma taken_of_offer_ok (h : Link.offer cfg id pdu line = (.ok (), line')) :
    ∃ data, cfg.encode? pdu = some data ∧ line'.taken = line.taken ++ [⟨id, data, false⟩] := by
  unfold Link.offer at h
  split at h
  · cases h
  · next data hdata =>
    refine ⟨data, hdata, ?_⟩
    rcases hput : Link.put line.line (⟨id, data, false⟩ : Frame) with ⟨verdict, rest⟩
    simp only [Link.put, hput] at h
    cases verdict with
    | error e => cases h
    | ok _ =>
      cases h
      simp [taken, Except.isOk, Except.toBool]

/-- A unit offered without success leaves the frames taken as they are. -/
lemma taken_of_offer_error {e : Error ε} (h : Link.offer cfg id pdu line = (.error e, line')) :
    line'.taken = line.taken := by
  unfold Link.offer at h
  split at h
  · cases h
    rfl
  · next data hdata =>
    rcases hput : Link.put line.line (⟨id, data, false⟩ : Frame) with ⟨verdict, rest⟩
    simp only [Link.put, hput] at h
    cases verdict with
    | error e =>
      cases h
      simp [taken, Except.isOk, Except.toBool]
    | ok _ => cases h

end Tap

/-! ### What each call does -/

namespace Sender

/-- The sender has this cargo on its way, or none. -/
def Holds (cfg : Config) (s : Sender) : Option Cargo → Prop
  | none => s.transfer? = none
  | some c => ∃ t, s.transfer? = some t ∧ t.Carries cfg s.buffer c

/-- A sender at work: its buffer has room for what it takes, a first frame can declare it, and it
has this cargo on its way. -/
structure Ready (cfg : Config) (s : Sender) (x : Option Cargo) : Prop where
  valid : cfg.Valid
  fits : s.capacity ≤ s.buffer.size
  capacity_lt : s.capacity < 0x100000000
  holds : s.Holds cfg x

/-- The lengths that a sender's event reports as sent. -/
def completions : Option Event → List Nat
  | some (.complete len) => [len]
  | _ => []

/-- A call that begins such a message, puts such frames on the link and raises such an event is a
step of the sender's cargo. -/
def Moves (cfg : Config) (x : Option Cargo) (begun : Option (CanId × Bytes))
    (frames : List Frame) (event : Option Event) (s' : Sender) : Prop :=
  ∃ y, Move cfg x ⟨begun, frames, completions event⟩ y ∧ s'.Ready cfg y

variable {s : Sender} {x : Option Cargo}

/-- A new sender has nothing on its way. -/
lemma ready_new (hcfg : cfg.Valid) (buffer : Buffer) :
    (Sender.new buffer cfg.sendCapacity).Ready cfg none := by
  have := hcfg.sendCapacity_lt
  refine ⟨hcfg, Nat.min_le_right .., ?_, rfl⟩
  simp only [Sender.new]
  omega

lemma transfer?_congr {s' : Sender} (h : s.phase = s'.phase) : s.transfer? = s'.transfer? := by
  simp only [transfer?, h]

lemma transfer?_of_waiting {d : Instant} (h : s.phase = .waiting t d) : s.transfer? = some t := by
  simp only [transfer?, h]

lemma transfer?_of_sending (h : s.phase = .sending t) : s.transfer? = some t := by
  simp only [transfer?, h]

lemma busy_of_waiting {d : Instant} (h : s.phase = .waiting t d) : s.Busy :=
  Option.isSome_of_eq_some (transfer?_of_waiting h)

lemma busy_of_sending (h : s.phase = .sending t) : s.Busy :=
  Option.isSome_of_eq_some (transfer?_of_sending h)

lemma Ready.carries (h : s.Ready cfg x) (ht : s.transfer? = some t) :
    ∃ c, x = some c ∧ t.Carries cfg s.buffer c := by
  have hholds := h.holds
  cases x with
  | none =>
    simp only [Holds, ht] at hholds
    cases hholds
  | some c =>
    obtain ⟨t', ht', hc⟩ := hholds
    rw [ht] at ht'
    cases ht'
    exact ⟨c, rfl, hc⟩

/-- What is on its way is not through. -/
lemma Ready.lt_length (h : s.Ready cfg (some c)) : c.count < (frames cfg c.payload).length := by
  obtain ⟨t, -, hc⟩ := h.holds
  exact hc.lt_length

lemma Ready.rest (h : s.Ready cfg x) : Moves cfg x none [] none s := ⟨x, .rest x, h⟩

lemma Ready.giveUp (h : s.Ready cfg x) (cause : Abort) :
    Moves cfg x none [] (s.giveUp cause).2 (s.giveUp cause).1 :=
  ⟨none, .quit x, h.valid, h.fits, h.capacity_lt, rfl⟩

lemma Ready.cancel (h : s.Ready cfg x) : Moves cfg x none [] none s.cancel := by
  unfold Sender.cancel
  split
  · exact ⟨none, .quit x, h.valid, h.fits, h.capacity_lt, rfl⟩
  · exact h.rest

/-- A call that changes other particulars of a transfer leaves the cargo alone. -/
lemma Ready.keep (h : s.Ready cfg x) (ht : s.transfer? = some t) {t' : Transfer} {phase : Phase}
    (ht' : ({ s with phase } : Sender).transfer? = some t')
    (hsame : t'.id = t.id ∧ t'.length = t.length ∧ t'.offset = t.offset ∧ t'.nextSn = t.nextSn) :
    Moves cfg x none [] none { s with phase } := by
  obtain ⟨c, rfl, hc⟩ := h.carries ht
  exact ⟨some c, .rest _, h.valid, h.fits, h.capacity_lt, t', ht', hc.congr hsame⟩

lemma Ready.accept (h : s.Ready cfg x) (now : Instant) (fc : FlowControl) :
    Moves cfg x none [] (s.accept cfg now fc).2 (s.accept cfg now fc).1 := by
  unfold Sender.accept
  split
  · next t deadline hphase =>
    have ht := transfer?_of_waiting hphase
    split
    · exact h.keep ht rfl ⟨rfl, rfl, rfl, rfl⟩
    · dsimp only
      split
      · exact h.giveUp _
      · exact h.keep ht rfl ⟨rfl, rfl, rfl, rfl⟩
    · exact h.giveUp _
  · exact h.rest

/-! ### Consecutive frames -/

/-- In the middle of a block some of the message is still to be sent. -/
def HasMore (s : Sender) : Prop := ∀ t, s.phase = .sending t → t.offset < t.length

lemma Ready.hasMore (h : s.Ready cfg x) : s.HasMore := by
  intro t hphase
  obtain ⟨c, -, hc⟩ := h.carries (transfer?_of_sending hphase)
  exact hc.offset_lt

lemma due_of_hasMore (h : s.HasMore) (hphase : s.phase = .sending t) (now : Instant) :
    s.due cfg now =
      if t.refusedSince.any (cfg.clock.after · cfg.nCs ≤ now) then .expired .nCs
      else if t.lastSent.any (now < cfg.clock.after · t.stMin) then .nothing
      else
        match s.buffer.read? t.offset (min (t.length - t.offset) cfg.consecutiveRoom) with
        | some chunk => .frame t chunk
        | none => .outOfBounds := by
  unfold due
  rw [hphase]
  exact if_neg (Nat.not_le.2 (h t hphase))

/-- A message is complete with its last frame, and never found to be so afterwards. -/
theorem due_ne_finished (h : s.HasMore) (now : Instant) (len : Nat) :
    s.due cfg now ≠ .finished len := by
  cases hphase : s.phase with
  | sending t =>
    rw [due_of_hasMore h hphase]
    repeat' split
    all_goals simp
  | waiting t deadline =>
    simp only [due, hphase]
    split <;> simp
  | idle | done | failed => simp [due, hphase]

lemma due_eq_frame {now : Instant} {chunk : Bytes} (h : s.due cfg now = .frame t chunk) :
    s.phase = .sending t ∧
      s.buffer.read? t.offset (min (t.length - t.offset) cfg.consecutiveRoom) = some chunk := by
  unfold due at h
  split at h
  · split at h <;> cases h
  · next t' hphase =>
    split at h
    · cases h
    · split at h
      · cases h
      · split at h
        · cases h
        · split at h
          · next chunk' hread =>
            cases h
            exact ⟨hphase, hread⟩
          · cases h
  · cases h

/-- In the middle of a block, the next frame is due when the separation time is over. -/
lemma due_of_carries (hphase : s.phase = .sending t) (ht : t.Carries cfg s.buffer c)
    (hrefused : t.refusedSince = none) (now : Instant) : s.due cfg now =
      if t.lastSent.any (now < cfg.clock.after · t.stMin) then .nothing
      else .frame t (c.chunk cfg) := by
  have hmore : s.HasMore := by
    intro t' hphase'
    rw [hphase] at hphase'
    cases hphase'
    exact ht.offset_lt
  rw [due_of_hasMore hmore hphase, hrefused, ht.read?]
  rfl

/-- With the next frame of its cargo on the link, a sender is through, or it goes on with the block,
or it waits at the end of the block. -/
lemma placed_eq (ht : t.Carries cfg s.buffer c) (now : Instant) :
    let t' := t.placed now (c.chunk cfg).length
    s.placed cfg now t (c.chunk cfg).length =
      if c.next.count = (frames cfg c.payload).length then s.finish c.payload.length
      else if t.blockSize = 0 then ({ s with phase := .sending t' }, none)
      else if 1 < t.blockLeft then
        ({ s with phase := .sending { t' with blockLeft := t.blockLeft - 1 } }, none)
      else
        ({ s with phase := .waiting { t' with blockLeft := 0 } (cfg.clock.after now cfg.nBs) },
          none) := by
  intro t'
  have hplaced := ht.placed now
  have hlength : t'.length = c.payload.length := ht.length
  rw [show s.placed cfg now t (c.chunk cfg).length =
    if t'.length ≤ t'.offset then s.finish t'.length
    else if t'.blockSize = 0 then ({ s with phase := .sending t' }, none)
    else if 1 < t'.blockLeft then
      ({ s with phase := .sending { t' with blockLeft := t'.blockLeft - 1 } }, none)
    else ({ s with phase := .waiting { t' with blockLeft := 0 } (cfg.clock.after now cfg.nBs) },
      none) from rfl]
  by_cases hend : t'.length ≤ t'.offset
  · rw [if_pos hend] at hplaced
    rw [if_pos hend, if_pos hplaced, hlength]
  · rw [if_neg hend] at hplaced
    have hmore : c.next.count ≠ (frames cfg c.payload).length := Nat.ne_of_lt hplaced.lt_length
    rw [if_neg hend, if_neg hmore]
    rfl

lemma carries_placed (ht : t.Carries cfg s.buffer c) (now : Instant)
    (hend : c.next.count ≠ (frames cfg c.payload).length) :
    (t.placed now (c.chunk cfg).length).Carries cfg s.buffer c.next := by
  have hplaced := ht.placed now
  dsimp only at hplaced
  split at hplaced
  · exact absurd hplaced hend
  · exact hplaced

lemma Ready.placed (h : s.Ready cfg (some c)) (ht : t.Carries cfg s.buffer c) {f : Bytes}
    (hf : (frames cfg c.payload)[c.count]? = some f) (now : Instant) :
    Moves cfg (some c) none [⟨c.id, f, false⟩]
      (s.placed cfg now t (c.chunk cfg).length).2 (s.placed cfg now t (c.chunk cfg).length).1 := by
  have hmove := Move.next ht.sendable ht.count_pos hf
  rw [placed_eq ht now]
  split
  · next hend =>
    have hleft : c.next.left? cfg = none := if_neg (by rw [hend]; exact Nat.lt_irrefl _)
    have hsent : c.next.sent cfg = [c.payload.length] := if_pos hend
    rw [hleft, hsent] at hmove
    exact ⟨none, hmove, h.valid, h.fits, h.capacity_lt, rfl⟩
  · next hend =>
    have hnext := carries_placed ht now hend
    have hsent : c.next.sent cfg = [] := if_neg hend
    rw [hnext.left?_eq, hsent] at hmove
    have hgo {phase : Phase} {t' : Transfer}
        (ht' : ({ s with phase } : Sender).transfer? = some t')
        (hcarries : t'.Carries cfg s.buffer c.next) :
        Moves cfg (some c) none [⟨c.id, f, false⟩] none { s with phase } :=
      ⟨_, hmove, h.valid, h.fits, h.capacity_lt, t', ht', hcarries⟩
    split
    · exact hgo rfl hnext
    · split
      · exact hgo rfl (hnext.congr ⟨rfl, rfl, rfl, rfl⟩)
      · exact hgo rfl (hnext.congr ⟨rfl, rfl, rfl, rfl⟩)

variable {σ ε : Type} [Link σ ε]

lemma Ready.advance (h : s.Ready cfg x) (now : Instant) (line : Tap σ) :
    ∃ new, (s.advance cfg now line).line.taken = line.taken ++ new ∧
      Moves cfg x none new (s.advance cfg now line).value (s.advance cfg now line).sender := by
  unfold Sender.advance
  split
  · exact ⟨[], (List.append_nil _).symm, h.rest⟩
  · exact ⟨[], (List.append_nil _).symm, h.giveUp _⟩
  · next hdue => exact absurd hdue (due_ne_finished h.hasMore now _)
  · exact ⟨[], (List.append_nil _).symm, h.giveUp _⟩
  · next t chunk hdue =>
    obtain ⟨hphase, hread⟩ := due_eq_frame hdue
    have ht := transfer?_of_sending hphase
    obtain ⟨c, rfl, hc⟩ := h.carries ht
    rw [hc.read?] at hread
    cases hread
    split
    · next e line' hoffer =>
      refine ⟨[], ?_, h.keep ht rfl ⟨rfl, rfl, rfl, rfl⟩⟩
      rw [Tap.taken_of_offer_error hoffer, List.append_nil]
    · next line' hoffer =>
      obtain ⟨f, hf, htaken⟩ := Tap.taken_of_offer_ok hoffer
      rw [← hc.getElem?_frames] at hf
      rw [hc.id] at htaken
      exact ⟨_, htaken, h.placed hc hf now⟩

/-! ### Opening frames -/

/-- A message that is let in can be sent, and what opens it is its first frame. -/
lemma Ready.opening_eq_ok {payload : Bytes} {pdu : Pdu} (h : s.Ready cfg x)
    (hok : s.opening (ε := ε) cfg payload = .ok pdu) :
    x = none ∧ Sendable cfg payload ∧ payload.length ≤ s.capacity ∧
      (frames cfg payload)[0]? = cfg.encode? pdu := by
  unfold opening at hok
  dsimp only at hok
  split at hok
  · cases hok
  · next hbusy =>
    have hx : x = none := by
      cases x with
      | none => rfl
      | some c =>
        obtain ⟨t, ht, -⟩ := h.holds
        simp [Busy, ht] at hbusy
    split at hok
    · cases hok
    · next hne =>
      split at hok
      · cases hok
      · next hcap =>
        have hlt := h.capacity_lt
        have hs : Sendable cfg payload :=
          ⟨h.valid, fun hnil => hne (by rw [hnil]; rfl), by omega⟩
        refine ⟨hx, hs, by omega, ?_⟩
        rw [getElem?_frames hs]
        split at hok
        · next hshort =>
          cases hok
          rw [units_of_short hshort]
          rfl
        · next hlong =>
          rw [if_neg (by omega)] at hok
          cases hok
          rw [getElem?_units_zero (by omega)]
          rfl

/-- A sender at rest lets in what can be sent and has room. -/
lemma opening_of_idle {payload : Bytes} (hidle : s.transfer? = none) (hs : Sendable cfg payload)
    (hcap : payload.length ≤ s.capacity) :
    ∃ pdu, s.opening (ε := ε) cfg payload = .ok pdu ∧
      (frames cfg payload)[0]? = cfg.encode? pdu := by
  have hpos := List.length_pos_iff.2 hs.ne_nil
  have hlt := hs.length_lt
  have hbusy : ¬s.Busy := by simp [Busy, hidle]
  simp only [opening, if_neg hbusy]
  rw [if_neg (by omega), if_neg (by omega), getElem?_frames hs]
  by_cases hshort : payload.length ≤ cfg.singleRoom
  · exact ⟨_, if_pos hshort, by rw [units_of_short hshort]; rfl⟩
  · refine ⟨.first (.ofNat payload.length) (payload.take (cfg.firstRoom payload.length)), ?_, ?_⟩
    · rw [if_neg hshort, if_neg (by omega)]
    · rw [getElem?_units_zero (by omega)]
      rfl

/-- With its single frame on the link, a short message is through. -/
lemma opened_of_short {payload : Bytes} (hshort : payload.length ≤ cfg.singleRoom) (now : Instant)
    (id : CanId) : s.opened cfg now id payload = s.finish payload.length := by
  simp only [opened, if_pos hshort]

/-- With its first frame on the link, a long message is the sender's cargo. -/
lemma opened_of_long {payload : Bytes} (hs : Sendable cfg payload)
    (hlong : cfg.singleRoom < payload.length) (hsize : payload.length ≤ s.buffer.size)
    (now : Instant) (id : CanId) :
    ∃ buffer, buffer.size = s.buffer.size ∧
      let t : Transfer :=
        { id
          length := payload.length
          offset := min payload.length (cfg.firstRoom payload.length) }
      s.opened cfg now id payload =
          ({ s with buffer, phase := .waiting t (cfg.clock.after now cfg.nBs) }, none) ∧
        t.Carries cfg buffer ⟨id, payload, 1⟩ := by
  have hfirst := firstRoom_le_singleRoom cfg payload.length
  obtain ⟨buffer, hb⟩ := Option.isSome_iff_exists.1
    (Buffer.isSome_write?_iff.2 (show 0 + payload.length ≤ s.buffer.size by omega))
  have hbytes := Buffer.take_add_of_write? hb
  rw [Nat.zero_add, List.take_zero, List.nil_append] at hbytes
  refine ⟨buffer, Buffer.size_of_write? hb, ?_, ?_⟩
  · simp only [opened, if_neg (Nat.not_le.2 hlong), hb]
  · refine ⟨rfl, rfl, hs, hlong, Nat.le_refl _, ?_, ?_, rfl, hbytes⟩
    · rw [reach_one]
      exact Nat.min_eq_right (by omega)
    · simp only
      omega

lemma Ready.opened (h : s.Ready cfg none) {payload : Bytes} (hs : Sendable cfg payload)
    (hcap : payload.length ≤ s.capacity) {f : Bytes} (hf : (frames cfg payload)[0]? = some f)
    (now : Instant) (id : CanId) :
    Moves cfg none (some (id, payload)) [⟨id, f, false⟩]
      (s.opened cfg now id payload).2 (s.opened cfg now id payload).1 := by
  have hmove := Move.begin id hs hf
  have hfits := h.fits
  by_cases hshort : payload.length ≤ cfg.singleRoom
  · have hn := length_frames_of_short hs hshort
    have hleft : Cargo.left? cfg ⟨id, payload, 1⟩ = none := if_neg (by simp only; omega)
    have hsent : Cargo.sent cfg ⟨id, payload, 1⟩ = [payload.length] := if_pos hn.symm
    rw [hleft, hsent] at hmove
    rw [opened_of_short hshort]
    exact ⟨none, hmove, h.valid, h.fits, h.capacity_lt, rfl⟩
  · obtain ⟨buffer, hsize, hopened, hc⟩ :=
      opened_of_long (s := s) hs (Nat.not_le.1 hshort) (by omega) now id
    have hsent : Cargo.sent cfg ⟨id, payload, 1⟩ = [] := if_neg (Nat.ne_of_lt hc.lt_length)
    rw [hc.left?_eq, hsent] at hmove
    rw [hopened]
    exact ⟨_, hmove, h.valid, by simp only; omega, h.capacity_lt, _, rfl, hc⟩

lemma Ready.begin (h : s.Ready cfg x) (now : Instant) (id : CanId) (payload : Bytes)
    (line : Tap σ) :
    let turn := s.begin cfg now id payload line
    ∃ new, turn.line.taken = line.taken ++ new ∧
      ((∃ e, turn.value = .error e ∧ Moves cfg x none new none turn.sender) ∨
        ∃ event, turn.value = .ok event ∧
          Moves cfg x (some (id, payload)) new event turn.sender) := by
  unfold Sender.begin
  split
  · exact ⟨[], (List.append_nil _).symm, .inl ⟨_, rfl, h.rest⟩⟩
  · next pdu hok =>
    obtain ⟨rfl, hs, hcap, hopen⟩ := h.opening_eq_ok hok
    split
    · next e line' hoffer =>
      refine ⟨[], ?_, .inl ⟨_, rfl, h.rest⟩⟩
      rw [Tap.taken_of_offer_error hoffer, List.append_nil]
    · next line' hoffer =>
      obtain ⟨f, hf, htaken⟩ := Tap.taken_of_offer_ok hoffer
      exact ⟨_, htaken, .inr ⟨_, rfl, h.opened hs hcap (hopen.trans hf) now id⟩⟩

end Sender

end IsoTp
