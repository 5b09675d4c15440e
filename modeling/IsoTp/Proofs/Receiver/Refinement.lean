import Mathlib.Tactic.Lemma
import IsoTp.Assembly

/-!
A receiver that stands for an assembly.

The receiver keeps a cursor into a buffer, a running number and a counter of the frames missing
of a block; the assembly keeps the pieces. `Represents` says when a receiver stands where an
assembly does. Every call of the receiver yields what the assembly's does and keeps them so.
-/

namespace IsoTp.Assembly

open Receiver (Outcome Status Reply Op)

/-! ### A receiver that stands for an assembly -/

/-- A message under way in a buffer: the cursor has passed what the declared length leaves of the
bytes collected, and these stand at the start of the buffer. -/
structure Underway.InBuffer (m : Underway) (i : Inbound) (cursor : Nat) (buffer : Buffer) :
    Prop where
  total : i.total = m.total
  total_le : m.total ≤ buffer.size
  written : cursor = min m.collected.length m.total
  bytes : buffer.toList.take cursor = m.collected.take m.total
  nextSn : i.nextSn = m.nextSn
  blockSize : i.blockSize = m.granted
  blockLeft : i.blockLeft = m.granted - m.since
  since_lt : m.granted ≠ 0 → m.since < m.granted
  deadline : i.deadline = m.deadline
  owed : i.owed = m.owed

/-- The receiver stands where the assembly does. -/
def Represents (r : Receiver) : Phase → Prop
  | .idle => r.phase = .idle
  | .underway m => ∃ i, r.phase = .receiving i ∧ m.InBuffer i r.written r.buffer
  | .done message => r.phase = .done ∧ r.written = message.length ∧
      message.length ≤ r.buffer.size ∧ r.buffer.toList.take message.length = message
  | .failed cause => r.phase = .failed cause

variable {r : Receiver} {p : Phase}

lemma Represents.phase_idle (h : Represents r .idle) : r.phase = .idle := h

lemma Represents.phase_failed {cause : Abort} (h : Represents r (.failed cause)) :
    r.phase = .failed cause := h

lemma Represents.status (h : Represents r p) : r.status = p.status := by
  cases p with
  | idle => simp [Receiver.status, Phase.status, h.phase_idle]
  | underway m =>
    obtain ⟨i, hi, -⟩ := h
    simp [Receiver.status, Phase.status, hi]
  | done message => simp [Receiver.status, Phase.status, h.1]
  | failed cause => simp [Receiver.status, Phase.status, h.phase_failed]

lemma Represents.owed (h : Represents r p) : r.owed = p.owed := by
  cases p with
  | idle => simp [Receiver.owed, Phase.owed, h.phase_idle]
  | underway m =>
    obtain ⟨i, hi, hm⟩ := h
    simp [Receiver.owed, Phase.owed, hi, hm.owed]
  | done message => simp [Receiver.owed, Phase.owed, h.1]
  | failed cause => simp [Receiver.owed, Phase.owed, h.phase_failed]

lemma Represents.read? {message : Bytes} (h : Represents r (.done message)) :
    r.buffer.read? 0 message.length = some message := by
  obtain ⟨-, -, hsize, hbytes⟩ := h
  rw [Buffer.read?_eq, if_pos (by omega), List.drop_zero, hbytes]

lemma Represents.message (h : Represents r p) : r.message = p.message := by
  cases p with
  | idle => simp [Receiver.message, Phase.message, h.phase_idle]
  | underway m =>
    obtain ⟨i, hi, -⟩ := h
    simp [Receiver.message, Phase.message, hi]
  | done message => simp [Receiver.message, Phase.message, h.1, h.2.1, h.read?]
  | failed cause => simp [Receiver.message, Phase.message, h.phase_failed]

/-- The receiver stands where the assembly does, and its buffer holds messages up to its
capacity. -/
structure Refines (r : Receiver) (p : Phase) : Prop where
  fits : r.capacity ≤ r.buffer.size
  represents : Represents r p

/-- A new receiver stands for an assembly without a message. -/
lemma refines_new (buffer : Buffer) (capacity : Nat) : Refines (.new buffer capacity) .idle :=
  ⟨Nat.min_le_right .., rfl⟩

/-! ### What each call does -/

/-- Two results agree: the receiver, of an unchanged capacity, stands where the assembly does, and
both yield the same. -/
structure Agrees {α : Type} (capacity : Nat) (x : Receiver × α) (y : Phase × α) : Prop where
  refines : Refines x.1 y.1
  capacity_eq : x.1.capacity = capacity
  yields : x.2 = y.2

lemma Refines.giveUp (h : Refines r p) (cause : Abort) :
    Agrees r.capacity (r.giveUp cause) (.failed cause, .failed cause) :=
  ⟨⟨h.fits, rfl⟩, rfl, rfl⟩

variable (cfg : Config) (policy : FlowPolicy) (now : Instant) {data : Bytes}

lemma Refines.single (h : Refines r p) {len : Nat} (hlen : len ≤ data.length) :
    Agrees r.capacity (r.single len data)
      (if r.capacity < len then (.failed .tooLong, .failed .tooLong)
        else (.done (data.take len), .complete len)) := by
  have hfits := h.fits
  unfold Receiver.single
  split
  · exact h.giveUp .tooLong
  · rw [if_neg (by omega)]
    have htake : (data.take len).length = len := by rw [List.length_take]; omega
    obtain ⟨buffer, hb⟩ := Option.isSome_iff_exists.1
      (Buffer.isSome_write?_iff.2 (show 0 + (data.take len).length ≤ r.buffer.size by omega))
    have hsize := Buffer.size_of_write? hb
    have hbytes := Buffer.take_add_of_write? hb
    simp only [hb]
    refine ⟨⟨by simp only; omega, ?_⟩, rfl, rfl⟩
    refine ⟨rfl, htake.symm, by simp only; omega, ?_⟩
    simpa using hbytes

lemma Refines.first (h : Refines r p) (total : Nat) (data : Bytes) :
    Agrees r.capacity (r.first cfg policy now total data)
      (if r.capacity < total then (.failed .tooLong, .refusal .overflow)
        else
          (.underway
            { total, head := data, parts := [], granted := policy.blockSize.toNat, since := 0,
              deadline := cfg.clock.after now cfg.nCr, owed := none },
            .answer policy.clearToSend)) := by
  have hfits := h.fits
  unfold Receiver.first FlowPolicy.answer
  by_cases hlong : r.capacity < total
  · simp only [if_pos hlong]
    exact ⟨⟨hfits, rfl⟩, rfl, rfl⟩
  · have htake : (data.take total).length = min data.length total := by
      rw [List.length_take, Nat.min_comm]
    obtain ⟨buffer, hb⟩ := Option.isSome_iff_exists.1
      (Buffer.isSome_write?_iff.2 (show 0 + (data.take total).length ≤ r.buffer.size by omega))
    have hsize := Buffer.size_of_write? hb
    have hbytes := Buffer.take_add_of_write? hb
    have hclear : policy.clearToSend.status ≠ .overflow := by simp [FlowPolicy.clearToSend]
    simp only [if_neg hlong, if_neg hclear, hb]
    refine ⟨⟨by simp only; omega, _, rfl, ?_⟩, rfl, rfl⟩
    constructor <;> try rfl
    · simp only
      omega
    · simp [Underway.collected]
    · simpa [Underway.collected, htake] using hbytes
    · exact Nat.pos_of_ne_zero

namespace Underway

/-- The message with one more piece. -/
def push (m : Underway) (data : Bytes) (deadline : Instant) : Underway :=
  { m with parts := m.parts ++ [data], since := m.since + 1, deadline }

@[simp] lemma collected_push (m : Underway) (data : Bytes) (deadline : Instant) :
    (m.push data deadline).collected = m.collected ++ data := by
  simp [push, collected]

@[simp] lemma nextSn_push (m : Underway) (data : Bytes) (deadline : Instant) :
    (m.push data deadline).nextSn = (m.nextSn + 1) % 16 := by
  simp [push, nextSn]

end Underway

/-- A consecutive frame in turn either completes the message, or fills a block, or does neither. -/
lemma consecutive_eq (policy : FlowPolicy) (deadline : Instant) (sn : Nat) (data : Bytes)
    (m : Underway) : Assembly.consecutive policy deadline sn data m =
      if sn ≠ m.nextSn then
        (.failed (.outOfTurn m.nextSn sn), .failed (.outOfTurn m.nextSn sn))
      else if m.total ≤ (m.collected ++ data).length then
        (.done ((m.collected ++ data).take m.total), .complete m.total)
      else if m.granted ≠ 0 ∧ m.since + 1 = m.granted then
        (.underway { m.push data deadline with granted := policy.blockSize.toNat, since := 0 },
          .answer policy.clearToSend)
      else (.underway (m.push data deadline), .none) := by
  rw [← Underway.collected_push m data deadline]
  rfl

/-- The piece of a frame goes to the cursor, as far as the declared length allows. -/
lemma Underway.InBuffer.write? {i : Inbound} {m : Underway} {cursor : Nat} {buffer : Buffer}
    (hm : m.InBuffer i cursor buffer) (data : Bytes) :
    ∃ buffer', buffer.write? cursor (data.take (i.total - cursor)) = some buffer' ∧
      buffer'.size = buffer.size ∧
      cursor + (data.take (i.total - cursor)).length =
        min (m.collected ++ data).length m.total ∧
      buffer'.toList.take (min (m.collected ++ data).length m.total) =
        (m.collected ++ data).take m.total := by
  have htotal := hm.total_le
  have hwritten := hm.written
  have hend : cursor + (data.take (i.total - cursor)).length =
      min (m.collected ++ data).length m.total := by
    rw [List.length_take, List.length_append, hm.total, hm.written]
    omega
  obtain ⟨buffer', hb⟩ := Option.isSome_iff_exists.1 (Buffer.isSome_write?_iff.2
    (show cursor + (data.take (i.total - cursor)).length ≤ buffer.size by omega))
  refine ⟨buffer', hb, Buffer.size_of_write? hb, hend, ?_⟩
  have hdrop : m.total - min m.collected.length m.total = m.total - m.collected.length := by omega
  rw [← hend, Buffer.take_add_of_write? hb, hm.bytes, hm.total, hm.written, hdrop,
    List.take_append]

/-- With one more piece in the buffer, and any count of the frames since the last answer. -/
lemma Underway.InBuffer.push {i : Inbound} {m : Underway} {cursor : Nat} {buffer buffer' : Buffer}
    (hm : m.InBuffer i cursor buffer) {deadline : Instant} (hsize : buffer'.size = buffer.size)
    (hbytes : buffer'.toList.take (min (m.collected ++ data).length m.total) =
      (m.collected ++ data).take m.total)
    {granted since left : Nat} (hleft : left = granted - since)
    (hsince : granted ≠ 0 → since < granted) :
    { m.push data deadline with granted, since }.InBuffer
      { total := m.total, nextSn := (m.nextSn + 1) % 16, blockSize := granted, blockLeft := left,
        deadline, owed := i.owed } (min (m.collected ++ data).length m.total) buffer' where
  total := rfl
  total_le := by have := hm.total_le; simp only [Underway.push]; omega
  written := by rw [← Underway.collected_push m data deadline]; rfl
  bytes := by rw [← Underway.collected_push m data deadline] at hbytes ⊢; exact hbytes
  nextSn := by rw [← Underway.nextSn_push m data deadline]; rfl
  blockSize := rfl
  blockLeft := hleft
  since_lt := hsince
  deadline := rfl
  owed := hm.owed

lemma Refines.consecutive {i : Inbound} {m : Underway} (h : Refines r p)
    (hm : m.InBuffer i r.written r.buffer) (sn : Nat) :
    Agrees r.capacity (r.consecutive cfg policy now sn data i)
      (Assembly.consecutive policy (cfg.clock.after now cfg.nCr) sn data m) := by
  have hfits := h.fits
  have htotal := hm.total_le
  obtain ⟨buffer, hb, hsize, hend, hbytes⟩ := hm.write? data
  have hfits' : r.capacity ≤ buffer.size := by omega
  rw [consecutive_eq]
  unfold Receiver.consecutive
  rw [hm.nextSn]
  split
  · exact h.giveUp _
  · simp only [hb, hend]
    simp only [hm.total, hm.blockSize, hm.blockLeft]
    by_cases hdone : m.total ≤ (m.collected ++ data).length
    · have hmin : min (m.collected ++ data).length m.total = m.total := Nat.min_eq_right hdone
      have hlen : ((m.collected ++ data).take m.total).length = m.total := by
        rw [List.length_take, Nat.min_eq_left hdone]
      rw [hmin] at hbytes ⊢
      rw [if_pos hdone, if_pos (Nat.le_refl _)]
      refine ⟨⟨hfits', ?_⟩, rfl, rfl⟩
      exact ⟨rfl, hlen.symm, by simp only; omega, by simp only [hlen]; exact hbytes⟩
    · rw [if_neg hdone, if_neg (by omega)]
      by_cases h0 : m.granted = 0
      · rw [if_pos h0, if_neg (by simp [h0])]
        exact ⟨⟨hfits', _, rfl, hm.push hsize hbytes (by omega) (absurd h0)⟩, rfl, rfl⟩
      · have hsince := hm.since_lt h0
        rw [if_neg h0]
        by_cases hlast : m.since + 1 = m.granted
        · rw [if_neg (by omega), if_pos ⟨h0, hlast⟩]
          exact ⟨⟨hfits', _, rfl, hm.push hsize hbytes rfl Nat.pos_of_ne_zero⟩, rfl, rfl⟩
        · rw [if_pos (by omega), if_neg (by simp [hlast])]
          exact ⟨⟨hfits', _, rfl, hm.push hsize hbytes (by omega) (by omega)⟩, rfl, rfl⟩

/-- A unit whose single frames hold the bytes that they declare. Every frame reads as such. -/
def Sound : Pdu → Prop
  | .single len data => len.toNat ≤ data.length
  | _ => True

lemma Refines.accept (h : Refines r p) {pdu : Pdu} (hpdu : Sound pdu) :
    Agrees r.capacity (r.accept cfg policy now pdu)
      (Assembly.accept r.capacity cfg policy now pdu p) := by
  have hstatus := h.represents.status
  have hsame (o : Outcome) : Agrees r.capacity (r, o) (p, o) := ⟨h, rfl, rfl⟩
  unfold Receiver.accept
  cases pdu with
  | single len data =>
    have hs := h.single hpdu
    dsimp only
    rw [hstatus]
    cases p with
    | done message => exact hsame _
    | idle | underway | failed => exact hs
  | first len data =>
    have hf := h.first cfg policy now len.toNat data
    dsimp only
    rw [hstatus]
    cases p with
    | done message => exact hsame _
    | idle | underway | failed => exact hf
  | consecutive sn data =>
    cases p with
    | underway m =>
      obtain ⟨i, hi, hm⟩ := h.represents
      simp only [hi]
      exact h.consecutive cfg policy now hm sn.toNat
    | idle => simp only [h.represents.phase_idle]; exact hsame _
    | done message => simp only [h.represents.1]; exact hsame _
    | failed cause => simp only [h.represents.phase_failed]; exact hsame _
  | flowControl | invalid => cases p <;> exact hsame _

lemma Refines.advance (h : Refines r p) :
    Agrees r.capacity (r.advance now) (Assembly.advance now p) := by
  unfold Receiver.advance Assembly.advance
  cases p with
  | underway m =>
    obtain ⟨i, hi, hm⟩ := h.represents
    simp only [hi, hm.deadline, hm.owed]
    split
    · exact ⟨h, rfl, rfl⟩
    · have hcause : (if m.owed.isSome then Timer.nAr else .nCr) =
          if m.owed = none then .nCr else .nAr := by
        cases m.owed <;> simp
      rw [hcause]
      exact ⟨⟨h.fits, rfl⟩, rfl, rfl⟩
  | idle => simp only [h.represents.phase_idle]; exact ⟨h, rfl, rfl⟩
  | done message => simp only [h.represents.1]; exact ⟨h, rfl, rfl⟩
  | failed cause =>
    simp only [h.represents.phase_failed]; exact ⟨h, rfl, rfl⟩

lemma Refines.collect (h : Refines r p) (room : Nat) :
    Agrees r.capacity (r.collect room) (Assembly.collect room p) := by
  unfold Receiver.collect Assembly.collect
  cases p with
  | done message =>
    simp only [h.represents.1, h.represents.2.1, h.represents.read?]
    by_cases hroom : message.length ≤ room
    · rw [if_neg (by omega), if_pos hroom]
      exact ⟨⟨h.fits, rfl⟩, rfl, rfl⟩
    · rw [if_pos (by omega), if_neg hroom]
      exact ⟨h, rfl, rfl⟩
  | failed cause =>
    simp only [h.represents.phase_failed]
    exact ⟨⟨h.fits, rfl⟩, rfl, rfl⟩
  | idle => simp only [h.represents.phase_idle]; exact ⟨h, rfl, rfl⟩
  | underway m =>
    obtain ⟨i, hi, -⟩ := h.represents
    simp only [hi]
    exact ⟨h, rfl, rfl⟩

lemma Refines.clear (h : Refines r p) : Refines r.clear .idle := ⟨h.fits, rfl⟩

/-- The phase with other flow control owed and another deadline, if a message is under way. -/
def Phase.setOwed (owed : Option FlowControl) (deadline : Instant) : Phase → Phase
  | .underway m => .underway { m with owed, deadline }
  | p => p

lemma Underway.InBuffer.setOwed {i : Inbound} {m : Underway} {cursor : Nat} {buffer : Buffer}
    (hm : m.InBuffer i cursor buffer) (owed : Option FlowControl) (deadline : Instant) :
    { m with owed, deadline }.InBuffer { i with owed, deadline } cursor buffer :=
  { hm with deadline := rfl, owed := rfl }

lemma Refines.postpone (h : Refines r p) (fc : FlowControl) (deadline : Instant) :
    Agrees r.capacity (r.postpone fc deadline, Reply.none)
      (p.setOwed (some fc) deadline, Reply.none) := by
  unfold Receiver.postpone
  cases p with
  | underway m =>
    obtain ⟨i, hi, hm⟩ := h.represents
    simp only [hi]
    exact ⟨⟨h.fits, _, rfl, hm.setOwed ..⟩, rfl, rfl⟩
  | idle => simp only [h.represents.phase_idle]; exact ⟨h, rfl, rfl⟩
  | done message => simp only [h.represents.1]; exact ⟨h, rfl, rfl⟩
  | failed cause => simp only [h.represents.phase_failed]; exact ⟨h, rfl, rfl⟩

lemma Refines.answered (h : Refines r p) (deadline : Instant) :
    Agrees r.capacity (r.answered deadline, Reply.none) (p.setOwed none deadline, Reply.none) := by
  unfold Receiver.answered
  cases p with
  | underway m =>
    obtain ⟨i, hi, hm⟩ := h.represents
    simp only [hi]
    exact ⟨⟨h.fits, _, rfl, hm.setOwed ..⟩, rfl, rfl⟩
  | idle => simp only [h.represents.phase_idle]; exact ⟨h, rfl, rfl⟩
  | done message => simp only [h.represents.1]; exact ⟨h, rfl, rfl⟩
  | failed cause => simp only [h.represents.phase_failed]; exact ⟨h, rfl, rfl⟩

end IsoTp.Assembly
