import IsoTp.Proofs.Pdu.Kind
import IsoTp.Proofs.Receiver.Reassembly
import IsoTp.Proofs.Sender.Cargo

/-!
How a receiver follows the frames of a message.

What an assembly has of the message under way is told by its pieces, and by which frame of the
message comes next. It has either every frame so far or lacks at least 16 of them: fewer show in
the running number. In the second case it stays short of the declared length, for no frame carries
more than it has room for, so that only a whole message is completed.
-/

namespace IsoTp.Assembly

open Segmentation

/-! ### The pieces of a message under way -/

/-- The pieces that have come of the message under way. -/
def Phase.pieces? : Phase → Option Pieces
  | underway m => some m.pieces
  | _ => none

/-- All bytes that have come. -/
def Pieces.collected (x : Pieces) : Bytes := x.head ++ x.parts.flatten

/-- The pieces with one more. -/
def Pieces.push (x : Pieces) (data : Bytes) : Pieces := { x with parts := x.parts ++ [data] }

lemma Pieces.collected_push (x : Pieces) (data : Bytes) :
    (x.push data).collected = x.collected ++ data := by
  simp [push, collected]

/-- The message under way fails, or the one announced is refused. -/
def fails : Receiver.Outcome → Bool
  | .refusal _ | .failed _ => true
  | _ => false

/-- The message that a unit completes. -/
def completed (y : Phase × Receiver.Outcome) : List Bytes :=
  match y.2 with
  | .complete _ => [y.1.message]
  | _ => []

@[simp] lemma pieces?_setOwed (p : Phase) (owed : Option FlowControl) (deadline : Instant) :
    (p.setOwed owed deadline).pieces? = p.pieces? := by
  cases p <;> rfl

section Units

variable (capacity : Nat) (cfg : Config) (policy : FlowPolicy) (now : Instant) (p : Phase)

/-- A single frame leaves nothing under way. -/
lemma accept_single (len : UInt8) (data : Bytes) :
    let y := accept capacity cfg policy now (.single len data) p
    y.1.pieces? = none ∧ (completed y = [] ∨ completed y = [data.take len.toNat]) := by
  cases p with
  | done message => exact ⟨rfl, .inl rfl⟩
  | idle | underway | failed =>
    simp only [accept]
    split
    · exact ⟨rfl, .inl rfl⟩
    · exact ⟨rfl, .inr rfl⟩

/-- A first frame leaves nothing of an earlier message under way. -/
lemma accept_first (len : UInt32) (data : Bytes) :
    let y := accept capacity cfg policy now (.first len data) p
    (y.1.pieces? = none ∨ y.1.pieces? = some ⟨len.toNat, data, []⟩) ∧ completed y = [] := by
  cases p with
  | done message => exact ⟨.inl rfl, rfl⟩
  | idle | underway | failed =>
    simp only [accept]
    split
    · exact ⟨.inl rfl, rfl⟩
    · exact ⟨.inr rfl, rfl⟩

/-- A consecutive frame ends the message under way, completes it, or adds a piece to it. -/
lemma accept_consecutive (sn : UInt8) (data : Bytes) :
    let y := accept capacity cfg policy now (.consecutive sn data) p
    (y.1.pieces? = none ∧ completed y = []) ∨
      ∃ x, p.pieces? = some x ∧ sn.toNat = (x.parts.length + 1) % 16 ∧
        if x.total ≤ (x.push data).collected.length then
          y.1.pieces? = none ∧ completed y = [(x.push data).collected.take x.total]
        else y.1.pieces? = some (x.push data) ∧ completed y = [] := by
  cases p with
  | idle | done | failed => exact .inl ⟨rfl, rfl⟩
  | underway m =>
    simp only [accept, consecutive_eq]
    split
    · exact .inl ⟨rfl, rfl⟩
    · next hsn =>
      refine .inr ⟨m.pieces, rfl, Decidable.not_not.1 hsn, ?_⟩
      rw [Pieces.collected_push]
      have htotal : m.pieces.total = m.total := rfl
      have hcollected : m.pieces.collected = m.collected := rfl
      rw [htotal, hcollected]
      split
      · exact ⟨rfl, rfl⟩
      · split <;> exact ⟨rfl, rfl⟩

/-- Nothing is under way after a failure. -/
lemma accept_fails (pdu : Pdu) :
    let y := accept capacity cfg policy now pdu p
    fails y.2 = true → y.1.pieces? = none ∧ completed y = [] := by
  intro y hy
  have hcompleted : completed y = [] := by
    unfold fails at hy
    unfold completed
    split at hy
    · next hout => rw [hout]
    · next hout => rw [hout]
    · cases hy
  refine ⟨?_, hcompleted⟩
  cases pdu with
  | single len data =>
    exact (accept_single capacity cfg policy now p len data).1
  | first len data =>
    cases p with
    | done message => rfl
    | idle | underway | failed =>
      simp only [y, accept] at hy ⊢
      split at hy
      · next hlong => rw [if_pos hlong]; rfl
      · cases hy
  | consecutive sn data =>
    cases p with
    | underway m =>
      simp only [y, accept, consecutive_eq] at hy ⊢
      split at hy
      · next hsn => rw [if_pos hsn]; rfl
      · split at hy
        · cases hy
        · split at hy <;> cases hy
    | idle | done | failed => rfl
  | flowControl | invalid => cases p <;> cases hy

lemma advance_pieces? : (Assembly.advance now p).1.pieces? = none ∨
    (Assembly.advance now p).1.pieces? = p.pieces? ∧ (Assembly.advance now p).2 = none := by
  cases p with
  | underway m =>
    simp only [Assembly.advance]
    split
    · exact .inr ⟨rfl, rfl⟩
    · exact .inl rfl
  | idle | done | failed => exact .inr ⟨rfl, rfl⟩

lemma collect_pieces? (room : Nat) : (Assembly.collect room p).1.pieces? = p.pieces? := by
  cases p with
  | done message => simp only [Assembly.collect]; split <;> rfl
  | idle | underway | failed => rfl

/-- A frame that carries no part of a message is nothing to an assembly. -/
lemma accept_of_not_carriesPart {f : Frame} (hf : f.carriesPart = false) :
    accept capacity cfg policy now (Pdu.decode f.data) p = (p, .none) := by
  have hkind := Pdu.kind?_decode (f := f)
  rw [Frame.carriesPart] at hf
  cases hread : Pdu.decode f.data with
  | single | first | consecutive =>
    rw [← hkind (by simp [hread]), hread] at hf
    cases hf
  | flowControl | invalid => cases p <;> rfl

end Units

/-! ### How far the receiver is behind -/

/-- What a receiver has of a message when `o.count` of its frames have come off the wire: no more
than as many frames carry, and either all bytes so far or 16 frames too few. -/
structure Follows (cfg : Config) (o : Cargo) (x : Pieces) : Prop where
  total : x.total = o.payload.length
  count : x.parts.length + 1 ≤ o.count
  length_le : x.collected.length ≤ reach cfg o.payload.length (x.parts.length + 1)
  whole_or_short :
    x.collected = o.payload.take (reach cfg o.payload.length (x.parts.length + 1)) ∨
      x.parts.length + 17 ≤ o.count

variable {cfg : Config} {o : Cargo} {x : Pieces}

/-- After the first frame nothing is missing. -/
lemma follows_first {payload : Bytes} (id : CanId) :
    Follows cfg ⟨id, payload, 1⟩
      ⟨payload.length, payload.take (cfg.firstRoom payload.length), []⟩ := by
  refine ⟨rfl, Nat.le_refl _, ?_, .inl ?_⟩
  · simp only [Pieces.collected, List.flatten_nil, List.append_nil, List.length_nil, Nat.zero_add,
      reach_one]
    exact List.length_take_le ..
  · simp [Pieces.collected]

/-- A frame that is lost leaves the receiver further behind. -/
lemma Follows.lose (h : Follows cfg o x) : Follows cfg o.next x :=
  ⟨h.total, Nat.le_succ_of_le h.count, h.length_le, h.whole_or_short.imp_right Nat.le_succ_of_le⟩

/-- What has come is no more than the frames so far carry. -/
lemma Follows.length_push_le (h : Follows cfg o x) {fill : Bytes}
    (hfill : min (o.payload.length - reach cfg o.payload.length o.count) cfg.consecutiveRoom +
      fill.length ≤ cfg.consecutiveRoom) :
    let y := x.push (o.chunk cfg ++ fill)
    y.collected.length ≤ reach cfg o.payload.length (y.parts.length + 1) ∧
      y.parts.length + 1 ≤ o.next.count := by
  intro y
  have hlength := h.length_le
  have hchunk := Cargo.length_chunk cfg o
  have hparts : y.parts.length = x.parts.length + 1 := List.length_append ..
  rw [hparts, reach_succ cfg _ (Nat.le_add_left 1 _), Pieces.collected_push, List.length_append,
    List.length_append]
  exact ⟨by omega, Nat.succ_le_succ h.count⟩

/-- A consecutive frame with the number in turn is the next one or comes at least 16 too late. The
next one may complete the message, which is then the one sent; a later one may not. -/
lemma Follows.push (h : Follows cfg o x)
    (hlong : reach cfg o.payload.length o.count < o.payload.length)
    (hturn : o.count % 16 = (x.parts.length + 1) % 16) (fill : Bytes)
    (hfill : min (o.payload.length - reach cfg o.payload.length o.count) cfg.consecutiveRoom +
      fill.length ≤ cfg.consecutiveRoom) :
    let y := x.push (o.chunk cfg ++ fill)
    if x.total ≤ y.collected.length then y.collected.take x.total = o.payload
    else Follows cfg o.next y := by
  intro y
  have hcount := h.count
  have htotal := h.total
  have hsucc := reach_succ cfg o.payload.length (Nat.le_add_left 1 x.parts.length)
  have hchunk := Cargo.length_chunk cfg o
  have hy : y.collected = x.collected ++ (o.chunk cfg ++ fill) := Pieces.collected_push ..
  have hparts : y.parts.length = x.parts.length + 1 := List.length_append ..
  obtain ⟨hylength, hycount⟩ :
      y.collected.length ≤ reach cfg o.payload.length (y.parts.length + 1) ∧
        y.parts.length + 1 ≤ o.next.count := h.length_push_le hfill
  by_cases hnext : o.count = x.parts.length + 1
  · have hwhole : x.collected = o.payload.take (reach cfg o.payload.length o.count) := by
      rw [hnext]
      exact h.whole_or_short.resolve_right (by omega)
    have hlength : x.collected.length = reach cfg o.payload.length o.count := by
      rw [hwhole, List.length_take]
      omega
    by_cases hlast : o.payload.length - reach cfg o.payload.length o.count ≤ cfg.consecutiveRoom
    · -- the last frame brings the rest of the message, and fill after it
      have hrest : o.chunk cfg = o.payload.drop (reach cfg o.payload.length o.count) :=
        List.take_of_length_le (by rw [List.length_drop]; exact hlast)
      have hall : y.collected = o.payload ++ fill := by
        rw [hy, hwhole, hrest, ← List.append_assoc, List.take_append_drop]
      rw [if_pos (by rw [hall, List.length_append]; omega), hall, htotal, List.take_left]
    · -- a frame before the last one is full
      have hnil : fill = [] := List.eq_nil_of_length_eq_zero (by omega)
      have hmore :
          y.collected = o.payload.take (reach cfg o.payload.length (y.parts.length + 1)) := by
        rw [hy, hwhole, hnil, List.append_nil, Cargo.chunk, hparts, hsucc, hnext, List.take_add]
      rw [if_neg]
      · exact ⟨htotal, hycount, hylength, .inl hmore⟩
      · rw [hparts, hsucc, ← hnext] at hylength
        omega
  · have hshort : x.parts.length + 17 ≤ o.count := by omega
    have hbelow := reach_mono cfg o.payload.length
      (show y.parts.length + 1 ≤ o.count by omega)
    rw [if_neg (by omega)]
    refine ⟨htotal, hycount, hylength, .inr ?_⟩
    simp only [Cargo.next]
    omega

/-- Where nothing is missing, the last frame completes the message and no other does. -/
lemma Follows.le_push_iff (h : Follows cfg o x) (hs : Sendable cfg o.payload)
    (hsingle : cfg.singleRoom < o.payload.length)
    (hlt : o.count < (frames cfg o.payload).length) (hnext : o.count = x.parts.length + 1)
    {fill : Bytes}
    (hfill : min (o.payload.length - reach cfg o.payload.length o.count) cfg.consecutiveRoom +
      fill.length ≤ cfg.consecutiveRoom) :
    x.total ≤ (x.push (o.chunk cfg ++ fill)).collected.length ↔
      o.next.count = (frames cfg o.payload).length := by
  have hlong := (lt_length_frames_iff hs hsingle (by omega)).1 hlt
  have hmore : o.next.count < (frames cfg o.payload).length ↔
      reach cfg o.payload.length o.next.count < o.payload.length :=
    lt_length_frames_iff hs hsingle (Nat.le_add_left ..)
  have hsucc : reach cfg o.payload.length o.next.count =
      reach cfg o.payload.length o.count + cfg.consecutiveRoom :=
    reach_succ cfg o.payload.length (by omega)
  have hwhole := h.whole_or_short.resolve_right (by omega)
  have hlength : x.collected.length = reach cfg o.payload.length o.count := by
    rw [hwhole, List.length_take, ← hnext]
    omega
  have hchunk := Cargo.length_chunk cfg o
  have htotal := h.total
  rw [Pieces.collected_push, List.length_append, List.length_append]
  simp only [Cargo.next] at hmore hsucc ⊢
  omega

/-- What a receiver has that missed none of the `o.count` frames so far. -/
structure Whole (cfg : Config) (o : Cargo) (x : Pieces) : Prop where
  follows : Follows cfg o x
  count : o.count = x.parts.length + 1

/-- The next frame of a message of which none was missed: the last one completes it, and every other
adds a piece, and is answered if it fills a block. -/
lemma Whole.accept {m : Underway} (h : Whole cfg o m.pieces) (hs : Sendable cfg o.payload)
    {f : Bytes} (hf : (frames cfg o.payload)[o.count]? = some f) (capacity : Nat) (own : Config)
    (policy : FlowPolicy) (now : Instant) :
    let y := Assembly.accept capacity own policy now (Pdu.decode f) (.underway m)
    if o.next.count = (frames cfg o.payload).length then
      y = (.done o.payload, .complete o.payload.length)
    else ∃ data,
      let next := m.push data (own.clock.after now own.nCr)
      Whole cfg o.next next.pieces ∧ y =
        if m.granted ≠ 0 ∧ m.since + 1 = m.granted then
          (.underway { next with granted := policy.blockSize.toNat, since := 0 },
            .answer policy.clearToSend)
        else (.underway next, .none) := by
  intro y
  have hlt := (List.getElem?_eq_some_iff.1 hf).1
  have hcount : 1 ≤ o.count := by
    rw [h.count]
    exact Nat.le_add_left ..
  have hlong := singleRoom_lt_of_lt_length hs hcount hlt
  have hmore := (lt_length_frames_iff hs hlong hcount).1 hlt
  obtain ⟨sn, fill, hread, hsn, hfill⟩ := Cargo.decode_next cfg hs hcount hf
  have hend := h.follows.le_push_iff hs hlong hlt h.count hfill
  have hpush := h.follows.push hmore (congrArg (· % 16) h.count) fill hfill
  rw [Pieces.collected_push] at hend
  simp only [Pieces.collected_push] at hpush
  have hturn : sn.toNat = m.nextSn := by
    rw [hsn, h.count]
    rfl
  have hy : y = Assembly.consecutive policy (own.clock.after now own.nCr) sn.toNat
      (o.chunk cfg ++ fill) m := by
    simp only [y, hread, Assembly.accept]
  rw [hy, consecutive_eq, if_neg (Decidable.not_not.2 hturn)]
  by_cases hlast : o.next.count = (frames cfg o.payload).length
  · have htotal : m.total = o.payload.length := h.follows.total
    rw [if_pos (hend.2 hlast)] at hpush
    have hdone : m.total ≤ (m.collected ++ (o.chunk cfg ++ fill)).length := hend.2 hlast
    rw [if_pos hlast, if_pos hdone, ← htotal]
    exact congrArg (fun d => (Phase.done d, Receiver.Outcome.complete m.total)) hpush
  · have hdone : ¬m.total ≤ (m.collected ++ (o.chunk cfg ++ fill)).length :=
      fun hle => hlast (hend.1 hle)
    rw [if_neg fun hle => hlast (hend.1 hle)] at hpush
    rw [if_neg hlast, if_neg hdone]
    refine ⟨o.chunk cfg ++ fill, ⟨hpush, ?_⟩, rfl⟩
    simp only [Cargo.next, h.count, Underway.push, Underway.pieces, List.length_append,
      List.length_singleton]

end IsoTp.Assembly
