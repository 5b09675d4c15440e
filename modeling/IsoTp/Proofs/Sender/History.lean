import IsoTp.Proofs.Sender.Outcome

/-!
What a sender's calls tell.

The record of a call shows what was asked of the sender and which frames the link took and refused:
whether a message was begun, the peer cleared the sender to send or asked it to wait, and whether a
consecutive frame went out. A call that puts none on the link makes the sender wait only if it
begins a message; at most one goes out in a call, as time passes.
-/

namespace IsoTp.Sender

/-- The block size of flow control that clears the sender to send while it waits for that. -/
def grants (fc : FlowControl) (s : Sender) : Option Nat :=
  if s.isWaiting ∧ fc.status = .clearToSend then some fc.blockSize.toNat else none

namespace Record

variable {σ ε : Type} (y : Record σ ε)

/-- The link took a first frame. -/
def opens : Bool := y.offers.any fun o => o.taken && o.frame.kind? = some 1

/-- The block size that the peer grants in a call. -/
def grant? : Option Nat :=
  match y.op with
  | .flowControl fc => y.before.grants fc
  | _ => none

/-- A request to wait comes while the sender waits. -/
def asksToWait : Bool :=
  match y.op with
  | .flowControl fc => y.before.isWaiting && fc.status = .wait
  | _ => false

/-- How many consecutive frames the link took. -/
def sent : Nat := y.offers.countP fun o => o.taken && o.isConsecutive

/-- The link refused a consecutive frame. -/
def stalls : Bool := y.offers.any fun o => !o.taken && o.isConsecutive

/-- The cause for which a call gave up the message in flight. -/
def gaveUp? : Option Abort :=
  match y.reply with
  | .event (some (.failed cause)) => some cause
  | _ => none

/-- The parameters that later calls are given. -/
def newConfig? : Option Config :=
  match y.op with
  | .setConfig cfg => some cfg
  | _ => none

/-- The link took a consecutive frame that has the rest of the message of this transfer. -/
def Completes (t : Transfer) : Prop :=
  y.before.phase = .sending t ∧
    ∃ o ∈ y.offers, o.taken = true ∧
      ∃ sn data, Pdu.decode o.frame.data = .consecutive sn data ∧ t.length ≤ t.offset + data.length

variable {y}

lemma sent_pos_of_completes {t : Transfer} (h : y.Completes t) : 0 < y.sent := by
  obtain ⟨-, o, ho, htaken, sn, data, hread, -⟩ := h
  have hkind : o.frame.kind? = some 2 := by
    rw [← Pdu.kind?_decode (by simp [hread]), hread]
    rfl
  exact List.countP_pos_iff.2 ⟨o, ho, by simp [htaken, Offer.isConsecutive, hkind]⟩

/-- Only flow control grants anything or asks to wait. -/
lemma tells_nothing (hop : ∀ fc, y.op ≠ .flowControl fc) :
    y.grant? = none ∧ y.asksToWait = false := by
  unfold grant? asksToWait
  split
  · next fc hfc => exact absurd hfc (hop fc)
  · exact ⟨rfl, rfl⟩

/-- What flow control tells, which has no frame of its own. -/
lemma tells_of_flowControl {fc : FlowControl} (hop : y.op = .flowControl fc)
    (hoffers : y.offers = []) :
    y.opens = false ∧ y.sent = 0 ∧ y.stalls = false ∧ y.grant? = y.before.grants fc ∧
      y.asksToWait = (y.before.isWaiting && fc.status = .wait) := by
  simp [opens, sent, stalls, grant?, asksToWait, hop, hoffers]

lemma gaveUp?_eq_some {cause : Abort} :
    y.gaveUp? = some cause ↔ y.reply = .event (some (.failed cause)) := by
  unfold gaveUp?
  split
  · next hreply => simp [hreply]
  · next hother => simpa using hother cause

/-- A call without a consecutive frame neither sends one nor has one refused. -/
lemma sent_eq_zero (h : ∀ o ∈ y.offers, o.isConsecutive = false) :
    y.sent = 0 ∧ y.stalls = false := by
  refine ⟨List.countP_eq_zero.2 fun o ho => by simp [h o ho], List.any_eq_false.2 fun o ho => ?_⟩
  simp [h o ho]

/-- A call with nothing but consecutive frames opens no message. -/
lemma opens_eq_false (h : ∀ o ∈ y.offers, o.isConsecutive = true) : y.opens = false := by
  refine List.any_eq_false.2 fun o ho => ?_
  have hkind : o.frame.kind? = some 2 := of_decide_eq_true (h o ho)
  simp [hkind]

/-- A call whose frames were all refused opens no message. -/
lemma opens_eq_false_of_refused (h : ∀ o ∈ y.offers, o.taken = false) : y.opens = false :=
  List.any_eq_false.2 fun o ho => by simp [h o ho]

end Record

section Outcomes

variable {cfg : Config} {now : Instant} {id : CanId} {s s' : Sender} {new : List Offer}

lemma Opens.isConsecutive_eq {ε : Type} {value : Except (Error ε) (Option Event)}
    (h : s.Opens cfg now id s' new value) : ∀ o ∈ new, o.isConsecutive = false := by
  cases h with
  | rejected e hnew => exact fun o ho => (hnew o ho).2
  | whole len hs hf => simp [Offer.isConsecutive, hf]
  | part len buffer hs hL hf => simp [Offer.isConsecutive, hf]

lemma isConsecutive_of_encode? {sn : UInt8} {data f : Bytes}
    (hf : cfg.encode? (.consecutive sn data) = some f) (id : CanId) (taken : Bool) :
    Offer.isConsecutive ⟨⟨id, f, false⟩, taken⟩ = true := by
  have hkind := Frame.kind?_of_encode? (f := ⟨id, f, false⟩) hf
  simp [Offer.isConsecutive, hkind, Pdu.kind?]

lemma Proceeds.isConsecutive_eq {event : Option Event} (h : s.Proceeds cfg now s' new event) :
    ∀ o ∈ new, o.isConsecutive = true := by
  cases h with
  | rest | expired | unwritten => exact List.forall_mem_nil _
  | refused _ hf | taken _ hf =>
    exact List.forall_mem_singleton.2 (isConsecutive_of_encode? hf ..)

/-- The data of a consecutive frame, with its fill, has the rest of the message exactly if the
chunk does that it was written for. -/
lemma length_le_of_decode {t : Transfer} {sn : UInt8} {chunk f : Bytes}
    (hf : cfg.encode? (.consecutive sn chunk) = some f)
    (hchunk : chunk.length = min (t.length - t.offset) cfg.consecutiveRoom) :
    (∃ sn data, Pdu.decode f = .consecutive sn data ∧ t.length ≤ t.offset + data.length) ↔
      t.length ≤ t.offset + chunk.length := by
  obtain ⟨n, hread, hn⟩ := Pdu.decode_consecutive hf
  have hroom : Pdu.consecutiveRoom cfg.frameLength = cfg.consecutiveRoom := rfl
  constructor
  · rintro ⟨sn', data, hdata, hle⟩
    rw [hread] at hdata
    cases hdata
    rw [List.length_append, List.length_replicate] at hle
    omega
  · intro hle
    refine ⟨_, _, hread, ?_⟩
    rw [List.length_append]
    omega

/-- A sender is in the middle of a block only if it was there before, but for when the link refused
the next frame. -/
def StaysIn (s s' : Sender) : Prop :=
  ∀ t, s'.phase = .sending t → ∃ r, s.phase = .sending { t with refusedSince := r }

lemma staysIn_refl (s : Sender) : StaysIn s s := fun t ht => ⟨t.refusedSince, ht⟩

lemma Opens.staysIn {ε : Type} {value : Except (Error ε) (Option Event)}
    (h : s.Opens cfg now id s' new value) : StaysIn s s' := by
  cases h with
  | rejected => exact staysIn_refl s
  | whole | part => rintro t ⟨⟩

lemma staysIn_cancel (s : Sender) : StaysIn s s.cancel := by
  unfold Sender.cancel
  split
  · rintro t ⟨⟩
  · exact staysIn_refl s

/-- A sender waits after a message to be sent only if it did before or a first frame was taken. -/
lemma Opens.isWaiting {ε : Type} {value : Except (Error ε) (Option Event)}
    (h : s.Opens cfg now id s' new value) (hwaits : s'.isWaiting = true) :
    s.isWaiting = true ∨ new.any (fun o => o.taken && o.frame.kind? = some 1) = true := by
  cases h with
  | rejected => exact .inl hwaits
  | whole => cases hwaits
  | part len buffer hs hL hf => exact .inr (by simp [hf])

lemma Heeds.staysIn {fc : FlowControl} {event : Option Event} (h : s.Heeds cfg now fc s' event)
    (hgrant : s.grants fc = none) : StaysIn s s' := by
  cases h with
  | ignored => exact staysIn_refl s
  | cleared hphase hfc => simp [grants, hfc, isWaiting_iff.2 ⟨_, _, hphase⟩] at hgrant
  | putOff | tired | refused => rintro t ⟨⟩

/-- Flow control makes no sender wait that did not before. -/
lemma Heeds.isWaiting {fc : FlowControl} {event : Option Event} (h : s.Heeds cfg now fc s' event)
    (hwaits : s'.isWaiting = true) : s.isWaiting = true := by
  cases h with
  | ignored => exact hwaits
  | cleared | tired | refused => cases hwaits
  | putOff hphase => exact isWaiting_iff.2 ⟨_, _, hphase⟩

/-- Flow control that clears the sender to send sets the block anew, and the count of requests to
wait. -/
lemma Heeds.granted {fc : FlowControl} {event : Option Event} {b : Nat}
    (h : s.Heeds cfg now fc s' event) (hb : s.grants fc = some b) :
    ∃ t, s'.phase = .sending t ∧ t.blockSize = b ∧ t.blockLeft = b ∧ t.waits = 0 := by
  obtain ⟨⟨hwaits, hfc⟩, hsize⟩ := Option.ite_none_right_eq_some.1 hb
  cases hsize
  cases h with
  | ignored hs =>
    rw [hwaits] at hs
    cases hs
  | cleared => exact ⟨_, rfl, rfl, rfl, rfl⟩
  | putOff _ hother | tired _ hother | refused _ hother => simp [hfc] at hother

/-- Flow control that is not waited for changes nothing. -/
lemma Heeds.unasked {fc : FlowControl} {event : Option Event} (h : s.Heeds cfg now fc s' event)
    (hs : s.isWaiting = false) : s' = s ∧ event = none := by
  cases h with
  | ignored => exact ⟨rfl, rfl⟩
  | cleared hphase | putOff hphase | tired hphase | refused hphase =>
    simp [Sender.isWaiting, hphase] at hs

/-- Time puts no consecutive frame on the link, and then makes no sender wait that did not before;
or it puts one there in the middle of a block. -/
lemma Proceeds.sends {event : Option Event} (h : s.Proceeds cfg now s' new event) :
    (new.countP (fun o => o.taken && o.isConsecutive) = 0 ∧ StaysIn s s' ∧
      (s'.isWaiting = true → s.isWaiting = true)) ∨
    ∃ t chunk f, s.phase = .sending t ∧
      chunk.length = min (t.length - t.offset) cfg.consecutiveRoom ∧
      cfg.encode? (.consecutive (.ofNat t.nextSn) chunk) = some f ∧
      new = [⟨⟨t.id, f, false⟩, true⟩] ∧ Places cfg now t chunk.length s s' event := by
  cases h with
  | rest => exact .inl ⟨rfl, staysIn_refl s, id⟩
  | expired => exact .inl ⟨rfl, by rintro t ⟨⟩, by rintro ⟨⟩⟩
  | @unwritten t chunk hdue | @refused t chunk f hdue =>
    refine .inl ⟨rfl, ?_, by rintro ⟨⟩⟩
    rintro t' ⟨⟩
    exact ⟨t.refusedSince, (due_eq_frame hdue).1⟩
  | @taken t chunk f _ _ hdue hf hplaces =>
    obtain ⟨hphase, hread⟩ := due_eq_frame hdue
    exact .inr ⟨t, chunk, f, hphase, Buffer.length_of_read? hread, hf, rfl, hplaces⟩

end Outcomes

/-! ### Calls -/

/-- The parameters in force after these calls, `cfg` at first. -/
def configIn {σ ε : Type} (cfg : Config) (past : List (Record σ ε)) : Config :=
  (latest Record.newConfig? past).getD cfg

section Calls

variable {σ ε : Type} [Link σ ε] {h : Host σ}

lemma Host.step_config {cfg : Config} {past : List (Record σ ε)} (hcfg : h.cfg = configIn cfg past)
    (now : Instant) (op : Op σ) :
    let y := h.step now op
    y.1.cfg = configIn cfg (past ++ [y.2]) := by
  intro y
  have hstep : y.1.cfg = y.2.newConfig?.getD h.cfg := by cases op <;> rfl
  rw [hstep, hcfg, configIn, configIn, latest_concat, Option.getD_or]

/-- A call puts no consecutive frame on the link, and then takes the sender into a block only if it
grants one, and makes it wait only if it opens a message; or it puts one there, as time passes in
the middle of a block. -/
theorem Host.step_sent (hs : h.sender.Sound) (now : Instant) (op : Op σ) :
    let y := h.step now op
    (y.2.sent = 0 ∧ (y.2.grant? = none → StaysIn h.sender y.1.sender) ∧
      (y.1.sender.isWaiting = true → h.sender.isWaiting = true ∨ y.2.opens = true)) ∨
    ∃ t count event, op = .advance ∧ h.sender.phase = .sending t ∧ y.2.sent = 1 ∧
      y.2.reply = .event event ∧ Places h.cfg now t count h.sender y.1.sender event ∧
      ∀ t', y.2.Completes t' ↔ t' = t ∧ t.length ≤ t.offset + count := by
  intro y
  cases op with
  | begin id payload =>
    obtain ⟨value, -, hopens⟩ := step_begin hs now id payload
    exact .inl ⟨(Record.sent_eq_zero hopens.isConsecutive_eq).1, fun _ => hopens.staysIn,
      hopens.isWaiting⟩
  | flowControl fc =>
    obtain ⟨event, -, hheeds⟩ := step_flowControl (h := h) now fc
    exact .inl ⟨rfl, hheeds.staysIn, fun hwaits => .inl (hheeds.isWaiting hwaits)⟩
  | advance =>
    obtain ⟨event, hreply, hproceeds⟩ := step_advance hs now
    obtain ⟨hsent, hstays, hwaits⟩ | ⟨t, chunk, f, hphase, hchunk, hf, hnew, hplaces⟩ :=
      hproceeds.sends
    · exact .inl ⟨hsent, fun _ => hstays, fun hw => .inl (hwaits hw)⟩
    · have hnew : y.2.offers = [⟨⟨t.id, f, false⟩, true⟩] := hnew
      have hconsecutive := isConsecutive_of_encode? hf t.id true
      refine .inr ⟨t, chunk.length, event, rfl, hphase, ?_, hreply, hplaces, fun t' => ?_⟩
      · simp [Record.sent, hnew, hconsecutive]
      · have hbefore : y.2.before = h.sender := rfl
        simp only [Record.Completes, hbefore, hphase, hnew, List.mem_singleton, exists_eq_left,
          Phase.sending.injEq, true_and, eq_comm (a := t)]
        refine and_congr_right ?_
        rintro rfl
        exact length_le_of_decode hf hchunk
  | cancel =>
    refine .inl ⟨rfl, fun _ => staysIn_cancel h.sender, fun hwaits => .inl ?_⟩
    have hcancel : h.sender.cancel.isWaiting = true := hwaits
    unfold Sender.cancel at hcancel
    split at hcancel
    · cases hcancel
    · exact hcancel
  | setConfig | setLine => exact .inl ⟨rfl, fun _ => staysIn_refl h.sender, .inl⟩

/-- Only flow control grants anything, and it sends nothing. -/
lemma Host.step_grant (now : Instant) (op : Op σ) {b : Nat} :
    let y := h.step now op
    y.2.grant? = some b →
      y.2.sent = 0 ∧
        ∃ t, y.1.sender.phase = .sending t ∧ t.blockSize = b ∧ t.blockLeft = b ∧ t.waits = 0 := by
  intro y hgrant
  cases op with
  | flowControl fc =>
    obtain ⟨event, -, hheeds⟩ := step_flowControl (h := h) now fc
    exact ⟨rfl, hheeds.granted hgrant⟩
  | begin | advance | cancel | setConfig | setLine => cases hgrant

/-- A call that completes a message leaves the sender done with it. -/
lemma Host.step_completes (hs : h.sender.Sound) (now : Instant) (op : Op σ) {t : Transfer} :
    let y := h.step now op
    y.2.Completes t →
      y.2.sent = 1 ∧ y.1.sender.phase = .done t.length ∧
        y.2.reply = .event (some (.complete t.length)) := by
  dsimp only
  intro hdone
  have hpos := Record.sent_pos_of_completes hdone
  obtain ⟨hsent, -⟩ | ⟨t', count, event, -, -, hsent, hreply, hplaces, hcompletes⟩ :=
    step_sent hs now op
  · omega
  · obtain ⟨rfl, hle⟩ := (hcompletes t).1 hdone
    refine ⟨hsent, ?_⟩
    generalize (h.step now op).1.sender = s' at hplaces ⊢
    cases hplaces with
    | last => exact ⟨rfl, hreply⟩
    | next hmore | blockEnd hmore => omega

/-- A refused consecutive frame leaves a note of since when, and the rest as it is. -/
lemma Host.step_stalls (hs : h.sender.Sound) (now : Instant) (op : Op σ) :
    let y := h.step now op
    y.2.stalls = true →
      y.2.sent = 0 ∧ y.2.reply = .event none ∧
        ∃ t, h.sender.phase = .sending t ∧ y.1.sender = h.sender.refused now t := by
  intro y hstalls
  cases op with
  | begin id payload =>
    obtain ⟨value, -, hopens⟩ := step_begin hs now id payload
    rw [(Record.sent_eq_zero hopens.isConsecutive_eq).2] at hstalls
    cases hstalls
  | advance =>
    obtain ⟨event, hreply, hproceeds⟩ := step_advance hs now
    generalize hnew : y.2.offers = new at hproceeds
    generalize y.1.sender = s' at hproceeds
    have hstalls : new.any (fun o => !o.taken && o.isConsecutive) = true := hnew ▸ hstalls
    cases hproceeds with
    | rest | expired | unwritten | taken => cases hstalls
    | refused hdue hf =>
      refine ⟨?_, hreply, _, (due_eq_frame hdue).1, rfl⟩
      rw [Record.sent, hnew]
      rfl
  | flowControl | cancel | setConfig | setLine => cases hstalls

end Calls

end IsoTp.Sender
