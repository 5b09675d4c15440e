import Mathlib.Tactic.Lemma
import IsoTp.Channel.Host
import IsoTp.Proofs.Sender.Cargo

/-!
What a channel puts on its link.

A run of a channel falls into one stretch for each message that it begins to send. In each
stretch the link takes the frames of that message from the first on, in order and none twice. The
message is reported as sent if these are all its frames, and only then.
-/

namespace IsoTp.Channel

open Segmentation

/-- A channel as it is built, over new buffers or over given ones. -/
inductive Fresh (cfg : Config) (c : Channel) : Prop
  | ofConfig (memory : Memory) (h : Channel.ofConfig cfg memory = .ok c)
  | ofBuffers (tx rx : Buffer) (h : Channel.ofBuffers cfg tx rx = .ok c)

variable {cfg : Config} {c : Channel}

/-- New buffers are buffers. -/
lemma exists_ofBuffers {memory : Memory} (h : ofConfig cfg memory = .ok c) :
    ∃ tx rx, ofBuffers cfg tx rx = .ok c := by
  unfold ofConfig at h
  split at h
  · split at h
    · next tx rx htx hrx => exact ⟨tx, rx, h⟩
    · cases h
  · cases h

lemma Fresh.eq_new (h : Fresh cfg c) : cfg.Valid ∧ ∃ tx rx : Buffer,
    cfg.sendCapacity ≤ tx.size ∧ cfg.receiveCapacity ≤ rx.size ∧
      c = ⟨cfg, cfg.policy, .new tx cfg.sendCapacity, .new rx cfg.receiveCapacity⟩ := by
  obtain ⟨tx, rx, h⟩ : ∃ tx rx, Channel.ofBuffers cfg tx rx = .ok c := by
    cases h with
    | ofConfig _ h => exact exists_ofBuffers h
    | ofBuffers tx rx h => exact ⟨tx, rx, h⟩
  unfold Channel.ofBuffers at h
  split at h
  · next hcond =>
    cases h
    exact ⟨hcond.1, tx, rx, hcond.2.1, hcond.2.2, rfl⟩
  · cases h

lemma Fresh.ready (h : Fresh cfg c) : c.cfg = cfg ∧ c.sender.Ready cfg none := by
  obtain ⟨hcfg, tx, rx, -, -, rfl⟩ := h.eq_new
  exact ⟨rfl, Sender.ready_new hcfg tx⟩

/-! ### What a call does -/

/-- The frames among those offered that the link took. -/
def takenOf (offers : List Offer) : List Frame :=
  offers.filterMap fun o => if o.taken then some o.frame else none

/-- The lengths that events report as sent. -/
def sentLengths (events : List Event) : List Nat :=
  events.filterMap fun
    | .sent len => some len
    | _ => none

/-- The identifier and the bytes of the message that a call asks to send. -/
def Op.message? {σ : Type} (cfg : Config) : Op σ → Option (CanId × Bytes)
  | .send payload => some (cfg.txId, payload)
  | .sendAs id payload => some (id, payload)
  | _ => none

namespace Record

variable {σ ε : Type} (r : Record σ ε)

/-- The identifier and the bytes of the message that a call begins to send. -/
def begun : Option (CanId × Bytes) :=
  match r.reply with
  | .verdict (.ok ()) => r.op.message? r.before.cfg
  | _ => none

/-- The single, first and consecutive frames that the link took. -/
def parts : List Frame := (takenOf r.offers).filter Frame.carriesPart

def sent : List Nat := sentLengths r.events

def effect : Effect := ⟨r.begun, r.parts, r.sent⟩

end Record

lemma sentLengths_sendEvent (event : Option Sender.Event) :
    sentLengths (event.toList.map sendEvent) = Sender.completions event := by
  rcases event with _ | ⟨len⟩ | cause <;> rfl

lemma sentLengths_append (u v : List Event) :
    sentLengths (u ++ v) = sentLengths u ++ sentLengths v :=
  List.filterMap_append ..

section Calls

variable {σ ε : Type} [Link σ ε] {x : Option Cargo} (now : Instant) (line : Tap σ)

/-- The frames with a part of a message that a link has taken. -/
def partsOn (line : Tap σ) : List Frame := line.taken.filter Frame.carriesPart

lemma carriesPart_flowControl {fc : FlowControl} {data : Bytes} (id : CanId) (remote : Bool)
    (h : cfg.encode? fc.toPdu = some data) : Frame.carriesPart ⟨id, data, remote⟩ = false := by
  have hread := Pdu.decode_flowControl (show Pdu.encode? _ _ (.flowControl ..) = _ from h)
  have hkind := Pdu.kind?_decode (f := ⟨id, data, remote⟩) (by simp [hread])
  rw [hread] at hkind
  rw [Frame.carriesPart, ← hkind]
  rfl

/-- Flow control carries no part of a message. -/
lemma partsOn_offerFlowControl (fc : FlowControl) (c : Channel) :
    partsOn (c.offerFlowControl fc line).2 = partsOn line := by
  unfold partsOn
  rcases hoffer : c.offerFlowControl fc line with ⟨_ | _, line'⟩
  · rw [Tap.taken_of_offer_error hoffer]
  · obtain ⟨data, hdata, htaken⟩ := Tap.taken_of_offer_ok hoffer
    rw [htaken, List.filter_append, List.filter_cons_of_neg, List.filter_nil, List.append_nil]
    simp [carriesPart_flowControl _ _ hdata]

/-- What comes of a frame of a message does not concern the sender. -/
lemma settle_frame (outcome : Receiver.Outcome) (c : Channel) :
    let turn := c.settle now outcome line
    turn.channel.cfg = c.cfg ∧ turn.channel.sender = c.sender ∧
      partsOn turn.line = partsOn line ∧ sentLengths turn.events = [] := by
  have hparts (fc : FlowControl) := partsOn_offerFlowControl line fc c
  unfold settle
  cases outcome with
  | answer fc =>
    specialize hparts fc
    dsimp only
    split
    · next line' hoffer => rw [hoffer] at hparts; exact ⟨rfl, rfl, hparts, rfl⟩
    · next e line' hoffer => rw [hoffer] at hparts; exact ⟨rfl, rfl, hparts, rfl⟩
  | refusal fc => exact ⟨rfl, rfl, hparts fc, rfl⟩
  | none | complete | failed => exact ⟨rfl, rfl, rfl, rfl⟩

lemma accept_moves (h : c.sender.Ready c.cfg x) (f : Frame) :
    let turn := c.accept now f line
    turn.channel.cfg = c.cfg ∧ partsOn turn.line = partsOn line ∧
      ∃ y, Move c.cfg x ⟨none, [], sentLengths turn.events⟩ y ∧
        turn.channel.sender.Ready c.cfg y := by
  unfold accept
  split
  · exact ⟨rfl, rfl, x, .rest x, h⟩
  · split
    · next status blockSize stMin hread =>
      obtain ⟨y, hmove, hready⟩ := h.accept now (.ofWire status blockSize stMin)
      rw [← sentLengths_sendEvent] at hmove
      exact ⟨rfl, rfl, y, hmove, hready⟩
    · next pdu hpdu =>
      obtain ⟨hcfg, hsender, hparts, hsent⟩ := settle_frame now line
        (c.receiver.accept c.cfg c.policy now (Pdu.decode f.data)).2
        { c with receiver := (c.receiver.accept c.cfg c.policy now (Pdu.decode f.data)).1 }
      refine ⟨hcfg, hparts, x, ?_, ?_⟩
      · rw [hsent]
        exact .rest x
      · rw [hsender]
        exact h

lemma retryFlowControl_frame :
    (c.retryFlowControl now line).1.cfg = c.cfg ∧
      (c.retryFlowControl now line).1.sender = c.sender ∧
      partsOn (c.retryFlowControl now line).2 = partsOn line := by
  unfold retryFlowControl
  split
  · exact ⟨rfl, rfl, rfl⟩
  · next fc hfc =>
    have hparts := partsOn_offerFlowControl line fc c
    split
    · next e line' hoffer => rw [hoffer] at hparts; exact ⟨rfl, rfl, hparts⟩
    · next line' hoffer => rw [hoffer] at hparts; exact ⟨rfl, rfl, hparts⟩

lemma partsOn_of_move {line line' : Tap σ} {y : Option Cargo} {e : Effect}
    (htaken : line'.taken = line.taken ++ e.frames) (h : Move cfg x e y) :
    partsOn line' = partsOn line ++ e.frames := by
  rw [partsOn, htaken, List.filter_append, h.filter_frames, partsOn]

lemma sendAs_moves (h : c.sender.Ready c.cfg x) (id : CanId) (payload : Bytes) :
    let turn := c.sendAs now id payload line
    turn.channel.cfg = c.cfg ∧ ∃ new y, partsOn turn.line = partsOn line ++ new ∧
      turn.channel.sender.Ready c.cfg y ∧
      ((∃ e, turn.value = .error e ∧ Move c.cfg x ⟨none, new, sentLengths turn.events⟩ y) ∨
        turn.value = .ok () ∧
          Move c.cfg x ⟨some (id, payload), new, sentLengths turn.events⟩ y) := by
  unfold sendAs
  obtain ⟨new, htaken, ⟨e, hvalue, y, hmove, hready⟩ | ⟨event, hvalue, y, hmove, hready⟩⟩ :=
    h.begin now id payload line
  · have hparts := partsOn_of_move htaken hmove
    refine ⟨rfl, new, y, hparts, hready, .inl ⟨e, ?_, ?_⟩⟩
    · simp only [hvalue, Except.map]
    · simp only [hvalue]
      exact hmove
  · have hparts := partsOn_of_move htaken hmove
    refine ⟨rfl, new, y, hparts, hready, .inr ⟨?_, ?_⟩⟩
    · simp only [hvalue, Except.map]
    · simp only [hvalue, sentLengths_sendEvent]
      exact hmove

lemma advance_moves (h : c.sender.Ready c.cfg x) :
    let turn := c.advance now line
    turn.channel.cfg = c.cfg ∧ ∃ new y, partsOn turn.line = partsOn line ++ new ∧
      turn.channel.sender.Ready c.cfg y ∧ Move c.cfg x ⟨none, new, sentLengths turn.events⟩ y := by
  obtain ⟨hcfg, hsender, hparts⟩ := retryFlowControl_frame (c := c) now line
  unfold advance
  rcases hretry : c.retryFlowControl now line with ⟨c', line'⟩
  rw [hretry] at hcfg hsender hparts
  dsimp only at hcfg hsender hparts ⊢
  rw [hcfg, hsender]
  obtain ⟨new, htaken, y, hmove, hready⟩ := h.advance now line'
  refine ⟨rfl, new, y, ?_, hready, ?_⟩
  · rw [partsOn_of_move htaken hmove, hparts]
  · have hcause (cause : Option Abort) :
        sentLengths (cause.toList.map (.failed .receive)) = [] := by cases cause <;> rfl
    rw [sentLengths_append, hcause, List.nil_append, sentLengths_sendEvent]
    exact hmove

end Calls

namespace Host

variable {σ ε : Type} [Link σ ε] {x : Option Cargo}

lemma sendAs_step {h : Host σ} (hready : h.channel.sender.Ready h.channel.cfg x) (now : Instant)
    (op : Op σ) {id : CanId} {payload : Bytes}
    (hop : op.message? h.channel.cfg = some (id, payload)) :
    let turn := h.channel.sendAs now id payload (Tap.mk h.line [])
    let r : Record σ ε :=
      ⟨now, op, h.channel, .verdict turn.value, turn.events, turn.line.offers, turn.channel⟩
    turn.channel.cfg = h.channel.cfg ∧
      ∃ y, Move h.channel.cfg x r.effect y ∧ turn.channel.sender.Ready h.channel.cfg y := by
  intro turn r
  obtain ⟨hcfg, new, y, hparts, hready', hcase⟩ :=
    sendAs_moves now (Tap.mk h.line []) hready id payload
  refine ⟨hcfg, y, ?_, hready'⟩
  have hnew : r.parts = new := hparts
  rcases hcase with ⟨e, hvalue, hmove⟩ | ⟨hvalue, hmove⟩
  · have hbegun : r.begun = none := by simp only [Record.begun, r, turn, hvalue]
    rw [Record.effect, hbegun, hnew]
    exact hmove
  · have hbegun : r.begun = some (id, payload) := by
      simp only [Record.begun, r, turn, hvalue, hop]
    rw [Record.effect, hbegun, hnew]
    exact hmove

/-- Every call of a channel is a step of what its sender has on its way. -/
theorem step_moves (h : Host σ) (hready : h.channel.sender.Ready h.channel.cfg x) (now : Instant)
    (op : Op σ) :
    (h.step now op).1.channel.cfg = h.channel.cfg ∧
      ∃ y, Move h.channel.cfg x (h.step now op).2.effect y ∧
        (h.step now op).1.channel.sender.Ready h.channel.cfg y := by
  have hrest : Move h.channel.cfg x {} x := .rest x
  cases op with
  | send payload => exact sendAs_step hready now (.send payload) rfl
  | sendAs id payload => exact sendAs_step hready now (.sendAs id payload) rfl
  | frame f =>
    obtain ⟨hcfg, hparts, y, hmove, hready'⟩ := accept_moves now (Tap.mk h.line []) hready f
    refine ⟨hcfg, y, ?_, hready'⟩
    have hnone : (h.step now (.frame f)).2.parts = [] := hparts
    have hbegun : (h.step now (.frame f)).2.begun = none := by
      simp only [Record.begun]
      split <;> rfl
    rw [Record.effect, hnone, hbegun]
    exact hmove
  | advance =>
    obtain ⟨hcfg, new, y, hparts, hready', hmove⟩ := advance_moves now (Tap.mk h.line []) hready
    refine ⟨hcfg, y, ?_, hready'⟩
    have hnew : (h.step now .advance).2.parts = new := hparts
    rw [Record.effect, hnew]
    exact hmove
  | collect room => exact ⟨rfl, x, hrest, hready⟩
  | cancel =>
    obtain ⟨y, hmove, hready'⟩ := hready.cancel
    exact ⟨rfl, y, hmove, hready'⟩
  | setPolicy policy => exact ⟨rfl, x, hrest, hready⟩
  | setLine line => exact ⟨rfl, x, hrest, hready⟩

/-- Throughout a run the sender is ready. -/
lemma ready_run {h : Host σ} (hready : h.channel.sender.Ready h.channel.cfg x)
    (calls : List (Instant × Op σ)) :
    (h.run calls).channel.cfg = h.channel.cfg ∧
      ∃ y, (h.run calls).channel.sender.Ready h.channel.cfg y := by
  induction calls generalizing h x with
  | nil => exact ⟨rfl, x, hready⟩
  | cons call calls ih =>
    obtain ⟨hcfg, y, -, hready'⟩ := h.step_moves hready call.1 call.2
    rw [← hcfg] at hready' ⊢
    exact ih hready'

end Host

/-! ### One stretch for each message -/

/-- A message that a channel began to send, with the calls from the one that began it up to the
next one that began another. -/
structure Stretch (σ ε : Type) where
  id : CanId
  payload : Bytes
  records : List (Record σ ε)

namespace Stretch

variable {σ ε : Type} (s : Stretch σ ε)

def parts : List Frame := s.records.flatMap Record.parts

def sent : List Nat := s.records.flatMap Record.sent

end Stretch

/-- The calls before the first message, and the stretch of every message. -/
def stretches {σ ε : Type} : List (Record σ ε) → List (Record σ ε) × List (Stretch σ ε)
  | [] => ([], [])
  | r :: rs =>
    let (lead, rest) := stretches rs
    match r.begun with
    | none => (r :: lead, rest)
    | some (id, payload) => ([], ⟨id, payload, r :: lead⟩ :: rest)

section Stretches

variable {σ ε : Type}

/-- No call is left out. -/
lemma records_of_stretches (rs : List (Record σ ε)) :
    (stretches rs).1 ++ (stretches rs).2.flatMap (·.records) = rs := by
  induction rs with
  | nil => rfl
  | cons r rs ih =>
    simp only [stretches]
    split
    · rw [List.cons_append, ih]
    · simp [ih]

/-- There is a stretch for every message begun, in the same order. -/
lemma messages_of_stretches (rs : List (Record σ ε)) :
    (stretches rs).2.map (fun s => (s.id, s.payload)) = rs.filterMap Record.begun := by
  induction rs with
  | nil => rfl
  | cons r rs ih =>
    simp only [stretches]
    split
    · next hbegun => rw [List.filterMap_cons_none hbegun, ih]
    · next id payload hbegun => rw [List.filterMap_cons_some hbegun, List.map_cons, ih]

/-- After the first `c.count` frames of a cargo came those up to the first `k`, and its length is
reported as sent if these are all. -/
structure Reaches (cfg : Config) (c : Cargo) (k : Nat) (parts : List Frame) (sent : List Nat) :
    Prop where
  count_le : c.count ≤ k
  le_length : k ≤ (frames cfg c.payload).length
  parts : parts = (((frames cfg c.payload).take k).drop c.count).map (⟨c.id, ·, false⟩)
  sent : sent = if k = (frames cfg c.payload).length then [c.payload.length] else []

/-- What is still to come of what is on its way. -/
def Lead (cfg : Config) (x : Option Cargo) (parts : List Frame) (sent : List Nat) : Prop :=
  match x with
  | none => parts = [] ∧ sent = []
  | some c => ∃ k, Reaches cfg c k parts sent

variable {parts : List Frame} {sent : List Nat} {o : Cargo} {f : Bytes}

/-- A cargo comes one frame further than after its next frame. -/
lemma Lead.next (hf : (frames cfg o.payload)[o.count]? = some f)
    (h : Lead cfg (o.next.left? cfg) parts sent) :
    ∃ k, o.count < k ∧
      Reaches cfg o k (⟨o.id, f, false⟩ :: parts) (o.next.sent cfg ++ sent) := by
  obtain ⟨hlt, hget⟩ := List.getElem?_eq_some_iff.1 hf
  have hdrop {k : Nat} (hk : o.count < k) : ((frames cfg o.payload).take k).drop o.count =
      f :: ((frames cfg o.payload).take k).drop (o.count + 1) := by
    rw [List.drop_eq_getElem_cons (by rw [List.length_take]; omega), List.getElem_take, hget]
  by_cases hend : o.count + 1 = (frames cfg o.payload).length
  · have hleft : o.next.left? cfg = none := if_neg (by simp only [Cargo.next]; omega)
    have hsent : o.next.sent cfg = [o.payload.length] := if_pos hend
    rw [hleft] at h
    obtain ⟨rfl, rfl⟩ := h
    refine ⟨o.count + 1, Nat.lt_succ_self _, Nat.le_succ _, hlt, ?_, ?_⟩
    · rw [hdrop (Nat.lt_succ_self _), List.drop_of_length_le (by rw [List.length_take]; omega)]
      rfl
    · rw [hsent, if_pos hend, List.append_nil]
  · have hleft : o.next.left? cfg = some o.next := if_pos (by simp only [Cargo.next]; omega)
    have hsent : o.next.sent cfg = [] := if_neg hend
    rw [hleft] at h
    obtain ⟨k, hcount, hle, hparts, hsent'⟩ := h
    refine ⟨k, hcount, Nat.le_of_succ_le hcount, hle, ?_, ?_⟩
    · rw [hdrop hcount, hparts]
      rfl
    · rw [hsent, hsent']
      rfl

/-- A call that begins no message moves on what was on its way before. -/
lemma Lead.of_move {s : Sender} {x y : Option Cargo} {ps : List Frame} {ls : List Nat}
    (hready : s.Ready cfg x) (hmove : Move cfg x ⟨none, ps, ls⟩ y) (h : Lead cfg y parts sent) :
    Lead cfg x (ps ++ parts) (ls ++ sent) := by
  cases hmove with
  | rest => exact h
  | quit =>
    obtain ⟨rfl, rfl⟩ := h
    cases x with
    | none => exact ⟨rfl, rfl⟩
    | some o =>
      have hlt := hready.lt_length
      refine ⟨o.count, Nat.le_refl _, Nat.le_of_lt hlt, ?_, (if_neg (Nat.ne_of_lt hlt)).symm⟩
      rw [List.drop_of_length_le (by rw [List.length_take]; omega)]
      rfl
  | next hs hc hf =>
    obtain ⟨k, -, hk⟩ := h.next hf
    exact ⟨k, hk⟩

/-- A message that a channel began to send, and how much of it went out: the link took its first
`k` frames, at least one, and its length is reported as sent if these are all. -/
def Stretch.Transmits (cfg : Config) (s : Stretch σ ε) : Prop :=
  Sendable cfg s.payload ∧ ∃ k, 1 ≤ k ∧ Reaches cfg ⟨s.id, s.payload, 0⟩ k s.parts s.sent

/-- A call that begins a message finds nothing on its way. -/
lemma transmits_of_move {x y : Option Cargo} {r : Record σ ε} {rs : List (Record σ ε)}
    {id : CanId} {payload : Bytes} (hbegun : r.begun = some (id, payload))
    (hmove : Move cfg x r.effect y)
    (h : Lead cfg y (rs.flatMap Record.parts) (rs.flatMap Record.sent)) :
    x = none ∧ Stretch.Transmits cfg ⟨id, payload, r :: rs⟩ := by
  unfold Stretch.Transmits Stretch.parts Stretch.sent
  rw [List.flatMap_cons, List.flatMap_cons]
  simp only [Record.effect, hbegun] at hmove
  generalize r.parts = ps at hmove ⊢
  generalize r.sent = ls at hmove ⊢
  cases hmove with
  | begin id hs hf =>
    obtain ⟨k, hk, hreach⟩ := Lead.next (o := ⟨id, payload, 0⟩) hf h
    exact ⟨rfl, hs, k, hk, hreach⟩

variable [Link σ ε]

/-- A run first moves on what is on its way, and then sends its messages one after another. -/
theorem stretches_trace {h : Host σ} {x : Option Cargo}
    (hready : h.channel.sender.Ready h.channel.cfg x) (calls : List (Instant × Op σ)) :
    let run := stretches (h.trace calls)
    Lead h.channel.cfg x (run.1.flatMap Record.parts) (run.1.flatMap Record.sent) ∧
      ∀ s ∈ run.2, s.Transmits h.channel.cfg := by
  induction calls generalizing h x with
  | nil =>
    have hquit : Lead h.channel.cfg x ([] ++ []) ([] ++ []) :=
      Lead.of_move hready (.quit x) ⟨rfl, rfl⟩
    exact ⟨hquit, by simp [Host.trace, stretches]⟩
  | cons call calls ih =>
    obtain ⟨hcfg, y, hmove, hready'⟩ := h.step_moves hready call.1 call.2
    rw [← hcfg] at hready'
    obtain ⟨hlead, hrest⟩ := ih hready'
    rw [hcfg] at hlead hrest
    simp only [Host.trace, stretches]
    split
    · next hbegun =>
      rw [Record.effect, hbegun] at hmove
      exact ⟨hlead.of_move hready hmove, hrest⟩
    · next id payload hbegun =>
      obtain ⟨rfl, htransmits⟩ := transmits_of_move hbegun hmove hlead
      refine ⟨⟨rfl, rfl⟩, fun s hs => ?_⟩
      rcases List.mem_cons.1 hs with rfl | hs
      · exact htransmits
      · exact hrest s hs

/-! ### Main statement -/

/-- **A channel sends its messages frame by frame, and none of them out of turn.** Whatever the
calls, their instants and the link, the frames of messages that the link takes are, message after
message in the order in which their sending began, the first `k` frames of the message for some
`k` of at least 1, under the identifier given for it; and its length is reported as sent, once,
exactly if these are all its frames. -/
theorem parts_of_run (hc : Fresh cfg c) (line : σ) (calls : List (Instant × Op σ)) :
    let records := Host.trace ⟨c, line⟩ calls
    let run := (stretches records).2
    run.map (fun s => (s.id, s.payload)) = records.filterMap Record.begun ∧
    records.flatMap Record.parts = run.flatMap Stretch.parts ∧
    records.flatMap Record.sent = run.flatMap Stretch.sent ∧
    ∀ s ∈ run,
      (frames cfg s.payload).map some = (units cfg s.payload).map cfg.encode? ∧
      (cfg.singleRoom < s.payload.length → (frames cfg s.payload).length = 1 +
        (s.payload.length - cfg.firstRoom s.payload.length + cfg.consecutiveRoom - 1) /
          cfg.consecutiveRoom) ∧
      ∃ k, 1 ≤ k ∧ k ≤ (frames cfg s.payload).length ∧
        s.parts = ((frames cfg s.payload).take k).map (⟨s.id, ·, false⟩) ∧
        s.sent = if k = (frames cfg s.payload).length then [s.payload.length] else [] := by
  intro records run
  obtain ⟨rfl, hready⟩ := hc.ready
  obtain ⟨⟨hparts, hsent⟩, hrun⟩ := stretches_trace (h := ⟨c, line⟩) hready calls
  have hall : records = (stretches records).1 ++ run.flatMap (·.records) :=
    (records_of_stretches records).symm
  refine ⟨messages_of_stretches records, ?_, ?_, fun s hs => ?_⟩
  · rw [hall, List.flatMap_append, hparts, List.nil_append, List.flatMap_assoc]
    rfl
  · rw [hall, List.flatMap_append, hsent, List.nil_append, List.flatMap_assoc]
    rfl
  · obtain ⟨hsendable, k, hk, hreach⟩ := hrun s hs
    refine ⟨map_some_frames hsendable, fun hlong => ?_, k, hk, hreach.le_length, hreach.parts,
      hreach.sent⟩
    rw [length_frames hsendable, length_units hsendable.valid hlong]

/-- A message of ten bytes in two frames, of which the link takes the second at the second try. -/
theorem parts_of_run_ten_bytes :
    let cfg : Config := { rxId := .standard 1 }
    let c : Channel :=
      ⟨cfg, cfg.policy, .new (.zeroed 4095) 4095, .new (.zeroed 4095) 4095⟩
    let calls : List (Instant × Op Quota) :=
      [(0, .send [0, 1, 2, 3, 4, 5, 6, 7, 8, 9]), (1, .frame ⟨.standard 1, [0x30, 0, 0], false⟩),
        (2, .advance), (3, .setLine ⟨none⟩), (4, .advance)]
    let records := Host.trace ⟨c, (⟨some 1⟩ : Quota)⟩ calls
    Fresh cfg c ∧
      records.flatMap Record.parts = (stretches records).2.flatMap Stretch.parts ∧
      records.map Record.sent = [[], [], [], [], [10]] := by
  intro cfg c calls records
  have hc : Fresh cfg c := .ofBuffers (.zeroed 4095) (.zeroed 4095) rfl
  exact ⟨hc, (parts_of_run hc (⟨some 1⟩ : Quota) calls).2.1, by decide +kernel⟩

end Stretches

end IsoTp.Channel
