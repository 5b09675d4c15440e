import IsoTp.Proofs.Receiver.Refinement

/-!
A receiver reassembles as an assembly does.

The two are run side by side through a list of calls: each call yields the same on both sides, so
nothing that a caller sees tells them apart. While a reception is under way, what the assembly
keeps are the pieces that came since the last first frame, and a consecutive frame acts on these.
-/

namespace IsoTp.Assembly

open Receiver (Outcome Status Reply Op)

variable {r : Receiver} {p : Phase} (cfg : Config) (policy : FlowPolicy) (now : Instant)

/-! ### Runs -/

/-- A receiver's host and an assembly's that are given the same. -/
structure Together (h : Receiver.Host) (a : Host) : Prop where
  refines : Refines h.receiver a.phase
  capacity : h.receiver.capacity = a.capacity
  cfg : h.cfg = a.cfg
  policy : h.policy = a.policy

/-- A call whose unit, if it has one, is sound. -/
def SoundOp : Op → Prop
  | .pdu pdu => Sound pdu
  | _ => True

lemma Agrees.together {α : Type} {h : Receiver.Host} {a : Host} {x : Receiver × α}
    {y : Phase × α} (hx : Agrees h.receiver.capacity x y) (ht : Together h a) :
    Together { h with receiver := x.1 } { a with phase := y.1 } :=
  ⟨hx.refines, hx.capacity_eq.trans ht.capacity, ht.cfg, ht.policy⟩

lemma step_postpone (a : Host) (now : Instant) (fc : FlowControl) (deadline : Instant) :
    a.step now (.postpone fc deadline) =
      ({ a with phase := a.phase.setOwed (some fc) deadline }, .none) := by
  obtain ⟨_ | _ | _ | _, _⟩ := a <;> rfl

lemma step_answered (a : Host) (now deadline : Instant) :
    a.step now (.answered deadline) =
      ({ a with phase := a.phase.setOwed none deadline }, .none) := by
  obtain ⟨_ | _ | _ | _, _⟩ := a <;> rfl

/-- Each call yields the same and keeps the two together. -/
theorem Together.step {h : Receiver.Host} {a : Host} (ht : Together h a) (now : Instant) (op : Op)
    (hop : SoundOp op) : Together (h.step now op).1 (a.step now op).1 ∧
      (h.step now op).2 = (a.step now op).2 := by
  have hr := ht.refines
  cases op with
  | pdu pdu =>
    have hx := hr.accept h.cfg h.policy now hop
    have heq : accept a.capacity a.cfg a.policy now pdu a.phase =
        accept h.receiver.capacity h.cfg h.policy now pdu a.phase := by
      rw [ht.capacity, ht.cfg, ht.policy]
    simp only [Host.step, heq]
    exact ⟨hx.together ht, congrArg Reply.outcome hx.yields⟩
  | advance =>
    exact ⟨(hr.advance now).together ht, congrArg Reply.expired (hr.advance now).yields⟩
  | collect room =>
    exact ⟨(hr.collect room).together ht, congrArg Reply.collected (hr.collect room).yields⟩
  | clear => exact ⟨⟨hr.clear, ht.capacity, ht.cfg, ht.policy⟩, rfl⟩
  | postpone fc deadline =>
    rw [step_postpone]
    exact ⟨(hr.postpone fc deadline).together ht, rfl⟩
  | answered deadline =>
    rw [step_answered]
    exact ⟨(hr.answered deadline).together ht, rfl⟩
  | setPolicy policy => exact ⟨⟨hr, ht.capacity, ht.cfg, rfl⟩, rfl⟩
  | setConfig cfg => exact ⟨⟨hr, ht.capacity, rfl, ht.policy⟩, rfl⟩

/-- What the caller of a receiver sees of a call: what it yields, and the status, the message and
the flow control owed after it. -/
structure Sight where
  reply : Reply
  status : Status
  message : Bytes
  owed : Option FlowControl

def sight (x : Reply × Phase) : Sight := ⟨x.1, x.2.status, x.2.message, x.2.owed⟩

/-- What is seen of a receiver, in the same terms. -/
def recorded (x : Receiver.Record) : Sight :=
  ⟨x.reply, x.after.status, x.after.message, x.after.owed⟩

/-- No list of calls tells the two apart. -/
lemma Together.trace {h : Receiver.Host} {a : Host} (ht : Together h a)
    {calls : List (Instant × Op)} (hcalls : ∀ call ∈ calls, SoundOp call.2) :
    (h.trace calls).map recorded = (a.trace calls).map sight := by
  induction calls generalizing h a with
  | nil => rfl
  | cons call calls ih =>
    obtain ⟨hnext, hreply⟩ := ht.step call.1 call.2 (hcalls call (by simp))
    have hrep := hnext.refines.represents
    have hseen : recorded ⟨call.1, call.2, h.receiver, (h.step call.1 call.2).2,
        (h.step call.1 call.2).1.receiver⟩ =
          sight ((a.step call.1 call.2).2, (a.step call.1 call.2).1.phase) := by
      simp only [recorded, sight, hreply, hrep.status, hrep.message, hrep.owed]
    have hrest := ih hnext fun c hc => hcalls c (by simp [hc])
    simp only [Receiver.Host.trace, Host.trace, List.map_cons, hseen, hrest]

/-! ### The pieces that an assembly keeps -/

/-- The declared length and the data of a first frame, with the data of the consecutive frames
after it. -/
structure Pieces where
  total : Nat
  head : Bytes
  parts : List Bytes

/-- The pieces after one more call. -/
def Pieces.after (x : Option Pieces) : Op → Option Pieces
  | .pdu (.first len data) => some ⟨len.toNat, data, []⟩
  | .pdu (.consecutive _ data) => x.map fun x => { x with parts := x.parts ++ [data] }
  | _ => x

/-- The pieces since the last first frame of a list of calls. -/
def Pieces.since (calls : List (Instant × Op)) : Option Pieces :=
  calls.foldl (fun x call => Pieces.after x call.2) none

def Underway.pieces (m : Underway) : Pieces := ⟨m.total, m.head, m.parts⟩

/-- A message under way has the pieces that have come. -/
def Gathered (x : Option Pieces) : Phase → Prop
  | .underway m => x = some m.pieces
  | _ => True

lemma Gathered.consecutive {x : Option Pieces} {m : Underway} (hx : x = some m.pieces)
    (policy : FlowPolicy) (deadline : Instant) (sn : Nat) (data : Bytes) :
    Gathered (x.map fun x => { x with parts := x.parts ++ [data] })
      (Assembly.consecutive policy deadline sn data m).1 := by
  rw [consecutive_eq, hx]
  split
  · trivial
  · split
    · trivial
    · split <;> rfl

lemma Gathered.accept {x : Option Pieces} (hx : Gathered x p) (capacity : Nat) (pdu : Pdu) :
    Gathered (Pieces.after x (.pdu pdu)) (Assembly.accept capacity cfg policy now pdu p).1 := by
  cases pdu with
  | single len data =>
    cases p with
    | done message => trivial
    | idle | underway | failed => simp only [Assembly.accept]; split <;> trivial
  | first len data =>
    cases p with
    | done message => trivial
    | idle | underway | failed => simp only [Assembly.accept]; split <;> trivial
  | consecutive sn data =>
    cases p with
    | underway m => exact Gathered.consecutive hx ..
    | idle | done | failed => trivial
  | flowControl | invalid => cases p <;> exact hx

lemma Gathered.step {x : Option Pieces} {a : Host} (hx : Gathered x a.phase) (now : Instant)
    (op : Op) : Gathered (Pieces.after x op) (a.step now op).1.phase := by
  obtain ⟨phase, capacity, cfg, policy⟩ := a
  cases op with
  | pdu pdu => exact hx.accept ..
  | advance =>
    cases phase with
    | underway m => simp only [Host.step, Assembly.advance]; split <;> trivial
    | idle | done | failed => trivial
  | collect room =>
    cases phase with
    | done message => simp only [Host.step, Assembly.collect]; split <;> trivial
    | underway m => exact hx
    | idle | failed => trivial
  | clear => trivial
  | postpone fc deadline => cases phase <;> exact hx
  | answered deadline => cases phase <;> exact hx
  | setPolicy policy => exact hx
  | setConfig cfg => exact hx

/-- The assembly after a list of calls. -/
def Host.run (a : Host) (calls : List (Instant × Op)) : Host :=
  calls.foldl (fun a call => (a.step call.1 call.2).1) a

lemma Gathered.run {x : Option Pieces} {a : Host} (hx : Gathered x a.phase)
    (calls : List (Instant × Op)) :
    Gathered (calls.foldl (fun x call => Pieces.after x call.2) x) (a.run calls).phase := by
  induction calls generalizing x a with
  | nil => exact hx
  | cons call calls ih => exact ih (hx.step call.1 call.2)

lemma Together.run {h : Receiver.Host} {a : Host} (ht : Together h a)
    {calls : List (Instant × Op)} (hcalls : ∀ call ∈ calls, SoundOp call.2) :
    Together (h.run calls) (a.run calls) := by
  induction calls generalizing h a with
  | nil => exact ht
  | cons call calls ih =>
    exact ih (ht.step call.1 call.2 (hcalls call (by simp))).1 fun c hc => hcalls c (by simp [hc])

/-! ### Main statement -/

/-- What a consecutive frame does to a receiver: it fails a reception if it is out of turn, and
else adds its data, which completes the message once the declared length is reached. Where no
reception is under way it does nothing. -/
def Continues (x : Option Pieces) (sn : UInt8) (data : Bytes) (before after : Receiver)
    (reply : Reply) : Prop :=
  if before.status = .receiving then
    ∃ m, x = some m ∧
      let turn := (m.parts.length + 1) % 16
      let bytes := m.head ++ (m.parts ++ [data]).flatten
      if sn.toNat ≠ turn then
        reply = .outcome (.failed (.outOfTurn turn sn.toNat)) ∧ after.status = .failed
      else if m.total ≤ bytes.length then
        reply = .outcome (.complete m.total) ∧ after.status = .done ∧
          after.message = bytes.take m.total
      else after.status = .receiving ∧ ∀ len, reply ≠ .outcome (.complete len)
  else after = before ∧ reply = .outcome .none

/-- Where no reception is under way, a consecutive frame does nothing. -/
lemma accept_consecutive_of_status_ne (hr : r.status ≠ .receiving) (sn : UInt8) (data : Bytes) :
    r.accept cfg policy now (.consecutive sn data) = (r, .none) := by
  obtain ⟨_ | i | len | cause, buffer, capacity⟩ := r
  · rfl
  · exact absurd rfl hr
  · rfl
  · rfl

lemma Together.continues {h : Receiver.Host} {a : Host} (ht : Together h a) {x : Option Pieces}
    (hx : Gathered x a.phase) (now : Instant) (sn : UInt8) (data : Bytes) :
    Continues x sn data h.receiver (h.step now (.pdu (.consecutive sn data))).1.receiver
      (h.step now (.pdu (.consecutive sn data))).2 := by
  unfold Continues
  split
  · next hreceiving =>
    obtain ⟨hnext, hreply⟩ := ht.step now (.pdu (.consecutive sn data)) trivial
    have hrep := hnext.refines.represents
    rw [ht.refines.represents.status] at hreceiving
    obtain ⟨phase, capacity, cfg, policy⟩ := a
    cases phase with
    | underway m =>
      refine ⟨_, hx, ?_⟩
      have hbytes : m.head ++ (m.parts ++ [data]).flatten = m.collected ++ data := by
        simp [Underway.collected]
      have hstep : Host.step ⟨.underway m, capacity, cfg, policy⟩ now
          (.pdu (.consecutive sn data)) =
            let y := Assembly.consecutive policy (cfg.clock.after now cfg.nCr) sn.toNat data m
            (⟨y.1, capacity, cfg, policy⟩, .outcome y.2) := rfl
      simp only [hstep, consecutive_eq] at hrep hreply
      rw [hreply, hrep.status, hrep.message]
      simp only [Underway.pieces, hbytes]
      rw [show (m.parts.length + 1) % 16 = m.nextSn from rfl]
      split
      · exact ⟨rfl, rfl⟩
      · split
        · exact ⟨rfl, rfl, rfl⟩
        · split <;> exact ⟨rfl, by simp⟩
    | idle | done | failed => cases hreceiving
  · next hstatus =>
    have heq := accept_consecutive_of_status_ne h.cfg h.policy now hstatus sn data
    simp only [Receiver.Host.step, heq, and_self]

/-- **A receiver reassembles as an assembly does.** Whatever the buffer, the capacity and the
calls, the two yield the same and show the same status, message and owed flow control after each
call; and after any calls a consecutive frame acts on the pieces since the last first frame. -/
theorem trace_eq_assembly (buffer : Buffer) (capacity : Nat) (cfg : Config) (policy : FlowPolicy)
    (calls : List (Instant × Op)) (hcalls : ∀ call ∈ calls, SoundOp call.2) :
    (Receiver.Host.trace ⟨.new buffer capacity, cfg, policy⟩ calls).map recorded =
        (Host.trace ⟨.idle, min capacity buffer.size, cfg, policy⟩ calls).map sight ∧
      ∀ u v, calls = u ++ v → ∀ now sn data,
        let h := Receiver.Host.run ⟨.new buffer capacity, cfg, policy⟩ u
        let next := h.step now (.pdu (.consecutive sn data))
        Continues (Pieces.since u) sn data h.receiver next.1.receiver next.2 := by
  have ht : Together ⟨.new buffer capacity, cfg, policy⟩
      ⟨.idle, min capacity buffer.size, cfg, policy⟩ :=
    ⟨refines_new buffer capacity, rfl, rfl, rfl⟩
  refine ⟨ht.trace hcalls, fun u v huv now sn data => ?_⟩
  have hu : ∀ call ∈ u, SoundOp call.2 := fun c hc => hcalls c (by simp [huv, hc])
  have hx : Gathered none (.idle : Phase) := trivial
  exact (ht.run hu).continues (hx.run (a := ⟨.idle, _, cfg, policy⟩) u) now sn data

/-- A message in two frames, of which the second has padding, then one in a single frame. -/
theorem trace_eq_assembly_two_messages :
    let calls : List (Instant × Op) :=
      [(0, .pdu (.first 8 [1, 2, 3, 4, 5, 6])), (1, .pdu (.consecutive 1 [7, 8, 0xCC])),
        (2, .collect 8), (3, .pdu (.single 2 [9, 10, 0xCC])), (4, .collect 1)]
    (∀ call ∈ calls, SoundOp call.2) ∧
      (Receiver.Host.trace ⟨.new (.zeroed 10) 8, {}, ⟨4, .zero⟩⟩ calls).map recorded =
        (Host.trace ⟨.idle, 8, {}, ⟨4, .zero⟩⟩ calls).map sight := by
  intro calls
  have hcalls : ∀ call ∈ calls, SoundOp call.2 := by simp [calls, SoundOp, Sound]
  exact ⟨hcalls, (trace_eq_assembly (.zeroed 10) 8 {} ⟨4, .zero⟩ calls hcalls).1⟩

end IsoTp.Assembly
