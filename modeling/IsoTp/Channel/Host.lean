import IsoTp.Channel.Basic

/-!
A channel with its link, run through a list of calls.

A run is a list of calls, each at an instant of its own; nothing is assumed of the instants. Its
trace tells of every call what it yielded, the events it raised and the frames it offered to the
link, whatever the link.
-/

namespace IsoTp.Channel

/-- A channel and its link. -/
structure Host (σ : Type) where
  channel : Channel
  line : σ

/-- A call to a channel, or the exchange of its link for another. -/
inductive Op (σ : Type) where
  | send (payload : Bytes)
  | sendAs (id : CanId) (payload : Bytes)
  | frame (f : Frame)
  | advance
  | collect (room : Nat)
  | cancel
  | setPolicy (policy : FlowPolicy)
  | setLine (line : σ)

/-- What a call yields. -/
inductive Reply (ε : Type) where
  | none
  | verdict (result : Except (Error ε) Unit)
  | progress (p : Progress)
  | collected (result : Except (Error Empty) Bytes)

/-- A call with its time, what it yielded, the events it raised, the frames it offered to the link,
and the channel before and after it. -/
structure Record (σ ε : Type) where
  now : Instant
  op : Op σ
  before : Channel
  reply : Reply ε
  events : List Event
  offers : List Offer
  after : Channel

namespace Host

variable {σ ε : Type} [Link σ ε]

/-- One call at an instant, with what came of it. -/
def step (h : Host σ) (now : Instant) (op : Op σ) : Host σ × Record σ ε :=
  let c := h.channel
  let moved {α : Type} (turn : Turn (Tap σ) α) (reply : α → Reply ε) : Host σ × Record σ ε :=
    (⟨turn.channel, turn.line.line⟩,
      ⟨now, op, c, reply turn.value, turn.events, turn.line.offers, turn.channel⟩)
  let still (after : Channel) (line : σ) (reply : Reply ε) : Host σ × Record σ ε :=
    (⟨after, line⟩, ⟨now, op, c, reply, [], [], after⟩)
  match op with
  | .send payload => moved (c.send now payload (Tap.mk h.line [])) .verdict
  | .sendAs id payload => moved (c.sendAs now id payload (Tap.mk h.line [])) .verdict
  | .frame f => moved (c.accept now f (Tap.mk h.line [])) .verdict
  | .advance => moved (c.advance now (Tap.mk h.line [])) .progress
  | .collect room =>
    let (after, result) := c.collect room
    still after h.line (.collected result)
  | .cancel => still c.cancel h.line .none
  | .setPolicy policy => still (c.setPolicy policy) h.line .none
  | .setLine line => still c line .none

/-- The host after a list of calls. -/
def run (h : Host σ) (calls : List (Instant × Op σ)) : Host σ :=
  calls.foldl (fun h call => (h.step call.1 call.2).1) h

/-- What came of each of a list of calls. -/
def trace (h : Host σ) : List (Instant × Op σ) → List (Record σ ε)
  | [] => []
  | (now, op) :: calls =>
    let (h, record) := h.step now op
    record :: h.trace calls

@[simp] theorem run_nil (h : Host σ) : h.run [] = h := rfl

@[simp] theorem run_cons (h : Host σ) (call : Instant × Op σ) (calls : List (Instant × Op σ)) :
    h.run (call :: calls) = (h.step call.1 call.2).1.run calls := rfl

end Host

end IsoTp.Channel
