import IsoTp.Sender.Basic

/-!
A sender with its parameters and its link, run through a list of calls.
-/

namespace IsoTp.Sender

/-- A sender with the parameters that its calls are given and the link they use. -/
structure Host (σ : Type) where
  sender : Sender
  cfg : Config
  line : σ

/-- A call to the sender, or a change of what later calls are given. -/
inductive Op (σ : Type) where
  | begin (id : CanId) (payload : Bytes)
  | flowControl (fc : FlowControl)
  | advance
  | cancel
  | setConfig (cfg : Config)
  | setLine (line : σ)

/-- What a call yields. -/
inductive Reply (ε : Type) where
  | none
  | begun (result : Except (Error ε) (Option Event))
  | event (e : Option Event)

/-- A call with its time, what it yielded, the frames it offered to the link, and the sender before
and after it. -/
structure Record (σ ε : Type) where
  now : Instant
  op : Op σ
  before : Sender
  reply : Reply ε
  offers : List Offer
  after : Sender

namespace Host

variable {σ ε : Type}

/-- A sender over a buffer of `size` zero bytes. -/
def new (cfg : Config) (capacity size : Nat) (line : σ) : Host σ :=
  ⟨.new (.zeroed size) capacity, cfg, line⟩

variable [Link σ ε]

/-- One call at an instant, with the frames it offers to the link. -/
def step (h : Host σ) (now : Instant) (op : Op σ) : Host σ × Record σ ε :=
  let before := h.sender
  let still (h : Host σ) : Host σ × Record σ ε := (h, ⟨now, op, before, .none, [], h.sender⟩)
  match op with
  | .begin id payload =>
    let turn := h.sender.begin h.cfg now id payload (Tap.mk h.line [])
    ({ h with sender := turn.sender, line := turn.line.line },
      ⟨now, op, before, .begun turn.value, turn.line.offers, turn.sender⟩)
  | .flowControl fc =>
    let (sender, event) := h.sender.accept h.cfg now fc
    ({ h with sender }, ⟨now, op, before, .event event, [], sender⟩)
  | .advance =>
    let turn := h.sender.advance h.cfg now (Tap.mk h.line [])
    ({ h with sender := turn.sender, line := turn.line.line },
      ⟨now, op, before, .event turn.value, turn.line.offers, turn.sender⟩)
  | .cancel => still { h with sender := h.sender.cancel }
  | .setConfig cfg => still { h with cfg }
  | .setLine line => still { h with line }

/-- The host after a list of calls. -/
def run (h : Host σ) (calls : List (Instant × Op σ)) : Host σ :=
  calls.foldl (fun h call => (h.step call.1 call.2).1) h

/-- What came of each of a list of calls. -/
def trace (h : Host σ) : List (Instant × Op σ) → List (Record σ ε)
  | [] => []
  | (now, op) :: calls =>
    let (h, record) := h.step now op
    record :: h.trace calls

end Host

end IsoTp.Sender
