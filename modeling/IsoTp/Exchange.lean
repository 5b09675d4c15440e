import IsoTp.Channel.Basic

/-!
Two channels that talk to each other over a bus with faults.

The parties share a clock. In each round the frames that the first has put on its link reach the
second, then those of the second reach the first, and then both are given the time. On the way a
frame may be lost, doubled, cut short or altered.
-/

namespace IsoTp.Exchange

/-- The two parties. -/
inductive Side where
  | a
  | b
deriving DecidableEq, Repr

def Side.other : Side → Side
  | a => b
  | b => a

/-! ### Faults -/

/-- What can happen to a frame on the bus. -/
inductive Effect where
  | drop
  | double
  /-- Only the first `len` bytes arrive. -/
  | cut (len : Nat)
  /-- The byte at `index`, if there is one, arrives with the bits of `mask` inverted. -/
  | invert (index : Nat) (mask : UInt8)
deriving DecidableEq, Repr

/-- Something that happens to the frame of number `index`, from 0, of those that a party sends. -/
structure Fault where
  sender : Side
  index : Nat
  effect : Effect
deriving DecidableEq, Repr

namespace Effect

/-- The data that arrives. -/
def onData (data : Bytes) : Effect → Bytes
  | cut len => data.take len
  | invert index mask => data.modify index (· ^^^ mask)
  | drop | double => data

/-- How many copies arrive, if this effect comes after others that leave `n`. -/
def onCopies (n : Nat) : Effect → Nat
  | drop => 0
  | double => 2
  | cut _ | invert _ _ => n

end Effect

/-- The frames that arrive in place of one, its faults taken in order. -/
def arrivals (effects : List Effect) (frame : Frame) : List Frame :=
  .replicate (effects.foldl Effect.onCopies 1)
    { frame with data := effects.foldl Effect.onData frame.data }

/-! ### Parties -/

/-- A channel, the frames it has put on its link and nobody has fetched, how many were fetched
before, and the events it has raised. -/
structure Party (σ : Type) where
  channel : Channel
  line : Tap σ
  fetched : Nat := 0
  events : List Event := []

/-- What happens on the bus: a frame sets out, or a party fails to answer one. -/
inductive Entry (ε : Type) where
  | frame (now : Instant) (sender : Side) (f : Frame)
  | error (now : Instant) (receiver : Side) (e : Error ε)

namespace Party

variable {σ ε : Type} [Link σ ε]

/-- The party after a call of its channel. -/
def after {α : Type} (p : Party σ) (turn : Channel.Turn (Tap σ) α) : Party σ :=
  { p with channel := turn.channel, line := turn.line, events := p.events ++ turn.events }

def send (now : Instant) (payload : Bytes) (p : Party σ) : Party σ × Except (Error ε) Unit :=
  let turn := p.channel.send now payload p.line
  (p.after turn, turn.value)

def advance (now : Instant) (p : Party σ) : Party σ := p.after (p.channel.advance now p.line)

/-- Takes in frames one after another; yields the errors. -/
def acceptAll (now : Instant) : List Frame → Party σ → Party σ × List (Error ε)
  | [], p => (p, [])
  | f :: fs, p =>
    let turn := p.channel.accept now f p.line
    let (p, errors) := acceptAll now fs (p.after turn)
    match turn.value with
    | .ok () => (p, errors)
    | .error e => (p, e :: errors)

/-- The party with its frames fetched. -/
def fetch (p : Party σ) : Party σ :=
  { p with line := p.line.clear, fetched := p.fetched + p.line.taken.length }

end Party

/-! ### Rounds -/

variable {σ ε : Type} [Link σ ε]

/-- Hands the frames of `sender`, the first of which has the number `index`, to the other party. -/
def deliver (faults : List Fault) (now : Instant) (sender : Side) :
    Nat → List Frame → Party σ → Party σ × List (Entry ε)
  | _, [], p => (p, [])
  | index, f :: fs, p =>
    let effects := (faults.filter fun x => x.sender = sender ∧ x.index = index).map (·.effect)
    let (p, errors) := p.acceptAll now (arrivals effects f)
    let (p, entries) := deliver faults now sender (index + 1) fs p
    (p, .frame now sender f :: (errors.map (.error now sender.other) ++ entries))

/-- Two parties at an instant. -/
structure State (σ : Type) where
  a : Party σ
  b : Party σ
  now : Instant := 0

namespace State

/-- One round, `period` microseconds long, with what happens in it. -/
def round (faults : List Fault) (period : Nat) (s : State σ) : State σ × List (Entry ε) :=
  let (b, there) := deliver faults s.now .a s.a.fetched s.a.line.taken s.b
  let (a, back) := deliver faults s.now .b b.fetched b.line.taken s.a.fetch
  ({ a := a.advance s.now
     b := b.fetch.advance s.now
     now := Instant.after s.now (.ofMicros period) },
    there ++ back)

/-- A number of rounds, with what happens in them. -/
def rounds (faults : List Fault) (period : Nat) : Nat → State σ → State σ × List (Entry ε)
  | 0, s => (s, [])
  | n + 1, s =>
    let (s, entries) := s.round faults period
    let (s, later) := rounds faults period n s
    (s, entries ++ later)

end State

end IsoTp.Exchange
