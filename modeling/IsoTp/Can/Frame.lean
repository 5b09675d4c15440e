import IsoTp.Bytes

/-!
CAN identifiers, frames, and the payload sizes that a frame can have.
-/

namespace IsoTp

/-- An identifier of 11 bits (standard) or 29 bits (extended). The two ranges are apart: a
standard identifier differs from the extended one of the same number. -/
inductive CanId where
  | standard (n : Fin 0x800)
  | extended (n : Fin 0x20000000)
deriving DecidableEq, Repr

namespace CanId

/-- The standard identifier of number `n`, if it has 11 bits. -/
def standard? (n : Nat) : Option CanId :=
  if h : n < 0x800 then some (.standard ⟨n, h⟩) else none

/-- The extended identifier of number `n`, if it has 29 bits. -/
def extended? (n : Nat) : Option CanId :=
  if h : n < 0x20000000 then some (.extended ⟨n, h⟩) else none

end CanId

/-- A frame on the bus. A remote frame asks for data and is no part of a message. -/
structure Frame where
  id : CanId
  data : Bytes
  remote : Bool := false
deriving DecidableEq, Repr

/-! ### Payload sizes -/

namespace FrameLength

/-- The payload size of classic CAN, the largest that needs no CAN FD. -/
def classic : Nat := 8

/-- The sizes a link can be configured for: classic CAN, then CAN FD. -/
def all : List Nat := [8, 12, 16, 20, 24, 32, 48, 64]

/-- A size that a link can be configured for. -/
abbrev Legal (n : Nat) : Prop := n ∈ all

/-- The least size a frame can have that holds `used` bytes: up to 8 every size exists, above
only those of `all`. -/
def roundUp (used : Nat) : Nat :=
  if used ≤ classic then used else (all.find? (used ≤ ·)).getD 64

end FrameLength

end IsoTp
