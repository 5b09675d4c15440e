/-!
Why a transfer ends early and why a call is refused, and how each is told to a person.
-/

namespace IsoTp

/-- The protocol's four timers. `nAr` runs while the receiver gets a flow control frame onto the
link, `nBs` while the sender waits for one, `nCs` while the link keeps refusing the sender's
consecutive frame, and `nCr` while the receiver waits for one. -/
inductive Timer where
  | nAr
  | nBs
  | nCs
  | nCr
deriving DecidableEq, Repr

def Timer.name : Timer → String
  | nAr => "N_Ar"
  | nBs => "N_Bs"
  | nCs => "N_Cs"
  | nCr => "N_Cr"

/-- Why a transfer ended before its message was through. -/
inductive Abort where
  /-- The message is longer than the receiver's capacity. -/
  | tooLong
  /-- A consecutive frame came out of turn. -/
  | outOfTurn (expected got : Nat)
  | timeout (timer : Timer)
  /-- The peer refused the message. -/
  | refused
  /-- The peer asked to wait once too often. -/
  | tooManyWaits
  /-- A buffer was accessed outside its bounds, which no run of a channel does. -/
  | outOfBounds
deriving DecidableEq, Repr

/-- Why a call was refused. Errors of the link have type `ε`. -/
inductive Error (ε : Type) where
  | emptyPayload
  /-- A message is being sent. -/
  | busy
  | payloadTooLong (len capacity : Nat)
  /-- No frame can hold the unit. -/
  | unencodable
  | invalidConfig
  | outOfMemory
  /-- The message is longer than the room given for it. -/
  | noRoom (needed : Nat)
  /-- No message has arrived. -/
  | noMessage
  | aborted (cause : Abort)
  | link (e : ε)
deriving DecidableEq, Repr

def Abort.message : Abort → String
  | tooLong => "inbound message exceeds the receive capacity"
  | outOfTurn expected got => s!"sequence number mismatch (expected {expected}, got {got})"
  | timeout timer => timer.name ++ " timeout"
  | refused => "peer aborted the transfer (FlowControl overflow)"
  | tooManyWaits => "peer exceeded the FlowControl wait limit"
  | outOfBounds => "buffer accessed out of bounds"

def Error.message {ε : Type} [ToString ε] : Error ε → String
  | emptyPayload => "invalid argument"
  | busy => "a transmission is already in progress"
  | payloadTooLong len capacity =>
    s!"payload of {len} bytes exceeds the transmit capacity of {capacity}"
  | unencodable => "malformed ISO-TP frame"
  | invalidConfig => "invalid configuration"
  | outOfMemory => "buffer allocation failed"
  | noRoom needed => s!"output buffer too small ({needed} bytes needed)"
  | noMessage => "no completed message available"
  | aborted cause => cause.message
  | link e => "link error: " ++ toString e

end IsoTp
