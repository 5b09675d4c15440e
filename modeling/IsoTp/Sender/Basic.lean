import IsoTp.Buffer
import IsoTp.Link.Basic

/-!
The sending half of a channel: it cuts a message into frames and paces them.

A short message goes out in a single frame and is done. For a longer one the sender puts the
first frame on the link, keeps the message in its buffer, and waits for flow control. Cleared to
send, it offers one consecutive frame at a time, no sooner than the peer's separation time after
the one before, and waits again at the end of every block. A frame that the link refuses is
offered again later.

What to do next is worked out by `Sender.opening` and `Sender.due` from the state alone, and
`Sender.opened`, `Sender.placed` and `Sender.refused` note how the link took it; `Sender.begin`
and `Sender.advance` join the two with a link.
-/

namespace IsoTp

/-- A segmented message under way. -/
structure Transfer where
  /-- The identifier of its frames. -/
  id : CanId
  length : Nat
  /-- The bytes that are on the link. -/
  offset : Nat
  /-- The number of the next consecutive frame, modulo 16. -/
  nextSn : Nat := 1
  /-- The block size granted last, and how many frames are left of the block. -/
  blockSize : Nat := 0
  blockLeft : Nat := 0
  stMin : Duration := .zero
  /-- The requests to wait since the sender was last cleared, counted up to 255. -/
  waits : Nat := 0
  /-- When the last consecutive frame went out. -/
  lastSent : Option Instant := none
  /-- Since when the link has refused the next one. -/
  refusedSince : Option Instant := none
deriving DecidableEq, Repr

/-- Where a sender stands: without a message, waiting for flow control until a deadline, in the
middle of a block, after a message of `len` bytes, or after one that failed. -/
inductive Sender.Phase where
  | idle
  | waiting (t : Transfer) (deadline : Instant)
  | sending (t : Transfer)
  | done (len : Nat)
  | failed (cause : Abort)
deriving DecidableEq, Repr

structure Sender where
  phase : Sender.Phase
  buffer : Buffer
  /-- The longest message taken. -/
  capacity : Nat
deriving DecidableEq, Repr

/-- How far the latest message is, as the application sees it. -/
inductive Progress where
  | idle
  | sending
  | waiting
  /-- The link refused the last frame offered. -/
  | stalled
  | completed
  | failed (cause : Abort)
deriving DecidableEq, Repr

namespace Sender

/-- The end of a transfer: all `len` bytes are on the link, or it was given up. -/
inductive Event where
  | complete (len : Nat)
  | failed (cause : Abort)
deriving DecidableEq, Repr

/-- A sender that keeps messages of up to `capacity` bytes in `buffer`. -/
def new (buffer : Buffer) (capacity : Nat) : Sender := ⟨.idle, buffer, min capacity buffer.size⟩

/-- The transfer in flight. -/
def transfer? (s : Sender) : Option Transfer :=
  match s.phase with
  | .waiting t _ | .sending t => some t
  | _ => none

/-- A transfer is in flight. -/
abbrev Busy (s : Sender) : Prop := s.transfer?.isSome

def progress (s : Sender) : Progress :=
  match s.phase with
  | .idle => .idle
  | .waiting _ _ => .waiting
  | .sending t => if t.refusedSince.isSome then .stalled else .sending
  | .done _ => .completed
  | .failed cause => .failed cause

/-- Gives up the transfer in flight, if there is one. -/
def cancel (s : Sender) : Sender := if s.Busy then { s with phase := .idle } else s

/-- Ends the transfer with all `len` bytes on the link. -/
def finish (len : Nat) (s : Sender) : Sender × Option Event :=
  ({ s with phase := .done len }, some (.complete len))

/-- Ends the transfer with part of the message unsent. -/
def giveUp (cause : Abort) (s : Sender) : Sender × Option Event :=
  ({ s with phase := .failed cause }, some (.failed cause))

/-! ### Opening a transfer -/

/-- The frame that opens a transfer of `payload`, or why there is none. A first frame has 32 bits
for the length. -/
def opening {ε : Type} (cfg : Config) (payload : Bytes) (s : Sender) : Except (Error ε) Pdu :=
  let len := payload.length
  if s.Busy then .error .busy
  else if len = 0 then .error .emptyPayload
  else if s.capacity < len then .error (.payloadTooLong len s.capacity)
  else if len ≤ cfg.singleRoom then .ok (.single (.ofNat len) payload)
  else if 0x100000000 ≤ len then .error (.payloadTooLong len s.capacity)
  else .ok (.first (.ofNat len) (payload.take (cfg.firstRoom len)))

/-- The opening frame of `payload` is on the link. -/
def opened (cfg : Config) (now : Instant) (id : CanId) (payload : Bytes) (s : Sender) :
    Sender × Option Event :=
  let length := payload.length
  if length ≤ cfg.singleRoom then s.finish length
  else
    match s.buffer.write? 0 payload with
    | none => s.giveUp .outOfBounds
    | some buffer =>
      let t : Transfer := { id, length, offset := min length (cfg.firstRoom length) }
      ({ s with buffer, phase := .waiting t (cfg.clock.after now cfg.nBs) }, none)

/-! ### Flow control -/

/-- Takes in flow control from the peer. It counts only while the sender waits for it. -/
def accept (cfg : Config) (now : Instant) (fc : FlowControl) (s : Sender) :
    Sender × Option Event :=
  match s.phase with
  | .waiting t _ =>
    match fc.status with
    | .clearToSend =>
      let granted := fc.blockSize.toNat
      let t := { t with waits := 0, blockSize := granted, blockLeft := granted, stMin := fc.stMin }
      ({ s with phase := .sending t }, none)
    | .wait =>
      let waits := min (t.waits + 1) 255
      if cfg.waitLimit.any (·.toNat < waits) then s.giveUp .tooManyWaits
      else ({ s with phase := .waiting { t with waits } (cfg.clock.after now cfg.nBs) }, none)
    | .overflow => s.giveUp .refused
  | _ => (s, none)

/-! ### Consecutive frames -/

/-- What the sender has to do at an instant. -/
inductive Due where
  | nothing
  | expired (timer : Timer)
  /-- Stop, for all `len` bytes are on the link. -/
  | finished (len : Nat)
  /-- Offer the next part of the message in a consecutive frame. -/
  | frame (t : Transfer) (chunk : Bytes)
  /-- Stop, for the transfer leaves its buffer. -/
  | outOfBounds
deriving DecidableEq, Repr

def due (cfg : Config) (now : Instant) (s : Sender) : Due :=
  match s.phase with
  | .waiting _ deadline => if deadline ≤ now then .expired .nBs else .nothing
  | .sending t =>
    if t.length ≤ t.offset then .finished t.length
    else if t.refusedSince.any (cfg.clock.after · cfg.nCs ≤ now) then .expired .nCs
    else if t.lastSent.any (now < cfg.clock.after · t.stMin) then .nothing
    else
      match s.buffer.read? t.offset (min (t.length - t.offset) cfg.consecutiveRoom) with
      | some chunk => .frame t chunk
      | none => .outOfBounds
  | _ => .nothing

/-- The consecutive frame with `count` bytes of the message is on the link. -/
def placed (cfg : Config) (now : Instant) (t : Transfer) (count : Nat) (s : Sender) :
    Sender × Option Event :=
  let t := { t with
    offset := t.offset + count
    nextSn := (t.nextSn + 1) % 16
    lastSent := some now
    refusedSince := none }
  if t.length ≤ t.offset then s.finish t.length
  else if t.blockSize = 0 then ({ s with phase := .sending t }, none)
  else if 1 < t.blockLeft then
    ({ s with phase := .sending { t with blockLeft := t.blockLeft - 1 } }, none)
  else ({ s with phase := .waiting { t with blockLeft := 0 } (cfg.clock.after now cfg.nBs) }, none)

/-- The link refused the consecutive frame. -/
def refused (now : Instant) (t : Transfer) (s : Sender) : Sender :=
  { s with phase := .sending { t with refusedSince := some (t.refusedSince.getD now) } }

/-! ### On a link -/

/-- A sender and its link after a call, with what the call yields. -/
structure Turn (σ α : Type) where
  sender : Sender
  line : σ
  value : α

variable {σ ε : Type} [Link σ ε]

/-- Begins to send `payload` under an identifier. If the link refuses the opening frame, nothing
has happened. -/
def begin (cfg : Config) (now : Instant) (id : CanId) (payload : Bytes) (s : Sender) (line : σ) :
    Turn σ (Except (Error ε) (Option Event)) :=
  match s.opening cfg payload with
  | .error e => ⟨s, line, .error e⟩
  | .ok pdu =>
    match Link.offer cfg id pdu line with
    | (.error e, line) => ⟨s, line, .error e⟩
    | (.ok (), line) =>
      let (s, event) := s.opened cfg now id payload
      ⟨s, line, .ok event⟩

/-- Lets time pass: expires a timer, or offers a consecutive frame if one is due. -/
def advance (cfg : Config) (now : Instant) (s : Sender) (line : σ) : Turn σ (Option Event) :=
  match s.due cfg now with
  | .nothing => ⟨s, line, none⟩
  | .expired timer =>
    let (s, event) := s.giveUp (.timeout timer)
    ⟨s, line, event⟩
  | .finished len =>
    let (s, event) := s.finish len
    ⟨s, line, event⟩
  | .outOfBounds =>
    let (s, event) := s.giveUp .outOfBounds
    ⟨s, line, event⟩
  | .frame t chunk =>
    match Link.offer cfg t.id (.consecutive (.ofNat t.nextSn) chunk) line with
    | (.error _, line) => ⟨s.refused now t, line, none⟩
    | (.ok (), line) =>
      let (s, event) := s.placed cfg now t chunk.length
      ⟨s, line, event⟩

end Sender

end IsoTp
