import IsoTp.Config

/-!
The frames of a message, all at once.

This says which frames a message consists of and in which order, with no word on when they go
out. It is what a sender's frames are measured against.
-/

namespace IsoTp.Segmentation

/-- The bytes in pieces of `room`, the last of which may be shorter. -/
def pieces (room : Nat) (data : Bytes) : List Bytes :=
  if room = 0 ∨ data = [] then [] else data.take room :: pieces room (data.drop room)
termination_by data.length
decreasing_by
  have := List.length_pos_iff.2 (show data ≠ [] by simp_all)
  simp only [List.length_drop]
  omega

/-- The units of a message: a single frame if it has room, else a first frame and the rest in
consecutive frames, numbered from 1 modulo 16. -/
def units (cfg : Config) (payload : Bytes) : List Pdu :=
  let len := payload.length
  if len ≤ cfg.singleRoom then [.single (.ofNat len) payload]
  else
    let cut := cfg.firstRoom len
    .first (.ofNat len) (payload.take cut) ::
      (pieces cfg.consecutiveRoom (payload.drop cut)).mapIdx fun i data =>
        .consecutive (.ofNat ((i + 1) % 16)) data

/-- The frames of a message. -/
def frames (cfg : Config) (payload : Bytes) : List Bytes :=
  (units cfg payload).filterMap cfg.encode?

end IsoTp.Segmentation
