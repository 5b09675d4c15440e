import Mathlib.Tactic.Lemma
import IsoTp.Segmentation
import IsoTp.Proofs.Pdu.Kind
import IsoTp.Proofs.Pdu.RoundTrip

/-!
The frames of a message one by one.

The first frame of a long message carries as much as it has room for, and so does every
consecutive frame but the last. How far the first `k` frames reach is therefore a product, and
it tells which bytes the next frame carries and whether there is one.
-/

namespace IsoTp.Segmentation

/-! ### Pieces -/

variable {room : Nat}

lemma getElem?_pieces (hroom : 0 < room) (data : Bytes) (i : Nat) : (pieces room data)[i]? =
    if i * room < data.length then some ((data.drop (i * room)).take room) else none := by
  fun_induction pieces room data generalizing i with
  | case1 data h =>
    have hnil : data = [] := h.resolve_left (by omega)
    simp [hnil]
  | case2 data h ih =>
    rw [not_or] at h
    have hpos := List.length_pos_iff.2 h.2
    cases i with
    | zero => simp [hpos]
    | succ i =>
      have hmul : (i + 1) * room = room + i * room := by rw [Nat.add_mul, Nat.one_mul, Nat.add_comm]
      rw [List.getElem?_cons_succ, ih, List.length_drop, List.drop_drop, hmul]
      have hiff : i * room < data.length - room ↔ room + i * room < data.length := by omega
      simp only [hiff]

/-- There are as many pieces as it takes to hold the bytes. -/
theorem length_pieces (hroom : 0 < room) (data : Bytes) :
    (pieces room data).length = (data.length + room - 1) / room := by
  fun_induction pieces room data with
  | case1 data h =>
    have hnil : data = [] := h.resolve_left (by omega)
    rw [hnil, List.length_nil, List.length_nil, Nat.div_eq_of_lt (by omega)]
  | case2 data h ih =>
    rw [not_or] at h
    have hpos := List.length_pos_iff.2 h.2
    rw [List.length_cons, ih, List.length_drop]
    by_cases hle : data.length ≤ room
    · have h0 : data.length - room = 0 := by omega
      rw [h0, Nat.div_eq_of_lt (by omega), Nat.div_eq_of_lt_le] <;> omega
    · have hsum : data.length + room - 1 = data.length - room + room - 1 + room := by omega
      rw [hsum, Nat.add_div_right _ hroom]

/-! ### Units -/

variable {cfg : Config} {payload : Bytes} {k : Nat}

/-- How many bytes the first `k` frames of a message of `len` bytes carry, if all of them are
full. -/
def reach (cfg : Config) (len k : Nat) : Nat := cfg.firstRoom len + (k - 1) * cfg.consecutiveRoom

@[simp] lemma reach_one (len : Nat) : reach cfg len 1 = cfg.firstRoom len := by simp [reach]

lemma reach_succ (cfg : Config) (len : Nat) (hk : 1 ≤ k) :
    reach cfg len (k + 1) = reach cfg len k + cfg.consecutiveRoom := by
  obtain ⟨j, rfl⟩ := Nat.exists_eq_add_of_le hk
  simp only [reach, Nat.add_sub_cancel_left, Nat.add_sub_cancel, Nat.add_mul]
  omega

lemma reach_mono (cfg : Config) (len : Nat) {j k : Nat} (h : j ≤ k) :
    reach cfg len j ≤ reach cfg len k :=
  Nat.add_le_add_left (Nat.mul_le_mul_right _ (Nat.sub_le_sub_right h 1)) _

lemma consecutiveRoom_pos (h : cfg.Valid) : 0 < cfg.consecutiveRoom := by
  have := (FrameLength.legal_bounds h.frameLength_legal).1
  unfold Config.consecutiveRoom Pdu.consecutiveRoom
  omega

lemma firstRoom_pos (hL : FrameLength.Legal cfg.frameLength) (len : Nat) :
    0 < cfg.firstRoom len := by
  have := (FrameLength.legal_bounds hL).1
  unfold Config.firstRoom Pdu.firstRoom Pdu.firstHeaderLength
  split <;> omega

/-- A first frame has less room than a single frame: a message that needs one goes on after it. -/
lemma firstRoom_le_singleRoom (cfg : Config) (len : Nat) : cfg.firstRoom len ≤ cfg.singleRoom := by
  unfold Config.firstRoom Pdu.firstRoom Pdu.firstHeaderLength Config.singleRoom Pdu.singleRoom
  split <;> split <;> omega

lemma units_of_short (h : payload.length ≤ cfg.singleRoom) :
    units cfg payload = [.single (.ofNat payload.length) payload] := by
  simp [units, h]

/-- The unit that opens a long message. -/
lemma getElem?_units_zero (h : cfg.singleRoom < payload.length) : (units cfg payload)[0]? =
    some (.first (.ofNat payload.length) (payload.take (cfg.firstRoom payload.length))) := by
  have := Nat.not_le.2 h
  simp [units, this]

/-- The unit that goes on with a long message after its first `k` frames. -/
lemma getElem?_units (hcfg : cfg.Valid) (h : cfg.singleRoom < payload.length) (hk : 1 ≤ k) :
    (units cfg payload)[k]? =
      if reach cfg payload.length k < payload.length then
        some (.consecutive (.ofNat (k % 16))
          ((payload.drop (reach cfg payload.length k)).take cfg.consecutiveRoom))
      else none := by
  obtain ⟨j, rfl⟩ := Nat.exists_eq_add_of_le' hk
  have hlong := Nat.not_le.2 h
  have hfirst := firstRoom_le_singleRoom cfg payload.length
  have hiff : j * cfg.consecutiveRoom < payload.length - cfg.firstRoom payload.length ↔
      cfg.firstRoom payload.length + j * cfg.consecutiveRoom < payload.length := by omega
  simp only [units, if_neg hlong, List.getElem?_cons_succ, List.getElem?_mapIdx,
    getElem?_pieces (consecutiveRoom_pos hcfg), List.length_drop, List.drop_drop, hiff, reach,
    Nat.add_sub_cancel]
  split <;> rfl

/-- How many units a long message has. -/
theorem length_units (hcfg : cfg.Valid) (h : cfg.singleRoom < payload.length) :
    (units cfg payload).length = 1 +
      (payload.length - cfg.firstRoom payload.length + cfg.consecutiveRoom - 1) /
        cfg.consecutiveRoom := by
  have hlong := Nat.not_le.2 h
  simp only [units, if_neg hlong, List.length_cons, List.length_mapIdx,
    length_pieces (consecutiveRoom_pos hcfg), List.length_drop]
  omega

/-- There is a frame after the first `k` exactly if these do not reach the end. -/
theorem lt_length_units_iff (hcfg : cfg.Valid) (h : cfg.singleRoom < payload.length)
    (hk : 1 ≤ k) :
    k < (units cfg payload).length ↔ reach cfg payload.length k < payload.length := by
  have hsome : (units cfg payload)[k]?.isSome ↔ k < (units cfg payload).length := by simp
  rw [← hsome, getElem?_units hcfg h hk]
  split <;> simp_all

/-! ### Frames -/

/-- A message that can be sent: it is not empty, and its length has 32 bits. -/
structure Sendable (cfg : Config) (payload : Bytes) : Prop where
  valid : cfg.Valid
  ne_nil : payload ≠ []
  length_lt : payload.length < 0x100000000

lemma Sendable.toNat_length (hs : Sendable cfg payload) :
    (UInt32.ofNat payload.length).toNat = payload.length := by
  have := hs.length_lt
  simp only [UInt32.toNat_ofNat']
  omega

lemma toNat_length_of_short (hcfg : cfg.Valid) (h : payload.length ≤ cfg.singleRoom) :
    (UInt8.ofNat payload.length).toNat = payload.length := by
  have := (FrameLength.legal_bounds hcfg.frameLength_legal).2
  have hroom : cfg.singleRoom ≤ 63 := by
    unfold Config.singleRoom Pdu.singleRoom
    split <;> omega
  simp only [UInt8.toNat_ofNat']
  omega

/-- Every unit of a message has a frame. -/
theorem isSome_encode?_of_mem_units (hs : Sendable cfg payload) {u : Pdu}
    (hu : u ∈ units cfg payload) : (cfg.encode? u).isSome := by
  have hcfg := hs.valid
  have hlegal := hcfg.frameLength_legal
  have hpos := List.length_pos_iff.2 hs.ne_nil
  by_cases h : payload.length ≤ cfg.singleRoom
  · rw [units_of_short h, List.mem_singleton] at hu
    subst hu
    refine (Pdu.isSome_encode?_single hlegal).2 ?_
    rw [toNat_length_of_short hcfg h]
    exact ⟨hpos, Nat.le_refl _, h⟩
  · obtain ⟨k, hk⟩ := List.mem_iff_getElem?.1 hu
    by_cases hk0 : k = 0
    · subst hk0
      rw [getElem?_units_zero (by omega)] at hk
      cases hk
      refine (Pdu.isSome_encode?_first hlegal).2 ?_
      rw [hs.toNat_length]
      refine ⟨Nat.not_le.1 h, ?_⟩
      have := firstRoom_pos hlegal payload.length
      rw [← List.length_pos_iff, List.length_take]
      omega
    · rw [getElem?_units hcfg (by omega) (by omega)] at hk
      split at hk
      · cases hk
        refine (Pdu.isSome_encode?_consecutive hlegal).2 ?_
        rw [List.length_take]
        exact Nat.min_le_left ..
      · cases hk

lemma map_some_filterMap {α β : Type} {f : α → Option β} {l : List α}
    (h : ∀ a ∈ l, (f a).isSome) : (l.filterMap f).map some = l.map f := by
  induction l with
  | nil => rfl
  | cons a l ih =>
    obtain ⟨b, hb⟩ := Option.isSome_iff_exists.1 (h a (by simp))
    simp [hb, ih fun c hc => h c (by simp [hc])]

/-- A message is the writing of its units, and none of them is left out. -/
theorem map_some_frames (hs : Sendable cfg payload) :
    (frames cfg payload).map some = (units cfg payload).map cfg.encode? :=
  map_some_filterMap fun _ => isSome_encode?_of_mem_units hs

theorem length_frames (hs : Sendable cfg payload) :
    (frames cfg payload).length = (units cfg payload).length := by
  simpa only [List.length_map] using congrArg List.length (map_some_frames hs)

theorem getElem?_frames (hs : Sendable cfg payload) (k : Nat) :
    (frames cfg payload)[k]? = (units cfg payload)[k]?.bind cfg.encode? := by
  have h := congrArg (·[k]?) (map_some_frames hs)
  simp only [List.getElem?_map] at h
  cases hu : (units cfg payload)[k]? <;> cases hf : (frames cfg payload)[k]? <;> simp_all

lemma length_frames_of_short (hs : Sendable cfg payload) (h : payload.length ≤ cfg.singleRoom) :
    (frames cfg payload).length = 1 := by
  rw [length_frames hs, units_of_short h]
  rfl

lemma length_frames_pos (hs : Sendable cfg payload) : 0 < (frames cfg payload).length := by
  by_cases h : payload.length ≤ cfg.singleRoom
  · rw [length_frames_of_short hs h]
    exact Nat.one_pos
  · rw [length_frames hs, length_units hs.valid (Nat.not_le.1 h)]
    exact Nat.add_pos_left Nat.one_pos _

lemma lt_length_frames_iff (hs : Sendable cfg payload) (h : cfg.singleRoom < payload.length)
    {k : Nat} (hk : 1 ≤ k) :
    k < (frames cfg payload).length ↔ reach cfg payload.length k < payload.length := by
  rw [length_frames hs, lt_length_units_iff hs.valid h hk]

/-- Only a long message has a frame after the first. -/
lemma singleRoom_lt_of_lt_length (hs : Sendable cfg payload) {k : Nat} (hk : 1 ≤ k)
    (hlt : k < (frames cfg payload).length) : cfg.singleRoom < payload.length := by
  refine Nat.lt_of_not_le fun hshort => ?_
  rw [length_frames_of_short hs hshort] at hlt
  omega

/-! ### What the frames read as -/

variable {f : Bytes}

theorem decode_frame_of_short (hs : Sendable cfg payload) (h : payload.length ≤ cfg.singleRoom)
    (hf : (frames cfg payload)[0]? = some f) :
    Pdu.decode f = .single (.ofNat payload.length) payload := by
  rw [getElem?_frames hs, units_of_short h] at hf
  have hread := Pdu.decode_single (show Pdu.encode? _ _ _ = _ from hf)
  rwa [toNat_length_of_short hs.valid h, List.take_length] at hread

/-- A first frame has no room to spare: it is read without padding. -/
theorem decode_frame_zero (hs : Sendable cfg payload) (h : cfg.singleRoom < payload.length)
    (hf : (frames cfg payload)[0]? = some f) : Pdu.decode f =
      .first (.ofNat payload.length) (payload.take (cfg.firstRoom payload.length)) := by
  rw [getElem?_frames hs, getElem?_units_zero h] at hf
  obtain ⟨n, hread, hn⟩ := Pdu.decode_first (show Pdu.encode? _ _ _ = _ from hf)
  rw [hs.toNat_length] at hread hn
  have hfirst := firstRoom_le_singleRoom cfg payload.length
  have hroom : Pdu.firstRoom cfg.frameLength payload.length = cfg.firstRoom payload.length := rfl
  have hn0 : n = 0 := by
    rw [hroom, List.length_take] at hn
    omega
  rw [hread, hn0, hroom, List.take_take, Nat.min_self, List.replicate_zero, List.append_nil]

/-- A consecutive frame is read with its fill, and is never longer than one that is full. -/
theorem decode_frame (hs : Sendable cfg payload) (h : cfg.singleRoom < payload.length)
    (hk : 1 ≤ k) (hf : (frames cfg payload)[k]? = some f) :
    ∃ n, Pdu.decode f = .consecutive (.ofNat (k % 16))
        ((payload.drop (reach cfg payload.length k)).take cfg.consecutiveRoom ++
          .replicate n (cfg.padding.getD Pdu.defaultFill)) ∧
      min (payload.length - reach cfg payload.length k) cfg.consecutiveRoom + n ≤
        cfg.consecutiveRoom := by
  rw [getElem?_frames hs, getElem?_units hs.valid h hk] at hf
  split at hf
  · obtain ⟨n, hread, hn⟩ := Pdu.decode_consecutive (show Pdu.encode? _ _ _ = _ from hf)
    have hsn : UInt8.ofNat ((UInt8.ofNat (k % 16)).toNat % 16) = UInt8.ofNat (k % 16) := by
      congr 1
      simp only [UInt8.toNat_ofNat']
      omega
    rw [hsn] at hread
    refine ⟨n, hread, ?_⟩
    rw [List.length_take, List.length_drop, Nat.min_comm] at hn
    exact hn
  · cases hf

/-- The first frame of a message reads as a single or a first frame, and every other one as a
consecutive frame. -/
theorem decode_frame_cases (hs : Sendable cfg payload) {k : Nat}
    (hf : (frames cfg payload)[k]? = some f) :
    (k = 0 ∧ ((∃ len data, Pdu.decode f = .single len data) ∨
      ∃ len data, Pdu.decode f = .first len data)) ∨
    (k ≠ 0 ∧ ∃ sn data, Pdu.decode f = .consecutive sn data) := by
  by_cases h : payload.length ≤ cfg.singleRoom
  · have hk := (List.getElem?_eq_some_iff.1 hf).1
    rw [length_frames_of_short hs h] at hk
    obtain rfl : k = 0 := by omega
    exact .inl ⟨rfl, .inl ⟨_, _, decode_frame_of_short hs h hf⟩⟩
  · by_cases hk : k = 0
    · subst hk
      exact .inl ⟨rfl, .inr ⟨_, _, decode_frame_zero hs (by omega) hf⟩⟩
    · obtain ⟨n, hread, -⟩ := decode_frame hs (by omega) (by omega) hf
      exact .inr ⟨hk, _, _, hread⟩

theorem decode_frame_ne_invalid (hs : Sendable cfg payload) {k : Nat}
    (hf : (frames cfg payload)[k]? = some f) : Pdu.decode f ≠ .invalid := by
  obtain ⟨-, ⟨_, _, hread⟩ | ⟨_, _, hread⟩⟩ | ⟨-, _, _, hread⟩ := decode_frame_cases hs hf <;>
    simp [hread]

/-- All frames of a message carry a part of it, and only the first one opens it. -/
theorem kind_frame (hs : Sendable cfg payload) {k : Nat} (hf : (frames cfg payload)[k]? = some f)
    (id : CanId) (remote : Bool) :
    Frame.carriesPart ⟨id, f, remote⟩ = true ∧ Frame.opens ⟨id, f, remote⟩ = decide (k = 0) := by
  have hkind := Pdu.kind?_decode (f := ⟨id, f, remote⟩) (decode_frame_ne_invalid hs hf)
  unfold Frame.carriesPart Frame.opens
  rw [← hkind]
  obtain ⟨rfl, ⟨_, _, hread⟩ | ⟨_, _, hread⟩⟩ | ⟨hk, _, _, hread⟩ := decode_frame_cases hs hf
  · rw [hread]
    exact ⟨rfl, rfl⟩
  · rw [hread]
    exact ⟨rfl, rfl⟩
  · rw [hread, decide_eq_false hk]
    exact ⟨rfl, rfl⟩

/-- All frames after the first are consecutive frames. -/
lemma countP_kind_frames (hs : Sendable cfg payload) (id : CanId) :
    ((frames cfg payload).map (⟨id, ·, false⟩)).countP (Frame.kind? · = some 2) =
      (frames cfg payload).length - 1 := by
  have hkind (k : Nat) (f : Bytes) (hf : (frames cfg payload)[k]? = some f) :=
    kind_frame hs hf id false
  cases hframes : frames cfg payload with
  | nil => rfl
  | cons f fs =>
    rw [hframes] at hkind
    have hhead : Frame.kind? ⟨id, f, false⟩ ≠ some 2 := by
      intro h2
      have hopens := (hkind 0 f rfl).2
      simp [Frame.opens, h2] at hopens
    have htail : ∀ g ∈ fs.map (⟨id, ·, false⟩), Frame.kind? g = some 2 := by
      intro g hg
      obtain ⟨d, hd, rfl⟩ := List.mem_map.1 hg
      obtain ⟨k, hk⟩ := List.mem_iff_getElem?.1 hd
      obtain ⟨hpart, hopens⟩ := hkind (k + 1) d (by rw [List.getElem?_cons_succ, hk])
      exact Frame.kind?_of_not_opens hpart (by simpa using hopens)
    rw [List.map_cons, List.countP_cons_of_neg (by simpa using hhead),
      List.countP_eq_length.2 (by simpa using htail), List.length_map, List.length_cons,
      Nat.add_sub_cancel]

end IsoTp.Segmentation
