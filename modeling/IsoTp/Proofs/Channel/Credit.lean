import IsoTp.Proofs.Link.Offering
import IsoTp.Proofs.Receiver.Following

/-!
The credit that the receiver of a message grants to its sender.

A receiver grants a number of frames, a block, and counts those that come; the sender counts those
that it puts on its link. `Credit` says what the two counts and what is on its way have to do with
each other. Each step of either party takes it from one state of the account to another.
-/

namespace IsoTp.Channel

open Segmentation Assembly

/-! ### The frames on their way -/

/-- Two configurations of parties that hear each other, and a message in more than one frame. -/
structure Paired (cfgA cfgB : Config) (payload : Bytes) : Prop where
  valid : cfgB.Valid
  there : cfgA.txId = cfgB.rxId
  back : cfgB.txId = cfgA.rxId
  sendable : Sendable cfgA payload
  long : cfgA.singleRoom < payload.length

/-- The frames of a message from that of number `m`, from 0, up to before that of number `n`. -/
def between (cfg : Config) (payload : Bytes) (m n : Nat) : List Frame :=
  (((frames cfg payload).take n).drop m).map (⟨cfg.txId, ·, false⟩)

section Between

variable {cfg : Config} {payload : Bytes} {m n : Nat}

@[simp] lemma between_self : between cfg payload n n = [] := by
  rw [between, List.drop_of_length_le (List.length_take_le ..), List.map_nil]

lemma length_between (hn : n ≤ (frames cfg payload).length) :
    (between cfg payload m n).length = n - m := by
  rw [between, List.length_map, List.length_drop, List.length_take, Nat.min_eq_left hn]

/-- One more frame is put on the link. -/
lemma between_succ (hm : m ≤ n) {f : Bytes} (hf : (frames cfg payload)[n]? = some f) :
    between cfg payload m (n + 1) = between cfg payload m n ++ [⟨cfg.txId, f, false⟩] := by
  have hlt := (List.getElem?_eq_some_iff.1 hf).1
  rw [between, between, List.take_add_one, hf, List.drop_append_of_le_length
    (by rw [List.length_take]; omega), List.map_append]
  rfl

/-- The first frame comes off the wire. -/
lemma between_eq_cons {f : Frame} {rest : List Frame} (h : between cfg payload m n = f :: rest) :
    m < n ∧ ∃ data, (frames cfg payload)[m]? = some data ∧ f = ⟨cfg.txId, data, false⟩ ∧
      rest = between cfg payload (m + 1) n := by
  unfold between at h ⊢
  obtain ⟨data, tail, hdrop, hdata, htail⟩ := List.map_eq_cons_iff.1 h
  have hget : ((frames cfg payload).take n)[m]? = some data := by
    rw [← List.head?_drop, hdrop]
    rfl
  rw [List.getElem?_take] at hget
  split at hget
  · next hlt =>
    refine ⟨hlt, data, hget, hdata.symm, ?_⟩
    rw [← htail, ← List.tail_drop, hdrop]
    rfl
  · cases hget

/-- Every frame after the first is a consecutive frame. -/
lemma isConsecutive_of_between (hs : Sendable cfg payload) (hm : 1 ≤ m) :
    ∀ f ∈ between cfg payload m n, (Pdu.decode f.data).isConsecutive := by
  intro f hf
  obtain ⟨data, hdata, rfl⟩ := List.mem_map.1 hf
  obtain ⟨i, hget⟩ := List.mem_iff_getElem?.1 hdata
  rw [List.getElem?_drop, List.getElem?_take] at hget
  split at hget
  · obtain ⟨sn, fill, hread, -⟩ := Cargo.decode_next (c := ⟨cfg.txId, payload, m + i⟩) cfg hs
      (Nat.le_add_right_of_le hm) hget
    rw [hread]
    rfl
  · cases hget

end Between

/-! ### Credit -/

/-- Flow control that grants what a receiver counts with, which has counted nothing since. -/
structure Grants (fc : FlowControl) (u : Underway) : Prop where
  status : fc.status = .clearToSend
  blockSize : fc.blockSize.toNat = u.granted
  since : u.since = 0

/-- The account of a message of `total` frames, of which `n` are on the link and `m` have come: how
the sender's phase, the receiver's and the flow control on its way go together. -/
inductive Credit (cfgB : Config) (total : Nat) :
    Nat → Nat → Sender.Phase → Assembly.Phase → List Frame → Prop
  /-- The first frame is on its way, and is to be answered. -/
  | opening {t : Transfer} {deadline : Instant} :
      Credit cfgB total 1 0 (.waiting t deadline) .idle []
  /-- The frames on their way fill the block, so that the last of them is to be answered. -/
  | ending {n m : Nat} {t : Transfer} {deadline : Instant} {u : Underway} (howed : u.owed = none)
      (hmore : m < n) (hgranted : u.granted ≠ 0) (hsince : u.since + (n - m) = u.granted) :
      Credit cfgB total n m (.waiting t deadline) (.underway u) []
  /-- All frames have come, and the link has refused the answer. -/
  | owing {n : Nat} {t : Transfer} {deadline : Instant} {u : Underway} {fc : FlowControl}
      (howed : u.owed = some fc) (hgrants : Grants fc u) :
      Credit cfgB total n n (.waiting t deadline) (.underway u) []
  /-- All frames have come, and the answer is on its way. -/
  | answered {n : Nat} {t : Transfer} {deadline : Instant} {u : Underway} {fc : FlowControl}
      (howed : u.owed = none) (hgrants : Grants fc u) :
      Credit cfgB total n n (.waiting t deadline) (.underway u) [fc.frame cfgB]
  /-- What has come of the block, what is on its way and what is left to the sender make up the
  block. -/
  | sending {n m : Nat} {t : Transfer} {u : Underway} (howed : u.owed = none)
      (hsize : t.blockSize = u.granted)
      (hleft : u.granted ≠ 0 → 1 ≤ t.blockLeft ∧ u.since + (n - m) + t.blockLeft = u.granted) :
      Credit cfgB total n m (.sending t) (.underway u) []
  /-- The rest of the message is on its way, and is not more than the rest of the block. -/
  | through {m len : Nat} {u : Underway} (howed : u.owed = none)
      (hleft : u.granted ≠ 0 → u.since + (total - m) ≤ u.granted) :
      Credit cfgB total total m (.done len) (.underway u) []
  /-- All frames have come. -/
  | complete {len : Nat} {message : Bytes} :
      Credit cfgB total total total (.done len) (.done message) []

/-- The sender does not wait, and the receiver counts no block. -/
structure Free (q : Sender.Phase) (p : Assembly.Phase) : Prop where
  sender : ∀ t deadline, q ≠ .waiting t deadline
  receiver : ∀ u, p = .underway u → u.granted = 0

namespace Credit

variable {cfgB : Config} {total n m : Nat} {q : Sender.Phase} {p : Assembly.Phase}
  {toA : List Frame} {t t' : Transfer} {u v : Underway}

/-- The link refuses a frame of the sender. -/
lemma refused (h : Credit cfgB total n m (.sending t) p toA) (hsize : t'.blockSize = t.blockSize)
    (hleft : t'.blockLeft = t.blockLeft) : Credit cfgB total n m (.sending t') p toA := by
  cases h with
  | sending howed hsize' hleft' => exact .sending howed (hsize.trans hsize') (by rwa [hleft])

/-- The link takes a frame of the sender, which no block ends. -/
lemma unbounded (h : Credit cfgB total n m (.sending t) p toA) (h0 : t.blockSize = 0)
    (hsize : t'.blockSize = t.blockSize) : Credit cfgB total (n + 1) m (.sending t') p toA := by
  cases h with
  | sending howed hsize' =>
    exact .sending howed (hsize.trans hsize') fun hgranted => absurd (hsize'.symm.trans h0) hgranted

/-- The link takes a frame of the sender in the middle of a block. -/
lemma within (h : Credit cfgB total n m (.sending t) p toA) (hm : m ≤ n)
    (hmore : 1 < t.blockLeft) (hsize : t'.blockSize = t.blockSize)
    (hleft : t'.blockLeft = t.blockLeft - 1) :
    Credit cfgB total (n + 1) m (.sending t') p toA := by
  cases h with
  | sending howed hsize' hleft' =>
    refine .sending howed (hsize.trans hsize') fun hgranted => ?_
    have := hleft' hgranted
    omega

/-- The link takes the last frame of a block. -/
lemma halted (h : Credit cfgB total n m (.sending t) p toA) (hm : m ≤ n) (h0 : t.blockSize ≠ 0)
    (hlast : ¬1 < t.blockLeft) (deadline : Instant) :
    Credit cfgB total (n + 1) m (.waiting t' deadline) p toA := by
  cases h with
  | sending howed hsize hleft =>
    rw [hsize] at h0
    have := hleft h0
    exact .ending howed (by omega) h0 (by omega)

/-- The link takes the last frame of the sender. -/
lemma finished (h : Credit cfgB total n m (.sending t) p toA) (hm : m ≤ n) (hlast : n + 1 = total)
    (len : Nat) : Credit cfgB total total m (.done len) p toA := by
  cases h with
  | sending howed hsize hleft =>
    refine .through howed fun hgranted => ?_
    have := hleft hgranted
    omega

lemma blockSize_of_free (h : Credit cfgB total n m (.sending t) p toA)
    (hfree : Free (.sending t) p) : t.blockSize = 0 := by
  cases h with
  | sending howed hsize => exact hsize.trans (hfree.receiver _ rfl)

/-- A frame comes that ends a block: the sender waits, and the frame is the last on its way. -/
lemma full (h : Credit cfgB total n m q (.underway u) toA) (hlt : m < n) (hmore : m + 1 ≠ total)
    (htotal : n ≤ total) (hfull : u.granted ≠ 0 ∧ u.since + 1 = u.granted) :
    (∃ t deadline, q = .waiting t deadline) ∧ n = m + 1 ∧ u.owed = none ∧ toA = [] := by
  obtain ⟨hgranted, hsince⟩ := hfull
  cases h with
  | ending howed _ _ hsum => exact ⟨⟨_, _, rfl⟩, by omega, howed, rfl⟩
  | owing | answered => exact absurd hlt (Nat.lt_irrefl _)
  | sending howed _ hleft =>
    have := hleft hgranted
    omega
  | through howed hleft =>
    have := hleft hgranted
    omega

/-- A frame comes that ends no block. -/
lemma more (h : Credit cfgB total n m q (.underway u) toA) (hlt : m < n)
    (hnot : ¬(u.granted ≠ 0 ∧ u.since + 1 = u.granted)) (howed : v.owed = u.owed)
    (hgranted : v.granted = u.granted) (hsince : v.since = u.since + 1) :
    Credit cfgB total n (m + 1) q (.underway v) toA := by
  cases h with
  | ending howed' _ hgranted' hsum =>
    exact .ending (howed.trans howed') (by omega) (by omega) (by omega)
  | owing | answered => exact absurd hlt (Nat.lt_irrefl _)
  | sending howed' hsize hleft =>
    refine .sending (howed.trans howed') (by omega) fun hv => ?_
    have := hleft (by omega)
    omega
  | through howed' hleft =>
    refine .through (howed.trans howed') fun hv => ?_
    have := hleft (by omega)
    omega

/-- Before the first frame has come. -/
lemma of_idle (h : Credit cfgB total n m q .idle toA) :
    (∃ t deadline, q = .waiting t deadline) ∧ n = 1 ∧ m = 0 ∧ toA = [] := by
  cases h with
  | opening => exact ⟨⟨_, _, rfl⟩, rfl, rfl, rfl⟩

/-- After the last frame has come, none is on its way. -/
lemma of_done {message : Bytes} (h : Credit cfgB total n m q (.done message) toA) : n = m := by
  cases h with
  | complete => rfl

/-- No reception fails. -/
lemma ne_failed (h : Credit cfgB total n m q p toA) (cause : Abort) : p ≠ .failed cause := by
  cases h <;> nofun

/-- Where an answer is owed, the sender waits and nothing is on its way. -/
lemma owes (h : Credit cfgB total n m q p toA) {fc : FlowControl} (howed : p.owed = some fc) :
    ∃ t deadline u, q = .waiting t deadline ∧ p = .underway u ∧ n = m ∧ toA = [] ∧
      Grants fc u := by
  cases h with
  | opening | complete => cases howed
  | ending hnone | answered hnone | sending hnone | through hnone =>
    cases hnone.symm.trans howed
  | owing howed' hgrants =>
    cases howed'.symm.trans howed
    exact ⟨_, _, _, rfl, rfl, rfl, rfl, hgrants⟩

/-- The last frame comes: the sender is through. -/
lemma last (h : Credit cfgB total n m q (.underway u) toA) (hlt : m < n)
    (hq : (∀ len, q ≠ .done len) → n < total) (hlast : m + 1 = total) (message : Bytes) :
    Credit cfgB total n (m + 1) q (.done message) toA := by
  cases h with
  | ending | sending =>
    have := hq nofun
    omega
  | owing | answered => exact absurd hlt (Nat.lt_irrefl _)
  | through =>
    rw [hlast]
    exact .complete

end Credit

end IsoTp.Channel
