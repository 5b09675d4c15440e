import IsoTp.Proofs.Channel.Endings

/-!
The messages of which a channel sends all bytes.

A stretch of calls sends its message if that is the one ending it brings. Messages that fail or are
called off do not count, nor does one whose last bytes are still to come. The stretches grow with
the calls: one that begins a message adds a stretch, and every other belongs to the last one.
-/

namespace IsoTp.Channel

open Segmentation

variable {σ ε : Type}

/-- The endings that the calls of a stretch bring. -/
def Stretch.endings (s : Stretch σ ε) : List Ending := s.records.flatMap Record.endings

/-- The message of a stretch is sent, with its own length told, and has no other ending. -/
def Stretch.Sent (s : Stretch σ ε) : Prop := s.endings = [.sent s.payload.length]

instance (s : Stretch σ ε) : Decidable s.Sent := inferInstanceAs (Decidable (_ = _))

/-- The messages that calls begin to send. -/
def messagesBegun (records : List (Record σ ε)) : List Bytes :=
  (records.filterMap Record.begun).map (·.2)

/-- The messages among these that are sent. -/
def messagesSent (records : List (Record σ ε)) : List Bytes :=
  ((stretches records).2.filter (·.Sent)).map (·.payload)

/-- The last message that calls begin to send is `payload`, and it has not ended. -/
def Unfinished (records : List (Record σ ε)) (payload : Bytes) : Prop :=
  ∃ earlier s, (stretches records).2 = earlier ++ [s] ∧ s.payload = payload ∧ s.endings = []

variable {past : List (Record σ ε)} {r : Record σ ε} {payload : Bytes}

/-- Messages are sent in the order in which they were begun. -/
lemma messagesSent_sublist (records : List (Record σ ε)) :
    (messagesSent records).Sublist (messagesBegun records) := by
  unfold messagesSent messagesBegun
  rw [← messages_of_stretches, List.map_map]
  exact List.filter_sublist.map _

/-! ### One more call -/

/-- A call that begins a message adds a stretch. -/
lemma stretches_concat_of_begun {id : CanId} (past : List (Record σ ε))
    (hr : r.begun = some (id, payload)) : stretches (past ++ [r]) =
      ((stretches past).1, (stretches past).2 ++ [⟨id, payload, [r]⟩]) := by
  induction past with
  | nil => simp only [List.nil_append, stretches, hr]
  | cons k past ih =>
    simp only [List.cons_append, stretches, ih]
    split <;> rfl

/-- A call that begins no message belongs to the last stretch, if there is one. -/
lemma stretches_concat (past : List (Record σ ε)) (hr : r.begun = none) :
    (stretches past).2 = [] ∧ stretches (past ++ [r]) = ((stretches past).1 ++ [r], []) ∨
    ∃ earlier s, (stretches past).2 = earlier ++ [s] ∧ stretches (past ++ [r]) =
      ((stretches past).1, earlier ++ [{ s with records := s.records ++ [r] }]) := by
  induction past with
  | nil => exact .inl ⟨rfl, by simp only [List.nil_append, stretches, hr]⟩
  | cons k past ih =>
    rcases ih with ⟨hpast, hnext⟩ | ⟨earlier, s, hpast, hnext⟩
    · simp only [List.cons_append, stretches, hpast, hnext]
      split
      · exact .inl ⟨rfl, rfl⟩
      · exact .inr ⟨[], _, rfl, rfl⟩
    · simp only [List.cons_append, stretches, hpast, hnext]
      split
      · exact .inr ⟨earlier, s, rfl, rfl⟩
      · exact .inr ⟨_ :: earlier, s, rfl, rfl⟩

/-- The message of the last stretch is sent or not by the endings that it brings. -/
lemma messagesSent_of_stretches {lead : List (Record σ ε)} {earlier : List (Stretch σ ε)}
    {s : Stretch σ ε} {ends : List Ending} (h : stretches past = (lead, earlier ++ [s]))
    (hends : s.endings = ends) : messagesSent past = (earlier.filter (·.Sent)).map (·.payload) ++
      if ends = [.sent s.payload.length] then [s.payload] else [] := by
  subst hends
  unfold messagesSent
  rw [h, List.filter_append, List.map_append, List.filter_cons, List.filter_nil]
  by_cases hs : s.Sent
  · rw [if_pos (decide_eq_true hs), if_pos (show s.endings = _ from hs)]
    rfl
  · rw [if_neg (by rwa [decide_eq_true_iff]), if_neg (show ¬s.endings = _ from hs)]
    rfl

lemma Stretch.endings_concat (s : Stretch σ ε) (r : Record σ ε) :
    Stretch.endings { s with records := s.records ++ [r] } = s.endings ++ r.endings := by
  simp [Stretch.endings]

/-- A call that begins a message. -/
lemma messagesSent_of_begun {id : CanId} (past : List (Record σ ε))
    (hr : r.begun = some (id, payload)) :
    (messagesSent (past ++ [r]) = messagesSent past ++
      if r.endings = [.sent payload.length] then [payload] else []) ∧
      (r.endings = [] → Unfinished (past ++ [r]) payload) := by
  have hnext := stretches_concat_of_begun past hr
  have hends : Stretch.endings ⟨id, payload, [r]⟩ = r.endings := List.append_nil _
  exact ⟨messagesSent_of_stretches hnext hends,
    fun hopen => ⟨_, _, congrArg Prod.snd hnext, rfl, hends.trans hopen⟩⟩

/-- A call that is about the last message. -/
lemma messagesSent_of_unfinished (hpast : Unfinished past payload) (hr : r.begun = none) :
    (messagesSent (past ++ [r]) = messagesSent past ++
      if r.endings = [.sent payload.length] then [payload] else []) ∧
      (r.endings = [] → Unfinished (past ++ [r]) payload) := by
  obtain ⟨earlier, s, hlast, rfl, hopen⟩ := hpast
  rcases stretches_concat past hr with ⟨hnone, -⟩ | ⟨earlier', s', hlast', hnext⟩
  · simp [hnone] at hlast
  · obtain ⟨rfl, hs⟩ := List.append_inj' (hlast'.symm.trans hlast) rfl
    obtain rfl : s' = s := List.singleton_inj.1 hs
    have hends : Stretch.endings { s' with records := s'.records ++ [r] } = r.endings := by
      rw [Stretch.endings_concat, hopen, List.nil_append]
    have hpast := messagesSent_of_stretches (Prod.ext rfl hlast) hopen
    have hsent := messagesSent_of_stretches hnext hends
    rw [if_neg (by simp), List.append_nil] at hpast
    rw [← hpast] at hsent
    exact ⟨hsent, fun hopen' => ⟨_, _, congrArg Prod.snd hnext, rfl, hends.trans hopen'⟩⟩

/-- A call that neither begins a message nor ends one. -/
lemma messagesSent_of_quiet (past : List (Record σ ε)) (hr : r.begun = none)
    (hends : r.endings = []) : messagesSent (past ++ [r]) = messagesSent past := by
  rcases stretches_concat past hr with ⟨hpast, hnext⟩ | ⟨earlier, s, hpast, hnext⟩
  · simp only [messagesSent, hpast, hnext]
  · have hsame := Stretch.endings_concat s r
    rw [hends, List.append_nil] at hsame
    rw [messagesSent_of_stretches hnext hsame, messagesSent_of_stretches (Prod.ext rfl hpast) rfl]

/-- A call that brings a cargo this far sends its message if all of it is on the link then, and ends
it in no other way. -/
lemma endings_of_cargo {cfg : Config} {c : Cargo} {x begun : Option Nat}
    (hle : c.count ≤ (frames cfg c.payload).length)
    (hconcludes : Sender.Concludes x begun r.endings ((c.left? cfg).map (·.payload.length)))
    (hsent : r.sent = c.sent cfg) :
    (if r.endings = [.sent c.payload.length] then [c.payload] else []) = c.whole cfg ∧
      (c.left? cfg = none ∨ c.left? cfg = some c ∧ r.endings = []) := by
  by_cases hend : c.count = (frames cfg c.payload).length
  · have hmem : .sent c.payload.length ∈ r.endings := by
      rw [Record.sent_mem_endings_iff, hsent, Cargo.sent, if_pos hend]
      exact List.mem_singleton_self _
    refine ⟨?_, .inl (if_neg (by omega))⟩
    rw [if_pos (hconcludes.eq_singleton hmem), Cargo.whole, if_pos hend]
  · have hleft : c.left? cfg = some c := if_pos (by omega)
    rw [hleft] at hconcludes
    have hnone := hconcludes.eq_nil
    refine ⟨?_, .inr ⟨hleft, hnone⟩⟩
    rw [hnone, if_neg (by simp), Cargo.whole, if_neg hend]

end IsoTp.Channel
