import IsoTp.Proofs.Channel.Outcome
import IsoTp.Proofs.Channel.Transmission

/-!
Two channels with a wire in either direction.

Frames that a link takes come to the other channel in their order and without loss, at any later
time. In between, time passes for either channel, the second one changes what it grants, and either
link changes what it takes.
-/

namespace IsoTp.Channel

/-- Two channels with the frames on their way from the first to the second and back, oldest first,
the frames that the second has offered to its link, and the events of both. -/
structure Duplex (σ τ : Type) where
  a : Host σ
  b : Host τ
  toB : List Frame := []
  toA : List Frame := []
  offered : List Offer := []
  events : List Event := []

namespace Duplex

/-- What can happen: time passes for a channel, a frame arrives, the second channel changes what it
grants, or a link changes. -/
inductive Act (σ τ : Type) where
  | timeA (now : Instant)
  | timeB (now : Instant)
  | arriveB (now : Instant)
  | arriveA (now : Instant)
  | setPolicy (policy : FlowPolicy)
  | setLineA (line : σ)
  | setLineB (line : τ)

variable {σ τ ε δ : Type} [Link σ ε] [Link τ δ]

/-- A call of the first channel. -/
def callA (d : Duplex σ τ) (now : Instant) (op : Op σ) : Duplex σ τ :=
  let (a, record) := d.a.step now op
  { d with
    a
    toB := d.toB ++ takenOf record.offers
    events := d.events ++ record.events }

/-- A call of the second channel. -/
def callB (d : Duplex σ τ) (now : Instant) (op : Op τ) : Duplex σ τ :=
  let (b, record) := d.b.step now op
  { d with
    b
    toA := d.toA ++ takenOf record.offers
    offered := d.offered ++ record.offers
    events := d.events ++ record.events }

/-- The two channels after one act. Where no frame is on its way, none arrives. -/
def step (d : Duplex σ τ) : Act σ τ → Duplex σ τ
  | .timeA now => d.callA now .advance
  | .timeB now => d.callB now .advance
  | .arriveB now =>
    match d.toB with
    | [] => d
    | f :: rest => { d with toB := rest }.callB now (.frame f)
  | .arriveA now =>
    match d.toA with
    | [] => d
    | f :: rest => { d with toA := rest }.callA now (.frame f)
  | .setPolicy policy => d.callB 0 (.setPolicy policy)
  | .setLineA line => d.callA 0 (.setLine line)
  | .setLineB line => d.callB 0 (.setLine line)

/-- The two channels after a list of acts. -/
def run (d : Duplex σ τ) (acts : List (Act σ τ)) : Duplex σ τ := acts.foldl step d

end Duplex

/-! ### Without timeouts -/

/-- The end of a transfer by a timer that expired. -/
def isTimeout : Event → Bool
  | .failed _ (.timeout _) => true
  | _ => false

/-- No timer has expired. -/
def Untimed (events : List Event) : Prop := ∀ e ∈ events, isTimeout e = false

instance (events : List Event) : Decidable (Untimed events) :=
  inferInstanceAs (Decidable (∀ e ∈ events, _))

lemma untimed_append {u v : List Event} : Untimed (u ++ v) ↔ Untimed u ∧ Untimed v :=
  List.forall_mem_append

/-- No timer of either channel has expired. -/
def Duplex.Calm {σ τ : Type} (d : Duplex σ τ) : Prop := Untimed d.events

instance {σ τ : Type} (d : Duplex σ τ) : Decidable d.Calm := inferInstanceAs (Decidable (Untimed _))

lemma advance_of_untimed {r : Receiver} {now : Instant}
    (h : Untimed ((r.advance now).2.toList.map (.failed .receive))) : (r.advance now).1 = r := by
  unfold Receiver.advance at h ⊢
  split
  · next m hphase =>
    split
    · rfl
    · next hlate =>
      simp only [hphase, if_neg hlate] at h
      exact absurd (h _ (List.mem_singleton_self _)) Bool.noConfusion
  · rfl

/-- Where no timer expires, time does not touch the receiver but for the flow control it owes. -/
lemma Elapses.of_untimed {now : Instant} {c x : Channel} {new : List Offer} {events : List Event}
    (h : Elapses now c x new events) (huntimed : Untimed events) :
    ∃ r s answers parts event, x = { c with receiver := r, sender := s } ∧ new = answers ++ parts ∧
      Retries now c r answers ∧ c.sender.Advances c.cfg now s parts event ∧
      ∀ timer, event ≠ some (.failed (.timeout timer)) := by
  cases h with
  | @mk r s answers parts event hretries hadvances =>
    obtain ⟨hreceiver, hsender⟩ := untimed_append.1 huntimed
    refine ⟨r, s, answers, parts, event, ?_, rfl, hretries, hadvances, ?_⟩
    · rw [advance_of_untimed hreceiver]
    · rintro timer rfl
      exact absurd (hsender _ (List.mem_singleton_self _)) Bool.noConfusion

namespace Duplex

variable {σ τ ε δ : Type} [Link σ ε] [Link τ δ] {d : Duplex σ τ}

/-- What has been reported stays so. -/
lemma events_step (d : Duplex σ τ) (act : Act σ τ) : d.events <+: (d.step act).events := by
  cases act with
  | arriveB now | arriveA now =>
    simp only [step]
    split
    · exact List.prefix_refl _
    · exact List.prefix_append ..
  | timeA | timeB | setPolicy | setLineA | setLineB => exact List.prefix_append ..

lemma Calm.of_step {act : Act σ τ} (h : (d.step act).Calm) : d.Calm := by
  obtain ⟨rest, hrest⟩ := d.events_step act
  unfold Calm at h ⊢
  rw [← hrest] at h
  exact (untimed_append.1 h).1

lemma Calm.of_run {acts : List (Act σ τ)} (h : (d.run acts).Calm) : d.Calm := by
  induction acts generalizing d with
  | nil => exact h
  | cons act acts ih => exact (ih h).of_step

end Duplex

end IsoTp.Channel
