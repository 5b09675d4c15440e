import IsoTp.Exchange
import IsoTp.Proofs.Channel.Willing

/-!
Rounds without faults, step by step.

A round first hands over the frames of both parties and then gives both the time. A party is
described by its channel, the frames of its own that wait to be fetched, and its events; a call of
its channel changes these three as the call comes out.
-/

namespace IsoTp.Exchange

open Channel

variable {σ ε : Type} [Link σ ε]

/-! ### Parties -/

/-- A party with this channel, these frames waiting to be fetched and these events, on a link that
takes every frame. -/
structure Party.Shows (p : Party σ) (c : Channel) (waiting : List Frame) (events : List Event) :
    Prop where
  channel : p.channel = c
  waiting : p.line.taken = waiting
  events : p.events = events
  willing : Link.Willing p.line.line

variable {p : Party σ} {c c' : Channel} {waiting new : List Frame} {events more : List Event}

lemma Party.Shows.after (h : p.Shows c waiting events) {α : Type} {turn : Turn (Tap σ) α}
    (hturn : turn.Yields p.line c' new more) :
    (p.after turn).Shows c' (waiting ++ new) (events ++ more) := by
  refine ⟨hturn.channel, ?_, ?_, hturn.willing⟩
  · rw [← h.waiting]
    exact hturn.taken
  · simp only [Party.after, h.events, hturn.events]

lemma Party.Shows.fetch (h : p.Shows c waiting events) : p.fetch.Shows c [] events :=
  ⟨h.channel, rfl, h.events, h.willing⟩

lemma Party.Shows.advance (h : p.Shows c waiting events) {now : Instant}
    (hturn : ∀ line : Tap σ, Link.Willing line.line →
      (c.advance now line).Yields line c' new more) :
    (p.advance now).Shows c' (waiting ++ new) (events ++ more) := by
  have hline := hturn p.line h.willing
  rw [← h.channel] at hline
  exact h.after hline

/-! ### Deliveries -/

/-- The frames of a party among what happens on the bus. -/
def sentBy (side : Side) (entries : List (Entry ε)) : List Frame :=
  entries.filterMap fun
    | .frame _ sender f => if sender = side then some f else none
    | .error .. => none

lemma sentBy_append (side : Side) (u v : List (Entry ε)) :
    sentBy side (u ++ v) = sentBy side u ++ sentBy side v :=
  List.filterMap_append ..

/-- A single frame reaches a party that takes it without an error. -/
lemma deliver_one (h : p.Shows c waiting events) {now : Instant} {f : Frame}
    (hturn : ∀ line : Tap σ, Link.Willing line.line → (c.accept now f line).value = .ok () ∧
      (c.accept now f line).Yields line c' new more) (side : Side) (index : Nat) :
    (deliver [] now side index [f] p).1.Shows c' (waiting ++ new) (events ++ more) ∧
      (deliver [] now side index [f] p).2 = [.frame now side f] := by
  have hline := hturn p.line h.willing
  rw [← h.channel] at hline
  have hdeliver : deliver [] now side index [f] p =
      (p.after (p.channel.accept now f p.line), [.frame now side f]) := by
    simp [deliver, arrivals, Party.acceptAll, hline.1]
  rw [hdeliver]
  exact ⟨h.after hline.2, rfl⟩

namespace State

/-- The first half of a round without faults: the frames of both parties are handed over. -/
def handOver (s : State σ) : State σ × List (Entry ε) :=
  let (b, there) := deliver [] s.now .a s.a.fetched s.a.line.taken s.b
  let (a, back) := deliver [] s.now .b b.fetched b.line.taken s.a.fetch
  ({ s with a, b := b.fetch }, there ++ back)

/-- The second half: time passes. -/
def tick (period : Nat) (s : State σ) : State σ :=
  { a := s.a.advance s.now
    b := s.b.advance s.now
    now := Instant.after s.now (.ofMicros period) }

lemma round_eq (period : Nat) (s : State σ) :
    s.round [] period = (s.handOver.1.tick period, s.handOver.2) := rfl

/-- The clock goes on by a period, if it does not end before. -/
lemma now_round {period : Nat} {s : State σ} (h : s.now + period ≤ Instant.last) :
    (s.round [] period).1.now = s.now + period := by
  have hmicros : (Duration.ofMicros period).micros = period := Nat.mul_div_cancel _ (by decide)
  rw [round_eq]
  exact (congrArg (fun d => min (s.now + d) Instant.last) hmicros).trans (Nat.min_eq_left h)

variable {s : State σ} {cA cB cA' cB' : Channel} {f g : Frame} {eA eB mA mB : List Event}

/-- Nothing waits to be fetched. -/
lemma handOver_of_nil (ha : s.a.Shows cA [] eA) (hb : s.b.Shows cB [] eB) :
    s.handOver.1.a.Shows cA [] eA ∧ s.handOver.1.b.Shows cB [] eB ∧ s.handOver.2 = [] := by
  have hthere : deliver [] s.now .a s.a.fetched s.a.line.taken s.b = (s.b, []) := by
    rw [ha.waiting]
    rfl
  have hback : deliver [] s.now .b s.b.fetched s.b.line.taken s.a.fetch = (s.a.fetch, []) := by
    rw [hb.waiting]
    rfl
  simp only [handOver, hthere, hback]
  exact ⟨ha.fetch, hb.fetch, rfl⟩

/-- A frame of the first party reaches the second, which does not answer. -/
lemma handOver_of_one (ha : s.a.Shows cA [f] eA) (hb : s.b.Shows cB [] eB)
    (hthere : ∀ line : Tap σ, Link.Willing line.line → (cB.accept s.now f line).value = .ok () ∧
      (cB.accept s.now f line).Yields line cB' [] mB) :
    s.handOver.1.a.Shows cA [] eA ∧ s.handOver.1.b.Shows cB' [] (eB ++ mB) ∧
      s.handOver.2 = [.frame s.now .a f] := by
  obtain ⟨hb', hentries⟩ := deliver_one hb hthere .a s.a.fetched
  rw [← ha.waiting] at hb' hentries
  rcases hdeliver : deliver [] s.now .a s.a.fetched s.a.line.taken s.b with ⟨b', there⟩
  rw [hdeliver] at hb' hentries
  have hback : deliver [] s.now .b b'.fetched b'.line.taken s.a.fetch = (s.a.fetch, []) := by
    rw [hb'.waiting]
    rfl
  simp only [handOver, hdeliver, hback]
  exact ⟨ha.fetch, hb'.fetch, by rw [List.append_nil]; exact hentries⟩

/-- A frame of the first party reaches the second, which answers with a frame. -/
lemma handOver_of_answer (ha : s.a.Shows cA [f] eA) (hb : s.b.Shows cB [] eB)
    (hthere : ∀ line : Tap σ, Link.Willing line.line → (cB.accept s.now f line).value = .ok () ∧
      (cB.accept s.now f line).Yields line cB' [g] mB)
    (hback : ∀ line : Tap σ, Link.Willing line.line → (cA.accept s.now g line).value = .ok () ∧
      (cA.accept s.now g line).Yields line cA' [] mA) :
    s.handOver.1.a.Shows cA' [] (eA ++ mA) ∧ s.handOver.1.b.Shows cB' [] (eB ++ mB) ∧
      s.handOver.2 = [.frame s.now .a f, .frame s.now .b g] := by
  obtain ⟨hb', hentries⟩ := deliver_one hb hthere .a s.a.fetched
  rw [← ha.waiting] at hb' hentries
  rcases hdeliver : deliver [] s.now .a s.a.fetched s.a.line.taken s.b with ⟨b', there⟩
  rw [hdeliver] at hb' hentries
  obtain ⟨ha', hentries'⟩ := deliver_one ha.fetch hback .b b'.fetched
  have hwaiting : b'.line.taken = [g] := hb'.waiting
  rw [← hwaiting] at ha' hentries'
  rcases hdeliver' : deliver [] s.now .b b'.fetched b'.line.taken s.a.fetch with ⟨a', back⟩
  rw [hdeliver'] at ha' hentries'
  simp only [handOver, hdeliver, hdeliver']
  refine ⟨ha', hb'.fetch, ?_⟩
  simp only at hentries hentries'
  rw [hentries, hentries']
  rfl

/-! ### Many rounds -/

lemma rounds_succ (faults : List Fault) (period n : Nat) (s : State σ) :
    s.rounds faults period (n + 1) =
      (((s.round faults period).1.rounds faults period n).1,
        (s.round faults period).2 ++ ((s.round faults period).1.rounds faults period n).2) := rfl

lemma rounds_add (faults : List Fault) (period m n : Nat) (s : State σ) :
    s.rounds faults period (m + n) =
      (((s.rounds faults period m).1.rounds faults period n).1,
        (s.rounds faults period m).2 ++
          ((s.rounds faults period m).1.rounds faults period n).2) := by
  induction m generalizing s with
  | zero =>
    rw [Nat.zero_add]
    rfl
  | succ m ih =>
    rw [Nat.add_right_comm]
    simp only [rounds_succ, ih, List.append_assoc]

lemma rounds_one (faults : List Fault) (period : Nat) (s : State σ) :
    s.rounds faults period 1 = s.round faults period := by
  simp only [rounds, List.append_nil]

end State

end IsoTp.Exchange
