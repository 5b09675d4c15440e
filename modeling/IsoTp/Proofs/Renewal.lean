import IsoTp.Proofs.Buffer
import IsoTp.Proofs.Channel.Collection
import IsoTp.Proofs.Receiver.Reassembly
import IsoTp.Sender.Host

/-!
A message starts afresh.

Once a receiver has taken a frame that opens a message, or a sender has begun one, nothing that was
before makes a difference: not the messages before it, not how they ended, and not what the buffer
has been left with. Two receivers or two senders with any past stay abreast from there on. The
buffers may differ for good, but never in the bytes of the message under way.
-/

namespace IsoTp

open Assembly (Refines Agrees)

/-! ### Receivers -/

namespace Receiver

variable {r r' : Receiver} {p : Assembly.Phase}

/-- Two receivers of the same capacity that stand for the same assembly. -/
structure Abreast (r r' : Receiver) : Prop where
  capacity : r.capacity = r'.capacity
  refines : ∃ p, Refines r p ∧ Refines r' p

/-- Two calls that yield the same and leave their receivers abreast. -/
def Concur {α : Type} (x x' : Receiver × α) : Prop := Abreast x.1 x'.1 ∧ x.2 = x'.2

lemma concur_of_agrees {α : Type} {n : Nat} {x x' : Receiver × α} {y : Assembly.Phase × α}
    (h : Agrees n x y) (h' : Agrees n x' y) : Concur x x' :=
  ⟨⟨h.capacity_eq.trans h'.capacity_eq.symm, y.1, h.refines, h'.refines⟩,
    h.yields.trans h'.yields.symm⟩

/-- A call that does to a receiver what its capacity and its assembly determine. -/
lemma Abreast.of_agrees {α : Type} (h : Abreast r r') {f : Receiver → Receiver × α}
    (g : Nat → Assembly.Phase → Assembly.Phase × α)
    (hf : ∀ r p, Refines r p → Agrees r.capacity (f r) (g r.capacity p)) :
    Concur (f r) (f r') := by
  obtain ⟨hcapacity, p, hp, hp'⟩ := h
  have hx' := hf r' p hp'
  rw [← hcapacity] at hx'
  exact concur_of_agrees (hf r p hp) hx'

/-- What comes of a unit that opens a message, for a receiver of this capacity. -/
def renewed (capacity : Nat) (cfg : Config) (policy : FlowPolicy) (now : Instant) (pdu : Pdu) :
    Assembly.Phase × Outcome :=
  match pdu with
  | .single len data =>
    if len.toNat ≤ capacity ∧ data.length < len.toNat then
      (.failed .outOfBounds, .failed .outOfBounds)
    else Assembly.accept capacity cfg policy now pdu .idle
  | _ => Assembly.accept capacity cfg policy now pdu .idle

/-- What was before does not count. -/
lemma accept_of_opens (h : Refines r p) (hr : r.status ≠ .done) (cfg : Config)
    (policy : FlowPolicy) (now : Instant) {pdu : Pdu} (hpdu : pdu.Opens) :
    Agrees r.capacity (r.accept cfg policy now pdu) (renewed r.capacity cfg policy now pdu) := by
  cases pdu with
  | single len data =>
    simp only [Receiver.accept, renewed, if_neg hr]
    by_cases hshort : len.toNat ≤ data.length
    · rw [if_neg (by omega)]
      exact h.single hshort
    · by_cases hlong : r.capacity < len.toNat
      · have htoo := h.giveUp .tooLong
        rw [if_neg (by omega)]
        simp only [single, Assembly.accept, if_pos hlong]
        exact htoo
      · rw [if_pos (by omega)]
        simp only [single, if_neg hlong]
        rw [if_pos (by omega)]
        exact h.giveUp .outOfBounds
  | first len data =>
    simp only [Receiver.accept, renewed, if_neg hr]
    exact h.first cfg policy now len.toNat data
  | consecutive | flowControl | invalid => exact hpdu.elim

/-- Receivers with any past are abreast once a frame opens a message. -/
lemma concur_of_opens {p' : Assembly.Phase} (h : Refines r p) (h' : Refines r' p')
    (hcapacity : r.capacity = r'.capacity) (hr : r.status ≠ .done) (hr' : r'.status ≠ .done)
    (cfg : Config) (policy : FlowPolicy) (now : Instant) {pdu : Pdu} (hpdu : pdu.Opens) :
    Concur (r.accept cfg policy now pdu) (r'.accept cfg policy now pdu) := by
  have hx' := accept_of_opens h' hr' cfg policy now hpdu
  rw [← hcapacity] at hx'
  exact concur_of_agrees (accept_of_opens h hr cfg policy now hpdu) hx'

namespace Abreast

lemma status (h : Abreast r r') : r.status = r'.status := by
  obtain ⟨-, p, hp, hp'⟩ := h
  rw [hp.represents.status, hp'.represents.status]

lemma accept (h : Abreast r r') (cfg : Config) (policy : FlowPolicy) (now : Instant) (pdu : Pdu) :
    Concur (r.accept cfg policy now pdu) (r'.accept cfg policy now pdu) := by
  by_cases hsound : Assembly.Sound pdu
  · exact h.of_agrees (Assembly.accept · cfg policy now pdu) fun _ _ hp =>
      hp.accept cfg policy now hsound
  · -- a single frame shorter than it says, which the assembly has no account of
    cases pdu with
    | single len data =>
      have hstatus := h.status
      by_cases hdone : r.status = .done
      · simp only [Receiver.accept, if_pos hdone, if_pos (hstatus ▸ hdone)]
        exact ⟨h, rfl⟩
      · obtain ⟨hcapacity, p, hp, hp'⟩ := h
        exact concur_of_opens hp hp' hcapacity hdone (hstatus ▸ hdone) cfg policy now trivial
    | first | consecutive | flowControl | invalid => exact absurd trivial hsound

lemma advance (h : Abreast r r') (now : Instant) : Concur (r.advance now) (r'.advance now) :=
  h.of_agrees (fun _ => Assembly.advance now) fun _ _ hp => hp.advance now

lemma collect (h : Abreast r r') (room : Nat) : Concur (r.collect room) (r'.collect room) :=
  h.of_agrees (fun _ => Assembly.collect room) fun _ _ hp => hp.collect room

lemma clear (h : Abreast r r') : Abreast r.clear r'.clear := by
  obtain ⟨hcapacity, p, hp, hp'⟩ := h
  exact ⟨hcapacity, .idle, hp.clear, hp'.clear⟩

lemma postpone (h : Abreast r r') (fc : FlowControl) (deadline : Instant) :
    Abreast (r.postpone fc deadline) (r'.postpone fc deadline) := by
  have hx : Concur (r.postpone fc deadline, Reply.none) (r'.postpone fc deadline, Reply.none) :=
    h.of_agrees (fun _ p => (p.setOwed (some fc) deadline, Reply.none)) fun _ _ hp =>
      hp.postpone fc deadline
  exact hx.1

lemma answered (h : Abreast r r') (deadline : Instant) :
    Abreast (r.answered deadline) (r'.answered deadline) := by
  have hx : Concur (r.answered deadline, Reply.none) (r'.answered deadline, Reply.none) :=
    h.of_agrees (fun _ p => (p.setOwed none deadline, Reply.none)) fun _ _ hp =>
      hp.answered deadline
  exact hx.1

end Abreast

/-! #### Runs -/

/-- A receiver that some calls have brought from a new one, over a buffer of any size and contents,
to where it stands. -/
def Reached (r : Receiver) : Prop :=
  ∃ buffer capacity cfg policy calls,
    r = (Host.run ⟨.new buffer capacity, cfg, policy⟩ calls).receiver

/-- Two receivers abreast whose calls are given the same. -/
structure Host.Abreast (h h' : Host) : Prop where
  receiver : h.receiver.Abreast h'.receiver
  cfg : h.cfg = h'.cfg
  policy : h.policy = h'.policy

namespace Host

variable {h h' : Host}

lemma Abreast.step (ha : h.Abreast h') (now : Instant) (op : Op) :
    (h.step now op).1.Abreast (h'.step now op).1 ∧ (h.step now op).2 = (h'.step now op).2 := by
  obtain ⟨r, cfg, policy⟩ := h
  obtain ⟨r', cfg', policy'⟩ := h'
  obtain ⟨hr, rfl, rfl⟩ := ha
  cases op with
  | pdu pdu =>
    obtain ⟨hnext, houtcome⟩ := hr.accept cfg policy now pdu
    exact ⟨⟨hnext, rfl, rfl⟩, congrArg Reply.outcome houtcome⟩
  | advance =>
    obtain ⟨hnext, hcause⟩ := hr.advance now
    exact ⟨⟨hnext, rfl, rfl⟩, congrArg Reply.expired hcause⟩
  | collect room =>
    obtain ⟨hnext, hresult⟩ := hr.collect room
    exact ⟨⟨hnext, rfl, rfl⟩, congrArg Reply.collected hresult⟩
  | clear => exact ⟨⟨hr.clear, rfl, rfl⟩, rfl⟩
  | postpone fc deadline => exact ⟨⟨hr.postpone fc deadline, rfl, rfl⟩, rfl⟩
  | answered deadline => exact ⟨⟨hr.answered deadline, rfl, rfl⟩, rfl⟩
  | setPolicy policy => exact ⟨⟨hr, rfl, rfl⟩, rfl⟩
  | setConfig cfg => exact ⟨⟨hr, rfl, rfl⟩, rfl⟩

lemma Abreast.run (ha : h.Abreast h') (calls : List (Instant × Op)) :
    (h.run calls).Abreast (h'.run calls) := by
  induction calls generalizing h h' with
  | nil => exact ha
  | cons call calls ih => exact ih (ha.step call.1 call.2).1

lemma recorded_eq (now : Instant) (op : Op)
    (hnext : (h.step now op).1.Abreast (h'.step now op).1)
    (hreply : (h.step now op).2 = (h'.step now op).2) :
    Assembly.recorded ⟨now, op, h.receiver, (h.step now op).2, (h.step now op).1.receiver⟩ =
      Assembly.recorded
        ⟨now, op, h'.receiver, (h'.step now op).2, (h'.step now op).1.receiver⟩ := by
  obtain ⟨-, p, hp, hp'⟩ := hnext.receiver
  simp only [Assembly.recorded, hreply, hp.represents.status, hp'.represents.status,
    hp.represents.message, hp'.represents.message, hp.represents.owed, hp'.represents.owed]

/-- No list of calls tells receivers abreast apart. -/
lemma Abreast.trace (ha : h.Abreast h') (calls : List (Instant × Op)) :
    (h.trace calls).map Assembly.recorded = (h'.trace calls).map Assembly.recorded := by
  induction calls generalizing h h' with
  | nil => rfl
  | cons call calls ih =>
    obtain ⟨hnext, hreply⟩ := ha.step call.1 call.2
    simp only [Host.trace, List.map_cons, ih hnext, recorded_eq call.1 call.2 hnext hreply]

end Host

/-- What the caller of either of two receivers sees of these calls is the same. -/
def SameIn (cfg : Config) (policy : FlowPolicy) (calls : List (Instant × Op)) (r r' : Receiver) :
    Prop :=
  (Host.trace ⟨r, cfg, policy⟩ calls).map Assembly.recorded =
    (Host.trace ⟨r', cfg, policy⟩ calls).map Assembly.recorded

lemma Abreast.sameIn (h : Abreast r r') (cfg : Config) (policy : FlowPolicy)
    (calls : List (Instant × Op)) : SameIn cfg policy calls r r' := by
  have hhosts : Host.Abreast ⟨r, cfg, policy⟩ ⟨r', cfg, policy⟩ := ⟨h, rfl, rfl⟩
  exact hhosts.trace calls

lemma abreast_new {b b' : Buffer} {n n' : Nat} (h : min n b.size = min n' b'.size) :
    Abreast (.new b n) (.new b' n') :=
  ⟨h, .idle, Assembly.refines_new b n, Assembly.refines_new b' n'⟩

lemma Reached.refines (h : r.Reached) : ∃ p, Refines r p := by
  obtain ⟨buffer, capacity, cfg, policy, calls, rfl⟩ := h
  -- a receiver is abreast of itself, and stays so in the calls
  let start : Host := ⟨.new buffer capacity, cfg, policy⟩
  have hsame : start.Abreast start := ⟨abreast_new rfl, rfl, rfl⟩
  obtain ⟨-, p, hp, -⟩ := (hsame.run calls).receiver
  exact ⟨p, hp⟩

/-- Receivers with any past do the same once a frame opens a message. -/
theorem Reached.sameIn (h : r.Reached) (h' : r'.Reached) (hcapacity : r.capacity = r'.capacity)
    (hr : r.status ≠ .done) (hr' : r'.status ≠ .done) (cfg : Config) (policy : FlowPolicy)
    (now : Instant) {pdu : Pdu} (hpdu : pdu.Opens) (calls : List (Instant × Op)) :
    SameIn cfg policy ((now, .pdu pdu) :: calls) r r' := by
  obtain ⟨p, hp⟩ := h.refines
  obtain ⟨p', hp'⟩ := h'.refines
  obtain ⟨hnext, houtcome⟩ :=
    concur_of_opens hp hp' hcapacity hr hr' cfg policy now hpdu
  have hhosts : (Host.step ⟨r, cfg, policy⟩ now (.pdu pdu)).1.Abreast
      (Host.step ⟨r', cfg, policy⟩ now (.pdu pdu)).1 := ⟨hnext, rfl, rfl⟩
  have hreply := congrArg Reply.outcome houtcome
  simp only [SameIn, Host.trace, List.map_cons, hhosts.trace calls,
    Host.recorded_eq now (.pdu pdu) hhosts hreply]

end Receiver

/-! ### Senders -/

namespace Sender

variable {s s' : Sender} {t : Transfer} {cfg : Config} {now : Instant}

/-- Two senders of the same capacity that stand at the same point, with the same bytes of the
message in flight. What else their buffers have may differ. -/
structure Abreast (s s' : Sender) : Prop where
  phase : s.phase = s'.phase
  capacity : s.capacity = s'.capacity
  fits : s.capacity ≤ s.buffer.size
  fits' : s'.capacity ≤ s'.buffer.size
  message : ∀ t, s.transfer? = some t →
    t.offset ≤ t.length ∧ Buffer.Alike t.length s.buffer s'.buffer

/-- Two calls that yield the same and leave their senders abreast. -/
def Concur {α : Type} (x x' : Sender × α) : Prop := Abreast x.1 x'.1 ∧ x.2 = x'.2

lemma Abreast.progress (h : Abreast s s') : s.progress = s'.progress := by
  simp only [Sender.progress, h.phase]

/-- Without a message in flight, what the buffers have does not count. -/
lemma Abreast.setPhase (h : Abreast s s') {phase : Phase}
    (hidle : ({ s with phase } : Sender).transfer? = none) :
    Abreast { s with phase } { s' with phase } := by
  refine ⟨rfl, h.capacity, h.fits, h.fits', fun t ht => ?_⟩
  rw [hidle] at ht
  cases ht

/-- The message in flight stays the same, and the offset within it. -/
lemma Abreast.keep (h : Abreast s s') (ht : s.transfer? = some t) {phase : Phase} {t' : Transfer}
    (ht' : ({ s with phase } : Sender).transfer? = some t') (hlength : t'.length = t.length)
    (hoffset : t'.offset ≤ t'.length) : Abreast { s with phase } { s' with phase } := by
  refine ⟨rfl, h.capacity, h.fits, h.fits', fun u hu => ?_⟩
  obtain rfl := Option.some.inj (ht'.symm.trans hu)
  refine ⟨hoffset, ?_⟩
  rw [hlength]
  exact (h.message t ht).2

lemma Abreast.cancel (h : Abreast s s') : Abreast s.cancel s'.cancel := by
  have hbusy : s.Busy ↔ s'.Busy := by rw [Busy, Busy, transfer?_congr h.phase]
  unfold Sender.cancel
  by_cases hs : s.Busy
  · rw [if_pos hs, if_pos (hbusy.1 hs)]
    exact h.setPhase rfl
  · rw [if_neg hs, if_neg (hs ∘ hbusy.2)]
    exact h

/-! #### Opening frames -/

lemma opening_congr {ε : Type} (hbusy : s.transfer?.isSome = s'.transfer?.isSome)
    (hcapacity : s.capacity = s'.capacity) (cfg : Config) (payload : Bytes) :
    s.opening (ε := ε) cfg payload = s'.opening cfg payload := by
  simp only [opening, Busy, hbusy, hcapacity]

/-- A message written to the start of two buffers is what both have there. -/
lemma alike_of_write? {b b' d d' : Buffer} {data : Bytes} (hd : b.write? 0 data = some d)
    (hd' : b'.write? 0 data = some d') : Buffer.Alike data.length d d' := by
  have hle := Buffer.isSome_write?_iff.1 (Option.isSome_of_eq_some hd)
  have hle' := Buffer.isSome_write?_iff.1 (Option.isSome_of_eq_some hd')
  have htake := Buffer.take_add_of_write? hd
  have htake' := Buffer.take_add_of_write? hd'
  rw [Nat.zero_add, List.take_zero, List.nil_append] at htake htake'
  rw [← Buffer.size_of_write? hd] at hle
  rw [← Buffer.size_of_write? hd'] at hle'
  exact ⟨by omega, by omega, htake.trans htake'.symm⟩

/-- Whatever the buffers have, a message that begins takes its place in both. -/
lemma opened_concur (hcapacity : s.capacity = s'.capacity) (hfits : s.capacity ≤ s.buffer.size)
    (hfits' : s'.capacity ≤ s'.buffer.size) {payload : Bytes} (hle : payload.length ≤ s.capacity)
    (cfg : Config) (now : Instant) (id : CanId) :
    Concur (s.opened cfg now id payload) (s'.opened cfg now id payload) := by
  unfold Sender.opened finish
  dsimp only
  split
  · exact ⟨⟨rfl, hcapacity, hfits, hfits', nofun⟩, rfl⟩
  · obtain ⟨d, hd, hkeeps⟩ := Buffer.exists_write? (show 0 + payload.length ≤ s.capacity by omega)
      hfits
    obtain ⟨d', hd', hkeeps'⟩ :=
      Buffer.exists_write? (show 0 + payload.length ≤ s'.capacity by omega) hfits'
    simp only [hd, hd']
    refine ⟨⟨rfl, hcapacity, ?_, ?_, ?_⟩, rfl⟩
    · rw [hkeeps.size_eq]
      exact hfits
    · rw [hkeeps'.size_eq]
      exact hfits'
    · rintro t ⟨⟩
      exact ⟨Nat.min_le_left .., alike_of_write? hd hd'⟩

section Begin

variable {σ ε : Type} [Link σ ε]

/-- Senders with any past that have nothing in flight begin a message the same way. -/
lemma begin_of_idle (hcapacity : s.capacity = s'.capacity) (hfits : s.capacity ≤ s.buffer.size)
    (hfits' : s'.capacity ≤ s'.buffer.size) (hs : ¬s.Busy) (hs' : ¬s'.Busy) (cfg : Config)
    (now : Instant) (id : CanId) (payload : Bytes) (line : σ) :
    let turn := s.begin (ε := ε) cfg now id payload line
    let turn' := s'.begin (ε := ε) cfg now id payload line
    turn.line = turn'.line ∧ turn.value = turn'.value ∧
      ((∃ e, turn.value = .error e) ∧ turn.sender = s ∧ turn'.sender = s' ∨
        Abreast turn.sender turn'.sender) := by
  have hopening : s.opening (ε := ε) cfg payload = s'.opening cfg payload :=
    opening_congr (by simp_all [Busy]) hcapacity cfg payload
  unfold Sender.begin
  rw [← hopening]
  cases hok : s.opening (ε := ε) cfg payload with
  | error e => exact ⟨rfl, rfl, .inl ⟨⟨e, rfl⟩, rfl, rfl⟩⟩
  | ok pdu =>
    have hconcur := opened_concur hcapacity hfits hfits' (length_le_of_opening hok) cfg now id
    dsimp only
    rcases Link.offer cfg id pdu line with ⟨e | _, rest⟩
    · exact ⟨rfl, rfl, .inl ⟨⟨e, rfl⟩, rfl, rfl⟩⟩
    · exact ⟨rfl, congrArg Except.ok hconcur.2, .inr hconcur.1⟩

/-- A call of a sender and the same call of another do the same on a link. -/
structure Turn.Concur {α : Type} (turn turn' : Turn σ α) : Prop where
  sender : Abreast turn.sender turn'.sender
  line : turn.line = turn'.line
  value : turn.value = turn'.value

lemma Abreast.begin (h : Abreast s s') (cfg : Config) (now : Instant) (id : CanId)
    (payload : Bytes) (line : σ) :
    (s.begin (ε := ε) cfg now id payload line).Concur (s'.begin cfg now id payload line) := by
  by_cases hs : s.Busy
  · have hs' : s'.Busy := by rwa [Busy, ← transfer?_congr h.phase]
    simp only [Sender.begin, opening, if_pos hs, if_pos hs']
    exact ⟨h, rfl, rfl⟩
  · have hs' : ¬s'.Busy := by rwa [Busy, ← transfer?_congr h.phase]
    obtain ⟨hline, hvalue, ⟨-, hsame, hsame'⟩ | hnext⟩ :=
      begin_of_idle h.capacity h.fits h.fits' hs hs' cfg now id payload line (ε := ε)
    · refine ⟨?_, hline, hvalue⟩
      rw [hsame, hsame']
      exact h
    · exact ⟨hnext, hline, hvalue⟩

end Begin

/-! #### Flow control and consecutive frames -/

lemma Abreast.accept (h : Abreast s s') (cfg : Config) (now : Instant) (fc : FlowControl) :
    Concur (s.accept cfg now fc) (s'.accept cfg now fc) := by
  have hmessage := h.message
  unfold Sender.accept
  rw [← h.phase]
  cases hphase : s.phase with
  | waiting t deadline =>
    have ht : s.transfer? = some t := by simp only [transfer?, hphase]
    have hoffset := (h.message t ht).1
    cases fc.status with
    | clearToSend => exact ⟨h.keep ht rfl rfl hoffset, rfl⟩
    | wait =>
      dsimp only
      split
      · exact ⟨h.setPhase rfl, rfl⟩
      · exact ⟨h.keep ht rfl rfl hoffset, rfl⟩
    | overflow => exact ⟨h.setPhase rfl, rfl⟩
  | idle | sending | done | failed => exact ⟨h, rfl⟩

lemma Abreast.due_eq (h : Abreast s s') (cfg : Config) (now : Instant) :
    s.due cfg now = s'.due cfg now := by
  unfold Sender.due
  rw [← h.phase]
  cases hphase : s.phase with
  | sending t =>
    obtain ⟨hoffset, halike⟩ := h.message t (by simp only [transfer?, hphase])
    have hread := halike.read?_eq
      (show t.offset + min (t.length - t.offset) cfg.consecutiveRoom ≤ t.length by omega)
    simp only [hread]
  | idle | waiting | done | failed => rfl

lemma Abreast.placed (h : Abreast s s') (hphase : s.phase = .sending t) {count : Nat}
    (hcount : t.offset + count ≤ t.length) (cfg : Config) (now : Instant) :
    Concur (s.placed cfg now t count) (s'.placed cfg now t count) := by
  have ht : s.transfer? = some t := by simp only [transfer?, hphase]
  unfold Sender.placed finish
  dsimp only
  split
  · exact ⟨h.setPhase rfl, rfl⟩
  · split
    · exact ⟨h.keep ht rfl rfl hcount, rfl⟩
    · split
      · exact ⟨h.keep ht rfl rfl hcount, rfl⟩
      · exact ⟨h.keep ht rfl rfl hcount, rfl⟩

lemma Abreast.refused (h : Abreast s s') (hphase : s.phase = .sending t) (now : Instant) :
    Abreast (s.refused now t) (s'.refused now t) := by
  have ht : s.transfer? = some t := by simp only [transfer?, hphase]
  exact h.keep ht rfl rfl (h.message t ht).1

lemma Abreast.advance {σ ε : Type} [Link σ ε] (h : Abreast s s') (cfg : Config) (now : Instant)
    (line : σ) : (s.advance cfg now line).Concur (s'.advance cfg now line) := by
  unfold Sender.advance
  rw [← h.due_eq]
  cases hdue : s.due cfg now with
  | nothing => exact ⟨h, rfl, rfl⟩
  | expired timer => exact ⟨h.setPhase rfl, rfl, rfl⟩
  | finished len => exact ⟨h.setPhase rfl, rfl, rfl⟩
  | outOfBounds => exact ⟨h.setPhase rfl, rfl, rfl⟩
  | frame t chunk =>
    obtain ⟨hphase, hread⟩ := due_eq_frame hdue
    dsimp only
    rcases Link.offer cfg t.id (.consecutive (.ofNat t.nextSn) chunk) line with ⟨e | _, rest⟩
    · exact ⟨h.refused hphase now, rfl, rfl⟩
    · have hoffset := (h.message t (by simp only [transfer?, hphase])).1
      have hlength := Buffer.length_of_read? hread
      have hcount : t.offset + chunk.length ≤ t.length := by omega
      obtain ⟨hnext, hevent⟩ := h.placed hphase hcount cfg now
      exact ⟨hnext, rfl, hevent⟩

/-! #### Runs -/

/-- A sender that some calls, on some link, have brought from a new one, over a buffer of any size
and contents, to where it stands. -/
def Reached (s : Sender) : Prop :=
  ∃ (σ ε : Type) (_ : Link σ ε) (buffer : Buffer) (capacity : Nat) (cfg : Config) (line : σ)
    (calls : List (Instant × Op σ)), s = (Host.run ⟨.new buffer capacity, cfg, line⟩ calls).sender

/-- What the caller of a sender and its link see of a call: what it yields, the frames it offers to
the link with the answers to them, and the progress after it. -/
structure Sight (ε : Type) where
  reply : Reply ε
  offers : List Offer
  progress : Progress

def Record.sight {σ ε : Type} (y : Record σ ε) : Sight ε := ⟨y.reply, y.offers, y.after.progress⟩

/-- Two senders abreast whose calls are given the same, on links in the same state. -/
structure Host.Abreast {σ : Type} (h h' : Host σ) : Prop where
  sender : h.sender.Abreast h'.sender
  cfg : h.cfg = h'.cfg
  line : h.line = h'.line

namespace Host

variable {σ ε : Type} [Link σ ε] {h h' : Host σ}

lemma Abreast.step (ha : h.Abreast h') (now : Instant) (op : Op σ) :
    (h.step now op).1.Abreast (h'.step now op).1 ∧
      (h.step now op).2.sight = (h'.step now op).2.sight := by
  obtain ⟨s, cfg, line⟩ := h
  obtain ⟨s', cfg', line'⟩ := h'
  obtain ⟨hs, rfl, rfl⟩ := ha
  cases op with
  | begin id payload =>
    obtain ⟨hnext, hline, hvalue⟩ := hs.begin cfg now id payload (Tap.mk line [])
    refine ⟨⟨hnext, rfl, congrArg Tap.line hline⟩, ?_⟩
    simp only [step, Record.sight, hline, hvalue, hnext.progress]
  | flowControl fc =>
    obtain ⟨hnext, hevent⟩ := hs.accept cfg now fc
    refine ⟨⟨hnext, rfl, rfl⟩, ?_⟩
    simp only [step, Record.sight, hevent, hnext.progress]
  | advance =>
    obtain ⟨hnext, hline, hvalue⟩ := hs.advance cfg now (Tap.mk line [])
    refine ⟨⟨hnext, rfl, congrArg Tap.line hline⟩, ?_⟩
    simp only [step, Record.sight, hline, hvalue, hnext.progress]
  | cancel =>
    refine ⟨⟨hs.cancel, rfl, rfl⟩, ?_⟩
    simp only [step, Record.sight, hs.cancel.progress]
  | setConfig cfg =>
    refine ⟨⟨hs, rfl, rfl⟩, ?_⟩
    simp only [step, Record.sight, hs.progress]
  | setLine line =>
    refine ⟨⟨hs, rfl, rfl⟩, ?_⟩
    simp only [step, Record.sight, hs.progress]

lemma Abreast.run (ha : h.Abreast h') (calls : List (Instant × Op σ)) :
    (h.run calls).Abreast (h'.run calls) := by
  induction calls generalizing h h' with
  | nil => exact ha
  | cons call calls ih => exact ih (ha.step call.1 call.2).1

/-- No list of calls tells senders abreast apart. -/
lemma Abreast.trace (ha : h.Abreast h') (calls : List (Instant × Op σ)) :
    (h.trace calls).map Record.sight = (h'.trace calls).map Record.sight := by
  induction calls generalizing h h' with
  | nil => rfl
  | cons call calls ih =>
    obtain ⟨hnext, hsight⟩ := ha.step call.1 call.2
    simp only [Host.trace, List.map_cons, ih hnext, hsight]

end Host

/-- What the caller of either of two senders and its link see of these calls is the same. -/
def SameIn {σ ε : Type} [Link σ ε] (cfg : Config) (line : σ) (calls : List (Instant × Op σ))
    (s s' : Sender) : Prop :=
  (Host.trace ⟨s, cfg, line⟩ calls).map Record.sight =
    (Host.trace ⟨s', cfg, line⟩ calls).map Record.sight

lemma Abreast.sameIn {σ ε : Type} [Link σ ε] (h : Abreast s s') (cfg : Config) (line : σ)
    (calls : List (Instant × Op σ)) : SameIn cfg line calls s s' := by
  have hhosts : Host.Abreast ⟨s, cfg, line⟩ ⟨s', cfg, line⟩ := ⟨h, rfl, rfl⟩
  exact hhosts.trace calls

lemma abreast_new {b b' : Buffer} {n n' : Nat} (h : min n b.size = min n' b'.size) :
    Abreast (.new b n) (.new b' n') :=
  ⟨rfl, h, Nat.min_le_right .., Nat.min_le_right .., nofun⟩

lemma Reached.fits (h : s.Reached) : s.capacity ≤ s.buffer.size := by
  obtain ⟨σ, ε, hlink, buffer, capacity, cfg, line, calls, rfl⟩ := h
  have hsame : Host.Abreast ⟨.new buffer capacity, cfg, line⟩ ⟨.new buffer capacity, cfg, line⟩ :=
    ⟨abreast_new rfl, rfl, rfl⟩
  exact (hsame.run calls).sender.fits

/-- Senders with any past do the same once a message begins. -/
theorem Reached.sameIn {σ ε : Type} [Link σ ε] (h : s.Reached) (h' : s'.Reached)
    (hcapacity : s.capacity = s'.capacity) (hs : ¬s.Busy) (hs' : ¬s'.Busy) (cfg : Config)
    (line : σ) (now : Instant) (id : CanId) (payload : Bytes) {event : Option Event}
    (hbegun : (Host.step ⟨s, cfg, line⟩ now (.begin id payload)).2.reply = .begun (.ok event))
    (calls : List (Instant × Op σ)) :
    SameIn cfg line ((now, .begin id payload) :: calls) s s' := by
  obtain ⟨hline, hvalue, ⟨⟨e, herror⟩, -⟩ | hnext⟩ :=
    begin_of_idle hcapacity h.fits h'.fits hs hs' cfg now id payload (Tap.mk line [])
  · rw [Reply.begun.inj hbegun] at herror
    cases herror
  · have hhosts : (Host.step ⟨s, cfg, line⟩ now (.begin id payload)).1.Abreast
        (Host.step ⟨s', cfg, line⟩ now (.begin id payload)).1 :=
      ⟨hnext, rfl, congrArg Tap.line hline⟩
    have hsight : (Host.step ⟨s, cfg, line⟩ now (.begin id payload)).2.sight =
        (Host.step ⟨s', cfg, line⟩ now (.begin id payload)).2.sight := by
      simp only [Host.step, Record.sight, hline, hvalue, hnext.progress]
    simp only [SameIn, Host.trace, List.map_cons, hhosts.trace calls, hsight]

end Sender

/-! ### Main statement -/

/-- **A message starts afresh.** Whatever the calls that came before, on whatever buffers: two
receivers of the same capacity without a complete message, one of which may have failed, do the same
from a frame on that opens a message; and two senders of the same capacity with nothing in flight do
the same from a message on that is begun with success, on links that answer the same. What a buffer
has at first makes no difference in any calls at all. -/
theorem starts_afresh {σ ε : Type} [Link σ ε] :
    (∀ r r' : Receiver, r.Reached → r'.Reached → r.capacity = r'.capacity →
      r.status ≠ .done → r'.status ≠ .done →
      ∀ cfg policy now pdu calls, pdu.Opens →
        Receiver.SameIn cfg policy ((now, .pdu pdu) :: calls) r r') ∧
    (∀ s s' : Sender, s.Reached → s'.Reached → s.capacity = s'.capacity → ¬s.Busy → ¬s'.Busy →
      ∀ (cfg : Config) (line : σ) now id payload event calls,
        (Sender.Host.step ⟨s, cfg, line⟩ now (.begin id payload)).2.reply = .begun (.ok event) →
        Sender.SameIn cfg line ((now, .begin id payload) :: calls) s s') ∧
    ∀ (b b' : Buffer) (n n' : Nat), min n b.size = min n' b'.size →
      (∀ cfg policy calls, Receiver.SameIn cfg policy calls (.new b n) (.new b' n')) ∧
      ∀ (cfg : Config) (line : σ) calls, Sender.SameIn cfg line calls (.new b n) (.new b' n') := by
  refine ⟨?_, ?_, fun b b' n n' hsize => ⟨?_, ?_⟩⟩
  · intro r r' h h' hcapacity hr hr' cfg policy now pdu calls hpdu
    exact h.sameIn h' hcapacity hr hr' cfg policy now hpdu calls
  · intro s s' h h' hcapacity hs hs' cfg line now id payload event calls hbegun
    exact h.sameIn h' hcapacity hs hs' cfg line now id payload hbegun calls
  · exact (Receiver.abreast_new hsize).sameIn
  · exact (Sender.abreast_new hsize).sameIn

/-- A receiver that has failed and a new one over a buffer of nines collect the same message, and a
sender that has given up and a new one send the same. -/
theorem starts_afresh_after_failures :
    let cfg : Config := {}
    let nines : Buffer := .ofList (.replicate 20 9)
    let failed := (Receiver.Host.run ⟨.new (.zeroed 8) 8, cfg, cfg.policy⟩
      [(0, .pdu (.first 8 [1, 2, 3, 4, 5, 6])), (1, .pdu (.consecutive 5 [7, 8]))]).receiver
    let cancelled := (Sender.Host.run ⟨.new (.zeroed 12) 12, cfg, (⟨none⟩ : Quota)⟩
      [(0, .begin (.standard 0) (.replicate 12 5)), (1, .cancel)]).sender
    let collecting : List (Instant × Receiver.Op) :=
      [(2, .pdu (.single 3 [7, 8, 9])), (3, .collect 3)]
    let sending : List (Instant × Sender.Op Quota) :=
      [(2, .begin (.standard 0) (.replicate 10 7)),
        (3, .flowControl (.ofWire .clearToSend 0 0)), (4, .advance)]
    failed.status = .failed ∧ Receiver.SameIn cfg cfg.policy collecting failed (.new nines 8) ∧
      Sender.SameIn cfg (⟨none⟩ : Quota) sending (.new nines 12) cancelled := by
  intro cfg nines failed cancelled collecting sending
  obtain ⟨hreceivers, hsenders, -⟩ := starts_afresh (σ := Quota)
  have hfailed : failed.Reached := ⟨.zeroed 8, 8, cfg, cfg.policy, _, rfl⟩
  have hnew : Receiver.Reached (.new nines 8) := ⟨nines, 8, cfg, cfg.policy, [], rfl⟩
  have hcancelled : cancelled.Reached :=
    ⟨Quota, Refusal, inferInstance, .zeroed 12, 12, cfg, ⟨none⟩, _, rfl⟩
  have hidle : Sender.Reached (.new nines 12) :=
    ⟨Quota, Refusal, inferInstance, nines, 12, cfg, ⟨none⟩, [], rfl⟩
  refine ⟨by decide +kernel, ?_, ?_⟩
  · exact hreceivers _ _ hfailed hnew (by decide +kernel) (by decide +kernel) (by decide +kernel)
      cfg cfg.policy 2 _ _ trivial
  · exact hsenders _ _ hidle hcancelled (by decide +kernel) (by decide +kernel)
      (by decide +kernel) cfg ⟨none⟩ 2 _ _ none _ rfl

end IsoTp
