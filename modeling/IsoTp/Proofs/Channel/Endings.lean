import IsoTp.Proofs.Channel.Outcome
import IsoTp.Proofs.Channel.Transmission

/-!
How the messages that a channel sends end.

A message is in flight from the call that begins it to the one that ends it: all of it is sent, it
fails, or the application calls it off. No call begins a message while another is in flight, and
none ends a message that is not. So every message has one ending, but for the one in flight, and
once it has ended none of its frames goes out any more.
-/

namespace IsoTp

/-- How the sending of a message ends: all its `len` bytes are on the link, it failed, or the
application called it off. -/
inductive Ending where
  | sent (len : Nat)
  | failed (cause : Abort)
  | calledOff
deriving DecidableEq, Repr

open Segmentation

/-! ### The sender -/

namespace Sender

/-- The ending that an event tells of. -/
def Event.ending : Event → Ending
  | .complete len => .sent len
  | .failed cause => .failed cause

/-- The length of the message in flight. -/
def inFlight (s : Sender) : Option Nat := s.transfer?.map Transfer.length

/-- What a call can do to the message in flight: leave it as it is, end it, begin one where there is
none, or begin one that ends with the same call. Only a message that was sent has its length
told. -/
inductive Concludes : Option Nat → Option Nat → List Ending → Option Nat → Prop
  | rest (x : Option Nat) : Concludes x none [] x
  | ends {len : Nat} {e : Ending} (h : e = .sent len ∨ ∀ n, e ≠ .sent n) :
      Concludes (some len) none [e] none
  | begins (len : Nat) : Concludes none (some len) [] (some len)
  | atOnce (len : Nat) : Concludes none (some len) [.sent len] none

/-- Messages in flight before and begun are as many as those ended and in flight after. -/
lemma Concludes.count {x begun x' : Option Nat} {ends : List Ending}
    (h : Concludes x begun ends x') :
    begun.toList.length + x.toList.length = ends.length + x'.toList.length := by
  cases h with
  | rest => simp
  | ends | begins | atOnce => rfl

/-- A call that leaves a message in flight ends none. -/
lemma Concludes.eq_nil {x begun : Option Nat} {ends : List Ending} {len : Nat}
    (h : Concludes x begun ends (some len)) : ends = [] := by
  cases h <;> rfl

/-- Nor does one that begins no message and finds none in flight. -/
lemma Concludes.eq_nil_of_same {x : Option Nat} {ends : List Ending}
    (h : Concludes x none ends x) : ends = [] := by
  cases h
  rfl

/-- A call brings no second ending. -/
lemma Concludes.eq_singleton {x begun x' : Option Nat} {ends : List Ending} {e : Ending}
    (h : Concludes x begun ends x') (he : e ∈ ends) : ends = [e] := by
  cases h with
  | rest | begins => cases he
  | ends | atOnce => rw [List.mem_singleton.1 he]

variable {cfg : Config} {now : Instant} {s s' : Sender} {t : Transfer}

lemma inFlight_eq_none_iff : s.inFlight = none ↔ ¬s.Busy := by
  simp [inFlight, Busy]

/-- The message in flight is the cargo on its way. -/
lemma Ready.inFlight_eq {x : Option Cargo} (hready : s.Ready cfg x) :
    s.inFlight = x.map (·.payload.length) := by
  have hholds := hready.holds
  cases x with
  | none => exact congrArg (Option.map Transfer.length) hholds
  | some o =>
    obtain ⟨t, ht, hc⟩ := hholds
    rw [inFlight, ht, Option.map_some, hc.length, Option.map_some]

lemma inFlight_of_waiting {deadline : Instant} (h : s.phase = .waiting t deadline) :
    s.inFlight = some t.length := by
  simp only [inFlight, transfer?, h, Option.map_some]

lemma inFlight_of_sending (h : s.phase = .sending t) : s.inFlight = some t.length := by
  simp only [inFlight, transfer?, h, Option.map_some]

lemma concludes_accept (cfg : Config) (now : Instant) (fc : FlowControl) :
    Concludes s.inFlight none ((s.accept cfg now fc).2.toList.map Event.ending)
      (s.accept cfg now fc).1.inFlight := by
  unfold Sender.accept
  split
  · next t deadline hphase =>
    rw [inFlight_of_waiting hphase]
    split
    · exact .rest _
    · dsimp only
      split
      · exact .ends (.inr nofun)
      · exact .rest _
    · exact .ends (.inr nofun)
  · exact .rest _

/-- Only the timers of a message in flight expire. -/
lemma inFlight_of_expired {timer : Timer} (hdue : s.due cfg now = .expired timer) :
    ∃ len, s.inFlight = some len := by
  unfold due at hdue
  split at hdue
  · next hphase => exact ⟨_, inFlight_of_waiting hphase⟩
  · next hphase => exact ⟨_, inFlight_of_sending hphase⟩
  · cases hdue

/-- A consecutive frame on the link ends the message if it is the last one. -/
lemma concludes_placed (cfg : Config) (now : Instant) (t : Transfer) (count : Nat) :
    Concludes (some t.length) none ((s.placed cfg now t count).2.toList.map Event.ending)
      (s.placed cfg now t count).1.inFlight := by
  have hrest : Concludes (some t.length) none [] (some t.length) := .rest _
  unfold Sender.placed
  dsimp only
  split
  · exact .ends (.inl rfl)
  · split
    · exact hrest
    · split
      · exact hrest
      · exact hrest

lemma Advances.concludes {new : List Offer} {event : Option Event}
    (h : s.Advances cfg now s' new event) :
    Concludes s.inFlight none (event.toList.map Event.ending) s'.inFlight := by
  cases h with
  | rest => exact .rest _
  | expired hdue =>
    obtain ⟨len, hlen⟩ := inFlight_of_expired hdue
    rw [hlen]
    exact .ends (.inr nofun)
  | refused hphase =>
    rw [inFlight_of_sending hphase]
    exact .rest _
  | taken hphase =>
    rw [inFlight_of_sending hphase]
    exact concludes_placed cfg now _ _

lemma concludes_cancel :
    Concludes s.inFlight none (if s.Busy then [.calledOff] else []) s.cancel.inFlight := by
  unfold Sender.cancel
  split
  · next hbusy =>
    obtain ⟨t, ht⟩ := Option.isSome_iff_exists.1 hbusy
    rw [inFlight, ht]
    exact .ends (.inr nofun)
  · exact .rest _

/-- A message whose opening frame the link takes is in flight, or sent if it is short. -/
lemma Begins.concludes {ε : Type} {x : Option Cargo} {id : CanId} {payload : Bytes}
    {new : List Offer} {event : Option Event} (hready : s.Ready cfg x)
    (h : s.Begins (ε := ε) cfg now id payload s' new (.ok event)) :
    Concludes s.inFlight (some payload.length) (event.toList.map Event.ending) s'.inFlight := by
  cases h with
  | taken hidle hs hcap =>
    have hfits := hready.fits
    rw [show s.inFlight = none by rw [inFlight, hidle]; rfl]
    by_cases hshort : payload.length ≤ cfg.singleRoom
    · rw [opened_of_short hshort]
      exact .atOnce _
    · obtain ⟨buffer, -, hopened, -⟩ :=
        opened_of_long (s := s) hs (Nat.not_le.1 hshort) (by omega) now id
      rw [hopened]
      exact .begins _

/-! ### A sender at rest -/

/-- Without a message in flight, flow control is not waited for. -/
lemma accept_of_idle (hidle : s.transfer? = none) (fc : FlowControl) :
    s.accept cfg now fc = (s, none) := by
  unfold Sender.accept
  split
  · next hphase => simp [transfer?, hphase] at hidle
  · rfl

lemma Advances.of_idle {new : List Offer} {event : Option Event}
    (h : s.Advances cfg now s' new event) (hidle : s.transfer? = none) :
    s' = s ∧ new = [] ∧ event = none := by
  cases h with
  | rest => exact ⟨rfl, rfl, rfl⟩
  | expired hdue =>
    obtain ⟨len, hlen⟩ := inFlight_of_expired hdue
    simp [inFlight, hidle] at hlen
  | refused hphase | taken hphase => simp [transfer?, hphase] at hidle

lemma cancel_of_idle (hidle : s.transfer? = none) : s.cancel = s := by
  unfold Sender.cancel
  rw [if_neg (by simp [Busy, hidle])]

end Sender

namespace Channel

/-! ### Events -/

/-- The failures of messages being sent that events report. -/
def sendFailures (events : List Event) : List Abort :=
  events.filterMap fun
    | .failed .send cause => some cause
    | _ => none

/-- The endings of messages being sent that events report. -/
def endings (events : List Event) : List Ending :=
  events.filterMap fun
    | .sent len => some (.sent len)
    | .failed .send cause => some (.failed cause)
    | _ => none

lemma endings_append (u v : List Event) : endings (u ++ v) = endings u ++ endings v :=
  List.filterMap_append ..

lemma endings_sendEvent (event : Option Sender.Event) :
    endings (event.toList.map sendEvent) = event.toList.map Sender.Event.ending := by
  rcases event with _ | ⟨len⟩ | cause <;> rfl

lemma endings_receive (cause : Option Abort) :
    endings (cause.toList.map (.failed .receive)) = [] := by
  cases cause <;> rfl

/-- Every ending that events report is that of a message sent or of one that failed. -/
lemma length_endings (events : List Event) :
    (endings events).length = (sentLengths events).length + (sendFailures events).length := by
  unfold endings sentLengths sendFailures
  induction events with
  | nil => rfl
  | cons e events ih =>
    rcases e with len | data | ⟨_ | _, cause⟩ <;> simp only [List.filterMap_cons] <;>
      simp only [List.length_cons, ih] <;> omega

namespace Record

variable {σ ε : Type} (y : Record σ ε)

def sendFailures : List Abort := Channel.sendFailures y.events

/-- The application calls off a message in flight. -/
def callsOff : Bool :=
  match y.op with
  | .cancel => y.before.sender.transfer?.isSome
  | _ => false

/-- The endings that a call brings. -/
def endings : List Ending := Channel.endings y.events ++ if y.callsOff then [.calledOff] else []

variable {y}

lemma endings_eq (h : y.callsOff = false) : y.endings = Channel.endings y.events := by
  rw [endings, h, if_neg Bool.false_ne_true, List.append_nil]

lemma length_endings : y.endings.length =
    y.sent.length + y.sendFailures.length + if y.callsOff then 1 else 0 := by
  rw [endings, List.length_append, Channel.length_endings]
  split <;> rfl

lemma sent_mem_endings_iff {n : Nat} : .sent n ∈ y.endings ↔ n ∈ y.sent := by
  unfold endings sent Channel.endings sentLengths
  rw [List.mem_append, or_iff_left (by split <;> simp), List.mem_filterMap, List.mem_filterMap]
  refine exists_congr fun e => and_congr_right fun _ => ?_
  rcases e with len | data | ⟨_ | _, cause⟩ <;> simp

lemma begun_of_verdict {value : Except (Error ε) Unit} {id : CanId} {payload : Bytes}
    (hreply : y.reply = .verdict value) (hop : y.op.message? y.before.cfg = some (id, payload)) :
    y.begun = value.toOption.map fun _ => (id, payload) := by
  rw [begun, hreply, hop]
  cases value <;> rfl

/-- A call that asks for no message begins none. -/
lemma begun_eq_none (hop : y.op.message? y.before.cfg = none) : y.begun = none := by
  unfold begun
  split
  · exact hop
  · rfl

end Record

/-! ### What a call does -/

variable {c x : Channel} {now : Instant} {new : List Offer} {events : List Event}

open Sender (Concludes)

lemma Resolves.endings_eq {outcome : Receiver.Outcome} {r : Receiver}
    (h : Resolves now c outcome r new events) : endings events = [] := by
  cases h <;> rfl

lemma Accepts.concludes {f : Frame} (h : Accepts now f c x new events) :
    Concludes c.sender.inFlight none (endings events) x.sender.inFlight := by
  cases h with
  | foreign => exact .rest _
  | flowControl =>
    rw [endings_sendEvent]
    exact Sender.concludes_accept ..
  | unit hf hread hresolves =>
    rw [hresolves.endings_eq]
    exact .rest _

lemma Elapses.concludes (h : Elapses now c x new events) :
    Concludes c.sender.inFlight none (endings events) x.sender.inFlight := by
  cases h with
  | mk hretries hadvances =>
    rw [endings_append, endings_receive, List.nil_append, endings_sendEvent]
    exact hadvances.concludes

lemma Sends.concludes {ε : Type} {z : Option Cargo} {id : CanId} {payload : Bytes}
    {value : Except (Error ε) Unit} (hready : c.sender.Ready c.cfg z)
    (h : Sends now id payload c x new events value) :
    Concludes c.sender.inFlight (value.toOption.map fun _ => payload.length) (endings events)
      x.sender.inFlight := by
  cases h with
  | error => exact .rest _
  | ok hbegins =>
    rw [endings_sendEvent]
    exact hbegins.concludes hready

section Calls

variable {σ ε : Type} [Link σ ε]

/-- Every call concludes a message in one of these ways. -/
theorem Host.step_concludes {h : Host σ} {z : Option Cargo}
    (hready : h.channel.sender.Ready h.channel.cfg z) (now : Instant) (op : Op σ) :
    Concludes h.channel.sender.inFlight ((h.step now op).2.begun.map (·.2.length))
      (h.step now op).2.endings (h.step now op).1.channel.sender.inFlight := by
  cases op with
  | send payload =>
    obtain ⟨value, hreply, hsends⟩ := step_send now hready payload
    rw [Record.endings_eq rfl, Record.begun_of_verdict hreply rfl, Option.map_map]
    exact hsends.concludes hready
  | sendAs id payload =>
    obtain ⟨value, hreply, hsends⟩ := step_sendAs now hready id payload
    rw [Record.endings_eq rfl, Record.begun_of_verdict hreply rfl, Option.map_map]
    exact hsends.concludes hready
  | frame f =>
    rw [Record.endings_eq rfl, Record.begun_eq_none rfl]
    exact (step_frame now hready.valid f).concludes
  | advance =>
    rw [Record.endings_eq rfl]
    exact (step_advance now hready).concludes
  | collect room => exact .rest _
  | cancel => exact Sender.concludes_cancel
  | setPolicy policy => exact .rest _
  | setLine line => exact .rest _

/-- A call that begins no message and leaves none in flight puts a frame of one on the link only if
it reports that one as sent. -/
lemma Host.parts_of_ended {h : Host σ} {z : Option Cargo}
    (hready : h.channel.sender.Ready h.channel.cfg z) (now : Instant) (op : Op σ)
    (hbegun : (h.step now op).2.begun = none)
    (hidle : (h.step now op).1.channel.sender.inFlight = none)
    (hsent : (h.step now op).2.sent = []) : (h.step now op).2.parts = [] := by
  obtain ⟨-, z', hmove, hready'⟩ := step_moves h hready now op
  have hnone := Option.map_eq_none_iff.1 (hready'.inFlight_eq.symm.trans hidle)
  rw [Record.effect, hbegun] at hmove
  generalize (h.step now op).2.parts = ps at hmove ⊢
  generalize (h.step now op).2.sent = ls at hmove hsent
  cases hmove with
  | rest | quit => rfl
  | @next o f hs hcount hf =>
    have hlt := (List.getElem?_eq_some_iff.1 hf).1
    have hleft : ¬o.count + 1 < (frames h.channel.cfg o.payload).length := fun hmore => by
      simp [Cargo.left?, Cargo.next, hmore] at hnone
    have hlast : o.count + 1 ≠ (frames h.channel.cfg o.payload).length := fun hend => by
      simp [Cargo.sent, Cargo.next, hend] at hsent
    omega

/-! ### While no message is in flight -/

/-- A call that does nothing about messages to be sent: it offers no frame of one, brings no ending
and leaves the sender as it is. -/
structure Record.Rests (y : Record σ ε) : Prop where
  offers : y.offers.filter (·.frame.carriesPart) = []
  endings : y.endings = []
  sender : y.after.sender = y.before.sender

lemma Accepts.of_idle {f : Frame} (hcfg : c.cfg.Valid) (h : Accepts now f c x new events)
    (hidle : c.sender.transfer? = none) : new.filter (·.frame.carriesPart) = [] ∧
      endings events = [] ∧ x.sender = c.sender := by
  refine ⟨filter_answers hcfg h.isAnswer, ?_⟩
  cases h with
  | foreign => exact ⟨rfl, rfl⟩
  | flowControl =>
    rw [Sender.accept_of_idle hidle]
    exact ⟨rfl, rfl⟩
  | unit hf hread hresolves => exact ⟨hresolves.endings_eq, rfl⟩

lemma Elapses.of_idle (hcfg : c.cfg.Valid) (h : Elapses now c x new events)
    (hidle : c.sender.transfer? = none) : new.filter (·.frame.carriesPart) = [] ∧
      endings events = [] ∧ x.sender = c.sender := by
  cases h with
  | mk hretries hadvances =>
    obtain ⟨rfl, rfl, rfl⟩ := hadvances.of_idle hidle
    refine ⟨?_, ?_, rfl⟩
    · rw [List.append_nil]
      exact filter_answers hcfg hretries.isAnswer
    · rw [endings_append, endings_receive]
      rfl

/-- With no message in flight, time, a frame and calling off do nothing about messages to be
sent. -/
theorem Host.step_rests {h : Host σ} {z : Option Cargo}
    (hready : h.channel.sender.Ready h.channel.cfg z) (hidle : ¬h.channel.sender.Busy)
    (now : Instant) {op : Op σ} (hop : op = .advance ∨ (∃ f, op = .frame f) ∨ op = .cancel) :
    (h.step now op).2.Rests := by
  have hnone : h.channel.sender.transfer? = none := Option.not_isSome_iff_eq_none.1 hidle
  rcases hop with rfl | ⟨f, rfl⟩ | rfl
  · obtain ⟨hoffers, hends, hsender⟩ := (step_advance now hready).of_idle hready.valid hnone
    exact ⟨hoffers, (Record.endings_eq rfl).trans hends, hsender⟩
  · obtain ⟨hoffers, hends, hsender⟩ :=
      (step_frame now hready.valid f).of_idle hready.valid hnone
    exact ⟨hoffers, (Record.endings_eq rfl).trans hends, hsender⟩
  · have hends : (h.step now .cancel).2.endings = [] := if_neg hidle
    exact ⟨rfl, hends, Sender.cancel_of_idle hnone⟩

end Calls

/-! ### Runs -/

section Runs

variable {σ ε : Type} {y : Record σ ε} {ys : List (Record σ ε)} {len : Nat}

/-- Calls that bring no ending and put no frame of a message on the link. -/
def Still (ys : List (Record σ ε)) : Prop := ∀ y ∈ ys, y.endings = [] ∧ y.parts = []

/-- Calls that bring no ending. -/
def Unended (ys : List (Record σ ε)) : Prop := ∀ y ∈ ys, y.endings = []

/-- A call that ends a message of `len` bytes: it tells of these as sent, or it ends the message
otherwise and puts no frame of it on the link. -/
def Record.Ends (len : Nat) (y : Record σ ε) : Prop :=
  y.endings = [.sent len] ∨ (∃ e, y.endings = [e] ∧ ∀ n, e ≠ .sent n) ∧ y.parts = []

/-- Calls of which one ends a message of `len` bytes. No other brings an ending, and after this one
no frame of a message goes out. -/
def EndsOnce (len : Nat) (ys : List (Record σ ε)) : Prop :=
  ∃ u y v, ys = u ++ y :: v ∧ Unended u ∧ y.Ends len ∧ Still v

lemma EndsOnce.cons (hy : y.endings = []) (h : EndsOnce len ys) : EndsOnce len (y :: ys) := by
  obtain ⟨u, k, v, rfl, hu, hk⟩ := h
  exact ⟨y :: u, k, v, rfl, List.forall_mem_cons.2 ⟨hy, hu⟩, hk⟩

lemma EndsOnce.here (hy : y.Ends len) (h : Still ys) : EndsOnce len (y :: ys) :=
  ⟨[], y, ys, rfl, List.forall_mem_nil _, hy, h⟩

/-- What calls up to the next message do about the one in flight before them, if there is one: they
end it, or they do not and no other message comes. -/
def Finishes (x : Option Nat) (ys : List (Record σ ε)) (later : List (Stretch σ ε))
    (last : Option Nat) : Prop :=
  match x with
  | none => Still ys
  | some len => EndsOnce len ys ∨ Unended ys ∧ later = [] ∧ last = some len

variable {x x' begun last : Option Nat} {later : List (Stretch σ ε)}

/-- A call that brings no ending leaves the message in flight to those after it. -/
lemma Finishes.cons (hy : y.endings = []) (h : Finishes (some len) ys later last) :
    Finishes (some len) (y :: ys) later last := by
  rcases h with hys | ⟨hys, hrest⟩
  · exact .inl (hys.cons hy)
  · exact .inr ⟨List.forall_mem_cons.2 ⟨hy, hys⟩, hrest⟩

/-- A call that begins no message, before calls up to the next message. -/
lemma Finishes.call (hy : Concludes x none y.endings x')
    (hparts : x' = none → y.sent = [] → y.parts = []) (h : Finishes x' ys later last) :
    Finishes x (y :: ys) later last := by
  have hsent (hnone : ∀ n, .sent n ∉ y.endings) : y.sent = [] :=
    List.eq_nil_iff_forall_not_mem.2 fun n hn => hnone n (Record.sent_mem_endings_iff.2 hn)
  generalize hends : y.endings = ends at hy hsent
  cases hy with
  | rest =>
    cases x with
    | none => exact List.forall_mem_cons.2 ⟨⟨hends, hparts rfl (hsent (by simp))⟩, h⟩
    | some len => exact h.cons hends
  | @ends len e hlen =>
    refine .inl (.here ?_ h)
    rcases hlen with rfl | hother
    · exact .inl hends
    · refine .inr ⟨⟨e, hends, hother⟩, hparts rfl (hsent fun n hn => ?_)⟩
      exact hother n (List.mem_singleton.1 hn).symm

/-- A call that begins a message finds none in flight, and the calls after it are about this one. -/
lemma Finishes.begin (hy : Concludes x (some len) y.endings x') (h : Finishes x' ys later last) :
    x = none ∧ Finishes (some len) (y :: ys) later last := by
  generalize hends : y.endings = ends at hy
  cases hy with
  | begins => exact ⟨rfl, h.cons hends⟩
  | atOnce =>
    exact ⟨rfl, .inl (.here (.inl hends) h)⟩

/-- The endings that calls bring, counted by what they tell. -/
lemma length_flatMap_endings (ys : List (Record σ ε)) : (ys.flatMap Record.endings).length =
    (ys.flatMap Record.sent).length + (ys.flatMap Record.sendFailures).length +
      ys.countP Record.callsOff := by
  induction ys with
  | nil => rfl
  | cons y ys ih =>
    rw [List.flatMap_cons, List.flatMap_cons, List.flatMap_cons, List.length_append,
      List.length_append, List.length_append, ih, Record.length_endings, List.countP_cons]
    omega

variable [Link σ ε]

/-- A run first finishes what is in flight, and then each message that it begins. -/
theorem Host.finishes_trace {h : Host σ} {z : Option Cargo}
    (hready : h.channel.sender.Ready h.channel.cfg z) (calls : List (Instant × Op σ)) :
    let run := stretches (h.trace calls)
    let last := (h.run calls).channel.sender.inFlight
    Finishes h.channel.sender.inFlight run.1 run.2 last ∧
      ∀ u s v, run.2 = u ++ s :: v → Finishes (some s.payload.length) s.records v last := by
  induction calls generalizing h z with
  | nil =>
    refine ⟨?_, fun u s v hsplit => by simp [Host.trace, stretches] at hsplit⟩
    simp only [Host.trace, stretches, Host.run_nil]
    cases h.channel.sender.inFlight with
    | none => exact List.forall_mem_nil _
    | some len => exact .inr ⟨List.forall_mem_nil _, rfl, rfl⟩
  | cons call calls ih =>
    have hy := h.step_concludes hready call.1 call.2
    obtain ⟨hcfg, z', -, hready'⟩ := h.step_moves hready call.1 call.2
    rw [← hcfg] at hready'
    obtain ⟨hlead, hrest⟩ := ih hready'
    simp only [Host.trace, Host.run_cons, stretches]
    split
    · next hbegun =>
      rw [hbegun] at hy
      exact ⟨hlead.call hy (Host.parts_of_ended hready call.1 call.2 hbegun), hrest⟩
    · next id payload hbegun =>
      rw [hbegun] at hy
      obtain ⟨hidle, hfirst⟩ := hlead.begin hy
      rw [hidle]
      refine ⟨List.forall_mem_nil _, fun u s v hsplit => ?_⟩
      rcases List.cons_eq_append_iff.1 hsplit with ⟨rfl, hs⟩ | ⟨w, rfl, hw⟩
      · obtain ⟨rfl, rfl⟩ := List.cons.inj hs
        exact hfirst
      · exact hrest w s v hw

/-- Of the messages in flight before a run and those begun in it, all are ended in it but the one in
flight after it. -/
theorem Host.count_trace {h : Host σ} {z : Option Cargo}
    (hready : h.channel.sender.Ready h.channel.cfg z) (calls : List (Instant × Op σ)) :
    ((h.trace calls).filterMap Record.begun).length + h.channel.sender.inFlight.toList.length =
      ((h.trace calls).flatMap Record.endings).length +
        (h.run calls).channel.sender.inFlight.toList.length := by
  induction calls generalizing h z with
  | nil => rfl
  | cons call calls ih =>
    have hy := (h.step_concludes hready call.1 call.2).count
    obtain ⟨hcfg, z', -, hready'⟩ := h.step_moves hready call.1 call.2
    rw [← hcfg] at hready'
    have hrest := ih hready'
    rw [Host.trace_cons, Host.run_cons, List.flatMap_cons, List.length_append]
    cases hbegun : (h.step call.1 call.2).2.begun with
    | none =>
      rw [hbegun] at hy
      rw [List.filterMap_cons_none hbegun]
      simp only [Option.map_none, Option.toList_none, List.length_nil] at hy
      omega
    | some message =>
      rw [hbegun] at hy
      rw [List.filterMap_cons_some hbegun, List.length_cons]
      simp only [Option.map_some, Option.toList_some, List.length_singleton] at hy
      omega

/-! ### Main statement -/

/-- The message of a stretch ends in it: once, with its own length told if it was sent, and with no
frame of a message on the link after that, nor in the call that ends it otherwise. -/
def Stretch.Ended (s : Stretch σ ε) : Prop := EndsOnce s.payload.length s.records

/-- The message of a stretch does not end in it. -/
def Stretch.Unended (s : Stretch σ ε) : Prop := Channel.Unended s.records

/-- **Every message that a channel begins to send ends once.** Whatever the calls, their instants
and the link: the messages begun are as many as those reported as sent or as failed and those called
off, and the one in flight at the end, if there is one. Each has its ending between the call that
begins it and the next one that begins another, but for the last one if it is in flight; it is told
as sent with its own length, or it ends with a call that puts no frame of it on the link, and once
it has ended no frame of a message goes out until another one is begun. While no message is in
flight, time, frames and calling off offer no frame of a message, bring no ending and leave the
sender as it is. -/
theorem endings_of_run {cfg : Config} (hc : Fresh cfg c) (line : σ)
    (calls : List (Instant × Op σ)) :
    let records := Host.trace ⟨c, line⟩ calls
    let run := (stretches records).2
    let last := (Host.run ⟨c, line⟩ calls).channel.sender
    (records.filterMap Record.begun).length =
        (records.flatMap Record.sent).length + (records.flatMap Record.sendFailures).length +
          records.countP Record.callsOff + (if last.Busy then 1 else 0) ∧
      run.map (fun s => (s.id, s.payload)) = records.filterMap Record.begun ∧
      Still (stretches records).1 ∧
      (∀ u s v, run = u ++ s :: v → s.Ended ∨ s.Unended ∧ v = [] ∧ last.Busy) ∧
      ∀ y ∈ records, ¬y.before.sender.Busy →
        y.op = .advance ∨ (∃ f, y.op = .frame f) ∨ y.op = .cancel → y.Rests := by
  intro records run last
  obtain ⟨rfl, hready⟩ := hc.ready
  have hidle : c.sender.inFlight = none := by
    obtain ⟨-, tx, rx, -, -, hnew⟩ := hc.eq_new
    rw [hnew]
    rfl
  obtain ⟨hlead, hrest⟩ := Host.finishes_trace (h := ⟨c, line⟩) hready calls
  have hcount := Host.count_trace (h := ⟨c, line⟩) hready calls
  rw [hidle] at hlead hcount
  refine ⟨?_, messages_of_stretches records, hlead, fun u s v hs => ?_, fun y hy hbusy hop => ?_⟩
  · have hlast : last.inFlight.toList.length = if last.Busy then 1 else 0 := by
      unfold Sender.inFlight Sender.Busy
      cases last.transfer? <;> rfl
    rw [← length_flatMap_endings, ← hlast]
    exact hcount
  · refine (hrest u s v hs).imp_right fun ⟨hrecords, hv, hlast⟩ => ⟨hrecords, hv, ?_⟩
    refine Decidable.not_not.1 fun hnot => ?_
    rw [Sender.inFlight_eq_none_iff.2 hnot] at hlast
    cases hlast
  · obtain ⟨u, v, hsplit⟩ := List.append_of_mem hy
    obtain ⟨earlier, call, later, -, -, rfl, -⟩ := Host.split_trace hsplit
    obtain ⟨hcfg, z, hready'⟩ := Host.ready_run (h := ⟨c, line⟩) hready earlier
    rw [Host.step_before] at hbusy
    rw [Host.step_op] at hop
    rw [← hcfg] at hready'
    exact Host.step_rests hready' hbusy call.1 hop

/-- A message that is sent, one that is called off, one that fails, and one in flight. -/
theorem endings_of_run_of_every_kind :
    let cfg : Config := { rxId := .standard 1 }
    let c : Channel :=
      ⟨cfg, cfg.policy, .new (.zeroed 4095) 4095, .new (.zeroed 4095) 4095⟩
    let calls : List (Instant × Op Quota) :=
      [(0, .send [1, 2, 3]), (1, .send (.replicate 10 7)), (2, .cancel), (3, .cancel),
        (4, .send (.replicate 10 7)), (5, .frame ⟨.standard 1, [0x32, 0, 0], false⟩), (6, .advance),
        (7, .send (.replicate 10 7)), (8, .send [1])]
    let records := Host.trace ⟨c, (⟨none⟩ : Quota)⟩ calls
    let last := (Host.run ⟨c, (⟨none⟩ : Quota)⟩ calls).channel.sender
    Fresh cfg c ∧
      (records.filterMap Record.begun).length =
        (records.flatMap Record.sent).length + (records.flatMap Record.sendFailures).length +
          records.countP Record.callsOff + (if last.Busy then 1 else 0) ∧
      records.map Record.endings =
        [[.sent 3], [], [.calledOff], [], [], [.failed .refused], [], [], []] ∧
      last.progress = .waiting := by
  intro cfg c calls records last
  have hc : Fresh cfg c := .ofBuffers (.zeroed 4095) (.zeroed 4095) rfl
  exact ⟨hc, (endings_of_run hc (⟨none⟩ : Quota) calls).1, by decide +kernel, by decide +kernel⟩

end Runs

end Channel

end IsoTp
