import IsoTp.Channel.Host
import IsoTp.Proofs.Receiver.Following

/-!
What a channel makes of the frames that reach it.

A channel hands the frames under its identifier to its receiver, which stands for an assembly; all
other calls let the assembly be or end it. The channel reports a message as received when the
assembly completes it, and at no other time.
-/

namespace IsoTp.Channel

open Assembly

/-- The messages that events report as received. -/
def received (events : List Event) : List Bytes :=
  events.filterMap fun
    | .received data => some data
    | _ => none

/-- The ends of receptions without a message that events report. -/
def aborts (events : List Event) : List Abort :=
  events.filterMap fun
    | .failed .receive cause => some cause
    | _ => none

lemma received_append (u v : List Event) : received (u ++ v) = received u ++ received v :=
  List.filterMap_append ..

lemma received_sendEvent (event : Option Sender.Event) :
    received (event.toList.map sendEvent) = [] := by
  rcases event with _ | ⟨len⟩ | cause <;> rfl

lemma aborts_append (u v : List Event) : aborts (u ++ v) = aborts u ++ aborts v :=
  List.filterMap_append ..

lemma aborts_sendEvent (event : Option Sender.Event) :
    aborts (event.toList.map sendEvent) = [] := by
  rcases event with _ | ⟨len⟩ | cause <;> rfl

variable {σ ε : Type} [Link σ ε] {c : Channel} {p : Phase} (now : Instant) (line : Tap σ)

/-! ### Frames -/

/-- A frame that a channel leaves to others. -/
lemma accept_foreign {f : Frame} (hf : f.remote ∨ f.id ≠ c.cfg.rxId) :
    c.accept now f line = ⟨c, line, .ok (), []⟩ := by
  unfold accept
  rw [if_pos hf]

lemma sound_decode (d : Bytes) : Sound (Pdu.decode d) := by
  cases h : Pdu.decode d with
  | single len data => exact Nat.le_of_eq (Pdu.length_of_decode_single h).symm
  | first | consecutive | flowControl | invalid => trivial

/-- What comes of a unit is settled without a change to the pieces. A completed message is
reported, and so is a failure. -/
lemma settle_refines {y : Phase × Receiver.Outcome} (h : Refines c.receiver y.1) :
    let turn := c.settle now y.2 line
    turn.channel.cfg = c.cfg ∧ received turn.events = completed y ∧
      (aborts turn.events = [] ↔ fails y.2 = false) ∧
      ∃ p, Refines turn.channel.receiver p ∧ p.pieces? = y.1.pieces? := by
  obtain ⟨p, outcome⟩ := y
  have hfine {events : List Event} (hevents : aborts events = []) (hout : fails outcome = false) :
      aborts events = [] ↔ fails outcome = false := iff_of_true hevents hout
  unfold settle
  cases outcome with
  | none => exact ⟨rfl, rfl, hfine rfl rfl, p, h, rfl⟩
  | answer fc =>
    dsimp only
    split
    · exact ⟨rfl, rfl, hfine rfl rfl, p, h, rfl⟩
    · exact ⟨rfl, rfl, hfine rfl rfl, _, (h.postpone fc _).refines, pieces?_setOwed ..⟩
  | refusal fc => exact ⟨rfl, rfl, by simp [aborts, fails], p, h, rfl⟩
  | complete len =>
    refine ⟨rfl, ?_, hfine rfl rfl, p, h, rfl⟩
    simp only [received, completed, h.represents.message, List.filterMap_cons, List.filterMap_nil]
  | failed cause => exact ⟨rfl, rfl, by simp [aborts, fails], p, h, rfl⟩

/-- A frame for this channel acts on the assembly as its unit does. -/
theorem accept_own (h : Refines c.receiver p) {f : Frame}
    (hf : ¬(f.remote ∨ f.id ≠ c.cfg.rxId)) :
    let turn := c.accept now f line
    let y := Assembly.accept c.receiver.capacity c.cfg c.policy now (Pdu.decode f.data) p
    turn.channel.cfg = c.cfg ∧ received turn.events = completed y ∧
      (aborts turn.events = [] ↔ fails y.2 = false) ∧
      ∃ p', Refines turn.channel.receiver p' ∧ p'.pieces? = y.1.pieces? := by
  unfold accept
  rw [if_neg hf]
  split
  · next status blockSize stMin hread =>
    have hy : Assembly.accept c.receiver.capacity c.cfg c.policy now
        (.flowControl status blockSize stMin) p = (p, .none) := by cases p <;> rfl
    rw [hread, hy]
    exact ⟨rfl, received_sendEvent _, iff_of_true (aborts_sendEvent _) rfl, p, h, rfl⟩
  · have hx := h.accept c.cfg c.policy now (sound_decode f.data)
    have hsettle := settle_refines now line hx.refines
      (c := { c with receiver := (c.receiver.accept c.cfg c.policy now (Pdu.decode f.data)).1 })
    dsimp only
    rw [hx.yields]
    exact hsettle

/-! ### Other calls -/

/-- A call that takes in a frame. -/
def Op.isFrame {σ : Type} : Op σ → Bool
  | .frame _ => true
  | _ => false

lemma retryFlowControl_refines (h : Refines c.receiver p) :
    ∃ p', Refines (c.retryFlowControl now line).1.receiver p' ∧ p'.pieces? = p.pieces? ∧
      (c.retryFlowControl now line).1.cfg = c.cfg := by
  unfold retryFlowControl
  split
  · exact ⟨p, h, rfl, rfl⟩
  · split
    · exact ⟨p, h, rfl, rfl⟩
    · exact ⟨_, (h.answered _).refines, pieces?_setOwed .., rfl⟩

lemma advance_refines (h : Refines c.receiver p) :
    let turn := c.advance now line
    turn.channel.cfg = c.cfg ∧ received turn.events = [] ∧
      ∃ p', Refines turn.channel.receiver p' ∧
        (p'.pieces? = none ∨ p'.pieces? = p.pieces? ∧ aborts turn.events = []) := by
  obtain ⟨q, hq, hpieces, hcfg⟩ := retryFlowControl_refines now line h
  have hagrees := hq.advance now
  unfold advance
  rcases hretry : c.retryFlowControl now line with ⟨c', line'⟩
  rw [hretry] at hq hcfg hagrees
  refine ⟨hcfg, ?_, _, hagrees.refines, ?_⟩
  · have hcause (cause : Option Abort) :
        received (cause.toList.map (.failed .receive)) = [] := by cases cause <;> rfl
    rw [received_append, hcause, received_sendEvent, List.append_nil]
  · rw [← hpieces]
    refine (advance_pieces? now q).imp_right fun ⟨hsame, hnone⟩ => ⟨hsame, ?_⟩
    rw [aborts_append, aborts_sendEvent, List.append_nil]
    dsimp only at hagrees ⊢
    rw [hagrees.yields, hnone]
    rfl

lemma received_sendAs (id : CanId) (payload : Bytes) :
    received (c.sendAs now id payload line).events = [] ∧
      aborts (c.sendAs now id payload line).events = [] := by
  unfold sendAs
  dsimp only
  split
  · exact ⟨received_sendEvent _, aborts_sendEvent _⟩
  · exact ⟨rfl, rfl⟩

/-- A call that takes in no frame reports no message as received. It leaves the message under way
as it is and reports no failure of it, or it ends the message. -/
theorem Host.step_quiet {σ ε : Type} [Link σ ε] (h : Host σ) (hr : Refines h.channel.receiver p)
    (now : Instant) (op : Op σ) (hop : op.isFrame = false) :
    (h.step now op).1.channel.cfg = h.channel.cfg ∧ received (h.step now op).2.events = [] ∧
      ∃ p', Refines (h.step now op).1.channel.receiver p' ∧
        (p'.pieces? = none ∨ p'.pieces? = p.pieces? ∧ aborts (h.step now op).2.events = []) := by
  cases op with
  | frame f => cases hop
  | send payload =>
    obtain ⟨hreceived, haborts⟩ := received_sendAs (c := h.channel) now (Tap.mk h.line []) _ payload
    exact ⟨rfl, hreceived, p, hr, .inr ⟨rfl, haborts⟩⟩
  | sendAs id payload =>
    obtain ⟨hreceived, haborts⟩ :=
      received_sendAs (c := h.channel) now (Tap.mk h.line []) id payload
    exact ⟨rfl, hreceived, p, hr, .inr ⟨rfl, haborts⟩⟩
  | advance => exact advance_refines now (Tap.mk h.line []) hr
  | collect room =>
    exact ⟨rfl, rfl, _, (hr.collect room).refines, .inr ⟨collect_pieces? p room, rfl⟩⟩
  | cancel => exact ⟨rfl, rfl, p, hr, .inr ⟨rfl, rfl⟩⟩
  | setPolicy policy => exact ⟨rfl, rfl, p, hr, .inr ⟨rfl, rfl⟩⟩
  | setLine line => exact ⟨rfl, rfl, p, hr, .inr ⟨rfl, rfl⟩⟩

end IsoTp.Channel
