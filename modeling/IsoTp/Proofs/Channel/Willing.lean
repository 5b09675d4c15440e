import IsoTp.Proofs.Channel.Reception
import IsoTp.Proofs.Channel.Transmission

/-!
A channel on a link that refuses nothing.

On such a link each call comes out in one way only: the channel after it, the frames it puts on
the link and the events it raises follow from where its two halves stand.
-/

namespace IsoTp

namespace Link

variable {σ ε : Type} [Link σ ε] {line : σ}

/-- A link after a list of frames. -/
def putAll (line : σ) (fs : List Frame) : σ := fs.foldl (fun line f => (put line f).2) line

/-- A link that takes every frame from now on. -/
def Willing (line : σ) : Prop := ∀ fs f, (put (putAll line fs) f).1 = .ok ()

lemma Willing.put_eq (h : Willing line) (f : Frame) : (put line f).1 = .ok () := h [] f

lemma Willing.put (h : Willing line) (f : Frame) : Willing (Link.put line f).2 :=
  fun fs => h (f :: fs)

lemma willing_without_limit : Willing (⟨none⟩ : Quota) := by
  intro fs f
  have hsame : putAll (⟨none⟩ : Quota) fs = ⟨none⟩ := by
    induction fs with
    | nil => rfl
    | cons f fs ih => exact ih
  rw [hsame]
  rfl

end Link

namespace Channel

open Segmentation Assembly

variable {σ ε : Type} [Link σ ε] {line : Tap σ}

lemma offer_of_willing (hline : Link.Willing line.line) {cfg : Config} {pdu : Pdu} {data : Bytes}
    (hdata : cfg.encode? pdu = some data) (id : CanId) :
    ∃ line', Link.offer cfg id pdu line = (.ok (), line') ∧
      line'.taken = line.taken ++ [⟨id, data, false⟩] ∧ Link.Willing line'.line := by
  have hput := hline.put_eq ⟨id, data, false⟩
  have hwilling := hline.put ⟨id, data, false⟩
  rcases hoffer : Link.offer cfg id pdu line with ⟨e | _, line'⟩
  · simp only [Link.offer, hdata, Link.put, hput] at hoffer
    cases hoffer
  · obtain ⟨data', hdata', htaken⟩ := Tap.taken_of_offer_ok hoffer
    rw [hdata] at hdata'
    cases hdata'
    refine ⟨line', rfl, htaken, ?_⟩
    simp only [Link.offer, hdata, Prod.mk.injEq] at hoffer
    rw [← hoffer.2]
    exact hwilling

/-- A call comes out with this channel, these frames put on the link and these events, and the link
goes on to take every frame. -/
structure Turn.Yields {α : Type} (turn : Turn (Tap σ) α) (line : Tap σ) (c : Channel)
    (new : List Frame) (events : List Event) : Prop where
  channel : turn.channel = c
  taken : turn.line.taken = line.taken ++ new
  events : turn.events = events
  willing : Link.Willing turn.line.line

variable {c : Channel} (now : Instant)

/-! ### Sending -/

/-- A sender at rest begins to send what it has room for. -/
lemma send_of_idle (hline : Link.Willing line.line) (hidle : c.sender.transfer? = none)
    {payload : Bytes} (hs : Sendable c.cfg payload) (hcap : payload.length ≤ c.sender.capacity)
    {f : Bytes} (hf : (frames c.cfg payload)[0]? = some f) :
    let x := c.sender.opened c.cfg now c.cfg.txId payload
    (c.send now payload line).value = .ok () ∧
      (c.send now payload line).Yields line { c with sender := x.1 } [⟨c.cfg.txId, f, false⟩]
        (x.2.toList.map sendEvent) := by
  obtain ⟨pdu, hopening, hpdu⟩ := Sender.opening_of_idle (ε := ε) hidle hs hcap
  obtain ⟨line', hoffer, htaken, hwilling⟩ :=
    offer_of_willing hline (hpdu.symm.trans hf) c.cfg.txId
  have hbegin : c.sender.begin c.cfg now c.cfg.txId payload line =
      ⟨(c.sender.opened c.cfg now c.cfg.txId payload).1, line',
        .ok (c.sender.opened c.cfg now c.cfg.txId payload).2⟩ := by
    simp only [Sender.begin, hopening, hoffer]
  simp only [send, sendAs, hbegin]
  exact ⟨rfl, rfl, htaken, rfl, hwilling⟩

/-! ### Time -/

/-- A receiver that time does not touch: it owes no flow control, and its deadline, if it has one,
is still to come. -/
def Untouched (now : Instant) (r : Receiver) : Prop := r.owed = none ∧ r.advance now = (r, none)

lemma advance_of_untouched (line : Tap σ) (hr : Untouched now c.receiver) :
    c.advance now line =
      let turn := c.sender.advance c.cfg now line
      ⟨{ c with sender := turn.sender }, turn.line, turn.sender.progress,
        turn.value.toList.map sendEvent⟩ := by
  simp only [advance, retryFlowControl, hr.1, hr.2]
  rfl

/-- A sender with nothing to do. -/
lemma advance_of_nothing (hline : Link.Willing line.line) (hr : Untouched now c.receiver)
    (hdue : c.sender.due c.cfg now = .nothing) : (c.advance now line).Yields line c [] [] := by
  rw [advance_of_untouched now line hr]
  simp only [Sender.advance, hdue]
  exact ⟨rfl, (List.append_nil _).symm, rfl, hline⟩

/-- A sender with a frame to send. -/
lemma advance_of_frame (hline : Link.Willing line.line) (hr : Untouched now c.receiver)
    {t : Transfer} {o : Cargo} (ht : t.Carries c.cfg c.sender.buffer o)
    (hdue : c.sender.due c.cfg now = .frame t (o.chunk c.cfg)) {f : Bytes}
    (hf : (frames c.cfg o.payload)[o.count]? = some f) :
    let x := c.sender.placed c.cfg now t (o.chunk c.cfg).length
    (c.advance now line).Yields line { c with sender := x.1 } [⟨o.id, f, false⟩]
      (x.2.toList.map sendEvent) := by
  obtain ⟨line', hoffer, htaken, hwilling⟩ :=
    offer_of_willing hline (ht.getElem?_frames.symm.trans hf) t.id
  rw [advance_of_untouched now line hr]
  simp only [Sender.advance, hdue, hoffer]
  rw [ht.id] at htaken
  exact ⟨rfl, htaken, rfl, hwilling⟩

/-! ### Frames -/

/-- Flow control goes to the sender. -/
lemma accept_flowControl (hline : Link.Willing line.line) {f : Frame}
    (hremote : f.remote = false) (hid : f.id = c.cfg.rxId) {status : FlowStatus}
    {blockSize stMin : UInt8} (hread : Pdu.decode f.data = .flowControl status blockSize stMin) :
    let x := c.sender.accept c.cfg now (.ofWire status blockSize stMin)
    (c.accept now f line).value = .ok () ∧
      (c.accept now f line).Yields line { c with sender := x.1 } [] (x.2.toList.map sendEvent) := by
  have hown : ¬(f.remote ∨ f.id ≠ c.cfg.rxId) := by simp [hremote, hid]
  unfold accept
  rw [if_neg hown]
  simp only [hread]
  exact ⟨trivial, rfl, (List.append_nil _).symm, rfl, hline⟩

/-- What is put on the link and what is reported when a unit has this outcome and does no harm. -/
def Settles (cfg : Config) (y : Phase × Receiver.Outcome) (new : List Frame)
    (events : List Event) : Prop :=
  match y.2 with
  | .none => new = [] ∧ events = []
  | .answer fc =>
    ∃ data, cfg.encode? fc.toPdu = some data ∧ new = [⟨cfg.txId, data, false⟩] ∧ events = []
  | .complete _ => new = [] ∧ events = [.received y.1.message]
  | .refusal _ | .failed _ => False

/-- A frame of a message goes to the receiver. -/
lemma accept_part {p : Phase} (h : Refines c.receiver p) {f : Frame}
    (hremote : f.remote = false) (hid : f.id = c.cfg.rxId) (hpart : f.carriesPart = true)
    {y : Phase × Receiver.Outcome}
    (hy : Assembly.accept c.receiver.capacity c.cfg c.policy now (Pdu.decode f.data) p = y)
    {new : List Frame} {events : List Event} (hsettles : Settles c.cfg y new events) :
    ∃ r, Refines r y.1 ∧ r.capacity = c.receiver.capacity ∧ ∀ line : Tap σ, Link.Willing line.line →
      (c.accept now f line).value = .ok () ∧
        (c.accept now f line).Yields line { c with receiver := r } new events := by
  have hown : ¬(f.remote ∨ f.id ≠ c.cfg.rxId) := by simp [hremote, hid]
  have hx := h.accept c.cfg c.policy now (sound_decode f.data)
  rw [hy] at hx
  refine ⟨_, hx.refines, hx.capacity_eq, fun line hline => ?_⟩
  have haccept : c.accept now f line =
      { c with receiver := (c.receiver.accept c.cfg c.policy now (Pdu.decode f.data)).1 }.settle now
        y.2 line := by
    unfold accept
    rw [if_neg hown, ← hx.yields]
    split
    · next hread =>
      have hkind := Pdu.kind?_decode (f := f) (by simp [hread])
      rw [hread] at hkind
      rw [Frame.carriesPart, ← hkind] at hpart
      cases hpart
    · rfl
  rw [haccept]
  obtain ⟨q, outcome⟩ := y
  cases outcome with
  | none =>
    obtain ⟨rfl, rfl⟩ := hsettles
    exact ⟨rfl, rfl, (List.append_nil _).symm, rfl, hline⟩
  | answer fc =>
    obtain ⟨data, hdata, rfl, rfl⟩ := hsettles
    obtain ⟨line', hoffer, htaken, hwilling⟩ := offer_of_willing hline hdata c.cfg.txId
    simp only [settle, offerFlowControl, hoffer]
    exact ⟨trivial, rfl, htaken, rfl, hwilling⟩
  | complete len =>
    obtain ⟨rfl, rfl⟩ := hsettles
    refine ⟨rfl, rfl, (List.append_nil _).symm, ?_, hline⟩
    simp only [settle, hx.refines.represents.message]
  | refusal | failed => cases hsettles

end Channel

end IsoTp
