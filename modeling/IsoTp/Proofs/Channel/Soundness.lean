import IsoTp.Proofs.Channel.Outcome
import IsoTp.Proofs.Channel.Transmission
import IsoTp.Proofs.Receiver.Soundness
import IsoTp.Proofs.Sender.Soundness

/-!
What holds of a channel at all times.

Both halves of a channel stay within their bounds whatever is called, and a channel whose buffers
differ beyond the capacities does the same throughout. So no run accesses a buffer outside its
bounds, and none uses what a buffer has beyond the configured capacity.
-/

namespace IsoTp.Channel

/-- Two channels that differ in nothing but what their buffers have beyond the capacities. -/
def Twin (c c' : Channel) : Prop :=
  ∃ sender receiver, Sender.Twin c.sender sender ∧ Receiver.Twin c.receiver receiver ∧
    c' = { c with sender, receiver }

/-- A channel of which both halves are within their bounds. -/
structure Sound (c : Channel) : Prop where
  valid : c.cfg.Valid
  sender : c.sender.Sound
  receiver : c.receiver.Sound

/-- A call takes a channel and its twin to sound twins with the same parameters, and writes nothing
beyond the capacities. -/
structure Stays (c x x' : Channel) : Prop where
  cfg_eq : x.cfg = c.cfg
  eq : x' = { x with sender := x'.sender, receiver := x'.receiver }
  sender : Sender.Stays c.sender x.sender x'.sender
  receiver : Receiver.Stays c.receiver x.receiver x'.receiver

variable {cfg : Config} {c c' x x' : Channel}

lemma Sound.twin_refl (h : c.Sound) : Twin c c :=
  ⟨c.sender, c.receiver, h.sender.twin_refl, h.receiver.twin_refl, rfl⟩

lemma Sound.stays (h : c.Sound) (ht : Twin c c') : Stays c c c' := by
  obtain ⟨s, r, hs, hr, rfl⟩ := ht
  exact ⟨rfl, rfl, h.sender.stays hs, h.receiver.stays hr⟩

lemma Stays.twin (h : Stays c x x') : Twin x x' :=
  ⟨_, _, h.sender.twin, h.receiver.twin, h.eq⟩

lemma Stays.sound (hc : c.Sound) (h : Stays c x x') : x.Sound :=
  ⟨by rw [h.cfg_eq]; exact hc.valid, h.sender.sound, h.receiver.sound⟩

section Calls

variable {σ ε : Type} [Link σ ε] (now : Instant) (line : σ)

/-- A call of a channel and the same call of its twin do the same. -/
structure Matches {α : Type} (c : Channel) (x x' : Turn σ α) : Prop where
  stays : Stays c x.channel x'.channel
  line : x'.line = x.line
  value : x'.value = x.value
  events : x'.events = x.events

lemma Sound.sendAs (h : c.Sound) (ht : Twin c c') (id : CanId) (payload : Bytes) :
    Matches c (c.sendAs now id payload line) (c'.sendAs now id payload line) := by
  obtain ⟨s, r, hs, hr, rfl⟩ := ht
  have hbegin := h.sender.begin now line hs c.cfg id payload
  refine ⟨⟨rfl, rfl, hbegin.stays, h.receiver.stays hr⟩, hbegin.line, ?_, ?_⟩
  · simp only [Channel.sendAs, hbegin.value]
  · simp only [Channel.sendAs, hbegin.value]

lemma Sound.settle (h : c.Sound) (ht : Twin c c') (outcome : Receiver.Outcome) :
    Matches c (c.settle now outcome line) (c'.settle now outcome line) := by
  have hstays := h.stays ht
  obtain ⟨s, r, hs, hr, rfl⟩ := ht
  unfold Channel.settle offerFlowControl
  cases outcome with
  | answer fc =>
    dsimp only
    split
    · exact ⟨hstays, rfl, rfl, rfl⟩
    · exact ⟨⟨rfl, rfl, h.sender.stays hs, h.receiver.postpone hr fc _⟩, rfl, rfl, rfl⟩
  | complete len =>
    refine ⟨hstays, rfl, rfl, ?_⟩
    simp only [h.receiver.message_eq hr]
  | none | refusal | failed => exact ⟨hstays, rfl, rfl, rfl⟩

lemma Sound.accept (h : c.Sound) (ht : Twin c c') (f : Frame) :
    Matches c (c.accept now f line) (c'.accept now f line) := by
  have hstays := h.stays ht
  obtain ⟨s, r, hs, hr, rfl⟩ := ht
  unfold Channel.accept
  dsimp only
  split
  · exact ⟨hstays, rfl, rfl, rfl⟩
  · split
    · next status blockSize stMin hread =>
      obtain ⟨haccept, hevent⟩ :=
        h.sender.accept hs c.cfg now (.ofWire status blockSize stMin)
      exact ⟨⟨rfl, rfl, haccept, h.receiver.stays hr⟩, rfl, rfl, by rw [hevent]⟩
    · obtain ⟨haccept, houtcome⟩ :=
        h.receiver.accept hr c.cfg c.policy now (Pdu.proper_decode f.data)
      have hmid : Sound
          { c with receiver := (c.receiver.accept c.cfg c.policy now (Pdu.decode f.data)).1 } :=
        ⟨h.valid, h.sender, haccept.sound⟩
      have hsettle := hmid.settle now line ⟨s, _, hs, haccept.twin, rfl⟩
        (c.receiver.accept c.cfg c.policy now (Pdu.decode f.data)).2
      rw [houtcome]
      exact ⟨⟨hsettle.stays.cfg_eq, hsettle.stays.eq, hsettle.stays.sender,
        haccept.trans hsettle.stays.receiver⟩, hsettle.line, hsettle.value, hsettle.events⟩

lemma Sound.retryFlowControl (h : c.Sound) (ht : Twin c c') :
    Stays c (c.retryFlowControl now line).1 (c'.retryFlowControl now line).1 ∧
      (c'.retryFlowControl now line).2 = (c.retryFlowControl now line).2 := by
  have hstays := h.stays ht
  obtain ⟨s, r, hs, hr, rfl⟩ := ht
  unfold Channel.retryFlowControl offerFlowControl
  simp only [hr.owed]
  split
  · exact ⟨hstays, rfl⟩
  · split
    · exact ⟨hstays, rfl⟩
    · exact ⟨⟨rfl, rfl, h.sender.stays hs, h.receiver.answered hr _⟩, rfl⟩

lemma Sound.advance (h : c.Sound) (ht : Twin c c') :
    Matches c (c.advance now line) (c'.advance now line) := by
  obtain ⟨hretry, hline⟩ := h.retryFlowControl now line ht
  unfold Channel.advance
  generalize c.retryFlowControl now line = x at hretry hline ⊢
  generalize c'.retryFlowControl now line = x' at hretry hline ⊢
  obtain ⟨x, l⟩ := x
  obtain ⟨x', l'⟩ := x'
  obtain rfl : l' = l := hline
  have hcfg := hretry.cfg_eq
  have hsender := hretry.sender
  have hreceiver := hretry.receiver
  obtain ⟨s, r, hs, hr, rfl⟩ := hretry.twin
  obtain ⟨hexpire, hcause⟩ := hreceiver.sound.advance hr now
  have hturn := hsender.sound.advance now l' hs x.cfg
  refine ⟨⟨hcfg, rfl, hsender.trans hturn.stays, hreceiver.trans hexpire⟩, hturn.line, ?_, ?_⟩
  · exact hturn.stays.twin.progress
  · dsimp only
    rw [hturn.value, hcause]

end Calls

/-! ### Calls -/

/-- What is seen of a call: what it yields, the events it raises, the frames it offers, and where it
leaves the two halves and the message received. -/
structure Sight (ε : Type) where
  reply : Reply ε
  events : List Event
  offers : List Offer
  sender : Sender.Phase
  receiver : Receiver.Phase
  message : Bytes

def Record.sight {σ ε : Type} (r : Record σ ε) : Sight ε :=
  ⟨r.reply, r.events, r.offers, r.after.sender.phase, r.after.receiver.phase,
    r.after.receiver.message⟩

/-- Calls that yield the same and leave twins look the same. -/
lemma Stays.sight {σ ε : Type} (h : Stays c x x') (now : Instant) (op : Op σ) (reply : Reply ε)
    (events : List Event) (offers : List Offer) :
    (⟨now, op, c', reply, events, offers, x'⟩ : Record σ ε).sight =
      (⟨now, op, c, reply, events, offers, x⟩ : Record σ ε).sight := by
  have hmessage := h.receiver.sound.message_eq h.receiver.twin
  obtain ⟨b, -, hs⟩ := h.sender.twin
  obtain ⟨d, -, hr⟩ := h.receiver.twin
  have hsender : x'.sender.phase = x.sender.phase := by rw [hs]
  have hreceiver : x'.receiver.phase = x.receiver.phase := by rw [hr]
  simp only [Record.sight, hsender, hreceiver, hmessage]

variable {σ ε : Type}

lemma Matches.step {α : Type} {y y' : Turn (Tap σ) α} (h : Matches c y y') (now : Instant)
    (op : Op σ) (reply : α → Reply ε) :
    Stays c y.channel y'.channel ∧ y'.line.line = y.line.line ∧
      (⟨now, op, c', reply y'.value, y'.events, y'.line.offers, y'.channel⟩ : Record σ ε).sight =
        (⟨now, op, c, reply y.value, y.events, y.line.offers, y.channel⟩ : Record σ ε).sight := by
  refine ⟨h.stays, by rw [h.line], ?_⟩
  rw [h.line, h.value, h.events]
  exact h.stays.sight ..

variable [Link σ ε]

/-- The same call takes twins to twins, and looks the same. -/
theorem Sound.step (h : c.Sound) (ht : Twin c c') (line : σ) (now : Instant) (op : Op σ) :
    let y := Host.step ⟨c, line⟩ now op
    let y' := Host.step ⟨c', line⟩ now op
    Stays c y.1.channel y'.1.channel ∧ y'.1.line = y.1.line ∧ y'.2.sight = y.2.sight := by
  have hstays := h.stays ht
  obtain ⟨s, r, hs, hr, rfl⟩ := id ht
  cases op with
  | send payload => exact (h.sendAs now (Tap.mk line []) ht c.cfg.txId payload).step now _ .verdict
  | sendAs id payload => exact (h.sendAs now (Tap.mk line []) ht id payload).step now _ .verdict
  | frame f => exact (h.accept now (Tap.mk line []) ht f).step now _ .verdict
  | advance => exact (h.advance now (Tap.mk line []) ht).step now _ .progress
  | collect room =>
    obtain ⟨hcollect, hresult⟩ := h.receiver.collect hr room
    have hx : Stays c { c with receiver := (c.receiver.collect room).1 }
        { c with sender := s, receiver := (r.collect room).1 } :=
      ⟨rfl, rfl, h.sender.stays hs, hcollect⟩
    refine ⟨hx, rfl, ?_⟩
    simp only [Host.step, Channel.collect, hresult]
    exact hx.sight ..
  | cancel =>
    have hx : Stays c c.cancel { c with sender := s.cancel, receiver := r } :=
      ⟨rfl, rfl, h.sender.cancel hs, h.receiver.stays hr⟩
    exact ⟨hx, rfl, hx.sight ..⟩
  | setPolicy policy =>
    have hx : Stays c (c.setPolicy policy) { c with policy, sender := s, receiver := r } :=
      ⟨rfl, rfl, h.sender.stays hs, h.receiver.stays hr⟩
    exact ⟨hx, rfl, hx.sight ..⟩
  | setLine line => exact ⟨hstays, rfl, hstays.sight ..⟩

/-! ### No access out of bounds -/

/-- A call that tells of no access out of bounds and offers no frame that is too long. -/
structure Record.InBounds (cfg : Config) (r : Record σ ε) : Prop where
  events : ∀ direction, Event.failed direction .outOfBounds ∉ r.events
  progress : r.reply ≠ .progress (.failed .outOfBounds)
  collected : r.reply ≠ .collected (.error (.aborted .outOfBounds))
  offers : ∀ o ∈ r.offers, o.frame.data.length ≤ cfg.frameLength

lemma failed_notMem_sendEvent {event : Option Sender.Event} {direction : Direction} {cause : Abort}
    (h : event ≠ some (.failed cause)) :
    Event.failed direction cause ∉ event.toList.map sendEvent := by
  rcases event with _ | ⟨len⟩ | cause'
  · simp
  · simp [sendEvent]
  · have hne : cause ≠ cause' := fun heq => h (by rw [heq])
    simp [sendEvent, hne]

lemma FlowControl.length_frame_le (hcfg : cfg.Valid) (fc : FlowControl) :
    (fc.frame cfg).data.length ≤ cfg.frameLength :=
  Pdu.length_le_of_encode? (FlowControl.encode?_frame hcfg fc)

section Outcomes

variable {now : Instant} {r : Receiver} {new : List Offer} {events : List Event}

/-- Events that tell of no access out of bounds, and frames that are not too long. -/
def Proper (cfg : Config) (new : List Offer) (events : List Event) : Prop :=
  (∀ direction, Event.failed direction .outOfBounds ∉ events) ∧
    ∀ o ∈ new, o.frame.data.length ≤ cfg.frameLength

/-- What comes of an outcome tells of an access out of bounds only if the outcome does. -/
lemma Resolves.proper {outcome : Receiver.Outcome} (h : Resolves now c outcome r new events)
    (hcfg : c.cfg.Valid) (hout : outcome ≠ .failed .outOfBounds) : Proper c.cfg new events := by
  have hfc := FlowControl.length_frame_le hcfg
  unfold Proper
  cases h with
  | none | complete => simp
  | answered fc | postponed fc | refusal fc => simpa using hfc fc
  | failed cause =>
    have hne : Abort.outOfBounds ≠ cause := fun heq => hout (by rw [heq])
    simp [hne]

lemma Accepts.proper {f : Frame} (h : Accepts now f c x new events) (hc : c.Sound) :
    Proper c.cfg new events := by
  cases h with
  | foreign => simp [Proper]
  | @flowControl status blockSize stMin =>
    have haccept := (hc.sender.accept hc.sender.twin_refl c.cfg now
      (.ofWire status blockSize stMin)).1
    have hevent := haccept.sound.ne_outOfBounds (Sender.notes_accept now _)
    exact ⟨fun direction => failed_notMem_sendEvent hevent, by simp⟩
  | unit hf hread hresolves =>
    exact hresolves.proper hc.valid
      (hc.receiver.accept_ne_outOfBounds c.policy now (Pdu.proper_decode f.data))

lemma Retries.length_le (h : Retries now c r new) (hcfg : c.cfg.Valid) :
    ∀ o ∈ new, o.frame.data.length ≤ c.cfg.frameLength := by
  have hfc := FlowControl.length_frame_le hcfg
  cases h with
  | nothing => simp
  | taken | refused => simpa using hfc _

lemma Elapses.proper (h : Elapses now c x new events) (hc : c.Sound) :
    Proper c.cfg new events := by
  cases h with
  | @mk r s answers parts event hretries hadvances =>
    have hevent : event ≠ some (.failed .outOfBounds) := by
      cases hadvances with
      | rest | refused => simp
      | expired hdue => simp [Sender.giveUp]
      | taken hphase =>
        exact (hc.sender.placed hc.sender.twin_refl hphase c.cfg now _).1.sound.ne_outOfBounds
          (Sender.notes_placed now _)
    have hcause := Receiver.advance_ne_outOfBounds (r := r) now
    refine ⟨fun direction hmem => ?_, fun o ho => ?_⟩
    · rcases List.mem_append.1 hmem with hmem | hmem
      · obtain ⟨cause, hsome, heq⟩ := List.mem_map.1 hmem
        cases heq
        exact hcause (Option.mem_toList.1 hsome)
      · exact failed_notMem_sendEvent hevent hmem
    · rcases List.mem_append.1 ho with ho | ho
      · exact hretries.length_le hc.valid o ho
      · exact (hadvances.isPart o ho).length_le

lemma Sends.proper {ε : Type} {id : CanId} {payload : Bytes} {value : Except (Error ε) Unit}
    (h : Sends now id payload c x new events value) (hc : c.Sound) : Proper c.cfg new events := by
  cases h with
  | error hbegins => exact ⟨by simp, fun o ho => (hbegins.isPart o ho).length_le⟩
  | ok hbegins =>
    refine ⟨fun direction => ?_, fun o ho => (hbegins.isPart o ho).length_le⟩
    cases hbegins with
    | taken _ _ hcap =>
      exact failed_notMem_sendEvent
        ((hc.sender.opened hc.sender.twin_refl hc.valid.frameLength_legal now id
          hcap).1.sound.ne_outOfBounds (Sender.notes_opened now id payload))

end Outcomes

/-- No call accesses a buffer out of bounds. -/
theorem Sound.inBounds {z : Option Cargo} (hc : c.Sound) (hready : c.sender.Ready c.cfg z)
    (line : σ) (now : Instant) (op : Op σ) :
    (Host.step ⟨c, line⟩ now op).2.InBounds c.cfg := by
  have hquiet (reply : Reply ε) (hprogress : reply ≠ .progress (.failed .outOfBounds))
      (hcollected : reply ≠ .collected (.error (.aborted .outOfBounds))) (after : Channel) :
      (⟨now, op, c, reply, [], [], after⟩ : Record σ ε).InBounds c.cfg :=
    ⟨by simp, hprogress, hcollected, by simp⟩
  cases op with
  | send payload =>
    obtain ⟨value, -, hsends⟩ := Host.step_send (h := ⟨c, line⟩) now hready payload
    obtain ⟨hevents, hoffers⟩ := hsends.proper hc
    exact ⟨hevents, by simp [Host.step], by simp [Host.step], hoffers⟩
  | sendAs id payload =>
    obtain ⟨value, -, hsends⟩ := Host.step_sendAs (h := ⟨c, line⟩) now hready id payload
    obtain ⟨hevents, hoffers⟩ := hsends.proper hc
    exact ⟨hevents, by simp [Host.step], by simp [Host.step], hoffers⟩
  | frame f =>
    obtain ⟨hevents, hoffers⟩ := (Host.step_frame (h := ⟨c, line⟩) now hc.valid f).proper hc
    exact ⟨hevents, by simp [Host.step], by simp [Host.step], hoffers⟩
  | advance =>
    obtain ⟨hevents, hoffers⟩ := (Host.step_advance (h := ⟨c, line⟩) now hready).proper hc
    have hsound := (hc.advance now (Tap.mk line []) hc.twin_refl).stays
    refine ⟨hevents, fun h => ?_, by simp [Host.step], hoffers⟩
    exact hsound.sender.sound.progress_ne (Reply.progress.inj h)
  | collect room =>
    refine hquiet _ (by simp) (fun h => ?_) _
    exact hc.receiver.collect_ne_outOfBounds room (Reply.collected.inj h)
  | cancel => exact hquiet .none (by simp) (by simp) _
  | setPolicy policy => exact hquiet .none (by simp) (by simp) _
  | setLine line => exact hquiet .none (by simp) (by simp) _

/-! ### Runs -/

lemma Stays.trans {y y' : Channel} (h : Stays c x x') (hy : Stays x y y') : Stays c y y' :=
  ⟨hy.cfg_eq.trans h.cfg_eq, hy.eq, h.sender.trans hy.sender, h.receiver.trans hy.receiver⟩

/-- The same calls take twins to twins, and look the same. -/
theorem Sound.run (h : c.Sound) (ht : Twin c c') (line : σ) (calls : List (Instant × Op σ)) :
    Stays c (Host.run ⟨c, line⟩ calls).channel (Host.run ⟨c', line⟩ calls).channel ∧
      (Host.trace ⟨c', line⟩ calls).map Record.sight =
        (Host.trace ⟨c, line⟩ calls).map Record.sight := by
  induction calls generalizing c c' line with
  | nil => exact ⟨h.stays ht, rfl⟩
  | cons call calls ih =>
    obtain ⟨hstays, hline, hsight⟩ := h.step ht line call.1 call.2
    have hnext := ih (hstays.sound h) hstays.twin (Host.step ⟨c, line⟩ call.1 call.2).1.line
    have hhost : (Host.step ⟨c', line⟩ call.1 call.2).1 =
        ⟨(Host.step ⟨c', line⟩ call.1 call.2).1.channel,
          (Host.step ⟨c, line⟩ call.1 call.2).1.line⟩ := by rw [← hline]
    rw [← hhost] at hnext
    refine ⟨hstays.trans hnext.1, ?_⟩
    rw [Host.trace, Host.trace, List.map_cons, List.map_cons, hsight]
    exact congrArg _ hnext.2

/-- A message on its way is the last one that was begun. -/
def Latest (begun : List (CanId × Bytes)) (x : Option Cargo) : Prop :=
  ∀ o, x = some o → ∃ earlier, begun = earlier ++ [(o.id, o.payload)]

lemma Cargo.eq_of_left? {o o' : Cargo} (h : o.left? cfg = some o') : o' = o := by
  unfold Cargo.left? at h
  split at h
  · exact (Option.some.inj h).symm
  · cases h

lemma Latest.move {begun : List (CanId × Bytes)} {y z : Option Cargo} {e : Effect}
    (h : Latest begun y) (hmove : Move cfg y e z) : Latest (begun ++ e.begun.toList) z := by
  cases hmove with
  | rest =>
    rw [show (Effect.begun {}).toList = [] from rfl, List.append_nil]
    exact h
  | quit => exact fun o ho => nomatch ho
  | begin id hs hf =>
    intro o ho
    obtain rfl := Cargo.eq_of_left? ho
    exact ⟨begun, rfl⟩
  | next hs hc hf =>
    intro o ho
    obtain rfl := Cargo.eq_of_left? ho
    rw [show (Option.toList none : List (CanId × Bytes)) = [] from rfl, List.append_nil]
    obtain ⟨earlier, hbegun⟩ := h _ rfl
    exact ⟨earlier, hbegun⟩

/-- Throughout a run, what a sender has on its way is the last message begun, and no call accesses a
buffer out of bounds. -/
theorem Sound.latest {begun : List (CanId × Bytes)} {z : Option Cargo} (h : c.Sound)
    (hready : c.sender.Ready c.cfg z) (hlatest : Latest begun z) (line : σ)
    (calls : List (Instant × Op σ)) :
    let records := Host.trace ⟨c, line⟩ calls
    (∀ r ∈ records, r.InBounds c.cfg) ∧
      ∃ z', (Host.run ⟨c, line⟩ calls).channel.sender.Ready c.cfg z' ∧
        Latest (begun ++ records.filterMap Record.begun) z' := by
  induction calls generalizing c line begun z with
  | nil => exact ⟨by simp [Host.trace], z, hready, by simpa [Host.trace] using hlatest⟩
  | cons call calls ih =>
    have hbounds := h.inBounds hready line call.1 call.2
    obtain ⟨hcfg, y, hmove, hready'⟩ := Host.step_moves ⟨c, line⟩ hready call.1 call.2
    have hsound := (h.step h.twin_refl line call.1 call.2).1.sound h
    rw [← hcfg] at hready'
    obtain ⟨hrest, z', hready'', hlatest'⟩ :=
      ih hsound hready' (hlatest.move hmove) (Host.step ⟨c, line⟩ call.1 call.2).1.line
    rw [hcfg] at hrest hready''
    refine ⟨fun r hr => ?_, z', hready'', ?_⟩
    · rcases List.mem_cons.1 hr with rfl | hr
      · exact hbounds
      · exact hrest r hr
    · rw [List.append_assoc] at hlatest'
      have hcons (r : Record σ ε) (rs : List (Record σ ε)) : (r :: rs).filterMap Record.begun =
          r.begun.toList ++ rs.filterMap Record.begun := by
        cases hr : r.begun <;> simp [hr]
      rw [Host.trace, hcons]
      exact hlatest'

/-! ### Main statement -/

lemma Fresh.sound (h : Fresh cfg c) : c.Sound ∧
    c.sender.capacity = cfg.sendCapacity ∧ c.receiver.capacity = cfg.receiveCapacity := by
  obtain ⟨hcfg, tx, rx, htx, hrx, rfl⟩ := h.eq_new
  exact ⟨⟨hcfg, Sender.sound_new .., Receiver.sound_new ..⟩, Nat.min_eq_left htx,
    Nat.min_eq_left hrx⟩

/-- Channels built over buffers that are the same as far as the capacities are twins. -/
lemma Fresh.twin (h : Fresh cfg c) (h' : Fresh cfg c')
    (htx : Buffer.Alike cfg.sendCapacity c.sender.buffer c'.sender.buffer)
    (hrx : Buffer.Alike cfg.receiveCapacity c.receiver.buffer c'.receiver.buffer) : Twin c c' := by
  obtain ⟨-, hsend, hreceive⟩ := h.sound
  obtain ⟨-, hsend', hreceive'⟩ := h'.sound
  obtain ⟨-, tx, rx, -, -, rfl⟩ := h.eq_new
  obtain ⟨-, tx', rx', -, -, rfl⟩ := h'.eq_new
  refine ⟨_, _, ⟨tx', ?_, ?_⟩, ⟨rx', ?_, ?_⟩, rfl⟩
  · rw [hsend]
    exact htx
  · simp only [Sender.new] at hsend hsend' ⊢
    rw [hsend, hsend']
  · rw [hreceive]
    exact hrx
  · simp only [Receiver.new] at hreceive hreceive' ⊢
    rw [hreceive, hreceive']

/-- **A channel stays within its bounds and within its buffers.** Whatever the calls, their instants
and the link: a transfer in flight and a reception under way are in order, so that no offset passes
a length and no length a capacity, and the message being sent is the last one begun and stands at
the start of its buffer; no call accesses a buffer out of bounds or offers a frame that is too long;
what the buffers have beyond the capacities is as it was, and makes no difference to what is seen of
any call. -/
theorem sound_of_run (hc : Fresh cfg c) (line : σ) (calls : List (Instant × Op σ)) :
    let h := Host.run ⟨c, line⟩ calls
    let records := Host.trace ⟨c, line⟩ calls
    (h.channel.sender.Sound ∧ h.channel.sender.capacity = cfg.sendCapacity ∧
      ∀ t, h.channel.sender.transfer? = some t → ∃ earlier, records.filterMap Record.begun =
        earlier ++ [(t.id, h.channel.sender.buffer.toList.take t.length)]) ∧
    (h.channel.receiver.Sound ∧ h.channel.receiver.capacity = cfg.receiveCapacity ∧
      (h.channel.receiver.status = .idle ∨ h.channel.receiver.status = .failed →
        h.channel.receiver.written = 0)) ∧
    (∀ r ∈ records, r.InBounds cfg) ∧
    Buffer.Keeps cfg.sendCapacity c.sender.buffer h.channel.sender.buffer ∧
    Buffer.Keeps cfg.receiveCapacity c.receiver.buffer h.channel.receiver.buffer ∧
    ∀ c', Fresh cfg c' → Buffer.Alike cfg.sendCapacity c.sender.buffer c'.sender.buffer →
      Buffer.Alike cfg.receiveCapacity c.receiver.buffer c'.receiver.buffer →
      (Host.trace ⟨c', line⟩ calls).map Record.sight = records.map Record.sight := by
  intro h records
  obtain ⟨hsound, hsend, hreceive⟩ := hc.sound
  obtain ⟨rfl, hready⟩ := hc.ready
  have hstays := (hsound.run hsound.twin_refl line calls).1
  have hnone : Latest [] none := fun _ ho => nomatch ho
  obtain ⟨hbounds, z, hready', hlatest⟩ := hsound.latest hready hnone line calls
  have hkeeps := hstays.sender.keeps
  have hkeeps' := hstays.receiver.keeps
  rw [hsend] at hkeeps
  rw [hreceive] at hkeeps'
  refine ⟨⟨hstays.sender.sound, hstays.sender.capacity.trans hsend, fun t ht => ?_⟩,
    ⟨hstays.receiver.sound, hstays.receiver.capacity.trans hreceive, ?_⟩, hbounds, hkeeps, hkeeps',
    fun c' hc' htx hrx => (hsound.run (hc.twin hc' htx hrx) line calls).2⟩
  · obtain ⟨o, rfl, ho⟩ := hready'.carries ht
    obtain ⟨earlier, hbegun⟩ := hlatest o rfl
    refine ⟨earlier, hbegun.trans ?_⟩
    rw [ho.id, ho.length, ho.bytes]
  · exact hstays.receiver.sound.written_eq_zero

/-- Buffers with room to spare, a frame that the link refuses, and a reception under way. -/
theorem sound_of_run_with_room_to_spare :
    let cfg : Config := { rxId := .standard 1, sendCapacity := 20, receiveCapacity := 20 }
    let c : Channel := ⟨cfg, cfg.policy, .new (.zeroed 24) 20, .new (.zeroed 24) 20⟩
    let calls : List (Instant × Op Quota) :=
      [(0, .send (.replicate 10 7)), (1, .frame ⟨.standard 1, [0x30, 0, 0], false⟩),
        (2, .setLine ⟨some 0⟩), (3, .advance),
        (4, .frame ⟨.standard 1, [0x10, 20, 1, 2, 3, 4, 5, 6], false⟩)]
    let h := Host.run ⟨c, (⟨none⟩ : Quota)⟩ calls
    Fresh cfg c ∧ h.channel.sender.Sound ∧ h.channel.receiver.Sound ∧
      h.channel.sender.progress = .stalled ∧ h.channel.receiver.written = 6 := by
  intro cfg c calls h
  have hc : Fresh cfg c := .ofBuffers (.zeroed 24) (.zeroed 24) rfl
  obtain ⟨⟨hsender, -⟩, ⟨hreceiver, -⟩, -⟩ := sound_of_run hc (⟨none⟩ : Quota) calls
  exact ⟨hc, hsender, hreceiver, by decide +kernel, by decide +kernel⟩

end IsoTp.Channel
