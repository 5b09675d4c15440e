import IsoTp.Proofs.Channel.Alike

/-!
The two halves of a channel do not interfere.

They share the parameters, the clock and the link. On a link that takes every frame, what one half
puts on it, yields and reports is the same whether or not the other half is called: calls for the
other half can be struck out of a run without a trace in this one. Two runs are followed side by
side, the second without the calls struck out, and one half is the same in both throughout.
-/

namespace IsoTp.Channel

variable {σ ε : Type} [Link σ ε] {d : Direction}

/-! ### What is seen of a half -/

/-- A link put in place of another that takes every frame, too. -/
def Op.Willing : Op σ → Prop
  | .setLine line => Link.Willing line
  | _ => True

/-- A frame that the channel makes nothing of: a remote frame, one under another identifier, or one
that cannot be read. -/
def Op.Inert (cfg : Config) : Op σ → Prop
  | .frame f => f.remote ∨ f.id ≠ cfg.rxId ∨ Pdu.decode f.data = .invalid
  | _ => False

/-- What a call shows of one half: what it yields, the frames of that half that the link took, the
events that concern it, and the half itself after the call, with all that is read off it. -/
structure View (d : Direction) (ε : Type) where
  reply : Reply ε
  frames : List Frame
  events : List Event
  half : d.Half

/-- What a call yields for one half. What time yields is the sender's progress. -/
def Reply.about : Direction → Reply ε → Reply ε
  | .receive, .progress _ => .none
  | _, reply => reply

namespace Record

/-- The frames of one half that the link took. -/
def framesOf (d : Direction) (y : Record σ ε) : List Frame :=
  (takenOf y.offers).filter (d.sends ·.kind?)

def view (d : Direction) (y : Record σ ε) : View d ε :=
  ⟨y.reply.about d, y.framesOf d, eventsOf d y.events, y.after.half d⟩

/-- A call that comes to nothing. -/
structure Silent (y : Record σ ε) : Prop where
  reply : y.reply = .verdict (.ok ())
  events : y.events = []
  offers : y.offers = []
  after : y.after = y.before

end Record

namespace Host

variable {a b : Host σ}

/-- No call changes the parameters. -/
lemma step_cfg (a : Host σ) (now : Instant) (op : Op σ) :
    (a.step now op).1.channel.cfg = a.channel.cfg := by
  cases op with
  | frame f =>
    change (a.channel.accept now f (Tap.mk a.line [])).channel.cfg = a.channel.cfg
    unfold accept
    split
    · rfl
    · split
      · rfl
      · exact (settle_frame now (Tap.mk a.line []) _ _).1
  | advance => exact (retryFlowControl_frame (c := a.channel) now (Tap.mk a.line [])).1
  | send | sendAs | collect | cancel | setPolicy | setLine => rfl

/-- Two channels of which one half is the same, on links that take every frame. -/
structure Alike (d : Direction) (a b : Host σ) : Prop where
  channel : a.channel.Alike d b.channel
  willing : Link.Willing a.line
  willing' : Link.Willing b.line

lemma Alike.taps (h : a.Alike d b) : (Tap.mk a.line []).Alike d (Tap.mk b.line []) :=
  ⟨h.willing, h.willing', rfl⟩

/-- What alike calls show of the half is the same. -/
lemma view_eq {α : Type} {turn turn' : Turn (Tap σ) α} (h : turn.Alike d turn') (now : Instant)
    (op : Op σ) (c c' : Channel) {reply reply' : Reply ε}
    (hreply : reply.about d = reply'.about d) :
    Record.view d ⟨now, op, c, reply, turn.events, turn.line.offers, turn.channel⟩ =
      Record.view d ⟨now, op, c', reply', turn'.events, turn'.line.offers, turn'.channel⟩ := by
  rw [Record.view, Record.view, View.mk.injEq]
  exact ⟨hreply, h.line.frames, h.events, h.channel.half⟩

/-- A call that concerns one half does the same to it whatever the other half is. -/
theorem Alike.step (h : a.Alike d b) (now : Instant) {op : Op σ} (hwilling : op.Willing)
    (hop : op.concerns a.channel.cfg d) :
    (a.step now op).1.Alike d (b.step now op).1 ∧
      (a.step now op).2.view d = (b.step now op).2.view d := by
  have hchannel := h.channel
  have hmoved {α : Type} {turn turn' : Turn (Tap σ) α} (hturn : turn.Alike d turn') :
      Alike d ⟨turn.channel, turn.line.line⟩ ⟨turn'.channel, turn'.line.line⟩ :=
    ⟨hturn.channel, hturn.line.willing, hturn.line.willing'⟩
  -- a call that does not use the link
  have hstill {x x' : Channel} (hx : x.Alike d x') {reply reply' : Reply ε}
      (hreply : reply = reply') :
      Alike d ⟨x, a.line⟩ ⟨x', b.line⟩ ∧
        Record.view d ⟨now, op, a.channel, reply, [], [], x⟩ =
          Record.view d ⟨now, op, b.channel, reply', [], [], x'⟩ := by
    refine ⟨⟨hx, h.willing, h.willing'⟩, ?_⟩
    rw [Record.view, Record.view, View.mk.injEq]
    exact ⟨congrArg _ hreply, rfl, rfl, hx.half⟩
  cases op with
  | send payload =>
    cases d with
    | send =>
      obtain ⟨hturn, hvalue⟩ := send_alike hchannel h.taps now payload
      exact ⟨hmoved hturn, view_eq hturn now _ _ _ (congrArg (Reply.about _ ∘ .verdict) hvalue)⟩
    | receive => cases hop
  | sendAs id payload =>
    cases d with
    | send =>
      obtain ⟨hturn, hvalue⟩ := sendAs_alike hchannel h.taps now id payload
      exact ⟨hmoved hturn, view_eq hturn now _ _ _ (congrArg (Reply.about _ ∘ .verdict) hvalue)⟩
    | receive => cases hop
  | frame f =>
    obtain ⟨hturn, hvalue⟩ := accept_alike hchannel h.taps now hop
    exact ⟨hmoved hturn, view_eq hturn now _ _ _ (congrArg (Reply.about _ ∘ .verdict) hvalue)⟩
  | advance =>
    have hturn := advance_alike hchannel h.taps now
    refine ⟨hmoved hturn, view_eq hturn now _ _ _ ?_⟩
    cases d with
    | send => exact congrArg (fun s : Sender => Reply.progress s.progress) hturn.channel.half
    | receive => rfl
  | collect room =>
    cases d with
    | send => cases hop
    | receive =>
      obtain ⟨hx, hresult⟩ := hchannel.collect room
      exact hstill hx (congrArg _ hresult)
  | cancel =>
    cases d with
    | send => exact hstill hchannel.cancel rfl
    | receive => cases hop
  | setPolicy policy =>
    cases d with
    | send => cases hop
    | receive => exact hstill (hchannel.setPolicy policy) rfl
  | setLine line =>
    obtain ⟨-, hview⟩ := hstill hchannel rfl
    exact ⟨⟨hchannel, hwilling, hwilling⟩, hview⟩

/-- A call that does not concern one half does nothing to it. -/
theorem Alike.step_left (h : a.Alike d b) (now : Instant) {op : Op σ}
    (hop : op.concerns a.channel.cfg d = false) :
    (a.step now op).1.Alike d b ∧ (a.step now op).2.framesOf d = [] ∧
      eventsOf d (a.step now op).2.events = [] := by
  have hchannel := h.channel
  have hmoved {α : Type} {turn : Turn (Tap σ) α}
      (hturn : turn.Apart d b.channel (Tap.mk b.line [])) :
      Alike d ⟨turn.channel, turn.line.line⟩ b ∧
        (takenOf turn.line.offers).filter (d.sends ·.kind?) = [] ∧ eventsOf d turn.events = [] :=
    ⟨⟨hturn.channel, hturn.line.willing, hturn.line.willing'⟩, hturn.line.frames, hturn.events⟩
  have hstill {x : Channel} (hx : x.Alike d b.channel) : Alike d ⟨x, a.line⟩ b :=
    ⟨hx, h.willing, h.willing'⟩
  cases op with
  | send payload =>
    cases d with
    | send => cases hop
    | receive => exact hmoved (sendAs_apart hchannel h.taps now a.channel.cfg.txId payload)
  | sendAs id payload =>
    cases d with
    | send => cases hop
    | receive => exact hmoved (sendAs_apart hchannel h.taps now id payload)
  | frame f => exact hmoved (accept_apart hchannel h.taps now hop)
  | advance => cases hop
  | collect room =>
    cases d with
    | send => exact ⟨hstill ⟨hchannel.cfg, hchannel.half⟩, rfl, rfl⟩
    | receive => cases hop
  | cancel =>
    cases d with
    | send => cases hop
    | receive => exact ⟨hstill ⟨hchannel.cfg, hchannel.half⟩, rfl, rfl⟩
  | setPolicy policy =>
    cases d with
    | send => exact ⟨hstill ⟨hchannel.cfg, hchannel.half⟩, rfl, rfl⟩
    | receive => cases hop
  | setLine line => cases hop

/-- A frame that the channel makes nothing of leaves it and its link alone. -/
theorem step_inert (now : Instant) {op : Op σ} (hop : op.Inert a.channel.cfg) :
    a.step now op = (a, ⟨now, op, a.channel, .verdict (.ok ()), [], [], a.channel⟩) := by
  cases op with
  | frame f =>
    have haccept : a.channel.accept now f (Tap.mk a.line []) =
        ⟨a.channel, Tap.mk a.line [], .ok (), []⟩ := by
      by_cases hforeign : f.remote ∨ f.id ≠ a.channel.cfg.rxId
      · exact accept_foreign now _ hforeign
      · have hread : Pdu.decode f.data = .invalid := (or_assoc.2 hop).resolve_left hforeign
        unfold accept
        rw [if_neg hforeign]
        simp only [hread]
        rfl
    simp only [step, haccept]
  | send | sendAs | advance | collect | cancel | setPolicy | setLine => exact hop.elim

/-- The calls that concern one half show the same of it in a run from which the others are struck
out, and those others show nothing of it. -/
theorem Alike.run {cfg : Config} (h : a.Alike d b) (hcfg : a.channel.cfg = cfg)
    (calls : List (Instant × Op σ)) (hwilling : ∀ call ∈ calls, call.2.Willing) :
    ((a.trace calls).filter (·.op.concerns cfg d)).map (Record.view d) =
        (b.trace (calls.filter (·.2.concerns cfg d))).map (Record.view d) ∧
      ∀ y ∈ a.trace calls, y.op.concerns cfg d = false →
        y.framesOf d = [] ∧ eventsOf d y.events = [] := by
  induction calls generalizing a b with
  | nil => exact ⟨rfl, List.forall_mem_nil _⟩
  | cons call calls ih =>
    obtain ⟨now, op⟩ := call
    obtain ⟨hw, hwilling⟩ := List.forall_mem_cons.1 hwilling
    have hcfg' := (a.step_cfg now op).trans hcfg
    simp only [trace_cons, List.forall_mem_cons, List.filter_cons, step_op]
    cases hop : op.concerns cfg d with
    | true =>
      obtain ⟨hnext, hview⟩ := h.step now hw (hcfg ▸ hop)
      obtain ⟨hviews, hsilent⟩ := ih hnext hcfg' hwilling
      refine ⟨?_, nofun, hsilent⟩
      rw [if_pos rfl, if_pos rfl, trace_cons, List.map_cons, List.map_cons, hview, hviews]
    | false =>
      -- only the first run takes the call; the second stays where it is
      obtain ⟨hnext, hnone⟩ := h.step_left now (hcfg ▸ hop)
      obtain ⟨hviews, hsilent⟩ := ih hnext hcfg' hwilling
      refine ⟨?_, fun _ => hnone, hsilent⟩
      rw [if_neg Bool.false_ne_true, if_neg Bool.false_ne_true, hviews]

/-- Frames that the channel makes nothing of can be struck out of a run. -/
theorem trace_filter {cfg : Config} (hcfg : a.channel.cfg = cfg) {keep : Instant × Op σ → Bool}
    (calls : List (Instant × Op σ))
    (hkeep : ∀ call ∈ calls, keep call = false → call.2.Inert cfg) :
    a.trace (calls.filter keep) = (a.trace calls).filter (fun y => keep (y.now, y.op)) ∧
      ∀ y ∈ a.trace calls, keep (y.now, y.op) = false → y.Silent := by
  induction calls generalizing a with
  | nil => exact ⟨rfl, List.forall_mem_nil _⟩
  | cons call calls ih =>
    obtain ⟨now, op⟩ := call
    obtain ⟨hdrop, hkeep⟩ := List.forall_mem_cons.1 hkeep
    obtain ⟨htrace, hsilent⟩ := ih ((a.step_cfg now op).trans hcfg) hkeep
    simp only [trace_cons, List.forall_mem_cons, List.filter_cons, step_op, step_now]
    cases hcall : keep (now, op) with
    | true =>
      refine ⟨?_, nofun, hsilent⟩
      rw [if_pos rfl, if_pos rfl, trace_cons, htrace]
    | false =>
      have hinert := step_inert now (hcfg ▸ hdrop hcall : op.Inert a.channel.cfg)
      rw [if_neg Bool.false_ne_true, if_neg Bool.false_ne_true]
      rw [hinert] at htrace hsilent ⊢
      exact ⟨htrace, fun _ => ⟨rfl, rfl, rfl, rfl⟩, hsilent⟩

end Host

/-- What one half shows in a run and in the run of its own calls: the same in each of these calls,
and the same frames and events in all. -/
structure Unchanged (cfg : Config) (d : Direction) (records own : List (Record σ ε)) : Prop where
  views : (records.filter (·.op.concerns cfg d)).map (Record.view d) = own.map (Record.view d)
  frames : records.flatMap (Record.framesOf d) = own.flatMap (Record.framesOf d)
  events : records.flatMap (eventsOf d ·.events) = own.flatMap (eventsOf d ·.events)

lemma flatMap_filter_of_nil {α β : Type} {f : α → List β} {p : α → Bool} {xs : List α}
    (h : ∀ x ∈ xs, p x = false → f x = []) : (xs.filter p).flatMap f = xs.flatMap f := by
  induction xs with
  | nil => rfl
  | cons x xs ih =>
    obtain ⟨hx, hxs⟩ := List.forall_mem_cons.1 h
    cases hp : p x with
    | true => rw [List.filter_cons_of_pos hp, List.flatMap_cons, List.flatMap_cons, ih hxs]
    | false =>
      rw [List.filter_cons_of_neg (by simp [hp]), List.flatMap_cons, hx hp, List.nil_append,
        ih hxs]

/-- **The two halves do not interfere.** Whatever the link: frames under other identifiers, remote
frames and frames that cannot be read come to nothing, and can be struck out of a run without a
change to any other call. On a link that takes every frame: for each half, a run and the run of the
calls for this half alone show the same of it in each of these calls, what it yields, the frames it
puts on the link, its events and all that is read off it afterwards; and the frames and events of
this half are the same in all. -/
theorem halves_of_run (c : Channel) (line : σ) (calls : List (Instant × Op σ)) :
    let run := Host.trace (ε := ε) ⟨c, line⟩
    (∀ keep : Instant × Op σ → Bool,
      (∀ call ∈ calls, keep call = false → call.2.Inert c.cfg) →
      run (calls.filter keep) = (run calls).filter (fun y => keep (y.now, y.op)) ∧
        ∀ y ∈ run calls, keep (y.now, y.op) = false → y.Silent) ∧
      (Link.Willing line → (∀ call ∈ calls, call.2.Willing) → ∀ d : Direction,
        Unchanged c.cfg d (run calls) (run (calls.filter (·.2.concerns c.cfg d)))) := by
  intro run
  refine ⟨fun keep hkeep => Host.trace_filter rfl calls hkeep, fun hline hcalls d => ?_⟩
  have hsame : Host.Alike d ⟨c, line⟩ ⟨c, line⟩ := ⟨.refl d c, hline, hline⟩
  obtain ⟨hviews, hsilent⟩ := hsame.run rfl calls hcalls
  refine ⟨hviews, ?_, ?_⟩
  · have hframes := congrArg (List.flatMap View.frames) hviews
    rw [List.flatMap_map, List.flatMap_map] at hframes
    rw [← flatMap_filter_of_nil fun y hy hop => (hsilent y hy hop).1]
    exact hframes
  · have hevents := congrArg (List.flatMap View.events) hviews
    rw [List.flatMap_map, List.flatMap_map] at hevents
    rw [← flatMap_filter_of_nil fun y hy hop => (hsilent y hy hop).2]
    exact hevents

/-- A message going out while another comes in, with a frame under another identifier. -/
theorem halves_of_run_full_duplex :
    let cfg : Config := { rxId := .standard 1 }
    let c : Channel :=
      ⟨cfg, cfg.policy, .new (.zeroed 4095) 4095, .new (.zeroed 4095) 4095⟩
    let calls : List (Instant × Op Quota) :=
      [(0, .send (.replicate 10 7)),
        (1, .frame ⟨.standard 1, [0x10, 8, 1, 2, 3, 4, 5, 6], false⟩),
        (2, .frame ⟨.standard 2, [0x32, 0, 0], false⟩),
        (3, .frame ⟨.standard 1, [0x30, 0, 0], false⟩), (4, .advance),
        (5, .frame ⟨.standard 1, [0x21, 7, 8], false⟩), (6, .collect 8)]
    let run := Host.trace ⟨c, (⟨none⟩ : Quota)⟩
    let keep : Instant × Op Quota → Bool := fun call => call.1 ≠ 2
    let own (d : Direction) := calls.filter (·.2.concerns cfg d)
    (∀ call ∈ calls, keep call = false → call.2.Inert cfg) ∧
      run (calls.filter keep) = (run calls).filter (fun y => y.now ≠ 2) ∧
      Link.Willing (⟨none⟩ : Quota) ∧ (∀ call ∈ calls, call.2.Willing) ∧
      (own .send).map Prod.fst = [0, 3, 4] ∧ (own .receive).map Prod.fst = [1, 2, 4, 5, 6] ∧
      (∀ d, Unchanged cfg d (run calls) (run (own d))) ∧
      (run calls).map (fun y => (y.framesOf .send).length) = [1, 0, 0, 0, 1, 0, 0] ∧
      (run calls).map (fun y => (y.framesOf .receive).length) = [0, 1, 0, 0, 0, 0, 0] := by
  intro cfg c calls run keep own
  have hkeep : ∀ call ∈ calls, keep call = false → call.2.Inert cfg := by
    simp [calls, keep, Op.Inert, cfg]
  have hcalls : ∀ call ∈ calls, call.2.Willing := by
    simp [calls, Op.Willing]
  obtain ⟨hinert, hunchanged⟩ := halves_of_run c (⟨none⟩ : Quota) calls
  have hwilling := Link.willing_without_limit
  exact ⟨hkeep, (hinert keep hkeep).1, hwilling, hcalls, by decide +kernel, by decide +kernel,
    hunchanged hwilling hcalls, by decide +kernel, by decide +kernel⟩

end IsoTp.Channel
