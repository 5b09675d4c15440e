import IsoTp.Proofs.Channel.Collection
import IsoTp.Proofs.Channel.Sending

/-!
Two channels with a wire from the first to the second that may lose frames.

The wire keeps the order of the frames, and loses none that opens a message. Each frame on it is
the next one of a message that the first channel began to send, so the frames on the wire take the
messages from one position to another: from where the second channel has come to where the first
one is. At either end the position tells which messages have passed in full.
-/

namespace IsoTp.Channel

open Segmentation Assembly

/-! ### The wire -/

/-- Two channels, the frames on their way from the first to the second, and the calls of either,
oldest first. -/
structure Wire (σ τ ε δ : Type) where
  a : Host σ
  b : Host τ
  inFlight : List Frame := []
  recordsA : List (Record σ ε) := []
  recordsB : List (Record τ δ) := []

namespace Wire

/-- What can happen: any call of the first channel, a call of the second that takes in no frame, and
the arrival or the loss of the frame that is first on the wire. -/
inductive Act (σ τ : Type) where
  | atA (now : Instant) (op : Op σ)
  | atB (now : Instant) (op : Op τ)
  | arrive (now : Instant)
  | lose

variable {σ τ ε δ : Type}

/-- The messages that the first channel has begun to send. -/
def begun (w : Wire σ τ ε δ) : List Bytes := messagesBegun w.recordsA

/-- The messages that the first channel has sent in full. -/
def sent (w : Wire σ τ ε δ) : List Bytes := messagesSent w.recordsA

/-- The messages that the second channel has reported as received. -/
def received (w : Wire σ τ ε δ) : List Bytes := w.recordsB.flatMap (Channel.received ·.events)

variable [Link σ ε] [Link τ δ]

/-- A call of the first channel. The frames that its link takes go on the wire. -/
def callA (w : Wire σ τ ε δ) (now : Instant) (op : Op σ) : Wire σ τ ε δ :=
  let (a, record) := w.a.step now op
  { w with
    a
    inFlight := w.inFlight ++ takenOf record.offers
    recordsA := w.recordsA ++ [record] }

/-- A call of the second channel. -/
def callB (w : Wire σ τ ε δ) (now : Instant) (op : Op τ) : Wire σ τ ε δ :=
  let (b, record) := w.b.step now op
  { w with b, recordsB := w.recordsB ++ [record] }

/-- The wire after one act. The second channel's frames come off the wire alone, and a frame that
opens a message is not lost; an act that cannot be done changes nothing. -/
def step (w : Wire σ τ ε δ) : Act σ τ → Wire σ τ ε δ
  | .atA now op => w.callA now op
  | .atB now op => if op.isFrame then w else w.callB now op
  | .arrive now =>
    match w.inFlight with
    | [] => w
    | f :: rest => { w with inFlight := rest }.callB now (.frame f)
  | .lose =>
    match w.inFlight with
    | [] => w
    | f :: rest => if f.opens then w else { w with inFlight := rest }

/-- The wire after a list of acts. -/
def run (w : Wire σ τ ε δ) (acts : List (Act σ τ)) : Wire σ τ ε δ := acts.foldl step w

end Wire

/-! ### Where a frame stands in the messages -/

/-- The messages all of whose frames have passed a point, and the last message of which any has,
with how many of its frames that are. -/
structure Position where
  whole : List Bytes := []
  current : Option Cargo := none

/-- The position at which a cargo has come this far. -/
def Position.at (cfg : Config) (p : Position) (o : Cargo) : Position :=
  ⟨p.whole ++ o.whole cfg, some o⟩

/-- A frame takes a point from one position to another: it opens a message or is the next frame of
the last one. -/
inductive Passes (cfg : Config) : Position → Frame → Position → Prop
  | opening {p : Position} {id : CanId} {payload f : Bytes} (hs : Sendable cfg payload)
      (hf : (frames cfg payload)[0]? = some f) :
      Passes cfg p ⟨id, f, false⟩ (p.at cfg ⟨id, payload, 1⟩)
  | next {p : Position} {o : Cargo} {f : Bytes} (hp : p.current = some o)
      (hs : Sendable cfg o.payload) (ho : 1 ≤ o.count)
      (hf : (frames cfg o.payload)[o.count]? = some f) :
      Passes cfg p ⟨o.id, f, false⟩ (p.at cfg o.next)

/-- The same of a list of frames. -/
inductive Flow (cfg : Config) : Position → List Frame → Position → Prop
  | nil (p : Position) : Flow cfg p [] p
  | cons {p q r : Position} {f : Frame} {fs : List Frame} (h : Passes cfg p f q)
      (hs : Flow cfg q fs r) : Flow cfg p (f :: fs) r

variable {cfg : Config} {p q r : Position} {f : Frame}

lemma Passes.remote_eq (h : Passes cfg p f q) : f.remote = false := by
  cases h <;> rfl

/-- What has passed in full stays so. -/
lemma Passes.whole_extends (h : Passes cfg p f q) : p.whole <+: q.whole := by
  cases h <;> exact List.prefix_append ..

lemma Flow.append {u v : List Frame} (hu : Flow cfg p u q) (hv : Flow cfg q v r) :
    Flow cfg p (u ++ v) r := by
  induction hu with
  | nil => exact hv
  | cons h _ ih => exact .cons h (ih hv)

lemma Flow.whole_extends {fs : List Frame} (h : Flow cfg p fs q) : p.whole <+: q.whole := by
  induction h with
  | nil => exact List.prefix_refl _
  | cons hpass _ ih => exact hpass.whole_extends.trans ih

/-! ### What goes on the wire -/

section Sending

variable {σ ε : Type} {past : List (Record σ ε)} {record : Record σ ε} {x y : Option Cargo}

/-- A position tells what the calls of a channel have come to: what has passed in full are the
messages sent, and what is on its way is the last message, which has not ended. -/
structure Position.Tells (q : Position) (past : List (Record σ ε)) (x : Option Cargo) : Prop where
  whole : q.whole = messagesSent past
  current : ∀ o, x = some o → q.current = some o ∧ Unfinished past o.payload

/-- A frame that brings a cargo this far takes the wire's end to where the cargo is. -/
lemma Position.Tells.at (h : q.Tells past x) {c : Cargo} {begun : Option Nat}
    (hle : c.count ≤ (frames cfg c.payload).length)
    (hconcludes : Sender.Concludes (x.map (·.payload.length)) begun record.endings
      ((c.left? cfg).map (·.payload.length)))
    (hsent : record.sent = c.sent cfg)
    (hnext : (messagesSent (past ++ [record]) = messagesSent past ++
      if record.endings = [.sent c.payload.length] then [c.payload] else []) ∧
      (record.endings = [] → Unfinished (past ++ [record]) c.payload)) :
    (q.at cfg c).Tells (past ++ [record]) (c.left? cfg) := by
  obtain ⟨hends, hleft⟩ := endings_of_cargo hle hconcludes hsent
  refine ⟨?_, fun o ho => ?_⟩
  · rw [hnext.1, hends, ← h.whole]
    rfl
  · rcases hleft with hnone | ⟨hsome, hopen⟩
    · rw [hnone] at ho
      cases ho
    · rw [hsome] at ho
      cases ho
      exact ⟨rfl, hnext.2 hopen⟩

/-- A call puts frames on the wire that take its end to the next position. -/
lemma Position.Tells.step (h : q.Tells past x) (hmove : Move cfg x record.effect y)
    (hconcludes : Sender.Concludes (x.map (·.payload.length)) (record.begun.map (·.2.length))
      record.endings (y.map (·.payload.length))) :
    ∃ q', Flow cfg q record.parts q' ∧ q'.Tells (past ++ [record]) y := by
  unfold Record.effect at hmove
  generalize hbegun : record.begun = begun at hmove hconcludes
  generalize record.parts = parts at hmove ⊢
  generalize hsent : record.sent = lengths at hmove
  cases hmove with
  | rest =>
    have hends := hconcludes.eq_nil_of_same
    refine ⟨q, .nil q, ?_, fun o ho => ?_⟩
    · rw [messagesSent_of_quiet past hbegun hends]
      exact h.whole
    · obtain ⟨hcurrent, hopen⟩ := h.current o ho
      exact ⟨hcurrent, (messagesSent_of_unfinished hopen hbegun).2 hends⟩
  | quit =>
    refine ⟨q, .nil q, h.whole.trans ?_, nofun⟩
    cases x with
    | none => rw [messagesSent_of_quiet past hbegun hconcludes.eq_nil_of_same]
    | some o =>
      -- the message ends, but not as sent
      have hsent' : record.endings ≠ [.sent o.payload.length] := fun hends => by
        have hmem : o.payload.length ∈ record.sent :=
          Record.sent_mem_endings_iff.1 (by rw [hends]; exact List.mem_singleton_self _)
        simp [hsent] at hmem
      rw [(messagesSent_of_unfinished (h.current o rfl).2 hbegun).1, if_neg hsent',
        List.append_nil]
  | begin id hs hf =>
    exact ⟨_, .cons (.opening hs hf) (.nil _),
      h.at (length_frames_pos hs) hconcludes hsent (messagesSent_of_begun past hbegun)⟩
  | next hs hcount hf =>
    obtain ⟨hcurrent, hopen⟩ := h.current _ rfl
    exact ⟨_, .cons (.next hcurrent hs hcount hf) (.nil _),
      h.at (List.getElem?_eq_some_iff.1 hf).1 hconcludes hsent
        (messagesSent_of_unfinished hopen hbegun)⟩

end Sending

/-! ### What comes off the wire -/

section Receiving

variable {τ δ : Type} {past : List (Record τ δ)} {record : Record τ δ} {payload : Bytes}

/-- A call that takes in the first frame of a message. -/
def Record.TakesFirst (cfg : Config) (payload : Bytes) (y : Record τ δ) : Prop :=
  ∃ f, y.op = .frame f ∧ OpensOwn y.before f ∧ (frames cfg payload)[0]? = some f.data

/-- The last of these calls to take in a frame that opens a message took in the first frame of this
one, and no failure of a reception has been reported from then on. -/
def Unbroken (cfg : Config) (payload : Bytes) (past : List (Record τ δ)) : Prop :=
  ∃ earlier first later, past = earlier ++ first :: later ∧ first.TakesFirst cfg payload ∧
    (∀ y ∈ later, ¬y.Opens) ∧ ∀ y ∈ first :: later, aborts y.events = []

/-- Every message reported as received was received without a break. -/
def Intact (cfg : Config) (past : List (Record τ δ)) : Prop :=
  ∀ u y v payload, past = u ++ y :: v → payload ∈ received y.events →
    Unbroken cfg payload (u ++ [y])

lemma Record.opens_of_op (hop : record.op = .frame f) (h : record.Opens) : f.opens = true := by
  obtain ⟨f', hf', hown⟩ := h
  cases hop.symm.trans hf'
  exact (Pdu.opens_decode_iff.1 hown.2).2

lemma unbroken_of_first (h : record.TakesFirst cfg payload) (haborts : aborts record.events = []) :
    Unbroken cfg payload (past ++ [record]) :=
  ⟨past, record, [], rfl, h, by simp, by simpa using haborts⟩

lemma Unbroken.concat (h : Unbroken cfg payload past) (hopens : ¬record.Opens)
    (haborts : aborts record.events = []) : Unbroken cfg payload (past ++ [record]) := by
  obtain ⟨earlier, first, later, rfl, hfirst, hlater, hwhole⟩ := h
  refine ⟨earlier, first, later ++ [record], by simp, hfirst, ?_, ?_⟩
  · exact List.forall_mem_append.2 ⟨hlater, by simpa using hopens⟩
  · rw [← List.cons_append]
    exact List.forall_mem_append.2 ⟨hwhole, by simpa using haborts⟩

lemma Intact.concat (h : Intact cfg past)
    (hlast : ∀ payload ∈ received record.events, Unbroken cfg payload (past ++ [record])) :
    Intact cfg (past ++ [record]) := by
  intro u y v payload hsplit hpayload
  rcases List.eq_nil_or_concat v with rfl | ⟨v', z, rfl⟩
  · obtain ⟨rfl, hy⟩ := List.append_inj' hsplit rfl
    obtain rfl : record = y := List.singleton_inj.1 hy
    exact hlast payload hpayload
  · rw [List.concat_eq_append, ← List.cons_append, ← List.append_assoc] at hsplit
    exact h u y v' payload (List.append_inj' hsplit rfl).1 hpayload

/-- What a receiver has when the frames off the wire have come to a position: it has reported some
of the messages that have passed in full, each received without a break, and what it has under way,
if its frames still come, is the last message. -/
structure Behind (cfg : Config) (rxId : CanId) (p : Position) (x : Option Pieces)
    (past : List (Record τ δ)) : Prop where
  sublist : (past.flatMap (received ·.events)).Sublist p.whole
  intact : Intact cfg past
  follows : ∀ y o, x = some y → p.current = some o → o.id = rxId →
    Follows cfg o y ∧ Unbroken cfg o.payload past

variable {rxId : CanId} {x : Option Pieces}

lemma received_concat (past : List (Record τ δ)) (record : Record τ δ) :
    (past ++ [record]).flatMap (received ·.events) =
      past.flatMap (received ·.events) ++ received record.events := by
  rw [List.flatMap_append, List.flatMap_singleton]

/-- A call that reports no message as received, after which none is under way. -/
lemma Behind.drop (h : Behind cfg rxId p x past) (hwhole : p.whole <+: q.whole)
    (hreceived : received record.events = []) :
    Behind cfg rxId q none (past ++ [record]) := by
  refine ⟨?_, h.intact.concat (by simp [hreceived]), nofun⟩
  rw [received_concat, hreceived, List.append_nil]
  exact h.sublist.trans hwhole.sublist

/-- A call that does not concern the message under way. -/
lemma Behind.keep (h : Behind cfg rxId p x past) (hopens : ¬record.Opens)
    (hreceived : received record.events = []) (haborts : aborts record.events = []) :
    Behind cfg rxId p x (past ++ [record]) := by
  refine ⟨?_, h.intact.concat (by simp [hreceived]), fun y o hy ho hid => ?_⟩
  · rw [received_concat, hreceived, List.append_nil]
    exact h.sublist
  · obtain ⟨hfollows, hunbroken⟩ := h.follows y o hy ho hid
    exact ⟨hfollows, hunbroken.concat hopens haborts⟩

/-- A frame that the receiver does not get, or that is not for it. -/
lemma Behind.skip (h : Behind cfg rxId p x past) (hpass : Passes cfg p f q)
    (hf : f.opens = false ∨ f.id ≠ rxId) : Behind cfg rxId q x past := by
  refine ⟨h.sublist.trans hpass.whole_extends.sublist, h.intact, fun y o hy ho hid => ?_⟩
  cases hpass with
  | @opening id payload d hs hopen =>
    cases ho
    have hopens := (kind_frame hs hopen id false).2
    exact absurd hid (hf.resolve_left (by simp [hopens]))
  | next hcurrent hs hcount hnext =>
    cases ho
    obtain ⟨hfollows, hunbroken⟩ := h.follows y _ hy hcurrent hid
    exact ⟨hfollows.lose, hunbroken⟩

variable {capacity : Nat} {own : Config} {policy : FlowPolicy} {now : Instant} {ph : Phase}

/-- A call that reports the message that has just passed in full. -/
lemma Behind.complete (h : Behind cfg rxId p x past) {o : Cargo}
    (hreceived : received record.events = [o.payload])
    (hend : o.count = (frames cfg o.payload).length)
    (hunbroken : Unbroken cfg o.payload (past ++ [record])) :
    Behind cfg rxId (p.at cfg o) none (past ++ [record]) := by
  refine ⟨?_, h.intact.concat fun d hd => ?_, nofun⟩
  · rw [received_concat, hreceived, Position.at, Cargo.whole, if_pos hend]
    exact h.sublist.append (List.Sublist.refl _)
  · rw [hreceived] at hd
    rw [List.mem_singleton.1 hd]
    exact hunbroken

/-- A frame that opens a message. -/
lemma Behind.opening (h : Behind cfg rxId p ph.pieces? past) {id : CanId} {d : Bytes}
    (hs : Sendable cfg payload) (hd : (frames cfg payload)[0]? = some d)
    (hfirst : record.TakesFirst cfg payload) :
    let y := Assembly.accept capacity own policy now (Pdu.decode d) ph
    received record.events = completed y → aborts record.events = [] →
      Behind cfg rxId (p.at cfg ⟨id, payload, 1⟩) y.1.pieces? (past ++ [record]) := by
  intro y hreceived haborts
  have hpass : Passes cfg p ⟨id, d, false⟩ (p.at cfg ⟨id, payload, 1⟩) := .opening hs hd
  have hwhole := hpass.whole_extends
  have hunbroken : Unbroken cfg payload (past ++ [record]) := unbroken_of_first hfirst haborts
  by_cases hshort : payload.length ≤ cfg.singleRoom
  · obtain ⟨hpieces, hcompleted⟩ := accept_single capacity own policy now ph
      (.ofNat payload.length) payload
    rw [← decode_frame_of_short hs hshort hd] at hpieces hcompleted
    rw [toNat_length_of_short hs.valid hshort, List.take_length] at hcompleted
    rw [hpieces]
    rcases hcompleted with hnone | hone
    · exact h.drop hwhole (hreceived.trans hnone)
    · exact h.complete (o := ⟨id, payload, 1⟩) (hreceived.trans hone)
        (length_frames_of_short hs hshort).symm hunbroken
  · obtain ⟨hpieces, hcompleted⟩ := accept_first capacity own policy now ph
      (.ofNat payload.length) (payload.take (cfg.firstRoom payload.length))
    rw [← decode_frame_zero hs (by omega) hd, hs.toNat_length] at hpieces
    rw [← decode_frame_zero hs (by omega) hd] at hcompleted
    have hdrop := h.drop hwhole (hreceived.trans hcompleted)
    rcases hpieces with hnone | hsome
    · rw [hnone]
      exact hdrop
    · rw [hsome]
      refine ⟨hdrop.sublist, hdrop.intact, fun z o hz ho _ => ?_⟩
      cases hz
      cases ho
      exact ⟨follows_first id, hunbroken⟩

/-- The next frame of a message. -/
lemma Behind.next {o : Cargo} {d : Bytes} (h : Behind cfg rxId p ph.pieces? past)
    (hcurrent : p.current = some o) (hid : o.id = rxId) (hs : Sendable cfg o.payload)
    (ho : 1 ≤ o.count) (hd : (frames cfg o.payload)[o.count]? = some d)
    (hopens : ¬record.Opens) :
    let y := Assembly.accept capacity own policy now (Pdu.decode d) ph
    received record.events = completed y → aborts record.events = [] →
      Behind cfg rxId (p.at cfg o.next) y.1.pieces? (past ++ [record]) := by
  have hwhole := (Passes.next hcurrent hs ho hd).whole_extends
  have hlt := (List.getElem?_eq_some_iff.1 hd).1
  have hlong := singleRoom_lt_of_lt_length hs ho hlt
  obtain ⟨sn, fill, hread, hsn, hfill⟩ := Cargo.decode_next cfg hs ho hd
  rw [hread]
  intro y hreceived haborts
  rcases accept_consecutive capacity own policy now ph sn (o.chunk cfg ++ fill) with
    ⟨hnone, hcompleted⟩ | ⟨x, hx, hturn, hcase⟩
  · rw [hnone]
    exact h.drop hwhole (hreceived.trans hcompleted)
  · obtain ⟨hfollows, hunbroken⟩ := h.follows x o hx hcurrent hid
    have hunbroken' := hunbroken.concat hopens haborts
    rw [hsn] at hturn
    have hpush := hfollows.push ((lt_length_frames_iff hs hlong ho).1 hlt) hturn fill hfill
    split at hcase
    · next hend =>
      rw [if_pos hend] at hpush
      obtain ⟨hpieces, hcompleted⟩ := hcase
      rw [hpush] at hcompleted
      rw [hpieces]
      refine h.complete (hreceived.trans hcompleted) ?_ hunbroken'
      -- the receiver has all bytes, so the frames that have passed carry them all
      obtain ⟨hreach, hparts⟩ := hfollows.length_push_le hfill
      have hmore := reach_mono cfg o.payload.length hparts
      have hlast := lt_length_frames_iff hs hlong (k := o.next.count) (Nat.le_add_left ..)
      have htotal := hfollows.total
      simp only [Cargo.next] at hmore hlast ⊢
      omega
    · next hend =>
      rw [if_neg hend] at hpush
      obtain ⟨hpieces, hcompleted⟩ := hcase
      have hdrop := h.drop hwhole (hreceived.trans hcompleted)
      rw [hpieces]
      refine ⟨hdrop.sublist, hdrop.intact, fun z o' hz ho' _ => ?_⟩
      cases hz
      cases ho'
      exact ⟨hpush, hunbroken'⟩

/-- The frame that has passed, if it is for the receiver. -/
lemma Behind.pass (h : Behind cfg rxId p ph.pieces? past) (hpass : Passes cfg p f q)
    (hid : f.id = rxId) (hop : record.op = .frame f)
    (hown : ¬(f.remote ∨ f.id ≠ record.before.cfg.rxId)) :
    let y := Assembly.accept capacity own policy now (Pdu.decode f.data) ph
    received record.events = completed y → aborts record.events = [] →
      Behind cfg rxId q y.1.pieces? (past ++ [record]) := by
  cases hpass with
  | @opening id payload d hs hd =>
    have hfirst : (Pdu.decode d).Opens := Pdu.opens_decode_iff (f := ⟨id, d, false⟩).2
      ⟨decode_frame_ne_invalid hs hd, (kind_frame hs hd id false).2⟩
    exact h.opening hs hd ⟨_, hop, ⟨hown, hfirst⟩, hd⟩
  | @next o d hcurrent hs hcount hd =>
    have hnext := (kind_frame hs hd o.id false).2
    rw [decide_eq_false (Nat.pos_iff_ne_zero.1 hcount)] at hnext
    exact h.next hcurrent hid hs hcount hd
      fun hopens => Bool.false_ne_true (hnext.symm.trans (record.opens_of_op hop hopens))

end Receiving

/-! ### Runs -/

namespace Wire

variable {σ τ ε δ : Type}

/-- The calls of the first channel have come to a position. -/
def HasSent (cfg : Config) (a : Host σ) (q : Position) (past : List (Record σ ε)) : Prop :=
  a.channel.cfg = cfg ∧ ∃ x, a.channel.sender.Ready cfg x ∧ q.Tells past x

/-- The second channel has come to a position in the messages of the first. -/
def HasCome (cfg : Config) (b : Host τ) (p : Position) (past : List (Record τ δ)) : Prop :=
  ∃ ph, Refines b.channel.receiver ph ∧ Behind cfg b.channel.cfg.rxId p ph.pieces? past

/-- The frames on the wire lie between the two. -/
structure Between (cfg : Config) (w : Wire σ τ ε δ) (p q : Position) : Prop where
  sent : HasSent cfg w.a q w.recordsA
  flow : Flow cfg p (w.inFlight.filter Frame.carriesPart) q
  come : HasCome cfg w.b p w.recordsB

variable {w : Wire σ τ ε δ}

lemma Between.callA [Link σ ε] (h : Between cfg w p q) (now : Instant) (op : Op σ) :
    ∃ q', Between cfg (w.callA now op) p q' := by
  obtain ⟨rfl, x, hready, htells⟩ := h.sent
  obtain ⟨hcfg, y, hmove, hready'⟩ := w.a.step_moves hready now op
  have hconcludes := Host.step_concludes hready now op
  rw [hready.inFlight_eq, hready'.inFlight_eq] at hconcludes
  obtain ⟨q', hflow, htells'⟩ := htells.step hmove hconcludes
  refine ⟨q', ⟨hcfg, y, hready', htells'⟩, ?_, h.come⟩
  simp only [Wire.callA, List.filter_append]
  exact h.flow.append hflow

section Calls

variable [Link τ δ]

lemma HasCome.quiet {b : Host τ} {past : List (Record τ δ)} (h : HasCome cfg b p past)
    (now : Instant) (op : Op τ) (hop : op.isFrame = false) :
    HasCome cfg (b.step now op).1 p (past ++ [(b.step now op).2]) := by
  obtain ⟨ph, hr, hbehind⟩ := h
  obtain ⟨hcfg, hreceived, ph', hr', hpieces⟩ := b.step_quiet hr now op hop
  have hopens : ¬(b.step now op).2.Opens := by
    rintro ⟨f, hf, -⟩
    rw [Host.step_op] at hf
    rw [hf] at hop
    cases hop
  refine ⟨ph', hr', ?_⟩
  rw [hcfg]
  rcases hpieces with hnone | ⟨hsame, haborts⟩
  · rw [hnone]
    exact hbehind.drop (List.prefix_refl _) hreceived
  · rw [hsame]
    exact hbehind.keep hopens hreceived haborts

/-- A frame that is not for the second channel. -/
lemma HasCome.foreign {b : Host τ} {past : List (Record τ δ)} (h : HasCome cfg b p past)
    (now : Instant) {f : Frame} (hf : f.remote ∨ f.id ≠ b.channel.cfg.rxId)
    (hpass : if f.carriesPart then Passes cfg p f q else q = p) :
    HasCome cfg (b.step now (.frame f)).1 q (past ++ [(b.step now (.frame f)).2]) := by
  obtain ⟨ph, hr, hbehind⟩ := h
  have hstep : b.step now (.frame f) =
      (b, ⟨now, .frame f, b.channel, .verdict (.ok ()), [], [], b.channel⟩) := by
    simp only [Host.step, accept_foreign now (Tap.mk b.line []) hf]
  rw [hstep]
  have hopens : ¬Record.Opens (⟨now, .frame f, b.channel, .verdict (.ok ()), [], [], b.channel⟩ :
      Record τ δ) := by
    rintro ⟨f', hf', hown⟩
    cases hf'
    exact hown.1 hf
  refine ⟨ph, hr, Behind.keep ?_ hopens rfl rfl⟩
  split at hpass
  · exact hbehind.skip hpass (.inr (hf.resolve_left (by simp [hpass.remote_eq])))
  · rw [hpass]
    exact hbehind

/-- A frame for the second channel. -/
lemma HasCome.own {b : Host τ} {past : List (Record τ δ)} (h : HasCome cfg b p past)
    (now : Instant) {f : Frame} (hf : ¬(f.remote ∨ f.id ≠ b.channel.cfg.rxId))
    (hpass : if f.carriesPart then Passes cfg p f q else q = p) :
    HasCome cfg (b.step now (.frame f)).1 q (past ++ [(b.step now (.frame f)).2]) := by
  obtain ⟨ph, hr, hbehind⟩ := h
  obtain ⟨hcfg, hreceived, haborts, ph', hr', hpieces⟩ :=
    accept_own now (Tap.mk b.line []) hr hf
  have hcfg' : (b.step now (.frame f)).1.channel.cfg = b.channel.cfg := hcfg
  have hwhole : p.whole <+: q.whole := by
    split at hpass
    · exact hpass.whole_extends
    · exact hpass ▸ List.prefix_refl _
  refine ⟨ph', hr', ?_⟩
  rw [hcfg', hpieces]
  by_cases hfails : fails (Assembly.accept b.channel.receiver.capacity b.channel.cfg
      b.channel.policy now (Pdu.decode f.data) ph).2 = true
  · obtain ⟨hnone, hcompleted⟩ := accept_fails _ _ _ _ _ _ hfails
    rw [hnone]
    exact hbehind.drop hwhole (hreceived.trans hcompleted)
  · have hfine := haborts.2 (Bool.eq_false_iff.2 hfails)
    split at hpass
    · have hid := Decidable.not_not.1 (not_or.1 hf).2
      exact hbehind.pass hpass hid rfl hf hreceived hfine
    · next hpart =>
      rw [accept_of_not_carriesPart b.channel.receiver.capacity b.channel.cfg b.channel.policy now
        ph (Bool.eq_false_iff.2 hpart)] at hreceived ⊢
      rw [hpass]
      have hopens : ¬(b.step now (.frame f)).2.Opens := fun h =>
        hpart (Frame.carriesPart_of_opens (Record.opens_of_op rfl h))
      exact hbehind.keep hopens hreceived hfine

lemma HasCome.frame {b : Host τ} {past : List (Record τ δ)} (h : HasCome cfg b p past)
    (now : Instant) (f : Frame) (hpass : if f.carriesPart then Passes cfg p f q else q = p) :
    HasCome cfg (b.step now (.frame f)).1 q (past ++ [(b.step now (.frame f)).2]) := by
  by_cases hf : f.remote ∨ f.id ≠ b.channel.cfg.rxId
  · exact h.foreign now hf hpass
  · exact h.own now hf hpass

end Calls

variable [Link σ ε] [Link τ δ]

/-- One act leaves the frames on the wire between two positions. -/
theorem Between.step (h : Between cfg w p q) (act : Act σ τ) :
    ∃ p' q', Between cfg (w.step act) p' q' := by
  cases act with
  | atA now op => exact ⟨p, h.callA now op⟩
  | atB now op =>
    simp only [Wire.step]
    split
    · exact ⟨p, q, h⟩
    · next hop => exact ⟨p, q, h.sent, h.flow, h.come.quiet now op (by simpa using hop)⟩
  | arrive now =>
    simp only [Wire.step]
    split
    · exact ⟨p, q, h⟩
    · next f rest hwire =>
      have hflow := h.flow
      rw [hwire, List.filter_cons] at hflow
      split at hflow
      · next hpart =>
        cases hflow with
        | @cons _ p' _ _ _ hpass hrest =>
          exact ⟨p', q, h.sent, hrest, h.come.frame now f (by rw [if_pos hpart]; exact hpass)⟩
      · next hpart => exact ⟨p, q, h.sent, hflow, h.come.frame now f (by rw [if_neg hpart])⟩
  | lose =>
    simp only [Wire.step]
    split
    · exact ⟨p, q, h⟩
    · next f rest hwire =>
      split
      · exact ⟨p, q, h⟩
      · next hopens =>
        have hflow := h.flow
        rw [hwire, List.filter_cons] at hflow
        split at hflow
        · cases hflow with
          | @cons _ p' _ _ _ hpass hrest =>
            obtain ⟨ph, hr, hbehind⟩ := h.come
            refine ⟨p', q, h.sent, hrest, ph, hr, hbehind.skip hpass (.inl ?_)⟩
            exact Bool.eq_false_iff.2 hopens
        · exact ⟨p, q, h.sent, hflow, h.come⟩

theorem Between.run (h : Between cfg w p q) (acts : List (Act σ τ)) :
    ∃ p' q', Between cfg (w.run acts) p' q' := by
  induction acts generalizing w p q with
  | nil => exact ⟨p, q, h⟩
  | cons act acts ih =>
    obtain ⟨p', q', h'⟩ := h.step act
    exact ih h'

/-! ### Main statement -/

/-- **Only messages sent in full are received, whole, in their order and each at most once.**
Whatever the two channels' calls, the instants, the links and the frames that the first one is
given, and whichever frames are lost of those that open no message: the messages that the second
channel reports as received are a subsequence of those that the first one has sent, which are
messages it began to send whose one ending is that they were sent. Each was received without a
break: between its first frame and the report no other message was opened and no failure of a
reception was reported. -/
theorem received_of_run {cfgA cfgB : Config} {a b : Channel} (ha : Fresh cfgA a)
    (hb : Fresh cfgB b) (lineA : σ) (lineB : τ) (acts : List (Act σ τ)) :
    let w := run ⟨⟨a, lineA⟩, ⟨b, lineB⟩, [], [], []⟩ acts
    w.received.Sublist w.sent ∧ w.sent.Sublist w.begun ∧
      ∀ u y v payload, w.recordsB = u ++ y :: v → payload ∈ Channel.received y.events →
        Unbroken cfgA payload (u ++ [y]) := by
  intro w
  obtain ⟨hcfg, hready⟩ := ha.ready
  obtain ⟨-, tx, rx, -, -, hnew⟩ := hb.eq_new
  have hr : Refines b.receiver .idle := by
    rw [hnew]
    exact refines_new ..
  have hstart : Between cfgA (⟨⟨a, lineA⟩, ⟨b, lineB⟩, [], [], []⟩ : Wire σ τ ε δ) {} {} :=
    ⟨⟨hcfg, none, hready, rfl, nofun⟩, .nil _, .idle, hr, List.Sublist.refl _,
      fun u y v payload hsplit => by simp at hsplit, nofun⟩
  obtain ⟨p, q, hbetween⟩ := hstart.run acts
  obtain ⟨-, x, -, htells⟩ := hbetween.sent
  obtain ⟨ph, -, hbehind⟩ := hbetween.come
  refine ⟨?_, messagesSent_sublist _, hbehind.intact⟩
  have hwhole := hbehind.sublist.trans hbetween.flow.whole_extends.sublist
  rwa [htells.whole] at hwhole

/-- A first message is called off, a second is sent but times out at the receiver before its last
frame comes, and a third gets through. -/
theorem received_of_run_third_message :
    let cfgA : Config := { rxId := .standard 1 }
    let cfgB : Config := { txId := .standard 1 }
    let a : Channel := ⟨cfgA, cfgA.policy, .new (.zeroed 4095) 4095, .new (.zeroed 4095) 4095⟩
    let b : Channel := ⟨cfgB, cfgB.policy, .new (.zeroed 4095) 4095, .new (.zeroed 4095) 4095⟩
    let clear : Act Quota Quota := .atA 1 (.frame ⟨.standard 1, [0x30, 0, 0], false⟩)
    let acts : List (Act Quota Quota) :=
      [.atA 0 (.send (.replicate 10 5)), .arrive 1, clear, .atA 2 .cancel, .atA 2 .advance,
        .atA 3 (.send (.replicate 10 7)), .arrive 4, clear, .atA 5 .advance, .atB 2000000 .advance,
        .arrive 2000001, .atA 2000002 (.send (.replicate 8 9)), .arrive 2000003, clear,
        .atA 2000004 .advance, .arrive 2000005]
    let w : Wire Quota Quota _ _ := run ⟨⟨a, ⟨none⟩⟩, ⟨b, ⟨none⟩⟩, [], [], []⟩ acts
    Fresh cfgA a ∧ Fresh cfgB b ∧ w.received.Sublist w.sent ∧
      w.begun = [.replicate 10 5, .replicate 10 7, .replicate 8 9] ∧
      w.sent = [.replicate 10 7, .replicate 8 9] ∧ w.received = [.replicate 8 9] ∧
      w.recordsB.flatMap (aborts ·.events) = [.timeout .nCr] := by
  intro cfgA cfgB a b clear acts w
  have ha : Fresh cfgA a := .ofBuffers (.zeroed 4095) (.zeroed 4095) rfl
  have hb : Fresh cfgB b := .ofBuffers (.zeroed 4095) (.zeroed 4095) rfl
  have h : w.received.Sublist w.sent :=
    (received_of_run ha hb (⟨none⟩ : Quota) (⟨none⟩ : Quota) acts).1
  exact ⟨ha, hb, h, by decide +kernel, by decide +kernel, by decide +kernel, by decide +kernel⟩

end Wire

end IsoTp.Channel
