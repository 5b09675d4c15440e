import IsoTp.Proofs.Sender.History

/-!
The window of consecutive frames that a clear to send opens.

The history has the two numbers that count: the block size granted last, and how many consecutive
frames the link has taken since. A sender in the middle of a block has the grant as its block size
and the difference as what is left of the block, through refusals, flow control that comes
unasked-for, and changes of the parameters. So it stops at the last frame of the block, and nowhere
else.
-/

namespace IsoTp.Sender

variable {σ ε : Type}

/-! ### What counts of the past -/

section History

variable (past v : List (Record σ ε)) (y : Record σ ε)

/-- The block size granted last. -/
def lastGrant : Option Nat := latest Record.grant? past

/-- How many consecutive frames the link took in these calls. -/
def sentIn : Nat := past.foldr (fun y n => y.sent + n) 0

/-- How many consecutive frames the link took since the last grant. -/
def sentSince : Nat := since (·.grant?.isSome) (fun n y => n + y.sent) 0 past

lemma lastGrant_concat : lastGrant (past ++ [y]) = y.grant?.or (lastGrant past) :=
  latest_concat ..

lemma sentSince_concat : sentSince (past ++ [y]) =
    if y.grant?.isSome then 0 else sentSince past + y.sent :=
  since_concat ..

variable {v}

/-- Calls without a grant add what they send. -/
lemma sentSince_append (hv : ∀ k ∈ v, k.grant? = none) :
    sentSince (past ++ v) = sentSince past + sentIn v := by
  induction v generalizing past with
  | nil => simp [sentIn]
  | cons k v ih =>
    obtain ⟨hk, hv⟩ := List.forall_mem_cons.1 hv
    rw [List.append_cons, ih (past ++ [k]) hv, sentSince_concat, hk]
    simp only [Option.isSome_none, Bool.false_eq_true, if_false, sentIn, List.foldr_cons]
    omega

lemma window_of_grant {y : Record σ ε} {b : Nat} (hy : y.grant? = some b)
    (hv : ∀ k ∈ v, k.grant? = none) :
    lastGrant (past ++ y :: v) = some b ∧ sentSince (past ++ y :: v) = sentIn v := by
  have hlast : lastGrant (past ++ [y] ++ v) = lastGrant (past ++ [y]) := latest_append _ hv
  rw [List.append_cons, hlast, sentSince_append _ hv, lastGrant_concat, sentSince_concat, hy]
  exact ⟨rfl, Nat.zero_add _⟩

end History

/-! ### The sender keeps count -/

/-- The sender has no more than the grant on the link, and in the middle of a block it knows the
grant and what is left of it. -/
structure Windowed (past : List (Record σ ε)) (s : Sender) : Prop where
  le : ∀ b, lastGrant past = some b → 0 < b → sentSince past ≤ b
  sending : ∀ t, s.phase = .sending t → lastGrant past = some t.blockSize ∧
    (0 < t.blockSize → 0 < t.blockLeft ∧ t.blockLeft + sentSince past = t.blockSize)

variable {past : List (Record σ ε)} {y : Record σ ε} {s s' : Sender}

/-- A call without a grant and without a consecutive frame leaves the window as it is. -/
lemma Windowed.keep (hw : Windowed past s) (hgrant : y.grant? = none) (hsent : y.sent = 0)
    (hstays : StaysIn s s') : Windowed (past ++ [y]) s' := by
  have hlast : lastGrant (past ++ [y]) = lastGrant past := by
    rw [lastGrant_concat, hgrant, Option.none_or]
  have hsince : sentSince (past ++ [y]) = sentSince past := by
    rw [sentSince_concat, hgrant, hsent]
    rfl
  refine ⟨?_, fun t ht => ?_⟩
  · rw [hlast, hsince]
    exact hw.le
  · obtain ⟨r, hr⟩ := hstays t ht
    have hcount := hw.sending _ hr
    rw [hlast, hsince]
    exact hcount

/-- A clear to send opens a window in which nothing has been sent yet. -/
lemma windowed_of_grant {t : Transfer} {b : Nat} (hgrant : y.grant? = some b)
    (hphase : s.phase = .sending t) (hsize : t.blockSize = b) (hleft : t.blockLeft = b) :
    Windowed (past ++ [y]) s := by
  have hlast : lastGrant (past ++ [y]) = some b := by
    rw [lastGrant_concat, hgrant, Option.some_or]
  have hsince : sentSince (past ++ [y]) = 0 := by
    rw [sentSince_concat, hgrant]
    rfl
  refine ⟨fun b _ _ => by omega, fun t' ht' => ?_⟩
  rw [hphase] at ht'
  cases ht'
  rw [hlast, hsince, hsize, hleft]
  exact ⟨rfl, fun hpos => ⟨hpos, rfl⟩⟩

/-- A consecutive frame takes one from what is left of the block. -/
lemma Windowed.places (hw : Windowed past s) (hgrant : y.grant? = none) (hsent : y.sent = 1)
    {cfg : Config} {now : Instant} {t : Transfer} {count : Nat} {event : Option Event}
    (hphase : s.phase = .sending t) (h : Places cfg now t count s s' event) :
    Windowed (past ++ [y]) s' := by
  obtain ⟨hlast, hleft⟩ := hw.sending t hphase
  have hlast' : lastGrant (past ++ [y]) = some t.blockSize := by
    rw [lastGrant_concat, hgrant, Option.none_or, hlast]
  have hsince : sentSince (past ++ [y]) = sentSince past + 1 := by
    rw [sentSince_concat, hgrant, hsent]
    rfl
  refine ⟨fun b hb hpos => ?_, fun t' ht' => ?_⟩
  · rw [hlast'] at hb
    cases hb
    have := hleft hpos
    omega
  · cases h with
    | last | blockEnd => cases ht'
    | next hmore hcases =>
      cases ht'
      refine ⟨hlast', fun hpos => ?_⟩
      have hpos : 0 < t.blockSize := hpos
      have := hleft hpos
      simp only [Transfer.placed]
      omega

section Calls

variable [Link σ ε] {h : Host σ}

/-- Every call keeps the window. -/
theorem Host.step_windowed (hs : h.sender.Sound) (hw : Windowed past h.sender) (now : Instant)
    (op : Op σ) :
    let y := h.step now op
    Windowed (past ++ [y.2]) y.1.sender := by
  intro y
  obtain ⟨hsent, hstays, -⟩ | ⟨t, count, event, rfl, hphase, hsent, -, hplaces, -⟩ :=
    step_sent hs now op
  · cases hgrant : y.2.grant? with
    | none => exact hw.keep hgrant hsent (hstays hgrant)
    | some b =>
      obtain ⟨-, t, hphase, hsize, hleft, -⟩ := step_grant now op hgrant
      exact windowed_of_grant hgrant hphase hsize hleft
  · exact hw.places rfl hsent hphase hplaces

/-- A call without a first frame makes the sender wait exactly if the link takes the last
consecutive frame of the block, and there is more of the message. -/
theorem Host.step_waits_iff (hs : h.sender.Sound) (hw : Windowed past h.sender) {b : Nat}
    (hb : lastGrant past = some b) (now : Instant) (op : Op σ) :
    let y := h.step now op
    y.2.opens = false →
      (h.sender.isWaiting = false ∧ y.1.sender.isWaiting = true ↔
        0 < b ∧ sentSince past + 1 = b ∧ y.2.sent = 1 ∧ ∀ t, ¬y.2.Completes t) := by
  dsimp only
  intro hopens
  obtain ⟨hsent, -, hwaits⟩ | ⟨t, count, event, -, hphase, hsent, -, hplaces, hcompletes⟩ :=
    step_sent hs now op
  · constructor
    · rintro ⟨hbefore, hafter⟩
      obtain hwaits | hwaits := hwaits hafter
      · rw [hbefore] at hwaits
        cases hwaits
      · rw [hopens] at hwaits
        cases hwaits
    · rintro ⟨-, -, hone, -⟩
      omega
  · obtain ⟨hlast, hleft⟩ := hw.sending t hphase
    rw [hb] at hlast
    cases hlast
    have hbefore : h.sender.isWaiting = false := by simp [isWaiting, hphase]
    generalize (h.step now op).1.sender = s' at hplaces ⊢
    cases hplaces with
    | last hend =>
      constructor
      · rintro ⟨-, ⟨⟩⟩
      · rintro ⟨-, -, -, hnone⟩
        exact absurd ((hcompletes t).2 ⟨rfl, hend⟩) (hnone t)
    | next hmore hcases =>
      constructor
      · rintro ⟨-, ⟨⟩⟩
      · rintro ⟨hpos, hcount, -⟩
        have := hleft hpos
        omega
    | blockEnd hmore hfull =>
      -- one frame was left of the block, and this is it
      have := hleft hfull.1
      refine ⟨fun _ => ⟨hfull.1, by omega, hsent, fun t' ht' => ?_⟩, fun _ => ⟨hbefore, rfl⟩⟩
      have := ((hcompletes t').1 ht').2
      omega

/-! ### A grant without an end -/

/-- The sender does not wait, and will not at the end of any block. -/
structure Unbounded (s : Sender) : Prop where
  isWaiting : s.isWaiting = false
  sending : ∀ t, s.phase = .sending t → t.blockSize = 0

/-- Without another grant or another message, the sender does not wait again. -/
lemma Host.step_unbounded (hs : h.sender.Sound) (hfree : Unbounded h.sender) (now : Instant)
    (op : Op σ) :
    let y := h.step now op
    y.2.grant? = none → y.2.opens = false → Unbounded y.1.sender := by
  dsimp only
  intro hgrant hopens
  obtain ⟨-, hstays, hwaits⟩ | ⟨t, count, event, -, hphase, -, -, hplaces, -⟩ :=
    step_sent hs now op
  · refine ⟨Bool.eq_false_iff.2 fun hafter => ?_, fun t ht => ?_⟩
    · obtain hbefore | hbefore := hwaits hafter
      · rw [hfree.isWaiting] at hbefore
        cases hbefore
      · rw [hopens] at hbefore
        cases hbefore
    · obtain ⟨r, hr⟩ := hstays hgrant t ht
      have hzero := hfree.sending _ hr
      exact hzero
  · have hzero := hfree.sending t hphase
    generalize (h.step now op).1.sender = s' at hplaces ⊢
    cases hplaces with
    | last => exact ⟨rfl, by rintro t ⟨⟩⟩
    | next =>
      refine ⟨rfl, ?_⟩
      rintro t ⟨⟩
      exact hzero
    | blockEnd hmore hfull => omega

lemma unbounded_of_grant {t : Transfer} (hphase : s.phase = .sending t) (hsize : t.blockSize = 0) :
    Unbounded s := by
  refine ⟨by simp [isWaiting, hphase], fun t' ht' => ?_⟩
  rw [hphase] at ht'
  cases ht'
  exact hsize

end Calls

/-! ### Runs -/

section Runs

variable [Link σ ε] (buffer : Buffer) (capacity : Nat) (cfg : Config) (line : σ)
  (calls : List (Instant × Op σ))

/-- A run from a new sender leaves a sound one that keeps count. -/
lemma Host.run_windowed :
    let h : Host σ := ⟨.new buffer capacity, cfg, line⟩
    (h.run calls).sender.Sound ∧ Windowed (h.trace calls) (h.run calls).sender := by
  intro h
  have hnew : h.sender.Sound ∧ Windowed ([] : List (Record σ ε)) h.sender :=
    ⟨sound_new .., by rintro _ ⟨⟩, by rintro _ ⟨⟩⟩
  exact Host.stepwise.keeps (fun past h => h.sender.Sound ∧ Windowed past h.sender) hnew
    fun call _ past h hinv =>
      ⟨Host.step_sound hinv.1 call.1 call.2, Host.step_windowed hinv.1 hinv.2 call.1 call.2⟩

/-- Each record of a run is that of a call to a sound sender that keeps count of the records before
it. -/
lemma Host.windowed_of_split {u w : List (Record σ ε)} {z : Record σ ε}
    (hsplit : Host.trace ⟨.new buffer capacity, cfg, line⟩ calls = u ++ z :: w) :
    ∃ (h : Host σ) (now : Instant) (op : Op σ), z = (h.step now op).2 ∧ h.sender.Sound ∧
      Windowed u h.sender := by
  obtain ⟨earlier, call, later, -, rfl, rfl, -⟩ := Host.stepwise.split hsplit
  obtain ⟨hs, hw⟩ := Host.run_windowed (ε := ε) buffer capacity cfg line earlier
  exact ⟨_, call.1, call.2, rfl, hs, hw⟩

lemma Host.sound_of_mem {y : Record σ ε}
    (hmem : y ∈ Host.trace ⟨.new buffer capacity, cfg, line⟩ calls) :
    ∃ (h : Host σ) (now : Instant) (op : Op σ), y = (h.step now op).2 ∧ h.sender.Sound := by
  obtain ⟨u, w, hsplit⟩ := List.append_of_mem hmem
  obtain ⟨h, now, op, hy, hs, -⟩ := Host.windowed_of_split buffer capacity cfg line calls hsplit
  exact ⟨h, now, op, hy, hs⟩

/-- The window of a sender in a run with these records. -/
structure Windows (records : List (Record σ ε)) : Prop where
  /-- No more consecutive frames than granted go out before the next grant. -/
  sentIn_le : ∀ u y v w b, records = u ++ y :: v ++ w → y.grant? = some b →
    (∀ k ∈ v, k.grant? = none) → 0 < b → sentIn v ≤ b
  /-- As long as no other message is begun, the sender comes to wait exactly by the last frame of
  the block, unless that completes the message. -/
  waits_iff : ∀ u y v z w b, records = u ++ y :: v ++ z :: w → y.grant? = some b →
    (∀ k ∈ v, k.grant? = none) → z.opens = false →
      (z.before.isWaiting = false ∧ z.after.isWaiting = true ↔
        0 < b ∧ sentIn v + 1 = b ∧ z.sent = 1 ∧ ∀ t, ¬z.Completes t)
  /-- After a grant without an end it does not wait. -/
  unending : ∀ u y v w, records = u ++ y :: v ++ w → y.grant? = some 0 →
    (∀ k ∈ v, k.grant? = none ∧ k.opens = false) → ∀ k ∈ v, k.after.isWaiting = false
  /-- In the middle of a block the sender knows what has been granted and what is left of it. -/
  left : ∀ u y v z w b, records = u ++ y :: v ++ z :: w → y.grant? = some b →
    (∀ k ∈ v, k.grant? = none) → ∀ t, z.before.phase = .sending t →
      t.blockSize = b ∧ (0 < b → t.blockLeft + sentIn v = b)
  /-- A message that is completed leaves the sender done. -/
  completes : ∀ y ∈ records, ∀ t, y.Completes t →
    y.sent = 1 ∧ y.after.phase = .done t.length ∧ y.reply = .event (some (.complete t.length))
  /-- Flow control that is not waited for changes nothing. -/
  unasked : ∀ y ∈ records, ∀ fc, y.op = .flowControl fc → y.before.isWaiting = false →
    y.after = y.before ∧ y.reply = .event none
  /-- A consecutive frame that is refused changes no more than the note of since when. -/
  refused : ∀ y ∈ records, y.stalls = true →
    y.sent = 0 ∧ y.reply = .event none ∧
      ∃ t, y.before.phase = .sending t ∧
        y.after = { y.before with
          phase := .sending { t with refusedSince := some (t.refusedSince.getD y.now) } }

/-- After a grant without an end, calls without another one and without another message leave a
sender that does not wait. -/
lemma Host.unending_of_split {u v w : List (Record σ ε)} {y : Record σ ε}
    (hsplit : Host.trace ⟨.new buffer capacity, cfg, line⟩ calls = u ++ y :: v ++ w)
    (hy : y.grant? = some 0) (hv : ∀ k ∈ v, k.grant? = none ∧ k.opens = false) :
    ∀ k ∈ v, k.after.isWaiting = false := by
  rw [List.append_assoc, List.cons_append] at hsplit
  obtain ⟨earlier, call, later, -, -, rfl, hrest⟩ := Host.stepwise.split hsplit
  obtain ⟨during, -, -, rfl, -⟩ := Host.stepwise.split_append hrest.symm
  obtain ⟨-, t, hphase, hsize, -⟩ := Host.step_grant call.1 call.2 hy
  have hs := (Host.run_windowed (ε := ε) buffer capacity cfg line earlier).1
  refine Host.stepwise.along (fun h => h.sender.Sound ∧ Unbounded h.sender)
    (fun h call hinv hok => ?_)
    ⟨Host.step_sound hs call.1 call.2, unbounded_of_grant hphase hsize⟩ hv
  have hnext := Host.step_unbounded hinv.1 hinv.2 call.1 call.2 hok.1 hok.2
  rw [Host.step_after]
  exact ⟨⟨Host.step_sound hinv.1 call.1 call.2, hnext⟩, hnext.isWaiting⟩

/-- The sender keeps its window in every run, whatever its parameters are and whatever the link and
the peer do. -/
theorem window_of_run :
    Windows (Host.trace ⟨.new buffer capacity, cfg, line⟩ calls : List (Record σ ε)) where
  sentIn_le u y v w b hsplit hy hv hpos := by
    obtain ⟨earlier, later, -, hpast, -⟩ := Host.stepwise.split_append hsplit
    have hw := (Host.run_windowed (ε := ε) buffer capacity cfg line earlier).2
    rw [← hpast] at hw
    obtain ⟨hlast, hsince⟩ := window_of_grant u hy hv
    rw [← hsince]
    exact hw.le b hlast hpos
  waits_iff u y v z w b hsplit hy hv hz := by
    obtain ⟨h, now, op, rfl, hs, hw⟩ := Host.windowed_of_split buffer capacity cfg line calls hsplit
    obtain ⟨hlast, hsince⟩ := window_of_grant u hy hv
    rw [Host.step_before, Host.step_after, ← hsince]
    exact Host.step_waits_iff hs hw hlast now op hz
  unending u y v w := Host.unending_of_split buffer capacity cfg line calls
  left u y v z w b hsplit hy hv t ht := by
    obtain ⟨h, now, op, rfl, hs, hw⟩ := Host.windowed_of_split buffer capacity cfg line calls hsplit
    obtain ⟨hlast, hsince⟩ := window_of_grant u hy hv
    rw [Host.step_before] at ht
    obtain ⟨hsize, hleft⟩ := hw.sending t ht
    rw [hlast] at hsize
    cases hsize
    rw [← hsince]
    exact ⟨rfl, fun hpos => (hleft hpos).2⟩
  completes y hmem t hdone := by
    obtain ⟨h, now, op, rfl, hs⟩ := Host.sound_of_mem buffer capacity cfg line calls hmem
    rw [Host.step_after]
    exact Host.step_completes hs now op hdone
  unasked y hmem fc hop hwaits := by
    obtain ⟨h, now, op, rfl, hs⟩ := Host.sound_of_mem buffer capacity cfg line calls hmem
    rw [Host.step_op] at hop
    rw [Host.step_before] at hwaits
    rw [Host.step_before, Host.step_after]
    subst hop
    obtain ⟨event, hreply, hheeds⟩ := Host.step_flowControl (h := h) now fc
    obtain ⟨hsame, rfl⟩ := hheeds.unasked hwaits
    exact ⟨hsame, hreply⟩
  refused y hmem hstalls := by
    obtain ⟨h, now, op, rfl, hs⟩ := Host.sound_of_mem buffer capacity cfg line calls hmem
    rw [Host.step_before, Host.step_after, Host.step_now]
    exact Host.step_stalls hs now op hstalls

end Runs

/-- Twenty-seven bytes in a block of two frames and one of one. The second frame is refused at
first, and flow control that comes then is too early. -/
theorem window_of_run_refused_between :
    let clear (n : UInt8) : Op Quota := .flowControl ⟨.clearToSend, n, .zero⟩
    let first : List (Instant × Op Quota) := [(0, .begin (.standard 1) (.replicate 27 7))]
    let between : List (Instant × Op Quota) :=
      [(2, .advance), (3, .setLine ⟨some 0⟩), (4, .advance), (5, clear 9), (6, .setLine ⟨none⟩)]
    let last : List (Instant × Op Quota) := [(8, clear 1), (9, .advance)]
    let calls := first ++ (1, clear 2) :: (between ++ (7, .advance) :: last)
    let records := Host.trace ⟨.new (.zeroed 40) 40, {}, (⟨none⟩ : Quota)⟩ calls
    ∃ u y v z w, records = u ++ y :: v ++ z :: w ∧ y.grant? = some 2 ∧
      v.map Record.stalls = [false, false, true, false, false] ∧ sentIn v ≤ 2 ∧
      (z.before.isWaiting = false ∧ z.after.isWaiting = true) ∧
      (sentIn v + 1 = 2 ∧ z.sent = 1 ∧ ∀ t, ¬z.Completes t) ∧
      w.map Record.sent = [0, 1] := by
  intro clear first between last calls records
  let h : Host Quota := ⟨.new (.zeroed 40) 40, {}, ⟨none⟩⟩
  let granted := (h.run first).step 1 (clear 2)
  let ended := (granted.1.run between).step 7 .advance
  let v := granted.1.trace between
  let w := ended.1.trace last
  have hsplit : records = h.trace first ++ granted.2 :: v ++ ended.2 :: w := by
    rw [List.append_assoc, List.cons_append]
    exact (Host.stepwise.trace_split h first (1, clear 2) _).trans
      (congrArg (_ ++ granted.2 :: ·)
        (Host.stepwise.trace_split granted.1 between (7, .advance) last))
  have hy : granted.2.grant? = some 2 := by decide +kernel
  have hv : ∀ k ∈ v, k.grant? = none := by decide +kernel
  have hz : ended.2.opens = false := by decide +kernel
  have hwaits : ended.2.before.isWaiting = false ∧ ended.2.after.isWaiting = true := by
    decide +kernel
  have hwindow : Windows records := window_of_run (.zeroed 40) 40 {} (⟨none⟩ : Quota) calls
  have hle := hwindow.sentIn_le _ _ v _ 2 hsplit hy hv (by decide)
  have hlast := (hwindow.waits_iff _ _ v _ w 2 hsplit hy hv hz).1 hwaits
  exact ⟨_, granted.2, v, ended.2, w, hsplit, hy, by decide +kernel, hle, hwaits, hlast.2,
    by decide +kernel⟩

end IsoTp.Sender
