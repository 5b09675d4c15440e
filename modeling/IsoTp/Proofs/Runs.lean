import Mathlib.Tactic.Lemma

/-!
Runs of a machine, one call after the other.

Senders, receivers and channels are run in the same way: a step takes a call to the next state and a
record, a run takes the steps for a list of calls, and a trace keeps their records. A trace is cut
where its calls are cut, and what each step keeps is kept by the run. What a machine remembers of
its past is often what the latest record of some kind told, or what has come together since then.
-/

namespace IsoTp

variable {S C R : Type} {step : S → C → S × R} {run : S → List C → S} {trace : S → List C → List R}

/-- `run` is the state after the steps for a list of calls, and `trace` has their records. -/
structure Stepwise (step : S → C → S × R) (run : S → List C → S) (trace : S → List C → List R) :
    Prop where
  run_nil : ∀ s, run s [] = s
  run_cons : ∀ s c cs, run s (c :: cs) = run (step s c).1 cs
  trace_nil : ∀ s, trace s [] = []
  trace_cons : ∀ s c cs, trace s (c :: cs) = (step s c).2 :: trace (step s c).1 cs

namespace Stepwise

variable {s : S} {calls : List C} {u v : List R} {y : R}

/-- A trace is cut where its calls are cut. -/
lemma split_append (h : Stepwise step run trace) (hsplit : trace s calls = u ++ v) :
    ∃ earlier later, calls = earlier ++ later ∧ u = trace s earlier ∧
      v = trace (run s earlier) later := by
  induction u generalizing s calls with
  | nil =>
    refine ⟨[], calls, rfl, (h.trace_nil s).symm, ?_⟩
    rw [h.run_nil]
    exact hsplit.symm
  | cons y u ih =>
    cases calls with
    | nil =>
      rw [h.trace_nil] at hsplit
      cases hsplit
    | cons call calls =>
      rw [h.trace_cons, List.cons_append] at hsplit
      obtain ⟨rfl, hrest⟩ := List.cons.inj hsplit
      obtain ⟨earlier, later, rfl, rfl, rfl⟩ := ih hrest
      refine ⟨call :: earlier, later, rfl, (h.trace_cons s call earlier).symm, ?_⟩
      rw [h.run_cons]

/-- A trace has the records of the earlier calls, of one call, and of the later ones. -/
lemma trace_split (h : Stepwise step run trace) (s : S) (earlier : List C) (call : C)
    (later : List C) :
    trace s (earlier ++ call :: later) =
      trace s earlier ++ (step (run s earlier) call).2 ::
        trace (step (run s earlier) call).1 later := by
  induction earlier generalizing s with
  | nil => rw [List.nil_append, h.trace_nil, h.run_nil, h.trace_cons, List.nil_append]
  | cons first earlier ih =>
    rw [List.cons_append, h.trace_cons, ih, h.trace_cons, h.run_cons, List.cons_append]

/-- A record of a trace is that of one step, after the calls before it. -/
lemma split (h : Stepwise step run trace) (hsplit : trace s calls = u ++ y :: v) :
    ∃ earlier call later, calls = earlier ++ call :: later ∧ u = trace s earlier ∧
      y = (step (run s earlier) call).2 ∧ v = trace (step (run s earlier) call).1 later := by
  obtain ⟨earlier, rest, rfl, rfl, hrest⟩ := h.split_append hsplit
  cases rest with
  | nil =>
    rw [h.trace_nil] at hrest
    cases hrest
  | cons call later =>
    rw [h.trace_cons] at hrest
    obtain ⟨rfl, rfl⟩ := List.cons.inj hrest
    exact ⟨earlier, call, later, rfl, rfl, rfl, rfl⟩

/-- What holds of the records so far and the state, and is kept by the step for every call of the
list, holds after the list. -/
lemma keeps (h : Stepwise step run trace) (inv : List R → S → Prop) {past : List R}
    (hinv : inv past s)
    (hstep : ∀ c ∈ calls, ∀ past s, inv past s → inv (past ++ [(step s c).2]) (step s c).1) :
    inv (past ++ trace s calls) (run s calls) := by
  induction calls generalizing s past with
  | nil =>
    rw [h.trace_nil, h.run_nil, List.append_nil]
    exact hinv
  | cons call calls ih =>
    obtain ⟨hcall, hcalls⟩ := List.forall_mem_cons.1 hstep
    rw [h.trace_cons, h.run_cons, List.append_cons]
    exact ih (hcall past s hinv) hcalls

/-- What every step for which `ok` holds keeps, holds along a trace for all of whose records `ok`
holds. -/
lemma along (h : Stepwise step run trace) (inv : S → Prop) {ok good : R → Prop}
    (hstep : ∀ s c, inv s → ok (step s c).2 → inv (step s c).1 ∧ good (step s c).2) (hinv : inv s)
    (hok : ∀ y ∈ trace s calls, ok y) : ∀ y ∈ trace s calls, good y := by
  induction calls generalizing s with
  | nil =>
    rw [h.trace_nil]
    exact List.forall_mem_nil _
  | cons call calls ih =>
    rw [h.trace_cons] at hok ⊢
    obtain ⟨hhere, hlater⟩ := List.forall_mem_cons.1 hok
    obtain ⟨hnext, hgood⟩ := hstep s call hinv hhere
    exact List.forall_mem_cons.2 ⟨hgood, ih hnext hlater⟩

end Stepwise

/-! ### What is remembered of a trace -/

section History

variable {α : Type}

/-- What was told by the latest of the records that tell anything. -/
def latest (tells : R → Option α) (past : List R) : Option α := (past.filterMap tells).getLast?

lemma latest_concat (tells : R → Option α) (past : List R) (y : R) :
    latest tells (past ++ [y]) = (tells y).or (latest tells past) := by
  unfold latest
  rw [List.filterMap_append]
  cases htells : tells y <;> simp [htells]

lemma latest_append {tells : R → Option α} (past : List R) {v : List R}
    (hv : ∀ k ∈ v, tells k = none) : latest tells (past ++ v) = latest tells past := by
  unfold latest
  rw [List.filterMap_append, List.filterMap_eq_nil_iff.2 hv, List.append_nil]

/-- What the records add up to since the latest of those that start anew, `start` if it was the
last one. -/
def since (anew : R → Bool) (add : α → R → α) (start : α) (past : List R) : α :=
  past.foldl (fun x y => if anew y then start else add x y) start

lemma since_concat (anew : R → Bool) (add : α → R → α) (start : α) (past : List R) (y : R) :
    since anew add start (past ++ [y]) =
      if anew y then start else add (since anew add start past) y := by
  rw [since, List.foldl_append]
  rfl

end History

end IsoTp
