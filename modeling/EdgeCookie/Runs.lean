-- Runs of a system that takes one step for each event. An invariant that each
-- step keeps holds after each run; and a system that follows another one step
-- by step follows it over whole runs.
import Mathlib.Tactic.Common

namespace runs

variable {σ ε τ δ : Type}

/-- The state after the events, in order. -/
def run (step : σ → ε → σ) (s : σ) (es : List ε) : σ := es.foldl step s

@[simp] theorem run_nil (step : σ → ε → σ) (s : σ) : run step s [] = s := rfl

@[simp] theorem run_cons (step : σ → ε → σ) (s : σ) (e : ε) (es : List ε) :
    run step s (e :: es) = run step (step s e) es := rfl

theorem run_append (step : σ → ε → σ) (s : σ) (es fs : List ε) :
    run step s (es ++ fs) = run step (run step s es) fs := List.foldl_append

/-- What each step keeps, for the events that occur, a run keeps. -/
theorem run_invariant_of (Inv : σ → Prop) {step : σ → ε → σ} {P : ε → Prop} {es : List ε}
    (hP : ∀ e ∈ es, P e) (hstep : ∀ s e, P e → Inv s → Inv (step s e)) {s : σ} (h : Inv s) :
    Inv (run step s es) := by
  induction es generalizing s with
  | nil => exact h
  | cons e es ih =>
    exact ih (fun e' he' => hP e' (List.mem_cons_of_mem e he'))
      (hstep s e (hP e List.mem_cons_self) h)

theorem run_invariant (Inv : σ → Prop) {step : σ → ε → σ} (es : List ε)
    (hstep : ∀ s e, Inv s → Inv (step s e)) {s : σ} (h : Inv s) : Inv (run step s es) :=
  run_invariant_of Inv (P := fun _ => True) (fun _ _ => trivial) (fun s e _ => hstep s e) h

/-- `Good` holds at each step of the run. -/
def Along (step : σ → ε → σ) (Good : σ → ε → Prop) : σ → List ε → Prop
  | _, [] => True
  | s, e :: es => Good s e ∧ Along step Good (step s e) es

theorem along_append {step : σ → ε → σ} {Good : σ → ε → Prop} {s : σ} {es fs : List ε} :
    Along step Good s (es ++ fs) ↔ Along step Good s es ∧ Along step Good (run step s es) fs := by
  induction es generalizing s with
  | nil => exact ⟨fun h => ⟨trivial, h⟩, fun h => h.2⟩
  | cons e es ih =>
    rw [List.cons_append, run_cons]
    exact (and_congr_right fun _ => ih).trans and_assoc.symm

theorem along_mono {step : σ → ε → σ} {Good Fair : σ → ε → Prop} (h : ∀ s e, Good s e → Fair s e)
    {s : σ} {es : List ε} (hes : Along step Good s es) : Along step Fair s es := by
  induction es generalizing s with
  | nil => exact hes
  | cons e es ih => exact ⟨h s e hes.1, ih hes.2⟩

theorem run_invariant_along (Inv : σ → Prop) {step : σ → ε → σ} {Good : σ → ε → Prop} {es : List ε}
    (hstep : ∀ s e, Good s e → Inv s → Inv (step s e)) {s : σ} (hes : Along step Good s es)
    (h : Inv s) : Inv (run step s es) := by
  induction es generalizing s with
  | nil => exact h
  | cons e es ih => exact ih hes.2 (hstep s e hes.1 h)

/-- The state after the events of a system that may stop: `none` when it does. -/
def runM (step : σ → ε → Option σ) : σ → List ε → Option σ
  | s, [] => some s
  | s, e :: es => (step s e).bind (runM step · es)

theorem runM_invariant (Inv : σ → Prop) {step : σ → ε → Option σ}
    (hstep : ∀ s e t, step s e = some t → Inv s → Inv t) {s t : σ} {es : List ε}
    (hrun : runM step s es = some t) (h : Inv s) : Inv t := by
  induction es generalizing s with
  | nil =>
    cases hrun
    exact h
  | cons e es ih =>
    obtain ⟨s', hs', hrest⟩ := Option.bind_eq_some_iff.mp hrun
    exact ih hrest (hstep s e s' hs' h)

/-- Two systems that take the same events stay related. -/
theorem run_related (R : σ → τ → Prop) {step : σ → ε → σ} {step' : τ → ε → τ}
    (hstep : ∀ s t e, R s t → R (step s e) (step' t e)) (es : List ε) {s : σ} {t : τ} (h : R s t) :
    R (run step s es) (run step' t es) := by
  induction es generalizing s t with
  | nil => exact h
  | cons e es ih => exact ih (hstep s t e h)

theorem run_related_of (R : σ → τ → Prop) {step : σ → ε → σ} {step' : τ → ε → τ} {P : ε → Prop}
    {es : List ε} (hP : ∀ e ∈ es, P e) (hstep : ∀ s t e, P e → R s t → R (step s e) (step' t e))
    {s : σ} {t : τ} (h : R s t) : R (run step s es) (run step' t es) := by
  induction es generalizing s t with
  | nil => exact h
  | cons e es ih =>
    exact ih (fun e' he' => hP e' (List.mem_cons_of_mem e he'))
      (hstep s t e (hP e List.mem_cons_self) h)

/-- A system that takes each step of another one, with more in its events than
the other one shows, takes its runs. -/
theorem run_simulated (R : σ → τ → Prop) (erase : δ → ε) {step : σ → ε → σ} {astep : τ → δ → τ}
    (hstep : ∀ s t e, R s t → ∃ d, erase d = e ∧ R (step s e) (astep t d)) (es : List ε) {s : σ}
    {t : τ} (h : R s t) : ∃ ds, ds.map erase = es ∧ R (run step s es) (run astep t ds) := by
  induction es generalizing s t with
  | nil => exact ⟨[], rfl, h⟩
  | cons e es ih =>
    obtain ⟨d, rfl, hd⟩ := hstep s t e h
    obtain ⟨ds, rfl, hds⟩ := ih hd
    exact ⟨d :: ds, rfl, hds⟩

/-! ## What another system sees of a run -/

/-- The events as `see` shows them, each in the state where it occurs. -/
def trace (step : σ → ε → σ) (see : σ → ε → δ) : σ → List ε → List δ
  | _, [] => []
  | s, e :: es => see s e :: trace step see (step s e) es

/-- A system that follows each step follows the run. -/
theorem run_follows_of {step : σ → ε → σ} {astep : τ → δ → τ} {see : σ → ε → δ} (abs : σ → τ)
    {P : ε → Prop} {es : List ε} (hP : ∀ e ∈ es, P e)
    (h : ∀ s e, P e → abs (step s e) = astep (abs s) (see s e)) (s : σ) :
    abs (run step s es) = run astep (abs s) (trace step see s es) := by
  induction es generalizing s with
  | nil => rfl
  | cons e es ih =>
    rw [run_cons, ih (fun e' he' => hP e' (List.mem_cons_of_mem e he')),
      h s e (hP e List.mem_cons_self), trace, run_cons]

theorem run_follows {step : σ → ε → σ} {astep : τ → δ → τ} {see : σ → ε → δ} (abs : σ → τ)
    (h : ∀ s e, abs (step s e) = astep (abs s) (see s e)) (s : σ) (es : List ε) :
    abs (run step s es) = run astep (abs s) (trace step see s es) :=
  run_follows_of abs (P := fun _ => True) (fun _ _ => trivial) (fun s e _ => h s e) s

theorem trace_append (step : σ → ε → σ) (see : σ → ε → δ) (s : σ) (es fs : List ε) :
    trace step see s (es ++ fs) = trace step see s es ++ trace step see (run step s es) fs := by
  induction es generalizing s with
  | nil => rfl
  | cons e es ih => rw [List.cons_append, trace, ih, trace, run_cons, List.cons_append]

/-- What each step keeps of the last value that was written, a run keeps. -/
theorem run_written {β : Type} (R : Option β → σ → Prop) (write : ε → Option β) {step : σ → ε → σ}
    {es : List ε} {s : σ} {o : Option β} (hstep : ∀ s e o, R o s → R ((write e).or o) (step s e))
    (h : R o s) :
    R ((es.filterMap write).getLast?.or o) (run step s es) := by
  induction es generalizing s o with
  | nil => exact h
  | cons e es ih =>
    have hrest := ih (hstep s e o h)
    rw [run_cons, List.filterMap_cons]
    cases hw : write e with
    | none =>
      rw [hw] at hrest
      exact hrest
    | some v =>
      rw [hw] at hrest
      dsimp only
      rw [List.getLast?_cons]
      cases hlast : (es.filterMap write).getLast? with
      | none =>
        rw [hlast] at hrest
        exact hrest
      | some u =>
        rw [hlast] at hrest
        exact hrest

/-- A value that each step writes or keeps is the one that was written last. -/
theorem run_last {β : Type} (get : σ → β) (write : δ → Option β) (Inv : σ → Prop) {step : σ → ε → σ}
    {see : σ → ε → δ} {P : ε → Prop} {es : List ε} (hP : ∀ e ∈ es, P e)
    (hinv : ∀ s e, P e → Inv s → Inv (step s e))
    (hwrite : ∀ s e, P e → Inv s → get (step s e) = (write (see s e)).getD (get s)) {s : σ}
    (h : Inv s) :
    get (run step s es) = ((trace step see s es).filterMap write).getLast?.getD (get s) := by
  induction es generalizing s with
  | nil => rfl
  | cons e es ih =>
    have he := hP e List.mem_cons_self
    rw [run_cons, ih (fun e' he' => hP e' (List.mem_cons_of_mem e he')) (hinv s e he h),
      hwrite s e he h, trace, List.filterMap_cons]
    cases write (see s e) with
    | none => rfl
    | some v =>
      dsimp only [Option.getD_some]
      rw [List.getLast?_cons]
      rfl

/-! ## Runs without some of their events -/

/-- What is seen of the events that are not skipped, in the run of all events. -/
def seen (step : σ → ε → σ) (see : σ → ε → δ) (skip : ε → Bool) : σ → List ε → List δ
  | _, [] => []
  | s, e :: es =>
    if skip e then seen step see skip (step s e) es else see s e :: seen step see skip (step s e) es

section

variable {step : σ → ε → σ} {step' : τ → ε → τ} {skip : ε → Bool} {Good : σ → ε → Prop}
  (R : σ → τ → Prop)

/-- A skipped event does not tell the two systems apart, so one of them can do
without it. -/
theorem run_without (hskip : ∀ s t e, Good s e → skip e = true → R s t → R (step s e) t)
    (hstep : ∀ s t e, Good s e → skip e = false → R s t → R (step s e) (step' t e)) {s : σ} {t : τ}
    {es : List ε} (hes : Along step Good s es) (h : R s t) :
    R (run step s es) (run step' t (es.filter (!skip ·))) := by
  induction es generalizing s t with
  | nil => exact h
  | cons e es ih =>
    cases hk : skip e with
    | true =>
      rw [List.filter_cons_of_neg (by simp [hk])]
      exact ih hes.2 (hskip s t e hes.1 hk h)
    | false =>
      rw [List.filter_cons_of_pos (by simp [hk])]
      exact ih hes.2 (hstep s t e hes.1 hk h)

/-- Then both show the same of the other events. -/
theorem seen_without {see : σ → ε → δ} {see' : τ → ε → δ}
    (hskip : ∀ s t e, Good s e → skip e = true → R s t → R (step s e) t)
    (hstep : ∀ s t e, Good s e → skip e = false → R s t → R (step s e) (step' t e))
    (hsee : ∀ s t e, Good s e → skip e = false → R s t → see s e = see' t e) {s : σ} {t : τ}
    {es : List ε} (hes : Along step Good s es) (h : R s t) :
    seen step see skip s es = trace step' see' t (es.filter (!skip ·)) := by
  induction es generalizing s t with
  | nil => rfl
  | cons e es ih =>
    unfold seen
    cases hk : skip e with
    | true =>
      rw [List.filter_cons_of_neg (by simp [hk]), if_pos rfl]
      exact ih hes.2 (hskip s t e hes.1 hk h)
    | false =>
      rw [List.filter_cons_of_pos (by simp [hk]), if_neg Bool.false_ne_true, trace,
        hsee s t e hes.1 hk h, ih hes.2 (hstep s t e hes.1 hk h)]

end

/-! ## Events that occur at most once -/

section

variable {step : σ → ε → σ} {see : σ → ε → Bool} (Inv Done : σ → Prop)

theorem count_trace_of_done (hinv : ∀ s e, Inv s → Inv (step s e))
    (hkeep : ∀ s e, Done s → Done (step s e))
    (hfirst : ∀ s e, Inv s → see s e = true → ¬ Done s ∧ Done (step s e)) {s : σ} (h : Inv s)
    (hdone : Done s) (es : List ε) : (trace step see s es).count true = 0 := by
  induction es generalizing s with
  | nil => rfl
  | cons e es ih =>
    have hsee : see s e = false := Bool.eq_false_iff.mpr fun hs => (hfirst s e h hs).1 hdone
    rw [trace, hsee, List.count_cons_of_ne Bool.false_ne_true, ih (hinv s e h) (hkeep s e hdone)]

/-- An event that is seen only before `Done`, and brings `Done` for good, is
seen at most once. -/
theorem count_trace_le_one (hinv : ∀ s e, Inv s → Inv (step s e))
    (hkeep : ∀ s e, Done s → Done (step s e))
    (hfirst : ∀ s e, Inv s → see s e = true → ¬ Done s ∧ Done (step s e)) {s : σ} (h : Inv s)
    (es : List ε) : (trace step see s es).count true ≤ 1 := by
  induction es generalizing s with
  | nil => exact Nat.zero_le 1
  | cons e es ih =>
    rw [trace]
    cases hsee : see s e with
    | false =>
      rw [List.count_cons_of_ne Bool.false_ne_true]
      exact ih (hinv s e h)
    | true =>
      have hnone :=
        count_trace_of_done Inv Done hinv hkeep hfirst (hinv s e h) (hfirst s e h hsee).2 es
      simp only [List.count_cons_self, hnone, Nat.zero_add, Nat.le_refl]

end

end runs
