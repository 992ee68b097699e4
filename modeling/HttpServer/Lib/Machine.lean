/-
  Machines — a system as a partial step function, and its runs as histories of events.

  1. **Program** — `step s i` is what the system does in state `s` when the scheduler picks `i`:
     `none` when `i` is not enabled, else the next state and what can be observed.  All choice, of
     which thread moves and of what its environment answers, is in `i`.

  2. **Specification** — `M.Run es s` says that `es`, the inputs with their outputs in order, is a
     history that leads from the initial state to `s`.  A property of every interleaving is a
     property of every `Run`.

  3. **Rules** — `Run.invariant` (one step, then a whole run; the history may occur in the
     invariant), `Run.stable` (what no step undoes holds in every later state), `Run.stable_while`
     (what no step of some kind undoes holds as long as the steps are of that kind),
     `Run.pairwise_after` (once an event has been seen, another never comes), `Refinement.run` (a
     step of one machine is a step of another or none, then a run of one is a run of the other), and
     `run_restrict_snoc_iff` (the runs all of whose steps meet a condition are the runs of the
     restricted machine).
-/
import Mathlib.Data.List.Basic
import Mathlib.Data.List.Induction

/-- `Machine σ ι ω` — states `σ`, inputs `ι`, outputs `ω`. -/
structure Machine (σ ι ω : Type*) where
  init : σ
  step : σ → ι → Option (σ × ω)

namespace Machine

variable {σ ι ω : Type*} (M : Machine σ ι ω)

/-! ## Runs -/

/-- `M.Run es s` — the events `es` lead from the initial state to `s`. -/
inductive Run : List (ι × ω) → σ → Prop
  | nil : Run [] M.init
  | snoc {es s i s' o} (run : Run es s) (step : M.step s i = some (s', o)) :
      Run (es ++ [(i, o)]) s'

/-- **The induction over a run**: `P` holds at the start and every step of a run keeps it. -/
@[elab_as_elim]
theorem Run.invariant {M : Machine σ ι ω} {P : List (ι × ω) → σ → Prop} (init : P [] M.init)
    (step : ∀ {es s i s' o}, M.Run es s → P es s → M.step s i = some (s', o) →
      P (es ++ [(i, o)]) s')
    {es : List (ι × ω)} {s : σ} (run : M.Run es s) : P es s := by
  induction run with
  | nil => exact init
  | snoc run hstep ih => exact step run ih hstep

/-- The run that a list of inputs makes, if every input is enabled in its turn. -/
def exec (s : σ) : List ι → Option (List (ι × ω) × σ)
  | [] => some ([], s)
  | i :: is =>
    match M.step s i with
    | none => none
    | some (s', o) => (exec s' is).map fun r => ((i, o) :: r.1, r.2)

theorem Run.exec {M : Machine σ ι ω} {es es' : List (ι × ω)} {s s' : σ} {is : List ι}
    (run : M.Run es s) (h : M.exec s is = some (es', s')) : M.Run (es ++ es') s' := by
  induction is generalizing es es' s with
  | nil =>
    cases h
    rwa [List.append_nil]
  | cons i is ih =>
    rw [Machine.exec] at h
    cases hstep : M.step s i with
    | none => simp [hstep] at h
    | some r =>
      obtain ⟨s₁, o⟩ := r
      simp only [hstep, Option.map_eq_some_iff] at h
      obtain ⟨⟨es₁, s₂⟩, hexec, heq⟩ := h
      cases heq
      have hrun := ih (run.snoc hstep) hexec
      rwa [List.append_assoc] at hrun

/-- Inputs in two parts, one after the other. -/
theorem exec_append {M : Machine σ ι ω} {is is' : List ι} {s s₁ s₂ : σ} {es es' : List (ι × ω)}
    (h : M.exec s is = some (es, s₁)) (h' : M.exec s₁ is' = some (es', s₂)) :
    M.exec s (is ++ is') = some (es ++ es', s₂) := by
  induction is generalizing s es with
  | nil =>
    cases h
    exact h'
  | cons i is ih =>
    rw [Machine.exec] at h
    rw [List.cons_append, Machine.exec]
    cases hstep : M.step s i with
    | none => simp [hstep] at h
    | some r =>
      simp only [hstep, Option.map_eq_some_iff] at h ⊢
      obtain ⟨⟨es₁, s₁'⟩, hexec, heq⟩ := h
      cases heq
      exact ⟨(es₁ ++ es', s₂), ih hexec, rfl⟩

/-- Running inputs makes one event for each. -/
theorem exec_inputs {M : Machine σ ι ω} {is : List ι} {s s' : σ} {es : List (ι × ω)}
    (h : M.exec s is = some (es, s')) : es.map Prod.fst = is := by
  induction is generalizing s es with
  | nil =>
    cases h
    rfl
  | cons i is ih =>
    rw [Machine.exec] at h
    cases hstep : M.step s i with
    | none => simp [hstep] at h
    | some r =>
      simp only [hstep, Option.map_eq_some_iff] at h
      obtain ⟨⟨es₁, s₁⟩, hexec, heq⟩ := h
      cases heq
      rw [List.map_cons, ih hexec]

/-- A run of some inputs, with a checkable property. -/
theorem exists_run_of {M : Machine σ ι ω} (is : List ι) (p : List (ι × ω) → σ → Prop)
    [∀ es s, Decidable (p es s)]
    (h : (M.exec M.init is).any (fun r => decide (p r.1 r.2)) = true) :
    ∃ es s, M.Run es s ∧ es.map Prod.fst = is ∧ p es s := by
  cases hexec : M.exec M.init is with
  | none => simp [hexec] at h
  | some r =>
    rw [hexec, Option.any_some] at h
    exact ⟨r.1, r.2, Run.nil.exec hexec, exec_inputs hexec, of_decide_eq_true h⟩

/-- A run with a checkable property, found by running the inputs. -/
theorem exists_run {M : Machine σ ι ω} (is : List ι) (p : List (ι × ω) → σ → Prop)
    [∀ es s, Decidable (p es s)]
    (h : (M.exec M.init is).any (fun r => decide (p r.1 r.2)) = true) :
    ∃ es s, M.Run es s ∧ p es s := by
  obtain ⟨es, s, run, -, hp⟩ := exists_run_of is p h
  exact ⟨es, s, run, hp⟩

/-- A run and a later part of it, with a checkable property of both. -/
theorem exists_run_then {M : Machine σ ι ω} (is is' : List ι)
    (p : List (ι × ω) → σ → List (ι × ω) → σ → Prop) [∀ es s es' s', Decidable (p es s es' s')]
    (h : (M.exec M.init is).any (fun r => (M.exec r.2 is').any
      fun r' => decide (p r.1 r.2 r'.1 r'.2)) = true) :
    ∃ es s es' s', M.Run es s ∧ M.Run (es ++ es') s' ∧ p es s es' s' := by
  obtain ⟨es, s, run, hlater⟩ := exists_run is
    (fun es s => (M.exec s is').any (fun r' => decide (p es s r'.1 r'.2)) = true)
    (by simpa using h)
  cases hexec : M.exec s is' with
  | none => simp [hexec] at hlater
  | some r =>
    rw [hexec, Option.any_some] at hlater
    exact ⟨es, s, r.1, r.2, run, run.exec hexec, of_decide_eq_true hlater⟩

/-- The last step of a run. -/
theorem Run.snoc_inv {M : Machine σ ι ω} {es : List (ι × ω)} {i : ι} {o : ω} {s' : σ}
    (run : M.Run (es ++ [(i, o)]) s') : ∃ s, M.Run es s ∧ M.step s i = some (s', o) := by
  generalize hes : es ++ [(i, o)] = es' at run
  cases run with
  | nil => simp at hes
  | snoc run hstep =>
    obtain ⟨rfl, hlast⟩ := List.append_inj' hes rfl
    cases hlast
    exact ⟨_, run, hstep⟩

/-- A history determines the state it leads to. -/
theorem Run.unique {M : Machine σ ι ω} {es : List (ι × ω)} {s t : σ} (run : M.Run es s)
    (run' : M.Run es t) : s = t := by
  induction run generalizing t with
  | nil =>
    generalize hes : ([] : List (ι × ω)) = es at run'
    cases run' with
    | nil => rfl
    | snoc => simp at hes
  | snoc _ hstep ih =>
    obtain ⟨t₀, hrun, hstep'⟩ := run'.snoc_inv
    rw [← ih hrun, hstep] at hstep'
    cases hstep'
    rfl

/-- **What is not lost for now**: a property that every step of some kind keeps holds in every later
    state up to which all steps are of that kind. -/
theorem Run.stable_while {M : Machine σ ι ω} {P : σ → Prop} {K : ι × ω → Prop}
    (step : ∀ {es s i s' o}, M.Run es s → M.step s i = some (s', o) → K (i, o) → P s → P s')
    {es es' : List (ι × ω)} {s s' : σ} (run : M.Run es s) (later : M.Run (es ++ es') s')
    (hkind : ∀ e ∈ es', K e) (h : P s) : P s' := by
  induction es' using List.reverseRecOn generalizing s' with
  | nil =>
    rw [List.append_nil] at later
    exact run.unique later ▸ h
  | append_singleton es' e ih =>
    rw [← List.append_assoc] at later
    obtain ⟨t, hlater, hstep⟩ := later.snoc_inv
    exact step hlater hstep (hkind e (List.mem_append_right _ (List.mem_singleton_self e)))
      (ih hlater fun e' he' => hkind e' (List.mem_append_left _ he'))

/-- **What is never lost again**: a property that every step of a run keeps holds in every later
    state. -/
theorem Run.stable {M : Machine σ ι ω} {P : σ → Prop}
    (step : ∀ {es s i s' o}, M.Run es s → M.step s i = some (s', o) → P s → P s')
    {es es' : List (ι × ω)} {s s' : σ} (run : M.Run es s) (later : M.Run (es ++ es') s')
    (h : P s) : P s' :=
  run.stable_while (K := fun _ => True) (fun hrun hstep _ hP => step hrun hstep hP) later
    (fun _ _ => trivial) h

/-- **From then on**: if an event with `p` leads into `Q`, no step leaves `Q`, and no step in `Q`
    shows an event with `bad`, then no `bad` comes behind a `p`. -/
theorem Run.pairwise_after {M : Machine σ ι ω} {p bad : ι × ω → Prop} {Q : σ → Prop}
    (enter : ∀ {es s i s' o}, M.Run es s → M.step s i = some (s', o) → p (i, o) → Q s')
    (stay : ∀ {es s i s' o}, M.Run es s → M.step s i = some (s', o) → Q s → Q s')
    (safe : ∀ {es s i s' o}, M.Run es s → M.step s i = some (s', o) → Q s → ¬ bad (i, o))
    {es : List (ι × ω)} {s : σ} (run : M.Run es s) :
    es.Pairwise fun e e' => p e → ¬ bad e' := by
  have h : (es.Pairwise fun e e' => p e → ¬ bad e') ∧ ((∃ e ∈ es, p e) → Q s) := by
    refine run.invariant ⟨.nil, fun h => ?_⟩ fun {es s i s' o} hrun ih hstep => ⟨?_, ?_⟩
    · obtain ⟨e, he, -⟩ := h
      cases he
    · refine List.pairwise_append.mpr ⟨ih.1, List.pairwise_singleton _ _, ?_⟩
      intro e he e' he' hp
      rw [List.mem_singleton.mp he']
      exact safe hrun hstep (ih.2 ⟨e, he, hp⟩)
    · rintro ⟨e, he, hp⟩
      rcases List.mem_append.mp he with he | he
      · exact stay hrun hstep (ih.2 ⟨e, he, hp⟩)
      · rw [List.mem_singleton.mp he] at hp
        exact enter hrun hstep hp
  exact h.1

/-- What a function reads off a history with one more event. -/
theorem filterMap_snoc {ε α : Type*} (f : ε → Option α) (es : List ε) (e : ε) :
    (es ++ [e]).filterMap f = es.filterMap f ++ (f e).toList := by
  rw [List.filterMap_append]
  cases h : f e with
  | none => simp [h]
  | some a => simp [h]

/-- **What is read off a history**: two readings that agree on every step agree on every run. -/
theorem Run.filterMap_label {ε α : Type*} {M : Machine σ ι ω} {label : ι × ω → Option ε}
    {f : ε → Option α} {g : ι × ω → Option α}
    (h : ∀ {s i s' o}, M.step s i = some (s', o) → (label (i, o)).bind f = g (i, o))
    {es : List (ι × ω)} {s : σ} (run : M.Run es s) :
    (es.filterMap label).filterMap f = es.filterMap g := by
  rw [List.filterMap_filterMap]
  induction run with
  | nil => rfl
  | snoc _ hstep ih => rw [filterMap_snoc, filterMap_snoc, ih, h hstep]

/-! ## Restriction -/

/-- The machine that takes only the steps that meet a condition on the state before them. -/
def restrict (ok : σ → ι → Prop) [∀ s i, Decidable (ok s i)] : Machine σ ι ω where
  init := M.init
  step s i := if ok s i then M.step s i else none

theorem restrict_step_iff {ok : σ → ι → Prop} [∀ s i, Decidable (ok s i)] {s s' : σ} {i : ι}
    {o : ω} :
    (M.restrict ok).step s i = some (s', o) ↔ ok s i ∧ M.step s i = some (s', o) := by
  show (if ok s i then M.step s i else none) = some (s', o) ↔ _
  by_cases h : ok s i
  · simp [h]
  · simp [h]

theorem Run.of_restrict {M : Machine σ ι ω} {ok : σ → ι → Prop} [∀ s i, Decidable (ok s i)]
    {es : List (ι × ω)} {s : σ} (run : (M.restrict ok).Run es s) : M.Run es s := by
  induction run with
  | nil => exact Run.nil
  | snoc _ hstep ih => exact ih.snoc (M.restrict_step_iff.mp hstep).2

/-- **One more step**: a longer run is one of the restricted machine exactly when the shorter one
    was and the step meets the condition. -/
theorem run_restrict_snoc_iff {M : Machine σ ι ω} {ok : σ → ι → Prop} [∀ s i, Decidable (ok s i)]
    {es : List (ι × ω)} {s s' : σ} {i : ι} {o : ω} (run : M.Run es s)
    (step : M.step s i = some (s', o)) :
    (M.restrict ok).Run (es ++ [(i, o)]) s' ↔ (M.restrict ok).Run es s ∧ ok s i := by
  constructor
  · intro h
    obtain ⟨t, hrun, hstep⟩ := h.snoc_inv
    obtain rfl := run.unique hrun.of_restrict
    exact ⟨hrun, (M.restrict_step_iff.mp hstep).1⟩
  · rintro ⟨hrun, hok⟩
    exact hrun.snoc (M.restrict_step_iff.mpr ⟨hok, step⟩)

/-! ## Refinement -/

/-- `A.Follows t t' l` — a labelled step is the step of `A` that its label says, and a step without
    a label leaves the state alone. -/
def Follows {τ κ ν : Type*} (A : Machine τ κ ν) (t t' : τ) : Option (κ × ν) → Prop
  | none => t' = t
  | some (k, v) => A.step t k = some (t', v)

/-- `Refinement M A` — every step of `M` is, through `abs` and `label`, one step of `A` or none. -/
structure Refinement {τ κ ν : Type*} (M : Machine σ ι ω) (A : Machine τ κ ν) where
  abs : σ → τ
  label : ι × ω → Option (κ × ν)
  init : abs M.init = A.init
  step : ∀ {es s i s' o}, M.Run es s → M.step s i = some (s', o) →
    A.Follows (abs s) (abs s') (label (i, o))

/-- **A run of the refining machine is a run of the refined one.** -/
theorem Refinement.run {τ κ ν : Type*} {M : Machine σ ι ω} {A : Machine τ κ ν}
    (R : Refinement M A) {es : List (ι × ω)} {s : σ} (run : M.Run es s) :
    A.Run (es.filterMap R.label) (R.abs s) := by
  induction run with
  | nil =>
    rw [R.init]
    exact Run.nil
  | snoc run hstep ih =>
    rename_i es s i s' o
    have h := R.step run hstep
    rw [List.filterMap_append]
    cases hl : R.label (i, o) with
    | none =>
      rw [hl] at h
      have hsame : R.abs s' = R.abs s := h
      simpa [hl, hsame] using ih
    | some e =>
      rw [hl] at h
      simpa [hl] using ih.snoc h

end Machine
