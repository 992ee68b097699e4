/-
  The last write — what a part of a machine's state holds, by the step that wrote it last.

  1. **Specification** — `M.Last p es es₁ e s₁` says that `e` is the last event with `p` in the
     history `es`, that `es₁` stands before it and that it was a step of the state `s₁`.

  2. **Rule** — if the steps with `p` write the part and no other step does, it holds what the last of
     them wrote, or what it held at the start (`Run.reads`).
-/
import HttpServer.Lib.Machine

namespace Machine

variable {σ ι ω α : Type*} {M : Machine σ ι ω} {p : ι × ω → Prop}

/-- `M.Last p es es₁ e s₁` — `e` is the last event of `es` with `p`, a step of `s₁` behind `es₁`. -/
structure Last (M : Machine σ ι ω) (p : ι × ω → Prop) (es es₁ : List (ι × ω)) (e : ι × ω) (s₁ : σ) :
    Prop where
  run : M.Run es₁ s₁
  holds : p e
  split : ∃ es₂, es = es₁ ++ e :: es₂ ∧ ∀ e' ∈ es₂, ¬ p e'

/-- The new event is the last one. -/
theorem Last.snoc {es : List (ι × ω)} {e : ι × ω} {s : σ} (run : M.Run es s) (h : p e) :
    M.Last p (es ++ [e]) es e s :=
  ⟨run, h, [], rfl, fun _ he' => absurd he' List.not_mem_nil⟩

/-- If the new event has `p`, no other is the last one. -/
theorem Last.eq_of_snoc {es es₁ : List (ι × ω)} {e e₁ : ι × ω} {s s₁ : σ} (run : M.Run es s)
    (last : M.Last p (es ++ [e]) es₁ e₁ s₁) (h : p e) : e₁ = e ∧ s₁ = s := by
  obtain ⟨hrun, -, es₂, hsplit, hnone⟩ := last
  induction es₂ using List.reverseRecOn with
  | nil =>
    obtain ⟨rfl, heq⟩ := List.append_inj' hsplit rfl
    cases heq
    exact ⟨rfl, hrun.unique run⟩
  | append_singleton es₂ e₂ =>
    rw [← List.cons_append, ← List.append_assoc] at hsplit
    obtain ⟨-, heq⟩ := List.append_inj' hsplit rfl
    cases heq
    exact absurd h (hnone e (List.mem_append_right _ (List.mem_singleton_self e)))

/-- If it has not, the last one is as it was. -/
theorem last_snoc_iff {es es₁ : List (ι × ω)} {e e₁ : ι × ω} {s₁ : σ} (h : ¬ p e) :
    M.Last p (es ++ [e]) es₁ e₁ s₁ ↔ M.Last p es es₁ e₁ s₁ := by
  constructor
  · rintro ⟨hrun, hp, es₂, hsplit, hnone⟩
    refine ⟨hrun, hp, ?_⟩
    induction es₂ using List.reverseRecOn with
    | nil =>
      obtain ⟨-, heq⟩ := List.append_inj' hsplit rfl
      cases heq
      exact absurd hp h
    | append_singleton es₂ e₂ =>
      rw [← List.cons_append, ← List.append_assoc] at hsplit
      obtain ⟨hes, -⟩ := List.append_inj' hsplit rfl
      exact ⟨es₂, hes, fun e' he' => hnone e' (List.mem_append_left _ he')⟩
  · rintro ⟨hrun, hp, es₂, rfl, hnone⟩
    refine ⟨hrun, hp, es₂ ++ [e], by rw [List.append_assoc, List.cons_append], ?_⟩
    intro e' he'
    rcases List.mem_append.mp he' with he' | he'
    · exact hnone e' he'
    · rwa [List.mem_singleton.mp he']

/-- **The last write.**  `g` is a part of the state that steps with `p` set to `v` and no other step
    changes: it holds `a`, as it did at the start, exactly if the last of these steps set it to
    `a`. -/
theorem Run.reads {g : σ → α} {v : ι × ω → σ → α} {a : α} (init : g M.init = a)
    (write : ∀ {s i s' o}, M.step s i = some (s', o) → p (i, o) → g s' = v (i, o) s)
    (keep : ∀ {s i s' o}, M.step s i = some (s', o) → ¬ p (i, o) → g s' = g s)
    {es : List (ι × ω)} {s : σ} (run : M.Run es s) :
    g s = a ↔ ∀ es₁ e s₁, M.Last p es es₁ e s₁ → v e s₁ = a := by
  induction run with
  | nil =>
    refine iff_of_true init fun es₁ e s₁ last => ?_
    obtain ⟨-, -, es₂, hsplit, -⟩ := last
    simp at hsplit
  | @snoc es s i s' o hrun hstep ih =>
    by_cases hp : p (i, o)
    · rw [write hstep hp]
      constructor
      · intro hv es₁ e s₁ last
        obtain ⟨rfl, rfl⟩ := last.eq_of_snoc hrun hp
        exact hv
      · intro hlast
        exact hlast _ _ _ (Last.snoc hrun hp)
    · rw [keep hstep hp, ih]
      simp only [last_snoc_iff hp]

end Machine
