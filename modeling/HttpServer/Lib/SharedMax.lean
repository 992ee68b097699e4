/-
  A shared maximum — a bound that several threads raise, each to the value it has in hand.

  1. **Specification** — `largest` is the maximum of all values ever offered, `peak` the shared bound,
     and `pending t` the value that thread `t` has offered and is not done with.

  2. **The invariant (`Tracks`)** — neither the bound nor a pending value exceeds the maximum, and the
     maximum is reached by the bound or still pending.

  3. **Rules** — a thread offers a value (`Tracks.offer`), is done with one that the bound has reached
     (`Tracks.drop`), or raises the bound to its own (`Tracks.raise`); with nothing pending the bound
     is the maximum (`Tracks.eq_of_rest`).
-/
import Mathlib.Data.List.Induction
import Mathlib.Logic.Function.Basic
import Mathlib.Order.MinMax

namespace SharedMax

variable {α τ : Type*} [LinearOrder α] [DecidableEq τ]

/-- `Tracks largest peak pending` — the bound is behind the maximum by pending values only. -/
structure Tracks (largest peak : α) (pending : τ → Option α) : Prop where
  peak_le : peak ≤ largest
  pending_le : ∀ t x, pending t = some x → x ≤ largest
  attained : largest ≤ peak ∨ ∃ t, pending t = some largest

variable {largest peak : α} {pending : τ → Option α} {t : τ}

omit [DecidableEq τ] in
theorem tracks_init (x : α) : Tracks x x fun _ : τ => none where
  peak_le := le_refl x
  pending_le t y h := by cases h
  attained := Or.inl (le_refl x)

/-- A thread with nothing in hand offers a value. -/
theorem Tracks.offer (h : Tracks largest peak pending) (hnone : pending t = none) (x : α) :
    Tracks (max largest x) peak (Function.update pending t (some x)) where
  peak_le := h.peak_le.trans (le_max_left largest x)
  pending_le u y hy := by
    by_cases hu : u = t
    · subst hu
      rw [Function.update_self] at hy
      cases hy
      exact le_max_right largest x
    · rw [Function.update_of_ne hu] at hy
      exact (h.pending_le u y hy).trans (le_max_left largest x)
  attained := by
    rcases le_total x largest with hle | hle
    · rw [max_eq_left hle]
      rcases h.attained with hpeak | ⟨u, hu⟩
      · exact Or.inl hpeak
      · have hne : u ≠ t := by
          rintro rfl
          rw [hnone] at hu
          cases hu
        exact Or.inr ⟨u, by rw [Function.update_of_ne hne, hu]⟩
    · rw [max_eq_right hle]
      exact Or.inr ⟨t, Function.update_self ..⟩

/-- A thread that stops to be pending takes the maximum away only if the bound has reached it. -/
theorem Tracks.attained_update (h : Tracks largest peak pending) {peak' : α}
    (hpeak : peak ≤ peak') (ht : ∀ x, pending t = some x → x ≤ peak') :
    largest ≤ peak' ∨ ∃ u, Function.update pending t none u = some largest := by
  rcases h.attained with hle | ⟨u, hu⟩
  · exact Or.inl (hle.trans hpeak)
  · by_cases hut : u = t
    · subst hut
      exact Or.inl (ht largest hu)
    · exact Or.inr ⟨u, by rw [Function.update_of_ne hut, hu]⟩

/-- The values that are left are still below the maximum. -/
theorem Tracks.pending_le_update (h : Tracks largest peak pending) (u : τ) (x : α)
    (hx : Function.update pending t none u = some x) : x ≤ largest := by
  by_cases hut : u = t
  · subst hut
    rw [Function.update_self] at hx
    cases hx
  · rw [Function.update_of_ne hut] at hx
    exact h.pending_le u x hx

/-- A thread is done with a value that the bound has reached. -/
theorem Tracks.drop (h : Tracks largest peak pending) (ht : ∀ x, pending t = some x → x ≤ peak) :
    Tracks largest peak (Function.update pending t none) where
  peak_le := h.peak_le
  pending_le := h.pending_le_update
  attained := h.attained_update (le_refl peak) ht

/-- **A thread raises the bound** to its own value. -/
theorem Tracks.raise (h : Tracks largest peak pending) {x : α} (ht : pending t = some x)
    (hpeak : peak ≤ x) : Tracks largest x (Function.update pending t none) where
  peak_le := h.pending_le t x ht
  pending_le := h.pending_le_update
  attained := by
    refine h.attained_update hpeak fun y hy => ?_
    rw [ht] at hy
    cases hy
    exact le_refl x

omit [DecidableEq τ] in
/-- **With nothing pending the bound is the maximum.** -/
theorem Tracks.eq_of_rest (h : Tracks largest peak pending) (hrest : ∀ t, pending t = none) :
    peak = largest := by
  rcases h.attained with hle | ⟨t, ht⟩
  · exact le_antisymm h.peak_le hle
  · rw [hrest t] at ht
    cases ht

end SharedMax
