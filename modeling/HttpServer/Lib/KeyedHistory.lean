/-
  Keyed histories — a history of events that each carry a key, and its projections.

  1. **Program** — `ofKey k l` is what happened to `k`, in order.

  2. **One more event** — it is behind the history of its own key, and no other history sees it
     (`ofKey_snoc_self`, `ofKey_snoc_ne`).

  3. **Weights** — an event weighs at its key alone: the weight of a whole history is the sum of the
     weights of the histories of its keys (`sum_map_eq_sum`).  A gauge that goes up at some events
     and down at others is the difference of two counts (`sum_map_indicator_sub`).
-/
import Mathlib.Algebra.BigOperators.Group.Finset.Piecewise
import Mathlib.Algebra.Ring.Int.Defs

namespace KeyedHistory

variable {κ ε : Type*}

section
variable [DecidableEq κ]

/-- `ofKey k l` — the events of `l` with key `k`. -/
def ofKey (k : κ) (l : List (κ × ε)) : List ε := (l.filter (·.1 = k)).map (·.2)

theorem ofKey_snoc_self (k : κ) (l : List (κ × ε)) (e : ε) :
    ofKey k (l ++ [(k, e)]) = ofKey k l ++ [e] := by
  simp [ofKey]

theorem ofKey_snoc_ne {k k' : κ} (h : k' ≠ k) (l : List (κ × ε)) (e : ε) :
    ofKey k (l ++ [(k', e)]) = ofKey k l := by
  simp [ofKey, h]

theorem ofKey_cons (k : κ) (x : κ × ε) (l : List (κ × ε)) :
    ofKey k (x :: l) = if x.1 = k then x.2 :: ofKey k l else ofKey k l := by
  by_cases h : x.1 = k
  · simp [ofKey, h]
  · simp [ofKey, h]

theorem mem_ofKey {k : κ} {l : List (κ × ε)} {e : ε} : e ∈ ofKey k l ↔ (k, e) ∈ l := by
  simp [ofKey]

/-! ## Weights -/

/-- **Weighing by keys.** -/
theorem sum_map_eq_sum {M : Type*} [AddCommMonoid M] (weight : ε → M) {keys : Finset κ}
    {l : List (κ × ε)} (h : ∀ x ∈ l, x.1 ∈ keys) :
    (l.map fun x => weight x.2).sum = ∑ k ∈ keys, ((ofKey k l).map weight).sum := by
  induction l with
  | nil => simp [ofKey]
  | cons x l ih =>
    have hx : x.1 ∈ keys := h x (List.mem_cons_self ..)
    have hl := ih fun y hy => h y (List.mem_cons_of_mem x hy)
    -- the head adds its own weight at its own key
    have hsplit : ∀ k ∈ keys, ((ofKey k (x :: l)).map weight).sum =
        (if x.1 = k then weight x.2 else 0) + ((ofKey k l).map weight).sum := by
      intro k _
      rw [ofKey_cons]
      by_cases hk : x.1 = k
      · rw [if_pos hk, if_pos hk, List.map_cons, List.sum_cons]
      · rw [if_neg hk, if_neg hk, zero_add]
    rw [List.map_cons, List.sum_cons, hl, Finset.sum_congr rfl hsplit, Finset.sum_add_distrib,
      Finset.sum_ite_eq, if_pos hx]

end

/-- A gauge is the difference of two counts. -/
theorem sum_map_indicator_sub (p q : ε → Bool) (l : List ε) :
    (l.map fun e => (if p e then 1 else 0 : Int) - if q e then 1 else 0).sum =
      (l.countP p : Int) - l.countP q := by
  induction l with
  | nil => rfl
  | cons e l ih =>
    rw [List.map_cons, List.sum_cons, ih, List.countP_cons, List.countP_cons]
    cases p e <;> cases q e <;> simp <;> omega

end KeyedHistory
