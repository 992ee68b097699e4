/-
  Potentials — how much a machine still has to do.

  1. **Specification** — a `Potential` gives every state a rank and every event a cost and a credit:
     a step lowers the rank by what its event costs, less what it pays in.  It may hold on the states
     of an invariant only, which every step keeps.

  2. **Rules** — `Potential.run` adds the steps up: what a part of a run costs is covered by the rank
     it starts from and by what is paid in on the way.  `Potential.exists_rest` goes on as long as
     some step of the right kind lowers the rank, and so comes to a state in which no more is left
     to do.  The two together are termination: no schedule can go on for longer than the rank, and
     one that stops early has stopped with a step still to be taken.
-/
import HttpServer.Lib.Machine
import Mathlib.Algebra.BigOperators.Group.List.Basic
import Mathlib.Algebra.GroupWithZero.Nat

namespace Machine

variable {σ ι ω : Type*}

/-- `Potential M` — a rank that pays for the steps of `M`. -/
structure Potential (M : Machine σ ι ω) where
  inv : σ → Prop
  rank : σ → Nat
  cost : ι × ω → Nat
  credit : ι × ω → Nat
  keep : ∀ {es s i s' o}, M.Run es s → inv s → M.step s i = some (s', o) → inv s'
  pay : ∀ {es s i s' o}, M.Run es s → inv s → M.step s i = some (s', o) →
    rank s' + cost (i, o) ≤ rank s + credit (i, o)

namespace Potential

variable {M : Machine σ ι ω} {es es' : List (ι × ω)} {s s' : σ}

/-- So much for each event that a function reads something off. -/
theorem sum_map_toList {ε α : Type*} (k : Nat) (f : ε → Option α) (es : List ε) :
    (es.map fun e => k * (f e).toList.length).sum = k * (es.filterMap f).length := by
  induction es with
  | nil => simp
  | cons e es ih =>
    rw [List.map_cons, List.sum_cons, ih, ← Nat.mul_add]
    cases h : f e with
    | none => simp [h]
    | some a => simp [h, Nat.add_comm]

/-- One for each event that is counted. -/
theorem sum_map_toNat {ε : Type*} (p : ε → Bool) (es : List ε) :
    (es.map fun e => (p e).toNat).sum = es.countP p := by
  induction es with
  | nil => rfl
  | cons e es ih =>
    rw [List.map_cons, List.sum_cons, List.countP_cons, ih]
    cases p e <;> simp [Nat.add_comm]

/-- The invariant, in every later state. -/
theorem inv_of_run (V : Potential M) (run : M.Run es s) (later : M.Run (es ++ es') s')
    (h : V.inv s) : V.inv s' :=
  run.stable (fun hrun hstep hinv => V.keep hrun hinv hstep) later h

/-- **The account of a part of a run**: what it costs, and what is left at its end, is what was there
    at its beginning and what was paid in. -/
theorem run (V : Potential M) (run : M.Run es s) (later : M.Run (es ++ es') s') (h : V.inv s) :
    V.rank s' + (es'.map V.cost).sum ≤ V.rank s + (es'.map V.credit).sum := by
  induction es' using List.reverseRecOn generalizing s' with
  | nil =>
    rw [List.append_nil] at later
    obtain rfl := run.unique later
    exact Nat.le_refl _
  | append_singleton es' e ih =>
    rw [← List.append_assoc] at later
    obtain ⟨t, hlater, hstep⟩ := later.snoc_inv
    have hbefore := ih hlater
    have hpay : V.rank s' + V.cost e ≤ V.rank t + V.credit e :=
      V.pay hlater (V.inv_of_run run hlater h) hstep
    simp only [List.map_append, List.sum_append, List.map_singleton, List.sum_singleton]
    omega

/-- Where nothing is paid in, what was there at the beginning covers all. -/
theorem run_of_credit_eq_zero (V : Potential M) (run : M.Run es s) (later : M.Run (es ++ es') s')
    (h : V.inv s) (hcredit : ∀ e, V.credit e = 0) :
    V.rank s' + (es'.map V.cost).sum ≤ V.rank s := by
  have hnone : (es'.map V.credit).sum = 0 := by
    refine List.sum_eq_zero fun n hn => ?_
    obtain ⟨e, -, rfl⟩ := List.mem_map.mp hn
    exact hcredit e
  have haccount := V.run run later h
  omega

/-- A step that costs more than it pays in lowers the rank. -/
theorem rank_lt (V : Potential M) {i : ι} {o : ω} (run : M.Run es s) (h : V.inv s)
    (hstep : M.step s i = some (s', o)) (hlt : V.credit (i, o) < V.cost (i, o)) :
    V.rank s' < V.rank s := by
  have hpay := V.pay run h hstep
  omega

/-- **To the end**: where every busy state has a step that lowers the rank and keeps to `path`, a
    state that is not busy can be reached by such steps. -/
theorem exists_rest (V : Potential M) (busy path : σ → Prop) (chosen : ι × ω → Prop)
    (go : ∀ {es s}, M.Run es s → V.inv s → path s → busy s →
      ∃ i s' o, M.step s i = some (s', o) ∧ V.rank s' < V.rank s ∧ chosen (i, o) ∧ path s')
    (run : M.Run es s) (h : V.inv s) (hpath : path s) :
    ∃ es' s', M.Run (es ++ es') s' ∧ (∀ e ∈ es', chosen e) ∧ path s' ∧ ¬ busy s' := by
  induction hrank : V.rank s using Nat.strongRecOn generalizing es s with
  | ind n ih =>
    by_cases hbusy : busy s
    · obtain ⟨i, t, o, hstep, hlt, hchosen, hkept⟩ := go run h hpath hbusy
      obtain ⟨es', s', hlater, hall, hrest⟩ :=
        ih (V.rank t) (by omega) (run.snoc hstep) (V.keep run h hstep) hkept rfl
      refine ⟨(i, o) :: es', s', ?_, ?_, hrest⟩
      · rwa [List.append_assoc] at hlater
      · intro e he
        rcases List.mem_cons.mp he with rfl | he
        · exact hchosen
        · exact hall e he
    · exact ⟨[], s, by rwa [List.append_nil], fun e he => absurd he List.not_mem_nil, hpath, hbusy⟩

end Potential

end Machine
