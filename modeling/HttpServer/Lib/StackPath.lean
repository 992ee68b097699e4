/-
  Paths on a stack — a path read part by part, where a part is put on a stack, takes the last one
  off again, or does neither.

  1. **Data** — `Move α` is what one part does; a stack is a list with its top at the end.

  2. **Program** — `resolve stack moves` makes the moves from the left; a step up from the empty
     stack does nothing.

  3. **Composition** (`resolve_append`, `resolve_push`) — a path behind another one is resolved
     from the stack that the first one left, and a stack is its own path.

  4. **The crux (`resolve_above`)** — moves that never take off more than they have put on leave
     the stack below them alone: `NeverBelow` looks at the running depth of the moves only, and not
     at any stack.
-/
import Mathlib.Data.List.Infix

namespace StackPath

variable {α : Type*}

/-- What one part of a path does. -/
inductive Move (α : Type*)
  | stay
  | up
  | push (part : α)

/-- One move. -/
def Move.apply (stack : List α) : Move α → List α
  | stay => stack
  | up => stack.dropLast
  | push part => stack ++ [part]

/-- `resolve stack moves` — the stack that the moves leave. -/
def resolve (stack : List α) (moves : List (Move α)) : List α := moves.foldl Move.apply stack

@[simp] theorem resolve_nil (stack : List α) : resolve stack [] = stack := rfl

@[simp] theorem resolve_cons (stack : List α) (move : Move α) (moves : List (Move α)) :
    resolve stack (move :: moves) = resolve (move.apply stack) moves := rfl

/-- **Two paths behind each other**: the second one starts from what the first one left. -/
theorem resolve_append (stack : List α) (moves moves' : List (Move α)) :
    resolve stack (moves ++ moves') = resolve (resolve stack moves) moves' :=
  List.foldl_append ..

/-- **A stack is its own path.** -/
theorem resolve_push (stack parts : List α) :
    resolve stack (parts.map Move.push) = stack ++ parts := by
  induction parts generalizing stack with
  | nil => rw [List.map_nil, resolve_nil, List.append_nil]
  | cons part parts ih =>
    rw [List.map_cons, resolve_cons, ih]
    show (stack ++ [part]) ++ parts = stack ++ part :: parts
    rw [List.append_assoc, List.singleton_append]

/-- What is on the stack in the end was there before or has been put on it. -/
theorem mem_resolve {stack : List α} {moves : List (Move α)} {part : α}
    (h : part ∈ resolve stack moves) : part ∈ stack ∨ Move.push part ∈ moves := by
  induction moves generalizing stack with
  | nil => exact Or.inl h
  | cons move moves ih =>
    rcases ih h with hstack | hmoves
    · cases move with
      | stay => exact Or.inl hstack
      | up => exact Or.inl (List.dropLast_subset stack hstack)
      | push part' =>
        rcases List.mem_append.mp hstack with hold | hnew
        · exact Or.inl hold
        · rw [List.mem_singleton.mp hnew]
          exact Or.inr (List.mem_cons_self ..)
    · exact Or.inr (List.mem_cons_of_mem move hmoves)

/-! ## The running depth -/

/-- How much deeper a move goes. -/
def Move.rise : Move α → Int
  | stay => 0
  | up => -1
  | push _ => 1

/-- The depth behind a path, counted from its start, without regard to any stack. -/
def depth : List (Move α) → Int
  | [] => 0
  | move :: moves => move.rise + depth moves

/-- `NeverBelow moves` — the running depth never goes below zero. -/
def NeverBelow (moves : List (Move α)) : Prop :=
  ∀ n, n ≤ moves.length → 0 ≤ depth (moves.take n)

instance (moves : List (Move α)) : Decidable (NeverBelow moves) :=
  inferInstanceAs (Decidable (∀ n, n ≤ moves.length → 0 ≤ depth (moves.take n)))

/-- The step of `resolve_above`, with the part of the stack that the moves may use up. -/
theorem resolve_above_of_depth (moves : List (Move α)) :
    ∀ (low high : List α),
      (∀ n, n ≤ moves.length → 0 ≤ high.length + depth (moves.take n)) →
      resolve (low ++ high) moves = low ++ resolve high moves := by
  induction moves with
  | nil =>
    intro low high _
    rfl
  | cons move moves ih =>
    intro low high hdepth
    -- the depth behind the first move, and from there on
    have hnext : ∀ n, n ≤ moves.length → 0 ≤ high.length + (move.rise + depth (moves.take n)) := by
      intro n hn
      have hsucc := hdepth (n + 1) (by rw [List.length_cons]; omega)
      rw [List.take_succ_cons] at hsucc
      exact hsucc
    rw [resolve_cons, resolve_cons]
    cases move with
    | stay =>
      refine ih low high ?_
      intro n hn
      have := hnext n hn
      simp only [Move.rise] at this
      omega
    | up =>
      -- there is something to take off, since the depth is still not below zero
      have hone := hnext 0 (Nat.zero_le _)
      simp only [List.take_zero, depth, Move.rise] at hone
      have hne : high ≠ [] := by
        rintro rfl
        simp at hone
      show resolve ((low ++ high).dropLast) moves = low ++ resolve high.dropLast moves
      rw [List.dropLast_append_of_ne_nil hne]
      refine ih low high.dropLast ?_
      intro n hn
      have := hnext n hn
      simp only [Move.rise] at this
      rw [List.length_dropLast]
      omega
    | push part =>
      show resolve ((low ++ high) ++ [part]) moves = low ++ resolve (high ++ [part]) moves
      rw [List.append_assoc]
      refine ih low (high ++ [part]) ?_
      intro n hn
      have := hnext n hn
      simp only [Move.rise] at this
      rw [List.length_append, List.length_singleton]
      omega

/-- **Moves that never go below their start leave the stack below them alone.** -/
theorem resolve_above {moves : List (Move α)} (h : NeverBelow moves) (stack : List α) :
    resolve stack moves = stack ++ resolve [] moves := by
  have hdepth : ∀ n, n ≤ moves.length →
      0 ≤ (([] : List α).length : Int) + depth (moves.take n) := by
    intro n hn
    have := h n hn
    rw [List.length_nil]
    omega
  have hrun := resolve_above_of_depth moves stack [] hdepth
  rwa [List.append_nil] at hrun

end StackPath
