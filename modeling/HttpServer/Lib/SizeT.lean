/-
  Checked `std::size_t` — the operations of a C++ program on positions and sizes, which say when they
  leave the numbers.

  1. **Program** — `add` and `sub` give the number, or the fault `wraps` where the machine would take
     it modulo 2^64; `substr` throws when it starts behind the end, and `append` when no `size_t`
     holds the length.  `npos` is the largest number: what a search without a match returns.

  2. **Rules** — each operation on arguments that are in bounds (`add_of_lt`, `sub_of_le`,
     `substr_of_le`), so that a checked program is run by rewriting, one operation at a time.
-/
import Mathlib.Algebra.Group.Nat.Defs
import Mathlib.Data.List.Basic

namespace SizeT

/-- What an operation ends in instead of a result. -/
inductive Fault
  /-- A sum or a difference wraps. -/
  | wraps
  /-- `std::out_of_range`: a `substr` starts behind the end. -/
  | outOfRange
  /-- `std::length_error`: a string gets too long. -/
  | lengthError
  deriving DecidableEq, Repr

/-- The first number that is no `size_t`. -/
def limit : Nat := 2 ^ 64

/-- What a search returns that finds nothing. -/
def npos : Nat := limit - 1

/-- A position as `find` returns it. -/
def orNpos (pos : Option Nat) : Nat := pos.getD npos

/-- `a + b`, as long as the sum is a `size_t`. -/
def add (a b : Nat) : Except Fault Nat := if a + b < limit then .ok (a + b) else .error .wraps

/-- `a - b`, as long as the difference is one. -/
def sub (a b : Nat) : Except Fault Nat := if b ≤ a then .ok (a - b) else .error .wraps

universe u

variable {α : Type u}

/-- A string: its length is a `size_t`. -/
structure Text (α : Type u) where
  chars : List α
  length_lt : chars.length < limit

/-- `s.substr(pos, len)`. -/
def substr (s : List α) (pos len : Nat) : Except Fault (List α) :=
  if pos ≤ s.length then .ok ((s.drop pos).take len) else .error .outOfRange

/-- `s.substr(pos)`. -/
def substrFrom (s : List α) (pos : Nat) : Except Fault (List α) :=
  if pos ≤ s.length then .ok (s.drop pos) else .error .outOfRange

/-- `s + t`, as long as a string can be so long. -/
def append (s t : List α) : Except Fault (List α) :=
  if (s ++ t).length < limit then .ok (s ++ t) else .error .lengthError

/-! ## In bounds -/

theorem ok_bind {β γ : Type u} (b : β) (f : β → Except Fault γ) :
    (Except.ok b >>= f) = f b := rfl

@[simp] theorem orNpos_some (pos : Nat) : orNpos (some pos) = pos := rfl

theorem add_of_lt {a b : Nat} (h : a + b < limit) : add a b = .ok (a + b) := if_pos h

theorem sub_of_le {a b : Nat} (h : b ≤ a) : sub a b = .ok (a - b) := if_pos h

theorem substr_of_le {s : List α} {pos : Nat} (h : pos ≤ s.length) (len : Nat) :
    substr s pos len = .ok ((s.drop pos).take len) := if_pos h

theorem substrFrom_of_le {s : List α} {pos : Nat} (h : pos ≤ s.length) :
    substrFrom s pos = .ok (s.drop pos) := if_pos h

/-- A string that gets longer stays a string, or `append` throws. -/
theorem append_cases (s t : List α) :
    (append s t = .ok (s ++ t) ∧ (s ++ t).length < limit) ∨
      (append s t = .error .lengthError ∧ limit ≤ (s ++ t).length) := by
  unfold append
  by_cases h : (s ++ t).length < limit
  · exact Or.inl ⟨if_pos h, h⟩
  · exact Or.inr ⟨if_neg h, Nat.not_lt.mp h⟩

end SizeT
