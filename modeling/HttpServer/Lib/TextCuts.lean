/-
  Cutting a text at a pattern — what a reader does to take apart what a writer has joined.

  1. **Program** — `cutFirst pat s` is what stands before and behind the first occurrence of `pat`;
     `cutAll c pat s` cuts at every occurrence of `c :: pat`, left to right.

  2. **Undoing a join** — a text without the first element of a pattern has no occurrence of it, nor
     one that reaches into what follows, so cutting gives back the parts that were joined
     (`cutFirst_append`, `cutAll_intercalate`).
-/
import HttpServer.Lib.ListSearch
import Mathlib.Data.List.Basic

namespace TextCuts

open ListSearch (find find_add_length_le find_append_of_some find_behind find_of_not_mem)

variable {α : Type*} [DecidableEq α] {c : α} {pat : List α}

/-- `cutFirst pat s` — the texts before and behind the first occurrence of `pat` in `s`. -/
def cutFirst (pat s : List α) : Option (List α × List α) :=
  (find pat s).map fun i => (s.take i, s.drop (i + pat.length))

/-- `cutAll c pat s` — the texts between the occurrences of `c :: pat` in `s`. -/
def cutAll (c : α) (pat s : List α) : List (List α) :=
  match _hfind : find (c :: pat) s with
  | none => [s]
  | some i => s.take i :: cutAll c pat (s.drop (i + (c :: pat).length))
termination_by s.length
decreasing_by
  have hfit := find_add_length_le _hfind
  rw [List.length_cons] at hfit
  rw [List.length_drop, List.length_cons]
  omega

/-- What follows a text that was cut stands behind the cut. -/
theorem cutFirst_append_of_some {s before behind : List α}
    (h : cutFirst pat s = some (before, behind)) (rest : List α) :
    cutFirst pat (s ++ rest) = some (before, behind ++ rest) := by
  obtain ⟨i, hfind, hparts⟩ := Option.map_eq_some_iff.mp h
  have hfit := find_add_length_le hfind
  have hbefore : s.take i = before := congrArg Prod.fst hparts
  have hbehind : s.drop (i + pat.length) = behind := congrArg Prod.snd hparts
  rw [cutFirst, find_append_of_some rest hfind, Option.map_some,
    List.take_append_of_le_length (by omega), List.drop_append_of_le_length hfit, hbefore, hbehind]

/-! ## Undoing a join -/

/-- **One cut gives back both texts.** -/
theorem cutFirst_append {part : List α} (h : c ∉ part) (rest : List α) :
    cutFirst (c :: pat) (part ++ (c :: pat ++ rest)) = some (part, rest) := by
  rw [cutFirst, find_behind h, Option.map_some, List.take_left, ← List.drop_drop, List.drop_left,
    List.drop_left]

theorem cutAll_append {part : List α} (h : c ∉ part) (rest : List α) :
    cutAll c pat (part ++ (c :: pat ++ rest)) = part :: cutAll c pat rest := by
  rw [cutAll]
  split
  · rename_i hnone
    rw [find_behind h] at hnone
    cases hnone
  · rename_i i hsome
    rw [find_behind h] at hsome
    cases hsome
    rw [List.take_left, ← List.drop_drop, List.drop_left, List.drop_left]

theorem cutAll_of_not_mem {s : List α} (h : c ∉ s) : cutAll c pat s = [s] := by
  rw [cutAll]
  split
  · rfl
  · rename_i i hsome
    rw [find_of_not_mem h] at hsome
    cases hsome

/-- **All cuts give back the joined texts.** -/
theorem cutAll_intercalate {parts : List (List α)} (hne : parts ≠ [])
    (h : ∀ part ∈ parts, c ∉ part) : cutAll c pat ((c :: pat).intercalate parts) = parts := by
  induction parts with
  | nil => exact absurd rfl hne
  | cons part parts ih =>
    have hpart : c ∉ part := h part (List.mem_cons_self ..)
    cases parts with
    | nil => rw [List.intercalate_singleton, cutAll_of_not_mem hpart]
    | cons part' parts =>
      have hrest := ih (List.cons_ne_nil _ _) fun p hp => h p (List.mem_cons_of_mem part hp)
      rw [List.intercalate_cons_cons, List.append_assoc, cutAll_append hpart, hrest]

end TextCuts
