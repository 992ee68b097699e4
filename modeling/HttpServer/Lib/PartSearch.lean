/-
  Searching a text of parts — a substring search that goes over the separators of a text.

  1. **Specification** — `firstBehind pat parts` looks at the parts one by one: in the first one in
     which the pattern occurs, it gives what stands behind the occurrence there, and the parts that
     follow.

  2. **Bridge** (`find_intercalate_none`, `find_intercalate_some`) — the search over the whole text
     finds that occurrence, for a pattern without the separator in it.
-/
import HttpServer.Lib.ListSearch
import HttpServer.Lib.SepPath

namespace PartSearch

open ListSearch (find)
open SepPath (joined)

variable {α : Type*} [DecidableEq α] {sep : α} {pat : List α} {parts : List (List α)}

/-- `firstBehind pat parts` — what stands behind the first occurrence of `pat` in its part, and the
    parts behind that one. -/
def firstBehind (pat : List α) : List (List α) → Option (List α × List (List α))
  | [] => none
  | part :: parts =>
    match find pat part with
    | some i => some (part.drop (i + pat.length), parts)
    | none => firstBehind pat parts

theorem firstBehind_cons_some {part : List α} {i : Nat} (h : find pat part = some i) :
    firstBehind pat (part :: parts) = some (part.drop (i + pat.length), parts) := by
  rw [firstBehind, h]

theorem firstBehind_cons_none {part : List α} (h : find pat part = none) :
    firstBehind pat (part :: parts) = firstBehind pat parts := by
  rw [firstBehind, h]

/-- Nothing is found exactly when no part has the pattern in it. -/
theorem firstBehind_eq_none_iff : firstBehind pat parts = none ↔ ∀ part ∈ parts, ¬pat <:+: part := by
  induction parts with
  | nil => exact iff_of_true rfl (fun part h => absurd h List.not_mem_nil)
  | cons part parts ih =>
    cases hfind : find pat part with
    | none =>
      rw [firstBehind_cons_none hfind, ih, List.forall_mem_cons]
      exact (and_iff_right (ListSearch.find_eq_none_iff.mp hfind)).symm
    | some i =>
      rw [firstBehind_cons_some hfind, List.forall_mem_cons]
      refine iff_of_false (by simp) ?_
      rintro ⟨hnot, -⟩
      rw [← ListSearch.find_eq_none_iff, hfind] at hnot
      cases hnot

/-- What is found stands in a part. -/
theorem subset_of_firstBehind {t : List α} {behind : List (List α)}
    (h : firstBehind pat parts = some (t, behind)) : ∃ part ∈ parts, t ⊆ part := by
  induction parts with
  | nil => cases h
  | cons part parts ih =>
    cases hfind : find pat part with
    | none =>
      rw [firstBehind_cons_none hfind] at h
      obtain ⟨part', hmem, hsub⟩ := ih h
      exact ⟨part', List.mem_cons_of_mem part hmem, hsub⟩
    | some i =>
      rw [firstBehind_cons_some hfind] at h
      cases h
      exact ⟨part, List.mem_cons_self .., List.drop_subset _ part⟩

/-! ## The search over the text -/

theorem find_intercalate_none (hsep : sep ∉ pat) (hne : pat ≠ [])
    (h : firstBehind pat parts = none) : find pat ([sep].intercalate parts) = none := by
  induction parts with
  | nil =>
    rw [List.intercalate_nil, ListSearch.find_eq_none_iff]
    exact fun hocc => hne (List.infix_nil.mp hocc)
  | cons part parts ih =>
    have hpart : find pat part = none := by
      by_contra hsome
      obtain ⟨i, hi⟩ := Option.ne_none_iff_exists'.mp hsome
      rw [firstBehind_cons_some hi] at h
      cases h
    rw [firstBehind_cons_none hpart] at h
    by_cases hparts : parts = []
    · rw [hparts, List.intercalate_singleton, hpart]
    · rw [List.intercalate_cons_of_ne_nil hparts, List.append_assoc, List.singleton_append,
        ListSearch.find_append_cons hsep hne, hpart, ih h]
      rfl

/-- **The search finds the occurrence of the first part that has one.** -/
theorem find_intercalate_some {t : List α} {behind : List (List α)} (hsep : sep ∉ pat)
    (hne : pat ≠ []) (h : firstBehind pat parts = some (t, behind)) :
    ∃ front, [sep].intercalate parts = front ++ (pat ++ (t ++ joined sep behind)) ∧
      find pat ([sep].intercalate parts) = some front.length := by
  induction parts with
  | nil => cases h
  | cons part parts ih =>
    cases hfind : find pat part with
    | some i =>
      rw [firstBehind_cons_some hfind] at h
      cases h
      have hfit := ListSearch.find_add_length_le hfind
      refine ⟨part.take i, ?_, ?_⟩
      · rw [SepPath.intercalate_cons_eq_joined]
        conv_lhs => rw [ListSearch.find_split hfind]
        simp only [List.append_assoc]
      · have hlength : (part.take i).length = i := List.length_take_of_le (by omega)
        rw [SepPath.intercalate_cons_eq_joined, ListSearch.find_append_of_some _ hfind, hlength]
    | none =>
      rw [firstBehind_cons_none hfind] at h
      have hparts : parts ≠ [] := by
        rintro rfl
        cases h
      obtain ⟨front, htext, hfound⟩ := ih h
      refine ⟨part ++ sep :: front, ?_, ?_⟩
      · rw [List.intercalate_cons_of_ne_nil hparts, htext]
        simp only [List.append_assoc, List.cons_append, List.nil_append]
      · rw [List.intercalate_cons_of_ne_nil hparts, List.append_assoc, List.singleton_append,
          ListSearch.find_append_cons hsep hne, hfind, hfound, List.length_append,
          List.length_cons]
        show some (front.length + (part.length + 1)) = some (part.length + (front.length + 1))
        congr 1
        omega

end PartSearch
