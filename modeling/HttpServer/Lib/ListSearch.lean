/-
  Substring search over lists — the general fact behind every `find` of a string class.

  1. **Program** — `find pat s` scans `s` left to right for the first suffix that starts with
     `pat`; `findFrom pat s pos` is the same scan started at index `pos`.

  2. **Specification** — position-based: `i` is in range, `pat` is a prefix of the suffix at `i`,
     and of no suffix at an earlier index (`find_eq_some_iff`, `findFrom_eq_some_iff`).

  3. **Locality** — what later proofs use: an occurrence found in `s` is found again in any
     extension `s ++ t` (`find_append_of_some`), an occurrence found in an extension and ending
     inside `s` was already the one found in `s` (`find_of_find_append`), a separator that is not in
     the pattern cannot be straddled (`find_append_cons`), and behind a text without its first
     element a pattern is found where it was put (`find_behind`).
-/
import Mathlib.Data.List.Infix

namespace ListSearch

variable {α : Type*} [DecidableEq α]

/-! ## The scan -/

/-- `find pat s` — the index of the first occurrence of `pat` in `s`. -/
def find (pat : List α) : List α → Option Nat
  | [] => if pat = [] then some 0 else none
  | a :: s => if pat <+: a :: s then some 0 else (find pat s).map (· + 1)

/-- `findFrom pat s pos` — the index of the first occurrence of `pat` in `s` at `pos` or later. -/
def findFrom (pat s : List α) (pos : Nat) : Option Nat :=
  if pos ≤ s.length then (find pat (s.drop pos)).map (· + pos) else none

/-! ## The specification -/

/-- **The scan is the least occurrence.** -/
theorem find_eq_some_iff {pat s : List α} {i : Nat} :
    find pat s = some i ↔
      i ≤ s.length ∧ pat <+: s.drop i ∧ ∀ j < i, ¬ pat <+: s.drop j := by
  induction s generalizing i with
  | nil =>
    by_cases hp : pat = []
    · simp only [find, if_pos hp, Option.some.injEq]
      constructor
      · rintro rfl
        exact ⟨Nat.le_refl _, by simp [hp], fun j hj => absurd hj (Nat.not_lt_zero j)⟩
      · rintro ⟨hi, -, -⟩
        exact (Nat.le_zero.mp hi).symm
    · simp [find, hp]
  | cons a s ih =>
    by_cases hp : pat <+: a :: s
    · simp only [find, if_pos hp, Option.some.injEq]
      constructor
      · rintro rfl
        exact ⟨Nat.zero_le _, hp, fun j hj => absurd hj (Nat.not_lt_zero j)⟩
      · rintro ⟨-, -, hmin⟩
        rcases Nat.eq_zero_or_pos i with h | h
        · exact h.symm
        · exact absurd hp (hmin 0 h)
    · simp only [find, if_neg hp, Option.map_eq_some_iff]
      constructor
      · rintro ⟨k, hk, rfl⟩
        obtain ⟨hle, hpre, hmin⟩ := ih.mp hk
        refine ⟨by simpa using hle, by simpa using hpre, fun j hj => ?_⟩
        cases j with
        | zero => exact hp
        | succ j => simpa using hmin j (by omega)
      · rintro ⟨hle, hpre, hmin⟩
        cases i with
        | zero => exact absurd hpre hp
        | succ k =>
          refine ⟨k, ih.mpr ⟨by simpa using hle, by simpa using hpre, fun j hj => ?_⟩, rfl⟩
          simpa using hmin (j + 1) (by omega)

/-- The scan fails exactly when the pattern does not occur. -/
theorem find_eq_none_iff {pat s : List α} : find pat s = none ↔ ¬ pat <:+: s := by
  induction s with
  | nil => by_cases hp : pat = [] <;> simp [find, hp]
  | cons a s ih =>
    by_cases hp : pat <+: a :: s
    · simp [find, hp, List.infix_cons_iff]
    · simp [find, hp, List.infix_cons_iff, ih]

theorem find_eq_none_of_append {pat s t : List α} (h : find pat (s ++ t) = none) :
    find pat s = none := by
  rw [find_eq_none_iff] at h ⊢
  exact fun hs => h (hs.trans (List.prefix_append s t).isInfix)

theorem find_isSome_iff {pat s : List α} : (find pat s).isSome ↔ pat <:+: s := by
  rw [Option.isSome_iff_ne_none, Ne, find_eq_none_iff, not_not]

/-- An occurrence fits. -/
theorem find_add_length_le {pat s : List α} {i : Nat} (h : find pat s = some i) :
    i + pat.length ≤ s.length := by
  obtain ⟨hle, hpre, -⟩ := find_eq_some_iff.mp h
  have := hpre.length_le
  rw [List.length_drop] at this
  omega

/-- The text around the first occurrence. -/
theorem find_split {pat s : List α} {i : Nat} (h : find pat s = some i) :
    s = s.take i ++ (pat ++ s.drop (i + pat.length)) := by
  obtain ⟨-, hpre, -⟩ := find_eq_some_iff.mp h
  have hd : s.drop i = pat ++ s.drop (i + pat.length) := by
    obtain ⟨t, ht⟩ := hpre
    rw [← List.drop_drop, ← ht, List.drop_left]
  rw [← hd, List.take_append_drop]

/-- **The scan from a position is the least occurrence at or after it.** -/
theorem findFrom_eq_some_iff {pat s : List α} {pos i : Nat} :
    findFrom pat s pos = some i ↔
      pos ≤ i ∧ i ≤ s.length ∧ pat <+: s.drop i ∧
        ∀ j, pos ≤ j → j < i → ¬ pat <+: s.drop j := by
  unfold findFrom
  by_cases hpos : pos ≤ s.length
  · rw [if_pos hpos, Option.map_eq_some_iff]
    constructor
    · rintro ⟨k, hk, rfl⟩
      obtain ⟨hle, hpre, hmin⟩ := find_eq_some_iff.mp hk
      rw [List.length_drop] at hle
      rw [List.drop_drop, Nat.add_comm] at hpre
      refine ⟨by omega, by omega, hpre, fun j hj hjk => ?_⟩
      have := hmin (j - pos) (by omega)
      rwa [List.drop_drop, show pos + (j - pos) = j from by omega] at this
    · rintro ⟨hpi, hle, hpre, hmin⟩
      refine ⟨i - pos, find_eq_some_iff.mpr ⟨?_, ?_, fun j hj => ?_⟩, by omega⟩
      · rw [List.length_drop]; omega
      · rwa [List.drop_drop, show pos + (i - pos) = i from by omega]
      · rw [List.drop_drop]
        exact hmin (pos + j) (by omega) (by omega)
  · rw [if_neg hpos]
    constructor
    · intro h; cases h
    · rintro ⟨hpi, hle, -, -⟩; omega

/-! ## Locality: occurrences under extension and truncation -/

omit [DecidableEq α] in
/-- A pattern that fits before the end of `s` is at an index of `s ++ t` iff it is there in `s`. -/
theorem prefix_drop_append_iff {pat s t : List α} {i : Nat} (h : i + pat.length ≤ s.length) :
    pat <+: (s ++ t).drop i ↔ pat <+: s.drop i := by
  rw [List.drop_append_of_le_length (by omega)]
  constructor
  · intro hp
    exact List.prefix_of_prefix_length_le hp (List.prefix_append _ _)
      (by rw [List.length_drop]; omega)
  · exact fun hp => hp.trans (List.prefix_append _ _)

/-- **Extension.**  What is found in `s` is found in `s ++ t`. -/
theorem find_append_of_some {pat s : List α} (t : List α) {i : Nat} (h : find pat s = some i) :
    find pat (s ++ t) = some i := by
  have hfit := find_add_length_le h
  obtain ⟨hle, hpre, hmin⟩ := find_eq_some_iff.mp h
  refine find_eq_some_iff.mpr ⟨by rw [List.length_append]; omega,
    (prefix_drop_append_iff hfit).mpr hpre, fun j hj hp => hmin j hj ?_⟩
  exact (prefix_drop_append_iff (by omega)).mp hp

/-- **Truncation.**  What is found in `s ++ t` and ends inside `s` is found in `s`. -/
theorem find_of_find_append {pat s t : List α} {i : Nat} (h : find pat (s ++ t) = some i)
    (hfit : i + pat.length ≤ s.length) : find pat s = some i := by
  obtain ⟨-, hpre, hmin⟩ := find_eq_some_iff.mp h
  refine find_eq_some_iff.mpr ⟨by omega, (prefix_drop_append_iff hfit).mp hpre,
    fun j hj hp => hmin j hj ?_⟩
  exact (prefix_drop_append_iff (by omega)).mpr hp

/-- `find_of_find_append` on a prefix given by its length. -/
theorem find_take_of_some {pat s : List α} {i n : Nat} (h : find pat s = some i)
    (hfit : i + pat.length ≤ n) : find pat (s.take n) = some i := by
  have hlen := find_add_length_le h
  rw [← List.take_append_drop n s] at h
  exact find_of_find_append h (by rw [List.length_take]; omega)

/-! ## Separators: an element outside the pattern cannot be straddled -/

omit [DecidableEq α] in
/-- With a separator `c` between `s` and `t`, a pattern without `c` that starts inside `s` also
    ends inside `s`. -/
theorem fits_before_sep {pat s t : List α} {c : α} (hc : c ∉ pat) {i : Nat} (hi : i ≤ s.length)
    (hp : pat <+: (s ++ c :: t).drop i) : i + pat.length ≤ s.length := by
  by_contra hlt
  rw [List.drop_append_of_le_length hi] at hp
  obtain ⟨u, hu⟩ := hp
  have hlen : (s.drop i).length < pat.length := by rw [List.length_drop]; omega
  have hget : (pat ++ u)[(s.drop i).length]? = some c := by
    rw [hu, List.getElem?_append_right (Nat.le_refl _)]
    simp
  rw [List.getElem?_append_left hlen] at hget
  exact hc (List.mem_of_getElem? hget)

/-- **The search splits at a separator**: first the part before it, then the part after it. -/
theorem find_append_cons {pat : List α} {c : α} (hc : c ∉ pat) (hne : pat ≠ []) (s t : List α) :
    find pat (s ++ c :: t) =
      match find pat s with
      | some i => some i
      | none => (find pat t).map (· + (s.length + 1)) := by
  induction s with
  | nil =>
    have hnp : ¬ pat <+: c :: t := by
      intro hp
      obtain ⟨p, ps, rfl⟩ := List.exists_cons_of_ne_nil hne
      exact hc (List.mem_cons.mpr (Or.inl (List.cons_prefix_cons.mp hp).1.symm))
    simp [find, hnp, hne]
  | cons a s ih =>
    -- an occurrence at the head ends before the separator, so it is one of `a :: s`
    have hiff : pat <+: a :: (s ++ c :: t) ↔ pat <+: a :: s := by
      constructor
      · intro hp
        have hfit := fits_before_sep (s := a :: s) (t := t) hc (Nat.zero_le _) (i := 0)
          (by simpa using hp)
        exact (prefix_drop_append_iff (s := a :: s) (t := c :: t) (i := 0) hfit).mp
          (by simpa using hp)
      · exact fun hp => hp.trans (List.prefix_append (a :: s) (c :: t))
    simp only [List.cons_append, find]
    by_cases hp : pat <+: a :: s
    · rw [if_pos (hiff.mpr hp), if_pos hp]
    · rw [if_neg (fun h => hp (hiff.mp h)), if_neg hp, ih]
      cases hs : find pat s with
      | some i => rfl
      | none =>
        simp only [Option.map_none, Option.map_map, List.length_cons]
        congr 1

/-- Behind a text without its first element, a pattern is found where it was put. -/
theorem find_behind {pat part : List α} {c : α} (h : c ∉ part) (rest : List α) :
    find (c :: pat) (part ++ (c :: pat ++ rest)) = some part.length := by
  refine find_eq_some_iff.mpr ⟨?_, ?_, ?_⟩
  · rw [List.length_append]
    omega
  · rw [List.drop_left]
    exact List.prefix_append _ _
  · intro j hj hocc
    rw [List.drop_append_of_le_length hj.le, List.drop_eq_getElem_cons hj] at hocc
    have hc := (List.cons_prefix_cons.mp hocc).1
    exact h (hc ▸ List.getElem_mem hj)

theorem find_of_not_mem {pat s : List α} {c : α} (h : c ∉ s) : find (c :: pat) s = none := by
  rw [find_eq_none_iff]
  intro hocc
  exact h (hocc.subset (List.mem_cons_self ..))

end ListSearch
