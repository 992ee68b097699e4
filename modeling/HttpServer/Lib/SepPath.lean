/-
  Joined parts — texts made of parts that are each written behind a separator, as the components of
  an absolute path are, or with the separator between them, as those of a relative path are.

  1. **Program** — `joined sep parts` writes `sep` and then the part, for every part in turn;
     `[sep].intercalate parts` writes `sep` between them, and `partsOf sep` reads such a text back.

  2. **The crux (`joined_sep_prefix_iff`)** — a prefix test on two such texts, with one more
     separator behind the shorter one, is the prefix test on the lists of parts, and a proper one.
     It needs that no part has the separator in it, and nothing else: parts may be empty, may be
     prefixes of each other and may repeat.

  3. **Bridge** — `part_prefix_iff` is the step: with a separator behind it, a part can only be a
     prefix of a text by being the first part of that text.

  4. **Between (`partsOf_intercalate`, `intercalate_append`)** — parts that are not empty and have no
     separator in them are read back whole, and two lists of parts are joined by one separator.
-/
import Mathlib.Data.List.Infix

namespace SepPath

variable {α : Type*} {sep : α}

/-- `joined sep parts` — every part behind its own separator. -/
def joined (sep : α) (parts : List (List α)) : List α := parts.flatMap fun part => sep :: part

@[simp] theorem joined_nil : joined sep [] = [] := rfl

@[simp] theorem joined_cons (part : List α) (parts : List (List α)) :
    joined sep (part :: parts) = sep :: (part ++ joined sep parts) := by
  simp [joined]

theorem joined_append (parts parts' : List (List α)) :
    joined sep (parts ++ parts') = joined sep parts ++ joined sep parts' :=
  List.flatMap_append

/-- A text behind a part is empty or starts with the separator. -/
theorem joined_eq_nil_or_cons (parts : List (List α)) :
    joined sep parts = [] ∨ ∃ t, joined sep parts = sep :: t := by
  cases parts with
  | nil => exact Or.inl rfl
  | cons part parts => exact Or.inr ⟨_, joined_cons part parts⟩

/-- **The step**: two parts behind which a separator follows are compared whole. -/
theorem part_prefix_iff {a b x y : List α} (ha : sep ∉ a) (hb : sep ∉ b)
    (hy : y = [] ∨ ∃ t, y = sep :: t) :
    a ++ sep :: x <+: b ++ y ↔ a = b ∧ sep :: x <+: y := by
  induction a generalizing b with
  | nil =>
    cases b with
    | nil => simp
    | cons c b =>
      have hc : sep ≠ c := fun h => hb (h ▸ List.mem_cons_self ..)
      simp [List.cons_prefix_cons, hc]
  | cons c a ih =>
    have ha' : sep ∉ a := fun h => ha (List.mem_cons_of_mem c h)
    cases b with
    | nil =>
      have hc : c ≠ sep := fun h => ha (h ▸ List.mem_cons_self ..)
      rcases hy with rfl | ⟨t, rfl⟩
      · simp
      · simp [List.cons_prefix_cons, hc]
    | cons d b =>
      have hb' : sep ∉ b := fun h => hb (List.mem_cons_of_mem d h)
      rw [List.cons_append, List.cons_append, List.cons_prefix_cons, ih ha' hb', List.cons.injEq,
        and_assoc]

/-- **A prefix test with a separator at its end is a proper prefix of the parts.** -/
theorem joined_sep_prefix_iff {parts parts' : List (List α)} (h : ∀ part ∈ parts, sep ∉ part)
    (h' : ∀ part ∈ parts', sep ∉ part) :
    joined sep parts ++ [sep] <+: joined sep parts' ↔ parts <+: parts' ∧ parts ≠ parts' := by
  induction parts generalizing parts' with
  | nil =>
    cases parts' with
    | nil => simp
    | cons part parts' => simp [List.cons_prefix_cons]
  | cons part parts ih =>
    cases parts' with
    | nil => simp
    | cons part' parts' =>
      have hpart : sep ∉ part := h part (List.mem_cons_self ..)
      have hpart' : sep ∉ part' := h' part' (List.mem_cons_self ..)
      have htail : ∀ p ∈ parts, sep ∉ p := fun p hp => h p (List.mem_cons_of_mem _ hp)
      have htail' : ∀ p ∈ parts', sep ∉ p := fun p hp => h' p (List.mem_cons_of_mem _ hp)
      have hrest := ih htail htail'
      -- what stands behind the first part starts with the separator, on the left in every case
      obtain ⟨x, hx⟩ : ∃ x, joined sep parts ++ [sep] = sep :: x := by
        cases parts with
        | nil => exact ⟨[], rfl⟩
        | cons q parts => exact ⟨_, by rw [joined_cons, List.cons_append]⟩
      rw [joined_cons, joined_cons, List.cons_append, List.cons_prefix_cons, List.append_assoc, hx,
        part_prefix_iff hpart hpart' (joined_eq_nil_or_cons parts'), ← hx, hrest,
        List.cons_prefix_cons]
      constructor
      · rintro ⟨-, rfl, hpre, hne⟩
        exact ⟨⟨rfl, hpre⟩, fun heq => hne (List.cons.inj heq).2⟩
      · rintro ⟨⟨rfl, hpre⟩, hne⟩
        exact ⟨rfl, rfl, hpre, fun heq => hne (by rw [heq])⟩

/-! ## Separators between the parts -/

section Between

/-- Two texts, neither of them without a part, are joined by one separator. -/
theorem intercalate_append {parts parts' : List (List α)} (h : parts ≠ []) (h' : parts' ≠ []) :
    [sep].intercalate (parts ++ parts') =
      [sep].intercalate parts ++ sep :: [sep].intercalate parts' := by
  induction parts with
  | nil => exact absurd rfl h
  | cons part parts ih =>
    by_cases hparts : parts = []
    · rw [hparts, List.singleton_append, List.intercalate_cons_of_ne_nil h',
        List.intercalate_singleton, List.append_assoc, List.singleton_append]
    · have hne : parts ++ parts' ≠ [] := fun hnil => hparts (List.append_eq_nil_iff.mp hnil).1
      rw [List.cons_append, List.intercalate_cons_of_ne_nil hne,
        List.intercalate_cons_of_ne_nil hparts, ih hparts]
      simp only [List.append_assoc]

/-- Behind the first part, every part stands behind a separator. -/
theorem intercalate_cons_eq_joined (part : List α) (parts : List (List α)) :
    [sep].intercalate (part :: parts) = part ++ joined sep parts := by
  induction parts generalizing part with
  | nil => rw [List.intercalate_singleton, joined_nil, List.append_nil]
  | cons part' parts ih =>
    rw [List.intercalate_cons_of_ne_nil (List.cons_ne_nil _ _), ih, joined_cons,
      List.append_assoc, List.singleton_append]

/-- What a text of parts has in it is a separator or stands in a part. -/
theorem mem_intercalate {parts : List (List α)} {x : α} (h : x ∈ [sep].intercalate parts) :
    x = sep ∨ ∃ part ∈ parts, x ∈ part := by
  induction parts with
  | nil => exact absurd h List.not_mem_nil
  | cons part parts ih =>
    by_cases hparts : parts = []
    · rw [hparts, List.intercalate_singleton] at h
      exact Or.inr ⟨part, List.mem_cons_self .., h⟩
    · rw [List.intercalate_cons_of_ne_nil hparts, List.append_assoc, List.mem_append,
        List.mem_append, List.mem_singleton] at h
      rcases h with hpart | rfl | hrest
      · exact Or.inr ⟨part, List.mem_cons_self .., hpart⟩
      · exact Or.inl rfl
      · rcases ih hrest with rfl | ⟨part', hmem, hx⟩
        · exact Or.inl rfl
        · exact Or.inr ⟨part', List.mem_cons_of_mem part hmem, hx⟩

/-- The first thing in a text is that of its first part, if there is one in there. -/
theorem intercalate_head? {between part : List α} {parts : List (List α)} (h : part ≠ []) :
    (between.intercalate (part :: parts)).head? = part.head? := by
  by_cases hparts : parts = []
  · rw [hparts, List.intercalate_singleton]
  · rw [List.intercalate_cons_of_ne_nil hparts, List.append_assoc,
      List.head?_append_of_ne_nil _ h]

/-- The last thing in a text is that of its last part, if there is one in there. -/
theorem intercalate_getLast? {part : List α} {parts : List (List α)} (h : part ≠ []) :
    ([sep].intercalate (parts ++ [part])).getLast? = part.getLast? := by
  by_cases hparts : parts = []
  · rw [hparts, List.nil_append, List.intercalate_singleton]
  · rw [intercalate_append hparts (List.cons_ne_nil _ _), List.intercalate_singleton,
      List.getLast?_append_of_ne_nil _ (List.cons_ne_nil _ _), List.getLast?_cons,
      List.getLast?_eq_some_getLast h, Option.getD_some]

/-- A text of parts that are not empty is not empty, unless there is no part. -/
theorem intercalate_eq_nil_iff {between : List α} {parts : List (List α)}
    (h : ∀ part ∈ parts, part ≠ []) : between.intercalate parts = [] ↔ parts = [] := by
  constructor
  · intro hnil
    by_contra hparts
    obtain ⟨part, rest, rfl⟩ := List.exists_cons_of_ne_nil hparts
    have hpart : part ≠ [] := h part (List.mem_cons_self ..)
    have hhead : (between.intercalate (part :: rest)).head? = part.head? := intercalate_head? hpart
    rw [hnil, List.head?_nil] at hhead
    exact hpart (List.head?_eq_none_iff.mp hhead.symm)
  · intro hnil
    rw [hnil, List.intercalate_nil]

/-- A text of parts that are not empty has no separator at either end. -/
theorem intercalate_ends {parts : List (List α)} (hne : ∀ part ∈ parts, part ≠ [])
    (hsep : ∀ part ∈ parts, sep ∉ part) :
    ([sep].intercalate parts).head? ≠ some sep ∧ ([sep].intercalate parts).getLast? ≠ some sep := by
  by_cases hparts : parts = []
  · rw [hparts, List.intercalate_nil]
    exact ⟨by simp, by simp⟩
  · constructor
    · obtain ⟨first, rest, rfl⟩ := List.exists_cons_of_ne_nil hparts
      have hfirst : first ∈ first :: rest := List.mem_cons_self ..
      rw [intercalate_head? (hne first hfirst)]
      intro hhead
      exact hsep first hfirst (List.mem_of_head? hhead)
    · obtain ⟨init, last, rfl⟩ : ∃ init last, parts = init ++ [last] :=
        ⟨_, _, (List.dropLast_append_getLast hparts).symm⟩
      have hlast : last ∈ init ++ [last] :=
        List.mem_append_right init (List.mem_singleton_self last)
      rw [intercalate_getLast? (hne last hlast)]
      intro hend
      exact hsep last hlast (List.mem_of_getLast? hend)

/-- `partsOf sep s` — what stands between the separators of a text; the empty text has no part. -/
def partsOf [BEq α] (sep : α) (s : List α) : List (List α) :=
  match s with
  | [] => []
  | x :: s => (x :: s).splitOn sep

theorem partsOf_of_ne_nil [BEq α] {s : List α} (h : s ≠ []) : partsOf sep s = s.splitOn sep := by
  obtain ⟨x, s', rfl⟩ := List.exists_cons_of_ne_nil h
  rfl

variable [BEq α] [LawfulBEq α]

/-- **Parts that are not empty are read back.** -/
theorem partsOf_intercalate {parts : List (List α)} (hne : ∀ part ∈ parts, part ≠ [])
    (hsep : ∀ part ∈ parts, sep ∉ part) : partsOf sep ([sep].intercalate parts) = parts := by
  by_cases hparts : parts = []
  · rw [hparts, List.intercalate_nil]
    rfl
  · have htext : [sep].intercalate parts ≠ [] :=
      fun hnil => hparts ((intercalate_eq_nil_iff hne).mp hnil)
    rw [partsOf_of_ne_nil htext, List.splitOn_intercalate sep hsep hparts]

/-- No separator is left in a part, and nothing in it is new. -/
theorem of_mem_splitOn {s part : List α} (h : part ∈ s.splitOn sep) : sep ∉ part ∧ part ⊆ s := by
  induction s generalizing part with
  | nil =>
    rw [List.splitOn_nil, List.mem_singleton] at h
    rw [h]
    exact ⟨List.not_mem_nil, List.Subset.refl []⟩
  | cons x s ih =>
    rw [List.splitOn_cons_eq_if_modifyHead] at h
    by_cases hx : (x == sep) = true
    · rw [if_pos hx] at h
      rcases List.mem_cons.mp h with rfl | hmem
      · exact ⟨List.not_mem_nil, List.nil_subset _⟩
      · exact ⟨(ih hmem).1, List.Subset.trans (ih hmem).2 (List.subset_cons_self x s)⟩
    · rw [if_neg hx] at h
      obtain ⟨first, rest, hsplit⟩ := List.exists_cons_of_ne_nil (List.splitOn_ne_nil sep s)
      rw [hsplit] at h ih
      rcases List.mem_cons.mp h with rfl | hmem
      · -- the first part has got one more in front, which is not the separator
        obtain ⟨hsep, hsub⟩ := ih (List.mem_cons_self ..)
        refine ⟨fun hmem => ?_, List.cons_subset_cons x hsub⟩
        rcases List.mem_cons.mp hmem with heq | htail
        · exact hx (beq_iff_eq.mpr heq.symm)
        · exact hsep htail
      · obtain ⟨hsep, hsub⟩ := ih (List.mem_cons_of_mem first hmem)
        exact ⟨hsep, List.Subset.trans hsub (List.subset_cons_self x s)⟩

end Between

end SepPath
