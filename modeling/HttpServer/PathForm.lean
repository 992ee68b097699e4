/-
  What `normalize_path` computes — a safe path, and the same one however the path was cut.

  1. **Specification** — on components: `pathMoves path` reads the components of a path, NULs
     deleted and backslashes turned into slashes, as the moves of `StackPath`, and `normalParts`
     resolves them from the empty stack.  `SafePart` is a name that can only mean an entry of the
     directory before it.

  2. **The crux (`collectParts_eq`)** — the loop with its pending `current` is that resolution, from
     any stack: `current` is the text since the last separator, so `current ++ s` has the components
     that are still to come.

  3. **Bridge** — `normalizePath_eq`; the separators that the code strips in front are empty
     components, and those do nothing.

  4. **Composition** (`resolve_pathMoves_normalizePath`) — a normalised path is safe, so its own
     moves put back what it was made of.
-/
import HttpServer.StaticFile
import HttpServer.Lib.StackPath

namespace HttpServer

open SepPath (partsOf)
open StackPath (Move resolve NeverBelow)

/-! ## The moves of a path -/

/-- A path without its NULs and with slashes for backslashes. -/
def cleanPath (path : Bytes) : Bytes :=
  (path.filter (· ≠ 0)).map fun b => if b = 92 then sepByte else b

/-- What a component means. -/
def pathMove (part : Bytes) : Move Bytes :=
  if part = [] ∨ part = str "." then .stay
  else if part = str ".." then .up
  else .push part

/-- The components of a path, from the left. -/
def pathMoves (path : Bytes) : List (Move Bytes) :=
  ((cleanPath path).splitOn sepByte).map pathMove

/-- The components that are left when a path is resolved. -/
def normalParts (path : Bytes) : List Bytes := resolve [] (pathMoves path)

/-- A name that means an entry of a directory, on every system. -/
structure SafePart (part : Bytes) : Prop where
  nonempty : part ≠ []
  not_dot : part ≠ str "."
  not_dotdot : part ≠ str ".."
  no_separator : sepByte ∉ part
  no_backslash : 92 ∉ part
  no_nul : 0 ∉ part

/-- A safe name is put on the stack. -/
theorem pathMove_of_safe {part : Bytes} (h : SafePart part) : pathMove part = .push part := by
  have hstay : ¬(part = [] ∨ part = str ".") := by
    rintro (hnil | hdot)
    · exact h.nonempty hnil
    · exact h.not_dot hdot
  rw [pathMove, if_neg hstay, if_neg h.not_dotdot]

/-- What is put on the stack is the component itself, which is none of the special ones. -/
theorem pathMove_eq_push {part part' : Bytes} (h : pathMove part = .push part') :
    part' = part ∧ part ≠ [] ∧ part ≠ str "." ∧ part ≠ str ".." := by
  unfold pathMove at h
  by_cases hstay : part = [] ∨ part = str "."
  · rw [if_pos hstay] at h
    cases h
  · rw [if_neg hstay] at h
    by_cases hup : part = str ".."
    · rw [if_pos hup] at h
      cases h
    · rw [if_neg hup] at h
      cases h
      exact ⟨rfl, fun hnil => hstay (Or.inl hnil), fun hdot => hstay (Or.inr hdot), hup⟩

/-! ## Cleaning -/

theorem cleanPath_append (p q : Bytes) : cleanPath (p ++ q) = cleanPath p ++ cleanPath q := by
  rw [cleanPath, List.filter_append, List.map_append]
  rfl

/-- A separator is not touched. -/
theorem cleanPath_append_sep (p q : Bytes) :
    cleanPath (p ++ sepByte :: q) = cleanPath p ++ sepByte :: cleanPath q :=
  cleanPath_append p (sepByte :: q)

/-- No NUL and no backslash is left. -/
theorem not_mem_cleanPath (path : Bytes) : 0 ∉ cleanPath path ∧ 92 ∉ cleanPath path := by
  constructor
  · intro h
    obtain ⟨b, hb, heq⟩ := List.mem_map.mp h
    have hne : b ≠ 0 := by simpa using (List.mem_filter.mp hb).2
    by_cases hslash : b = 92
    · rw [if_pos hslash] at heq
      exact absurd heq (by decide)
    · rw [if_neg hslash] at heq
      exact hne heq
  · intro h
    obtain ⟨b, -, heq⟩ := List.mem_map.mp h
    by_cases hslash : b = 92
    · rw [if_pos hslash] at heq
      exact absurd heq (by decide)
    · rw [if_neg hslash] at heq
      exact hslash heq

/-- A path without them is clean. -/
theorem cleanPath_of_clean {path : Bytes} (hnul : 0 ∉ path) (hback : 92 ∉ path) :
    cleanPath path = path := by
  have hfilter : path.filter (· ≠ 0) = path := by
    refine List.filter_eq_self.mpr ?_
    intro b hb
    exact decide_eq_true (fun hzero => hnul (hzero ▸ hb))
  have hmap : ∀ b ∈ path, (if b = 92 then sepByte else b) = id b := by
    intro b hb
    have hne : b ≠ 92 := fun hslash => hback (hslash ▸ hb)
    exact if_neg hne
  rw [cleanPath, hfilter, List.map_congr_left hmap, List.map_id]

/-- The moves of two paths with a separator between them. -/
theorem pathMoves_append_sep (p q : Bytes) :
    pathMoves (p ++ sepByte :: q) = pathMoves p ++ pathMoves q := by
  rw [pathMoves, cleanPath_append_sep, List.splitOn_append_cons_self, List.map_append]
  rfl

/-! ## The loop -/

/-- A finished `current` makes its move. -/
theorem closePart_eq (parts : List Bytes) (current : Bytes) :
    closePart parts current = (pathMove current).apply parts := by
  unfold closePart pathMove
  by_cases hstay : current = [] ∨ current = str "."
  · have hnot : ¬(current ≠ [] ∧ current ≠ str ".") := by
      rintro ⟨hne, hdot⟩
      exact hstay.elim hne hdot
    rw [if_neg hnot, if_pos hstay]
    rfl
  · have hyes : current ≠ [] ∧ current ≠ str "." :=
      ⟨fun h => hstay (Or.inl h), fun h => hstay (Or.inr h)⟩
    rw [if_pos hyes, if_neg hstay]
    by_cases hup : current = str ".."
    · rw [if_pos hup, if_pos hup]
      rfl
    · rw [if_neg hup, if_neg hup]
      rfl

/-- **The loop resolves**, from any stack and in the middle of any component. -/
theorem collectParts_eq (s : Bytes) :
    ∀ (parts : List Bytes) (current : Bytes), sepByte ∉ current →
      collectParts s parts current =
        resolve parts (((current ++ s).splitOn sepByte).map pathMove) := by
  induction s with
  | nil =>
    intro parts current hcurrent
    rw [collectParts, closePart_eq, List.append_nil, List.splitOn_eq_singleton hcurrent]
    rfl
  | cons b s ih =>
    intro parts current hcurrent
    by_cases hb : b = sepByte
    · rw [collectParts, if_pos hb, closePart_eq, ih _ [] List.not_mem_nil, hb,
        List.splitOn_append_cons_self_of_not_mem hcurrent]
      rfl
    · have hlonger : sepByte ∉ current ++ [b] := by
        intro hmem
        rcases List.mem_append.mp hmem with hold | hnew
        · exact hcurrent hold
        · exact hb (List.mem_singleton.mp hnew).symm
      rw [collectParts, if_neg hb, ih _ _ hlonger, List.append_assoc, List.singleton_append]

/-- Separators in front are empty components. -/
theorem resolve_dropWhile_sep (stack : List Bytes) (s : Bytes) :
    resolve stack (((s.dropWhile (· = sepByte)).splitOn sepByte).map pathMove) =
      resolve stack ((s.splitOn sepByte).map pathMove) := by
  induction s with
  | nil => rfl
  | cons b s ih =>
    by_cases hb : b = sepByte
    · rw [List.dropWhile_cons_of_pos (by simpa using hb), ih, hb,
        ← List.nil_append (sepByte :: s),
        List.splitOn_append_cons_self_of_not_mem List.not_mem_nil]
      rfl
    · rw [List.dropWhile_cons_of_neg (by simpa using hb)]

/-- **`normalize_path` resolves the components of the path.** -/
theorem normalizePath_eq (path : Bytes) :
    normalizePath path = [sepByte].intercalate (normalParts path) := by
  show [sepByte].intercalate (collectParts ((cleanPath path).dropWhile (· = sepByte)) [] []) = _
  rw [collectParts_eq _ _ _ List.not_mem_nil, List.nil_append, resolve_dropWhile_sep]
  rfl

/-! ## Safe and canonical -/

/-- What is left of a path is safe. -/
theorem safe_of_mem_normalParts {path part : Bytes} (h : part ∈ normalParts path) :
    SafePart part := by
  rcases StackPath.mem_resolve h with hnil | hpush
  · exact absurd hnil List.not_mem_nil
  · obtain ⟨part', hmem, hmove⟩ := List.mem_map.mp hpush
    obtain ⟨rfl, hne, hdot, hup⟩ := pathMove_eq_push hmove
    obtain ⟨hsep, hsub⟩ := SepPath.of_mem_splitOn hmem
    obtain ⟨hnul, hback⟩ := not_mem_cleanPath path
    exact ⟨hne, hdot, hup, hsep, fun hmem => hback (hsub hmem), fun hmem => hnul (hsub hmem)⟩

/-- The components of a normalised path are the ones it was made of. -/
theorem partsOf_normalizePath (path : Bytes) :
    partsOf sepByte (normalizePath path) = normalParts path := by
  rw [normalizePath_eq]
  exact SepPath.partsOf_intercalate (fun part h => (safe_of_mem_normalParts h).nonempty)
    (fun part h => (safe_of_mem_normalParts h).no_separator)

/-- **`normalize_path` yields a safe canonical form.**  Every component of it is a safe name, no
    separator stands at either end, and it is the path resolved from the empty stack. -/
theorem normalizePath_canonical (path : Bytes) :
    (∀ part ∈ partsOf sepByte (normalizePath path),
        part ≠ [] ∧ part ≠ str "." ∧ part ≠ str ".." ∧ 92 ∉ part ∧ 0 ∉ part) ∧
      ((normalizePath path).head? ≠ some sepByte ∧
        (normalizePath path).getLast? ≠ some sepByte) ∧
      normalizePath path = [sepByte].intercalate (resolve [] (pathMoves path)) := by
  refine ⟨?_, ?_, normalizePath_eq path⟩
  · intro part hpart
    rw [partsOf_normalizePath] at hpart
    have hsafe := safe_of_mem_normalParts hpart
    exact ⟨hsafe.nonempty, hsafe.not_dot, hsafe.not_dotdot, hsafe.no_backslash, hsafe.no_nul⟩
  · rw [normalizePath_eq]
    exact SepPath.intercalate_ends (fun part h => (safe_of_mem_normalParts h).nonempty)
      (fun part h => (safe_of_mem_normalParts h).no_separator)

/-! ## Composition -/

/-- **Safe names are resolved to themselves**, on top of what is there already. -/
theorem resolve_pathMoves_of_safe {parts : List Bytes} (h : ∀ part ∈ parts, SafePart part)
    (stack : List Bytes) :
    resolve stack (pathMoves ([sepByte].intercalate parts)) = stack ++ parts := by
  by_cases hparts : parts = []
  · -- the empty text has one component, which is empty
    rw [hparts, List.append_nil]
    rfl
  · have hclean : cleanPath ([sepByte].intercalate parts) = [sepByte].intercalate parts := by
      refine cleanPath_of_clean (fun hmem => ?_) (fun hmem => ?_)
      · rcases SepPath.mem_intercalate hmem with hsep | ⟨part, hpart, hnul⟩
        · exact absurd hsep (by decide)
        · exact (h part hpart).no_nul hnul
      · rcases SepPath.mem_intercalate hmem with hsep | ⟨part, hpart, hback⟩
        · exact absurd hsep (by decide)
        · exact (h part hpart).no_backslash hback
    have hmoves : parts.map pathMove = parts.map Move.push :=
      List.map_congr_left (fun part hpart => pathMove_of_safe (h part hpart))
    rw [pathMoves, hclean,
      List.splitOn_intercalate sepByte (fun part hpart => (h part hpart).no_separator) hparts,
      hmoves, StackPath.resolve_push]

/-- A text of safe names is normalised already. -/
theorem normalizePath_of_safe {parts : List Bytes} (h : ∀ part ∈ parts, SafePart part) :
    normalizePath ([sepByte].intercalate parts) = [sepByte].intercalate parts := by
  rw [normalizePath_eq, normalParts, resolve_pathMoves_of_safe h, List.nil_append]

/-- The moves of a normalised path put back what it was made of. -/
theorem resolve_pathMoves_normalizePath (stack : List Bytes) (path : Bytes) :
    resolve stack (pathMoves (normalizePath path)) = stack ++ normalParts path := by
  rw [normalizePath_eq]
  exact resolve_pathMoves_of_safe (fun part h => safe_of_mem_normalParts h) stack

/-- Two paths with a separator between them, resolved. -/
theorem normalParts_append_sep (p q : Bytes) :
    normalParts (p ++ sepByte :: q) = resolve (normalParts p) (pathMoves q) := by
  rw [normalParts, pathMoves_append_sep, StackPath.resolve_append]
  rfl

/-- Two texts of which one may be empty, with a separator only where it stands between two. -/
def joinPaths (p q : Bytes) : Bytes :=
  if p = [] then q else if q = [] then p else p ++ sepByte :: q

theorem intercalate_append_eq_joinPaths {parts parts' : List Bytes}
    (h : ∀ part ∈ parts, part ≠ []) (h' : ∀ part ∈ parts', part ≠ []) :
    [sepByte].intercalate (parts ++ parts') =
      joinPaths ([sepByte].intercalate parts) ([sepByte].intercalate parts') := by
  unfold joinPaths
  by_cases hparts : parts = []
  · rw [if_pos ((SepPath.intercalate_eq_nil_iff h).mpr hparts), hparts, List.nil_append]
  · rw [if_neg (fun hnil => hparts ((SepPath.intercalate_eq_nil_iff h).mp hnil))]
    by_cases hparts' : parts' = []
    · rw [if_pos ((SepPath.intercalate_eq_nil_iff h').mpr hparts'), hparts', List.append_nil]
    · rw [if_neg (fun hnil => hparts' ((SepPath.intercalate_eq_nil_iff h').mp hnil))]
      exact SepPath.intercalate_append hparts hparts'

/-- **Normalisation composes.**  What stands in front of a separator may be normalised first, so
    normalising twice changes nothing; and behind it a path that never goes below its start is
    normalised on its own. -/
theorem normalizePath_append (p q : Bytes) :
    normalizePath (p ++ sepByte :: q) = normalizePath (normalizePath p ++ sepByte :: q) ∧
      normalizePath (normalizePath p) = normalizePath p ∧
      (NeverBelow (pathMoves q) →
        normalizePath (p ++ sepByte :: q) = joinPaths (normalizePath p) (normalizePath q)) := by
  have hself : normalParts (normalizePath p) = normalParts p := by
    rw [normalParts, resolve_pathMoves_normalizePath, List.nil_append]
  refine ⟨?_, ?_, ?_⟩
  · rw [normalizePath_eq, normalParts_append_sep, normalizePath_eq (normalizePath p ++ _),
      normalParts_append_sep, hself]
  · rw [normalizePath_eq (normalizePath p), hself, ← normalizePath_eq]
  · intro hdepth
    rw [normalizePath_eq (p ++ _), normalParts_append_sep, StackPath.resolve_above hdepth,
      normalizePath_eq p, normalizePath_eq q]
    exact intercalate_append_eq_joinPaths (fun part h => (safe_of_mem_normalParts h).nonempty)
      (fun part h => (safe_of_mem_normalParts h).nonempty)

/-- The last part of the theorem on `../a` and `x/../b`. -/
theorem normalizePath_append_dotdot :
    normalizePath (str "../a" ++ sepByte :: str "x/../b") = str "a/b" :=
  (normalizePath_append (str "../a") (str "x/../b")).2.2 (by decide)

end HttpServer
