/-
  Header values — what `build_request` stores, against `HttpParser::trim`.

  1. **Program** — the loop of `build_request` cuts the blanks at both ends of a value by hand, each
     cut guarded by a search that may find nothing, and writes the value over an earlier one.

  2. **Specification** — `cutAtColon` and `lastText` read a field off the lines, and `StoresTrimmed`
     says that the table has the names of the lines and, for each, `trim` of its last text.

  3. **Where the two cuts are `trim`** (`storedValue_eq_trim_iff`) — wherever a text has a byte that
     is not blank, and on the empty text; a text of blanks alone is stored as it is, and trims to
     nothing.

  4. **Bridge** — `lookup_buildRequest`: the table maps a name to what is stored for its last text.
-/
import HttpServer.RoundTrip

namespace HttpServer

open ListSearch

/-! ## The specification -/

/-- The texts before and behind the first colon of a line. -/
def cutAtColon (line : Bytes) : Option (Bytes × Bytes) :=
  if 58 ∈ line then some (line.takeWhile (· ≠ 58), (line.dropWhile (· ≠ 58)).tail) else none

/-- The fields of a text with LF-separated lines. -/
def rawFields (headersRaw : Bytes) : List (Bytes × Bytes) :=
  (headersRaw.splitOn 10).filterMap cutAtColon

/-- The text of the last field with a name. -/
def lastText (fields : List (Bytes × Bytes)) (name : Bytes) : Option Bytes :=
  (fields.reverse.find? fun field => field.1 = name).map Prod.snd

/-- The table has the names of the fields, and the trimmed text of the last field of each. -/
structure StoresTrimmed (fields : List (Bytes × Bytes)) (headers : HeaderMap) : Prop where
  names : ∀ name, name ∈ headers ↔ ∃ text, (name, text) ∈ fields
  values : ∀ name text, lastText fields name = some text → headers.lookup name = some (trim text)

/-! ## Blanks -/

/-- The text holds a byte that is not blank. -/
def HasContent (text : Bytes) : Prop := ∃ b ∈ text, b ∉ blanks

instance (text : Bytes) : Decidable (HasContent text) :=
  inferInstanceAs (Decidable (∃ b ∈ text, b ∉ blanks))

theorem findFirstNotOf_eq_none_iff {text : Bytes} :
    findFirstNotOf blanks text = none ↔ ¬HasContent text := by
  rw [findFirstNotOf, List.findIdx?_eq_none_iff]
  simp [HasContent]

theorem findLastNotOf_eq_none_iff {text : Bytes} :
    findLastNotOf blanks text = none ↔ ¬HasContent text := by
  rw [findLastNotOf, Option.map_eq_none_iff, List.findIdx?_eq_none_iff]
  simp [HasContent]

/-- In front of a text with content, anything may stand. -/
theorem findLastNotOf_append (before : Bytes) {text : Bytes} (h : HasContent text) :
    findLastNotOf blanks (before ++ text) =
      (findLastNotOf blanks text).map (before.length + ·) := by
  have hsome : findLastNotOf blanks text ≠ none := fun hnone => findLastNotOf_eq_none_iff.mp hnone h
  unfold findLastNotOf at hsome ⊢
  rw [List.reverse_append, List.findIdx?_append]
  cases hfind : text.reverse.findIdx? fun b => !blanks.contains b with
  | none =>
    rw [hfind] at hsome
    exact absurd rfl hsome
  | some k =>
    obtain ⟨hk, -⟩ := List.findIdx?_eq_some_iff_findIdx_eq.mp hfind
    rw [List.length_reverse] at hk
    show some ((before ++ text).length - 1 - k) = some (before.length + (text.length - 1 - k))
    rw [List.length_append]
    congr 1
    omega

/-! ## The cuts of the loop -/

/-- What the loop stores for the text behind a colon. -/
def storedValue (text : Bytes) : Bytes :=
  let value := skipBlanks text
  match findLastNotOf blanks value with
  | some e => value.take (e + 1)
  | none => value

theorem cutAtColon_append {name : Bytes} (h : 58 ∉ name) (text : Bytes) :
    cutAtColon (name ++ 58 :: text) = some (name, text) := by
  have hname : ∀ b ∈ name, decide (b ≠ 58) = true := by
    intro b hb
    exact decide_eq_true fun heq => h (heq ▸ hb)
  rw [cutAtColon, if_pos (List.mem_append_right _ (List.mem_cons_self ..)),
    List.takeWhile_append_of_pos hname, List.dropWhile_append_of_pos hname,
    List.takeWhile_cons_of_neg (by decide), List.dropWhile_cons_of_neg (by decide),
    List.append_nil, List.tail_cons]

/-- The loop cuts a line at its first colon. -/
theorem splitHeader_eq (line : Bytes) :
    splitHeader line = (cutAtColon line).map fun field => (field.1, storedValue field.2) := by
  by_cases hcolon : 58 ∈ line
  · obtain ⟨name, text, rfl, hname⟩ := List.eq_append_cons_of_mem hcolon
    have htake : (name ++ 58 :: text).take name.length = name := List.take_left
    have hdrop : (name ++ 58 :: text).drop (name.length + 1) = text := by
      rw [← List.drop_drop, List.drop_left]
      rfl
    rw [cutAtColon_append hname, Option.map_some]
    simp only [splitHeader, find_byte hname, htake, hdrop, storedValue]
    cases findLastNotOf blanks (skipBlanks text) with
    | none => rfl
    | some e => rfl
  · have hfind : find [58] line = none := find_of_not_mem hcolon
    rw [cutAtColon, if_neg hcolon, splitHeader, hfind]
    rfl

/-- Of blanks alone, nothing is cut. -/
theorem storedValue_of_blank {text : Bytes} (h : ¬HasContent text) : storedValue text = text := by
  have hskip : skipBlanks text = text := by
    rw [skipBlanks, findFirstNotOf_eq_none_iff.mpr h]
  rw [storedValue, hskip]
  simp only [findLastNotOf_eq_none_iff.mpr h]

theorem trim_of_blank {text : Bytes} (h : ¬HasContent text) : trim text = [] := by
  rw [trim, findFirstNotOf_eq_none_iff.mpr h]

/-- **With content, the two cuts are `trim`.** -/
theorem storedValue_of_content {text : Bytes} (h : HasContent text) :
    storedValue text = trim text := by
  cases hfirst : findFirstNotOf blanks text with
  | none => exact absurd h (findFirstNotOf_eq_none_iff.mp hfirst)
  | some start =>
    obtain ⟨hstart, hbyte, -⟩ := List.findIdx?_eq_some_iff_getElem.mp hfirst
    have hcontent : HasContent (text.drop start) := by
      refine ⟨text[start], ?_, by simpa using hbyte⟩
      rw [List.drop_eq_getElem_cons hstart]
      exact List.mem_cons_self ..
    have hskip : skipBlanks text = text.drop start := by rw [skipBlanks, hfirst]
    have hlast := findLastNotOf_append (text.take start) hcontent
    rw [List.take_append_drop, List.length_take, Nat.min_eq_left hstart.le] at hlast
    rw [storedValue, hskip, trim, hfirst, hlast]
    cases hrest : findLastNotOf blanks (text.drop start) with
    | none => exact absurd hcontent (findLastNotOf_eq_none_iff.mp hrest)
    | some e =>
      show (text.drop start).take (e + 1) = (text.drop start).take (start + e - start + 1)
      rw [Nat.add_sub_cancel_left]

/-- **Where the two cuts are `trim`.** -/
theorem storedValue_eq_trim_iff {text : Bytes} :
    storedValue text = trim text ↔ text = [] ∨ HasContent text := by
  by_cases h : HasContent text
  · exact iff_of_true (storedValue_of_content h) (Or.inr h)
  · rw [storedValue_of_blank h, trim_of_blank h, or_iff_left h]

/-! ## The table -/

/-- `getline` sees the LF-separated lines, but for an empty one at the end. -/
theorem splitOn_eq_getlines (s : Bytes) :
    ∃ rest, (∀ line ∈ rest, line = []) ∧ s.splitOn 10 = getlines s ++ rest := by
  induction s with
  | nil =>
    refine ⟨[[]], ?_, rfl⟩
    intro line hl
    exact List.mem_singleton.mp hl
  | cons b s ih =>
    obtain ⟨rest, hrest, hsplit⟩ := ih
    rw [List.splitOn_cons_eq_if_modifyHead, getlines, hsplit]
    by_cases hb : b = 10
    · refine ⟨rest, hrest, ?_⟩
      rw [if_pos (beq_iff_eq.mpr hb), if_pos hb]
      rfl
    · rw [if_neg (fun h => hb (beq_iff_eq.mp h)), if_neg hb]
      cases hlines : getlines s with
      | nil =>
        -- the first of the empty rest has got the byte
        cases rest with
        | nil =>
          rw [hlines, List.append_nil] at hsplit
          exact absurd hsplit (List.splitOn_ne_nil 10 s)
        | cons line rest =>
          rw [hrest line (List.mem_cons_self ..)]
          exact ⟨rest, fun l hl => hrest l (List.mem_cons_of_mem line hl), rfl⟩
      | cons line lines => exact ⟨rest, hrest, rfl⟩

/-- The table after inserting what is stored for some fields. -/
theorem lookup_ofFields (fields : List (Bytes × Bytes)) (name : Bytes) :
    (HeaderMap.ofPairs (fields.map fun field => (field.1, storedValue field.2))).lookup name =
      (lastText fields name).map storedValue := by
  rw [HeaderMap.lookup_ofPairs, ← List.map_reverse, List.find?_map, Option.map_map, lastText,
    Option.map_map]
  rfl

/-- The fields of some lines, in the order of the lines, are what the loop inserts. -/
theorem filterMap_splitHeader (lines : List Bytes) :
    lines.filterMap splitHeader =
      (lines.filterMap cutAtColon).map fun field => (field.1, storedValue field.2) := by
  rw [List.map_filterMap]
  exact List.filterMap_congr fun line _ => splitHeader_eq line

/-- **The table that `build_request` makes.** -/
theorem headers_of_rawFields (result : ParseResult) :
    (buildRequest result).headers =
      HeaderMap.ofPairs ((rawFields result.headersRaw).map
        fun field => (field.1, storedValue field.2)) := by
  have hfields : (getlines result.headersRaw).filterMap cutAtColon =
      rawFields result.headersRaw := by
    obtain ⟨rest, hrest, hsplit⟩ := splitOn_eq_getlines result.headersRaw
    have hnone : rest.filterMap cutAtColon = [] := by
      rw [List.filterMap_eq_nil_iff]
      intro line hl
      rw [hrest line hl]
      rfl
    rw [rawFields, hsplit, List.filterMap_append, hnone, List.append_nil]
  show (getlines result.headersRaw).foldl readHeader ∅ = _
  rw [foldl_readHeader fun line hl => lf_not_mem_getlines hl, filterMap_splitHeader, hfields]

/-- A lookup finds what is stored for the last text. -/
theorem lookup_buildRequest (result : ParseResult) (name : Bytes) :
    (buildRequest result).headers.lookup name =
      (lastText (rawFields result.headersRaw) name).map storedValue := by
  rw [headers_of_rawFields, lookup_ofFields]

/-! ## The theorem -/

/-- **When header values are stored trimmed.**  For every `headers_raw`: the table has the names of its
    fields, and the trimmed text of the last field of each exactly when none of these texts is made of
    spaces and tabs alone. -/
theorem storesTrimmed_iff (result : ParseResult) :
    StoresTrimmed (rawFields result.headersRaw) (buildRequest result).headers ↔
      ∀ name text, lastText (rawFields result.headersRaw) name = some text →
        text = [] ∨ HasContent text := by
  constructor
  · intro h name text hlast
    have hlookup := h.values name text hlast
    rw [lookup_buildRequest, hlast, Option.map_some, Option.some.injEq] at hlookup
    exact storedValue_eq_trim_iff.mp hlookup
  · intro h
    constructor
    · intro name
      rw [headers_of_rawFields, HeaderMap.mem_ofPairs, List.map_map]
      simp
    · intro name text hlast
      rw [lookup_buildRequest, hlast, Option.map_some,
        storedValue_eq_trim_iff.mpr (h name text hlast)]

/-- A value of one space is stored as it is. -/
theorem blank_value_is_kept :
    ¬∀ result : ParseResult,
      StoresTrimmed (rawFields result.headersRaw) (buildRequest result).headers := by
  intro h
  have hlookup := (h { headersRaw := str "A: \n" }).values (str "A") (str " ") (by decide)
  exact absurd hlookup (by decide)

end HttpServer
