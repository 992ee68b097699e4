/-
  A header lookup and the order of the table — when `get_header` has one answer.

  1. **Program** — `build_request` keeps one entry for each spelling of a name, the last line with
     it, and `get_header` takes the first entry, in an unspecified order, whose name is the given one
     in whatever case.

  2. **Specification** — `lastNamed` is the value of the last line with the name, and `LookupFixed`
     says that every order answers with it.

  3. **Bridge** — each entry with the name is the answer in some order (`getHeader_first`) and no
     other is (`getHeader_cases`), so the answer is fixed exactly when the spellings agree with the
     last line (`lookupFixed_iff`).
-/
import HttpServer.HeaderLookup
import HttpServer.HeaderValues

namespace HttpServer

open ListSearch

/-! ## The specification -/

/-- The fields of a header section, without its CRLFCRLF. -/
def sectionFields (headersSection : Bytes) : List (Bytes × Bytes) :=
  (fieldLines headersSection).filterMap cutAtColon

/-- The value of the last field whose name is `name` in whatever case, or nothing. -/
def lastNamed (fields : List (Bytes × Bytes)) (name : Bytes) : Bytes :=
  ((fields.reverse.find? fun field => lower field.1 = lower name).map
    fun field => storedValue field.2).getD []

/-- Any two orders give the same answer, and it is that of the last field with the name. -/
def LookupFixed (req : HttpRequest) (fields : List (Bytes × Bytes)) (name : Bytes) : Prop :=
  ∀ iter iter', req.getHeader iter name = req.getHeader iter' name ∧
    req.getHeader iter name = lastNamed fields name

/-! ## The theorem -/

/-- A name without a field has no value. -/
theorem lastNamed_eq_nil {fields : List (Bytes × Bytes)} {name : Bytes}
    (h : ∀ field ∈ fields, lower field.1 ≠ lower name) : lastNamed fields name = [] := by
  have hnone : (fields.reverse.find? fun field => lower field.1 = lower name) = none := by
    rw [List.find?_eq_none]
    intro field hmem
    simpa using h field (List.mem_reverse.mp hmem)
  rw [lastNamed, hnone]
  rfl

/-- The table of an accepted request. -/
theorem headers_of_sectionFields {raw : Bytes} {maxHeaderSize maxBodySize headerEnd : Nat}
    (hfind : find crlfcrlf raw = some headerEnd)
    (hnone : (parse raw maxHeaderSize maxBodySize).error = .none) :
    (buildRequest (parse raw maxHeaderSize maxBodySize)).headers =
      HeaderMap.ofPairs ((sectionFields (raw.take headerEnd)).map
        fun field => (field.1, storedValue field.2)) := by
  obtain ⟨H, body, rfl, -, hhead, hparse⟩ := parse_error_none_inv hnone
  obtain ⟨-, hhead', -, -⟩ := H.cut hfind
  rw [hhead', headers_buildRequest hhead hparse, filterMap_splitHeader, sectionFields]

/-- **When a lookup has one answer.**  For every byte string that `parse` accepts, with its first
    CRLFCRLF at `headerEnd`, and every name: the order of the table does not matter, and the answer is
    the value of the last field with the name, exactly when for each spelling of the name the last
    field with that spelling has the value of the last field with any of them. -/
theorem lookupFixed_iff (raw : Bytes) (maxHeaderSize maxBodySize headerEnd : Nat)
    (hfind : find crlfcrlf raw = some headerEnd)
    (hnone : (parse raw maxHeaderSize maxBodySize).error = .none) (name : Bytes) :
    LookupFixed (buildRequest (parse raw maxHeaderSize maxBodySize))
        (sectionFields (raw.take headerEnd)) name ↔
      ∀ key text, lastText (sectionFields (raw.take headerEnd)) key = some text →
        lower key = lower name →
          storedValue text = lastNamed (sectionFields (raw.take headerEnd)) name := by
  have hheaders := headers_of_sectionFields hfind hnone
  generalize sectionFields (raw.take headerEnd) = fields at hheaders ⊢
  generalize buildRequest (parse raw maxHeaderSize maxBodySize) = req at hheaders ⊢
  have hlookup : ∀ key, req.headers.lookup key = (lastText fields key).map storedValue := by
    intro key
    rw [hheaders, lookup_ofFields]
  constructor
  · intro h key text hlast hkey
    have hentry : req.headers.lookup key = some (storedValue text) := by
      rw [hlookup, hlast, Option.map_some]
    rw [← getHeader_first hentry hkey]
    exact (h _ .entries).2
  · intro h
    have hanswer : ∀ iter, req.getHeader iter name = lastNamed fields name := by
      intro iter
      rcases getHeader_cases req iter name with ⟨key, hentry, hkey⟩ | ⟨hother, hempty⟩
      · rw [hlookup] at hentry
        obtain ⟨text, hlast, htext⟩ := Option.map_eq_some_iff.mp hentry
        rw [← htext, h key text hlast hkey]
      · rw [hempty, lastNamed_eq_nil]
        intro field hmem
        refine hother field.1 ?_
        rw [hheaders, HeaderMap.mem_ofPairs, List.map_map]
        exact List.mem_map_of_mem hmem
    intro iter iter'
    exact ⟨(hanswer iter).trans (hanswer iter').symm, hanswer iter⟩

/-- The theorem on a name that is repeated in one spelling. -/
theorem lookupFixed_iff_repeated :
    LookupFixed (buildRequest
        (parse (str "GET / HTTP/1.1\r\nA: 1\r\nA: 2\r\n\r\n") 65536 1048576))
      (sectionFields ((str "GET / HTTP/1.1\r\nA: 1\r\nA: 2\r\n\r\n").take 26)) (str "a") := by
  refine (lookupFixed_iff (str "GET / HTTP/1.1\r\nA: 1\r\nA: 2\r\n\r\n") 65536 1048576 26
    (by decide) (by decide +kernel) (str "a")).mpr ?_
  intro key text hlast _
  have hfields : sectionFields ((str "GET / HTTP/1.1\r\nA: 1\r\nA: 2\r\n\r\n").take 26) =
      [(str "A", str " 1"), (str "A", str " 2")] := by decide
  rw [hfields] at hlast ⊢
  by_cases hkey : str "A" = key
  · rw [← hkey] at hlast
    cases hlast
    decide
  · simp [lastText, hkey] at hlast

/-- Two spellings of one name: either value is the answer in some order. -/
theorem lookup_depends_on_order :
    ¬∀ (raw : Bytes) (maxHeaderSize maxBodySize headerEnd : Nat) (name : Bytes),
      find crlfcrlf raw = some headerEnd →
        (parse raw maxHeaderSize maxBodySize).error = .none →
          LookupFixed (buildRequest (parse raw maxHeaderSize maxBodySize))
            (sectionFields (raw.take headerEnd)) name := by
  intro h
  have hfixed := h (str "GET / HTTP/1.1\r\nA: 1\r\na: 2\r\n\r\n") 65536 1048576 26 (str "a")
    (by decide) (by decide +kernel) (.first (str "A", str "1")) (.first (str "a", str "2"))
  exact absurd hfixed.1 (by decide +kernel)

end HttpServer
