/-
  The length of a body and the length a handler reads — `parse` against `get_header`.

  1. **Program** — `parse` cuts the body by the number behind the first text `content-length:` up to
     the CRLFCRLF; `get_header` looks the name up, ignoring case, in a table of the lines up to the
     first empty one, which has one entry a spelling, the last line with it.

  2. **Specification** — `LengthAgrees result`: whatever the iteration order of the table,
     `get_header("Content-Length")` is not empty and denotes the size of the body, as a decimal
     numeral: `3, 5` and `+3`, which the parser takes for 3, do not denote 3.

  3. **Any order** — an iteration order can put any entry first, so a property of every possible
     answer of `get_header` is a property of every entry with that name (`getHeader_forall_iff`).

  4. **Bridge** — the body of an accepted request with a length has the size that was read
     (`body_length_of_lengthIs`), so the two agree exactly when each of the entries is a decimal
     numeral of that number (`lengthAgrees_iff`).
-/
import HttpServer.Decimal
import HttpServer.Framing
import HttpServer.HeaderFields

namespace HttpServer

open ListSearch

/-! ## Any iteration order -/

/-- The iteration order that visits one entry first, where it is there. -/
def IterOrder.first (e : Bytes × Bytes) : IterOrder where
  order m :=
    let entries := m.entries.map fun e => (e.1, e.2)
    if e ∈ entries then e :: entries.erase e else entries
  perm m := by
    by_cases he : e ∈ m.entries.map fun e => (e.1, e.2)
    · simp only [if_pos he]
      exact (List.perm_cons_erase he).symm
    · simp only [if_neg he]
      exact List.Perm.refl _

/-- An answer of `get_header` is the value of an entry with the name, or empty where there is none. -/
theorem getHeader_cases (req : HttpRequest) (iter : IterOrder) (name : Bytes) :
    (∃ key, req.headers.lookup key = some (req.getHeader iter name) ∧ lower key = lower name) ∨
      (∀ key ∈ req.headers, lower key ≠ lower name) ∧ req.getHeader iter name = [] := by
  unfold HttpRequest.getHeader
  cases hfind : (iter.order req.headers).find? (fun e => lower e.1 = lower name) with
  | none =>
    refine Or.inr ⟨fun key hin hkey => ?_, rfl⟩
    obtain ⟨value, hlookup⟩ := Option.isSome_iff_exists.mp (AList.lookup_isSome.mpr hin)
    have hother := List.find?_eq_none.mp hfind (key, value) (IterOrder.mem_order.mpr hlookup)
    exact absurd hkey (by simpa using hother)
  | some e =>
    have hname : lower e.1 = lower name := by simpa using List.find?_some hfind
    exact Or.inl ⟨e.1, IterOrder.mem_order.mp (List.mem_of_find?_eq_some hfind), hname⟩

/-- Some order answers with a given entry. -/
theorem getHeader_first {req : HttpRequest} {name key value : Bytes}
    (hlookup : req.headers.lookup key = some value) (hkey : lower key = lower name) :
    req.getHeader (.first (key, value)) name = value := by
  have hmem : (key, value) ∈ IterOrder.entries.order req.headers := IterOrder.mem_order.mpr hlookup
  have horder : (IterOrder.first (key, value)).order req.headers =
      (key, value) :: ((IterOrder.entries).order req.headers).erase (key, value) := if_pos hmem
  rw [HttpRequest.getHeader, horder, List.find?_cons_of_pos (by simpa using hkey)]

/-- **What holds of every answer of `get_header`** holds of every entry with the name, of which
    there is one. -/
theorem getHeader_forall_iff (req : HttpRequest) (name : Bytes) {p : Bytes → Prop} (hnil : ¬ p []) :
    (∀ iter, p (req.getHeader iter name)) ↔
      (∃ key ∈ req.headers, lower key = lower name) ∧
        ∀ key value, req.headers.lookup key = some value → lower key = lower name → p value := by
  constructor
  · intro h
    constructor
    · rcases getHeader_cases req .entries name with ⟨key, hlookup, hkey⟩ | ⟨-, hempty⟩
      · exact ⟨key, AList.lookup_isSome.mp (by rw [hlookup]; rfl), hkey⟩
      · have hanswer := h .entries
        rw [hempty] at hanswer
        exact absurd hanswer hnil
    · intro key value hlookup hkey
      have hanswer := h (.first (key, value))
      rwa [getHeader_first hlookup hkey] at hanswer
  · rintro ⟨⟨key, hin, hkey⟩, hall⟩ iter
    rcases getHeader_cases req iter name with ⟨key', hlookup, hkey'⟩ | ⟨hnone, -⟩
    · exact hall key' _ hlookup hkey'
    · exact absurd hkey (hnone key hin)

/-! ## The two readings -/

/-- The name of Content-Length fields, in lower case. -/
def contentLengthName : Bytes := str "content-length"

/-- Whatever the iteration order, `get_header("Content-Length")` of the built request is not empty
    and denotes exactly the size of the body: it is a decimal numeral, between blanks, of that
    number. -/
def LengthAgrees (result : ParseResult) : Prop :=
  ∀ iter, (buildRequest result).getHeader iter (str "Content-Length") ≠ [] ∧
    Denotes ((buildRequest result).getHeader iter (str "Content-Length")) result.body.length

/-- The value of the last of the lines whose name is `key`, spelled like this. -/
def lastValue (lines : List Bytes) (key : Bytes) : Option Bytes :=
  ((lines.filterMap splitHeader).reverse.find? fun p => p.1 = key).map Prod.snd

/-- Among the lines there is a Content-Length field, and for each spelling of that name the last
    line with it is a decimal numeral of `n`. -/
def FieldsDeclare (lines : List Bytes) (n : Nat) : Prop :=
  (∃ p ∈ lines.filterMap splitHeader, lower p.1 = contentLengthName) ∧
    ∀ key value, lastValue lines key = some value → lower key = contentLengthName →
      Denotes value n

theorem getHeader_contentLength_iff {result : ParseResult} {lines : List Bytes}
    (h : (buildRequest result).headers = HeaderMap.ofPairs (lines.filterMap splitHeader)) :
    LengthAgrees result ↔ FieldsDeclare lines result.body.length := by
  have hname : lower (str "Content-Length") = contentLengthName := by decide
  unfold LengthAgrees FieldsDeclare
  rw [getHeader_forall_iff (buildRequest result) (str "Content-Length")
    (p := fun value => value ≠ [] ∧ Denotes value result.body.length)
    (fun hp => hp.1 rfl), h, hname]
  have hempty : ∀ value, Denotes value result.body.length → value ≠ [] := by
    rintro value hdenotes rfl
    exact hdenotes.1.1 rfl
  constructor
  · rintro ⟨⟨key, hin, hkey⟩, hall⟩
    obtain ⟨p, hp, rfl⟩ := List.mem_map.mp (HeaderMap.mem_ofPairs.mp hin)
    refine ⟨⟨p, hp, hkey⟩, fun key value hlast hkey => (hall key value ?_ hkey).2⟩
    rw [HeaderMap.lookup_ofPairs]
    exact hlast
  · rintro ⟨⟨p, hp, hkey⟩, hall⟩
    refine ⟨⟨p.1, HeaderMap.mem_ofPairs.mpr (List.mem_map_of_mem hp), hkey⟩, ?_⟩
    intro key value hlookup hkey
    rw [HeaderMap.lookup_ofPairs] at hlookup
    have hdenotes := hall key value hlookup hkey
    exact ⟨hempty value hdenotes, hdenotes⟩

/-! ## A field in the table is a text in the section -/

theorem prefix_of_getlines {s first : Bytes} {lines : List Bytes}
    (h : getlines s = first :: lines) : first <+: s := by
  induction s generalizing first lines with
  | nil => cases h
  | cons b s ih =>
    rw [getlines] at h
    split at h
    · cases h
      exact List.nil_prefix
    · cases hs : getlines s with
      | nil =>
        rw [hs] at h
        cases h
        exact List.cons_prefix_cons.mpr ⟨rfl, List.nil_prefix⟩
      | cons first' lines' =>
        rw [hs] at h
        cases h
        exact List.cons_prefix_cons.mpr ⟨rfl, ih hs⟩

theorem infix_of_mem_getlines {s line : Bytes} (h : line ∈ getlines s) : line <:+: s := by
  induction s generalizing line with
  | nil => cases h
  | cons b s ih =>
    cases hl : getlines (b :: s) with
    | nil =>
      rw [hl] at h
      cases h
    | cons first lines =>
      have hfirst := prefix_of_getlines hl
      rw [hl] at h
      rcases List.mem_cons.mp h with rfl | hrest
      · exact hfirst.isInfix
      · -- the lines behind the first are lines of the text behind the first byte
        refine List.infix_cons (ih ?_)
        rw [getlines] at hl
        split at hl
        · cases hl
          exact hrest
        · cases hs : getlines s with
          | nil =>
            rw [hs] at hl
            cases hl
            cases hrest
          | cons first' lines' =>
            rw [hs] at hl
            cases hl
            exact List.mem_cons_of_mem _ hrest

theorem popBack_isPrefix (b : Byte) (line : Bytes) : popBack b line <+: line := by
  unfold popBack
  split
  · exact List.dropLast_prefix line
  · exact List.prefix_refl line

theorem Mentions.of_isInfix {s t : Bytes} (h : s <:+: t) (hm : Mentions s) : Mentions t := by
  obtain ⟨u, v, rfl⟩ := h
  unfold Mentions at hm ⊢
  rw [lower_append, lower_append]
  exact hm.trans ⟨lower u, lower v, rfl⟩

/-- A line with that name has the text. -/
theorem mentions_of_splitHeader {line key value : Bytes}
    (h : splitHeader line = some (key, value)) (hkey : lower key = contentLengthName) :
    Mentions line := by
  unfold splitHeader at h
  cases hcolon : find [58] line with
  | none =>
    rw [hcolon] at h
    cases h
  | some colon =>
    rw [hcolon] at h
    have hk : line.take colon = key := by
      simp only at h
      split at h
      · exact (Prod.mk.inj (Option.some.inj h)).1
      · exact (Prod.mk.inj (Option.some.inj h)).1
    have hsplit := find_split hcolon
    have htext : lower (line.take colon ++ [58]) = contentLengthText := by
      rw [hk, lower_append, hkey]
      decide
    rw [← List.append_assoc] at hsplit
    rw [hsplit]
    unfold Mentions
    rw [lower_append, htext]
    exact (List.prefix_append _ _).isInfix

theorem mentions_of_fieldLines {H : HeaderSection} {p : Bytes × Bytes}
    (hp : p ∈ (fieldLines H.head).filterMap splitHeader) (hkey : lower p.1 = contentLengthName) :
    Mentions H.bytes := by
  obtain ⟨line, hline, hsplit⟩ := List.mem_filterMap.mp hp
  obtain ⟨line', hline', rfl⟩ := List.mem_map.mp ((List.takeWhile_sublist _).mem hline)
  have hbytes : popBack 13 line' <:+: H.bytes := by
    have hhead : line' <:+: H.head := infix_of_mem_getlines (List.mem_of_mem_tail hline')
    have hpre : H.head <+: H.bytes := ⟨_, H.bytes_eq.symm⟩
    exact (popBack_isPrefix 13 line').isInfix.trans (hhead.trans hpre.isInfix)
  exact (mentions_of_splitHeader hsplit hkey).of_isInfix hbytes

/-! ## When they agree -/

/-- The body of an accepted request whose header section declares a number has that size. -/
theorem body_length_of_lengthIs {result : ParseResult} {located : Located} {body : Bytes}
    {maxBodySize n : Nat} (herr : (frameBody result located body maxBodySize).error = .none)
    (h : LengthIs located n) : (frameBody result located body maxBodySize).body.length = n := by
  rw [frameBody_of_lengthIs h] at herr ⊢
  by_cases hbig : n > maxBodySize
  · rw [if_pos hbig] at herr
    cases herr
  · rw [if_neg hbig] at herr ⊢
    by_cases hshort : body.length < n
    · rw [if_pos hshort] at herr
      cases herr
    · rw [if_neg hshort, List.length_take, Nat.min_eq_left (Nat.not_lt.mp hshort)]

/-- **When the body length and the Content-Length a handler reads agree.**  For every byte string
    that `parse` accepts, with its first CRLFCRLF at `headerEnd`: they agree exactly when the header
    section declares a number, some line before the first empty one is a Content-Length field, and for
    each spelling of that name the last such line has the decimal numeral of the declared number and
    nothing else, less blanks, as its value. -/
theorem lengthAgrees_iff (raw : Bytes) (maxHeaderSize maxBodySize headerEnd : Nat)
    (hfind : find crlfcrlf raw = some headerEnd)
    (hnone : (parse raw maxHeaderSize maxBodySize).error = .none) :
    LengthAgrees (parse raw maxHeaderSize maxBodySize) ↔
      ∃ n, Declares (raw.take (headerEnd + 4)) n ∧
        FieldsDeclare (fieldLines (raw.take headerEnd)) n := by
  obtain ⟨H, body, rfl, -, hhead, hparse⟩ := parse_error_none_inv hnone
  obtain ⟨-, hhead', htake, -⟩ := H.cut hfind
  rw [htake, hhead', getHeader_contentLength_iff (headers_buildRequest hhead hparse)]
  rw [hparse] at hnone ⊢
  constructor
  · intro h
    obtain ⟨p, hp, hkey⟩ := h.1
    obtain ⟨v, hv⟩ := H.locateLength_value (mentions_of_fieldLines hp hkey)
    cases hn : stoull v with
    | error e =>
      -- a text that is no number is not accepted
      rw [hv] at hnone
      simp only [frameBody, hn] at hnone
      cases hnone
    | ok n =>
      have hlen : LengthIs (locateLength H.bytes) n := ⟨v, hv, hn⟩
      rw [body_length_of_lengthIs hnone hlen] at h
      exact ⟨n, (lengthIs_locateLength_iff _ _).mp hlen, h⟩
  · rintro ⟨n, hdeclares, h⟩
    rwa [body_length_of_lengthIs hnone ((lengthIs_locateLength_iff _ _).mpr hdeclares)]

/-- The theorem on a request that spells its length in two ways. -/
theorem lengthAgrees_iff_two_spellings :
    LengthAgrees (parse
        (str "POST / HTTP/1.1\r\ncontent-length: 3\r\nContent-Length: 3\r\n\r\nabc") 65536 1048576) ↔
      ∃ n, Declares ((str
          "POST / HTTP/1.1\r\ncontent-length: 3\r\nContent-Length: 3\r\n\r\nabc").take (53 + 4)) n ∧
        FieldsDeclare (fieldLines ((str
          "POST / HTTP/1.1\r\ncontent-length: 3\r\nContent-Length: 3\r\n\r\nabc").take 53)) n :=
  lengthAgrees_iff (str "POST / HTTP/1.1\r\ncontent-length: 3\r\nContent-Length: 3\r\n\r\nabc") 65536
    1048576 53 (by decide) (by decide +kernel)

/-- Some line behind the request line is named Content-Length, in whatever case. -/
def HasContentLengthLine (headersSection : Bytes) : Prop :=
  ∃ line ∈ (getlines headersSection).tail, ∃ p,
    splitHeader (popBack 13 line) = some p ∧ lower p.1 = contentLengthName

/-- Two lengths: the body is cut by the first, and a handler reads the second. -/
theorem repeated_length_disagrees :
    ¬ ∀ raw maxHeaderSize maxBodySize headerEnd, find crlfcrlf raw = some headerEnd →
      (parse raw maxHeaderSize maxBodySize).error = .none →
        HasContentLengthLine (raw.take headerEnd) →
          LengthAgrees (parse raw maxHeaderSize maxBodySize) := by
  intro hall
  have hagrees := hall (str "POST / HTTP/1.1\r\nContent-Length: 3\r\nContent-Length: 5\r\n\r\nabcde")
    65536 1048576 53 (by decide) (by decide +kernel)
    ⟨str "Content-Length: 3\r", by decide, (str "Content-Length", str "3"), by decide, by decide⟩
    .entries
  exact absurd hagrees.2 (by decide +kernel)

end HttpServer
