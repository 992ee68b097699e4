/-
  Parsing undoes rendering — from the fields of a request to its bytes and back.

  1. **Program** — the bytes are `render requestLine fields ++ body`, the way back is `parse` and
     `build_request`.

  2. **Lines** — no line has a CR or LF in it, so the first CRLFCRLF is the rendered one, and the
     lines that `getline` and the cut of one CR leave are the lines that were rendered
     (`map_popBack_getlines`).

  3. **Fields** — the first colon of a line is the one behind the name, and the two trims take the
     one space that was rendered and nothing of a trimmed value (`splitHeader_line`).

  4. **Bridge** — `parse_renderLines` gives the whole `ParseResult` of rendered lines, one of which
     declares the length of the body; `build_request_of_render` adds the header table.
-/
import HttpServer.Framing
import HttpServer.Decimal
import HttpServer.HeaderFields

namespace HttpServer

open ListSearch

/-! ## The request line -/

/-- A text that stream extraction reads in one piece: it is not empty, and nothing in it is a blank
    to `std::isspace`. -/
def IsToken (t : Bytes) : Prop := t ≠ [] ∧ ∀ b ∈ t, isspace b = false

instance (t : Bytes) : Decidable (IsToken t) := @instDecidableAnd _ _ _ (List.decidableBAll _ t)

theorem tokens_token_append {t : Bytes} (h : IsToken t) (rest : Bytes) :
    tokens (t ++ 32 :: rest) = t :: tokens rest := by
  obtain ⟨hne, hspace⟩ := h
  obtain ⟨b, s, rfl⟩ := List.exists_cons_of_ne_nil hne
  have hall : ∀ c ∈ b :: s, (!isspace c) = true := fun c hc => by rw [hspace c hc]; rfl
  rw [List.cons_append, tokens_of_head (hspace b (List.mem_cons_self ..)), ← List.cons_append,
    List.takeWhile_append_of_pos hall, List.dropWhile_append_of_pos hall,
    List.takeWhile_cons_of_neg (by decide), List.append_nil,
    List.dropWhile_cons_of_neg (by decide), tokens_cons_space (by decide)]

theorem tokens_token {t : Bytes} (h : IsToken t) : tokens t = [t] := by
  obtain ⟨hne, hspace⟩ := h
  obtain ⟨b, s, rfl⟩ := List.exists_cons_of_ne_nil hne
  have hall : ∀ c ∈ b :: s, (!isspace c) = true := fun c hc => by rw [hspace c hc]; rfl
  rw [tokens_of_head (hspace b (List.mem_cons_self ..)), List.takeWhile_eq_self_iff.mpr hall,
    List.dropWhile_eq_nil_iff.mpr hall]
  rfl

/-- `METHOD TARGET VERSION`. -/
def requestLineOf (method target version : Bytes) : Bytes :=
  method ++ 32 :: (target ++ 32 :: version)

theorem tokens_requestLineOf {method target version : Bytes} (hmethod : IsToken method)
    (htarget : IsToken target) (hversion : IsToken version) :
    tokens (requestLineOf method target version) = [method, target, version] := by
  rw [requestLineOf, tokens_token_append hmethod, tokens_token_append htarget,
    tokens_token hversion]

theorem IsToken.not_mem {t : Bytes} (h : IsToken t) {b : Byte} (hb : isspace b = true) : b ∉ t := by
  intro hm
  rw [h.2 b hm] at hb
  cases hb

theorem not_mem_requestLineOf {method target version : Bytes} (hmethod : IsToken method)
    (htarget : IsToken target) (hversion : IsToken version) {b : Byte} (hb : isspace b = true)
    (hne : b ≠ 32) : b ∉ requestLineOf method target version := by
  simp only [requestLineOf, List.mem_append, List.mem_cons, not_or]
  exact ⟨hmethod.not_mem hb, hne, htarget.not_mem hb, hne, hversion.not_mem hb⟩

/-! ## Lines -/

/-- **The lines that are read are the lines that were rendered.** -/
theorem map_popBack_getlines {lines : List Bytes} (h : PlainLines lines) {s : Bytes}
    (hs : renderLines lines = s ++ [13, 10, 13, 10]) : (getlines s).map (popBack 13) = lines := by
  induction lines generalizing s with
  | nil =>
    have hlen := congrArg List.length hs
    simp only [List.length_append, List.length_cons, List.length_nil, renderLines, crlf,
      List.map_nil, List.flatten_nil, List.nil_append] at hlen
    omega
  | cons line lines ih =>
    obtain ⟨hne, hcr, hlf⟩ := h line (List.mem_cons_self ..)
    have hlines : PlainLines lines := fun l hl => h l (List.mem_cons_of_mem line hl)
    cases lines with
    | nil =>
      -- the line end of the last line is part of the CRLFCRLF
      have hline : line ++ [13, 10, 13, 10] = s ++ [13, 10, 13, 10] := by
        rw [← hs, renderLines_cons]
        rfl
      have hpop : popBack 13 line = line := if_neg fun hl => hcr (List.mem_of_getLast? hl)
      rw [← List.append_cancel_right hline, getlines_of_not_mem hlf hne, List.map_singleton, hpop]
    | cons line' lines =>
      have hrest := (headerSectionOf (line' :: lines) hlines (List.cons_ne_nil _ _)).bytes_eq
      generalize (headerSectionOf (line' :: lines) hlines (List.cons_ne_nil _ _)).head = s' at hrest
      have hrest' : renderLines (line' :: lines) = s' ++ [13, 10, 13, 10] := hrest
      have hsplit : s ++ [13, 10, 13, 10] = (line ++ [13]) ++ 10 :: s' ++ [13, 10, 13, 10] := by
        rw [← hs, renderLines_cons, hrest']
        simp
      have hlf' : 10 ∉ line ++ [13] := by simpa using hlf
      have hpop : popBack 13 (line ++ [13]) = line := by simp [popBack]
      rw [List.append_cancel_right hsplit, getlines_append hlf', List.map_cons, hpop, ih hlines hrest']

/-- **The whole result of `parse` on rendered lines**, one of which declares the body's length. -/
theorem parse_renderLines {first method target version : Bytes} {more lines : List Bytes}
    (ht : tokens first = method :: target :: version :: more) (hv : str "HTTP/" <+: version)
    (hplain : PlainLines (first :: lines)) {v body : Bytes}
    (htext : (first :: lines).findSome? textBehind = some v) (hn : stoull v = .ok body.length)
    {maxHeaderSize maxBodySize : Nat} (hheader : (renderLines (first :: lines)).length ≤ maxHeaderSize)
    (hbody : body.length ≤ maxBodySize) :
    parse (renderLines (first :: lines) ++ body) maxHeaderSize maxBodySize =
      { method, path := target, version, hasHeaders := true,
        headersRaw := (lines.map (· ++ [10])).flatten, body } := by
  let H := headerSectionOf (first :: lines) hplain (List.cons_ne_nil _ _)
  have hread : (getlines H.head).map (popBack 13) = first :: lines :=
    map_popBack_getlines hplain H.bytes_eq
  have hfirst : firstLine H.head = first := firstLine_head hplain
  have hlines : collectHeaders (getlines H.head).tail = (lines.map (· ++ [10])).flatten := by
    rw [collectHeaders_eq, List.map_tail, hread, List.tail_cons, List.takeWhile_eq_self_iff.mpr]
    intro line hl
    simpa using (hplain line (List.mem_cons_of_mem first hl)).1
  have hhead := parseHead_of_tokens (hfirst.symm ▸ ht) hv
  have hfit : ¬ H.bytes.length > maxHeaderSize := Nat.not_lt.mpr hheader
  have hparse := H.parse_append body maxHeaderSize maxBodySize
  rw [if_neg hfit, hhead, hlines, if_neg (by simp),
    show H.bytes = renderLines (first :: lines) from rfl, locateLength_renderLines hplain,
    htext] at hparse
  rw [hparse]
  simp only [frameBody, stoull_skipBlanks, hn, Nat.not_lt.mpr hbody, Nat.lt_irrefl, if_false,
    List.take_length]

/-! ## Fields -/

/-- A value that trimming leaves alone. -/
def Trimmed (v : Bytes) : Prop :=
  v ≠ [] ∧ (∀ b ∈ v.head?, b ∉ blanks) ∧ ∀ b ∈ v.getLast?, b ∉ blanks

instance (v : Bytes) : Decidable (Trimmed v) :=
  @instDecidableAnd _ _ _
    (@instDecidableAnd _ _ (Option.decidableForallMem _) (Option.decidableForallMem _))

theorem skipBlanks_of_trimmed {v : Bytes} (h : Trimmed v) : skipBlanks (32 :: v) = v := by
  obtain ⟨hne, hhead, -⟩ := h
  obtain ⟨b, s, rfl⟩ := List.exists_cons_of_ne_nil hne
  have hb : b ∉ blanks := hhead b rfl
  have hfind : findFirstNotOf blanks (32 :: b :: s) = some 1 := by
    have h32 : blanks.contains (32 : Byte) = true := by decide
    have hb' : blanks.contains b = false := by simpa using hb
    rw [findFirstNotOf, List.findIdx?_cons, List.findIdx?_cons, h32, hb']
    rfl
  rw [skipBlanks, hfind]
  rfl

theorem findLastNotOf_of_trimmed {v : Bytes} (h : Trimmed v) :
    findLastNotOf blanks v = some (v.length - 1) := by
  obtain ⟨hne, -, hlast⟩ := h
  have hb := hlast (v.getLast hne) (by rw [List.getLast?_eq_some_getLast hne]; rfl)
  have hrev : v.reverse = v.getLast hne :: v.dropLast.reverse := by
    conv_lhs => rw [← List.dropLast_append_getLast hne]
    simp
  rw [findLastNotOf, hrev, List.findIdx?_cons]
  simp [hb]

/-- The first occurrence of a byte. -/
theorem find_byte {b : Byte} {s : Bytes} (h : b ∉ s) (t : Bytes) :
    find [b] (s ++ b :: t) = some s.length := find_behind h t

/-- **A rendered field splits into its name and value.** -/
theorem splitHeader_line {f : HeaderField} (h : Trimmed f.value) :
    splitHeader f.line = some (f.name, f.value) := by
  have hline : f.line = f.name ++ 58 :: 32 :: f.value := by
    rw [HeaderField.line, List.append_assoc]
    rfl
  have hcolon : find [58] f.line = some f.name.length := by
    rw [hline]
    exact find_byte f.name_plain.1 _
  have hname : f.line.take f.name.length = f.name := by
    rw [hline]
    exact List.take_left
  have hbehind : f.line.drop (f.name.length + 1) = 32 :: f.value := by
    rw [hline, ← List.drop_drop, List.drop_left]
    rfl
  have hpos : 0 < f.value.length := List.length_pos_of_ne_nil h.1
  simp only [splitHeader, hcolon, hname, hbehind, skipBlanks_of_trimmed h,
    findLastNotOf_of_trimmed h]
  rw [show f.value.length - 1 + 1 = f.value.length from by omega, List.take_length]

/-- The name and the value of a field. -/
def HeaderField.pair (f : HeaderField) : Bytes × Bytes := (f.name, f.value)

theorem filterMap_splitHeader_lines {fields : List HeaderField}
    (h : ∀ f ∈ fields, Trimmed f.value) :
    (fields.map HeaderField.line).filterMap splitHeader = fields.map HeaderField.pair := by
  induction fields with
  | nil => rfl
  | cons f fields ih =>
    rw [List.map_cons, List.filterMap_cons_some (splitHeader_line (h f (List.mem_cons_self ..))),
      ih fun g hg => h g (List.mem_cons_of_mem f hg)]
    rfl

theorem trimmed_toDecimal (n : Nat) : Trimmed (toDecimal n) := by
  have hdigit : ∀ b ∈ toDecimal n, b ∉ blanks := by
    intro b hb hm
    rcases List.mem_cons.mp hm with rfl | hm
    · exact not_mem_toDecimal (by decide) hb
    · rw [List.mem_singleton.mp hm] at hb
      exact not_mem_toDecimal (by decide) hb
  exact ⟨toDecimal_ne_nil n, fun b hb => hdigit b (List.mem_of_mem_head? hb),
    fun b hb => hdigit b (List.mem_of_mem_getLast? hb)⟩

/-- A field that says how long the body is, is read as that. -/
theorem stoull_length {cl : HeaderField} {body : Bytes} (hvalue : cl.value = toDecimal body.length)
    (hsize : body.length < 2 ^ 64) : stoull (32 :: cl.value) = .ok body.length := by
  rw [stoull_cons_space, hvalue, stoull_toDecimal hsize]

/-! ## The round trip -/

/-- **Parsing undoes rendering.**  For every method, target and version without white space, the
    version with `HTTP/` in front, every list of fields with distinct names and trimmed values, one of
    them the decimal length of the body, and every body within the limits: if no other line has the
    text `content-length:`, the rendered request parses without an error, and `build_request` gives
    back the method string, the target, the version, the fields and the body. -/
theorem build_request_of_render {method target version body : Bytes}
    {before behind : List HeaderField} {cl : HeaderField} {maxHeaderSize maxBodySize : Nat}
    (hmethod : IsToken method) (htarget : IsToken target) (hversion : IsToken version)
    (hhttp : str "HTTP/" <+: version)
    (hnames : ((before ++ cl :: behind).map HeaderField.name).Nodup)
    (htrimmed : ∀ f ∈ before ++ behind, Trimmed f.value)
    (hcl : cl.isContentLength = true) (hvalue : cl.value = toDecimal body.length)
    (honly : ∀ line ∈ requestLines (requestLineOf method target version) (before ++ behind),
      ¬ Mentions line)
    (hheader : (render (requestLineOf method target version) (before ++ cl :: behind)).length ≤
      maxHeaderSize)
    (hbody : body.length ≤ maxBodySize) (hsize : maxBodySize < 2 ^ 64) :
    let result := parse (render (requestLineOf method target version) (before ++ cl :: behind) ++
      body) maxHeaderSize maxBodySize
    let req := buildRequest result
    result.error = .none ∧ req.methodString = method ∧ req.path = target ∧
      req.version = version ∧ req.body = body ∧
      (req.headers.entries.map fun e => (e.1, e.2)).Perm
        ((before ++ cl :: behind).map HeaderField.pair) := by
  intro result req
  have ht := tokens_requestLineOf hmethod htarget hversion
  have hplain := plainLines_requestLines ⟨_, _, _, _, ht, hhttp⟩
    (not_mem_requestLineOf hmethod htarget hversion (by decide) (by decide))
    (not_mem_requestLineOf hmethod htarget hversion (by decide) (by decide)) (before ++ cl :: behind)
  have htext : (requestLines (requestLineOf method target version) (before ++ cl :: behind)).findSome?
      textBehind = some (32 :: cl.value) := by
    rw [requestLines_append_cons]
    refine findSome?_textBehind_of_first hcl fun line hl => honly line ?_
    rw [requestLines, List.map_append, ← List.cons_append]
    exact List.mem_append_left _ hl
  have hn := stoull_length hvalue (by omega)
  have hparse : result = _ := parse_renderLines ht hhttp hplain htext hn hheader hbody
  have hall : ∀ f ∈ before ++ cl :: behind, Trimmed f.value := by
    intro f hf
    rcases List.mem_append.mp hf with hf | hf
    · exact htrimmed f (List.mem_append_left _ hf)
    · rcases List.mem_cons.mp hf with rfl | hf
      · rw [hvalue]
        exact trimmed_toDecimal _
      · exact htrimmed f (List.mem_append_right _ hf)
  have hheaders : req.headers =
      HeaderMap.ofPairs ((before ++ cl :: behind).map HeaderField.pair) := by
    show (getlines result.headersRaw).foldl readHeader ∅ = _
    rw [hparse]
    have hlf : ∀ line ∈ (before ++ cl :: behind).map HeaderField.line, 10 ∉ line := by
      intro line hl
      obtain ⟨f, -, rfl⟩ := List.mem_map.mp hl
      exact f.line_plain.2.2
    rw [getlines_collected hlf, foldl_readHeader hlf, filterMap_splitHeader_lines hall]
  refine ⟨by rw [hparse], by simp only [req, hparse, buildRequest],
    by simp only [req, hparse, buildRequest], by simp only [req, hparse, buildRequest],
    by simp only [req, hparse, buildRequest], ?_⟩
  rw [hheaders]
  refine HeaderMap.entries_ofPairs ?_
  rw [List.map_map]
  exact hnames

/-- The theorem on a request whose length stands between two other fields, one with a colon in its
    value, and whose body holds a CRLFCRLF and the text. -/
theorem build_request_of_render_post :
    let req := buildRequest (parse (str "POST /echo HTTP/1.1\r\nHost: localhost:8080\r\n" ++
      str "Content-Length: 22\r\nAccept: text/html, */*\r\n\r\n\r\n\r\ncontent-length: 99") 65536
      1048576)
    req.path = str "/echo" ∧ req.body = str "\r\n\r\ncontent-length: 99" ∧
      (req.headers.entries.map fun e => (e.1, e.2)).Perm
        [(str "Host", str "localhost:8080"), (str "Content-Length", str "22"),
          (str "Accept", str "text/html, */*")] := by
  have h := @build_request_of_render (str "POST") (str "/echo") (str "HTTP/1.1")
    (str "\r\n\r\ncontent-length: 99") [⟨str "Host", str "localhost:8080", by decide, by decide⟩]
    [⟨str "Accept", str "text/html, */*", by decide, by decide⟩]
    ⟨str "Content-Length", str "22", by decide, by decide⟩ 65536 1048576 (by decide) (by decide)
    (by decide) (by decide) (by decide) (by decide) (by decide) (by decide) (by decide) (by decide)
    (by decide) (by decide)
  have hrender : render (requestLineOf (str "POST") (str "/echo") (str "HTTP/1.1"))
      ([⟨str "Host", str "localhost:8080", by decide, by decide⟩] ++
        ⟨str "Content-Length", str "22", by decide, by decide⟩ ::
          [⟨str "Accept", str "text/html, */*", by decide, by decide⟩]) ++
      str "\r\n\r\ncontent-length: 99" =
    str "POST /echo HTTP/1.1\r\nHost: localhost:8080\r\n" ++
      str "Content-Length: 22\r\nAccept: text/html, */*\r\n\r\n\r\n\r\ncontent-length: 99" := by
    decide
  rw [hrender] at h
  exact ⟨h.2.2.1, h.2.2.2.2.1, h.2.2.2.2.2⟩

end HttpServer
