/-
  Body framing — which bytes decide how long a body is.

  1. **Two lookups on one buffer** (`agreesOnLength_iff`) — `recv_request` looks a length up in the
     whole buffer, `parse` in the header section, and only once it has accepted its size and its
     request line.  They disagree exactly where the loop waits for a number that `parse` never
     reads: one that the buffered body brings itself, or one of a header section that is rejected.

  2. **The text and the field** — a request is rendered from its request line and header lines
     (`render`).  No line can hide a CRLF, so the lookup reads the lines one by one
     (`locateLength_renderLines`) and takes the first that has the text anywhere in it, while the
     field is the first line of that name (`declaredLength`).

  3. **Framing by the field** (`framedByField_iff`) — `parse` frames every body as the field says
     exactly when no line has the text, or when the number behind the first text is the field's; in
     particular when the first line with the text is itself a field of that name
     (`framedByField_of_first`).
-/
import HttpServer.ContentLength
import HttpServer.RequestLine

namespace HttpServer

open ListSearch

/-! ## The receive loop and the parser on one buffer -/

/-- The lookup ended at a text that `stoull` reads as `n`. -/
def LengthIs (located : Located) (n : Nat) : Prop := ∃ v, located = .value v ∧ stoull v = .ok n

/-- What `parse` does with a number it has found. -/
theorem frameBody_of_lengthIs {located : Located} {n : Nat} (h : LengthIs located n)
    (result : ParseResult) (body : Bytes) (maxBodySize : Nat) :
    frameBody result located body maxBodySize =
      if n > maxBodySize then { result with error := .bodyTooLarge }
      else if body.length < n then { result with error := .incomplete }
      else { result with body := body.take n } := by
  obtain ⟨v, rfl, hn⟩ := h
  simp only [frameBody, hn]

/-- `parse` gets as far as its lookup, and the lookup ended at a text that `stoull` reads as `n`. -/
structure ParseFinds (config : Config) (headerEnd : Nat) (request : Bytes) (n : Nat) : Prop where
  fits : headerEnd + 4 ≤ config.maxHeaderSize
  head : (parseHead (request.take headerEnd)).error = .none
  length : LengthIs (locateLength (request.take (headerEnd + 4))) n

/-- **What `parse` makes of the length it finds.** -/
theorem ParseFinds.parse_eq {config : Config} {headerEnd n : Nat} {request : Bytes}
    (h : ParseFinds config headerEnd request n) (hfind : find crlfcrlf request = some headerEnd) :
    parse request config.maxHeaderSize config.maxBodySize =
      if n > config.maxBodySize then
        { parseHead (request.take headerEnd) with error := .bodyTooLarge }
      else if (request.drop (headerEnd + 4)).length < n then
        { parseHead (request.take headerEnd) with error := .incomplete }
      else
        { parseHead (request.take headerEnd) with
          body := (request.drop (headerEnd + 4)).take n } := by
  have hfit : ¬ headerEnd + 4 > config.maxHeaderSize := Nat.not_lt.mpr h.fits
  simp only [parse, hfind, if_neg hfit]
  rw [if_neg (not_not_intro h.head)]
  exact frameBody_of_lengthIs h.length _ _ _

/-- If the receive loop calls `recv` for body bytes of `request`, there is a length it waits for and
    which `parse` finds in the header section. -/
def AgreesOnLength (config : Config) (headerEnd : Nat) (request : Bytes) : Prop :=
  afterHeaders config headerEnd request [] = .waiting request →
    ∃ n, (∀ script, afterHeaders config headerEnd request script =
        recvBody config.maxBodySize (headerEnd + 4) n script request) ∧
      ParseFinds config headerEnd request n

/-- `s` holds the text `content-length:`, and behind its first occurrence, before a CRLF, the number
    `n`. -/
def Declares (s : Bytes) (n : Nat) : Prop :=
  ∃ p e, find contentLengthText (lower s) = some p ∧ find crlf (s.drop (p + 15)) = some e ∧
    stoull (skipBlanks ((s.drop (p + 15)).take e)) = .ok n

theorem lengthIs_locateLength_iff (s : Bytes) (n : Nat) :
    LengthIs (locateLength s) n ↔ Declares s n := by
  unfold LengthIs Declares
  rw [locateLength_eq]
  cases find contentLengthText (lower s) with
  | none => simp
  | some p =>
    cases he : find crlf (s.drop (p + 15)) with
    | none => simp [valueBehind, he]
    | some e => simp [valueBehind, he]

/-- With a length the receive loop is its inner loop. -/
theorem afterHeaders_of_lengthIs {config : Config} {headerEnd n : Nat} {request : Bytes}
    (h : LengthIs (recvLocateLength request) n) (script : List RecvOutcome) :
    afterHeaders config headerEnd request script =
      recvBody config.maxBodySize (headerEnd + 4) n script request := by
  obtain ⟨v, hv, hn⟩ := h
  simp only [afterHeaders, hv, hn]

/-- **When the receive loop calls `recv` for body bytes**: it has found a length, and holds fewer
    body bytes than that and than `max_body_size`. -/
theorem afterHeaders_nil_eq_waiting_iff {config : Config} {headerEnd : Nat} {request : Bytes} :
    afterHeaders config headerEnd request [] = .waiting request ↔
      ∃ n, LengthIs (recvLocateLength request) n ∧ request.length - (headerEnd + 4) < n ∧
        request.length - (headerEnd + 4) < config.maxBodySize := by
  constructor
  · intro h
    unfold afterHeaders at h
    cases hv : recvLocateLength request with
    | absent => rw [hv] at h; cases h
    | dangling => rw [hv] at h; cases h
    | value v =>
      rw [hv] at h
      simp only at h
      cases hn : stoull v with
      | error e => rw [hn] at h; cases h
      | ok n =>
        rw [hn] at h
        simp only [recvBody] at h
        split at h
        · rename_i hlt
          exact ⟨n, ⟨v, rfl, hn⟩, hlt⟩
        · cases h
  · rintro ⟨n, hlen, hlt⟩
    rw [afterHeaders_of_lengthIs hlen, recvBody, if_pos hlt]

/-- Behind a header section without the text, a buffer declares what its body does: there the bytes
    after the CRLFCRLF decide how long the loop waits. -/
theorem declares_iff_body {request : Bytes} {headerEnd : Nat}
    (hfind : find crlfcrlf request = some headerEnd)
    (hm : ¬ Mentions (request.take (headerEnd + 4))) (n : Nat) :
    Declares request n ↔ Declares (request.drop (headerEnd + 4)) n := by
  obtain ⟨H, hH, -, hraw⟩ := exists_headerSection hfind
  have hlook : locateLength request = locateLength (request.drop (headerEnd + 4)) := by
    rw [← hH] at hm
    conv_lhs => rw [hraw]
    exact H.locateLength_append_of_absent hm _
  rw [← lengthIs_locateLength_iff, ← lengthIs_locateLength_iff, hlook]

/-- **When the two lookups agree.**  For every buffer with its first CRLFCRLF at `headerEnd`, the
    loop waits for body bytes only where `parse` finds the same length exactly when `parse` accepts
    the size and the first line of the header section, which has the text `content-length:`, or the
    buffer declares no number that exceeds the count of its body bytes while `max_body_size` exceeds
    it too. -/
theorem agreesOnLength_iff (config : Config) (request : Bytes) (headerEnd : Nat)
    (hfind : find crlfcrlf request = some headerEnd) :
    AgreesOnLength config headerEnd request ↔
      (headerEnd + 4 ≤ config.maxHeaderSize ∧ IsRequestLine (firstLine (request.take headerEnd)) ∧
          Mentions (request.take (headerEnd + 4))) ∨
        ¬ ∃ n, Declares request n ∧ (request.drop (headerEnd + 4)).length < n ∧
          (request.drop (headerEnd + 4)).length < config.maxBodySize := by
  obtain ⟨H, hH, -, hraw⟩ := exists_headerSection hfind
  unfold AgreesOnLength
  rw [afterHeaders_nil_eq_waiting_iff, recvLocateLength_eq, List.length_drop,
    ← parseHead_error_eq_none_iff]
  by_cases haccepted : headerEnd + 4 ≤ config.maxHeaderSize ∧
      (parseHead (request.take headerEnd)).error = .none ∧ Mentions (request.take (headerEnd + 4))
  · obtain ⟨hfits, hhead, hm⟩ := haccepted
    have hlook : locateLength request = locateLength (request.take (headerEnd + 4)) := by
      rw [← hH] at hm ⊢
      conv_lhs => rw [hraw]
      exact H.locateLength_append hm _
    refine iff_of_true ?_ (Or.inl ⟨hfits, hhead, hm⟩)
    rintro ⟨n, hlen, -⟩
    refine ⟨n, fun script => afterHeaders_of_lengthIs ?_ script, hfits, hhead, hlook ▸ hlen⟩
    rwa [recvLocateLength_eq]
  · -- `parse` does not get to a length, so there must be none to wait for
    have hnone : ∀ n, ¬ ParseFinds config headerEnd request n := by
      rintro n ⟨hfits, hhead, v, hv, -⟩
      refine haccepted ⟨hfits, hhead, ?_⟩
      by_contra hm
      rw [← hH] at hm hv
      rw [H.locateLength_absent hm] at hv
      cases hv
    simp only [lengthIs_locateLength_iff, hnone, haccepted, and_false, exists_false, false_or]

/-- The theorem on a request with a length in its header section. -/
theorem agreesOnLength_iff_post :
    AgreesOnLength { threadCount := 2 } 34 (str "POST / HTTP/1.1\r\nContent-Length: 3\r\n\r\na") ↔
      (34 + 4 ≤ ({ threadCount := 2 } : Config).maxHeaderSize ∧
          IsRequestLine (firstLine
            ((str "POST / HTTP/1.1\r\nContent-Length: 3\r\n\r\na").take 34)) ∧
          Mentions ((str "POST / HTTP/1.1\r\nContent-Length: 3\r\n\r\na").take (34 + 4))) ∨
        ¬ ∃ n, Declares (str "POST / HTTP/1.1\r\nContent-Length: 3\r\n\r\na") n ∧
          ((str "POST / HTTP/1.1\r\nContent-Length: 3\r\n\r\na").drop (34 + 4)).length < n ∧
          ((str "POST / HTTP/1.1\r\nContent-Length: 3\r\n\r\na").drop (34 + 4)).length <
            ({ threadCount := 2 } : Config).maxBodySize :=
  agreesOnLength_iff { threadCount := 2 } (str "POST / HTTP/1.1\r\nContent-Length: 3\r\n\r\na") 34
    (by decide)

/-- A body that itself reads `content-length: 99`: the loop waits for 99 bytes that `parse` never
    asks for. -/
theorem body_text_makes_recv_wait :
    find crlfcrlf (str "POST / HTTP/1.1\r\n\r\ncontent-length: 99\r\n") = some 15 ∧
      locateLength ((str "POST / HTTP/1.1\r\n\r\ncontent-length: 99\r\n").take (15 + 4)) = .absent ∧
      ¬ AgreesOnLength { threadCount := 2 } 15
        (str "POST / HTTP/1.1\r\n\r\ncontent-length: 99\r\n") := by
  have habsent : locateLength
      ((str "POST / HTTP/1.1\r\n\r\ncontent-length: 99\r\n").take (15 + 4)) = .absent := by decide
  refine ⟨by decide, habsent, fun h => ?_⟩
  obtain ⟨n, -, hfinds⟩ := h (by decide +kernel)
  obtain ⟨v, hv, -⟩ := hfinds.length
  rw [habsent] at hv
  cases hv

/-! ## Rendered header sections -/

/-- Lines, each ended by a CRLF, and the blank line. -/
def renderLines (lines : List Bytes) : Bytes := (lines.map (· ++ crlf)).flatten ++ crlf

@[simp] theorem renderLines_cons (line : Bytes) (lines : List Bytes) :
    renderLines (line :: lines) = line ++ 13 :: 10 :: renderLines lines := by
  simp [renderLines, crlf]

/-- The first CRLFCRLF at or behind a line without a CR. -/
theorem find_crlfcrlf_line {line : Bytes} (hcr : 13 ∉ line) (rest : Bytes) :
    find crlfcrlf (line ++ 13 :: 10 :: rest) =
      if crlf <+: rest then some line.length
      else (find crlfcrlf rest).map (· + (line.length + 2)) := by
  induction line with
  | nil =>
    -- at the line end itself, a CRLFCRLF starts exactly when another CRLF follows
    by_cases hp : crlf <+: rest
    · have hp' : crlfcrlf <+: 13 :: 10 :: rest :=
        List.cons_prefix_cons.mpr ⟨rfl, List.cons_prefix_cons.mpr ⟨rfl, hp⟩⟩
      rw [List.nil_append, find, if_pos hp', if_pos hp, List.length_nil]
    · have hp₁ : ¬ crlfcrlf <+: 13 :: 10 :: rest := fun h =>
        hp (List.cons_prefix_cons.mp (List.cons_prefix_cons.mp h).2).2
      have hp₂ : ¬ crlfcrlf <+: 10 :: rest := fun h =>
        absurd (List.cons_prefix_cons.mp h).1 (by decide)
      rw [List.nil_append, find, if_neg hp₁, find, if_neg hp₂, if_neg hp, Option.map_map]
      rfl
  | cons b line ih =>
    have hb : b ≠ 13 := fun hb => hcr (by rw [hb]; exact List.mem_cons_self ..)
    have hl : 13 ∉ line := fun hm => hcr (List.mem_cons_of_mem b hm)
    have hp : ¬ crlfcrlf <+: b :: (line ++ 13 :: 10 :: rest) := fun h =>
      hb (List.cons_prefix_cons.mp h).1.symm
    rw [List.cons_append, find, if_neg hp, ih hl]
    split
    · rfl
    · rw [Option.map_map, List.length_cons]
      rfl

/-- A list of non-empty lines without CR or LF. -/
def PlainLines (lines : List Bytes) : Prop :=
  ∀ line ∈ lines, line ≠ [] ∧ 13 ∉ line ∧ 10 ∉ line

instance (lines : List Bytes) : Decidable (PlainLines lines) :=
  inferInstanceAs (Decidable (∀ line ∈ lines, _))

theorem crlf_prefix_renderLines {lines : List Bytes} (h : PlainLines lines) :
    crlf <+: renderLines lines ↔ lines = [] := by
  cases lines with
  | nil => simp [renderLines]
  | cons line lines =>
    obtain ⟨hne, hcr, -⟩ := h line (List.mem_cons_self ..)
    obtain ⟨b, s, rfl⟩ := List.exists_cons_of_ne_nil hne
    refine iff_of_false (fun hp => hcr ?_) (List.cons_ne_nil _ _)
    rw [renderLines_cons] at hp
    rw [← (List.cons_prefix_cons.mp hp).1]
    exact List.mem_cons_self ..

/-- **Rendered lines are a header section.** -/
theorem find_crlfcrlf_renderLines {lines : List Bytes} (h : PlainLines lines) (hne : lines ≠ []) :
    find crlfcrlf (renderLines lines) = some ((renderLines lines).length - 4) := by
  induction lines with
  | nil => exact absurd rfl hne
  | cons line lines ih =>
    have hlines : PlainLines lines := fun l hl => h l (List.mem_cons_of_mem line hl)
    rw [renderLines_cons, find_crlfcrlf_line (h line (List.mem_cons_self ..)).2.1]
    by_cases hnil : lines = []
    · rw [if_pos ((crlf_prefix_renderLines hlines).mpr hnil), hnil]
      simp [renderLines, crlf]
    · have hfind := ih hlines hnil
      have hfit : (renderLines lines).length - 4 + 4 ≤ (renderLines lines).length :=
        find_add_length_le hfind
      rw [if_neg (fun hp => hnil ((crlf_prefix_renderLines hlines).mp hp)), hfind,
        Option.map_some, List.length_append, List.length_cons, List.length_cons]
      congr 1
      omega

/-- Rendered lines as a header section. -/
def headerSectionOf (lines : List Bytes) (h : PlainLines lines) (hne : lines ≠ []) :
    HeaderSection where
  bytes := renderLines lines
  four_le := by
    have hfit := find_add_length_le (find_crlfcrlf_renderLines h hne)
    have hfour : crlfcrlf.length = 4 := rfl
    omega
  ends := find_crlfcrlf_renderLines h hne

/-- The first line of rendered lines is the first line. -/
theorem firstLine_head {line : Bytes} {lines : List Bytes} (h : PlainLines (line :: lines)) :
    firstLine (headerSectionOf (line :: lines) h (List.cons_ne_nil _ _)).head = line := by
  obtain ⟨hne, hcr, hlf⟩ := h line (List.mem_cons_self ..)
  have hlast : line.getLast? ≠ some 13 := fun hl => hcr (List.mem_of_getLast? hl)
  show firstLine ((renderLines (line :: lines)).take ((renderLines (line :: lines)).length - 4)) = _
  cases lines with
  | nil =>
    -- the line end of a single line is part of the CRLFCRLF, so no `\r` is left to drop
    have hhead : (renderLines [line]).take ((renderLines [line]).length - 4) = line := by
      simp [renderLines, crlf]
    rw [hhead, firstLine, getlines_of_not_mem hlf hne]
    simp only [popBack, if_neg hlast]
  | cons line' lines =>
    -- before further lines `getline` leaves the `\r` of the line end, and `popBack` drops it
    have hhead : ∃ rest, (renderLines (line :: line' :: lines)).take
        ((renderLines (line :: line' :: lines)).length - 4) = (line ++ [13]) ++ 10 :: rest := by
      have hlen : 2 ≤ (renderLines lines).length := by simp [renderLines, crlf]
      refine ⟨(line' ++ 13 :: 10 :: renderLines lines).take
        ((renderLines (line :: line' :: lines)).length - 4 - (line.length + 2)), ?_⟩
      rw [renderLines_cons, renderLines_cons,
        show line ++ 13 :: 10 :: (line' ++ 13 :: 10 :: renderLines lines) =
          (line ++ [13, 10]) ++ (line' ++ 13 :: 10 :: renderLines lines) from by simp,
        List.take_append, List.take_of_length_le]
      · simp
      · simp only [List.length_append, List.length_cons, List.length_nil]
        omega
    obtain ⟨rest, hrest⟩ := hhead
    have hcr' : 10 ∉ line ++ [13] := by simpa using hlf
    rw [hrest, firstLine, getlines_append hcr']
    simp [popBack]

/-! ## The lookup reads the lines one by one -/

/-- The text behind the first `content-length:` of a line. -/
def textBehind (line : Bytes) : Option Bytes :=
  (find contentLengthText (lower line)).map fun p => line.drop (p + 15)

theorem textBehind_eq_none_iff {line : Bytes} : textBehind line = none ↔ ¬ Mentions line := by
  rw [textBehind, Option.map_eq_none_iff, find_eq_none_iff_not_mentions]

/-- The first CRLF behind text without a CR. -/
theorem find_crlf_line {line : Bytes} (hcr : 13 ∉ line) (rest : Bytes) :
    find crlf (line ++ 13 :: 10 :: rest) = some line.length := find_behind hcr rest

/-- One line of the lookup: the line itself, or the lines behind it. -/
theorem locateLength_line {line : Bytes} (hcr : 13 ∉ line) (rest : Bytes) :
    locateLength (line ++ 13 :: 10 :: rest) =
      match textBehind line with
      | some v => .value (skipBlanks v)
      | none => locateLength rest := by
  have hlower : lower (line ++ 13 :: 10 :: rest) = lower line ++ 13 :: 10 :: lower rest := by
    simp [tolower]
  have hsecond : find contentLengthText (10 :: lower rest) =
      (find contentLengthText (lower rest)).map (· + 1) :=
    find_append_cons lf_not_mem_contentLengthText contentLengthText_ne_nil [] (lower rest)
  rw [locateLength_eq, hlower,
    find_append_cons cr_not_mem_contentLengthText contentLengthText_ne_nil, hsecond]
  unfold textBehind
  cases hp : find contentLengthText (lower line) with
  | some p =>
    have hfit := find_add_length_le hp
    rw [contentLengthText_length, lower_length] at hfit
    have hcr' : 13 ∉ line.drop (p + 15) := fun hm => hcr (List.mem_of_mem_drop hm)
    simp only [Option.map_some, valueBehind]
    rw [List.drop_append_of_le_length hfit, find_crlf_line hcr']
    simp only [List.take_left]
  | none =>
    rw [locateLength_eq]
    cases find contentLengthText (lower rest) with
    | none => rfl
    | some q =>
      simp only [Option.map_some, Option.map_none, lower_length, valueBehind]
      rw [show q + 1 + (line.length + 1) + 15 = line.length + (2 + (q + 15)) from by omega,
        ← List.drop_drop, List.drop_left, ← List.drop_drop]
      rfl

/-- **The lookup takes the first line with the text.** -/
theorem locateLength_renderLines {lines : List Bytes} (h : PlainLines lines) :
    locateLength (renderLines lines) =
      match lines.findSome? textBehind with
      | some v => .value (skipBlanks v)
      | none => .absent := by
  induction lines with
  | nil => decide
  | cons line lines ih =>
    have hlines : PlainLines lines := fun l hl => h l (List.mem_cons_of_mem line hl)
    rw [renderLines_cons, locateLength_line (h line (List.mem_cons_self ..)).2.1,
      List.findSome?_cons]
    cases textBehind line with
    | some v => rfl
    | none => exact ih hlines

/-! ## The length a request declares -/

/-- A header line `name: value`. -/
structure HeaderField where
  name : Bytes
  value : Bytes
  name_plain : 58 ∉ name ∧ 13 ∉ name ∧ 10 ∉ name
  value_plain : 13 ∉ value ∧ 10 ∉ value

/-- The line on the wire, without its line end. -/
def HeaderField.line (f : HeaderField) : Bytes := f.name ++ str ": " ++ f.value

/-- The name, the text before the first colon, is `content-length` in some case. -/
def HeaderField.isContentLength (f : HeaderField) : Bool := lower f.name = str "content-length"

/-- The request line and the header lines of a request. -/
def requestLines (requestLine : Bytes) (fields : List HeaderField) : List Bytes :=
  requestLine :: fields.map HeaderField.line

/-- The header section of a request, CRLFCRLF included. -/
def render (requestLine : Bytes) (fields : List HeaderField) : Bytes :=
  renderLines (requestLines requestLine fields)

/-- The number `stoull` reads, if it reads one. -/
def readNumber (v : Bytes) : Option Nat := (stoull v).toOption

/-- The length a request declares: the value of its first Content-Length field.  `some none` is a
    field whose value is no number. -/
def declaredLength (fields : List HeaderField) : Option (Option Nat) :=
  (fields.find? HeaderField.isContentLength).map fun f => readNumber f.value

/-- Error and body of a request framed by a declared length. -/
def framedAs (maxBodySize : Nat) (declared : Option (Option Nat)) (body : Bytes) :
    ParseError × Bytes :=
  match declared with
  | none => (.none, body)
  | some none => (.malformed, [])
  | some (some n) =>
    if n > maxBodySize then (.bodyTooLarge, [])
    else if body.length < n then (.incomplete, [])
    else (.none, body.take n)

/-- `parse` frames every body behind this header section as its Content-Length field says. -/
def FramedByField (requestLine : Bytes) (fields : List HeaderField) : Prop :=
  ∀ (body : Bytes) (maxHeaderSize maxBodySize : Nat),
    (render requestLine fields).length ≤ maxHeaderSize →
      ((parse (render requestLine fields ++ body) maxHeaderSize maxBodySize).error,
        (parse (render requestLine fields ++ body) maxHeaderSize maxBodySize).body) =
        framedAs maxBodySize (declaredLength fields) body

/-! ### Framing by the first text -/

theorem dropWhile_isspace_skipBlanks (v : Bytes) :
    (skipBlanks v).dropWhile isspace = v.dropWhile isspace := by
  unfold skipBlanks findFirstNotOf
  cases h : v.findIdx? (fun b => !blanks.contains b) with
  | none => rfl
  | some start =>
    show (v.drop start).dropWhile isspace = _
    obtain ⟨hlt, -, hmin⟩ := List.findIdx?_eq_some_iff_getElem.mp h
    have hblank : ∀ b ∈ v.take start, isspace b = true := by
      intro b hb
      obtain ⟨j, hj, rfl⟩ := List.mem_take_iff_getElem.mp hb
      have hjs : j < start := by omega
      have hmem : v[j] ∈ blanks := by simpa using hmin j hjs
      rcases List.mem_cons.mp hmem with h32 | h9
      · rw [h32]; decide
      · rw [List.mem_singleton.mp h9]; decide
    conv_rhs => rw [← List.take_append_drop start v, List.dropWhile_append_of_pos hblank]

/-- `stoull` skips white space itself, so the guarded cut before it changes nothing. -/
theorem stoull_skipBlanks (v : Bytes) : stoull (skipBlanks v) = stoull v := by
  simp only [stoull, dropWhile_isspace_skipBlanks]

theorem stoull_cons_space (v : Bytes) : stoull (32 :: v) = stoull v := by
  have hdrop : List.dropWhile isspace (32 :: v) = v.dropWhile isspace :=
    List.dropWhile_cons_of_pos (by decide)
  simp only [stoull, hdrop]

/-- `frameBody` in terms of the number behind the located text. -/
theorem frameBody_eq_framedAs {result : ParseResult} (herr : result.error = .none)
    (hbody : result.body = []) (v body : Bytes) (maxBodySize : Nat) :
    ((frameBody result (.value (skipBlanks v)) body maxBodySize).error,
        (frameBody result (.value (skipBlanks v)) body maxBodySize).body) =
      framedAs maxBodySize (some (readNumber v)) body := by
  simp only [frameBody, stoull_skipBlanks, readNumber]
  cases stoull v with
  | error e => simp [Except.toOption, framedAs, hbody]
  | ok n =>
    simp only [Except.toOption, framedAs]
    by_cases hbig : n > maxBodySize
    · simp [if_pos hbig, hbody]
    · by_cases hshort : body.length < n
      · simp [if_neg hbig, if_pos hshort, hbody]
      · simp [if_neg hbig, if_neg hshort, herr]

theorem parseHead_body (headersSection : Bytes) : (parseHead headersSection).body = [] := by
  have hread : ∀ line, (readRequestLine line).1.body = [] := by
    intro line
    unfold readRequestLine
    split
    · rfl
    · split
      · rfl
      · split <;> rfl
  unfold parseHead
  split
  · rfl
  · simp only
    split
    · exact hread _
    · split <;> exact hread _

theorem HeaderField.line_plain (f : HeaderField) :
    f.line ≠ [] ∧ 13 ∉ f.line ∧ 10 ∉ f.line := by
  have hsep : 13 ∉ str ": " ∧ 10 ∉ str ": " := by decide
  refine ⟨?_, ?_, ?_⟩
  · simp [line, str]
  · simp only [line, List.mem_append, not_or]
    exact ⟨⟨f.name_plain.2.1, hsep.1⟩, f.value_plain.1⟩
  · simp only [line, List.mem_append, not_or]
    exact ⟨⟨f.name_plain.2.2, hsep.2⟩, f.value_plain.2⟩

theorem tokens_nil_of_isRequestLine_ne {line : Bytes} (h : IsRequestLine line) : line ≠ [] := by
  rintro rfl
  obtain ⟨_, _, _, _, ht, -⟩ := h
  cases ht

theorem plainLines_requestLines {requestLine : Bytes} (hline : IsRequestLine requestLine)
    (hcr : 13 ∉ requestLine) (hlf : 10 ∉ requestLine) (fields : List HeaderField) :
    PlainLines (requestLines requestLine fields) := by
  intro line hmem
  rcases List.mem_cons.mp hmem with rfl | hmem
  · exact ⟨tokens_nil_of_isRequestLine_ne hline, hcr, hlf⟩
  · obtain ⟨f, -, rfl⟩ := List.mem_map.mp hmem
    exact f.line_plain

/-- **What `parse` does with a rendered request**: it frames the body by the number behind the first
    `content-length:` of any line. -/
theorem parse_render {requestLine : Bytes} (hline : IsRequestLine requestLine)
    (hcr : 13 ∉ requestLine) (hlf : 10 ∉ requestLine) (fields : List HeaderField) (body : Bytes)
    {maxHeaderSize : Nat} (hmax : (render requestLine fields).length ≤ maxHeaderSize)
    (maxBodySize : Nat) :
    ((parse (render requestLine fields ++ body) maxHeaderSize maxBodySize).error,
        (parse (render requestLine fields ++ body) maxHeaderSize maxBodySize).body) =
      framedAs maxBodySize
        (((requestLines requestLine fields).findSome? textBehind).map readNumber) body := by
  have hplain := plainLines_requestLines hline hcr hlf fields
  let H := headerSectionOf (requestLines requestLine fields) hplain (List.cons_ne_nil _ _)
  have hok : (parseHead H.head).error = .none := by
    have hfirst : firstLine H.head = requestLine := firstLine_head hplain
    rw [parseHead_error_eq_none_iff, hfirst]
    exact hline
  have hfit : ¬ H.bytes.length > maxHeaderSize := Nat.not_lt.mpr hmax
  have hparse := H.parse_append body maxHeaderSize maxBodySize
  rw [if_neg hfit, if_neg (not_not_intro hok)] at hparse
  show ((parse (H.bytes ++ body) maxHeaderSize maxBodySize).error,
    (parse (H.bytes ++ body) maxHeaderSize maxBodySize).body) = _
  rw [hparse, show H.bytes = renderLines (requestLines requestLine fields) from rfl,
    locateLength_renderLines hplain]
  cases (requestLines requestLine fields).findSome? textBehind with
  | some v => exact frameBody_eq_framedAs hok (parseHead_body _) v body maxBodySize
  | none => simp [frameBody, framedAs, hok]

/-! ### Framing by the field -/

/-- Two declared lengths that frame every body alike are the same. -/
theorem framedAs_injective {d d' : Option (Option Nat)}
    (h : ∀ body maxBodySize, framedAs maxBodySize d body = framedAs maxBodySize d' body) :
    d = d' := by
  -- with room for `m` bytes and `m` bytes sent, the cut body shows the length
  have hcut : ∀ n m : Nat, n ≤ m →
      framedAs m (some (some n)) (List.replicate m 0) = (.none, List.replicate n 0) := by
    intro n m hnm
    simp [framedAs, Nat.not_lt.mpr hnm, Nat.min_eq_left hnm]
  have hwhole : ∀ n : Nat, framedAs (n + 1) (some (some n)) (List.replicate (n + 1) 0) ≠
      framedAs (n + 1) none (List.replicate (n + 1) 0) := by
    intro n heq
    rw [hcut n (n + 1) (Nat.le_succ n)] at heq
    have := congrArg (fun r => r.2.length) heq
    simp [framedAs] at this
  have hbad : ∀ n : Nat, framedAs n (some (some n)) (List.replicate n 0) ≠
      framedAs n (some none) (List.replicate n 0) := by
    intro n heq
    rw [hcut n n (Nat.le_refl n)] at heq
    have := congrArg Prod.fst heq
    simp [framedAs] at this
  rcases d with _ | _ | n <;> rcases d' with _ | _ | m
  · rfl
  · exact absurd (congrArg Prod.fst (h [] 0)) (by decide)
  · exact absurd (h _ _).symm (hwhole m)
  · exact absurd (congrArg Prod.fst (h [] 0)) (by decide)
  · rfl
  · exact absurd (h _ _).symm (hbad m)
  · exact absurd (h _ _) (hwhole n)
  · exact absurd (h _ _) (hbad n)
  · have heq := h (List.replicate (max n m) 0) (max n m)
    rw [hcut n _ (Nat.le_max_left n m), hcut m _ (Nat.le_max_right n m)] at heq
    have := congrArg (fun r => r.2.length) heq
    simp only [List.length_replicate] at this
    rw [this]

/-- The text behind the name of a Content-Length field is its value. -/
theorem textBehind_line_of_isContentLength {f : HeaderField} (h : f.isContentLength = true) :
    textBehind f.line = some (32 :: f.value) := by
  have hname : lower f.name = str "content-length" := by
    simpa [HeaderField.isContentLength] using h
  have hlen : f.name.length = 14 := by rw [← lower_length, hname]; rfl
  have hlow : lower f.line = contentLengthText ++ 32 :: lower f.value := by
    have hsep : lower (str ": ") = [58, 32] := by decide
    rw [HeaderField.line, lower_append, lower_append, hname, hsep]
    simp [contentLengthText, str]
  have hfind : find contentLengthText (lower f.line) = some 0 := by
    rw [hlow, find_eq_zero_iff]
    exact List.prefix_append _ _
  rw [textBehind, hfind, Option.map_some, HeaderField.line, List.append_assoc,
    show 0 + 15 = f.name.length + 1 from by rw [hlen], ← List.drop_drop, List.drop_left]
  rfl

theorem mentions_line_of_isContentLength {f : HeaderField} (h : f.isContentLength = true) :
    Mentions f.line := by
  by_contra hm
  rw [← textBehind_eq_none_iff, textBehind_line_of_isContentLength h] at hm
  cases hm

/-- **When `parse` frames by the Content-Length field alone.**  For every request line and every
    list of header lines, exactly when no line has the text `content-length:`, or there is such a field
    and the number behind the first text of any line is the number in the first field. -/
theorem framedByField_iff (requestLine : Bytes) (fields : List HeaderField)
    (hline : IsRequestLine requestLine) (hcr : 13 ∉ requestLine) (hlf : 10 ∉ requestLine) :
    FramedByField requestLine fields ↔
      (∀ line ∈ requestLines requestLine fields, ¬ Mentions line) ∨
        ∃ v f, (requestLines requestLine fields).findSome? textBehind = some v ∧
          fields.find? HeaderField.isContentLength = some f ∧ readNumber v = readNumber f.value := by
  have hsame : FramedByField requestLine fields ↔
      ((requestLines requestLine fields).findSome? textBehind).map readNumber =
        declaredLength fields := by
    constructor
    · intro h
      refine framedAs_injective fun body maxBodySize => ?_
      rw [← h body _ maxBodySize (Nat.le_refl _),
        parse_render hline hcr hlf fields body (Nat.le_refl _) maxBodySize]
    · intro h body maxHeaderSize maxBodySize hmax
      rw [parse_render hline hcr hlf fields body hmax maxBodySize, h]
  rw [hsame, declaredLength]
  cases htext : (requestLines requestLine fields).findSome? textBehind with
  | none =>
    have hnone : ∀ line ∈ requestLines requestLine fields, ¬ Mentions line := fun line hl =>
      textBehind_eq_none_iff.mp (List.findSome?_eq_none_iff.mp htext line hl)
    have hfield : fields.find? HeaderField.isContentLength = none := by
      refine List.find?_eq_none.mpr fun f hf hcl => ?_
      exact hnone f.line (List.mem_cons_of_mem _ (List.mem_map_of_mem hf))
        (mentions_line_of_isContentLength hcl)
    rw [hfield]
    exact iff_of_true rfl (Or.inl hnone)
  | some v =>
    have hsome : ¬ ∀ line ∈ requestLines requestLine fields, ¬ Mentions line := by
      intro hnone
      obtain ⟨line, hl, hv⟩ := List.exists_of_findSome?_eq_some htext
      rw [textBehind_eq_none_iff.mpr (hnone line hl)] at hv
      cases hv
    cases hfield : fields.find? HeaderField.isContentLength with
    | none => simp [hsome]
    | some f => simp [hsome]

/-- The first line with the text is a Content-Length field. -/
theorem findSome?_textBehind_of_first {before behind : List Bytes} {f : HeaderField}
    (hcl : f.isContentLength = true) (hbefore : ∀ line ∈ before, ¬ Mentions line) :
    (before ++ f.line :: behind).findSome? textBehind = some (32 :: f.value) := by
  have hnone : before.findSome? textBehind = none :=
    List.findSome?_eq_none_iff.mpr fun line hl => textBehind_eq_none_iff.mpr (hbefore line hl)
  rw [List.findSome?_append, hnone, Option.none_or, List.findSome?_cons,
    textBehind_line_of_isContentLength hcl]

theorem requestLines_append_cons (requestLine : Bytes) (before behind : List HeaderField)
    (f : HeaderField) :
    requestLines requestLine (before ++ f :: behind) =
      requestLines requestLine before ++ f.line :: behind.map HeaderField.line := by
  simp [requestLines]

/-- **In particular**: the first line with the text is itself a Content-Length field. -/
theorem framedByField_of_first {requestLine : Bytes} {before behind : List HeaderField}
    {f : HeaderField} (hline : IsRequestLine requestLine) (hcr : 13 ∉ requestLine)
    (hlf : 10 ∉ requestLine) (hcl : f.isContentLength = true)
    (hbefore : ∀ line ∈ requestLines requestLine before, ¬ Mentions line) :
    FramedByField requestLine (before ++ f :: behind) := by
  have htext : (requestLines requestLine (before ++ f :: behind)).findSome? textBehind =
      some (32 :: f.value) := by
    rw [requestLines_append_cons]
    exact findSome?_textBehind_of_first hcl hbefore
  have hfield : (before ++ f :: behind).find? HeaderField.isContentLength = some f := by
    have hnone : before.find? HeaderField.isContentLength = none := by
      refine List.find?_eq_none.mpr fun g hg hgcl => ?_
      exact hbefore g.line (List.mem_cons_of_mem _ (List.mem_map_of_mem hg))
        (mentions_line_of_isContentLength hgcl)
    rw [List.find?_append, hnone, Option.none_or, List.find?_cons_of_pos hcl]
  intro body maxHeaderSize maxBodySize hmax
  rw [parse_render hline hcr hlf _ body hmax maxBodySize, htext, declaredLength, hfield]
  simp only [Option.map_some, readNumber, stoull_cons_space]

/-- The theorem on a request whose first header line is its length. -/
theorem framedByField_iff_post :
    FramedByField (str "POST / HTTP/1.1")
        [⟨str "Content-Length", str "3", by decide, by decide⟩] ↔
      (∀ line ∈ requestLines (str "POST / HTTP/1.1")
          [⟨str "Content-Length", str "3", by decide, by decide⟩], ¬ Mentions line) ∨
        ∃ v f, (requestLines (str "POST / HTTP/1.1")
            [⟨str "Content-Length", str "3", by decide, by decide⟩]).findSome? textBehind = some v ∧
          [⟨str "Content-Length", str "3", by decide, by decide⟩].find?
            HeaderField.isContentLength = some f ∧ readNumber v = readNumber f.value :=
  framedByField_iff (str "POST / HTTP/1.1")
    [⟨str "Content-Length", str "3", by decide, by decide⟩] (by decide) (by decide) (by decide)

/-- `X-Content-Length: 3` is no Content-Length field, and yet `parse` cuts the body to three
    bytes. -/
theorem other_field_frames_body :
    IsRequestLine (str "POST / HTTP/1.1") ∧
      declaredLength [⟨str "X-Content-Length", str "3", by decide, by decide⟩] = none ∧
      ¬ FramedByField (str "POST / HTTP/1.1")
        [⟨str "X-Content-Length", str "3", by decide, by decide⟩] := by
  refine ⟨by decide, by decide, fun h => ?_⟩
  have hcut := congrArg Prod.snd (h (str "abcde") 65536 1048576 (by decide))
  exact absurd hcut (by decide +kernel)

end HttpServer
