/-
  The request line of an accepted request — which tokens the result is made of.

  1. **Specification** — on the raw bytes: the white-space separated tokens of the first line, which
     ends at the first LF and is read without one trailing CR.

  2. **The crux (`tokens_firstLine_head`)** — `parse` cuts the head off before it reads the line, so
     it may read one CR more than stands in the first line of the raw bytes; white space at the end
     of a line is no token.

  3. **Not a grammar** — three tokens are read and what stands behind them is not looked at, and of
     the third only the prefix `HTTP/` is tested (`parse_accepts_more`).
-/
import HttpServer.HeaderFields

namespace HttpServer

/-! ## The end of a line -/

/-- White space at the end of a text is no token. -/
theorem tokens_append_space {b : Byte} (hb : isspace b = true) (s : Bytes) :
    tokens (s ++ [b]) = tokens s := by
  induction s with
  | nil =>
    rw [List.nil_append, tokens_cons_space hb]
  | cons c s ih =>
    by_cases hc : isspace c = true
    · rw [List.cons_append, tokens_cons_space hc, tokens_cons_space hc, ih]
    · have hc' : isspace c = false := Bool.eq_false_iff.mpr hc
      cases s with
      | nil =>
        show tokens [c, b] = tokens [c]
        simp [tokens, hc', hb]
      | cons d s =>
        rw [List.cons_append] at ih ⊢
        rw [List.cons_append]
        by_cases hd : isspace d = true
        · simp only [tokens.eq_def (c :: d :: _), hc', hd, ih]
        · simp only [tokens.eq_def (c :: d :: _), hc', hd, ih]

theorem tokens_popBack (line : Bytes) : tokens (popBack 13 line) = tokens line := by
  unfold popBack
  by_cases hlast : line.getLast? = some 13
  · rw [if_pos hlast]
    obtain ⟨init, rfl⟩ : ∃ init, line = init ++ [13] := List.getLast?_eq_some_iff.mp hlast
    rw [List.dropLast_concat, tokens_append_space (by decide)]
  · rw [if_neg hlast]

/-! ## The first line -/

/-- Behind an LF, the first line is fixed. -/
theorem firstLine_append_lf {line : Bytes} (h : 10 ∉ line) (s : Bytes) :
    firstLine (line ++ 10 :: s) = popBack 13 line := by
  rw [firstLine, getlines_append h]

/-- **The first line of the head and that of the whole request have the same tokens.** -/
theorem tokens_firstLine_head (head body : Bytes) :
    tokens (firstLine (head ++ crlfcrlf ++ body)) = tokens (firstLine head) := by
  by_cases hlf : 10 ∈ head
  · obtain ⟨line, rest, rfl, hline⟩ := List.eq_append_cons_of_mem hlf
    have hraw : (line ++ 10 :: rest) ++ crlfcrlf ++ body =
        line ++ 10 :: (rest ++ crlfcrlf ++ body) := by
      simp only [List.append_assoc, List.cons_append]
    rw [hraw, firstLine_append_lf hline, firstLine_append_lf hline]
  · -- the head is one line, and the CR behind it belongs to the first line of the request
    have hline : 10 ∉ head ++ [13] := by
      intro hmem
      rcases List.mem_append.mp hmem with hold | hnew
      · exact hlf hold
      · exact absurd (List.mem_singleton.mp hnew) (by decide)
    have hraw : head ++ crlfcrlf ++ body = (head ++ [13]) ++ 10 :: (13 :: 10 :: body) := by
      simp [crlfcrlf]
    rw [hraw, firstLine_append_lf hline, tokens_popBack, tokens_append_space (by decide)]
    by_cases hhead : head = []
    · rw [hhead]
      rfl
    · rw [firstLine, getlines_of_not_mem hlf hhead, tokens_popBack]

/-! ## Accepted requests -/

/-- `frameBody` leaves the request line alone. -/
theorem frameBody_requestLine (result : ParseResult) (located : Located) (bodyData : Bytes)
    (maxBodySize : Nat) :
    (frameBody result located bodyData maxBodySize).method = result.method ∧
      (frameBody result located bodyData maxBodySize).path = result.path ∧
        (frameBody result located bodyData maxBodySize).version = result.version := by
  unfold frameBody
  split
  · exact ⟨rfl, rfl, rfl⟩
  · exact ⟨rfl, rfl, rfl⟩
  · split
    · exact ⟨rfl, rfl, rfl⟩
    · split
      · exact ⟨rfl, rfl, rfl⟩
      · split
        · exact ⟨rfl, rfl, rfl⟩
        · exact ⟨rfl, rfl, rfl⟩

/-- **The result is made of the first three tokens of the first line**, and the third of them starts
    with `HTTP/`. -/
theorem parse_requestLine (raw : Bytes) (maxHeaderSize maxBodySize : Nat)
    (h : (parse raw maxHeaderSize maxBodySize).error = .none) :
    (∃ more, tokens (firstLine raw) =
        (parse raw maxHeaderSize maxBodySize).method ::
          (parse raw maxHeaderSize maxBodySize).path ::
            (parse raw maxHeaderSize maxBodySize).version :: more) ∧
      str "HTTP/" <+: (parse raw maxHeaderSize maxBodySize).version := by
  obtain ⟨H, body, hraw, -, hhead, hparse⟩ := parse_error_none_inv h
  obtain ⟨method, target, version, more, ht, hv⟩ := (parseHead_error_eq_none_iff H.head).mp hhead
  obtain ⟨hmethod, hpath, hversion⟩ :=
    frameBody_requestLine (parseHead H.head) (locateLength H.bytes) body maxBodySize
  have hparseHead := parseHead_of_tokens ht hv
  rw [hparse, hmethod, hpath, hversion, hparseHead]
  refine ⟨⟨more, ?_⟩, hv⟩
  show tokens (firstLine raw) = method :: target :: version :: more
  rw [hraw, H.bytes_eq, ← ht]
  exact tokens_firstLine_head H.head body

/-- The theorem on a request line with a tab, two blanks and one more token. -/
theorem parse_requestLine_extra :
    (∃ more, tokens (firstLine (str "GET\t/a  HTTP/1.1 b\r\n\r\n")) =
        str "GET" :: str "/a" :: str "HTTP/1.1" :: more) ∧ str "HTTP/" <+: str "HTTP/1.1" :=
  parse_requestLine (str "GET\t/a  HTTP/1.1 b\r\n\r\n") 100 100 (by decide)

/-- `HTTP/`, a digit, a dot and a digit. -/
def IsHttpVersion (version : Bytes) : Prop :=
  ∃ x y : Byte, isdigit x = true ∧ isdigit y = true ∧ version = str "HTTP/" ++ [x, 46, y]

/-- A request line may have a fourth token, and its version may be any text behind `HTTP/`. -/
theorem parse_accepts_more :
    (¬∀ (raw : Bytes) (maxHeaderSize maxBodySize : Nat),
        (parse raw maxHeaderSize maxBodySize).error = .none →
          (tokens (firstLine raw)).length = 3) ∧
      ¬∀ (raw : Bytes) (maxHeaderSize maxBodySize : Nat),
        (parse raw maxHeaderSize maxBodySize).error = .none →
          IsHttpVersion (parse raw maxHeaderSize maxBodySize).version := by
  constructor
  · intro h
    exact absurd (h (str "GET / HTTP/1.1 extra\r\n\r\n") 100 100 (by decide)) (by decide)
  · intro h
    obtain ⟨x, y, -, -, hversion⟩ := h (str "GET / HTTP/garbage\r\n\r\n") 100 100 (by decide)
    have hlength : (str "HTTP/garbage").length = (str "HTTP/" ++ [x, 46, y]).length :=
      congrArg List.length hversion
    have hshort : (str "HTTP/" ++ [x, 46, y]).length = 8 := rfl
    rw [hshort] at hlength
    exact absurd hlength (by decide)

end HttpServer
