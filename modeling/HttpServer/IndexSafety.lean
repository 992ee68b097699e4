/-
  Index arithmetic — `parse` and `recv_request` with every position checked.

  1. **Program** — `Checked.parse` and `Checked.recvRequest` are the two functions once more, with
     every `substr`, sum and difference of the source as a checked operation; a search without a
     match is `npos`, and `colon_pos + 1` is computed before it is compared with that.

  2. **The length line is complete (`LengthLine`)** — a match in the lower-cased header section has
     its colon as its last byte, and ends before the final CRLFCRLF, which starts with a line end.
     So the branch of `parse` for a match without a colon or a line end is never taken.

  3. **No fault** — a position that a search returns leaves room for what it found, and the line end
     is found behind the colon; so both lookups run through (`locateLength_eq`), and in the receive
     loops the header section never outgrows the buffer (`recvBody_eq`).

  4. **Bridge** — the checked functions compute what the model does (`indices_safe`): for every
     string, and for every script up to the point where no string holds the bytes.
-/
import HttpServer.Lib.SizeT
import HttpServer.RecvPhases

namespace HttpServer

open ListSearch

/-! ## The checked functions -/

namespace Checked

open SizeT

/-- `start = v.find_first_not_of(" \t")`, and the cut there. -/
def skipBlanks (v : Bytes) : Except Fault Bytes :=
  match findFirstNotOf blanks v with
  | some start => substrFrom v start
  | none => .ok v

/-- The text between a colon and a line end. -/
def valueBetween (s : Bytes) (colonPos eolPos : Nat) : Except Fault Located := do
  let start ← add colonPos 1
  let behindColon ← sub eolPos colonPos
  let count ← sub behindColon 1
  let clValue ← SizeT.substr s start count
  let clValue ← skipBlanks clValue
  .ok (.value clValue)

/-- The lookup of `parse`. -/
def locateLength (rawUpToHeaders : Bytes) : Except Fault Located :=
  match find contentLengthText (lower rawUpToHeaders) with
  | none => .ok .absent
  | some clPos => do
    let colonPos := findFrom [58] rawUpToHeaders clPos
    -- before `colon_pos != npos` is tested
    let start ← add (orNpos colonPos) 1
    match colonPos, findFrom crlf rawUpToHeaders start with
    | some colonPos, some eolPos => valueBetween rawUpToHeaders colonPos eolPos
    | _, _ => .ok .dangling

/-- The limits and the cut of the body. -/
def frameBody (result : ParseResult) (located : Located) (bodyData : Bytes) (maxBodySize : Nat) :
    Except Fault ParseResult :=
  match located with
  | .absent => .ok { result with body := bodyData }
  | .dangling => .ok result
  | .value clValue =>
    match stoull clValue with
    | .error _ => .ok { result with error := .malformed }
    | .ok contentLength =>
      if contentLength > maxBodySize then .ok { result with error := .bodyTooLarge }
      else if bodyData.length < contentLength then .ok { result with error := .incomplete }
      else do
        let body ← SizeT.substr bodyData 0 contentLength
        .ok { result with body := body }

/-- `HttpParser::parse`. -/
def parse (raw : Bytes) (maxHeaderSize maxBodySize : Nat) : Except Fault ParseResult :=
  match find crlfcrlf raw with
  | none => .ok { error := .incomplete }
  | some headerEnd => do
    let headerSize ← add headerEnd 4
    if headerSize > maxHeaderSize then .ok { error := .headerTooLarge }
    else do
      let headersSection ← SizeT.substr raw 0 headerEnd
      let bodyData ← substrFrom raw headerSize
      let result := parseHead headersSection
      if result.error ≠ .none then .ok result
      else do
        let rawUpToHeaders ← SizeT.substr raw 0 headerSize
        let located ← locateLength rawUpToHeaders
        frameBody result located bodyData maxBodySize

/-- The lookup of `recv_request`. -/
def recvLocateLength (request : Bytes) : Except Fault Located :=
  match find contentLengthText (lower request) with
  | none => .ok .absent
  | some clPos =>
    let colonPos := findFrom [58] request clPos
    match colonPos, findFrom crlf request (orNpos colonPos) with
    | some colonPos, some eolPos => valueBetween request colonPos eolPos
    | _, _ => .ok .dangling

/-- The inner loop. -/
def recvBody (maxBodySize headerSize contentLength : Nat) (script : List RecvOutcome)
    (request : Bytes) : Except Fault RecvResult := do
  let bodySoFar ← sub request.length headerSize
  if bodySoFar < contentLength ∧ bodySoFar < maxBodySize then
    match script with
    | [] => .ok (.waiting request)
    | .data chunk :: rest => do
      let request ← append request chunk.bytes
      recvBody maxBodySize headerSize contentLength rest request
    | .eof :: rest | .eintr :: rest | .eagain :: rest | .error :: rest =>
      .ok (.returned request rest)
  else .ok (.returned request script)

/-- What the loop does with a buffer that holds a CRLFCRLF. -/
def afterHeaders (config : Config) (request : Bytes) (script : List RecvOutcome) :
    Except Fault RecvResult := do
  let located ← recvLocateLength request
  match located with
  | .absent => .ok (.returned request script)
  | .dangling => .ok (.returned request script)
  | .value clValue =>
    match stoull clValue with
    | .error _ => .ok (.returned request script)
    | .ok contentLength => do
      let headerSize ← add (orNpos (find crlfcrlf request)) 4
      recvBody config.maxBodySize headerSize contentLength script request

/-- The outer loop. -/
def recvLoop (config : Config) : List RecvOutcome → Bytes → Except Fault RecvResult
  | [], request => .ok (.waiting request)
  | .eof :: rest, request => .ok (.returned request rest)
  | .eintr :: rest, request => recvLoop config rest request
  | .eagain :: rest, request => recvLoop config rest request
  | .error :: rest, request => .ok (.returned request rest)
  | .data chunk :: rest, request => do
    let request ← append request chunk.bytes
    if (find crlfcrlf request).isSome then afterHeaders config request rest
    else if request.length > config.maxHeaderSize then .ok (.returned request rest)
    else recvLoop config rest request

/-- `TcpServer::recv_request`. -/
def recvRequest (config : Config) (script : List RecvOutcome) : Except Fault RecvResult :=
  recvLoop config script []

/-! ## The lookups -/

/-- The first byte that is not blank is in the text. -/
theorem skipBlanks_eq (v : Bytes) : skipBlanks v = .ok (HttpServer.skipBlanks v) := by
  unfold skipBlanks HttpServer.skipBlanks
  cases hstart : findFirstNotOf blanks v with
  | none => rfl
  | some start =>
    obtain ⟨hlt, -⟩ := List.findIdx?_eq_some_iff_findIdx_eq.mp hstart
    exact substrFrom_of_le hlt.le

/-- **The value runs through** if the line end stands behind the colon. -/
theorem valueBetween_eq {s : Bytes} {colonPos eolPos : Nat} (hs : s.length < limit)
    (hbehind : colonPos + 1 ≤ eolPos) (hfit : eolPos ≤ s.length) :
    valueBetween s colonPos eolPos =
      .ok (.value (HttpServer.skipBlanks (HttpServer.substr s (colonPos + 1)
        (eolPos - colonPos - 1)))) := by
  have hstart : colonPos + 1 ≤ s.length := hbehind.trans hfit
  unfold valueBetween
  rw [add_of_lt (hstart.trans_lt hs), ok_bind, sub_of_le (by omega), ok_bind, sub_of_le (by omega),
    ok_bind, substr_of_le hstart, ok_bind, skipBlanks_eq, ok_bind]
  rfl

/-- **The lookup of `parse` runs through** on every string. -/
theorem locateLength_eq {s : Bytes} (hs : s.length < limit) :
    locateLength s = .ok (HttpServer.locateLength s) := by
  unfold locateLength HttpServer.locateLength
  cases hp : find contentLengthText (lower s) with
  | none => rfl
  | some p =>
    have hcolon := findFrom_colon hp
    have hfit := find_add_length_le hp
    rw [contentLengthText_length, lower_length] at hfit
    simp only
    rw [hcolon, orNpos_some, add_of_lt (by omega), ok_bind]
    simp only
    cases heol : findFrom crlf s (p + 14 + 1) with
    | none => rfl
    | some eolPos =>
      obtain ⟨hle, hin, -⟩ := findFrom_eq_some_iff.mp heol
      exact valueBetween_eq hs hle hin

/-- **The lookup of `recv_request` runs through**: the colon starts no line end. -/
theorem recvLocateLength_eq {s : Bytes} (hs : s.length < limit) :
    recvLocateLength s = .ok (HttpServer.recvLocateLength s) := by
  unfold recvLocateLength HttpServer.recvLocateLength
  cases hp : find contentLengthText (lower s) with
  | none => rfl
  | some p =>
    have hcolon := findFrom_colon hp
    simp only
    rw [hcolon, orNpos_some]
    simp only
    cases heol : findFrom crlf s (p + 14) with
    | none => rfl
    | some eolPos =>
      obtain ⟨hle, hin, hpre, -⟩ := findFrom_eq_some_iff.mp heol
      have hbehind : p + 14 + 1 ≤ eolPos := by
        rcases hle.lt_or_eq with hlt | rfl
        · exact hlt
        · rw [drop_colon hp] at hpre
          exact absurd (List.cons_prefix_cons.mp hpre).1 (by decide)
      exact valueBetween_eq hs hbehind hin

/-! ## `parse` -/

theorem frameBody_eq (result : ParseResult) (located : Located) (bodyData : Bytes)
    (maxBodySize : Nat) :
    frameBody result located bodyData maxBodySize =
      .ok (HttpServer.frameBody result located bodyData maxBodySize) := by
  unfold frameBody HttpServer.frameBody
  cases located with
  | absent => rfl
  | dangling => rfl
  | value clValue =>
    simp only
    cases stoull clValue with
    | error e => rfl
    | ok contentLength =>
      simp only
      split
      · rfl
      · split
        · rfl
        · rw [substr_of_le (Nat.zero_le _), ok_bind]
          rfl

/-- **`parse` runs through** on every string. -/
theorem parse_eq (raw : Text Byte) (maxHeaderSize maxBodySize : Nat) :
    parse raw.chars maxHeaderSize maxBodySize =
      .ok (HttpServer.parse raw.chars maxHeaderSize maxBodySize) := by
  have hraw := raw.length_lt
  unfold parse HttpServer.parse
  cases hfind : find crlfcrlf raw.chars with
  | none => rfl
  | some headerEnd =>
    have hfit : headerEnd + 4 ≤ raw.chars.length := find_add_length_le hfind
    simp only
    rw [add_of_lt (hfit.trans_lt hraw), ok_bind]
    split
    · rfl
    · rw [substr_of_le (Nat.zero_le _), ok_bind, substrFrom_of_le hfit, ok_bind]
      simp only [List.drop_zero]
      split
      · rfl
      · have hsection : (raw.chars.take (headerEnd + 4)).length < limit := by
          rw [List.length_take]
          omega
        rw [substr_of_le (Nat.zero_le _), ok_bind, List.drop_zero, locateLength_eq hsection,
          ok_bind, frameBody_eq]

/-! ## `recv_request` -/

/-- The checked run is the run of the model, or `append` threw because the bytes fit no string. -/
def RunsThrough (checked : Except Fault RecvResult) (result : RecvResult) (bytes : Bytes) : Prop :=
  checked = .ok result ∨ (checked = .error .lengthError ∧ limit ≤ bytes.length)

/-- A chunk is appended, or too much. -/
theorem RunsThrough.append {request : Bytes} {chunk : Chunk} {rest : List RecvOutcome}
    {f : Bytes → Except Fault RecvResult} {result : RecvResult}
    (h : (request ++ chunk.bytes).length < limit →
      RunsThrough (f (request ++ chunk.bytes)) result (request ++ chunk.bytes ++ dataOf rest)) :
    RunsThrough (append request chunk.bytes >>= f) result
      (request ++ dataOf (.data chunk :: rest)) := by
  have hbytes : request ++ dataOf (.data chunk :: rest) =
      request ++ chunk.bytes ++ dataOf rest := by
    rw [dataOf_cons_data, List.append_assoc]
  rw [hbytes]
  rcases append_cases request chunk.bytes with ⟨happend, hlt⟩ | ⟨hthrow, hle⟩
  · rw [happend, ok_bind]
    exact h hlt
  · rw [hthrow]
    have hmore := (List.prefix_append (request ++ chunk.bytes) (dataOf rest)).length_le
    exact Or.inr ⟨rfl, hle.trans hmore⟩

/-- **The inner loop runs through**: the buffer only grows, so it keeps its header section. -/
theorem recvBody_eq (maxBodySize headerSize contentLength : Nat) (script : List RecvOutcome)
    {request : Bytes} (hsize : headerSize ≤ request.length) :
    RunsThrough (recvBody maxBodySize headerSize contentLength script request)
      (HttpServer.recvBody maxBodySize headerSize contentLength script request)
      (request ++ dataOf script) := by
  induction script generalizing request with
  | nil =>
    rw [recvBody, HttpServer.recvBody, sub_of_le hsize, ok_bind]
    split
    · exact Or.inl rfl
    · exact Or.inl rfl
  | cons o rest ih =>
    rw [recvBody.eq_def, HttpServer.recvBody.eq_def, sub_of_le hsize, ok_bind]
    split
    · cases o with
      | data chunk =>
        refine RunsThrough.append fun _ => ih ?_
        rw [List.length_append]
        omega
      | _ => exact Or.inl rfl
    · exact Or.inl rfl

/-- A buffer with a CRLFCRLF. -/
theorem afterHeaders_eq (config : Config) {request : Bytes} {headerEnd : Nat}
    (hlt : request.length < limit) (hfind : find crlfcrlf request = some headerEnd)
    (script : List RecvOutcome) :
    RunsThrough (afterHeaders config request script)
      (HttpServer.afterHeaders config headerEnd request script) (request ++ dataOf script) := by
  have hfit : headerEnd + 4 ≤ request.length := find_add_length_le hfind
  unfold afterHeaders HttpServer.afterHeaders
  rw [recvLocateLength_eq hlt, ok_bind]
  cases HttpServer.recvLocateLength request with
  | absent => exact Or.inl rfl
  | dangling => exact Or.inl rfl
  | value clValue =>
    simp only
    cases stoull clValue with
    | error e => exact Or.inl rfl
    | ok contentLength =>
      simp only
      rw [hfind, orNpos_some, add_of_lt (hfit.trans_lt hlt), ok_bind]
      exact recvBody_eq _ _ _ _ hfit

/-- **The outer loop runs through.** -/
theorem recvLoop_eq (config : Config) (script : List RecvOutcome) (request : Bytes) :
    RunsThrough (recvLoop config script request) (HttpServer.recvLoop config script request)
      (request ++ dataOf script) := by
  induction script generalizing request with
  | nil => exact Or.inl rfl
  | cons o rest ih =>
    cases o with
    | eof => exact Or.inl rfl
    | error => exact Or.inl rfl
    | eintr => exact ih request
    | eagain => exact ih request
    | data chunk =>
      rw [recvLoop, HttpServer.recvLoop]
      refine RunsThrough.append fun hlt => ?_
      cases hfind : find crlfcrlf (request ++ chunk.bytes) with
      | some headerEnd => exact afterHeaders_eq config hlt hfind rest
      | none =>
        simp only [Option.isSome_none, Bool.false_eq_true, if_false]
        split
        · exact Or.inl rfl
        · exact ih _

end Checked

/-! ## The theorem -/

/-- A header section that mentions `content-length:` has the colon and the line end behind it, so
    `parse` always gets to a value. -/
structure LengthLine (raw : Bytes) : Prop where
  found : ∀ headerEnd p, find crlfcrlf raw = some headerEnd →
    find contentLengthText (lower (raw.take (headerEnd + 4))) = some p →
    ∃ colonPos eolPos, findFrom [58] (raw.take (headerEnd + 4)) p = some colonPos ∧
      findFrom crlf (raw.take (headerEnd + 4)) (colonPos + 1) = some eolPos ∧
      eolPos + 2 ≤ headerEnd + 4
  not_dangling : ∀ headerEnd, find crlfcrlf raw = some headerEnd →
    locateLength (raw.take (headerEnd + 4)) ≠ .dangling

theorem lengthLine (raw : Bytes) : LengthLine raw := by
  constructor
  · intro headerEnd p hfind hp
    obtain ⟨H, body, rfl, hend, -, htake, -⟩ := exists_cut hfind
    rw [htake] at hp ⊢
    obtain ⟨e, he⟩ := H.exists_find_crlf hp
    have hfit := find_add_length_le hp
    rw [contentLengthText_length, lower_length] at hfit
    have hline := find_add_length_le he
    rw [List.length_drop] at hline
    have htwo : crlf.length = 2 := rfl
    refine ⟨p + 14, e + (p + 15), findFrom_colon hp, ?_, by omega⟩
    rw [findFrom, if_pos (by omega), he]
    rfl
  · intro headerEnd hfind hdangling
    obtain ⟨H, body, rfl, -, -, htake, -⟩ := exists_cut hfind
    rw [htake] at hdangling
    by_cases hm : Mentions H.bytes
    · obtain ⟨v, hv⟩ := H.locateLength_value hm
      rw [hv] at hdangling
      cases hdangling
    · rw [H.locateLength_absent hm] at hdangling
      cases hdangling

/-- **The index arithmetic is safe.**  For every byte string the length line is complete; `parse` on
    every string, with every limit, runs without a wrapping sum or difference and without a `substr`
    behind the end; and so does `recv_request` with every configuration on every script, up to the
    `append` that throws because no string holds the bytes. -/
theorem indices_safe (bytes : Bytes) (raw : SizeT.Text Byte) (maxHeaderSize maxBodySize : Nat)
    (config : Config) (script : List RecvOutcome) :
    LengthLine bytes ∧
      Checked.parse raw.chars maxHeaderSize maxBodySize =
        .ok (parse raw.chars maxHeaderSize maxBodySize) ∧
      Checked.RunsThrough (Checked.recvRequest config script) (recvRequest config script)
        (dataOf script) :=
  ⟨lengthLine bytes, Checked.parse_eq raw maxHeaderSize maxBodySize,
    Checked.recvLoop_eq config script []⟩

end HttpServer
