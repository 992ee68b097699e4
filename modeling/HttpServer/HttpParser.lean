/-
  The request parser — `HttpParser::parse` and `HttpParser::build_request`.

  `parse` reads a complete buffer: it looks for the first CRLFCRLF, checks the header limit, reads
  the request line, collects the header lines with `\n` ends, looks `content-length:` up in the
  lower-cased header section and cuts the body.  The definition follows that order and is split
  where the source has a blank line:

    * `readRequestLine`  — `rl >> method >> path >> version`;
    * `collectHeaders`   — the loop over `getline` behind `headers_raw`;
    * `parseHead`        — both, on the header section without its CRLFCRLF;
    * `locateLength`     — the three searches, up to the text handed to `stoull`;
    * `frameBody`        — the limits and the cut.

  A function that `parse` calls is total here where the C++ one could throw: every `substr` starts
  inside its string.
-/
import HttpServer.HttpMessage

namespace HttpServer

open ListSearch

/-- The end of a line. -/
def crlf : Bytes := [13, 10]

/-- The end of the header block. -/
def crlfcrlf : Bytes := [13, 10, 13, 10]
/-- The text both length lookups search for in a lower-cased copy. -/
def contentLengthText : Bytes := str "content-length:"

/-! ## `ParseResult` -/

/-- `ParseError`; `none` is the value for a request that was accepted. -/
inductive ParseError
  | none
  | incomplete
  | malformed
  | headerTooLarge
  | bodyTooLarge
  deriving DecidableEq, Repr

/-- `ParseResult`: the parts of a request, as far as `parse` got before an error. -/
structure ParseResult where
  /-- Why the request was refused. -/
  error : ParseError := .none
  method : Bytes := []
  path : Bytes := []
  version : Bytes := []
  /-- The header lines behind the request line, up to a blank one, each with a line feed behind
      it. -/
  headersRaw : Bytes := []
  body : Bytes := []
  /-- The request line was read and its version accepted. -/
  hasHeaders : Bool := false
  deriving DecidableEq, Repr

/-! ## The request line and the header lines -/

/-- `rl >> result.method >> result.path >> result.version`, and whether all three were read. -/
def readRequestLine (line : Bytes) : ParseResult × Bool :=
  match extract line with
  | .none => ({}, false)
  | some (method, rl) =>
    match extract rl with
    | .none => ({ method }, false)
    | some (path, rl) =>
      match extract rl with
      | .none => ({ method, path }, false)
      | some (version, _) => ({ method, path, version }, true)

/-- The loop behind `headers_raw`: every line up to the first empty one, ended by `\n`. -/
def collectHeaders : List Bytes → Bytes
  | [] => []
  | line :: lines =>
    if popBack 13 line = [] then [] else popBack 13 line ++ [10] ++ collectHeaders lines

/-- The request line and the header lines of a header section (without its CRLFCRLF). -/
def parseHead (headersSection : Bytes) : ParseResult :=
  match getlines headersSection with
  | [] => { error := .malformed }
  | line :: lines =>
    let (result, read) := readRequestLine (popBack 13 line)
    if !read then { result with error := .malformed }
    else if find (str "HTTP/") result.version ≠ some 0 then { result with error := .malformed }
    else { result with hasHeaders := true, headersRaw := collectHeaders lines }

/-! ## The length lookup -/

/-- What a length lookup finds: no `content-length:`, one without a colon or a line end behind it,
    or the text that is handed to `stoull`. -/
inductive Located
  | absent
  | dangling
  | value (clValue : Bytes)
  deriving DecidableEq, Repr

/-- The lookup of `parse`, in the header section with its CRLFCRLF. -/
def locateLength (rawUpToHeaders : Bytes) : Located :=
  match find contentLengthText (lower rawUpToHeaders) with
  | .none => .absent
  | some clPos =>
    match findFrom [58] rawUpToHeaders clPos with
    | .none => .dangling
    | some colonPos =>
      match findFrom crlf rawUpToHeaders (colonPos + 1) with
      | .none => .dangling
      | some eolPos =>
        .value (skipBlanks (substr rawUpToHeaders (colonPos + 1) (eolPos - colonPos - 1)))

/-- The body of a request whose head is `result`: without a `content-length:` all that was received,
    and with one as many bytes as it says, if they are within `max_body_size` and were received. -/
def frameBody (result : ParseResult) (located : Located) (bodyData : Bytes) (maxBodySize : Nat) :
    ParseResult :=
  match located with
  | .absent => { result with body := bodyData }
  -- no branch of the source assigns `body` here
  | .dangling => result
  | .value clValue =>
    match stoull clValue with
    | .error _ => { result with error := .malformed }
    | .ok contentLength =>
      if contentLength > maxBodySize then { result with error := .bodyTooLarge }
      else if bodyData.length < contentLength then { result with error := .incomplete }
      else { result with body := bodyData.take contentLength }

/-! ## `parse` -/

/-- `HttpParser::parse(raw, max_header_size, max_body_size)`: the header block ends at the first
    CRLFCRLF, its size is tested before anything in it is read, and the length is looked up in it
    alone. -/
def parse (raw : Bytes) (maxHeaderSize maxBodySize : Nat) : ParseResult :=
  match find crlfcrlf raw with
  | .none => { error := .incomplete }
  | some headerEnd =>
    if headerEnd + 4 > maxHeaderSize then { error := .headerTooLarge }
    else
      let result := parseHead (raw.take headerEnd)
      if result.error ≠ .none then result
      else frameBody result (locateLength (raw.take (headerEnd + 4))) (raw.drop (headerEnd + 4))
        maxBodySize

/-! ## `build_request` -/

/-- One line of `headers_raw`: the key before the first colon and the trimmed value behind it. -/
def splitHeader (line : Bytes) : Option (Bytes × Bytes) :=
  match find [58] line with
  | .none => .none
  | some colon =>
    let value := skipBlanks (line.drop (colon + 1))
    match findLastNotOf blanks value with
    | some e => some (line.take colon, value.take (e + 1))
    | .none => some (line.take colon, value)

/-- The body of the loop of `build_request` over the lines of `headers_raw`. -/
def readHeader (headers : HeaderMap) (line : Bytes) : HeaderMap :=
  let line := popBack 10 line
  if line = [] then headers
  else
    match splitHeader line with
    | some (key, value) => headers.insert key value
    | .none => headers

/-- The method of a method string, in this case only. -/
def methodOf (method : Bytes) : HttpMethod :=
  if method = str "GET" then .GET
  else if method = str "POST" then .POST
  else if method = str "HEAD" then .HEAD
  else .UNKNOWN

/-- `HttpParser::build_request(result)`: the method by its name, and the header lines as a table, in
    which a later line of a key takes the place of an earlier one. -/
def buildRequest (result : ParseResult) : HttpRequest :=
  { method := methodOf result.method
    methodString := result.method
    path := result.path
    version := result.version
    headers := (getlines result.headersRaw).foldl readHeader ∅
    body := result.body }

/-- `HttpParser::trim(s)`: the text without the spaces and tabs at its ends. -/
def trim (s : Bytes) : Bytes :=
  match findFirstNotOf blanks s with
  | .none => []
  | some start =>
    match findLastNotOf blanks s with
    | some e => substr s start (e - start + 1)
    -- `npos - start + 1` reaches past the end
    | .none => s.drop start

end HttpServer
