/-
  The static file handler — `static_file_handler.cpp`, on a POSIX system.

  1. **Data** — the file system is a parameter, `FileSystem`: what `<filesystem>` and an
     `std::ifstream` answer for a path, which is a byte string.  `fs::canonical` returns a
     `CanonicalPath`: its components carry, by their type, that none is empty, `.` or `..` and none
     has a separator in it.  Two facts about the system are fields: a canonical path is its own
     canonical path, and `/` is a directory.

  2. **Program** — `serve` decodes, normalises, joins, canonicalises, tests the prefix and reads,
     in this order.  It returns `.ok none` for `std::nullopt`, and `.error` for the
     `filesystem_error` that `fs::is_regular_file` throws when it cannot tell.

  3. **Decoding** — `urlDecode` reads the two bytes behind a `%` with `stream >> std::hex >> value`,
     which skips white space and takes a sign and a `0x`, and stops at the first other byte.
-/
import HttpServer.HttpMessage
import HttpServer.Lib.SepPath

namespace HttpServer

open ListSearch (find)
open SepPath (joined)

/-! ## `std::filesystem` -/

/-- The separator, `/`. -/
def sepByte : Byte := 47

/-- An absolute path without symbolic links, `.`, `..` or doubled separators. -/
structure CanonicalPath where
  components : List Bytes
  plain : ∀ c ∈ components, c ≠ [] ∧ sepByte ∉ c ∧ c ≠ str "." ∧ c ≠ str ".."

/-- `path.string()`. -/
def CanonicalPath.text (p : CanonicalPath) : Bytes :=
  if p.components = [] then [sepByte] else joined sepByte p.components

/-- `path.extension().string()`: from the last dot of the file name, unless that is its first
    byte. -/
def CanonicalPath.extension (p : CanonicalPath) : Bytes :=
  let filename := p.components.getLast?.getD []
  match filename.reverse.findIdx? (· = 46) with
  | none => []
  | some k => if k + 1 = filename.length then [] else filename.drop (filename.length - 1 - k)

/-- `fs::filesystem_error`. -/
structure FilesystemError where
  what : Bytes
  deriving DecidableEq, Repr

/-- What the operating system answers. -/
structure FileSystem where
  /-- `fs::weakly_canonical(path, ec)`, `none` when `ec` is set. -/
  weaklyCanonical : Bytes → Option Bytes
  /-- `fs::canonical(path, ec)`, `none` when `ec` is set. -/
  canonical : Bytes → Option CanonicalPath
  /-- `fs::is_regular_file(path)`. -/
  isRegularFile : Bytes → Except FilesystemError Bool
  /-- All of `std::ifstream(path, std::ios::binary)`, `none` when it is not open. -/
  readFile : Bytes → Option Bytes
  canonical_text : ∀ {path p}, canonical path = some p → canonical p.text = some p
  root_not_regular : isRegularFile [sepByte] ≠ .ok true

/-- `fs::path(left) / right`. -/
def pathJoin (left right : Bytes) : Bytes :=
  if right.head? = some sepByte then right
  else if left = [] ∨ left.getLast? = some sepByte then left ++ right
  else left ++ sepByte :: right

/-! ## `mime_type` -/

/-- `mime_type(extension)`, the extension in any case. -/
def mimeType (extension : Bytes) : Bytes :=
  let ext := lower extension
  if ext = str ".html" ∨ ext = str ".htm" then str "text/html"
  else if ext = str ".css" then str "text/css"
  else if ext = str ".js" then str "application/javascript"
  else if ext = str ".json" then str "application/json"
  else if ext = str ".txt" then str "text/plain"
  else if ext = str ".png" then str "image/png"
  else if ext = str ".jpg" ∨ ext = str ".jpeg" then str "image/jpeg"
  else if ext = str ".svg" then str "image/svg+xml"
  else if ext = str ".ico" then str "image/x-icon"
  else if ext = str ".gif" then str "image/gif"
  else if ext = str ".woff" then str "font/woff"
  else if ext = str ".woff2" then str "font/woff2"
  else if ext = str ".ttf" then str "font/ttf"
  else if ext = str ".pdf" then str "application/pdf"
  else if ext = str ".xml" then str "application/xml"
  else str "application/octet-stream"

/-! ## `url_decode` -/

/-- The value of a hexadecimal digit. -/
def hexDigit (b : Byte) : Option Nat :=
  if 48 ≤ b ∧ b ≤ 57 then some (b.toNat - 48)
  else if 65 ≤ b ∧ b ≤ 70 then some (b.toNat - 55)
  else if 97 ≤ b ∧ b ≤ 102 then some (b.toNat - 87)
  else none

/-- A `0x` in front of the digits. -/
def takeHexPrefix : Bytes → Bytes
  | 48 :: x :: s => if x = 120 ∨ x = 88 then s else 48 :: x :: s
  | s => s

/-- `stream >> std::hex >> value` for an `int`, on a stream too short to overflow. -/
def extractHex (stream : Bytes) : Option Int :=
  let (negative, s) := takeSign (stream.dropWhile isspace)
  let digits := (takeHexPrefix s).takeWhile fun b => (hexDigit b).isSome
  if digits = [] then none
  else
    let value := digits.foldl (fun n d => 16 * n + ((hexDigit d).getD 0 : Int)) 0
    some (if negative then -value else value)

/-- `static_cast<char>(value)`. -/
def charOfInt (value : Int) : Byte := UInt8.ofNat (value % 256).toNat

/-- `url_decode(value)`: a `%` is tried only where two bytes follow it, and stays where `stream >>
    std::hex` does not read a number from them; a `+` is a blank. -/
def urlDecode : Bytes → Bytes
  | [] => []
  | [b] => [if b = 43 then 32 else b]
  | [b, c] => (if b = 43 then 32 else b) :: urlDecode [c]
  | b :: c :: d :: s =>
    if b = 37 then
      match extractHex [c, d] with
      | some value => charOfInt value :: urlDecode s
      | none => b :: urlDecode (c :: d :: s)
    else (if b = 43 then 32 else b) :: urlDecode (c :: d :: s)

/-! ## `normalize_path` -/

/-- What the loop does with a finished `current`. -/
def closePart (parts : List Bytes) (current : Bytes) : List Bytes :=
  if current ≠ [] ∧ current ≠ str "." then
    if current = str ".." then parts.dropLast else parts ++ [current]
  else parts

/-- The loop over the bytes of `safe`, and its last round behind them. -/
def collectParts : Bytes → List Bytes → Bytes → List Bytes
  | [], parts, current => closePart parts current
  | b :: s, parts, current =>
    if b = sepByte then collectParts s (closePart parts current) []
    else collectParts s parts (current ++ [b])

/-- `normalize_path(path)`: without zero bytes, with `/` for a backslash, and with no empty part, no
    `.` and no `..` left. -/
def normalizePath (path : Bytes) : Bytes :=
  let safe := (path.filter (· ≠ 0)).map fun b => if b = 92 then sepByte else b
  [sepByte].intercalate (collectParts (safe.dropWhile (· = sepByte)) [] [])

/-! ## The handler -/

/-- The field of `StaticFileHandler`. -/
structure StaticFileHandler where
  /-- The root, canonical where the system could make it so. -/
  documentRoot : Bytes

namespace StaticFileHandler

/-- The constructor. -/
def make (fs : FileSystem) (documentRoot : Bytes) : StaticFileHandler :=
  ⟨(fs.weaklyCanonical documentRoot).getD documentRoot⟩

/-- The root as the prefix test uses it: with a separator at its end. -/
def rootPrefix (rootCanonical : CanonicalPath) : Bytes :=
  let rootStr := rootCanonical.text
  if rootStr ≠ [] ∧ rootStr.getLast? ≠ some sepByte then rootStr ++ [sepByte] else rootStr

/-- The answer once `file_path` and the root are canonical. -/
def serveCanonical (fs : FileSystem) (rootCanonical canonical : CanonicalPath) :
    Except FilesystemError (Option HttpResponse) :=
  if find (rootPrefix rootCanonical) canonical.text ≠ some 0 then
    .ok (some (HttpResponse.forbidden (str "403 Forbidden")))
  else
    match fs.isRegularFile canonical.text with
    | .error e => .error e
    | .ok false => .ok none
    | .ok true =>
      match fs.readFile canonical.text with
      | none => .ok none
      | some content =>
        .ok (some ((HttpResponse.okResponse content (mimeType canonical.extension)).setHeader
          (str "Connection") (str "close")))

/-- `serve(url_path)`. -/
def serve (handler : StaticFileHandler) (fs : FileSystem) (urlPath : Bytes) :
    Except FilesystemError (Option HttpResponse) :=
  let normalized := normalizePath (urlDecode urlPath)
  let normalized := if normalized = [] then str "index.html" else normalized
  match fs.canonical (pathJoin handler.documentRoot normalized) with
  | none => .ok none
  | some canonical =>
    match fs.canonical handler.documentRoot with
    | none => .ok none
    | some rootCanonical => serveCanonical fs rootCanonical canonical

end StaticFileHandler

example : normalizePath (urlDecode (str "/%2e%2e/a\\..\\./b%2Fc+d")) = str "b/c d" := by decide

end HttpServer
