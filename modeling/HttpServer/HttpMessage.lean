/-
  Requests and responses — `http_request.hpp` and `http_response.hpp`.

  1. **Data** — a header table is `std::unordered_map<std::string, std::string>`: a finite map with
     distinct keys (`AList`), iterated in an order the standard leaves open.  Whatever iterates a
     table takes that order as an `IterOrder`, which is a permutation of the entries by its type.

  2. **Program** — `serialize` writes the status line, one line a header in iteration order, a
     blank line and the body.

  3. **Factories** — all but `ok` build a plain-text response and differ in code and text only, so
     they are one definition, `textResponse`, at their own values; `methodNotAllowed` and
     `serviceUnavailable` add a header to it.
-/
import HttpServer.Bytes
import Mathlib.Data.List.AList
import Mathlib.Data.Nat.Digits.Defs

namespace HttpServer

/-! ## Header tables -/

/-- `std::unordered_map<std::string, std::string>`: one value for each key, and keys that differ in
    case are different keys. -/
abbrev HeaderMap := AList fun _ : Bytes => Bytes

/-- The order in which a loop over a header table visits its entries. -/
structure IterOrder where
  order : HeaderMap → List (Bytes × Bytes)
  perm : ∀ m, (order m).Perm (m.entries.map fun e => (e.1, e.2))

/-- Iteration in the order of the entries. -/
def IterOrder.entries : IterOrder := ⟨fun m => m.entries.map fun e => (e.1, e.2), fun _ => .refl _⟩

/-- The loop visits the entries of the table, each key once. -/
theorem IterOrder.mem_order {iter : IterOrder} {m : HeaderMap} {key value : Bytes} :
    (key, value) ∈ iter.order m ↔ m.lookup key = some value := by
  rw [(iter.perm m).mem_iff, ← Option.mem_def, AList.mem_lookup_iff]
  simp only [List.mem_map, Prod.mk.injEq]
  constructor
  · rintro ⟨⟨k, v⟩, hm, rfl, rfl⟩
    exact hm
  · exact fun hm => ⟨_, hm, rfl, rfl⟩

theorem IterOrder.nodup_order (iter : IterOrder) (m : HeaderMap) :
    ((iter.order m).map Prod.fst).Nodup := by
  rw [((iter.perm m).map Prod.fst).nodup_iff, List.map_map]
  exact m.nodupKeys

/-! ## Requests -/

/-- `HttpMethod`. -/
inductive HttpMethod
  | GET
  | POST
  | HEAD
  | UNKNOWN
  deriving DecidableEq, Repr

/-- `HttpRequest`: what the router and the handlers see of a request. -/
structure HttpRequest where
  method : HttpMethod := .UNKNOWN
  methodString : Bytes := []
  path : Bytes := []
  version : Bytes := []
  headers : HeaderMap := ∅
  body : Bytes := []

/-- `get_header(name)`: the first entry whose key is `name` ignoring case, in iteration order. -/
def HttpRequest.getHeader (req : HttpRequest) (iter : IterOrder) (name : Bytes) : Bytes :=
  match (iter.order req.headers).find? fun e => lower e.1 = lower name with
  | some (_, value) => value
  | none => []

/-! ## Responses -/

/-- `StatusCode`, all the codes that the server knows. -/
inductive StatusCode
  | ok
  | badRequest
  | forbidden
  | notFound
  | methodNotAllowed
  | payloadTooLarge
  | internalError
  | notImplemented
  | serviceUnavailable
  deriving DecidableEq, Repr

/-- `static_cast<int>(code)`. -/
def StatusCode.toInt : StatusCode → Nat
  | .ok => 200
  | .badRequest => 400
  | .forbidden => 403
  | .notFound => 404
  | .methodNotAllowed => 405
  | .payloadTooLarge => 413
  | .internalError => 500
  | .notImplemented => 501
  | .serviceUnavailable => 503

/-- `reason_phrase(code)`. -/
def reasonPhrase : StatusCode → Bytes
  | .ok => str "OK"
  | .badRequest => str "Bad Request"
  | .forbidden => str "Forbidden"
  | .notFound => str "Not Found"
  | .methodNotAllowed => str "Method Not Allowed"
  | .payloadTooLarge => str "Payload Too Large"
  | .internalError => str "Internal Server Error"
  | .notImplemented => str "Not Implemented"
  | .serviceUnavailable => str "Service Unavailable"

/-- `std::to_string` of an unsigned number. -/
def toDecimal (n : Nat) : Bytes :=
  if n = 0 then [48] else (Nat.digits 10 n).reverse.map fun d => UInt8.ofNat (48 + d)

/-- `HttpResponse`: its `Content-Length` is a header like the others, and set with the body. -/
structure HttpResponse where
  statusCode : StatusCode := .ok
  headers : HeaderMap := ∅
  body : Bytes := []

namespace HttpResponse

/-- `set_header(key, value)`: a second value for a key takes the place of the first. -/
def setHeader (resp : HttpResponse) (key value : Bytes) : HttpResponse :=
  { resp with headers := resp.headers.insert key value }

/-- `set_body(body)`, and with it the `Content-Length`, in decimal. -/
def setBody (resp : HttpResponse) (body : Bytes) : HttpResponse :=
  { resp with body := body }.setHeader (str "Content-Length") (toDecimal body.length)

/-- `set_content_type(type)`. -/
def setContentType (resp : HttpResponse) (type : Bytes) : HttpResponse :=
  resp.setHeader (str "Content-Type") type

/-- `HttpResponse(code, body)`. -/
def make (code : StatusCode) (body : Bytes) : HttpResponse :=
  ({ statusCode := code } : HttpResponse).setBody body

/-- The text of one header line: the key as it was set, a colon and a blank, the value, and CRLF. -/
def headerLine (entry : Bytes × Bytes) : Bytes := entry.1 ++ str ": " ++ entry.2 ++ [13, 10]

/-- `serialize()`, the bytes on the wire: the status line, the header lines in the order in which
    the table is iterated, an empty line and the body.  No length is computed here; it is the header
    that `set_body` has left. -/
def serialize (resp : HttpResponse) (iter : IterOrder) : Bytes :=
  str "HTTP/1.1 " ++ toDecimal resp.statusCode.toInt ++ str " " ++ reasonPhrase resp.statusCode
    ++ [13, 10] ++ ((iter.order resp.headers).map headerLine).flatten ++ [13, 10] ++ resp.body

/-! ## Factories -/

/-- `HttpResponse::ok(body, content_type)`. -/
def okResponse (body contentType : Bytes) : HttpResponse :=
  ((make .ok body).setContentType contentType).setHeader (str "Connection") (str "close")

/-- The shape of every error response: a code, a plain text and `Connection: close`. -/
def textResponse (code : StatusCode) (body : Bytes) : HttpResponse :=
  ((make code body).setContentType (str "text/plain")).setHeader (str "Connection") (str "close")

/-- `HttpResponse::bad_request(body)`. -/
def badRequest (body : Bytes) : HttpResponse := textResponse .badRequest body

/-- `HttpResponse::forbidden(body)`. -/
def forbidden (body : Bytes) : HttpResponse := textResponse .forbidden body

/-- `HttpResponse::not_found(body)`. -/
def notFound (body : Bytes) : HttpResponse := textResponse .notFound body

/-- `HttpResponse::payload_too_large()`. -/
def payloadTooLarge : HttpResponse := textResponse .payloadTooLarge (str "Payload Too Large")

/-- `HttpResponse::internal_error()`, with the text that it has by default. -/
def internalError : HttpResponse := textResponse .internalError (str "Internal Server Error")

/-- `HttpResponse::not_implemented()`. -/
def notImplemented : HttpResponse := textResponse .notImplemented (str "Not Implemented")

/-- `HttpResponse::method_not_allowed(allow)`: an `Allow` header where there is something to
    allow. -/
def methodNotAllowed (allow : Bytes) : HttpResponse :=
  let resp := textResponse .methodNotAllowed (str "Method Not Allowed")
  if allow = [] then resp else resp.setHeader (str "Allow") allow

/-- `HttpResponse::service_unavailable()`, for a full queue: try again in five seconds. -/
def serviceUnavailable : HttpResponse :=
  (textResponse .serviceUnavailable (str "Service Unavailable")).setHeader (str "Retry-After")
    (str "5")

end HttpResponse

end HttpServer
