/-
  Reading a response back — what `serialize` puts on the wire, a client can take apart again.

  1. **Specification** — `readResponse` cuts the bytes at the first CRLFCRLF, the head at every CRLF
     and each header line at its first `: `; it knows nothing of the server.  `GivesBack` says that
     what it reads is the response: each header once, and the table and the body as they were.  The
     responses are those whose headers can be told apart (`HttpResponse.Separable`).

  2. **The crux (`renderLines_eq_intercalate`)** — a serialised head is its lines joined by CRLF, and
     no line has a CR in it, so cutting undoes joining; the first CRLFCRLF is the blank line whatever
     the body holds.  A name has no colon, so the first `: ` of a line stands behind the name.

  3. **Bridge** — in iteration order the headers are a permutation of the table's entries, and pairs
     with distinct keys are the entries of their table (`givesBack_serialize`).
-/
import HttpServer.HeaderFields
import HttpServer.Lib.TextCuts
import HttpServer.OutcomeClass
import HttpServer.ResponseFraming

namespace HttpServer

open ListSearch
open TextCuts (cutFirst cutAll cutFirst_append cutAll_intercalate)

/-! ## The specification -/

/-- What a client reads: the number behind `HTTP/1.1 `, the header fields in the order of their
    lines, and the body. -/
structure ResponseReading where
  statusCode : Nat
  fields : List (Bytes × Bytes)
  body : Bytes

/-- Cutting a response at the first CRLFCRLF, its head at CRLF and a header line at its first `: `. -/
def readResponse (data : Bytes) : Option ResponseReading :=
  match cutFirst crlfcrlf data with
  | none => none
  | some (head, body) =>
    match cutAll 13 [10] head with
    | [] => none
    | statusLine :: lines =>
      (lines.mapM (cutFirst (str ": "))).map fun fields =>
        { statusCode := statusCodeOf statusLine, fields := fields, body := body }

/-- The reading is the response: its code, its entries, each once, its table and its body. -/
structure ResponseReading.GivesBack (reading : ResponseReading) (resp : HttpResponse) : Prop where
  statusCode : reading.statusCode = resp.statusCode.toInt
  entries : reading.fields.Perm (resp.headers.entries.map fun e => (e.1, e.2))
  headers : ∀ key, (HeaderMap.ofPairs reading.fields).lookup key = resp.headers.lookup key
  body : reading.body = resp.body

/-! ## The lines of a response -/

/-- **A rendered head is its lines, joined by CRLF.** -/
theorem renderLines_eq_intercalate {lines : List Bytes} (hne : lines ≠ []) :
    renderLines lines = crlf.intercalate lines ++ crlfcrlf := by
  induction lines with
  | nil => exact absurd rfl hne
  | cons line lines ih =>
    rw [renderLines_cons]
    cases lines with
    | nil =>
      rw [List.intercalate_singleton]
      rfl
    | cons line' lines =>
      rw [ih (List.cons_ne_nil _ _), List.intercalate_cons_cons, List.append_assoc,
        List.append_assoc]
      rfl

/-- The first CRLFCRLF of a head and a body is the blank line. -/
theorem cutFirst_renderLines {lines : List Bytes} (h : PlainLines lines) (hne : lines ≠ [])
    (body : Bytes) :
    cutFirst crlfcrlf (renderLines lines ++ body) = some (crlf.intercalate lines, body) := by
  have hfind := find_append_of_some body (find_crlfcrlf_renderLines h hne)
  have hlength : (renderLines lines).length = (crlf.intercalate lines).length + 4 := by
    rw [renderLines_eq_intercalate hne, List.length_append]
    rfl
  rw [hlength, Nat.add_sub_cancel] at hfind
  rw [cutFirst, hfind, Option.map_some]
  congr 2
  · rw [renderLines_eq_intercalate hne, List.append_assoc, List.take_left]
  · show (renderLines lines ++ body).drop ((crlf.intercalate lines).length + 4) = body
    rw [← hlength, List.drop_left]

/-- Cutting the head gives the lines. -/
theorem cutAll_renderedLines {lines : List Bytes} (h : PlainLines lines) (hne : lines ≠ []) :
    cutAll 13 [10] (crlf.intercalate lines) = lines :=
  cutAll_intercalate hne fun line hline => (h line hline).2.1

/-- Cutting a header line gives the name and the value. -/
theorem cutFirst_lineOf {entry : Bytes × Bytes} (h : 58 ∉ entry.1) :
    cutFirst (str ": ") (HttpResponse.lineOf entry) = some entry := by
  have hsep : str ": " = 58 :: [32] := rfl
  rw [HttpResponse.lineOf, List.append_assoc, hsep, cutFirst_append h]

theorem mapM_cutFirst_lineOf {entries : List (Bytes × Bytes)} (h : ∀ e ∈ entries, 58 ∉ e.1) :
    (entries.map HttpResponse.lineOf).mapM (cutFirst (str ": ")) = some entries := by
  induction entries with
  | nil => rfl
  | cons entry entries ih =>
    have hentry := cutFirst_lineOf (h entry (List.mem_cons_self ..))
    have hrest := ih fun e he => h e (List.mem_cons_of_mem entry he)
    rw [List.map_cons, List.mapM_cons, hentry, hrest]
    rfl

/-- The code in the status line. -/
theorem statusCodeOf_statusLine (code : StatusCode) :
    statusCodeOf (HttpResponse.statusLine code) = code.toInt := by
  cases code <;> decide

/-- Codes with one number are one code. -/
theorem StatusCode.eq_of_toInt {a b : StatusCode} (h : a.toInt = b.toInt) : a = b := by
  cases a <;> cases b <;> first | rfl | exact absurd h (by decide)

/-! ## Reading a serialised response -/

/-- **Reading what `serialize` wrote**: the headers come in iteration order. -/
theorem readResponse_serialize {resp : HttpResponse} (h : resp.Separable) (iter : IterOrder) :
    readResponse (resp.serialize iter) =
      some { statusCode := resp.statusCode.toInt, fields := iter.order resp.headers,
             body := resp.body } := by
  have hplain := h.plainLines iter
  have hcolon : ∀ e ∈ iter.order resp.headers, 58 ∉ e.1 := fun e he =>
    (h.names e.1 (HttpResponse.mem_of_mem_order he)).1
  rw [HttpResponse.serialize_eq_renderLines, readResponse,
    cutFirst_renderLines hplain (List.cons_ne_nil _ _)]
  simp only
  rw [cutAll_renderedLines hplain (List.cons_ne_nil _ _)]
  simp only
  rw [mapM_cutFirst_lineOf hcolon, Option.map_some, statusCodeOf_statusLine]

/-- The headers in iteration order are the table. -/
theorem lookup_ofPairs_order (iter : IterOrder) (m : HeaderMap) (key : Bytes) :
    (HeaderMap.ofPairs (iter.order m)).lookup key = m.lookup key := by
  have hentries := HeaderMap.entries_ofPairs (iter.nodup_order m)
  refine Option.ext fun value => ?_
  have hlookup : (HeaderMap.ofPairs (iter.order m)).lookup key = some value ↔
      (key, value) ∈ IterOrder.entries.order (HeaderMap.ofPairs (iter.order m)) :=
    IterOrder.mem_order.symm
  exact hlookup.trans (hentries.mem_iff.trans IterOrder.mem_order)

theorem givesBack_serialize {resp : HttpResponse} (h : resp.Separable) (iter : IterOrder) :
    ∃ reading, readResponse (resp.serialize iter) = some reading ∧ reading.GivesBack resp := by
  refine ⟨_, readResponse_serialize h iter, ?_⟩
  constructor
  · rfl
  · exact iter.perm resp.headers
  · exact lookup_ofPairs_order iter resp.headers
  · rfl

/-- One reading gives back one response. -/
theorem ResponseReading.GivesBack.unique {reading : ResponseReading} {a b : HttpResponse}
    (ha : reading.GivesBack a) (hb : reading.GivesBack b) :
    a.statusCode = b.statusCode ∧ (∀ key, a.headers.lookup key = b.headers.lookup key) ∧
      a.body = b.body := by
  refine ⟨?_, ?_, ?_⟩
  · exact StatusCode.eq_of_toInt (ha.statusCode.symm.trans hb.statusCode)
  · intro key
    rw [← ha.headers key, hb.headers key]
  · rw [← ha.body, hb.body]

/-- **Serialising loses nothing.**  For every response whose header names have no colon, CR or LF and
    whose values have no CR or LF, whatever its body, and every order of the header table: cutting
    the bytes gives back its code, its headers and its body.  Two responses with the same bytes,
    each in an order of its own, are the same. -/
theorem serialize_losesNothing (resp : HttpResponse) (h : resp.Separable) (iter : IterOrder) :
    (∃ reading, readResponse (resp.serialize iter) = some reading ∧ reading.GivesBack resp) ∧
      ∀ (other : HttpResponse) (iter' : IterOrder), other.Separable →
        other.serialize iter' = resp.serialize iter →
        other.statusCode = resp.statusCode ∧
          (∀ key, other.headers.lookup key = resp.headers.lookup key) ∧
          other.body = resp.body := by
  obtain ⟨reading, hread, hback⟩ := givesBack_serialize h iter
  refine ⟨⟨reading, hread, hback⟩, ?_⟩
  intro other iter' hother hsame
  obtain ⟨reading', hread', hback'⟩ := givesBack_serialize hother iter'
  rw [hsame, hread] at hread'
  cases hread'
  exact hback'.unique hback

/-- A response with a body that holds a blank line. -/
def exampleResponse : HttpResponse :=
  HttpResponse.okResponse (str "a: b\r\n\r\nc: d\r\n\r\n") (str "text/plain")

/-- The same headers, set in the other order. -/
def exampleReset : HttpResponse :=
  ((({ body := exampleResponse.body } : HttpResponse).setHeader (str "Connection")
    (str "close")).setContentType (str "text/plain")).setHeader (str "Content-Length") (str "16")

/-- Iteration from the last entry to the first. -/
def IterOrder.backwards : IterOrder :=
  ⟨fun m => (m.entries.map fun e => (e.1, e.2)).reverse, fun _ => List.reverse_perm _⟩

theorem separable_of_entries {resp : HttpResponse}
    (h : ∀ e ∈ IterOrder.entries.order resp.headers, 58 ∉ e.1 ∧ Plain e.1 ∧ Plain e.2) :
    resp.Separable where
  names key hkey := by
    obtain ⟨value, hvalue⟩ := Option.isSome_iff_exists.mp (AList.lookup_isSome.mpr hkey)
    have hentry := h (key, value) (IterOrder.mem_order.mpr hvalue)
    exact ⟨hentry.1, hentry.2.1⟩
  values key value hvalue := (h (key, value) (IterOrder.mem_order.mpr hvalue)).2.2

/-- The theorem on these two, with the second one iterated backwards. -/
theorem serialize_losesNothing_example :
    (∃ reading, readResponse (exampleResponse.serialize .entries) = some reading ∧
        reading.GivesBack exampleResponse) ∧
      ∀ key, exampleReset.headers.lookup key = exampleResponse.headers.lookup key := by
  have hresponse : exampleResponse.Separable := separable_of_entries (by decide +kernel)
  have hreset : exampleReset.Separable := separable_of_entries (by decide +kernel)
  have hsame : exampleReset.serialize .backwards = exampleResponse.serialize .entries := by
    decide +kernel
  obtain ⟨hread, hinjective⟩ := serialize_losesNothing exampleResponse hresponse .entries
  exact ⟨hread, (hinjective exampleReset .backwards hreset hsame).2.1⟩

end HttpServer
