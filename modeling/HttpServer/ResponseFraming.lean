/-
  Response framing — what the bytes handed to `send_all` look like.

  1. **Specification** — `WellFramed data`: a status line, header lines with distinct names, one of
     them the Content-Length with the number of bytes behind the first CRLFCRLF and one of them
     `Connection: close`, and the body.

  2. **The invariant of a response (`Ready`)** — the header names are among seven, the values hold no
     CR or LF, Content-Length is the size of the body and Connection is `close`.  Every factory
     builds a ready response; `set_body`, and `set_header` of another name, keep it ready.

  3. **Serialising (`Ready.wellFramed`)** — in whatever order the table is iterated: no line hides a
     CRLF (`Separable.plainLines`), so the first CRLFCRLF is the blank line, and a name occurs once
     in a table.

  4. **Bridge** — every handler of the default routes, the static handler and every error path
     return ready responses (`responses_wellFramed`); of the request only the body, by `/echo`, and
     the number behind `delay=` get into a response.
-/
import HttpServer.Decimal
import HttpServer.Framing
import HttpServer.HandleClient
import HttpServer.Router
import HttpServer.StaticTarget

namespace HttpServer

open ListSearch

/-! ## The specification -/

/-- The name of a header line: the text before its first colon. -/
def lineName (line : Bytes) : Bytes := line.takeWhile (· ≠ 58)

/-- The names of all headers the server ever sets. -/
def responseHeaderNames : List Bytes :=
  [str "Content-Length", str "Content-Type", str "Connection", str "Allow", str "Retry-After",
    str "X-Work-Delay", str "X-Work-Actual"]

/-- The bytes are a status line, header lines and, behind the first CRLFCRLF, a body, with exactly
    one Content-Length line, which says how long the body is, and exactly one
    `Connection: close`. -/
structure ResponseText (data statusLine : Bytes) (lines : List Bytes) (body : Bytes) : Prop where
  bytes : data = renderLines (statusLine :: lines) ++ body
  blank_line : find crlfcrlf data = some ((renderLines (statusLine :: lines)).length - 4)
  plain : PlainLines (statusLine :: lines)
  status : ∃ code, statusLine =
    str "HTTP/1.1 " ++ toDecimal (StatusCode.toInt code) ++ str " " ++ reasonPhrase code
  names : ∀ line ∈ lines, lineName line ∈ responseHeaderNames
  distinct : (lines.map lineName).Nodup
  length : lines.filter (fun line => lower (lineName line) = str "content-length") =
    [str "Content-Length: " ++ toDecimal body.length]
  connection : lines.filter (fun line => lower (lineName line) = str "connection") =
    [str "Connection: close"]

/-- A correctly framed response: the bytes are those of a status line, of header lines and of the
    body whose length one of them gives, for some choice of these. -/
def WellFramed (data : Bytes) : Prop := ∃ statusLine lines body, ResponseText data statusLine lines body

/-- The bytes behind the first CRLFCRLF. -/
def bytesBehind (data : Bytes) : Option Bytes :=
  (find crlfcrlf data).map fun headerEnd => data.drop (headerEnd + 4)

/-- **Behind the first CRLFCRLF stands the body.** -/
theorem ResponseText.bytesBehind_eq {data statusLine body : Bytes} {lines : List Bytes}
    (h : ResponseText data statusLine lines body) : bytesBehind data = some body := by
  have hfit : 4 ≤ (renderLines (statusLine :: lines)).length :=
    (headerSectionOf _ h.plain (List.cons_ne_nil _ _)).four_le
  rw [bytesBehind, h.blank_line, Option.map_some, Nat.sub_add_cancel hfit, h.bytes,
    List.drop_left]

/-! ## The invariant of a response -/

/-- A text without CR and LF. -/
def Plain (s : Bytes) : Prop := 13 ∉ s ∧ 10 ∉ s

instance (s : Bytes) : Decidable (Plain s) := inferInstanceAs (Decidable (_ ∧ _))

/-- A response that can be sent: its headers are some of those that the server sets, none of them
    breaks a line, and the two that frame it say what they should. -/
structure HttpResponse.Ready (resp : HttpResponse) : Prop where
  names : ∀ key ∈ resp.headers, key ∈ responseHeaderNames
  plain : ∀ key value, resp.headers.lookup key = some value → Plain value
  length : resp.headers.lookup (str "Content-Length") = some (toDecimal resp.body.length)
  connection : resp.headers.lookup (str "Connection") = some (str "close")

/-- The header names have no colon, CR or LF in them, and the values no CR or LF. -/
structure HttpResponse.Separable (resp : HttpResponse) : Prop where
  names : ∀ key ∈ resp.headers, 58 ∉ key ∧ Plain key
  values : ∀ key value, resp.headers.lookup key = some value → Plain value

namespace HttpResponse

theorem plain_toDecimal (n : Nat) : Plain (toDecimal n) :=
  ⟨not_mem_toDecimal (by decide), not_mem_toDecimal (by decide)⟩

@[simp] theorem lookup_setHeader_self (resp : HttpResponse) (key value : Bytes) :
    (resp.setHeader key value).headers.lookup key = some value := AList.lookup_insert _

theorem lookup_setHeader_ne (resp : HttpResponse) {key key' : Bytes} (value : Bytes)
    (h : key' ≠ key) : (resp.setHeader key value).headers.lookup key' = resp.headers.lookup key' :=
  AList.lookup_insert_ne h

/-- A header of another name. -/
theorem Ready.setHeader {resp : HttpResponse} (h : resp.Ready) {key value : Bytes}
    (hname : key ∈ responseHeaderNames) (hlength : key ≠ str "Content-Length")
    (hconnection : key ≠ str "Connection") (hplain : Plain value) :
    (resp.setHeader key value).Ready where
  names key' hkey' := by
    rcases (AList.mem_insert _).mp hkey' with rfl | hkey'
    · exact hname
    · exact h.names key' hkey'
  plain key' value' hlookup := by
    by_cases hk : key' = key
    · subst hk
      rw [lookup_setHeader_self] at hlookup
      exact Option.some.inj hlookup ▸ hplain
    · rw [lookup_setHeader_ne resp value hk] at hlookup
      exact h.plain key' value' hlookup
  length := (lookup_setHeader_ne resp value hlength.symm).trans h.length
  connection := (lookup_setHeader_ne resp value hconnection.symm).trans h.connection

/-- **Setting the body sets the length.** -/
theorem Ready.setBody {resp : HttpResponse} (h : resp.Ready) (body : Bytes) :
    (resp.setBody body).Ready where
  names key' hkey' := by
    rcases (AList.mem_insert _).mp hkey' with rfl | hkey'
    · decide
    · exact h.names key' hkey'
  plain key' value' hlookup := by
    rw [HttpResponse.setBody] at hlookup
    by_cases hk : key' = str "Content-Length"
    · subst hk
      rw [lookup_setHeader_self] at hlookup
      exact Option.some.inj hlookup ▸ plain_toDecimal _
    · rw [lookup_setHeader_ne _ _ hk] at hlookup
      exact h.plain key' value' hlookup
  length := lookup_setHeader_self _ _ _
  connection := (lookup_setHeader_ne _ _ (by decide)).trans h.connection

/-- The static handler sets Connection once more. -/
theorem Ready.setConnection {resp : HttpResponse} (h : resp.Ready) :
    (resp.setHeader (str "Connection") (str "close")).Ready where
  names key hkey := by
    rcases (AList.mem_insert _).mp hkey with rfl | hkey
    · decide
    · exact h.names key hkey
  plain key value hlookup := by
    by_cases hk : key = str "Connection"
    · subst hk
      rw [lookup_setHeader_self] at hlookup
      exact Option.some.inj hlookup ▸ by decide
    · rw [lookup_setHeader_ne resp _ hk] at hlookup
      exact h.plain key value hlookup
  length := (lookup_setHeader_ne resp _ (by decide)).trans h.length
  connection := lookup_setHeader_self resp _ _

/-- The shape of every factory: a code, a body, a type and `Connection: close`. -/
theorem ready_make (code : StatusCode) (body : Bytes) {contentType : Bytes}
    (h : Plain contentType) :
    (((make code body).setContentType contentType).setHeader (str "Connection")
      (str "close")).Ready where
  names key hkey := by
    rcases (AList.mem_insert _).mp hkey with rfl | hkey
    · decide
    · rcases (AList.mem_insert _).mp hkey with rfl | hkey
      · decide
      · rcases (AList.mem_insert _).mp hkey with rfl | hkey
        · decide
        · cases hkey
  plain key value hlookup := by
    by_cases hconnection : key = str "Connection"
    · subst hconnection
      rw [lookup_setHeader_self] at hlookup
      exact Option.some.inj hlookup ▸ by decide
    · rw [lookup_setHeader_ne _ _ hconnection] at hlookup
      by_cases htype : key = str "Content-Type"
      · subst htype
        rw [setContentType, lookup_setHeader_self] at hlookup
        exact Option.some.inj hlookup ▸ h
      · rw [setContentType, lookup_setHeader_ne _ _ htype] at hlookup
        by_cases hlength : key = str "Content-Length"
        · subst hlength
          rw [make, HttpResponse.setBody, lookup_setHeader_self] at hlookup
          exact Option.some.inj hlookup ▸ plain_toDecimal _
        · rw [make, HttpResponse.setBody, lookup_setHeader_ne _ _ hlength] at hlookup
          cases hlookup
  length := by
    rw [lookup_setHeader_ne _ _ (by decide), setContentType, lookup_setHeader_ne _ _ (by decide),
      make, HttpResponse.setBody, lookup_setHeader_self]
    rfl
  connection := lookup_setHeader_self _ _ _

theorem ready_okResponse (body : Bytes) {contentType : Bytes} (h : Plain contentType) :
    (okResponse body contentType).Ready := ready_make .ok body h

theorem ready_textResponse (code : StatusCode) (body : Bytes) : (textResponse code body).Ready :=
  ready_make code body (by decide)

theorem ready_methodNotAllowed {allow : Bytes} (h : Plain allow) :
    (methodNotAllowed allow).Ready := by
  unfold methodNotAllowed
  by_cases hempty : allow = []
  · rw [if_pos hempty]
    exact ready_textResponse _ _
  · rw [if_neg hempty]
    exact (ready_textResponse _ _).setHeader (by decide) (by decide) (by decide) h

theorem ready_serviceUnavailable : serviceUnavailable.Ready :=
  (ready_textResponse _ _).setHeader (by decide) (by decide) (by decide) (by decide)

/-! ## Serialising -/

/-- A header line without its line end. -/
def lineOf (entry : Bytes × Bytes) : Bytes := entry.1 ++ str ": " ++ entry.2

/-- The first line of a response, without its line end. -/
def statusLine (code : StatusCode) : Bytes :=
  str "HTTP/1.1 " ++ toDecimal code.toInt ++ str " " ++ reasonPhrase code

theorem serialize_eq_renderLines (resp : HttpResponse) (iter : IterOrder) :
    resp.serialize iter =
      renderLines (statusLine resp.statusCode :: (iter.order resp.headers).map lineOf) ++
        resp.body := by
  have hlines : ((iter.order resp.headers).map headerLine).flatten =
      (((iter.order resp.headers).map lineOf).map (· ++ crlf)).flatten := by
    rw [List.map_map]
    rfl
  rw [serialize, hlines, renderLines, List.map_cons, List.flatten_cons, statusLine]
  simp only [crlf, List.append_assoc]

theorem mem_of_mem_order {resp : HttpResponse} {iter : IterOrder} {key value : Bytes}
    (h : (key, value) ∈ iter.order resp.headers) : key ∈ resp.headers :=
  AList.lookup_isSome.mp (by rw [IterOrder.mem_order.mp h]; rfl)

theorem plain_statusLine (code : StatusCode) :
    statusLine code ≠ [] ∧ 13 ∉ statusLine code ∧ 10 ∉ statusLine code := by
  cases code <;> decide

/-- No line of a separable response hides a line end. -/
theorem Separable.plainLines {resp : HttpResponse} (h : resp.Separable) (iter : IterOrder) :
    PlainLines (statusLine resp.statusCode :: (iter.order resp.headers).map lineOf) := by
  have hsep : Plain (str ": ") := by decide
  intro line hline
  rcases List.mem_cons.mp hline with rfl | hline
  · exact plain_statusLine resp.statusCode
  · obtain ⟨⟨key, value⟩, he, rfl⟩ := List.mem_map.mp hline
    have hname := (h.names key (mem_of_mem_order he)).2
    have hvalue := h.values key value (IterOrder.mem_order.mp he)
    refine ⟨by simp [lineOf, str], ?_, ?_⟩
    · simp only [lineOf, List.mem_append, not_or]
      exact ⟨⟨hname.1, hsep.1⟩, hvalue.1⟩
    · simp only [lineOf, List.mem_append, not_or]
      exact ⟨⟨hname.2, hsep.2⟩, hvalue.2⟩

theorem Ready.separable {resp : HttpResponse} (h : resp.Ready) : resp.Separable where
  names key hkey := by
    have hnames : ∀ name ∈ responseHeaderNames, 58 ∉ name ∧ Plain name := by decide
    exact hnames key (h.names key hkey)
  values := h.plain

theorem plainLines_of_ready {resp : HttpResponse} (h : resp.Ready) (iter : IterOrder) :
    PlainLines (statusLine resp.statusCode :: (iter.order resp.headers).map lineOf) :=
  h.separable.plainLines iter

/-- A name without a colon is the name of its line. -/
theorem lineName_lineOf {key value : Bytes} (h : 58 ∉ key) :
    lineName (lineOf (key, value)) = key := by
  have hall : ∀ b ∈ key, decide (b ≠ 58) = true := by
    intro b hb
    have hne : b ≠ 58 := fun hb' => h (hb' ▸ hb)
    simpa using hne
  have hline : lineOf (key, value) = key ++ 58 :: 32 :: value := by
    rw [lineOf, List.append_assoc]
    rfl
  rw [lineName, hline, List.takeWhile_append_of_pos hall, List.takeWhile_cons_of_neg (by decide),
    List.append_nil]

theorem lineName_of_mem_order {resp : HttpResponse} (h : resp.Ready) {iter : IterOrder}
    {entry : Bytes × Bytes} (he : entry ∈ iter.order resp.headers) :
    lineName (lineOf entry) = entry.1 :=
  lineName_lineOf (h.separable.names entry.1 (mem_of_mem_order he)).1

theorem map_lineName_lines {resp : HttpResponse} (h : resp.Ready) (iter : IterOrder) :
    ((iter.order resp.headers).map lineOf).map lineName = (iter.order resp.headers).map Prod.fst := by
  rw [List.map_map]
  exact List.map_congr_left fun entry he => lineName_of_mem_order h he

/-- **One line a name**: the lines with a name of the list, ignoring case, are the one of its
    entry. -/
theorem filter_lines_eq {resp : HttpResponse} (h : resp.Ready) (iter : IterOrder)
    {key value : Bytes} (hlookup : resp.headers.lookup key = some value)
    (hunique : ∀ name ∈ responseHeaderNames, lower name = lower key → name = key) :
    ((iter.order resp.headers).map lineOf).filter (fun line => lower (lineName line) = lower key) =
      [lineOf (key, value)] := by
  have hnodup : ((iter.order resp.headers).map lineOf).Nodup := by
    refine List.Nodup.of_map lineName ?_
    rw [map_lineName_lines h]
    exact iter.nodup_order _
  have hentry : (key, value) ∈ iter.order resp.headers := IterOrder.mem_order.mpr hlookup
  have hmem : lineOf (key, value) ∈ (iter.order resp.headers).map lineOf :=
    List.mem_map_of_mem hentry
  have hfilter : ∀ line ∈ (iter.order resp.headers).map lineOf,
      decide (lower (lineName line) = lower key) = (line == lineOf (key, value)) := by
    intro line hline
    obtain ⟨⟨key', value'⟩, he, rfl⟩ := List.mem_map.mp hline
    rw [lineName_of_mem_order h he, Bool.eq_iff_iff, decide_eq_true_iff, beq_iff_eq]
    constructor
    · intro hname
      have hkey : key' = key := hunique key' (h.names key' (mem_of_mem_order he)) hname
      subst hkey
      have hvalue := IterOrder.mem_order.mp he
      rw [hlookup] at hvalue
      rw [Option.some.inj hvalue]
    · intro hline'
      have hname := congrArg lineName hline'
      rw [lineName_of_mem_order h he, lineName_of_mem_order h hentry] at hname
      rw [hname]
  rw [List.filter_congr hfilter, List.filter_beq, List.count_eq_one_of_mem hnodup hmem]
  rfl

/-- **A ready response is framed**, in whatever order its table is iterated. -/
theorem Ready.wellFramed {resp : HttpResponse} (h : resp.Ready) (iter : IterOrder) :
    ResponseText (resp.serialize iter) (statusLine resp.statusCode)
      ((iter.order resp.headers).map lineOf) resp.body where
  bytes := serialize_eq_renderLines resp iter
  blank_line := by
    rw [serialize_eq_renderLines]
    exact find_append_of_some _
      (find_crlfcrlf_renderLines (plainLines_of_ready h iter) (List.cons_ne_nil _ _))
  plain := plainLines_of_ready h iter
  status := ⟨resp.statusCode, rfl⟩
  names line hline := by
    obtain ⟨entry, he, rfl⟩ := List.mem_map.mp hline
    rw [lineName_of_mem_order h he]
    exact h.names entry.1 (mem_of_mem_order he)
  distinct := by
    rw [map_lineName_lines h]
    exact iter.nodup_order _
  length := filter_lines_eq h iter h.length (by decide)
  connection := filter_lines_eq h iter h.connection (by decide)

end HttpResponse

/-! ## The routes -/

/-- A handler that returns ready responses only, whatever the request. -/
def Handler.Ready (handler : Handler) : Prop := ∀ req resp, handler req = .ok resp → resp.Ready

/-- A route table with printable method names and ready handlers. -/
structure Router.Ready (router : Router) : Prop where
  methods : ∀ path methods, router.routes.lookup path = some methods → ∀ m ∈ methods, Plain m
  handlers : ∀ path methods method handler, router.routes.lookup path = some methods →
    methods.lookup method = some handler → Handler.Ready handler

/-- **Registering a ready handler keeps the table ready.** -/
theorem Router.Ready.addRoute {router : Router} (h : router.Ready) {method : Bytes} (path : Bytes)
    {handler : Handler} (hmethod : Plain method) (hhandler : Handler.Ready handler) :
    (router.addRoute method path handler).Ready where
  methods p methods hp m hm := by
    rw [Router.lookup_addRoute] at hp
    by_cases hpath : p = path
    · rw [if_pos hpath] at hp
      obtain rfl := Option.some.inj hp
      rcases (AList.mem_insert _).mp hm with rfl | hm
      · exact hmethod
      · cases hold : router.routes.lookup path with
        | none =>
          rw [hold] at hm
          cases hm
        | some old =>
          rw [hold] at hm
          exact h.methods path old hold m hm
    · rw [if_neg hpath] at hp
      exact h.methods p methods hp m hm
  handlers p methods m g hp hm := by
    rw [Router.lookup_addRoute] at hp
    by_cases hpath : p = path
    · rw [if_pos hpath] at hp
      obtain rfl := Option.some.inj hp
      by_cases hsame : m = method
      · subst hsame
        rw [AList.lookup_insert] at hm
        exact Option.some.inj hm ▸ hhandler
      · rw [AList.lookup_insert_ne hsame] at hm
        cases hold : router.routes.lookup path with
        | none =>
          rw [hold] at hm
          cases hm
        | some old =>
          rw [hold] at hm
          exact h.handlers path old m g hold hm
    · rw [if_neg hpath] at hp
      exact h.handlers p methods m g hp hm

theorem Router.ready_make (fs : FileSystem) (documentRoot : Bytes) :
    (Router.make fs documentRoot).Ready where
  methods _ _ h := by cases h
  handlers _ _ _ _ h := by cases h

/-! ### The handlers -/

theorem ready_page (env : HandlerEnv) (documentRoot file missing : Bytes) :
    Handler.Ready (page env documentRoot file missing) := by
  intro req resp h
  unfold page at h
  split at h
  · cases h
  · cases h
    exact HttpResponse.ready_textResponse _ _
  · cases h
    exact HttpResponse.ready_okResponse _ (by decide)

theorem plain_toDecimalInt (v : Int) : Plain (toDecimalInt v) := by
  unfold toDecimalInt
  obtain ⟨hcr, hlf⟩ := HttpResponse.plain_toDecimal v.natAbs
  split
  · exact ⟨by simpa using hcr, by simpa using hlf⟩
  · exact ⟨hcr, hlf⟩

theorem ready_work (env : HandlerEnv) : Handler.Ready (work env) := by
  intro req resp h
  unfold work at h
  split at h
  · cases h
  · cases h
    refine HttpResponse.Ready.setHeader (HttpResponse.Ready.setHeader ?_ (by decide) (by decide)
      (by decide) (plain_toDecimalInt _)) (by decide) (by decide) (by decide) (plain_toDecimalInt _)
    exact HttpResponse.ready_okResponse _ (by decide)

/-- A handler that builds one response of type `contentType` for each request. -/
theorem ready_of_okResponse (contentType : Bytes) (hplain : Plain contentType) {handler : Handler}
    (h : ∀ req, ∃ body, handler req = .ok (HttpResponse.okResponse body contentType)) :
    Handler.Ready handler := by
  intro req resp hresp
  obtain ⟨body, hbody⟩ := h req
  rw [hbody] at hresp
  cases hresp
  exact HttpResponse.ready_okResponse body hplain

/-- **The default routes are ready.** -/
theorem Router.Ready.setupDefaultRoutes {router : Router} (h : router.Ready) (env : HandlerEnv) :
    (router.setupDefaultRoutes env).Ready := by
  have hjson : Plain (str "application/json") := by decide
  have htext : Plain (str "text/plain") := by decide
  have hget : Plain (str "GET") := by decide
  have hpost : Plain (str "POST") := by decide
  have hhead : Plain (str "HEAD") := by decide
  refine Router.Ready.addRoute (Router.Ready.addRoute (Router.Ready.addRoute
    (Router.Ready.addRoute (Router.Ready.addRoute (Router.Ready.addRoute (Router.Ready.addRoute
      (Router.Ready.addRoute (Router.Ready.addRoute (Router.Ready.addRoute h _ hget ?_) _ hget ?_)
        _ hget ?_) _ hget ?_) _ hget ?_) _ hget ?_) _ hget ?_) _ hpost ?_) _ hhead ?_) _ hhead ?_
  · exact ready_page env _ _ _
  · exact ready_page env _ _ _
  · exact ready_page env _ _ _
  · exact ready_work env
  · exact ready_of_okResponse _ hjson fun _ => ⟨_, rfl⟩
  · exact ready_of_okResponse _ htext fun _ => ⟨_, rfl⟩
  · exact ready_of_okResponse _ hjson fun _ => ⟨_, rfl⟩
  · exact ready_of_okResponse _ htext fun _ => ⟨_, rfl⟩
  · exact ready_of_okResponse _ htext fun _ => ⟨_, rfl⟩
  · exact ready_of_okResponse _ hjson fun _ => ⟨_, rfl⟩

/-! ### The static handler and the 405 -/

theorem plain_ite {c : Prop} [Decidable c] {s t : Bytes} (hs : Plain s) (ht : Plain t) :
    Plain (if c then s else t) := by
  split
  · exact hs
  · exact ht

theorem plain_mimeType (extension : Bytes) : Plain (mimeType extension) := by
  unfold mimeType
  repeat' first
    | apply plain_ite
    | decide

theorem ready_answerFor {target : StaticTarget} {resp : HttpResponse}
    (h : StaticFileHandler.answerFor target = .ok (some resp)) : resp.Ready := by
  cases target with
  | missing => cases h
  | forbidden =>
    cases h
    exact HttpResponse.ready_textResponse _ _
  | unknown e => cases h
  | file canonical content =>
    cases h
    exact (HttpResponse.ready_okResponse content (plain_mimeType _)).setConnection

theorem plain_allowedList {methods : List Bytes} (h : ∀ m ∈ methods, Plain m) :
    Plain (Router.allowedList methods) := by
  have hsep : Plain (str ", ") := by decide
  have happend : ∀ {s t : Bytes}, Plain s → Plain t → Plain (s ++ t) := fun hs ht =>
    ⟨fun hm => (List.mem_append.mp hm).elim hs.1 ht.1,
      fun hm => (List.mem_append.mp hm).elim hs.2 ht.2⟩
  unfold Router.allowedList
  -- the text so far is the accumulator
  have hfold : ∀ allowed : Bytes, Plain allowed → Plain (methods.foldl
      (fun allowed m => (if allowed ≠ [] then allowed ++ str ", " else allowed) ++ m) allowed) := by
    induction methods with
    | nil => exact fun _ hallowed => hallowed
    | cons m methods ih =>
      intro allowed hallowed
      refine ih (fun m' hm' => h m' (List.mem_cons_of_mem m hm')) _ ?_
      refine happend ?_ (h m (List.mem_cons_self ..))
      split
      · exact happend hallowed hsep
      · exact hallowed
  exact hfold [] (by decide)

/-- **Whatever the router returns is ready.** -/
theorem Router.Ready.handle {router : Router} (h : router.Ready) (fs : FileSystem)
    (order : MethodOrder) : Handler.Ready (router.handle fs order) := by
  intro req resp hresp
  unfold Router.handle at hresp
  split at hresp
  · unfold Router.handleStatic at hresp
    rw [StaticFileHandler.serve_eq] at hresp
    split at hresp
    · split at hresp
      · cases hresp
      · rename_i fileResp hserve
        have hready := ready_answerFor hserve
        split at hresp
        · cases hresp
          exact hready.setBody []
        · cases hresp
          exact hready
      · cases hresp
        exact HttpResponse.ready_textResponse _ _
    · cases hresp
      exact HttpResponse.ready_textResponse _ _
  · rename_i methods hroute
    split at hresp
    · cases hresp
      refine HttpResponse.ready_methodNotAllowed (plain_allowedList fun m hm => ?_)
      exact h.methods req.path methods hroute m ((order.perm methods).mem_iff.mp hm)
    · rename_i handler hmethod
      exact h.handlers req.path methods req.methodString handler hroute hmethod req resp hresp

/-! ## What is sent -/

/-- The response `handle_client` sends for what it has received; none for an empty buffer. -/
def responseTo (config : Config) (client : Client) (rawRequest : Bytes) : Option HttpResponse :=
  if rawRequest = [] then none
  else
    let parseResult := parse rawRequest config.maxHeaderSize config.maxBodySize
    match parseResult.error with
    | .incomplete => some (HttpResponse.badRequest (str "Incomplete request"))
    | .malformed => some (HttpResponse.badRequest (str "Malformed request"))
    | .headerTooLarge => some HttpResponse.payloadTooLarge
    | .bodyTooLarge => some HttpResponse.payloadTooLarge
    | .none =>
      match client.handle (buildRequest parseResult) with
      | .ok response => some response
      | .error _ => some HttpResponse.internalError

theorem sendAll_mem_answer_iff {client : Client} {outcome : Effect} {resp : HttpResponse}
    {data : Bytes} (h : ∀ d, outcome ≠ .sendAll d) :
    .sendAll data ∈ answer client outcome resp ↔ data = resp.serialize client.iter := by
  simp only [answer, List.mem_cons, Effect.sendAll.injEq, reduceCtorEq, List.not_mem_nil, or_false,
    or_iff_right_iff_imp]
  exact fun houtcome => absurd houtcome.symm (h data)

theorem outcomeOf_ne_sendAll (resp : HttpResponse) (d : Bytes) : outcomeOf resp ≠ .sendAll d := by
  rcases outcomeOf_cases resp with heq | heq | heq
  · rw [heq]
    exact nofun
  · rw [heq]
    exact nofun
  · rw [heq]
    exact nofun

/-- **`handle_client` sends one response.** -/
theorem sendAll_mem_respond_iff {config : Config} {client : Client} {rawRequest data : Bytes} :
    .sendAll data ∈ respond config client rawRequest ↔
      ∃ resp, responseTo config client rawRequest = some resp ∧
        data = resp.serialize client.iter := by
  unfold respond responseTo
  by_cases hempty : rawRequest = []
  · simp [hempty]
  · rw [if_neg hempty, if_neg hempty]
    simp only
    cases (parse rawRequest config.maxHeaderSize config.maxBodySize).error with
    | incomplete => simp [sendAll_mem_answer_iff]
    | malformed => simp [sendAll_mem_answer_iff]
    | headerTooLarge => simp [sendAll_mem_answer_iff]
    | bodyTooLarge => simp [sendAll_mem_answer_iff]
    | none =>
      cases client.handle
          (buildRequest (parse rawRequest config.maxHeaderSize config.maxBodySize)) with
      | ok response => simp [sendAll_mem_answer_iff (outcomeOf_ne_sendAll response)]
      | error what => simp

/-- The response to a request is ready if the router returns such. -/
theorem ready_responseTo {config : Config} {client : Client} {rawRequest : Bytes}
    {resp : HttpResponse} (hready : Handler.Ready client.handle)
    (h : responseTo config client rawRequest = some resp) : resp.Ready := by
  unfold responseTo at h
  split at h
  · cases h
  · simp only at h
    split at h
    · cases h
      exact HttpResponse.ready_textResponse _ _
    · cases h
      exact HttpResponse.ready_textResponse _ _
    · cases h
      exact HttpResponse.ready_textResponse _ _
    · cases h
      exact HttpResponse.ready_textResponse _ _
    · split at h
      · rename_i response hhandle
        cases h
        exact hready _ _ hhandle
      · cases h
        exact HttpResponse.ready_textResponse _ _

/-- What is sent to a client, or to a rejected one, is a ready response. -/
theorem ready_of_sendAll {config : Config} {client : Client} {data : Bytes}
    (hready : Handler.Ready client.handle)
    (hdata : .sendAll data ∈ handleClient config client ∨ .sendAll data ∈ rejectClient client) :
    ∃ resp : HttpResponse, resp.Ready ∧ data = resp.serialize client.iter := by
  rcases hdata with hdata | hdata
  · unfold handleClient at hdata
    rcases List.mem_append.mp hdata with hdata | hdata
    · simp at hdata
    · split at hdata
      · obtain ⟨resp, hresp, rfl⟩ := sendAll_mem_respond_iff.mp hdata
        exact ⟨resp, ready_responseTo hready hresp, rfl⟩
      · cases hdata
  · refine ⟨_, HttpResponse.ready_serviceUnavailable, ?_⟩
    simpa [rejectClient] using hdata

/-- **Every response the server sends is correctly framed.**  For every configuration, every outcome
    of the `recv` and `send` calls, every file system, every answer of the environment to the handlers
    and every iteration order: what `handle_client`, or `accept_loop` for a rejected connection,
    hands to `send_all` is a status line, header lines with exactly one Content-Length, the number of
    bytes behind the first CRLFCRLF, and exactly one `Connection: close`, and a body. -/
theorem responses_wellFramed (config : Config) (recvScript : List RecvOutcome)
    (sendScript : List SendOutcome) (iter : IterOrder) (fs : FileSystem) (documentRoot : Bytes)
    (env : HandlerEnv) (order : MethodOrder) (data : Bytes)
    (hdata : .sendAll data ∈ handleClient config
        ⟨recvScript, sendScript, (defaultRouter fs documentRoot env).handle fs order, iter⟩ ∨
      .sendAll data ∈ rejectClient
        ⟨recvScript, sendScript, (defaultRouter fs documentRoot env).handle fs order, iter⟩) :
    WellFramed data := by
  have hready := ((Router.ready_make fs documentRoot).setupDefaultRoutes env).handle fs order
  obtain ⟨resp, hresp, rfl⟩ := ready_of_sendAll hready hdata
  exact ⟨_, _, _, hresp.wellFramed iter⟩

/-- The theorem on a request for `/hello`. -/
theorem responses_wellFramed_hello :
    WellFramed (str "HTTP/1.1 200 OK\r\nConnection: close\r\nContent-Type: text/plain\r\n" ++
      str "Content-Length: 14\r\n\r\nHello, World!\n") :=
  responses_wellFramed { threadCount := 2 }
    [.data ⟨str "GET /hello HTTP/1.1\r\n\r\n", by decide, by decide⟩] [] .entries exampleFileSystem
    (str "/srv") exampleEnv .keys _ (Or.inl (by decide +kernel))

end HttpServer
