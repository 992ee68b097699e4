/-
  HEAD requests — compared with the GET of the same path, and on the wire.

  1. **Two runs** — `Both related` lifts a relation on responses to what two calls of `handle` end
     with: two responses that are related, or the same exception.

  2. **The same head** (`head_mirrors_get`) — HEAD takes the route table's own entry, the static
     response with its body emptied, or the 404 and 405 of GET.  Status and headers are those of GET,
     up to the length of the body, on every path but the five that are registered for GET only;
     those answer a HEAD with a 405 that allows GET.

  3. **No body** (`head_bodyless_iff`) — only two handlers and the static branch leave the body out:
     a 404, a 405 and a 500 are sent with their texts.
-/
import HttpServer.ResponseFraming
import HttpServer.RouteSelection

namespace HttpServer

/-! ## Two runs -/

/-- Both calls return, with related responses, or throw the same. -/
def Both (related : HttpResponse → HttpResponse → Prop) :
    Except Bytes HttpResponse → Except Bytes HttpResponse → Prop
  | .ok get, .ok head => related get head
  | .error e, .error e' => e = e'
  | .ok _, .error _ => False
  | .error _, .ok _ => False

/-- The same status and the same header map, the `Content-Length` among them. -/
def SameHead (get head : HttpResponse) : Prop :=
  head.statusCode = get.statusCode ∧ ∀ name, head.headers.lookup name = get.headers.lookup name

/-- The same status, the same header map but for Content-Length, and the same Content-Length where
    the bodies are of one length. -/
structure SameHeadUpToBody (get head : HttpResponse) : Prop where
  status : head.statusCode = get.statusCode
  header : ∀ name, name ≠ str "Content-Length" →
    head.headers.lookup name = get.headers.lookup name
  length : head.body.length = get.body.length →
    head.headers.lookup (str "Content-Length") = get.headers.lookup (str "Content-Length")

namespace SameHeadUpToBody

theorem refl (resp : HttpResponse) : SameHeadUpToBody resp resp := ⟨rfl, fun _ _ => rfl, fun _ => rfl⟩

/-- Another body for a ready response. -/
theorem setBody {resp : HttpResponse} (h : resp.Ready) (body : Bytes) :
    SameHeadUpToBody resp (resp.setBody body) where
  status := rfl
  header name hname := HttpResponse.lookup_setHeader_ne _ _ hname
  length hlen := by
    have hbody : (resp.setBody body).body = body := rfl
    rw [hbody] at hlen
    rw [h.length, HttpResponse.setBody, HttpResponse.lookup_setHeader_self, hlen]

/-- Two bodies under one type. -/
theorem okResponse {contentType : Bytes} (h : Plain contentType) (body body' : Bytes) :
    SameHeadUpToBody (HttpResponse.okResponse body contentType)
      (HttpResponse.okResponse body' contentType) where
  status := rfl
  header name hname := by
    unfold HttpResponse.okResponse
    by_cases hconnection : name = str "Connection"
    · rw [hconnection, HttpResponse.lookup_setHeader_self, HttpResponse.lookup_setHeader_self]
    · rw [HttpResponse.lookup_setHeader_ne _ _ hconnection,
        HttpResponse.lookup_setHeader_ne _ _ hconnection]
      unfold HttpResponse.setContentType
      by_cases htype : name = str "Content-Type"
      · rw [htype, HttpResponse.lookup_setHeader_self, HttpResponse.lookup_setHeader_self]
      · rw [HttpResponse.lookup_setHeader_ne _ _ htype, HttpResponse.lookup_setHeader_ne _ _ htype]
        unfold HttpResponse.make HttpResponse.setBody
        rw [HttpResponse.lookup_setHeader_ne _ _ hname, HttpResponse.lookup_setHeader_ne _ _ hname]
  length hlen := by
    have hbody : body'.length = body.length := hlen
    rw [(HttpResponse.ready_okResponse body h).length,
      (HttpResponse.ready_okResponse body' h).length]
    exact congrArg (fun n => some (toDecimal n)) hbody

end SameHeadUpToBody

/-- The same result of both calls. -/
theorem both_refl (result : Except Bytes HttpResponse) : Both SameHeadUpToBody result result := by
  cases result with
  | ok resp => exact .refl resp
  | error e => exact rfl

/-! ## HEAD and GET of one path -/

/-- The static branch: a 404 is the same for both, a 403 and a file lose their body. -/
theorem both_answerStatic (target : StaticTarget) :
    Both SameHeadUpToBody (Router.answerStatic .GET target) (Router.answerStatic .HEAD target) := by
  unfold Router.answerStatic
  cases hanswer : StaticFileHandler.answerFor target with
  | error e => exact rfl
  | ok answer =>
    cases answer with
    | none => exact .refl _
    | some fileResp => exact .setBody (ready_answerFor hanswer) []

section Default

variable {fs : FileSystem} {documentRoot : Bytes} {env : HandlerEnv} {order : MethodOrder}

/-- A path with both handlers. -/
theorem handle_getHead {path : Bytes} (hpath : path ∈ getHeadPaths) :
    ∃ body contentType, Plain contentType ∧
      (∀ get : HttpRequest, get.Is (str "GET") → get.path = path →
        (defaultRouter fs documentRoot env).handle fs order get =
          .ok (HttpResponse.okResponse body contentType)) ∧
      ∀ head : HttpRequest, head.Is (str "HEAD") → head.path = path →
        (defaultRouter fs documentRoot env).handle fs order head =
          .ok (HttpResponse.okResponse [] contentType) := by
  obtain ⟨body, contentType, htype, hroute⟩ :=
    @lookup_getHead fs documentRoot env path hpath
  refine ⟨body, contentType, ?_, fun get hget hp => ?_, fun head hhead hp => ?_⟩
  · rcases htype with rfl | rfl <;> decide
  · subst hp
    have hhandler := lookup_twoMethods_get (fun _ => .ok (HttpResponse.okResponse body contentType))
      (emptyPage contentType)
    rw [← hget.1] at hhandler
    exact Router.handle_handler hroute hhandler
  · subst hp
    have hhandler := lookup_twoMethods_head
      (fun _ => .ok (HttpResponse.okResponse body contentType)) (emptyPage contentType)
    rw [← hhead.1] at hhandler
    exact Router.handle_handler hroute hhandler

/-- A HEAD of a path that is registered for GET only. -/
theorem handle_head_getOnly {head : HttpRequest} (hhead : head.Is (str "HEAD"))
    (hpath : head.path ∈ getOnlyPaths) :
    (defaultRouter fs documentRoot env).handle fs order head =
      .ok (HttpResponse.methodNotAllowed (str "GET")) := by
  obtain ⟨handler, hroute⟩ := @lookup_getOnly fs documentRoot env head.path hpath
  have hmethod : (oneMethod (str "GET") handler).lookup head.methodString = none := by
    rw [hhead.1]
    exact lookup_oneMethod_ne (by decide) handler
  rw [Router.handle_notAllowed hroute hmethod, allowedList_oneMethod]

/-- A GET or a HEAD of `/echo`. -/
theorem handle_echo_notAllowed {req : HttpRequest} (hpath : req.path = str "/echo")
    (hmethod : req.methodString ≠ str "POST") :
    (defaultRouter fs documentRoot env).handle fs order req =
      .ok (HttpResponse.methodNotAllowed (str "POST")) := by
  have hroute := @lookup_echo fs documentRoot env
  rw [← hpath] at hroute
  rw [Router.handle_notAllowed hroute (lookup_oneMethod_ne hmethod echo), allowedList_oneMethod]

end Default

/-- **HEAD mirrors GET, but for the length of the body.**  For every file system, document root,
    environment and path: on every path but the five that the default routes register for GET only,
    a HEAD ends with the status and the headers that a GET ends with, Content-Length too where both
    bodies have one length; on those five it ends with a 405 that allows GET. -/
theorem head_mirrors_get (fs : FileSystem) (documentRoot : Bytes) (env : HandlerEnv)
    (order : MethodOrder) (get head : HttpRequest) (hget : get.Is (str "GET"))
    (hhead : head.Is (str "HEAD")) (hpath : head.path = get.path) :
    let router := defaultRouter fs documentRoot env
    (get.path ∉ getOnlyPaths →
      Both SameHeadUpToBody (router.handle fs order get) (router.handle fs order head)) ∧
    (get.path ∈ getOnlyPaths → ∃ resp, router.handle fs order head = .ok resp ∧
      resp.statusCode = .methodNotAllowed ∧
      resp.headers.lookup (str "Allow") = some (str "GET")) := by
  intro router
  constructor
  · intro hother
    by_cases hroute : get.path ∈ defaultPaths
    · rcases List.mem_append.mp hroute with hboth | hrest
      · obtain ⟨body, contentType, hplain, hg, hh⟩ :=
          @handle_getHead fs documentRoot env order get.path hboth
        rw [hg get hget rfl, hh head hhead hpath]
        exact .okResponse hplain body []
      · have hecho : get.path = str "/echo" := (List.mem_cons.mp hrest).resolve_right hother
        rw [handle_echo_notAllowed hecho (by rw [hget.1]; decide),
          handle_echo_notAllowed (hpath.trans hecho) (by rw [hhead.1]; decide)]
        exact both_refl _
    · have hnone : router.routes.lookup get.path = none := lookup_default_eq_none_iff.mpr hroute
      rw [Router.handle_static hnone (Or.inl hget.2),
        Router.handle_static (hpath ▸ hnone) (Or.inr hhead.2), hget.2, hhead.2, hpath]
      exact both_answerStatic _
  · intro honly
    refine ⟨_, handle_head_getOnly hhead (hpath ▸ honly), rfl, ?_⟩
    exact HttpResponse.lookup_setHeader_self _ _ _

/-- The theorem on `/a.txt`, a file. -/
theorem head_mirrors_get_file :
    let router := defaultRouter exampleFileSystem (str "/srv") exampleEnv
    Both SameHeadUpToBody
      (router.handle exampleFileSystem .keys (requestFor (str "GET") (str "/a.txt")))
      (router.handle exampleFileSystem .keys (requestFor (str "HEAD") (str "/a.txt"))) :=
  (head_mirrors_get exampleFileSystem (str "/srv") exampleEnv .keys
    (requestFor (str "GET") (str "/a.txt")) (requestFor (str "HEAD") (str "/a.txt"))
    (is_requestFor _ _) (is_requestFor _ _) rfl).1 (by decide)

/-- The status differs on `/lab`, the Content-Length on `/hello` and on a file. -/
theorem head_differs_from_get :
    let router := defaultRouter exampleFileSystem (str "/srv") exampleEnv
    let get := fun path => router.handle exampleFileSystem .keys (requestFor (str "GET") path)
    let head := fun path => router.handle exampleFileSystem .keys (requestFor (str "HEAD") path)
    ¬ Both SameHead (get (str "/lab")) (head (str "/lab")) ∧
      ¬ Both SameHead (get (str "/hello")) (head (str "/hello")) ∧
      ¬ Both SameHead (get (str "/a.txt")) (head (str "/a.txt")) := by
  refine ⟨fun h => ?_, fun h => ?_, fun h => ?_⟩
  · have hlab : SameHead (HttpResponse.notFound (str "Lab not found"))
        (HttpResponse.methodNotAllowed (str "GET")) := h
    exact absurd hlab.1 (by decide)
  · have hhello : SameHead (HttpResponse.okResponse (str "Hello, World!\n") (str "text/plain"))
        (HttpResponse.okResponse [] (str "text/plain")) := h
    exact absurd (hhello.2 (str "Content-Length")) (by decide)
  · have hfile : SameHead
        (StaticFileHandler.fileResponse ⟨[str "srv", str "a.txt"], by decide⟩ (str "hi"))
        ((StaticFileHandler.fileResponse ⟨[str "srv", str "a.txt"], by decide⟩
          (str "hi")).setBody []) := h
    exact absurd (hfile.2 (str "Content-Length")) (by decide)

/-! ## On the wire -/

/-- The body that is sent for what `handle` ends with. -/
def sentBody : Except Bytes HttpResponse → Bytes
  | .ok response => response.body
  | .error _ => HttpResponse.internalError.body

/-- The path names a file, or something outside the document root. -/
def StaticTarget.Stripped (target : StaticTarget) : Prop :=
  target = .forbidden ∨ ∃ canonical content, target = .file canonical content

theorem sentBody_answerStatic (target : StaticTarget) :
    sentBody (Router.answerStatic .HEAD target) = [] ↔ target.Stripped := by
  unfold StaticTarget.Stripped
  cases target with
  | missing => exact iff_of_false (by decide) (by simp)
  | forbidden => exact iff_of_true rfl (Or.inl rfl)
  | unknown e =>
    refine iff_of_false ?_ (by simp)
    show HttpResponse.internalError.body ≠ []
    decide
  | file canonical content => exact iff_of_true rfl (Or.inr ⟨_, _, rfl⟩)

theorem body_methodNotAllowed (allow : Bytes) :
    (HttpResponse.methodNotAllowed allow).body = str "Method Not Allowed" := by
  unfold HttpResponse.methodNotAllowed
  split <;> rfl

/-- **When `handle` leaves the body out.** -/
theorem sentBody_handle_head_iff {fs : FileSystem} {documentRoot : Bytes} {env : HandlerEnv}
    {order : MethodOrder} {head : HttpRequest} (hhead : head.Is (str "HEAD")) :
    let router := defaultRouter fs documentRoot env
    sentBody (router.handle fs order head) = [] ↔
      head.path ∈ getHeadPaths ∨ head.path ∉ defaultPaths ∧
        (router.staticHandler.target fs head.path).Stripped := by
  intro router
  by_cases hroute : head.path ∈ defaultPaths
  · rw [or_iff_left fun h => h.1 hroute]
    rcases List.mem_append.mp hroute with hboth | hrest
    · obtain ⟨body, contentType, -, -, hh⟩ :=
        @handle_getHead fs documentRoot env order head.path hboth
      rw [hh head hhead rfl]
      exact iff_of_true rfl hboth
    · have hnot : head.path ∉ getHeadPaths := by
        have hdisjoint : ∀ path ∈ str "/echo" :: getOnlyPaths, path ∉ getHeadPaths := by decide
        exact hdisjoint _ hrest
      refine iff_of_false ?_ hnot
      rcases List.mem_cons.mp hrest with hecho | honly
      · rw [handle_echo_notAllowed hecho (by rw [hhead.1]; decide), sentBody, body_methodNotAllowed]
        decide
      · rw [handle_head_getOnly hhead honly, sentBody, body_methodNotAllowed]
        decide
  · have hnot : head.path ∉ getHeadPaths := fun h => hroute (List.mem_append_left _ h)
    have hnone : router.routes.lookup head.path = none := lookup_default_eq_none_iff.mpr hroute
    rw [Router.handle_static hnone (Or.inr hhead.2), hhead.2, or_iff_right hnot,
      and_iff_right hroute]
    exact sentBody_answerStatic _

/-- What is sent for an accepted request. -/
theorem responseTo_of_accepted {config : Config} {client : Client} {raw : Bytes}
    (haccept : (parse raw config.maxHeaderSize config.maxBodySize).error = .none) :
    ∃ resp, responseTo config client raw = some resp ∧ resp.body = sentBody (client.handle
      (buildRequest (parse raw config.maxHeaderSize config.maxBodySize))) := by
  have hne : raw ≠ [] := by
    rintro rfl
    cases haccept
  rw [responseTo, if_neg hne]
  simp only [haccept]
  cases client.handle (buildRequest (parse raw config.maxHeaderSize config.maxBodySize)) with
  | ok response => exact ⟨response, rfl, rfl⟩
  | error what => exact ⟨_, rfl, rfl⟩

/-- The response to what was received has no byte behind its first CRLFCRLF. -/
def SentWithoutBody (config : Config) (client : Client) (raw : Bytes) : Prop :=
  ∀ data, .sendAll data ∈ respond config client raw → bytesBehind data = some []

/-- **When a HEAD is answered without a body.**  For every byte string that `parse` accepts with the
    method HEAD, every file system, environment and iteration order: no byte follows the first
    CRLFCRLF of the response exactly when the path has a HEAD handler, or has no route and names a
    file or something outside the document root. -/
theorem head_bodyless_iff (config : Config) (recvScript : List RecvOutcome)
    (sendScript : List SendOutcome) (iter : IterOrder) (fs : FileSystem) (documentRoot : Bytes)
    (env : HandlerEnv) (order : MethodOrder) (raw : Bytes)
    (haccept : (parse raw config.maxHeaderSize config.maxBodySize).error = .none)
    (hmethod : (parse raw config.maxHeaderSize config.maxBodySize).method = str "HEAD") :
    let router := defaultRouter fs documentRoot env
    let path := (parse raw config.maxHeaderSize config.maxBodySize).path
    SentWithoutBody config ⟨recvScript, sendScript, router.handle fs order, iter⟩ raw ↔
      path ∈ getHeadPaths ∨ path ∉ defaultPaths ∧
        (router.staticHandler.target fs path).Stripped := by
  intro router path
  let client : Client := ⟨recvScript, sendScript, router.handle fs order, iter⟩
  let head := buildRequest (parse raw config.maxHeaderSize config.maxBodySize)
  have hhead : head.Is (str "HEAD") := ⟨hmethod, congrArg methodOf hmethod⟩
  have hready := ((Router.ready_make fs documentRoot).setupDefaultRoutes env).handle fs order
  obtain ⟨resp, hresp, hbody⟩ := @responseTo_of_accepted config client raw haccept
  have hbytes : bytesBehind (resp.serialize iter) = some resp.body :=
    ((ready_responseTo hready hresp).wellFramed iter).bytesBehind_eq
  have hsent : SentWithoutBody config client raw ↔ resp.body = [] := by
    constructor
    · intro hall
      have hnil := hall _ (sendAll_mem_respond_iff.mpr ⟨resp, hresp, rfl⟩)
      exact Option.some.inj (hbytes.symm.trans hnil)
    · intro hnil data hdata
      obtain ⟨resp', hresp', rfl⟩ := sendAll_mem_respond_iff.mp hdata
      cases hresp.symm.trans hresp'
      exact hbytes.trans (congrArg some hnil)
  rw [hsent, hbody]
  exact sentBody_handle_head_iff hhead

/-- The theorem on a HEAD of `/hello`. -/
theorem head_bodyless_iff_hello :
    let router := defaultRouter exampleFileSystem (str "/srv") exampleEnv
    let raw := str "HEAD /hello HTTP/1.1\r\n\r\n"
    SentWithoutBody { threadCount := 2 } ⟨[], [], router.handle exampleFileSystem .keys, .entries⟩
        raw ↔
      str "/hello" ∈ getHeadPaths ∨ str "/hello" ∉ defaultPaths ∧
        (router.staticHandler.target exampleFileSystem (str "/hello")).Stripped :=
  head_bodyless_iff { threadCount := 2 } [] [] .entries exampleFileSystem (str "/srv") exampleEnv
    .keys (str "HEAD /hello HTTP/1.1\r\n\r\n") (by decide) (by decide)

/-- A HEAD of a path that names nothing, and one of `/lab`: both responses carry their text. -/
theorem head_sends_body :
    let router := defaultRouter exampleFileSystem (str "/srv") exampleEnv
    let client : Client := ⟨[], [], router.handle exampleFileSystem .keys, .entries⟩
    let missing := str "HEAD /nothing HTTP/1.1\r\n\r\n"
    let lab := str "HEAD /lab HTTP/1.1\r\n\r\n"
    ((parse missing 65536 1048576).error = .none ∧ (parse missing 65536 1048576).method = str "HEAD" ∧
        ¬ SentWithoutBody { threadCount := 2 } client missing) ∧
      (parse lab 65536 1048576).error = .none ∧ (parse lab 65536 1048576).method = str "HEAD" ∧
        ¬ SentWithoutBody { threadCount := 2 } client lab := by
  intro router client missing lab
  refine ⟨⟨by decide, by decide, fun h => ?_⟩, by decide, by decide, fun h => ?_⟩
  · have hsent : .sendAll ((HttpResponse.notFound (str "Not Found")).serialize .entries) ∈
        respond { threadCount := 2 } client missing := by decide +kernel
    exact absurd (h _ hsent) (by decide +kernel)
  · have hsent : .sendAll ((HttpResponse.methodNotAllowed (str "GET")).serialize .entries) ∈
        respond { threadCount := 2 } client lab := by decide +kernel
    exact absurd (h _ hsent) (by decide +kernel)

end HttpServer
