/-
  What a request selects — `Router::handle` without the response.

  1. **Specification** — `Selected` lists what a request can address: a registered handler, a path
     without a handler for the method, what a path names under the document root, or nothing.

  2. **Bridge** — `handle_eq` says that the response is a function of what is selected, so a
     statement about two requests is one about two selections.

  3. **The default routes** — eight paths: five with a GET handler, `/hello` and `/health` with one
     for HEAD too, and `/echo` with one for POST (`lookup_default_eq_none_iff`).
-/
import HttpServer.HttpParser
import HttpServer.Router
import HttpServer.StaticTarget

namespace HttpServer

/-- The request has this method, as text and as `build_request` sets it from the text. -/
def HttpRequest.Is (req : HttpRequest) (method : Bytes) : Prop :=
  req.methodString = method ∧ req.method = methodOf method

/-- A request with nothing but a method and a path. -/
def requestFor (method path : Bytes) : HttpRequest :=
  { method := methodOf method, methodString := method, path }

theorem is_requestFor (method path : Bytes) : (requestFor method path).Is method := ⟨rfl, rfl⟩

/-! ## Selection -/

/-- What `Router::handle` selects for a request, before any of it is run: the four ways that it can
    go. -/
inductive Selected
  | handler (handler : Handler)
  /-- A registered path without a handler for the method. -/
  | notAllowed
  /-- A path without a route, and what it names under the document root. -/
  | static (target : StaticTarget)
  /-- A path without a route, and a method the static handler is not asked for. -/
  | nothing

namespace Router

/-- What a request selects: the two lookups of `handle` and the method test in front of the static
    handler. -/
def selected (router : Router) (fs : FileSystem) (req : HttpRequest) : Selected :=
  match router.routes.lookup req.path with
  | some methods =>
    match methods.lookup req.methodString with
    | some handler => .handler handler
    | none => .notAllowed
  | none =>
    if req.method = .GET ∨ req.method = .HEAD then
      .static (router.staticHandler.target fs req.path)
    else .nothing

/-- The response for what a path names. -/
def answerStatic (method : HttpMethod) (target : StaticTarget) : Except Bytes HttpResponse :=
  match StaticFileHandler.answerFor target with
  | .error e => .error e.what
  | .ok none => .ok (HttpResponse.notFound (str "Not Found"))
  | .ok (some fileResp) => .ok (if method = .HEAD then fileResp.setBody [] else fileResp)

/-- The response for what a request has selected. -/
def answerSelected (router : Router) (order : MethodOrder) (req : HttpRequest) :
    Selected → Except Bytes HttpResponse
  | .handler handler => handler req
  | .notAllowed =>
    .ok (HttpResponse.methodNotAllowed
      (allowedList (order.order ((router.routes.lookup req.path).getD ∅))))
  | .static target => answerStatic req.method target
  | .nothing => .ok (HttpResponse.notFound (str "Not Found"))

/-- **The response is a function of the selection.** -/
theorem handle_eq (router : Router) (fs : FileSystem) (order : MethodOrder) (req : HttpRequest) :
    router.handle fs order req = router.answerSelected order req (router.selected fs req) := by
  unfold handle selected
  cases hroute : router.routes.lookup req.path with
  | none =>
    simp only [handleStatic, StaticFileHandler.serve_eq]
    by_cases hmethod : req.method = .GET ∨ req.method = .HEAD
    · rw [if_pos hmethod, if_pos hmethod]
      simp only [answerSelected, answerStatic]
      cases StaticFileHandler.answerFor (router.staticHandler.target fs req.path) with
      | error e => rfl
      | ok answer =>
        cases answer with
        | none => rfl
        | some fileResp => exact (apply_ite Except.ok _ _ _).symm
    · rw [if_neg hmethod, if_neg hmethod]
      rfl
  | some methods =>
    simp only
    cases methods.lookup req.methodString with
    | none => simp only [answerSelected, hroute, Option.getD_some]
    | some handler => rfl

section Branches

variable {router : Router} {fs : FileSystem} {order : MethodOrder} {req : HttpRequest}
  {methods : MethodMap}

/-- A GET or a HEAD of a path without a route. -/
theorem handle_static (hroute : router.routes.lookup req.path = none)
    (hmethod : req.method = .GET ∨ req.method = .HEAD) :
    router.handle fs order req =
      answerStatic req.method (router.staticHandler.target fs req.path) := by
  have hselected : router.selected fs req =
      .static (router.staticHandler.target fs req.path) := by
    unfold selected
    rw [hroute]
    exact if_pos hmethod
  rw [handle_eq, hselected]
  rfl

/-- A method that is not registered for the path. -/
theorem handle_notAllowed
    (hroute : router.routes.lookup req.path = some methods)
    (hmethod : methods.lookup req.methodString = none) :
    router.handle fs order req =
      .ok (HttpResponse.methodNotAllowed (allowedList (order.order methods))) := by
  unfold handle
  rw [hroute]
  simp only [hmethod]

/-- One that is. -/
theorem handle_handler {handler : Handler}
    (hroute : router.routes.lookup req.path = some methods)
    (hmethod : methods.lookup req.methodString = some handler) :
    router.handle fs order req = handler req := by
  unfold handle
  rw [hroute]
  simp only [hmethod]

end Branches

end Router

/-! ## The default routes -/

theorem lookup_oneMethod_self (method : Bytes) (handler : Handler) :
    (oneMethod method handler).lookup method = some handler := AList.lookup_insert _

theorem lookup_oneMethod_ne {method method' : Bytes} (h : method' ≠ method) (handler : Handler) :
    (oneMethod method handler).lookup method' = none := by
  rw [oneMethod, AList.lookup_insert_ne h]
  rfl

theorem lookup_twoMethods_get (get head : Handler) :
    (twoMethods get head).lookup (str "GET") = some get := by
  rw [twoMethods, AList.lookup_insert_ne (by decide)]
  exact AList.lookup_insert _

theorem lookup_twoMethods_head (get head : Handler) :
    (twoMethods get head).lookup (str "HEAD") = some head := AList.lookup_insert _

/-- A loop over one handler visits its method. -/
theorem allowedList_oneMethod (order : MethodOrder) (method : Bytes) (handler : Handler) :
    Router.allowedList (order.order (oneMethod method handler)) = method := by
  have hkeys : (oneMethod method handler).keys = [method] := rfl
  have hperm := order.perm (oneMethod method handler)
  rw [hkeys, List.perm_singleton] at hperm
  rw [hperm]
  rfl

/-- The paths with a GET handler and no other. -/
def getOnlyPaths : List Bytes :=
  [str "/metrics", str "/work", str "/lab", str "/playground", str "/dashboard"]

/-- The paths with a GET and a HEAD handler. -/
def getHeadPaths : List Bytes := [str "/health", str "/hello"]

/-- All registered paths. -/
def defaultPaths : List Bytes := getHeadPaths ++ str "/echo" :: getOnlyPaths

section Default

variable {fs : FileSystem} {documentRoot : Bytes} {env : HandlerEnv} {path : Bytes}

/-- **No other path has a route.** -/
theorem lookup_default_eq_none_iff :
    (defaultRouter fs documentRoot env).routes.lookup path = none ↔ path ∉ defaultPaths := by
  rw [defaultRouter, Router.lookup_setupDefaultRoutes rfl]
  simp only [defaultPaths, getHeadPaths, getOnlyPaths, List.cons_append, List.nil_append,
    List.mem_cons, List.not_mem_nil, or_false, not_or]
  split_ifs <;> simp [*]

/-- A path with a GET handler only. -/
theorem lookup_getOnly (h : path ∈ getOnlyPaths) : ∃ handler,
    (defaultRouter fs documentRoot env).routes.lookup path =
      some (oneMethod (str "GET") handler) := by
  rw [defaultRouter, Router.lookup_setupDefaultRoutes rfl]
  simp only [getOnlyPaths, List.mem_cons, List.not_mem_nil, or_false] at h
  rcases h with rfl | rfl | rfl | rfl | rfl
  all_goals
    simp +decide only [if_false, if_true]
    exact ⟨_, rfl⟩

theorem lookup_echo : (defaultRouter fs documentRoot env).routes.lookup (str "/echo") =
    some (oneMethod (str "POST") echo) := by
  rw [defaultRouter, Router.lookup_setupDefaultRoutes rfl]
  simp +decide only [if_false, if_true]

/-- A path with a GET and a HEAD handler: a text and an empty body of one type. -/
theorem lookup_getHead (h : path ∈ getHeadPaths) : ∃ body contentType,
    (contentType = str "text/plain" ∨ contentType = str "application/json") ∧
    (defaultRouter fs documentRoot env).routes.lookup path =
      some (twoMethods (fun _ => .ok (HttpResponse.okResponse body contentType))
        (emptyPage contentType)) := by
  rw [defaultRouter, Router.lookup_setupDefaultRoutes rfl]
  simp only [getHeadPaths, List.mem_cons, List.not_mem_nil, or_false] at h
  rcases h with rfl | rfl
  · exact ⟨_, _, Or.inr rfl, if_pos rfl⟩
  · simp +decide only [if_false, if_true]
    exact ⟨_, _, Or.inl rfl, rfl⟩

end Default

end HttpServer
