/-
  The router — `router.cpp`: `add_route`, `handle` and `setup_default_routes`.

  1. **Data** — the route table is a finite map from paths to finite maps from method names to
     handlers.  A handler is a function of the request that returns a response or throws a
     `std::exception`, which is an error with its `what()`.

  2. **Environment** — what the handlers read besides the request is `HandlerEnv`: the pages in the
     document root, the text of the metrics, and the time the `/work` handler measures.  The file
     system of the static handler is a parameter of `handle`, and so is the order in which the loop
     behind a 405 visits the methods of a path.

  3. **Program** — `setupDefaultRoutes` registers the routes in the order of the source.  The three
     page handlers differ in file name and text, so they are one definition, `page`, at their own
     values.

  4. **The `/work` handler** — it cuts both parameters six bytes behind their key, which is right for
     `delay=`; behind `body=`, which has five bytes, `substr` may start past the end and throw.
-/
import HttpServer.StaticFile

namespace HttpServer

open ListSearch

/-! ## Data -/

/-- `std::function<HttpResponse(const HttpRequest&)>`; an error is the `what()` of the
    `std::exception` that the call throws. -/
abbrev Handler := HttpRequest → Except Bytes HttpResponse

/-- The handlers of one path, by method name. -/
abbrev MethodMap := AList fun _ : Bytes => Handler

/-- The order in which a loop over the handlers of a path visits the method names. -/
structure MethodOrder where
  order : MethodMap → List Bytes
  perm : ∀ m, (order m).Perm m.keys

/-- Visiting them in the order of the entries. -/
def MethodOrder.keys : MethodOrder := ⟨AList.keys, fun _ => .refl _⟩

/-- The fields of `Router`.  The table is a map of maps, as in the source: by path, and then by
    method. -/
structure Router where
  documentRoot : Bytes
  /-- By path, which is the target as it was received, its query included. -/
  routes : AList fun _ : Bytes => MethodMap
  staticHandler : StaticFileHandler

namespace Router

/-- The constructor. -/
def make (fs : FileSystem) (documentRoot : Bytes) : Router :=
  ⟨documentRoot, ∅, .make fs documentRoot⟩

/-- `add_route(method, path, handler)`: a second handler for a method and a path takes the place of
    the first, and no other entry changes. -/
def addRoute (router : Router) (method path : Bytes) (handler : Handler) : Router :=
  { router with
    routes := router.routes.insert path
      (((router.routes.lookup path).getD ∅).insert method handler) }

theorem lookup_addRoute (router : Router) (method path : Bytes) (handler : Handler) (p : Bytes) :
    (router.addRoute method path handler).routes.lookup p =
      if p = path then some (((router.routes.lookup path).getD ∅).insert method handler)
      else router.routes.lookup p := by
  by_cases hp : p = path
  · subst hp
    rw [if_pos rfl]
    exact AList.lookup_insert _
  · rw [if_neg hp]
    exact AList.lookup_insert_ne hp

/-! ## `handle` -/

/-- The loop that lists the methods of a path for the `Allow` header, with a comma and a blank
    between two of them. -/
def allowedList (methods : List Bytes) : Bytes :=
  methods.foldl (fun allowed m => (if allowed ≠ [] then allowed ++ str ", " else allowed) ++ m) []

/-- The branch of `handle` for a path without a route. -/
def handleStatic (router : Router) (fs : FileSystem) (req : HttpRequest) :
    Except Bytes HttpResponse :=
  if req.method = .GET ∨ req.method = .HEAD then
    match router.staticHandler.serve fs req.path with
    | .error e => .error e.what
    | .ok (some fileResp) =>
      if req.method = .HEAD then .ok (fileResp.setBody []) else .ok fileResp
    | .ok none => .ok (HttpResponse.notFound (str "Not Found"))
  else .ok (HttpResponse.notFound (str "Not Found"))

/-- `handle(req)`: the path decides first and the method second.  A path with a route is never
    looked for in the document root, and a method that it has no handler for gets a 405. -/
def handle (router : Router) (fs : FileSystem) (order : MethodOrder) (req : HttpRequest) :
    Except Bytes HttpResponse :=
  match router.routes.lookup req.path with
  | none => router.handleStatic fs req
  | some methods =>
    match methods.lookup req.methodString with
    | none => .ok (HttpResponse.methodNotAllowed (allowedList (order.order methods)))
    | some handler => handler req

end Router

/-! ## The default routes -/

/-- What the default handlers read besides the request: the pages, the metrics and the clock. -/
structure HandlerEnv where
  /-- All of `std::ifstream(path)`, `none` when it is not open; an error when reading throws. -/
  readText : Bytes → Except Bytes (Option Bytes)
  /-- `Metrics::instance().to_json()`. -/
  metricsJson : Bytes
  /-- The measured milliseconds, as the stream writes them with one decimal. -/
  elapsedFixed : Bytes
  /-- The measured milliseconds, cast to `int`. -/
  elapsedInt : Int

/-- An environment in which no page can be opened. -/
def exampleEnv : HandlerEnv where
  readText _ := .ok none
  metricsJson := str "\x7b\x7d"
  elapsedFixed := str "100.2"
  elapsedInt := 100

/-- `std::to_string` of an `int`. -/
def toDecimalInt (v : Int) : Bytes :=
  if v < 0 then 45 :: toDecimal v.natAbs else toDecimal v.natAbs

/-- The handler of a page: the whole of a file in the document root, or a 404 with a text. -/
def page (env : HandlerEnv) (documentRoot file missing : Bytes) : Handler := fun _ =>
  match env.readText (documentRoot ++ file) with
  | .error what => .error what
  | .ok none => .ok (HttpResponse.notFound missing)
  | .ok (some html) => .ok (HttpResponse.okResponse html (str "text/html"))

/-- `s.substr(pos, len)`, with `none` for `npos`. -/
def substrChecked (s : Bytes) (pos : Nat) (len : Option Nat) : Except Bytes Bytes :=
  if pos > s.length then .error (str "basic_string::substr")
  else
    match len with
    | none => .ok (s.drop pos)
    | some len => .ok (substr s pos len)

/-- The text behind a key that was found at `pos`, up to the next `&`. -/
def cutParam (params : Bytes) (pos : Nat) : Except Bytes Bytes :=
  match findFrom [38] params pos with
  | none => substrChecked params (pos + 6) none
  -- `end - pos - 6` in unsigned arithmetic
  | some e => substrChecked params (pos + 6) (some ((e + 2 ^ 64 - (pos + 6)) % 2 ^ 64))

/-- The text of a parameter, or its default when the key is not there. -/
def paramText (params key default : Bytes) : Except Bytes Bytes :=
  match find key params with
  | none => .ok default
  | some pos => cutParam params pos

/-- `try { value = std::stoi(text); } catch (...) {}`, and the two bounds. -/
def clampedInt (text : Bytes) (default bound : Int) : Int :=
  let value := match stoi text with
    | .ok value => value
    | .error _ => default
  let value := if value < 0 then 0 else value
  if value > bound then bound else value

/-- The texts of `delay` and `body`, or their defaults.  The keys are searched in all that stands
    behind the first `?`, wherever they are in it. -/
def workParams (path : Bytes) : Except Bytes (Bytes × Bytes) :=
  match find [63] path with
  | none => .ok (str "100", str "0")
  | some qs =>
    let params := path.drop (qs + 1)
    match paramText params (str "delay=") (str "100") with
    | .error what => .error what
    | .ok delayStr =>
      match paramText params (str "body=") (str "0") with
      | .error what => .error what
      | .ok bodyStr => .ok (delayStr, bodyStr)

/-- The response of the `/work` handler.  The letters it makes up are not part of it. -/
def workResponse (env : HandlerEnv) (delayMs bodyKb : Int) : HttpResponse :=
  let text := str "\x7b\n  \"status\": \"work_done\",\n  \"delay_ms\": " ++ toDecimalInt delayMs ++
    str ",\n  \"actual_ms\": " ++ env.elapsedFixed ++ str ",\n  \"body_kb\": " ++
    toDecimalInt bodyKb ++ str "\n\x7d"
  ((HttpResponse.okResponse text (str "application/json")).setHeader (str "X-Work-Delay")
    (toDecimalInt delayMs)).setHeader (str "X-Work-Actual") (toDecimalInt env.elapsedInt)

/-- The handler of `/work`: the delay and the size of the body from the query, with their bounds, in
    a page that says what was done. -/
def work (env : HandlerEnv) : Handler := fun req =>
  match workParams req.path with
  | .error what => .error what
  | .ok (delayStr, bodyStr) =>
    .ok (workResponse env (clampedInt delayStr 100 30000) (clampedInt bodyStr 0 10240))

/-- The handler of `/health`. -/
def health : Handler := fun _ =>
  .ok (HttpResponse.okResponse (str "\x7b\"status\":\"ok\"\x7d") (str "application/json"))

/-- The handler of `/hello`. -/
def hello : Handler := fun _ =>
  .ok (HttpResponse.okResponse (str "Hello, World!\n") (str "text/plain"))

/-- The handler of `/metrics`, whose page is `to_json()`. -/
def metrics (env : HandlerEnv) : Handler := fun _ =>
  .ok (HttpResponse.okResponse env.metricsJson (str "application/json"))

/-- The handler of `/echo`: the body, as it came. -/
def echo : Handler := fun req => .ok (HttpResponse.okResponse req.body (str "text/plain"))

/-- The handlers of HEAD: a type and no body. -/
def emptyPage (contentType : Bytes) : Handler := fun _ =>
  .ok (HttpResponse.okResponse [] contentType)

/-- `setup_default_routes()`. -/
def Router.setupDefaultRoutes (router : Router) (env : HandlerEnv) : Router :=
  let root := router.documentRoot
  (((((((((router.addRoute (str "GET") (str "/dashboard")
      (page env root (str "/dashboard.html") (str "Dashboard not found"))).addRoute
    (str "GET") (str "/playground")
      (page env root (str "/playground.html") (str "Playground not found"))).addRoute
    (str "GET") (str "/lab") (page env root (str "/lab.html") (str "Lab not found"))).addRoute
    (str "GET") (str "/work") (work env)).addRoute
    (str "GET") (str "/health") health).addRoute
    (str "GET") (str "/hello") hello).addRoute
    (str "GET") (str "/metrics") (metrics env)).addRoute
    (str "POST") (str "/echo") echo).addRoute
    (str "HEAD") (str "/hello") (emptyPage (str "text/plain"))).addRoute
    (str "HEAD") (str "/health") (emptyPage (str "application/json"))

/-- The server's `router_`: the default routes over a document root. -/
def defaultRouter (fs : FileSystem) (documentRoot : Bytes) (env : HandlerEnv) : Router :=
  (Router.make fs documentRoot).setupDefaultRoutes env

/-- The handlers of a path with two of them. -/
def twoMethods (get head : Handler) : MethodMap :=
  ((∅ : MethodMap).insert (str "GET") get).insert (str "HEAD") head

/-- The handlers of a path with one. -/
def oneMethod (method : Bytes) (handler : Handler) : MethodMap := (∅ : MethodMap).insert method handler

/-- **The default route table.** -/
theorem Router.lookup_setupDefaultRoutes {router : Router} (hempty : router.routes = ∅)
    (env : HandlerEnv) (path : Bytes) :
    (router.setupDefaultRoutes env).routes.lookup path =
      if path = str "/health" then some (twoMethods health (emptyPage (str "application/json")))
      else if path = str "/hello" then some (twoMethods hello (emptyPage (str "text/plain")))
      else if path = str "/echo" then some (oneMethod (str "POST") echo)
      else if path = str "/metrics" then some (oneMethod (str "GET") (metrics env))
      else if path = str "/work" then some (oneMethod (str "GET") (work env))
      else if path = str "/lab" then
        some (oneMethod (str "GET") (page env router.documentRoot (str "/lab.html")
          (str "Lab not found")))
      else if path = str "/playground" then
        some (oneMethod (str "GET") (page env router.documentRoot (str "/playground.html")
          (str "Playground not found")))
      else if path = str "/dashboard" then
        some (oneMethod (str "GET") (page env router.documentRoot (str "/dashboard.html")
          (str "Dashboard not found")))
      else none := by
  simp +decide only [setupDefaultRoutes, lookup_addRoute, hempty, AList.lookup_empty, if_false,
    if_true, Option.getD_none, Option.getD_some]
  -- the second registrations of `/health` and `/hello` cover the first ones
  by_cases hhealth : path = str "/health"
  · rw [if_pos hhealth, if_pos hhealth]
    rfl
  · by_cases hhello : path = str "/hello"
    · simp only [if_neg hhealth, if_pos hhello]
      rfl
    · simp only [if_neg hhealth, if_neg hhello]
      rfl

end HttpServer
