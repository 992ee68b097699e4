/-
  Query strings — does a `?` with a text behind it change what a path addresses?

  1. **Program** — `handle` looks its table up with the whole target, and the static handler decodes
     and normalises the whole target.  Neither looks for a `?`; of the handlers only `/work` does,
     once it has been selected.

  2. **Specification** (`IgnoresQuery`) — a request selects with a query what it selects without.

  3. **When it does** (`ignoresQuery_iff`) — for a registered path exactly when the path with the
     query is registered too, with the same GET handler, which no default route is
     (`selected_withQuery_default`); for a file exactly when the whole text, query included,
     resolves to the same canonical path.
-/
import HttpServer.RouteSelection

namespace HttpServer

/-- The request with `?q` behind its path. -/
def HttpRequest.withQuery (req : HttpRequest) (q : Bytes) : HttpRequest :=
  { req with path := req.path ++ 63 :: q }

namespace Router

/-- A query does not change what the request selects: with it and without it the same handler, or
    the same file. -/
def IgnoresQuery (router : Router) (fs : FileSystem) (req : HttpRequest) (q : Bytes) : Prop :=
  router.selected fs (req.withQuery q) = router.selected fs req

/-- The path is registered, or names a file. -/
def Addresses (router : Router) (fs : FileSystem) (path : Bytes) : Prop :=
  (∃ methods, router.routes.lookup path = some methods) ∨
    ∃ canonical content, router.staticHandler.target fs path = .file canonical content

/-- Both paths are registered, with the same GET handler or both without one. -/
def SameGetHandler (router : Router) (path path' : Bytes) : Prop :=
  ∃ methods methods', router.routes.lookup path = some methods ∧
    router.routes.lookup path' = some methods' ∧
    methods'.lookup (str "GET") = methods.lookup (str "GET")

/-- Neither path is registered, and both resolve to one canonical path. -/
def SameFile (router : Router) (fs : FileSystem) (path path' : Bytes) : Prop :=
  router.routes.lookup path = none ∧ router.routes.lookup path' = none ∧
    fs.canonical (pathJoin router.staticHandler.documentRoot
        (StaticFileHandler.relativePath path')) =
      fs.canonical (pathJoin router.staticHandler.documentRoot
        (StaticFileHandler.relativePath path))

/-! ## One lookup -/

section Lookup

variable {router : Router} {fs : FileSystem} {req : HttpRequest} {methods : MethodMap}

theorem selected_of_route (h : router.routes.lookup req.path = some methods) :
    router.selected fs req =
      (methods.lookup req.methodString).elim .notAllowed .handler := by
  unfold selected
  rw [h]
  cases hmethod : methods.lookup req.methodString with
  | none => simp only [hmethod, Option.elim_none]
  | some handler => simp only [hmethod, Option.elim_some]

theorem selected_ne_static (h : router.routes.lookup req.path = some methods)
    (target : StaticTarget) : router.selected fs req ≠ .static target := by
  rw [selected_of_route h]
  cases methods.lookup req.methodString with
  | none => exact nofun
  | some handler => exact nofun

theorem selected_of_get (h : router.routes.lookup req.path = none) (hget : req.method = .GET) :
    router.selected fs req = .static (router.staticHandler.target fs req.path) := by
  simp only [selected, h, hget, true_or, if_true]

/-- Two registered requests select the same exactly when their tables agree on the method. -/
theorem selected_eq_iff_of_routes {req' : HttpRequest} {methods' : MethodMap}
    (h : router.routes.lookup req.path = some methods)
    (h' : router.routes.lookup req'.path = some methods')
    (hmethod : req'.methodString = req.methodString) :
    router.selected fs req' = router.selected fs req ↔
      methods'.lookup req.methodString = methods.lookup req.methodString := by
  rw [selected_of_route h, selected_of_route h', hmethod]
  cases methods.lookup req.methodString with
  | none => cases methods'.lookup req.methodString <;> simp
  | some handler => cases methods'.lookup req.methodString <;> simp

end Lookup

/-! ## When a query is ignored -/

/-- **When a query does not matter.**  For every router, every file system, every GET request whose
    path is registered or names a file, and every query: the request selects with the query what it
    selects without exactly when the path with the query is itself registered with the same GET
    handler, or neither is registered and both resolve to the same canonical path. -/
theorem ignoresQuery_iff (router : Router) (fs : FileSystem) (req : HttpRequest) (q : Bytes)
    (hget : req.Is (str "GET")) (haddresses : router.Addresses fs req.path) :
    router.IgnoresQuery fs req q ↔
      router.SameGetHandler req.path (req.path ++ 63 :: q) ∨
        router.SameFile fs req.path (req.path ++ 63 :: q) := by
  obtain ⟨htext, hmethod⟩ := hget
  have hmethod' : req.method = .GET := hmethod
  unfold IgnoresQuery
  cases hroute : router.routes.lookup req.path with
  | some methods =>
    have hfile : ¬ router.SameFile fs req.path (req.path ++ 63 :: q) := by
      rintro ⟨hnone, -, -⟩
      rw [hroute] at hnone
      cases hnone
    rw [or_iff_left hfile]
    cases hroute' : router.routes.lookup (req.withQuery q).path with
    | some methods' =>
      have hiff := @selected_eq_iff_of_routes router fs req methods _ _ hroute hroute' rfl
      rw [htext] at hiff
      rw [hiff]
      constructor
      · intro hsame
        exact ⟨methods, methods', hroute, hroute', hsame⟩
      · rintro ⟨methods₁, methods₂, h₁, h₂, hsame⟩
        cases hroute.symm.trans h₁
        cases hroute'.symm.trans h₂
        exact hsame
    | none =>
      -- with the query the request falls to the static handler
      refine iff_of_false (fun hsame => ?_) ?_
      · rw [selected_of_get hroute' hmethod'] at hsame
        exact selected_ne_static hroute _ hsame.symm
      · rintro ⟨_, _, _, h', _⟩
        cases hroute'.symm.trans h'
  | none =>
    have hhandler : ¬ router.SameGetHandler req.path (req.path ++ 63 :: q) := by
      rintro ⟨_, _, h, _, _⟩
      cases hroute.symm.trans h
    rw [or_iff_right hhandler, selected_of_get hroute hmethod']
    cases hroute' : router.routes.lookup (req.withQuery q).path with
    | some methods' =>
      refine iff_of_false (selected_ne_static hroute' _) ?_
      rintro ⟨-, h', -⟩
      cases hroute'.symm.trans h'
    | none =>
      rcases haddresses with ⟨methods, h⟩ | ⟨canonical, content, hfile⟩
      · cases hroute.symm.trans h
      · rw [selected_of_get hroute' hmethod', Selected.static.injEq,
          StaticFileHandler.target_eq_iff_of_file hfile]
        exact ⟨fun hsame => ⟨hroute, hroute', hsame⟩, fun h => h.2.2⟩

/-- The theorem on `/a.txt?v=1`. -/
theorem ignoresQuery_iff_file :
    let router := defaultRouter exampleFileSystem (str "/srv") exampleEnv
    router.IgnoresQuery exampleFileSystem (requestFor (str "GET") (str "/a.txt")) (str "v=1") ↔
      router.SameGetHandler (str "/a.txt") (str "/a.txt?v=1") ∨
        router.SameFile exampleFileSystem (str "/a.txt") (str "/a.txt?v=1") :=
  ignoresQuery_iff (defaultRouter exampleFileSystem (str "/srv") exampleEnv) exampleFileSystem
    (requestFor (str "GET") (str "/a.txt")) (str "v=1") (is_requestFor _ _) (Or.inr ⟨_, _, rfl⟩)

/-- `/work?delay=500` and `/a.txt?v=1`: without the query the `/work` handler and a file, with it
    nothing. -/
theorem query_selects_nothing :
    let router := defaultRouter exampleFileSystem (str "/srv") exampleEnv
    let workReq := requestFor (str "GET") (str "/work")
    let fileReq := requestFor (str "GET") (str "/a.txt")
    (router.selected exampleFileSystem workReq = .handler (work exampleEnv) ∧
        router.selected exampleFileSystem (workReq.withQuery (str "delay=500")) = .static .missing ∧
        ¬ router.IgnoresQuery exampleFileSystem workReq (str "delay=500")) ∧
      (∃ canonical, router.selected exampleFileSystem fileReq =
          .static (.file canonical (str "hi"))) ∧
        router.selected exampleFileSystem (fileReq.withQuery (str "v=1")) = .static .missing ∧
        ¬ router.IgnoresQuery exampleFileSystem fileReq (str "v=1") := by
  intro router workReq fileReq
  have hwork : router.selected exampleFileSystem workReq = .handler (work exampleEnv) := rfl
  have hwork' : router.selected exampleFileSystem (workReq.withQuery (str "delay=500")) =
      .static .missing := rfl
  have hfile : router.selected exampleFileSystem fileReq =
      .static (.file ⟨[str "srv", str "a.txt"], by decide⟩ (str "hi")) := rfl
  have hfile' : router.selected exampleFileSystem (fileReq.withQuery (str "v=1")) =
      .static .missing := rfl
  refine ⟨⟨hwork, hwork', fun hsame => ?_⟩, ⟨_, hfile⟩, hfile', fun hsame => ?_⟩
  · rw [IgnoresQuery, hwork, hwork'] at hsame
    cases hsame
  · rw [IgnoresQuery, hfile, hfile'] at hsame
    cases hsame

end Router

/-! ## The default routes -/

/-- **A query takes every GET request off the default routes.** -/
theorem selected_withQuery_default (fs : FileSystem) (documentRoot : Bytes) (env : HandlerEnv)
    {req : HttpRequest} (hget : req.Is (str "GET")) (q : Bytes) :
    let router := defaultRouter fs documentRoot env
    router.selected fs (req.withQuery q) =
      .static (router.staticHandler.target fs (req.path ++ 63 :: q)) := by
  intro router
  have hpaths : ∀ path ∈ defaultPaths, 63 ∉ path := by decide
  have hroute : router.routes.lookup (req.withQuery q).path = none := by
    refine lookup_default_eq_none_iff.mpr fun hm => hpaths _ hm ?_
    exact List.mem_append_right _ (List.mem_cons_self ..)
  exact Router.selected_of_get hroute hget.2

end HttpServer
