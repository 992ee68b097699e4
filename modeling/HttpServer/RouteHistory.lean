/-
  Dispatch by history — `Router::handle` after any sequence of `add_route` calls.

  1. **Specification** — on the sequence alone: `lastHandler` is the handler that was registered
     last for a method and a path, and `Routed` says whether anything was registered for a path.
     No table and no map is in it.

  2. **The crux (`lookup_register`)** — the two-level table holds exactly this: an insertion answers
     for its own method and path, and the handlers of another path or method are as they were.

  3. **The Allow list** (`allowedList_eq`) — the separator loop joins the method names, in whatever
     order it visits them, since none of them is empty.

  4. **One more registration** (`handle_register_snoc`) — it is seen by its own method and path, and
     otherwise by the requests for its path that no handler answers: these get a 405 now, whatever
     the static handler said before.
-/
import HttpServer.RouteSelection

namespace HttpServer

/-! ## The history -/

/-- One call of `add_route`, with its arguments. -/
structure Registration where
  method : Bytes
  path : Bytes
  handler : Handler

/-- The call is for this method and this path. -/
def Registration.For (reg : Registration) (method path : Bytes) : Prop :=
  reg.method = method ∧ reg.path = path

instance (reg : Registration) (method path : Bytes) : Decidable (reg.For method path) :=
  inferInstanceAs (Decidable (_ ∧ _))

/-- The router behind a sequence of calls of `add_route`, in this order. -/
def Router.register (router : Router) (regs : List Registration) : Router :=
  regs.foldl (fun router reg => router.addRoute reg.method reg.path reg.handler) router

/-- The handler that was registered last for a method and a path. -/
def lastHandler (regs : List Registration) (method path : Bytes) : Option Handler :=
  (regs.reverse.find? fun reg => reg.For method path).map Registration.handler

/-- Some call was for this path. -/
def Routed (regs : List Registration) (path : Bytes) : Prop := ∃ reg ∈ regs, reg.path = path

theorem register_snoc (router : Router) (regs : List Registration) (reg : Registration) :
    router.register (regs ++ [reg]) =
      (router.register regs).addRoute reg.method reg.path reg.handler := by
  rw [Router.register, List.foldl_append]
  rfl

theorem lastHandler_snoc (regs : List Registration) (reg : Registration) (method path : Bytes) :
    lastHandler (regs ++ [reg]) method path =
      if reg.For method path then some reg.handler else lastHandler regs method path := by
  rw [lastHandler, List.reverse_append, List.reverse_singleton, List.singleton_append]
  by_cases hreg : reg.For method path
  · rw [List.find?_cons_of_pos (by simpa using hreg), if_pos hreg]
    rfl
  · rw [List.find?_cons_of_neg (by simpa using hreg), if_neg hreg]
    rfl

theorem routed_snoc_iff {regs : List Registration} {reg : Registration} {path : Bytes} :
    Routed (regs ++ [reg]) path ↔ Routed regs path ∨ reg.path = path := by
  constructor
  · rintro ⟨reg', hmem, hpath⟩
    rcases List.mem_append.mp hmem with hold | hnew
    · exact Or.inl ⟨reg', hold, hpath⟩
    · exact Or.inr (List.mem_singleton.mp hnew ▸ hpath)
  · rintro (⟨reg', hold, hpath⟩ | hpath)
    · exact ⟨reg', List.mem_append_left _ hold, hpath⟩
    · exact ⟨reg, List.mem_append_right _ (List.mem_singleton_self reg), hpath⟩

/-- The last call for a method and a path is the one behind which there is no other. -/
theorem lastHandler_of_last {before after : List Registration} {reg : Registration}
    {method path : Bytes} (hreg : reg.For method path)
    (hlater : ∀ later ∈ after, ¬later.For method path) :
    lastHandler (before ++ reg :: after) method path = some reg.handler := by
  induction after using List.reverseRecOn with
  | nil => rw [lastHandler_snoc, if_pos hreg]
  | append_singleton after later ih =>
    have hother : ¬later.For method path :=
      hlater later (List.mem_append_right _ (List.mem_singleton_self later))
    rw [← List.cons_append, ← List.append_assoc, lastHandler_snoc, if_neg hother]
    exact ih fun reg' hmem => hlater reg' (List.mem_append_left _ hmem)

/-- There is one exactly when there is any. -/
theorem lastHandler_ne_none_iff {regs : List Registration} {method path : Bytes} :
    lastHandler regs method path ≠ none ↔ ∃ reg ∈ regs, reg.For method path := by
  rw [lastHandler, Ne, Option.map_eq_none_iff, List.find?_eq_none]
  simp

/-! ## The table -/

variable {fs : FileSystem} {documentRoot : Bytes}

/-- The other parts of the router stay. -/
theorem staticHandler_register (router : Router) (regs : List Registration) :
    (router.register regs).staticHandler = router.staticHandler := by
  induction regs using List.reverseRecOn with
  | nil => rfl
  | append_singleton regs reg ih =>
    rw [register_snoc]
    exact ih

/-- **The table holds the history**: a path has an entry once it was registered, and the entry has
    the last handler of each of its methods. -/
theorem lookup_register (regs : List Registration) (path : Bytes) :
    (((Router.make fs documentRoot).register regs).routes.lookup path = none ↔
        ¬Routed regs path) ∧
      ∀ method, (((((Router.make fs documentRoot).register regs).routes.lookup path).getD
        ∅).lookup method) = lastHandler regs method path := by
  induction regs using List.reverseRecOn with
  | nil =>
    refine ⟨iff_of_true rfl ?_, fun method => rfl⟩
    rintro ⟨reg, hmem, -⟩
    exact absurd hmem List.not_mem_nil
  | append_singleton regs reg ih =>
    obtain ⟨hnone, hmethods⟩ := ih
    rw [register_snoc, Router.lookup_addRoute, routed_snoc_iff]
    by_cases hpath : path = reg.path
    · rw [if_pos hpath]
      refine ⟨iff_of_false (by simp) (not_not_intro (Or.inr hpath.symm)), ?_⟩
      intro method
      rw [Option.getD_some, lastHandler_snoc, ← hpath]
      by_cases hmethod : method = reg.method
      · rw [hmethod, AList.lookup_insert, if_pos ⟨rfl, hpath.symm⟩]
      · have hother : ¬reg.For method path := fun h => hmethod h.1.symm
        rw [AList.lookup_insert_ne hmethod, if_neg hother, hmethods]
    · have hne : reg.path ≠ path := fun h => hpath h.symm
      rw [if_neg hpath]
      refine ⟨?_, ?_⟩
      · rw [hnone, or_iff_left hne]
      · intro method
        have hother : ¬reg.For method path := fun h => hne h.2
        rw [lastHandler_snoc, if_neg hother, hmethods]

/-! ## The Allow list -/

/-- The separator loop behind the first name. -/
theorem foldl_allowed (methods : List Bytes) :
    ∀ allowed : Bytes, allowed ≠ [] →
      methods.foldl (fun allowed m =>
          (if allowed ≠ [] then allowed ++ str ", " else allowed) ++ m) allowed =
        (str ", ").intercalate (allowed :: methods) := by
  induction methods with
  | nil =>
    intro allowed _
    rw [List.foldl_nil, List.intercalate_singleton]
  | cons m methods ih =>
    intro allowed hne
    have hlonger : (allowed ++ str ", ") ++ m ≠ [] := by simp [hne]
    rw [List.foldl_cons, if_pos hne, ih _ hlonger]
    cases methods with
    | nil => simp
    | cons m' methods => simp

/-- **The loop joins the method names**, if none of them is empty. -/
theorem allowedList_eq {methods : List Bytes} (h : ∀ m ∈ methods, m ≠ []) :
    Router.allowedList methods = (str ", ").intercalate methods := by
  cases methods with
  | nil => rfl
  | cons m methods =>
    rw [Router.allowedList, List.foldl_cons]
    exact foldl_allowed methods m (h m (List.mem_cons_self ..))

/-- The header of a 405 is the list, unless that is empty. -/
theorem methodNotAllowed_allow {allow : Bytes} (h : allow ≠ []) :
    (HttpResponse.methodNotAllowed allow).headers.lookup (str "Allow") = some allow := by
  unfold HttpResponse.methodNotAllowed
  rw [if_neg h]
  exact AList.lookup_insert _

/-! ## What a request gets -/

/-- The answer for a path without a route: what the static handler says, for HEAD without the body,
    and 404 where it has nothing to say or is not asked. -/
def staticAnswer (staticHandler : StaticFileHandler) (fs : FileSystem) (req : HttpRequest) :
    Except Bytes HttpResponse :=
  if req.method = .GET ∨ req.method = .HEAD then
    match staticHandler.serve fs req.path with
    | .error e => .error e.what
    | .ok none => .ok (HttpResponse.notFound (str "Not Found"))
    | .ok (some fileResp) => .ok (if req.method = .HEAD then fileResp.setBody [] else fileResp)
  else .ok (HttpResponse.notFound (str "Not Found"))

/-- The answer of a router to a request, behind a history of registrations. -/
def answerBehind (fs : FileSystem) (documentRoot : Bytes) (order : MethodOrder)
    (regs : List Registration) (req : HttpRequest) : Except Bytes HttpResponse :=
  ((Router.make fs documentRoot).register regs).handle fs order req

section Answers

variable {order : MethodOrder} {regs : List Registration} {req : HttpRequest}

/-- A registered method and path: the last handler. -/
theorem answerBehind_handler {handler : Handler}
    (h : lastHandler regs req.methodString req.path = some handler) :
    answerBehind fs documentRoot order regs req = handler req := by
  obtain ⟨-, hmethods⟩ := @lookup_register fs documentRoot regs req.path
  have hmethod := hmethods req.methodString
  rw [h] at hmethod
  cases hroute : ((Router.make fs documentRoot).register regs).routes.lookup req.path with
  | none =>
    rw [hroute] at hmethod
    cases hmethod
  | some methods =>
    rw [hroute, Option.getD_some] at hmethod
    exact Router.handle_handler hroute hmethod

/-- A registered path and another method: 405 with the methods of the path. -/
theorem answerBehind_notAllowed (hnames : ∀ reg ∈ regs, reg.method ≠ [])
    (hrouted : Routed regs req.path)
    (hnone : lastHandler regs req.methodString req.path = none) :
    ∃ methods : List Bytes, methods.Nodup ∧
      (∀ m, m ∈ methods ↔ ∃ reg ∈ regs, reg.For m req.path) ∧
      (str ", ").intercalate methods ≠ [] ∧
      answerBehind fs documentRoot order regs req =
        .ok (HttpResponse.methodNotAllowed ((str ", ").intercalate methods)) := by
  obtain ⟨hroutes, hmethods⟩ := @lookup_register fs documentRoot regs req.path
  cases hroute : ((Router.make fs documentRoot).register regs).routes.lookup req.path with
  | none => exact absurd hrouted (hroutes.mp hroute)
  | some table =>
    rw [hroute, Option.getD_some] at hmethods
    have hmem : ∀ m, m ∈ order.order table ↔ ∃ reg ∈ regs, reg.For m req.path := by
      intro m
      rw [(order.perm table).mem_iff, ← AList.mem_keys, ← AList.lookup_isSome,
        Option.isSome_iff_ne_none, hmethods, lastHandler_ne_none_iff]
    have hnonempty : ∀ m ∈ order.order table, m ≠ [] := by
      intro m hm
      obtain ⟨reg, hreg, hfor, -⟩ := (hmem m).mp hm
      exact hfor ▸ hnames reg hreg
    refine ⟨order.order table, ?_, hmem, ?_, ?_⟩
    · exact (order.perm table).nodup_iff.mpr (AList.keys_nodup table)
    · -- the path has a method, and its name is not empty
      obtain ⟨reg, hreg, hpath⟩ := hrouted
      have hmethod : reg.method ∈ order.order table := (hmem _).mpr ⟨reg, hreg, rfl, hpath⟩
      intro hnil
      rw [(SepPath.intercalate_eq_nil_iff hnonempty).mp hnil] at hmethod
      exact absurd hmethod List.not_mem_nil
    · rw [← allowedList_eq hnonempty]
      exact Router.handle_notAllowed hroute ((hmethods req.methodString).trans hnone)

/-- A path that was never registered. -/
theorem answerBehind_static (hrouted : ¬Routed regs req.path) :
    answerBehind fs documentRoot order regs req =
      staticAnswer (StaticFileHandler.make fs documentRoot) fs req := by
  have hroute := (@lookup_register fs documentRoot regs req.path).1.mpr hrouted
  unfold answerBehind Router.handle staticAnswer
  rw [hroute]
  have hstatic : ((Router.make fs documentRoot).register regs).staticHandler =
      StaticFileHandler.make fs documentRoot := staticHandler_register _ regs
  show Router.handleStatic _ fs req = _
  unfold Router.handleStatic
  rw [hstatic]
  by_cases hmethod : req.method = .GET ∨ req.method = .HEAD
  · rw [if_pos hmethod, if_pos hmethod]
    cases (StaticFileHandler.make fs documentRoot).serve fs req.path with
    | error e => rfl
    | ok answer =>
      cases answer with
      | none => rfl
      | some fileResp => exact (apply_ite Except.ok _ _ _).symm
  · rw [if_neg hmethod, if_neg hmethod]

/-- **One more registration** is seen by the requests for its method and path; another request gets
    what it got, or asks for the same path and gets a 405, as it did before or where the path had no
    route. -/
theorem answerBehind_snoc (hnames : ∀ reg ∈ regs, reg.method ≠ []) {reg : Registration}
    (hname : reg.method ≠ []) (hother : ¬reg.For req.methodString req.path) :
    answerBehind fs documentRoot order (regs ++ [reg]) req =
        answerBehind fs documentRoot order regs req ∨
      reg.path = req.path ∧
        (∃ allow, answerBehind fs documentRoot order (regs ++ [reg]) req =
          .ok (HttpResponse.methodNotAllowed allow)) ∧
        ((∃ allow, answerBehind fs documentRoot order regs req =
            .ok (HttpResponse.methodNotAllowed allow)) ∨
          ¬Routed regs req.path) := by
  have hlast : lastHandler (regs ++ [reg]) req.methodString req.path =
      lastHandler regs req.methodString req.path := by
    rw [lastHandler_snoc, if_neg hother]
  have hnames' : ∀ reg' ∈ regs ++ [reg], reg'.method ≠ [] := by
    intro reg' hmem
    rcases List.mem_append.mp hmem with hold | hnew
    · exact hnames reg' hold
    · exact List.mem_singleton.mp hnew ▸ hname
  cases hhandler : lastHandler regs req.methodString req.path with
  | some handler =>
    rw [hhandler] at hlast
    exact Or.inl ((answerBehind_handler hlast).trans (answerBehind_handler hhandler).symm)
  | none =>
    rw [hhandler] at hlast
    by_cases hpath : reg.path = req.path
    · obtain ⟨methods', -, -, -, hanswer'⟩ := @answerBehind_notAllowed fs documentRoot order _ _
        hnames' (routed_snoc_iff.mpr (Or.inr hpath)) hlast
      refine Or.inr ⟨hpath, ⟨_, hanswer'⟩, ?_⟩
      by_cases hrouted : Routed regs req.path
      · obtain ⟨methods, -, -, -, hanswer⟩ := answerBehind_notAllowed hnames hrouted hhandler
        exact Or.inl ⟨_, hanswer⟩
      · exact Or.inr hrouted
    · -- another path: its entry in the table is the same
      have hroutes : ((Router.make fs documentRoot).register (regs ++ [reg])).routes.lookup
          req.path = ((Router.make fs documentRoot).register regs).routes.lookup req.path := by
        rw [register_snoc, Router.lookup_addRoute, if_neg (Ne.symm hpath)]
      left
      unfold answerBehind Router.handle
      rw [hroutes, register_snoc]
      rfl

end Answers

/-- What a request gets, in terms of the registrations alone. -/
structure FollowsHistory (fs : FileSystem) (documentRoot : Bytes) (order : MethodOrder)
    (regs : List Registration) (req : HttpRequest) : Prop where
  /-- The handler that was registered last for the method and the path runs. -/
  handler : ∀ before reg after, regs = before ++ reg :: after →
    reg.For req.methodString req.path →
    (∀ later ∈ after, ¬later.For req.methodString req.path) →
    answerBehind fs documentRoot order regs req = reg.handler req
  /-- A path without a handler for the method is a 405, and its Allow header lists the methods that
      were registered for the path, each once. -/
  not_allowed : Routed regs req.path → (∀ reg ∈ regs, ¬reg.For req.methodString req.path) →
    ∃ (methods : List Bytes) (resp : HttpResponse), methods.Nodup ∧
      (∀ m, m ∈ methods ↔ ∃ reg ∈ regs, reg.For m req.path) ∧
      answerBehind fs documentRoot order regs req = .ok resp ∧
      resp.statusCode = .methodNotAllowed ∧
      resp.headers.lookup (str "Allow") = some ((str ", ").intercalate methods)
  /-- A path without any is left to the static handler. -/
  static : ¬Routed regs req.path →
    answerBehind fs documentRoot order regs req =
      staticAnswer (StaticFileHandler.make fs documentRoot) fs req
  /-- One more registration, for another method or path, changes nothing but the Allow list of a
      405, and the answer on its own path to a 405 if that path had no route. -/
  one_more : ∀ reg : Registration, reg.method ≠ [] → ¬reg.For req.methodString req.path →
    answerBehind fs documentRoot order (regs ++ [reg]) req =
        answerBehind fs documentRoot order regs req ∨
      reg.path = req.path ∧
        (∃ allow, answerBehind fs documentRoot order (regs ++ [reg]) req =
          .ok (HttpResponse.methodNotAllowed allow)) ∧
        ((∃ allow, answerBehind fs documentRoot order regs req =
            .ok (HttpResponse.methodNotAllowed allow)) ∨
          ¬Routed regs req.path)

/-- A 405 has its code, whatever it allows. -/
theorem methodNotAllowed_statusCode (allow : Bytes) :
    (HttpResponse.methodNotAllowed allow).statusCode = .methodNotAllowed := by
  unfold HttpResponse.methodNotAllowed
  by_cases h : allow = []
  · rw [if_pos h]
    rfl
  · rw [if_neg h]
    rfl

/-- **Dispatch follows the registration history.** -/
theorem handle_followsHistory (fs : FileSystem) (documentRoot : Bytes) (order : MethodOrder)
    (regs : List Registration) (req : HttpRequest) (hnames : ∀ reg ∈ regs, reg.method ≠ []) :
    FollowsHistory fs documentRoot order regs req := by
  constructor
  · rintro before reg after rfl hreg hlater
    exact answerBehind_handler (lastHandler_of_last hreg hlater)
  · intro hrouted hnone
    have hlast : lastHandler regs req.methodString req.path = none := by
      by_contra hsome
      obtain ⟨reg, hmem, hreg⟩ := lastHandler_ne_none_iff.mp hsome
      exact hnone reg hmem hreg
    obtain ⟨methods, hnodup, hmem, hne, hanswer⟩ := answerBehind_notAllowed hnames hrouted hlast
    exact ⟨methods, _, hnodup, hmem, hanswer, methodNotAllowed_statusCode _,
      methodNotAllowed_allow hne⟩
  · exact answerBehind_static
  · intro reg hname hother
    exact answerBehind_snoc hnames hname hother

/-- A handler for POST of a file of the example system. -/
def postFile : Registration := ⟨str "POST", str "/a.txt", echo⟩

/-- The theorem on this registration and a GET of the file. -/
theorem handle_followsHistory_post :
    FollowsHistory exampleFileSystem (str "/srv") .keys [postFile]
      (requestFor (str "GET") (str "/a.txt")) :=
  handle_followsHistory exampleFileSystem (str "/srv") .keys [postFile]
    (requestFor (str "GET") (str "/a.txt")) (by decide)

/-- The registration turns the answer to that GET from the content of the file into a 405. -/
theorem handle_hides_file :
    ¬∀ (fs : FileSystem) (documentRoot : Bytes) (order : MethodOrder) (regs : List Registration)
        (reg : Registration) (req : HttpRequest), (∀ reg' ∈ regs ++ [reg], reg'.method ≠ []) →
      ¬reg.For req.methodString req.path →
        answerBehind fs documentRoot order (regs ++ [reg]) req =
            answerBehind fs documentRoot order regs req ∨
          ∃ resp resp', answerBehind fs documentRoot order regs req = .ok resp ∧
            answerBehind fs documentRoot order (regs ++ [reg]) req = .ok resp' ∧
            resp'.statusCode = .methodNotAllowed ∧
            (resp.statusCode = .methodNotAllowed ∨ resp.statusCode = .notFound) := by
  intro h
  have hbefore : answerBehind exampleFileSystem (str "/srv") .keys []
      (requestFor (str "GET") (str "/a.txt")) =
        .ok ((HttpResponse.okResponse (str "hi") (str "text/plain")).setHeader (str "Connection")
          (str "close")) := rfl
  have hafter : answerBehind exampleFileSystem (str "/srv") .keys [postFile]
      (requestFor (str "GET") (str "/a.txt")) =
        .ok (HttpResponse.methodNotAllowed (str "POST")) := rfl
  rcases h exampleFileSystem (str "/srv") .keys [] postFile
    (requestFor (str "GET") (str "/a.txt")) (by decide) (by decide) with
    hsame | ⟨resp, resp', hresp, -, -, hcode⟩
  · rw [List.nil_append, hafter, hbefore] at hsame
    have hstatus := congrArg (Except.map HttpResponse.statusCode) hsame
    cases hstatus
  · rw [hbefore] at hresp
    cases hresp
    rcases hcode with hcode | hcode
    · cases hcode
    · cases hcode

end HttpServer
