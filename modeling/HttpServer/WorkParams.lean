/-
  The parameters of `/work` — which integers the handler reads from a query.

  1. **Specification** — on the parameters, not on the text: a `QueryParam` is a key and a value that
     carry, by their type, that no separator stands in them; `intParam` is the value of the first
     parameter with a name as `std::stoi` reads it, clamped, or the default.

  2. **Program** — the handler searches the whole query for `delay=` and `body=`, and cuts six bytes
     behind where either starts.  `firstBehind` says what it meets: the text behind the key in the
     first parameter that has the key anywhere in it.

  3. **The crux (`cutParam_gap`, `cutParam_end`, `cutParam_wrap`)** — six bytes are `delay=`, or
     `body=` and the first byte of its value.  With no value, six bytes end behind the query, and
     `substr` throws; or behind the next `&`, where the length wraps around to `npos` and the text
     is everything that follows.

  4. **Bridge** — `work_decodes_iff`: the handler reads the parameters right exactly when
     the text it cuts for either of them happens to read like the value (`ReadsDelay`, `ReadsBody`).
     `workInts_of_plain` is the plain case: the keys stand where they belong, and there is no `body=`.
-/
import HttpServer.Lib.PartSearch
import HttpServer.RoundTrip
import HttpServer.RouteSelection

namespace HttpServer

open ListSearch
open PartSearch
open SepPath (joined)

/-! ## Parameters -/

/-- `key=value`, where neither has a separator in it that would end it. -/
structure QueryParam where
  key : Bytes
  value : Bytes
  key_plain : 38 ∉ key ∧ 61 ∉ key
  value_plain : 38 ∉ value

/-- `key=value`. -/
def QueryParam.render (param : QueryParam) : Bytes := param.key ++ 61 :: param.value

/-- The parameters, with `&` between them. -/
def queryOf (params : List QueryParam) : Bytes := [38].intercalate (params.map QueryParam.render)

/-- The integer of a parameter: its value in the given bounds, or the default.  An integer is what
    `std::stoi` reads, as the handler has it: white space, a sign and digits at the front of the value
    count, text behind them does not, and a value is no integer where `std::stoi` throws, for want of
    digits or out of the range of `int`.  Of several parameters with the name the first counts. -/
def intParam (params : List QueryParam) (name : Bytes) (default bound : Int) : Int :=
  match params.find? (·.key = name) with
  | none => default
  | some param => clampedInt param.value default bound

/-- The delay that the parameters ask for. -/
def delayOf (params : List QueryParam) : Int := intParam params (str "delay") 100 30000

/-- The size that they ask for. -/
def bodyOf (params : List QueryParam) : Int := intParam params (str "body") 0 10240

/-- The integers that the handler uses. -/
def workInts (path : Bytes) : Except Bytes (Int × Int) :=
  (workParams path).map fun texts => (clampedInt texts.1 100 30000, clampedInt texts.2 0 10240)

theorem work_of_workInts {env : HandlerEnv} {req : HttpRequest} {delayMs bodyKb : Int}
    (h : workInts req.path = .ok (delayMs, bodyKb)) :
    work env req = .ok (workResponse env delayMs bodyKb) := by
  unfold workInts at h
  unfold work
  cases hparams : workParams req.path with
  | error what =>
    rw [hparams] at h
    cases h
  | ok texts =>
    rw [hparams] at h
    cases h
    rfl

/-! ## The cut -/

variable {params : List QueryParam}

theorem not_mem_render (param : QueryParam) : 38 ∉ param.render := by
  intro hmem
  rcases List.mem_append.mp hmem with hkey | hvalue
  · exact param.key_plain.1 hkey
  · rcases List.mem_cons.mp hvalue with heq | hvalue
    · exact absurd heq (by decide)
    · exact param.value_plain hvalue

/-- What is behind a key has no `&` in it. -/
theorem not_mem_of_firstBehind {pat t : Bytes} {behind : List Bytes}
    (h : firstBehind pat (params.map QueryParam.render) = some (t, behind)) : 38 ∉ t := by
  obtain ⟨part, hmem, hsub⟩ := subset_of_firstBehind h
  obtain ⟨param, -, rfl⟩ := List.mem_map.mp hmem
  exact fun hamp => not_mem_render param (hsub hamp)

/-- The next `&` from a position on, over a text without one. -/
theorem findFrom_amp (front : Bytes) {text : Bytes} (htext : 38 ∉ text) (behind : List Bytes) :
    findFrom [38] (front ++ (text ++ joined 38 behind)) front.length =
      if behind = [] then none else some (front.length + text.length) := by
  have hle : front.length ≤ (front ++ (text ++ joined 38 behind)).length := by
    rw [List.length_append]
    omega
  rw [findFrom, if_pos hle, List.drop_left]
  cases behind with
  | nil =>
    have hnone : find [38] (text ++ joined 38 []) = none := by
      rw [SepPath.joined_nil, List.append_nil]
      exact find_of_not_mem htext
    rw [hnone, if_pos rfl]
    rfl
  | cons part behind =>
    rw [SepPath.joined_cons, find_byte htext, if_neg (List.cons_ne_nil _ _), Option.map_some,
      Nat.add_comm]

/-- **Six bytes in front of the text**: it is cut out. -/
theorem cutParam_gap {front gap text : Bytes} {behind : List Bytes} (hgap : gap.length = 6)
    (hamp : 38 ∉ gap ++ text)
    (hlen : (front ++ (gap ++ text ++ joined 38 behind)).length < 2 ^ 64) :
    cutParam (front ++ (gap ++ text ++ joined 38 behind)) front.length = .ok text := by
  have hpos : ¬front.length + 6 > (front ++ (gap ++ text ++ joined 38 behind)).length := by
    rw [List.length_append, List.length_append, List.length_append]
    omega
  have hdrop : (front ++ (gap ++ text ++ joined 38 behind)).drop (front.length + 6) =
      text ++ joined 38 behind := by
    rw [← List.drop_drop, List.drop_left, ← hgap, List.append_assoc, List.drop_left]
  unfold cutParam
  rw [findFrom_amp front hamp]
  by_cases hlast : behind = []
  · rw [if_pos hlast]
    show substrChecked _ _ none = _
    rw [substrChecked, if_neg hpos, hdrop, hlast, SepPath.joined_nil, List.append_nil]
  · rw [if_neg hlast]
    have hcount : (front.length + (gap ++ text).length + 2 ^ 64 - (front.length + 6)) % 2 ^ 64 =
        text.length := by
      rw [List.length_append] at hlen ⊢
      rw [List.length_append, List.length_append] at hlen
      omega
    show substrChecked _ _ (some _) = _
    rw [substrChecked, if_neg hpos, hcount, substr, hdrop, List.take_left]

/-- **Five bytes and no more**: `substr` starts behind the end. -/
theorem cutParam_end {front key : Bytes} (hkey : key.length = 5) (hamp : 38 ∉ key) :
    cutParam (front ++ key) front.length = .error (str "basic_string::substr") := by
  have hfind := findFrom_amp front hamp []
  rw [SepPath.joined_nil, List.append_nil, if_pos rfl] at hfind
  unfold cutParam
  rw [hfind]
  show substrChecked _ _ none = _
  rw [substrChecked, if_pos]
  rw [List.length_append]
  omega

/-- **Five bytes and an `&`**: the length wraps around, and the text is all that follows. -/
theorem cutParam_wrap {front key part : Bytes} {behind : List Bytes} (hkey : key.length = 5)
    (hamp : 38 ∉ key) (hlen : (front ++ (key ++ joined 38 (part :: behind))).length < 2 ^ 64) :
    cutParam (front ++ (key ++ joined 38 (part :: behind))) front.length =
      .ok ([38].intercalate (part :: behind)) := by
  have htext : joined 38 (part :: behind) = 38 :: [38].intercalate (part :: behind) := by
    rw [SepPath.intercalate_cons_eq_joined, SepPath.joined_cons]
  unfold cutParam
  rw [findFrom_amp front hamp, if_neg (List.cons_ne_nil _ _)]
  generalize [38].intercalate (part :: behind) = rest at htext
  rw [htext] at hlen ⊢
  have hpos : ¬front.length + 6 > (front ++ (key ++ 38 :: rest)).length := by
    rw [List.length_append, List.length_append, List.length_cons]
    omega
  have hdrop : (front ++ (key ++ 38 :: rest)).drop (front.length + 6) = rest := by
    rw [← List.drop_drop, List.drop_left, ← List.singleton_append, ← List.append_assoc]
    exact List.drop_left' (by rw [List.length_append, hkey, List.length_singleton])
  have hcount : (front.length + key.length + 2 ^ 64 - (front.length + 6)) % 2 ^ 64 =
      2 ^ 64 - 1 := by
    rw [hkey]
    omega
  show substrChecked _ _ (some _) = _
  rw [substrChecked, if_neg hpos, hcount, substr, hdrop, List.take_of_length_le]
  rw [List.length_append, List.length_append, List.length_cons] at hlen
  omega

/-! ## What the handler cuts -/

/-- A key that stands nowhere leaves the default. -/
theorem paramText_none {key default : Bytes} (hne : key ≠ []) (hkey : 38 ∉ key)
    (hbehind : firstBehind key (params.map QueryParam.render) = none) :
    paramText (queryOf params) key default = .ok default := by
  have hfind : find key (queryOf params) = none := find_intercalate_none hkey hne hbehind
  rw [paramText, hfind]

/-- A key that stands somewhere is cut at its first occurrence. -/
theorem paramText_some {key t : Bytes} {behind : List Bytes} (default : Bytes) (hne : key ≠ [])
    (hkey : 38 ∉ key)
    (hbehind : firstBehind key (params.map QueryParam.render) = some (t, behind)) :
    ∃ front, queryOf params = front ++ (key ++ (t ++ joined 38 behind)) ∧
      paramText (queryOf params) key default = cutParam (queryOf params) front.length := by
  obtain ⟨front, htext, hfind⟩ : ∃ front,
      queryOf params = front ++ (key ++ (t ++ joined 38 behind)) ∧
        find key (queryOf params) = some front.length :=
    find_intercalate_some hkey hne hbehind
  exact ⟨front, htext, by rw [paramText, hfind]⟩

/-- The text for `delay`: what stands behind the first `delay=`, to the end of its parameter. -/
theorem paramText_delay (hlen : (queryOf params).length < 2 ^ 64) :
    paramText (queryOf params) (str "delay=") (str "100") =
      match firstBehind (str "delay=") (params.map QueryParam.render) with
      | none => .ok (str "100")
      | some (t, _) => .ok t := by
  cases hbehind : firstBehind (str "delay=") (params.map QueryParam.render) with
  | none => exact paramText_none (by decide) (by decide) hbehind
  | some found =>
    obtain ⟨t, behind⟩ := found
    obtain ⟨front, htext, hcut⟩ :=
      paramText_some (str "100") (by decide) (by decide) hbehind
    have hamp : 38 ∉ str "delay=" ++ t := by
      intro hmem
      rcases List.mem_append.mp hmem with hkey | ht
      · exact absurd hkey (by decide)
      · exact not_mem_of_firstBehind hbehind ht
    rw [← List.append_assoc (str "delay=")] at htext
    rw [hcut]
    rw [htext] at hlen ⊢
    exact cutParam_gap rfl hamp hlen

/-- The text for `body`: all but the first byte of what stands behind the first `body=`; without
    such a byte, the rest of the query behind the `&`, and an exception where there is none. -/
theorem paramText_body (hlen : (queryOf params).length < 2 ^ 64) :
    paramText (queryOf params) (str "body=") (str "0") =
      match firstBehind (str "body=") (params.map QueryParam.render) with
      | none => .ok (str "0")
      | some (_ :: t, _) => .ok t
      | some ([], []) => .error (str "basic_string::substr")
      | some ([], part :: behind) => .ok ([38].intercalate (part :: behind)) := by
  cases hbehind : firstBehind (str "body=") (params.map QueryParam.render) with
  | none => exact paramText_none (by decide) (by decide) hbehind
  | some found =>
    obtain ⟨t, behind⟩ := found
    obtain ⟨front, htext, hcut⟩ :=
      paramText_some (str "0") (by decide) (by decide) hbehind
    rw [hcut]
    cases t with
    | cons c t =>
      -- the first byte of the value is the sixth one
      have hamp : 38 ∉ (str "body=" ++ [c]) ++ t := by
        intro hmem
        rw [List.append_assoc] at hmem
        rcases List.mem_append.mp hmem with hkey | ht
        · exact absurd hkey (by decide)
        · exact not_mem_of_firstBehind hbehind ht
      have hgap : str "body=" ++ (c :: t ++ joined 38 behind) =
          (str "body=" ++ [c]) ++ t ++ joined 38 behind := by
        simp only [List.append_assoc, List.cons_append, List.nil_append]
      rw [hgap] at htext
      rw [htext] at hlen ⊢
      exact cutParam_gap rfl hamp hlen
    | nil =>
      rw [List.nil_append] at htext
      cases behind with
      | nil =>
        rw [SepPath.joined_nil, List.append_nil] at htext
        rw [htext]
        exact cutParam_end rfl (by decide)
      | cons part behind =>
        rw [htext] at hlen ⊢
        exact cutParam_wrap rfl (by decide) hlen

/-- The query is what stands behind the first `?`. -/
theorem workParams_work (query : Bytes) :
    workParams (str "/work?" ++ query) =
      match paramText query (str "delay=") (str "100") with
      | .error what => .error what
      | .ok delayStr =>
        match paramText query (str "body=") (str "0") with
        | .error what => .error what
        | .ok bodyStr => .ok (delayStr, bodyStr) := by
  have hfind : find [63] (str "/work?" ++ query) = some 5 :=
    find_byte (show 63 ∉ str "/work" by decide) query
  have hdrop : (str "/work?" ++ query).drop (5 + 1) = query := rfl
  unfold workParams
  rw [hfind]
  show (match paramText ((str "/work?" ++ query).drop (5 + 1)) (str "delay=") (str "100") with
    | .error what => .error what
    | .ok delayStr =>
      match paramText ((str "/work?" ++ query).drop (5 + 1)) (str "body=") (str "0") with
      | .error what => .error what
      | .ok bodyStr => .ok (delayStr, bodyStr) : Except Bytes (Bytes × Bytes)) = _
  rw [hdrop]

/-! ## When it reads the parameters -/

/-- Without the key, the default is right. -/
theorem intParam_of_firstBehind_none {name : Bytes} {default bound : Int}
    (h : firstBehind (name ++ [61]) (params.map QueryParam.render) = none) :
    intParam params name default bound = default := by
  have hnone : params.find? (·.key = name) = none := by
    rw [List.find?_eq_none]
    intro param hmem hkey
    have hkey' : param.key = name := of_decide_eq_true hkey
    -- the parameter of that name starts with the key
    have hrender : param.render = (name ++ [61]) ++ param.value := by
      rw [QueryParam.render, hkey', List.append_assoc, List.singleton_append]
    refine firstBehind_eq_none_iff.mp h param.render (List.mem_map_of_mem hmem) ?_
    rw [hrender]
    exact (List.prefix_append _ _).isInfix
  rw [intParam, hnone]

/-- The text behind the first `delay=` reads like the value of the parameter.  The plain case is that
    `delay=` stands nowhere but at the front of parameters of that name (`readsDelay_of_plain`). -/
def ReadsDelay (params : List QueryParam) : Prop :=
  match firstBehind (str "delay=") (params.map QueryParam.render) with
  | none => True
  | some (t, _) => clampedInt t 100 30000 = delayOf params

/-- So does what is cut for `body`: the text behind the first `body=` less its first byte, or the
    parameters behind it when there is no such text.  The plain cases are that there is no `body=`
    (`readsBody_of_absent`), and that it stands nowhere but at the front of parameters of that name
    and the value of the first reads the same without its first byte (`readsBody_of_plain`). -/
def ReadsBody (params : List QueryParam) : Prop :=
  match firstBehind (str "body=") (params.map QueryParam.render) with
  | none => True
  | some (_ :: t, _) => clampedInt t 0 10240 = bodyOf params
  | some ([], []) => False
  | some ([], part :: behind) => clampedInt ([38].intercalate (part :: behind)) 0 10240 = bodyOf params

/-- Where the key stands nowhere but at the front of parameters of that name, the first text behind it is
    the value of the first of them. -/
theorem firstBehind_of_plain {name : Bytes}
    (h : ∀ param ∈ params, param.key ≠ name → ¬ name ++ [61] <:+: param.render) :
    (firstBehind (name ++ [61]) (params.map QueryParam.render)).map Prod.fst =
      (params.find? (·.key = name)).map QueryParam.value := by
  induction params with
  | nil => rfl
  | cons param params ih =>
    by_cases hkey : param.key = name
    · have hrender : param.render = (name ++ [61]) ++ param.value := by
        rw [QueryParam.render, hkey, List.append_assoc, List.singleton_append]
      have hfind : find (name ++ [61]) param.render = some 0 := by
        rw [hrender, find_eq_some_iff]
        exact ⟨Nat.zero_le _, List.prefix_append _ _, fun j hj => absurd hj (Nat.not_lt_zero j)⟩
      rw [List.map_cons, firstBehind_cons_some hfind, List.find?_cons_of_pos (by simpa using hkey),
        Option.map_some, Option.map_some, Nat.zero_add, hrender, List.drop_left]
    · have hfind : find (name ++ [61]) param.render = none :=
        find_eq_none_iff.mpr (h param (List.mem_cons_self ..) hkey)
      rw [List.map_cons, firstBehind_cons_none hfind, List.find?_cons_of_neg (by simpa using hkey)]
      exact ih fun p hp => h p (List.mem_cons_of_mem param hp)

/-- **The plain case of the delay.** -/
theorem readsDelay_of_plain
    (h : ∀ param ∈ params, param.key ≠ str "delay" → ¬ str "delay=" <:+: param.render) :
    ReadsDelay params := by
  have hplain := firstBehind_of_plain h
  unfold ReadsDelay delayOf intParam
  cases hfound : firstBehind (str "delay=") (params.map QueryParam.render) with
  | none => trivial
  | some found =>
    rw [show str "delay" ++ [61] = str "delay=" from rfl, hfound] at hplain
    obtain ⟨param, hparam, hvalue⟩ := Option.map_eq_some_iff.mp hplain.symm
    rw [hparam]
    exact congrArg (clampedInt · 100 30000) hvalue.symm

/-- Without `body=` nothing is cut. -/
theorem readsBody_of_absent (h : ∀ param ∈ params, ¬ str "body=" <:+: param.render) :
    ReadsBody params := by
  have hnone : firstBehind (str "body=") (params.map QueryParam.render) = none := by
    rw [firstBehind_eq_none_iff]
    intro part hpart
    obtain ⟨param, hparam, rfl⟩ := List.mem_map.mp hpart
    exact h param hparam
  rw [ReadsBody, hnone]
  trivial

/-- **The plain case of the size.** -/
theorem readsBody_of_plain
    (h : ∀ param ∈ params, param.key ≠ str "body" → ¬ str "body=" <:+: param.render)
    (hvalue : ∀ param ∈ params, param.key = str "body" →
      param.value ≠ [] ∧ clampedInt param.value.tail 0 10240 = clampedInt param.value 0 10240) :
    ReadsBody params := by
  have hplain := firstBehind_of_plain h
  unfold ReadsBody bodyOf intParam
  cases hfound : firstBehind (str "body=") (params.map QueryParam.render) with
  | none => trivial
  | some found =>
    obtain ⟨t, behind⟩ := found
    rw [show str "body" ++ [61] = str "body=" from rfl, hfound] at hplain
    obtain ⟨param, hparam, ht⟩ := Option.map_eq_some_iff.mp hplain.symm
    have hkey : param.key = str "body" := by
      have hfound := List.find?_some hparam
      exact of_decide_eq_true hfound
    obtain ⟨hne, hreads⟩ := hvalue param (List.mem_of_find?_eq_some hparam) hkey
    rw [hparam]
    cases t with
    | nil => exact absurd ht hne
    | cons c t =>
      rw [ht] at hreads
      show clampedInt t 0 10240 = clampedInt param.value 0 10240
      rw [ht]
      exact hreads

theorem workInts_eq_iff (hlen : (queryOf params).length < 2 ^ 64) :
    workInts (str "/work?" ++ queryOf params) = .ok (delayOf params, bodyOf params) ↔
      ReadsDelay params ∧ ReadsBody params := by
  -- the delay is always read from some text
  obtain ⟨delayStr, hdelay, hreads⟩ : ∃ delayStr,
      paramText (queryOf params) (str "delay=") (str "100") = .ok delayStr ∧
        (clampedInt delayStr 100 30000 = delayOf params ↔ ReadsDelay params) := by
    rw [paramText_delay hlen]
    unfold ReadsDelay
    cases hbehind : firstBehind (str "delay=") (params.map QueryParam.render) with
    | none =>
      refine ⟨str "100", rfl, iff_of_true ?_ trivial⟩
      have hdefault : delayOf params = 100 := intParam_of_firstBehind_none hbehind
      rw [hdefault]
      decide
    | some found => exact ⟨found.1, rfl, Iff.rfl⟩
  have hints : ∀ bodyStr, paramText (queryOf params) (str "body=") (str "0") = .ok bodyStr →
      (workInts (str "/work?" ++ queryOf params) = .ok (delayOf params, bodyOf params) ↔
        ReadsDelay params ∧ clampedInt bodyStr 0 10240 = bodyOf params) := by
    intro bodyStr hbody
    rw [workInts, workParams_work, hdelay, hbody, ← hreads]
    show Except.ok _ = Except.ok _ ↔ _
    rw [Except.ok.injEq, Prod.mk.injEq]
  have hbody := paramText_body hlen
  unfold ReadsBody
  cases hbehind : firstBehind (str "body=") (params.map QueryParam.render) with
  | none =>
    rw [hbehind] at hbody
    have hdefault : bodyOf params = 0 := intParam_of_firstBehind_none hbehind
    rw [hints _ hbody, hdefault]
    exact and_congr_right' (iff_of_true (by decide) trivial)
  | some found =>
    obtain ⟨t, behind⟩ := found
    rw [hbehind] at hbody
    cases t with
    | cons c t => exact hints _ hbody
    | nil =>
      cases behind with
      | nil =>
        refine iff_of_false ?_ (fun h => h.2)
        rw [workInts, workParams_work, hdelay, hbody]
        intro h
        cases h
      | cons part behind => exact hints _ hbody

/-- **A plain query without a size is decoded.** -/
theorem workInts_of_plain (hlen : (queryOf params).length < 2 ^ 64)
    (hdelay : ∀ param ∈ params, param.key ≠ str "delay" → ¬ str "delay=" <:+: param.render)
    (hbody : ∀ param ∈ params, ¬ str "body=" <:+: param.render) :
    workInts (str "/work?" ++ queryOf params) = .ok (delayOf params, bodyOf params) :=
  (workInts_eq_iff hlen).mpr ⟨readsDelay_of_plain hdelay, readsBody_of_absent hbody⟩

/-- **When the `/work` parameters are decoded.**  For every list of parameters, the handler runs
    through with the integers of `delay` and `body`, and reports them, exactly when the texts that it
    cuts behind the first `delay=` and the first `body=` read like these. -/
theorem work_decodes_iff (env : HandlerEnv) (params : List QueryParam) (req : HttpRequest)
    (hpath : req.path = str "/work?" ++ queryOf params)
    (hlen : (queryOf params).length < 2 ^ 64) :
    (workInts req.path = .ok (delayOf params, bodyOf params) ∧
        work env req = .ok (workResponse env (delayOf params) (bodyOf params))) ↔
      ReadsDelay params ∧ ReadsBody params := by
  rw [← workInts_eq_iff hlen, ← hpath]
  constructor
  · exact fun h => h.1
  · exact fun h => ⟨h, work_of_workInts h⟩

/-- The theorem on `/work?x=1&delay=250&body=05`. -/
theorem work_decodes_iff_delay :
    work exampleEnv (requestFor (str "GET") (str "/work?x=1&delay=250&body=05")) =
      .ok (workResponse exampleEnv 250 5) :=
  ((work_decodes_iff exampleEnv
    [⟨str "x", str "1", by decide, by decide⟩, ⟨str "delay", str "250", by decide, by decide⟩,
      ⟨str "body", str "05", by decide, by decide⟩]
    (requestFor (str "GET") (str "/work?x=1&delay=250&body=05")) rfl (by decide)).mpr
    ⟨show clampedInt (str "250") 100 30000 = 250 by decide,
      show clampedInt (str "5") 0 10240 = 5 by decide⟩).2

/-- `/work?body=5` asks for five and gets nothing. -/
theorem work_loses_digit :
    ¬∀ (params : List QueryParam), (queryOf params).length < 2 ^ 64 →
      workInts (str "/work?" ++ queryOf params) = .ok (delayOf params, bodyOf params) := by
  intro h
  exact absurd (h [⟨str "body", str "5", by decide, by decide⟩] (by decide)) (by decide)

end HttpServer
