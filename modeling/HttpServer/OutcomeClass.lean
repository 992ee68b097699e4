/-
  The outcome counters — the counter that `handle_client` raises is that of the response it sends.

  1. **Specification** — on what a client can see: `statusCodeOf` reads the code behind `HTTP/1.1 `
     in the bytes on the wire, and `StatusClass.of` is its class.  `CountsOutcome` says that a
     program sends one response and raises the counter of its class by one, and no other outcome.

  2. **The crux (`respond_eq`)** — every arm of the switch, and the catch block, raises the counter
     of the response it has: the four error arms name `client_error` for a 400 or a 413, the catch
     block `server_error` for its 500, and the routed arm looks at the code.

  3. **Bridge** — `statusCodeOf_serialize`: the code on the wire is that of the response.
-/
import HttpServer.ConnectionLifecycle
import HttpServer.Decimal

namespace HttpServer

/-! ## Status classes -/

/-- What a response is counted as: each class has a counter of its own. -/
inductive StatusClass
  | success
  | clientError
  | serverError
  deriving DecidableEq

/-- Below 400, from 400 to 499, from 500 on. -/
def StatusClass.of (code : Nat) : StatusClass :=
  if code < 400 then .success else if code < 500 then .clientError else .serverError

/-- The code in the first line of a response: the number behind `HTTP/1.1 `. -/
def statusCodeOf (data : Bytes) : Nat := digitsValue ((data.drop 9).takeWhile isdigit)

/-- **The code on the wire is that of the response.** -/
theorem statusCodeOf_serialize (resp : HttpResponse) (iter : IterOrder) :
    statusCodeOf (resp.serialize iter) = resp.statusCode.toInt := by
  obtain ⟨rest, hrest⟩ : ∃ rest, resp.serialize iter =
      str "HTTP/1.1 " ++ (toDecimal resp.statusCode.toInt ++ 32 :: rest) := by
    have hblank : str " " = [32] := rfl
    refine ⟨reasonPhrase resp.statusCode ++ [13, 10] ++
      ((iter.order resp.headers).map HttpResponse.headerLine).flatten ++ [13, 10] ++ resp.body, ?_⟩
    simp only [HttpResponse.serialize, hblank, List.append_assoc, List.cons_append,
      List.nil_append]
  have hdrop : (resp.serialize iter).drop 9 = toDecimal resp.statusCode.toInt ++ 32 :: rest := by
    rw [hrest]
    show (str "HTTP/1.1 " ++ _).drop (str "HTTP/1.1 ").length = _
    exact List.drop_left
  have hdigits : ∀ b ∈ toDecimal resp.statusCode.toInt, isdigit b = true :=
    fun b hb => isdigit_of_mem_toDecimal hb
  rw [statusCodeOf, hdrop, List.takeWhile_append_of_pos hdigits,
    List.takeWhile_cons_of_neg (by decide), List.append_nil, digitsValue_toDecimal]

/-! ## The counters -/

/-- The counter of a class. -/
def Metrics.outcomeCount (m : Metrics) : StatusClass → Nat
  | .success => m.successfulRequests
  | .clientError => m.clientErrors
  | .serverError => m.serverErrors

/-- The counters behind a program, where the queue was `size` long when it was read. -/
def countersBehind (size : Nat) (effects : List Effect) (m : Metrics) : Metrics :=
  effects.foldl (fun m e => e.apply size m) m

/-- The program hands one response to `send_all`, and raises the counter of its class by one and no
    other counter of outcomes. -/
def CountsOutcome (effects : List Effect) : Prop :=
  ∃ data, responses (effects.map .effect) = [data] ∧
    ∀ (size : Nat) (m : Metrics) (cls : StatusClass),
      (countersBehind size effects m).outcomeCount cls =
        m.outcomeCount cls + if cls = .of (statusCodeOf data) then 1 else 0

/-- Any other effect leaves them alone. -/
theorem outcomeCount_apply {e : Effect} (h : e.isOutcome = false) (size : Nat) (m : Metrics)
    (cls : StatusClass) : (e.apply size m).outcomeCount cls = m.outcomeCount cls := by
  cases e with
  | recordSuccess => cases h
  | recordClientError => cases h
  | recordServerError => cases h
  | _ => cases cls <;> rfl

theorem outcomeCount_countersBehind {effects : List Effect}
    (h : ∀ e ∈ effects, e.isOutcome = false) (size : Nat) (m : Metrics) (cls : StatusClass) :
    (countersBehind size effects m).outcomeCount cls = m.outcomeCount cls := by
  induction effects generalizing m with
  | nil => rfl
  | cons e effects ih =>
    show (countersBehind size effects (e.apply size m)).outcomeCount cls = _
    rw [ih (fun e' he' => h e' (List.mem_cons_of_mem e he')),
      outcomeCount_apply (h e (List.mem_cons_self ..))]

/-- The counter for a response is that of its class. -/
theorem outcomeCount_outcomeOf (resp : HttpResponse) (size : Nat) (m : Metrics)
    (cls : StatusClass) :
    ((outcomeOf resp).apply size m).outcomeCount cls =
      m.outcomeCount cls + if cls = .of resp.statusCode.toInt then 1 else 0 := by
  unfold outcomeOf StatusClass.of
  simp only
  by_cases hsuccess : resp.statusCode.toInt < 400
  · rw [if_neg (by omega), if_neg (by omega), if_pos hsuccess]
    cases cls <;> rfl
  · by_cases hclient : resp.statusCode.toInt < 500
    · rw [if_pos ⟨by omega, hclient⟩, if_neg hsuccess, if_pos hclient]
      cases cls <;> rfl
    · rw [if_neg (by omega), if_pos (by omega), if_neg hsuccess, if_neg hclient]
      cases cls <;> rfl

/-! ## Every arm -/

/-- **What `handle_client` does with what it received**: it raises the counter of its response, sends
    the response, and neither counts nor sends behind that. -/
theorem respond_eq (config : Config) (client : Client) {rawRequest : Bytes}
    (hne : rawRequest ≠ []) :
    ∃ (resp : HttpResponse) (tail : List Effect),
      respond config client rawRequest =
        outcomeOf resp :: .sendAll (resp.serialize client.iter) :: tail ∧
      (∀ e ∈ tail, e.isOutcome = false) ∧ responses (tail.map .effect) = [] := by
  have hclose : ∀ e ∈ [Effect.close], e.isOutcome = false := by decide
  rcases respond_answers config client hne with ⟨resp, hrespond⟩ | ⟨herror, what, hthrow⟩
  · refine ⟨resp, _, hrespond, ?_, rfl⟩
    intro e he
    rcases List.mem_cons.mp he with rfl | he
    · rfl
    · exact hclose e he
  · exact ⟨HttpResponse.internalError, [.close], respond_of_throw hne herror hthrow, hclose, rfl⟩

theorem countsOutcome_respond (config : Config) (client : Client) {rawRequest : Bytes}
    (hne : rawRequest ≠ []) : CountsOutcome (respond config client rawRequest) := by
  obtain ⟨resp, tail, heffects, hquiet, hsilent⟩ := respond_eq config client hne
  rw [heffects]
  refine ⟨resp.serialize client.iter, ?_, ?_⟩
  · have houtcome : sentData (.effect (outcomeOf resp)) = none :=
      (Effect.of_isOutcome (outcomeOf_isOutcome resp)).2.2
    rw [responses, List.map_cons, List.map_cons, List.filterMap_cons_none houtcome]
    show resp.serialize client.iter :: responses (tail.map .effect) = _
    rw [hsilent]
  · intro size m cls
    show (countersBehind size tail ((outcomeOf resp).apply size m)).outcomeCount cls = _
    rw [outcomeCount_countersBehind hquiet, outcomeCount_outcomeOf, statusCodeOf_serialize]

/-- **The outcome counter matches the answer.**  Whatever was received and whatever the router does
    with it, `handle_client` raises one of the three counters, by one, and it is the one for the
    class of the status code that it puts on the wire. -/
theorem handleClient_countsOutcome (config : Config) (client : Client) (rawRequest : Bytes)
    (hne : rawRequest ≠ []) :
    CountsOutcome (respond config client rawRequest) ∧
      (client.received config = some rawRequest →
        CountsOutcome (handleClient config client)) := by
  have hrespond := countsOutcome_respond config client hne
  refine ⟨hrespond, ?_⟩
  intro hreceived
  have hprogram : handleClient config client =
      [.recordRequest, .loadQueueSize, .storeQueueSize, .recvRequest] ++
        respond config client rawRequest := by
    unfold Client.received at hreceived
    unfold handleClient
    cases hrecv : recvRequest config client.recvScript with
    | returned raw rest =>
      rw [hrecv] at hreceived
      cases hreceived
      rfl
    | waiting n =>
      rw [hrecv] at hreceived
      cases hreceived
  obtain ⟨data, hdata, hcounters⟩ := hrespond
  rw [hprogram]
  refine ⟨data, hdata, ?_⟩
  intro size m cls
  have hfront : ∀ e ∈ [Effect.recordRequest, .loadQueueSize, .storeQueueSize, .recvRequest],
      e.isOutcome = false := by decide
  show (countersBehind size (respond config client rawRequest) _).outcomeCount cls = _
  rw [hcounters]
  exact congrArg (· + _) (outcomeCount_countersBehind hfront size m cls)

/-- The theorem on a client whose request makes the router throw. -/
theorem handleClient_countsOutcome_throw :
    CountsOutcome (handleClient { threadCount := 1 }
      ⟨[.data ⟨str "GET / HTTP/1.1\r\n\r\n", by decide, by decide⟩], [],
        fun _ => .error (str "bad"), .entries⟩) :=
  (handleClient_countsOutcome { threadCount := 1 }
    ⟨[.data ⟨str "GET / HTTP/1.1\r\n\r\n", by decide, by decide⟩], [],
      fun _ => .error (str "bad"), .entries⟩
    (str "GET / HTTP/1.1\r\n\r\n") (by decide)).2 (by decide +kernel)

end HttpServer
