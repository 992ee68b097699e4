/-
  Responses on a stream — what a client makes of the bytes that reach it.

  1. **Specification** — `readFramed` is a client that waits for as many bytes behind the head as the
     Content-Length says.  It is a reader of a stream (`responseReader`): what follows does not
     change what it read.

  2. **The crux (`message_of_ready`)** — a response of the server is a message for it: cut short in
     its head it has no CRLFCRLF, cut short in its body it has fewer bytes than it declares.

  3. **Sending (`reads_delivered`)** — `send_all` delivers a front part of its buffer at any time, so
     the client has read nothing, or the response, and the latter exactly when `send_all` succeeds.

  4. **Bridge (`client_reads_response`)** — in every run of the server a connection is handed one
     response at most, the 503 or the one for what was received on it, whatever happens on the others.
-/
import HttpServer.Lib.StreamReader
import HttpServer.LifecycleRefinement
import HttpServer.ResponseReading
import HttpServer.Segmentation
import HttpServer.SendPrefix

namespace HttpServer

open ListSearch
open TextCuts (cutFirst cutFirst_append_of_some)

/-! ## The client -/

/-- The field that says how long the body is. -/
def ResponseReading.lengthField (reading : ResponseReading) : Option (Bytes × Bytes) :=
  reading.fields.find? fun field => lower field.1 = str "content-length"

/-- A client that waits for the body that the head declares. -/
def readFramed (data : Bytes) : Option ResponseReading :=
  match readResponse data with
  | none => none
  | some reading =>
    match reading.lengthField with
    | none => none
    | some (_, length) =>
      if reading.body.length < digitsValue length then none
      else some { reading with body := reading.body.take (digitsValue length) }

/-- What follows a response stands behind its body. -/
theorem readResponse_append {data : Bytes} {reading : ResponseReading}
    (h : readResponse data = some reading) (rest : Bytes) :
    readResponse (data ++ rest) = some { reading with body := reading.body ++ rest } := by
  unfold readResponse at h
  cases hcut : cutFirst crlfcrlf data with
  | none =>
    rw [hcut] at h
    cases h
  | some parts =>
    obtain ⟨head, body⟩ := parts
    rw [hcut] at h
    rw [readResponse, cutFirst_append_of_some hcut]
    simp only at h ⊢
    cases hlines : TextCuts.cutAll 13 [10] head with
    | nil =>
      rw [hlines] at h
      cases h
    | cons statusLine lines =>
      rw [hlines] at h
      obtain ⟨fields, hfields, hreading⟩ := Option.map_eq_some_iff.mp h
      simp only
      rw [hfields, ← hreading]
      rfl

theorem readFramed_append {data : Bytes} {reading : ResponseReading}
    (h : readFramed data = some reading) (rest : Bytes) :
    readFramed (data ++ rest) = some reading := by
  unfold readFramed at h
  cases hread : readResponse data with
  | none =>
    rw [hread] at h
    cases h
  | some whole =>
    rw [hread] at h
    simp only at h
    have hfield : ({ whole with body := whole.body ++ rest } : ResponseReading).lengthField =
        whole.lengthField := rfl
    rw [readFramed, readResponse_append hread]
    simp only [hfield]
    cases hlength : whole.lengthField with
    | none =>
      rw [hlength] at h
      cases h
    | some field =>
      rw [hlength] at h
      simp only at h ⊢
      by_cases hshort : whole.body.length < digitsValue field.2
      · rw [if_pos hshort] at h
        cases h
      · rw [if_neg hshort] at h
        have hlong : ¬ (whole.body ++ rest).length < digitsValue field.2 := by
          rw [List.length_append]
          omega
        rw [if_neg hlong, List.take_append_of_le_length (by omega), ← h]

/-- The client, as a reader of a stream. -/
def responseReader : StreamReader Byte ResponseReading := ⟨readFramed, readFramed_append⟩

/-! ## A response is a message -/

namespace HttpResponse

/-- The declared length is found, whatever the order of the header table. -/
theorem Ready.find_length {resp : HttpResponse} (h : resp.Ready) (iter : IterOrder) :
    (iter.order resp.headers).find? (fun field => lower field.1 = str "content-length") =
      some (str "Content-Length", toDecimal resp.body.length) := by
  have hentry : (str "Content-Length", toDecimal resp.body.length) ∈ iter.order resp.headers :=
    IterOrder.mem_order.mpr h.length
  have hunique : ∀ name ∈ responseHeaderNames, lower name = str "content-length" →
      name = str "Content-Length" := by
    decide
  cases hfind : (iter.order resp.headers).find? (fun field => lower field.1 = str "content-length")
    with
  | none =>
    have hnot := List.find?_eq_none.mp hfind _ hentry
    have hname : lower (str "Content-Length") = str "content-length" := by decide
    exact absurd (decide_eq_true hname) hnot
  | some field =>
    obtain ⟨name, value⟩ := field
    have hname : lower name = str "content-length" := by simpa using List.find?_some hfind
    have hmem := List.mem_of_find?_eq_some hfind
    have heq := hunique name (h.names name (mem_of_mem_order hmem)) hname
    subst heq
    have hvalue := IterOrder.mem_order.mp hmem
    rw [h.length] at hvalue
    rw [Option.some.inj hvalue]

/-- Reading the head of a response with some other body behind it. -/
theorem Ready.readResponse_head {resp : HttpResponse} (h : resp.Ready) (iter : IterOrder)
    (taken : Bytes) :
    readResponse (renderLines (statusLine resp.statusCode ::
        (iter.order resp.headers).map lineOf) ++ taken) =
      some ⟨resp.statusCode.toInt, iter.order resp.headers, taken⟩ := by
  have hother : ({ resp with body := taken } : HttpResponse).Separable :=
    ⟨h.separable.names, h.separable.values⟩
  have hread := readResponse_serialize hother iter
  rwa [serialize_eq_renderLines] at hread

/-- **Every response of the server is a message**: its last byte completes it. -/
theorem Ready.message {resp : HttpResponse} (h : resp.Ready) (iter : IterOrder) :
    responseReader.Message (resp.serialize iter)
      ⟨resp.statusCode.toInt, iter.order resp.headers, resp.body⟩ := by
  have hlength : ∀ taken, ResponseReading.lengthField
      ⟨resp.statusCode.toInt, iter.order resp.headers, taken⟩ =
        some (str "Content-Length", toDecimal resp.body.length) :=
    fun _ => h.find_length iter
  rw [serialize_eq_renderLines]
  constructor
  · show readFramed _ = _
    rw [readFramed, h.readResponse_head]
    simp only [hlength, digitsValue_toDecimal]
    rw [if_neg (Nat.lt_irrefl _), List.take_length]
  · intro p hp hne
    show readFramed p = none
    have hplain := plainLines_of_ready h iter
    generalize hlines : statusLine resp.statusCode :: (iter.order resp.headers).map lineOf = lines
      at hp hne hplain
    have hnonempty : lines ≠ [] := by
      rw [← hlines]
      exact List.cons_ne_nil _ _
    rcases Nat.lt_or_ge p.length (renderLines lines).length with hshort | hlong
    · -- the head is not complete
      have hhead : p <+: (headerSectionOf lines hplain hnonempty).bytes :=
        List.prefix_of_prefix_length_le hp (List.prefix_append _ _) (Nat.le_of_lt hshort)
      have hnone := find_crlfcrlf_of_short hhead hshort
      rw [readFramed, readResponse, cutFirst, hnone]
      rfl
    · obtain ⟨taken, rfl⟩ := List.prefix_of_prefix_length_le (List.prefix_append _ _) hp hlong
      have htaken : taken <+: resp.body := (List.prefix_append_right_inj _).mp hp
      have hless : taken.length < resp.body.length := by
        refine Nat.lt_of_le_of_ne htaken.length_le fun hlen => hne ?_
        rw [htaken.eq_of_length hlen]
      rw [readFramed, ← hlines, h.readResponse_head]
      simp only [hlength, digitsValue_toDecimal]
      rw [if_pos hless]

end HttpResponse

/-! ## What `send_all` lets the client read -/

/-- The bytes of one `send_all` that have been delivered behind its first `n` calls. -/
def deliveredBy (data : Bytes) (script : List SendOutcome) (n : Nat) : Bytes :=
  delivered data ((deliveries data.length script 0).take n)

/-- Those of all its calls. -/
def deliveredAll (data : Bytes) (script : List SendOutcome) : Bytes :=
  delivered data (deliveries data.length script 0)

/-- The socket takes what it was asked for, and the length fits the `int`. -/
structure Transmits (data : Bytes) (script : List SendOutcome) : Prop where
  length : data.length < 2 ^ 31
  within : WithinRequest data.length script 0

theorem Transmits.deliveredBy_eq {data : Bytes} {script : List SendOutcome}
    (h : Transmits data script) (n : Nat) :
    ∃ k, k = deliveredSum ((deliveries data.length script 0).take n) ∧ k ≤ data.length ∧
      deliveredBy data script n = data.take k := by
  have hinv := delivered_eq data h.length script 0 n (Nat.zero_le _) h.within
  rw [List.take_zero, List.nil_append, Nat.zero_add] at hinv
  exact ⟨_, rfl, hinv.2, hinv.1⟩

theorem Transmits.deliveredAll_eq {data : Bytes} {script : List SendOutcome}
    (h : Transmits data script) :
    deliveredAll data script = data ↔ (sendAll data script).2 = .returned true := by
  obtain ⟨k, hk, hle, htake⟩ := h.deliveredBy_eq (deliveries data.length script 0).length
  rw [deliveredBy, List.take_length] at htake
  rw [List.take_length] at hk
  rw [sendAll_returned_true_iff, acceptedBytes_eq, ← hk, deliveredAll, htake]
  constructor
  · intro hall
    have hlength := congrArg List.length hall
    rw [List.length_take] at hlength
    omega
  · intro hall
    exact List.take_of_length_le hall

/-- `ReadsWhole` — a client that gets `data` has read nothing, or what `data` says; and at the end it
    has read the latter exactly if `send_all` says that it succeeded. -/
structure ReadsWhole (data : Bytes) (script : List SendOutcome) (reading : ResponseReading) :
    Prop where
  during : ∀ n, responseReader.read (deliveredBy data script n) =
    if deliveredBy data script n = data then some reading else none
  ended : responseReader.read (deliveredAll data script) = some reading ↔
    (sendAll data script).2 = .returned true

/-- **A message is read whole or not at all.** -/
theorem reads_delivered {data : Bytes} {script : List SendOutcome} {reading : ResponseReading}
    (hmessage : responseReader.Message data reading) (h : Transmits data script) :
    ReadsWhole data script reading where
  during n := by
    obtain ⟨k, -, -, htake⟩ := h.deliveredBy_eq n
    have hfront : deliveredBy data script n <+: data := htake ▸ List.take_prefix k data
    by_cases hall : deliveredBy data script n = data
    · rw [if_pos hall, hall, hmessage.whole]
    · rw [if_neg hall, hmessage.part _ hfront hall]
  ended := by
    obtain ⟨k, -, -, htake⟩ := h.deliveredBy_eq (deliveries data.length script 0).length
    rw [deliveredBy, List.take_length] at htake
    have hfront : deliveredAll data script <+: data := by
      rw [deliveredAll, htake]
      exact List.take_prefix k data
    exact (hmessage.read_cut hfront).trans h.deliveredAll_eq

/-! ## The responses of a run -/

/-- The response that a connection gets: the 503, or the one for what was received on it. -/
def AnswerFor (config : Config) (client : Client) (w : List ConnEvent) (resp : HttpResponse) :
    Prop :=
  .rejected ∈ w ∧ resp = HttpResponse.serviceUnavailable ∨
    .taken ∈ w ∧ ∃ raw, client.received config = some raw ∧ responseTo config client raw = some resp

/-- **`handle_client` sends the response to what it received.** -/
theorem responses_respond (config : Config) (client : Client) (raw : Bytes) :
    responses ((respond config client raw).map .effect) =
      (responseTo config client raw).toList.map fun resp => resp.serialize client.iter := by
  rcases respond_cases config client raw with
    ⟨hempty, hrespond⟩ | ⟨hne, outcome, data, tail, houtcome, htail, hrespond⟩
  · rw [hrespond, responseTo, if_pos hempty]
    rfl
  · have hmem : .sendAll data ∈ respond config client raw := by
      rw [hrespond]
      simp
    obtain ⟨resp, hresp, rfl⟩ := sendAll_mem_respond_iff.mp hmem
    obtain ⟨-, -, hsent⟩ := Effect.of_isOutcome houtcome
    rw [hrespond, hresp, responses, List.map_cons, List.filterMap_cons_none hsent]
    rcases htail with rfl | rfl <;> rfl

/-- A part of what sends one response at most. -/
theorem responses_of_front {w w' : List ConnEvent} {sent : Option Bytes}
    (hpre : w <+: w') (hsent : responses w' = sent.toList) :
    responses w = [] ∨ responses w = sent.toList := by
  have hfront : responses w <+: sent.toList := hsent ▸ hpre.filterMap sentData
  cases sent with
  | none => exact Or.inl (List.prefix_nil.mp hfront)
  | some data =>
    rcases List.prefix_cons_iff.mp hfront with hnil | ⟨rest, hrest, htail⟩
    · exact Or.inl hnil
    · rw [hrest, List.prefix_nil.mp htail]
      exact Or.inr rfl

/-- What has sent a response is longer than a part that sends none. -/
theorem prefix_of_sent {w before behind : List ConnEvent} {data : Bytes}
    (hpre : w <+: before ++ behind) (hsilent : responses before = [])
    (hsent : responses w = [data]) : before <+: w := by
  rcases List.prefix_or_prefix_of_prefix hpre (List.prefix_append _ _) with hshort | hlong
  · have hnone : responses w <+: responses before := hshort.filterMap sentData
    rw [hsent, hsilent] at hnone
    exact absurd (List.prefix_nil.mp hnone) (List.cons_ne_nil _ _)
  · exact hlong

/-- **A connection gets one response at most**: the 503, or the one for what was received. -/
theorem Fits.answer {config : Config} {client : Client} {w : List ConnEvent} {st : Stage}
    (h : Fits config client w st) :
    responses w = [] ∨
      ∃ resp, responses w = [resp.serialize client.iter] ∧ AnswerFor config client w resp := by
  rcases h.isPrefix_life with hpre | hpre
  · cases hrecv : client.received config with
    | none =>
      rw [servedLife_of_blocked hrecv] at hpre
      exact (responses_of_front hpre (rfl : _ = (none : Option Bytes).toList)).elim Or.inl Or.inl
    | some raw =>
      have hlife : responses (servedLife config client ++ [.left]) =
          ((responseTo config client raw).map fun resp => resp.serialize client.iter).toList := by
        rw [servedLife_eq_receiving hrecv, responses, List.filterMap_append, List.filterMap_append]
        show [] ++ responses _ ++ [] = _
        rw [List.nil_append, List.append_nil, responses_respond]
        cases responseTo config client raw <;> rfl
      rcases responses_of_front hpre hlife with hnil | hsent
      · exact Or.inl hnil
      · cases hresp : responseTo config client raw with
        | none =>
          rw [hresp] at hsent
          exact Or.inl hsent
        | some resp =>
          rw [hresp] at hsent
          refine Or.inr ⟨resp, hsent, Or.inr ⟨?_, raw, hrecv, hresp⟩⟩
          rw [servedLife_eq_receiving hrecv, List.append_assoc] at hpre
          exact (prefix_of_sent hpre rfl hsent).subset (by simp [receiving])
  · have hlife : responses (rejectedLife client ++ [.left]) =
        (some (HttpResponse.serviceUnavailable.serialize client.iter)).toList := rfl
    rcases responses_of_front hpre hlife with hnil | hsent
    · exact Or.inl hnil
    · refine Or.inr ⟨HttpResponse.serviceUnavailable, hsent, Or.inl ⟨?_, rfl⟩⟩
      rw [rejectedLife, List.append_assoc] at hpre
      exact (prefix_of_sent hpre rfl hsent).subset (by simp)

theorem AnswerFor.ready {config : Config} {client : Client} {w : List ConnEvent}
    {resp : HttpResponse} (h : AnswerFor config client w resp)
    (hready : Handler.Ready client.handle) : resp.Ready := by
  rcases h with ⟨-, rfl⟩ | ⟨-, raw, -, hresp⟩
  · exact HttpResponse.ready_serviceUnavailable
  · exact ready_responseTo hready hresp

/-! ## The connections of a run -/

/-- The connection is answered by the default routes. -/
def Client.Routed (client : Client) : Prop :=
  ∃ fs documentRoot env order,
    client.handle = (defaultRouter fs documentRoot env).handle fs order

theorem Client.Routed.ready {client : Client} (h : client.Routed) : Handler.Ready client.handle := by
  obtain ⟨fs, documentRoot, env, order, hhandle⟩ := h
  rw [hhandle]
  exact ((Router.ready_make fs documentRoot).setupDefaultRoutes env).handle fs order

theorem TcpServer.Step.mem_clients {config : Config} {s s' : TcpServer} {a : ServerAction}
    {ev : ServerEvent} (h : Step config s a s' ev) {client : Client} (hmem : client ∈ s'.clients) :
    client ∈ s.clients ∨ a = .accept client := by
  cases h with
  | accept loop =>
    rcases List.mem_append.mp hmem with hold | hnew
    · exact Or.inl hold
    · exact Or.inr (by rw [List.mem_singleton.mp hnew])
  | _ => exact Or.inl hmem

/-- Every connection was accepted. -/
theorem accepted_of_run {config : Config} {es : ServerHistory} {s : TcpServer}
    (run : (serverMachine config).Run es s) :
    ∀ client ∈ s.clients, .accept client ∈ es.map Prod.fst := by
  refine run.invariant (P := fun es s => ∀ client ∈ s.clients, .accept client ∈ es.map Prod.fst)
    ?_ ?_
  · intro client hmem
    cases hmem
  · intro es s a s' ev _ hall hstep client hmem
    rw [List.map_append, List.mem_append]
    rcases (TcpServer.step_inv hstep).mem_clients hmem with hold | rfl
    · exact Or.inl (hall client hold)
    · exact Or.inr (List.mem_singleton_self _)

/-- A connection that was not accepted has no history. -/
theorem Tracks.eventsOf_of_not_accepted {config : Config} {es : ServerHistory} {s : TcpServer}
    {st : Nat → Stage} (ht : Tracks config es s st) {c : Nat} (hc : s.clients.length ≤ c) :
    eventsOf c es = [] := by
  have hbehind := (fits_of_run (ht.life c)).behind
  rw [(ht.fresh c).mpr hc] at hbehind
  exact hbehind

/-- A client that asks for `/hello` and goes away before the last byte. -/
def hastyClient : Client where
  recvScript := [.data ⟨str "GET /hello HTTP/1.1\r\n\r\n", by decide, by decide⟩]
  sendScript := [.sent 97 (by decide), .error]
  handle := (defaultRouter exampleFileSystem (str "/srv") exampleEnv).handle exampleFileSystem .keys
  iter := .entries

end HttpServer
