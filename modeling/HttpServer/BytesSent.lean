/-
  The byte counter — when `total_bytes_sent` is what was transmitted.

  1. **Specification** — `acceptedBytes` is what the calls of one `send_all` were told that `send` had
     accepted, and `acceptedTotal` the sum over all connections.

  2. **One life (`Fits.counted`)** — the counter is raised by the length of the response, however far
     `send_all` came with it; the catch block of `handle_client` sends one and does not count it.

  3. **Bridge** — `bytes_counted_iff`: the counter is what the responses outside of the catch block
     are long, so it is right exactly when what these fell short of is what was accepted of those
     inside of it.
-/
import HttpServer.RequestCounters

namespace HttpServer

/-! ## What was transmitted -/

/-- What `send` says that it has accepted: nothing where it fails. -/
def SendOutcome.bytes : SendOutcome → Nat
  | .sent bytes _ => bytes
  | .eintr => 0
  | .error => 0

/-- Everything but an error moves the offset by what was accepted. -/
theorem sendLoop_cons {len totalSent : Nat} {script : List SendOutcome} {outcome : SendOutcome}
    (h : totalSent < len) (hne : outcome ≠ .error) :
    sendLoop len (outcome :: script) totalSent =
      (⟨totalSent, castInt (len - totalSent)⟩ ::
          (sendLoop len script (totalSent + outcome.bytes)).1,
        (sendLoop len script (totalSent + outcome.bytes)).2) := by
  rw [sendLoop, if_pos h]
  cases outcome with
  | sent bytes pos => rfl
  | eintr => rfl
  | error => exact absurd rfl hne

/-- What the calls of one `send_all` had accepted, the last one included. -/
def acceptedBytes (data : Bytes) (script : List SendOutcome) : Nat :=
  ((script.take (sendAll data script).1.length).map SendOutcome.bytes).sum

/-- A `send_all` says that it succeeded exactly when at least the whole buffer was accepted. -/
theorem sendLoop_returned_true_iff (len : Nat) (script : List SendOutcome) (totalSent : Nat) :
    (sendLoop len script totalSent).2 = .returned true ↔
      len ≤ totalSent +
        ((script.take (sendLoop len script totalSent).1.length).map SendOutcome.bytes).sum := by
  induction script generalizing totalSent with
  | nil =>
    by_cases hlt : totalSent < len
    · rw [sendLoop_nil hlt]
      refine iff_of_false (by simp) ?_
      show ¬ len ≤ totalSent + 0
      omega
    · -- nothing is left to send
      rw [sendLoop_done (by omega)]
      refine iff_of_true rfl ?_
      omega
  | cons outcome rest ih =>
    by_cases hlt : totalSent < len
    · by_cases herror : outcome = .error
      · rw [herror, sendLoop_error hlt]
        refine iff_of_false (by simp) ?_
        show ¬ len ≤ totalSent + (0 + 0)
        omega
      · rw [sendLoop_cons hlt herror]
        have hrest := ih (totalSent + outcome.bytes)
        simp only [List.length_cons, List.take_succ_cons, List.map_cons, List.sum_cons]
        rw [hrest, Nat.add_assoc]
    · rw [sendLoop_done (by omega)]
      refine iff_of_true rfl ?_
      omega

theorem sendAll_returned_true_iff (data : Bytes) (script : List SendOutcome) :
    (sendAll data script).2 = .returned true ↔ data.length ≤ acceptedBytes data script := by
  have h := sendLoop_returned_true_iff data.length script 0
  rwa [Nat.zero_add] at h

/-- What was accepted on one connection. -/
def acceptedOn (client : Client) (w : List ConnEvent) : Nat :=
  ((responses w).map fun data => acceptedBytes data client.sendScript).sum

/-- What was accepted on all connections. -/
def acceptedTotal (es : ServerHistory) (s : TcpServer) : Nat :=
  ∑ c ∈ Finset.range s.clients.length, acceptedOn (s.client c) (eventsOf c es)

/-! ## The condition -/

/-- The request that was received makes `router_.handle` throw. -/
def Client.throwsOn (config : Config) (client : Client) (rawRequest : Bytes) : Bool :=
  let parseResult := parse rawRequest config.maxHeaderSize config.maxBodySize
  rawRequest ≠ [] && parseResult.error = .none &&
    match client.handle (buildRequest parseResult) with
    | .ok _ => false
    | .error _ => true

/-- `handle_client` gets into its catch block: a request is received that `parse` accepts, and
    `router_.handle` throws. -/
def Client.throws (config : Config) (client : Client) : Bool :=
  (client.received config).any (client.throwsOn config)

/-- The connections that were answered from the catch block. -/
def thrown (config : Config) (es : ServerHistory) (s : TcpServer) : Finset Nat :=
  (Finset.range s.clients.length).filter fun c =>
    .taken ∈ eventsOf c es ∧ (s.client c).throws config = true

/-- The length of the responses passed to `send_all`. -/
def responseBytes (w : List ConnEvent) : Nat := ((responses w).map List.length).sum

/-- What the responses outside of the catch block fell short of. -/
def unsentBytes (config : Config) (es : ServerHistory) (s : TcpServer) : Int :=
  ∑ c ∈ Finset.range s.clients.length \ thrown config es s,
    ((responseBytes (eventsOf c es) : Int) - acceptedOn (s.client c) (eventsOf c es))

/-- What was accepted of the responses inside of it. -/
def uncountedBytes (config : Config) (es : ServerHistory) (s : TcpServer) : Nat :=
  ∑ c ∈ thrown config es s, acceptedOn (s.client c) (eventsOf c es)

/-! ## The counter -/

/-- What an event adds to `total_bytes_sent_`. -/
def counted : ConnEvent → Int
  | .effect (.addBytesSent bytes) => bytes
  | _ => 0

theorem totalBytesSent_eq {config : Config} {es : ServerHistory} {s : TcpServer}
    (run : (serverMachine config).Run es s) :
    (s.metrics.totalBytesSent : Int) = ((connHistory es).map fun x => counted x.2).sum := by
  refine metric_eq_sum (f := fun m => (m.totalBytesSent : Int)) rfl
    (fun _ => (Int.add_zero _).symm) ?_ ?_ (fun _ _ => rfl) run
  · intro e size m
    cases e with
    | addBytesSent bytes => exact Int.natCast_add _ _
    | _ => exact (Int.add_zero _).symm
  · intro ev _ heffect
    cases ev with
    | effect e => exact absurd rfl (heffect e)
    | _ => rfl

/-! ## One life -/

/-- `CountsAll effects` — what the effects send they count. -/
def CountsAll (effects : List Effect) : Prop :=
  ((effects.map ConnEvent.effect).map counted).sum = responseBytes (effects.map ConnEvent.effect)

theorem countsAll_of {effects : List Effect} (data : Bytes)
    (hsent : responses (effects.map ConnEvent.effect) = [data])
    (hcounted : ((effects.map ConnEvent.effect).map counted).sum = data.length) :
    CountsAll effects := by
  rw [CountsAll, hcounted, responseBytes, hsent]
  rfl

theorem countsAll_answer (client : Client) {outcome : Effect} (houtcome : outcome.isOutcome = true)
    (resp : HttpResponse) : CountsAll (answer client outcome resp) := by
  have houtcome : sentData (.effect outcome) = none ∧ counted (.effect outcome) = 0 := by
    cases outcome <;> first | exact ⟨rfl, rfl⟩ | cases houtcome
  refine countsAll_of (resp.serialize client.iter) ?_ ?_
  · exact List.filterMap_cons_none houtcome.1
  · show counted (.effect outcome) +
      (0 + (((resp.serialize client.iter).length : Int) + (0 + 0))) = _
    omega

theorem countsAll_rejectClient (client : Client) : CountsAll (rejectClient client) := by
  refine countsAll_of (HttpResponse.serviceUnavailable.serialize client.iter) rfl ?_
  simp [rejectClient, counted]

/-- **Outside of the catch block every response is counted.** -/
theorem countsAll_respond {config : Config} {client : Client} {rawRequest : Bytes}
    (h : client.throwsOn config rawRequest = false) :
    CountsAll (respond config client rawRequest) := by
  by_cases hraw : rawRequest = []
  · rw [respond, if_pos hraw]
    rfl
  · rcases respond_answers config client hraw with ⟨response, hrespond⟩ | ⟨herror, what, hthrow⟩
    · rw [hrespond]
      exact countsAll_answer client (outcomeOf_isOutcome response) response
    · simp [Client.throwsOn, hraw, herror, hthrow] at h

/-- **Inside of it nothing is.** -/
theorem counted_respond_of_throws {config : Config} {client : Client} {rawRequest : Bytes}
    (h : client.throwsOn config rawRequest = true) :
    (((respond config client rawRequest).map ConnEvent.effect).map counted).sum = 0 := by
  simp only [Client.throwsOn, Bool.and_eq_true, decide_eq_true_eq] at h
  obtain ⟨⟨hraw, herror⟩, hhandle⟩ := h
  cases hresult : client.handle
      (buildRequest (parse rawRequest config.maxHeaderSize config.maxBodySize)) with
  | ok response =>
    rw [hresult] at hhandle
    cases hhandle
  | error what =>
    rw [respond_of_throw hraw herror hresult]
    rfl

theorem responseBytes_append (w w' : List ConnEvent) :
    responseBytes (w ++ w') = responseBytes w + responseBytes w' := by
  rw [responseBytes, responses, List.filterMap_append, List.map_append, List.sum_append]
  rfl

/-- A life, with what stands before its effects and behind them counting and sending nothing. -/
theorem counted_life {before tail : List ConnEvent} {effects : List Effect}
    (hbefore : (before.map counted).sum = 0 ∧ responseBytes before = 0)
    (htail : (tail.map counted).sum = 0 ∧ responseBytes tail = 0) :
    ((before ++ effects.map ConnEvent.effect ++ tail).map counted).sum =
        ((effects.map ConnEvent.effect).map counted).sum ∧
      responseBytes (before ++ effects.map .effect ++ tail) =
        responseBytes (effects.map .effect) := by
  constructor
  · rw [List.map_append, List.map_append, List.sum_append, List.sum_append, hbefore.1, htail.1,
      Int.add_zero, Int.zero_add]
  · rw [responseBytes_append, responseBytes_append, hbefore.2, htail.2, Nat.add_zero, Nat.zero_add]

/-- **A closed connection has one of the two lives behind it**, whole. -/
theorem Fits.life_of_close {config : Config} {client : Client} {w : List ConnEvent} {st : Stage}
    (h : Fits config client w st) (hclose : .effect .close ∈ w) :
    ∃ tail, (tail = [] ∨ tail = [.left]) ∧
      (w = servedLife config client ++ tail ∨ w = rejectedLife client ++ tail) := by
  rcases h.isPrefix_life with hpre | hpre
  · rcases List.prefix_concat_iff.mp hpre with heq | hpre
    · exact ⟨[.left], Or.inr rfl, Or.inl heq⟩
    · cases hrecv : client.received config with
      | some rawRequest =>
        obtain ⟨before, hlife, heq⟩ := servedLife_eq hrecv
        have hwhole := hlife.whole_of_close (heq ▸ hpre) hclose
        exact ⟨[], Or.inl rfl, Or.inl (by rw [hwhole, heq, List.append_nil])⟩
      | none =>
        rw [servedLife_of_blocked hrecv] at hpre
        have hmem := hpre.subset hclose
        simp [receiving] at hmem
  · rcases List.prefix_concat_iff.mp hpre with heq | hpre
    · exact ⟨[.left], Or.inr rfl, Or.inr heq⟩
    · obtain ⟨before, hlife, heq⟩ := rejectedLife_eq config client
      have hwhole := hlife.whole_of_close (heq ▸ hpre) hclose
      exact ⟨[], Or.inl rfl, Or.inr (by rw [hwhole, heq, List.append_nil])⟩

/-- What a worker did for a closed connection. -/
theorem counted_served {config : Config} {client : Client} {tail : List ConnEvent}
    {rawRequest : Bytes} (hrecv : client.received config = some rawRequest)
    (htail : (tail.map counted).sum = 0 ∧ responseBytes tail = 0) :
    ((servedLife config client ++ tail).map counted).sum =
      if client.throws config = true then 0
      else (responseBytes (servedLife config client ++ tail) : Int) := by
  have hthrows : client.throws config = client.throwsOn config rawRequest := by
    rw [Client.throws, hrecv, Option.any_some]
  have hreceiving : (receiving.map counted).sum = 0 ∧ responseBytes receiving = 0 := ⟨rfl, rfl⟩
  rw [servedLife_eq_receiving hrecv, (counted_life hreceiving htail).1,
    (counted_life hreceiving htail).2, hthrows]
  cases h : client.throwsOn config rawRequest with
  | true => exact counted_respond_of_throws h
  | false => exact countsAll_respond h

/-- **The counter, over one life**: the length of the response, or nothing if `handle_client` got into
    its catch block. -/
theorem Fits.counted {config : Config} {client : Client} {w : List ConnEvent} {st : Stage}
    (h : Fits config client w st) (hclose : .effect .close ∈ w) :
    (w.map HttpServer.counted).sum =
      if .taken ∈ w ∧ client.throws config = true then 0 else (responseBytes w : Int) := by
  obtain ⟨tail, htail, hw⟩ := h.life_of_close hclose
  have hleft : ((tail.map HttpServer.counted).sum = 0 ∧ responseBytes tail = 0) ∧ .taken ∉ tail ∧
      .effect .close ∉ tail := by
    rcases htail with rfl | rfl
    · exact ⟨⟨rfl, rfl⟩, by simp, by simp⟩
    · exact ⟨⟨rfl, rfl⟩, by simp, by simp⟩
  obtain ⟨htail, htaken, hnoClose⟩ := hleft
  rcases hw with rfl | rfl
  · have hmem : .taken ∈ servedLife config client ++ tail := by simp [servedLife]
    cases hrecv : client.received config with
    | some rawRequest =>
      rw [counted_served hrecv htail]
      simp only [hmem, true_and]
    | none =>
      rw [servedLife_of_blocked hrecv] at hclose
      rcases List.mem_append.mp hclose with hin | hin
      · simp [receiving] at hin
      · exact absurd hin hnoClose
  · have hmem : .taken ∉ rejectedLife client ++ tail := by
      intro hin
      rcases List.mem_append.mp hin with hin | hin
      · simp [rejectedLife] at hin
      · exact htaken hin
    have hrejected : (([.accepted, .opened, .rejected] : List ConnEvent).map
        HttpServer.counted).sum = 0 ∧ responseBytes [.accepted, .opened, .rejected] = 0 := ⟨rfl, rfl⟩
    rw [if_neg fun hc => hmem hc.1, rejectedLife, (counted_life hrejected htail).1,
      (counted_life hrejected htail).2]
    exact countsAll_rejectClient client

/-! ## A quiescent server -/

/-- **The counter of a quiescent server**: what the responses outside of the catch block are long. -/
theorem totalBytesSent_eq_of_quiescent {config : Config} {es : ServerHistory} {s : TcpServer}
    (run : (serverMachine config).Run es s) (hquiet : Quiescent es s) :
    (s.metrics.totalBytesSent : Int) =
      ∑ c ∈ Finset.range s.clients.length \ thrown config es s,
        (responseBytes (eventsOf c es) : Int) := by
  obtain ⟨st, h⟩ := tracks_of_run run
  have hlives : ∀ c ∈ Finset.range s.clients.length,
      ((eventsOf c es).map counted).sum =
        if .taken ∈ eventsOf c es ∧ (s.client c).throws config = true then 0
        else (responseBytes (eventsOf c es) : Int) := fun c hc =>
    (fits_of_run (h.life c)).counted (hquiet.1 c (Finset.mem_range.mp hc))
  rw [totalBytesSent_eq run, h.sum_events counted, Finset.sum_congr rfl hlives, Finset.sum_ite,
    Finset.sum_const_zero, Finset.filter_not, zero_add, thrown]

/-- What was accepted, of the responses outside of the catch block and inside of it. -/
theorem acceptedTotal_eq (config : Config) (es : ServerHistory) (s : TcpServer) :
    acceptedTotal es s =
      ∑ c ∈ Finset.range s.clients.length \ thrown config es s,
        acceptedOn (s.client c) (eventsOf c es) + uncountedBytes config es s :=
  (Finset.sum_sdiff (Finset.filter_subset _ _)).symm

/-! ## The theorem -/

/-- **When the byte counter is right.**  In every quiescent state of every run, whatever `send` answers
    on each socket, `total_bytes_sent` is the number of bytes that `send` accepted exactly when what
    the responses outside of the catch block fell short of is what was accepted of those inside
    of it. -/
theorem bytes_counted_iff (config : Config) {es : ServerHistory} {s : TcpServer}
    (run : (serverMachine config).Run es s) (hquiet : Quiescent es s) :
    s.metrics.totalBytesSent = acceptedTotal es s ↔
      unsentBytes config es s = uncountedBytes config es s := by
  have htotal := totalBytesSent_eq_of_quiescent run hquiet
  have haccepted := acceptedTotal_eq config es s
  have hunsent : unsentBytes config es s = s.metrics.totalBytesSent -
      ((∑ c ∈ Finset.range s.clients.length \ thrown config es s,
        acceptedOn (s.client c) (eventsOf c es) : Nat) : Int) := by
    rw [unsentBytes, Finset.sum_sub_distrib, ← htotal, Nat.cast_sum]
  omega

/-- The theorem on a run that serves one client and stops: nothing fell short. -/
theorem bytes_counted_iff_get :
    ∃ (es : ServerHistory) (s : TcpServer), Quiescent es s ∧ s.metrics.totalBytesSent = 85 ∧
      (s.metrics.totalBytesSent = acceptedTotal es s ↔
        unsentBytes { threadCount := 1 } es s = uncountedBytes { threadCount := 1 } es s) := by
  obtain ⟨es, s, run, hquiet, hbytes⟩ := Machine.exists_run
    (M := serverMachine { threadCount := 1 })
    (acceptOne exampleClient ++ serveOne 8 ++ stopServer)
    (fun es s => Quiescent es s ∧ s.metrics.totalBytesSent = 85) (by decide +kernel)
  exact ⟨es, s, hquiet, hbytes, bytes_counted_iff { threadCount := 1 } run hquiet⟩

/-- A client that stops to read its page after 10 bytes. -/
def leavingClient : Client :=
  { exampleClient with sendScript := [.sent 10 (by decide), .error] }

/-- A client whose request makes the router throw, and that gets all of the 500. -/
def throwingClient : Client :=
  { exampleClient with
    sendScript := [.sent 124 (by decide)]
    handle := fun _ => .error (str "boom") }

/-- Two clients that are each served alone: of one response 10 bytes of 85 are accepted and 85 are
    counted, of the other all 124 are accepted and none is counted. -/
theorem bytes_miscounted :
    (∃ (es : ServerHistory) (s : TcpServer), (serverMachine { threadCount := 1 }).Run es s ∧
        Quiescent es s ∧ s.metrics.totalBytesSent = 85 ∧ acceptedTotal es s = 10) ∧
      ∃ (es : ServerHistory) (s : TcpServer), (serverMachine { threadCount := 1 }).Run es s ∧
        Quiescent es s ∧ s.metrics.totalBytesSent = 0 ∧ acceptedTotal es s = 124 := by
  constructor
  · exact Machine.exists_run (M := serverMachine { threadCount := 1 })
      (acceptOne leavingClient ++ serveOne 8 ++ stopServer)
      (fun es s => Quiescent es s ∧ s.metrics.totalBytesSent = 85 ∧ acceptedTotal es s = 10)
      (by decide +kernel)
  · exact Machine.exists_run (M := serverMachine { threadCount := 1 })
      (acceptOne throwingClient ++ serveOne 7 ++ stopServer)
      (fun es s => Quiescent es s ∧ s.metrics.totalBytesSent = 0 ∧ acceptedTotal es s = 124)
      (by decide +kernel)

end HttpServer
