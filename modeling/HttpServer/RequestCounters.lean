/-
  The request counters — when `total_requests` is the sum of the three outcomes.

  1. **Specification** — `Quiescent`: every accepted connection has been closed, and no task is
     queued or in the hands of a worker.  What happened since the start is then a list of whole
     lives.

  2. **One life (`Life.imbalance`)** — a connection that a worker answered raises the total and one
     outcome.  The 503 branch raises `server_errors` and not the total; a worker that received
     nothing has raised the total and raises no outcome.

  3. **Bridge** — `counters_balance_iff`: the two kinds cancel each other and nothing else enters,
     so the counters balance exactly when there are as many of one as of the other.
-/
import HttpServer.ConnectionsClosed

namespace HttpServer

/-! ## The imbalance -/

/-- What an event does to the total less the outcomes. -/
def imbalance (ev : ConnEvent) : Int :=
  (if ev == .effect .recordRequest then 1 else 0) - if ev.isOutcome then 1 else 0

theorem totalRequests_sub_outcomes {config : Config} {es : ServerHistory} {s : TcpServer}
    (run : (serverMachine config).Run es s) :
    (s.metrics.totalRequests : Int) - s.metrics.outcomes =
      ((connHistory es).map fun x => imbalance x.2).sum := by
  refine metric_eq_sum (f := fun m => (m.totalRequests : Int) - m.outcomes) rfl
    (fun _ => (Int.add_zero _).symm) ?_ ?_ (fun _ _ => rfl) run
  · intro e size m
    cases e <;> simp [Effect.apply, Metrics.recordRequest, Metrics.recordSuccess,
      Metrics.recordClientError, Metrics.recordServerError, Metrics.setQueueSize,
      Metrics.addBytesSent, Metrics.connectionClosed, Metrics.outcomes, imbalance,
      ConnEvent.isOutcome, Effect.isOutcome] <;> omega
  · intro ev _ heffect
    cases ev with
    | effect e => exact absurd rfl (heffect e)
    | _ => rfl

/-- **One life**: a 503 counts against the total, a read that came back empty counts for it. -/
theorem Life.imbalance {config : Config} {client : Client} {before : List ConnEvent}
    (h : Life config client before) :
    (before.map HttpServer.imbalance).sum =
      (if .taken ∈ before ∧ client.received config = some [] then 1 else 0 : Int) -
        if .rejected ∈ before then 1 else 0 := by
  have hsum : (before.map HttpServer.imbalance).sum =
      (before.count (.effect .recordRequest) : Int) - before.countP ConnEvent.isOutcome :=
    KeyedHistory.sum_map_indicator_sub (· == ConnEvent.effect .recordRequest) _ _
  have hhandler := h.handler
  rw [hsum, h.requests, h.outcomes]
  by_cases htaken : .taken ∈ before
  · -- a worker had it, so it was not rejected
    have hpos := List.count_pos_iff.mpr htaken
    have hrejected : .rejected ∉ before := List.count_eq_zero.mp (by omega)
    have hone : before.count .taken = 1 := by omega
    rw [hone, if_neg hrejected]
    split <;> rfl
  · have hzero : before.count .taken = 0 := List.count_eq_zero.mpr htaken
    have hrejected : .rejected ∈ before := List.count_pos_iff.mp (by omega)
    rw [hzero, if_pos hrejected, if_neg (fun h => htaken h.1), if_neg (fun h => htaken h.1)]
    rfl

/-! ## A quiescent server -/

/-- Every accepted connection closed, no task queued or running: the moments at which the counters
    can be compared. -/
def Quiescent (es : ServerHistory) (s : TcpServer) : Prop :=
  (∀ c < s.clients.length, .effect .close ∈ eventsOf c es) ∧ s.pool.queue.queue = [] ∧
    s.pool.heldTasks = []

instance (es : ServerHistory) (s : TcpServer) : Decidable (Quiescent es s) :=
  inferInstanceAs (Decidable (_ ∧ _ ∧ _))

/-- The connections that the accept loop answered with a 503. -/
def rejectedConnections (es : ServerHistory) (s : TcpServer) : Finset Nat :=
  (Finset.range s.clients.length).filter fun c => .rejected ∈ eventsOf c es

/-- The connections of which a worker received nothing: they are counted as requests, and have no
    outcome. -/
def emptyReads (config : Config) (es : ServerHistory) (s : TcpServer) : Finset Nat :=
  (Finset.range s.clients.length).filter fun c =>
    .taken ∈ eventsOf c es ∧ (s.client c).received config = some []

/-- What is left of a life behind its `close` has no part in the counters. -/
theorem Fits.imbalance {config : Config} {client : Client} {w : List ConnEvent} {st : Stage}
    (h : Fits config client w st) (hclose : .effect .close ∈ w) :
    (w.map HttpServer.imbalance).sum =
      (if .taken ∈ w ∧ client.received config = some [] then 1 else 0 : Int) -
        if .rejected ∈ w then 1 else 0 := by
  obtain ⟨before, hlife, hw⟩ := h.closed hclose
  have hbefore := hlife.imbalance
  rcases hw with rfl | rfl
  · have htail : ([.effect .close].map HttpServer.imbalance).sum = 0 := rfl
    rw [List.map_append, List.sum_append, htail, Int.add_zero, hbefore]
    simp
  · have htail : ([.effect .close, .left].map HttpServer.imbalance).sum = 0 := rfl
    rw [List.map_append, List.sum_append, htail, Int.add_zero, hbefore]
    simp

/-- **The imbalance of a quiescent server.** -/
theorem totalRequests_sub_outcomes_eq {config : Config} {es : ServerHistory} {s : TcpServer}
    (run : (serverMachine config).Run es s) (hquiet : Quiescent es s) :
    (s.metrics.totalRequests : Int) - s.metrics.outcomes =
      (emptyReads config es s).card - (rejectedConnections es s).card := by
  obtain ⟨st, h⟩ := tracks_of_run run
  have hlives : ∀ c ∈ Finset.range s.clients.length,
      ((eventsOf c es).map imbalance).sum =
        (if .taken ∈ eventsOf c es ∧ (s.client c).received config = some [] then 1 else 0 : Int) -
          if .rejected ∈ eventsOf c es then 1 else 0 := fun c hc =>
    (fits_of_run (h.life c)).imbalance (hquiet.1 c (Finset.mem_range.mp hc))
  rw [totalRequests_sub_outcomes run, h.sum_events imbalance, Finset.sum_congr rfl hlives,
    Finset.sum_sub_distrib, Finset.sum_boole, Finset.sum_boole, emptyReads, rejectedConnections]

/-! ## The theorem -/

/-- **When the request counters balance.**  In every quiescent state of every run, `total_requests`
    is the sum of the three outcome counters exactly when as many connections were answered with a
    503 by the accept loop as were handed to a worker that received nothing. -/
theorem counters_balance_iff (config : Config) {es : ServerHistory} {s : TcpServer}
    (run : (serverMachine config).Run es s) (hquiet : Quiescent es s) :
    s.metrics.totalRequests =
        s.metrics.successfulRequests + s.metrics.clientErrors + s.metrics.serverErrors ↔
      (rejectedConnections es s).card = (emptyReads config es s).card := by
  have himbalance := totalRequests_sub_outcomes_eq run hquiet
  rw [Metrics.outcomes] at himbalance
  omega

/-- The theorem on a run that serves one client and stops. -/
theorem counters_balance_iff_get :
    ∃ (es : ServerHistory) (s : TcpServer), Quiescent es s ∧ s.clients.length = 1 ∧
      (s.metrics.totalRequests =
          s.metrics.successfulRequests + s.metrics.clientErrors + s.metrics.serverErrors ↔
        (rejectedConnections es s).card = (emptyReads { threadCount := 1 } es s).card) := by
  obtain ⟨es, s, run, hquiet, hone⟩ := Machine.exists_run
    (M := serverMachine { threadCount := 1 })
    (acceptOne exampleClient ++ serveOne 8 ++ stopServer)
    (fun es s => Quiescent es s ∧ s.clients.length = 1) (by decide +kernel)
  exact ⟨es, s, hquiet, hone, counters_balance_iff { threadCount := 1 } run hquiet⟩

/-- One client is served and a second one is answered with a 503: `total_requests` is 1, and the
    outcomes are 2. -/
theorem rejected_connection_unbalances :
    ¬ ∀ (config : Config) (es : ServerHistory) (s : TcpServer), (serverMachine config).Run es s →
      Quiescent es s → s.metrics.totalRequests =
        s.metrics.successfulRequests + s.metrics.clientErrors + s.metrics.serverErrors := by
  intro halways
  obtain ⟨es, s, run, hquiet, htotal, hsuccess, herrors⟩ := Machine.exists_run
    (M := serverMachine { threadCount := 1, queueCapacity := 1 }) (rejectSecond ++ serveOne 8)
    (fun es s => Quiescent es s ∧ s.metrics.totalRequests = 1 ∧
      s.metrics.successfulRequests = 1 ∧ s.metrics.serverErrors = 1)
    (by decide +kernel)
  have hbalance := halways _ es s run hquiet
  omega

end HttpServer
