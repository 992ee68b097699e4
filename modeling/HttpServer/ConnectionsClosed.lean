/-
  Every connection is answered at most once and closed once — and the gauge of open connections is
  exact.

  1. **Specification** — on the history of one connection (`OneLife`): it is handed to a worker or
     to the 503 branch and never to both, at most one response is passed to `send_all`, and a
     `close` has all of that before it and no effect behind it.  The response is missing in one case
     only, where a worker's `recv_request` came back empty; the 503 branch never looks at what the
     client sent.

  2. **The gauge** — `activeConnections` counts the `connection_opened` less the
     `connection_closed` of the whole history (`activeConnections_eq`), and summed up connection by
     connection that is the number of those opened and not closed (`openConnections`).

  3. **At rest** — a state behind the loop in which the queue is empty and no worker holds a task
     has no connection in any place, so all of them are done.
-/
import HttpServer.LifecycleRefinement
import Mathlib.Algebra.BigOperators.Ring.Finset

namespace HttpServer

/-! ## One connection -/

/-- What holds of the history `w` of one connection at any time: it is handed over or rejected once
    at most, answered once at most, and closed once at most, behind all that is done with it. -/
structure OneLife (config : Config) (client : Client) (w : List ConnEvent) : Prop where
  handed : w.count .handed + w.count .rejected ≤ 1
  taken : w.count .taken + w.count .rejected ≤ 1
  answered : (responses w).length ≤ 1
  closed : .effect .close ∈ w → ∃ before,
    (w = before ++ [.effect .close] ∨ w = before ++ [.effect .close, .left]) ∧
      .effect .close ∉ before ∧ before.count .taken + before.count .rejected = 1 ∧
        (responses before).length =
          if .taken ∈ before ∧ client.received config = some [] then 0 else 1

/-- A part of a whole life, or of the life of a connection that waits in `recv_request`, holds each
    of these at most once. -/
theorem Fits.counts_le {config : Config} {client : Client} {w : List ConnEvent} {st : Stage}
    (h : Fits config client w st) :
    w.count .opened ≤ 1 ∧ w.count .handed + w.count .rejected ≤ 1 ∧
      w.count .taken + w.count .rejected ≤ 1 ∧ (responses w).length ≤ 1 := by
  have hle : ∀ {l : List ConnEvent}, w <+: l → (∀ e, w.count e ≤ l.count e) ∧
      (responses w).length ≤ (responses l).length := fun hpre =>
    ⟨hpre.sublist.count_le, (hpre.sublist.filterMap sentData).length_le⟩
  rcases h.isPrefix with hpre | ⟨before, hlife, hpre⟩
  · obtain ⟨hcount, hresponses⟩ := hle hpre
    have hopened : w.count .opened ≤ 1 := hcount .opened
    have hhanded : w.count .handed ≤ 1 := hcount .handed
    have htaken : w.count .taken ≤ 1 := hcount .taken
    have hrejected : w.count .rejected ≤ 0 := hcount .rejected
    have hnone : (responses w).length ≤ 0 := hresponses
    omega
  · obtain ⟨hcount, hresponses⟩ := hle hpre
    have hopened := hcount .opened
    have hhanded := hcount .handed
    have htaken := hcount .taken
    have hrejected := hcount .rejected
    have hone : (responses before).length ≤ 1 := by
      rw [hlife.responses]
      split <;> omega
    rw [List.count_append] at hopened hhanded htaken hrejected
    have htail : responses [.effect .close, .left] = [] := rfl
    rw [responses, responses, List.filterMap_append, ← responses, ← responses, ← responses, htail,
      List.append_nil] at hresponses
    have hsum := hlife.handler
    have hopen := hlife.opened
    have hsame := hlife.handed
    simp at hopened hhanded htaken hrejected
    omega

theorem Fits.oneLife {config : Config} {client : Client} {w : List ConnEvent} {st : Stage}
    (h : Fits config client w st) : OneLife config client w where
  handed := h.counts_le.2.1
  taken := h.counts_le.2.2.1
  answered := h.counts_le.2.2.2
  closed hclose := by
    obtain ⟨before, hlife, hw⟩ := h.closed hclose
    exact ⟨before, hw, hlife.noClose, hlife.handler, hlife.responses⟩

/-- A closed connection was closed once. -/
theorem Fits.count_close {config : Config} {client : Client} {w : List ConnEvent} {st : Stage}
    (h : Fits config client w st) (hclose : .effect .close ∈ w) :
    w.count (.effect .close) = 1 := by
  obtain ⟨before, hlife, hw⟩ := h.closed hclose
  have hbefore : before.count (.effect .close) = 0 := List.count_eq_zero.mpr hlife.noClose
  rcases hw with rfl | rfl <;> rw [List.count_append, hbefore] <;> rfl

/-- `connection_opened` and `connection_closed` of one connection. -/
theorem Fits.count_opened {config : Config} {client : Client} {w : List ConnEvent} {st : Stage}
    (h : Fits config client w st) :
    w.count .opened =
      (if .opened ∈ w ∧ .effect .close ∉ w then 1 else 0) + w.count (.effect .close) := by
  by_cases hclose : .effect .close ∈ w
  · obtain ⟨before, hlife, hw⟩ := h.closed hclose
    have hopened : w.count .opened = 1 := by
      have hone := hlife.opened
      rcases hw with rfl | rfl <;> rw [List.count_append, hone] <;> rfl
    rw [h.count_close hclose, hopened, if_neg (fun hc => hc.2 hclose)]
  · rw [List.count_eq_zero.mpr hclose, Nat.add_zero]
    by_cases hopened : .opened ∈ w
    · have hpos := List.count_pos_iff.mpr hopened
      have hle := h.counts_le.1
      rw [if_pos ⟨hopened, hclose⟩]
      omega
    · rw [if_neg (fun hc => hopened hc.1), List.count_eq_zero.mpr hopened]

/-! ## The gauge -/

/-- What a step does to the counters, by its event. -/
theorem TcpServer.Step.metrics_eq {config : Config} {s s' : TcpServer} {a : ServerAction}
    {ev : ServerEvent} (h : TcpServer.Step config s a s' ev) :
    match ev with
    | .conn _ .opened => s'.metrics = s.metrics.connectionOpened
    | .conn c (.effect e) => s'.metrics = e.apply (s.sizes c) s.metrics
    | .conn _ _ => s'.metrics = s.metrics
    | .quiet =>
      ∃ active, s'.metrics = s.metrics ∨ s'.metrics = s.metrics.setActiveWorkers active := by
  cases h with
  | connectionOpened loop => rfl
  | reject loop job enabled => rfl
  | serve worker job enabled => rfl
  | storeActiveWorkers loop => exact ⟨_, Or.inr rfl⟩
  | stop => exact ⟨0, Or.inl rfl⟩
  | checkRunning loop => exact ⟨0, Or.inl rfl⟩
  | acceptFails loop => exact ⟨0, Or.inl rfl⟩
  | loadActiveWorkers loop => exact ⟨0, Or.inl rfl⟩
  | submitChecked loop step => exact ⟨0, Or.inl rfl⟩
  | closing loop action step => exact ⟨0, Or.inl rfl⟩
  | exit step => exact ⟨0, Or.inl rfl⟩
  | increment step => exact ⟨0, Or.inl rfl⟩
  | decrement step => exact ⟨0, Or.inl rfl⟩
  | _ => rfl

/-- A quantity of the counters that every step changes by the weight of its event is the weight of
    the whole history. -/
theorem metric_eq_sum {config : Config} {f : Metrics → Int} {weight : ConnEvent → Int}
    (hinit : f {} = 0) (hopened : ∀ m : Metrics, f m.connectionOpened = f m + weight .opened)
    (heffect : ∀ e size m, f (Effect.apply size e m) = f m + weight (.effect e))
    (hother : ∀ ev, ev ≠ .opened → (∀ e, ev ≠ .effect e) → weight ev = 0)
    (hactive : ∀ (m : Metrics) n, f (m.setActiveWorkers n) = f m) {es : ServerHistory}
    {s : TcpServer} (run : (serverMachine config).Run es s) :
    f s.metrics = ((connHistory es).map fun x => weight x.2).sum := by
  induction run with
  | nil => exact hinit
  | @snoc es s a s' ev _ hstep ih =>
    have hmetrics := (TcpServer.step_inv hstep).metrics_eq
    cases ev with
    | quiet =>
      obtain ⟨active, heq | heq⟩ := hmetrics
      · rw [connHistory_snoc_quiet, heq, ih]
      · rw [connHistory_snoc_quiet, heq, hactive, ih]
    | conn c e =>
      rw [connHistory_snoc_conn, List.map_append, List.sum_append, ← ih, List.map_singleton,
        List.sum_singleton]
      cases e with
      | opened => rw [show s'.metrics = _ from hmetrics, hopened]
      | effect e => rw [show s'.metrics = _ from hmetrics, heffect]
      | _ =>
        rw [show s'.metrics = s.metrics from hmetrics,
          hother _ (by simp) (by simp), Int.add_zero]

/-- What an event does to `active_connections_`: one up at `connection_opened`, one down at the
    close. -/
def gauge (ev : ConnEvent) : Int :=
  (if ev == .opened then 1 else 0) - if ev == .effect .close then 1 else 0

/-- The gauge goes up at every `connection_opened` and down at every `connection_closed`. -/
theorem activeConnections_eq {config : Config} {es : ServerHistory} {s : TcpServer}
    (run : (serverMachine config).Run es s) :
    s.metrics.activeConnections = ((connHistory es).map fun x => gauge x.2).sum := by
  refine metric_eq_sum (f := Metrics.activeConnections) rfl (fun _ => rfl) ?_ ?_
    (fun _ _ => rfl) run
  · intro e size m
    cases e with
    | close => rfl
    | _ => exact (Int.add_zero _).symm
  · intro ev hopened heffect
    simp [gauge, hopened, heffect .close]

/-- The connections that `connection_opened` has registered and that are still open. -/
def openConnections (es : ServerHistory) (s : TcpServer) : Finset Nat :=
  (Finset.range s.clients.length).filter fun c =>
    .opened ∈ eventsOf c es ∧ .effect .close ∉ eventsOf c es

/-- Events concern connections that were accepted. -/
theorem Tracks.key_lt {config : Config} {es : ServerHistory} {s : TcpServer} {st : Nat → Stage}
    (h : Tracks config es s st) {x : Nat × ConnEvent} (hx : x ∈ connHistory es) :
    x.1 ∈ Finset.range s.clients.length := by
  rw [Finset.mem_range]
  refine h.lt_of_ne_fresh fun hfresh => ?_
  have hbehind := (fits_of_run (h.life x.1)).behind
  rw [hfresh] at hbehind
  have hmem : x.2 ∈ eventsOf x.1 es := KeyedHistory.mem_ofKey.mpr hx
  rw [show eventsOf x.1 es = [] from hbehind] at hmem
  exact absurd hmem List.not_mem_nil

/-- The weight of a history, connection by connection. -/
theorem Tracks.sum_events {config : Config} {es : ServerHistory} {s : TcpServer}
    {st : Nat → Stage} (h : Tracks config es s st) (weight : ConnEvent → Int) :
    ((connHistory es).map fun x => weight x.2).sum =
      ∑ c ∈ Finset.range s.clients.length, ((eventsOf c es).map weight).sum :=
  KeyedHistory.sum_map_eq_sum weight fun _ hx => h.key_lt hx

/-- **The gauge is exact.** -/
theorem activeConnections_eq_card {config : Config} {es : ServerHistory} {s : TcpServer}
    (run : (serverMachine config).Run es s) :
    s.metrics.activeConnections = (openConnections es s).card := by
  obtain ⟨st, h⟩ := tracks_of_run run
  have hopen : ∀ c ∈ Finset.range s.clients.length, ((eventsOf c es).map gauge).sum =
      if .opened ∈ eventsOf c es ∧ .effect .close ∉ eventsOf c es then 1 else 0 := by
    intro c _
    have hcount := (fits_of_run (h.life c)).count_opened
    have hgauge : ((eventsOf c es).map gauge).sum =
        ((eventsOf c es).count .opened : Int) - (eventsOf c es).count (.effect .close) :=
      KeyedHistory.sum_map_indicator_sub (· == ConnEvent.opened) (· == ConnEvent.effect .close) _
    rw [hgauge, hcount]
    split <;> push_cast <;> omega
  rw [activeConnections_eq run, h.sum_events gauge, Finset.sum_congr rfl hopen, Finset.sum_boole,
    openConnections]

/-! ## At rest -/

/-- The loop has ended, and the pool is drained: nothing waits in its queue, and no worker has a
    connection. -/
def AtRest (s : TcpServer) : Prop :=
  s.loop = .ended ∧ s.pool.queue.queue = [] ∧ s.pool.heldTasks = []

instance (s : TcpServer) : Decidable (AtRest s) := inferInstanceAs (Decidable (_ ∧ _ ∧ _))

/-- A server at rest has closed every connection. -/
theorem close_mem_of_atRest {config : Config} {es : ServerHistory} {s : TcpServer}
    (run : (serverMachine config).Run es s) (hrest : AtRest s) {c : Nat}
    (hc : c < s.clients.length) : .effect .close ∈ eventsOf c es := by
  obtain ⟨st, h⟩ := tracks_of_run run
  obtain ⟨hloop, hqueue, hheld⟩ := hrest
  have hfits := fits_of_run (h.life c)
  have hnotloop : (st c).inLoop = false := by
    by_contra hin
    have hholds := (h.loop c (st c)).mpr ⟨rfl, by simpa using hin⟩
    rw [hloop] at hholds
    cases hholds
  have hnotqueued : (st c).isQueued = false := by
    have hcount := h.queue c
    rw [hqueue, List.count_nil] at hcount
    cases hq : (st c).isQueued with
    | false => rfl
    | true => simp [hq] at hcount
  have hnotserving : (st c).isServing = false := by
    have hcount := h.held c
    rw [hheld, List.count_nil] at hcount
    cases hs : (st c).isServing with
    | false => rfl
    | true => simp [hs] at hcount
  have hnotfresh : st c ≠ .fresh := fun hfresh => absurd ((h.fresh c).mp hfresh) (Nat.not_le.mpr hc)
  -- no place is left but the end
  have hdone : st c = .done := by
    cases hst : st c with
    | done => rfl
    | fresh => exact absurd hst hnotfresh
    | accepted => rw [hst] at hnotloop; cases hnotloop
    | opened => rw [hst] at hnotloop; cases hnotloop
    | rejecting rest => rw [hst] at hnotloop; cases hnotloop
    | queued => rw [hst] at hnotqueued; cases hnotqueued
    | serving rest => rw [hst] at hnotserving; cases hnotserving
  rw [hdone] at hfits
  exact hfits.close_mem_of_done

/-! ## The theorem -/

/-- **Each accepted connection is answered at most once and closed exactly once.**  For every run of
    the accept loop and the workers: the history of every connection is one life; the gauge is the
    number of the connections registered and still open, and so never negative; and at rest every
    connection has been closed, once, and the gauge is 0. -/
theorem connections_one_life (config : Config) {es : ServerHistory} {s : TcpServer}
    (run : (serverMachine config).Run es s) :
    (∀ c < s.clients.length, OneLife config (s.client c) (eventsOf c es)) ∧
      s.metrics.activeConnections = (openConnections es s).card ∧
        0 ≤ s.metrics.activeConnections ∧
          (AtRest s → s.metrics.activeConnections = 0 ∧
            ∀ c < s.clients.length, (eventsOf c es).count (.effect .close) = 1) := by
  obtain ⟨st, h⟩ := tracks_of_run run
  have hgauge := activeConnections_eq_card run
  refine ⟨fun c _ => (fits_of_run (h.life c)).oneLife, hgauge, ?_, fun hrest => ⟨?_, ?_⟩⟩
  · rw [hgauge]
    exact Int.natCast_nonneg _
  · have hnone : openConnections es s = ∅ := by
      refine Finset.filter_eq_empty_iff.mpr fun c hc hopen => hopen.2 ?_
      exact close_mem_of_atRest run hrest (Finset.mem_range.mp hc)
    rw [hgauge, hnone]
    rfl
  · intro c hc
    exact (fits_of_run (h.life c)).count_close (close_mem_of_atRest run hrest hc)

/-- A client that asks for a page and gets it. -/
def exampleClient : Client where
  recvScript := [.data ⟨str "GET / HTTP/1.1\r\n\r\n", by decide, by decide⟩]
  sendScript := [.sent 85 (by decide)]
  handle _ := .ok (HttpResponse.okResponse (str "hi") (str "text/plain"))
  iter := .entries

/-- A client that connects, sends nothing and closes its end. -/
def silentClient : Client where
  recvScript := [.eof]
  sendScript := [.sent 136 (by decide)]
  handle _ := .error []
  iter := .entries

/-- The accept loop, up to the push, for one client. -/
def acceptOne (client : Client) : List ServerAction :=
  [.checkRunning, .accept client, .connectionOpened, .loadActiveWorkers, .storeActiveWorkers,
    .submit, .push]

/-- Worker 0 serves one connection with so many effects. -/
def serveOne (effects : Nat) : List ServerAction :=
  [.waitAndPop 0, .increment 0] ++ List.replicate effects (.serve 0) ++ [.served 0, .decrement 0]

/-- The end of the server, from the top of its loop. -/
def stopServer : List ServerAction :=
  [.stop, .checkRunning, .shutdown, .closeQueue, .waitAndPop 0, .join]

/-- The theorem on a run that serves one client and stops. -/
theorem connections_one_life_get :
    ∃ (es : ServerHistory) (s : TcpServer), s.clients.length = 1 ∧ AtRest s ∧
      (∀ c < s.clients.length,
        OneLife { threadCount := 1 } (s.client c) (eventsOf c es)) ∧
        s.metrics.activeConnections = 0 := by
  obtain ⟨es, s, run, hone, hrest⟩ := Machine.exists_run
    (M := serverMachine { threadCount := 1 })
    (acceptOne exampleClient ++ serveOne 8 ++ stopServer)
    (fun _ s => s.clients.length = 1 ∧ AtRest s) (by decide +kernel)
  obtain ⟨hlife, -, -, hend⟩ := connections_one_life { threadCount := 1 } run
  exact ⟨es, s, hone, hrest, hlife, (hend hrest).1⟩

/-- The client sent no byte. -/
def Client.silent (client : Client) : Bool :=
  client.recvScript.all fun
    | .data _ => false
    | _ => true

/-- A second client that comes while the queue is full. -/
def rejectSecond : List ServerAction :=
  acceptOne exampleClient ++ acceptOne silentClient ++ List.replicate 4 .reject ++ [.rejected]

/-- A queue of one place that is taken: the accept loop answers a client that sent no byte with a
    503. -/
theorem silent_client_gets_503 :
    ¬ ∀ (config : Config) (es : ServerHistory) (s : TcpServer), (serverMachine config).Run es s →
      ∀ c < s.clients.length, .effect .close ∈ eventsOf c es →
        (responses (eventsOf c es)).length = if (s.client c).silent then 0 else 1 := by
  intro halways
  obtain ⟨es, s, run, hone, hsilent, hclose, hsent⟩ := Machine.exists_run
    (M := serverMachine { threadCount := 1, queueCapacity := 1 }) rejectSecond
    (fun es s => 1 < s.clients.length ∧ (s.client 1).silent = true ∧
      .effect .close ∈ eventsOf 1 es ∧ (responses (eventsOf 1 es)).length = 1)
    (by decide +kernel)
  have hnone := halways _ es s run 1 hone hclose
  rw [hsent, hsilent] at hnone
  cases hnone

end HttpServer
