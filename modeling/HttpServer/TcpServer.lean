/-
  The server — `TcpServer::start`, its accept loop and the workers of its pool.

  1. **Data** — `Loop` says where the thread of `start()` is, and which connection it holds; the
     pool is a `ThreadPool` with that thread as its only caller and connections as its tasks; `jobs`
     is what is left of the code that runs for a connection, `sizes` the queue size its
     `handle_client` has read.  A connection is numbered by its `accept`, so a descriptor that is
     reused gets a new number, and `clients` lists what each of them meets.

  2. **Program** — a step is one access to shared data or one call that may block, of the thread of
     `start()` (`checkRunning` to `join`), of worker `i` (`waitAndPop i` to `decrement i`), or of a
     `stop()` in another thread.  `submit` may throw before anything is enqueued.  The task of a
     connection is `handle_client`, which catches every `std::exception`, and so it returns if the
     calls on its socket do.  `accept` blocks: its two outcomes are answers of the system
     (`ServerAction.isAnswer`), and that one of them comes is never taken for granted.

  3. **Events** — what happens to connection `c` is shown as `conn c e`.
-/
import HttpServer.HandleClient
import HttpServer.ThreadPool

namespace HttpServer

/-- Where the thread of `start()` is. -/
inductive Loop
  /-- At the check of `running_`. -/
  | top
  /-- In `accept`, which blocks until the system answers. -/
  | accepting
  /-- Behind `accept`, with connection `c` in hand. -/
  | accepted (c : Nat)
  /-- Behind `connection_opened`. -/
  | opened (c : Nat)
  /-- With the pool's `active_workers()` in hand. -/
  | loaded (c active : Nat)
  | submitting (c : Nat)
  /-- In `submit`, past the check of `stopped_`. -/
  | pushing (c : Nat)
  /-- In the 503 branch. -/
  | rejecting (c : Nat)
  /-- Behind the loop. -/
  | ended
  deriving DecidableEq

/-- The server while `accept_loop()` and what is behind it run: the flag `running_`, where the thread
    of `start()` is, the pool with its queue, what each accepted connection meets (`clients`, by its
    number), what is left of the code that handles it (`jobs`), the queue size that its
    `handle_client` has read (`sizes`), and the global counters. -/
structure TcpServer where
  running : Bool
  loop : Loop
  pool : ThreadPool Unit Nat
  clients : List Client
  jobs : Nat → List Effect
  sizes : Nat → Nat
  metrics : Metrics

/-- What may happen next: a step of the thread of `start()`, of a worker or of a thread that calls
    `stop()`, or what the system answers to a call that is under way. -/
inductive ServerAction
  /-- `stop()` in another thread. -/
  | stop
  /-- `while (running_.load())`. -/
  | checkRunning
  /-- The system lets a pending `accept` return -1. -/
  | acceptFails
  /-- The system lets a pending `accept` return a connection, which will meet `client`. -/
  | accept (client : Client)
  /-- `Metrics::connection_opened()`. -/
  | connectionOpened
  /-- `pool_->active_workers()`. -/
  | loadActiveWorkers
  /-- `Metrics::set_active_workers(…)`. -/
  | storeActiveWorkers
  /-- `submit` up to the check of `stopped_`. -/
  | submit
  /-- `queue_.push(task)`. -/
  | push
  /-- Building or storing the task throws. -/
  | submitThrows
  /-- The next effect of the 503 branch. -/
  | reject
  /-- The end of the loop body behind it. -/
  | rejected
  /-- `pool_->shutdown()` sets `stopped_`. -/
  | shutdown
  /-- `queue_.shutdown()`. -/
  | closeQueue
  /-- The joins of `shutdown()` return. -/
  | join
  /-- `queue_.wait_and_pop()` of worker `i` returns. -/
  | waitAndPop (i : Nat)
  /-- `++active_workers_`. -/
  | increment (i : Nat)
  /-- The next effect of `handle_client`. -/
  | serve (i : Nat)
  /-- `handle_client` returns. -/
  | served (i : Nat)
  /-- `--active_workers_`. -/
  | decrement (i : Nat)

/-- The answers of the system to `accept`: no thread of the server can make one come. -/
def ServerAction.isAnswer : ServerAction → Bool
  | .acceptFails => true
  | .accept _ => true
  | _ => false

/-- What happens to one connection. -/
inductive ConnEvent
  | accepted
  | opened
  /-- `submit` returned true. -/
  | handed
  /-- A worker popped it. -/
  | taken
  /-- The 503 branch is entered. -/
  | rejected
  | effect (e : Effect)
  /-- The code that handled it is done. -/
  | left
  deriving DecidableEq

/-- What a step of the server shows: what happened to which connection, if anything. -/
inductive ServerEvent
  | conn (c : Nat) (e : ConnEvent)
  | quiet

namespace TcpServer

/-- The server when `start()` enters the accept loop. -/
def make (config : Config) : TcpServer where
  running := true
  loop := .top
  pool := .make config.threadCount config.queueCapacity
  clients := []
  jobs _ := []
  sizes _ := 0
  metrics := {}

/-- What connection `c` meets. -/
def client (s : TcpServer) (c : Nat) : Client := s.clients[c]?.getD default

/-- Into the 503 branch. -/
def enterReject (s : TcpServer) (c : Nat) : TcpServer :=
  { s with loop := .rejecting c, jobs := Function.update s.jobs c (rejectClient (s.client c)) }

/-- One effect of the code of connection `c`, with `rest` behind it. -/
def perform (s : TcpServer) (c : Nat) (e : Effect) (rest : List Effect) : TcpServer :=
  { s with
    jobs := Function.update s.jobs c rest
    sizes :=
      if e = .loadQueueSize then Function.update s.sizes c s.pool.queue.queue.length else s.sizes
    metrics := e.apply (s.sizes c) s.metrics }

/-- The next effect of the code of connection `c`, if it has one and it does not block. -/
def runJob (config : Config) (s : TcpServer) (c : Nat) : Option (TcpServer × ServerEvent) :=
  match s.jobs c with
  | [] => none
  | e :: rest =>
    if e.enabled config (s.client c) then some (s.perform c e rest, .conn c (.effect e)) else none

/-- A step of the pool that concerns no connection. -/
def poolStep (s : TcpServer) (a : PoolAction Unit Nat) : Option (TcpServer × ServerEvent) :=
  (s.pool.step a).map fun r => ({ s with pool := r.1 }, .quiet)

/-- `s.step config a` — the server after `a`, and what it shows of it; `none` where `a` cannot happen
    in this state. -/
def step (config : Config) (s : TcpServer) : ServerAction → Option (TcpServer × ServerEvent)
  | .stop => some ({ s with running := false }, .quiet)
  | .checkRunning =>
    match s.loop with
    | .top => some ({ s with loop := if s.running then .accepting else .ended }, .quiet)
    | _ => none
  | .acceptFails =>
    match s.loop with
    | .accepting => some ({ s with loop := if s.running then .top else .ended }, .quiet)
    | _ => none
  | .accept client =>
    match s.loop with
    | .accepting =>
      let c := s.clients.length
      some ({ s with loop := .accepted c, clients := s.clients ++ [client] }, .conn c .accepted)
    | _ => none
  | .connectionOpened =>
    match s.loop with
    | .accepted c =>
      some ({ s with loop := .opened c, metrics := s.metrics.connectionOpened }, .conn c .opened)
    | _ => none
  | .loadActiveWorkers =>
    match s.loop with
    | .opened c => some ({ s with loop := .loaded c s.pool.activeWorkers }, .quiet)
    | _ => none
  | .storeActiveWorkers =>
    match s.loop with
    | .loaded c active =>
      some ({ s with loop := .submitting c, metrics := s.metrics.setActiveWorkers active }, .quiet)
    | _ => none
  | .submit =>
    match s.loop with
    | .submitting c =>
      match s.pool.step (.submit () c) with
      -- `stopped_` was set, and `submit` returned false
      | some (pool, .submitted _ _) =>
        some ({ s with pool := pool }.enterReject c, .conn c .rejected)
      | some (pool, _) => some ({ s with pool := pool, loop := .pushing c }, .quiet)
      | none => none
    | _ => none
  | .push =>
    match s.loop with
    | .pushing c =>
      match s.pool.step (.push ()) with
      -- the worker owns the connection from here on
      | some (pool, .submitted _ true) =>
        some ({ s with pool := pool, loop := .top }, .conn c .handed)
      | some (pool, _) => some ({ s with pool := pool }.enterReject c, .conn c .rejected)
      | none => none
    | _ => none
  | .submitThrows =>
    match s.loop with
    | .submitting c => some (s.enterReject c, .conn c .rejected)
    | .pushing c =>
      some ({ s with pool := s.pool.setCaller () .idle }.enterReject c, .conn c .rejected)
    | _ => none
  | .reject =>
    match s.loop with
    | .rejecting c => s.runJob config c
    | _ => none
  | .rejected =>
    match s.loop with
    | .rejecting c => if s.jobs c = [] then some ({ s with loop := .top }, .conn c .left) else none
    | _ => none
  | .shutdown => if s.loop = .ended then s.poolStep (.shutdown ()) else none
  | .closeQueue => if s.loop = .ended then s.poolStep (.closeQueue ()) else none
  | .join => if s.loop = .ended then s.poolStep (.join ()) else none
  | .waitAndPop i =>
    match s.pool.step (.waitAndPop i) with
    | some (pool, .taken c) =>
      let job := handleClient config (s.client c)
      some ({ s with pool := pool, jobs := Function.update s.jobs c job }, .conn c .taken)
    | some (pool, _) => some ({ s with pool := pool }, .quiet)
    | none => none
  | .increment i => s.poolStep (.increment i)
  | .serve i =>
    match s.pool.workers[i]? with
    | some (.running c) => s.runJob config c
    | _ => none
  | .served i =>
    -- `handle_client` catches what its handler throws, so the task returns
    match s.pool.step (.run i .returned) with
    | some (pool, .executed c _) =>
      if s.jobs c = [] then some ({ s with pool := pool }, .conn c .left) else none
    | _ => none
  | .decrement i => s.poolStep (.decrement i)

/-! ## What a step can do -/

/-- `Step config s a s' e` — the outcomes of a step; those of the pool are in `ThreadPool.Step`. -/
inductive Step (config : Config) (s : TcpServer) :
    ServerAction → TcpServer → ServerEvent → Prop
  | stop : Step config s .stop { s with running := false } .quiet
  | checkRunning (loop : s.loop = .top) :
      Step config s .checkRunning { s with loop := if s.running then .accepting else .ended } .quiet
  | acceptFails (loop : s.loop = .accepting) :
      Step config s .acceptFails { s with loop := if s.running then .top else .ended } .quiet
  | accept {client} (loop : s.loop = .accepting) :
      Step config s (.accept client)
        { s with loop := .accepted s.clients.length, clients := s.clients ++ [client] }
        (.conn s.clients.length .accepted)
  | connectionOpened {c} (loop : s.loop = .accepted c) :
      Step config s .connectionOpened
        { s with loop := .opened c, metrics := s.metrics.connectionOpened } (.conn c .opened)
  | loadActiveWorkers {c} (loop : s.loop = .opened c) :
      Step config s .loadActiveWorkers { s with loop := .loaded c s.pool.activeWorkers } .quiet
  | storeActiveWorkers {c active} (loop : s.loop = .loaded c active) :
      Step config s .storeActiveWorkers
        { s with loop := .submitting c, metrics := s.metrics.setActiveWorkers active } .quiet
  | submitRefused {c pool task ok} (loop : s.loop = .submitting c)
      (step : s.pool.Step (.submit () c) pool (.submitted task ok)) :
      Step config s .submit ({ s with pool := pool }.enterReject c) (.conn c .rejected)
  | submitChecked {c pool} (loop : s.loop = .submitting c)
      (step : s.pool.Step (.submit () c) pool .quiet) :
      Step config s .submit { s with pool := pool, loop := .pushing c } .quiet
  | pushRefused {c pool task} (loop : s.loop = .pushing c)
      (step : s.pool.Step (.push ()) pool (.submitted task false)) :
      Step config s .push ({ s with pool := pool }.enterReject c) (.conn c .rejected)
  | pushed {c pool task} (loop : s.loop = .pushing c)
      (step : s.pool.Step (.push ()) pool (.submitted task true)) :
      Step config s .push { s with pool := pool, loop := .top } (.conn c .handed)
  | throwsEarly {c} (loop : s.loop = .submitting c) :
      Step config s .submitThrows (s.enterReject c) (.conn c .rejected)
  | throwsLate {c} (loop : s.loop = .pushing c) :
      Step config s .submitThrows ({ s with pool := s.pool.setCaller () .idle }.enterReject c)
        (.conn c .rejected)
  | reject {c e rest} (loop : s.loop = .rejecting c) (job : s.jobs c = e :: rest)
      (enabled : e.enabled config (s.client c) = true) :
      Step config s .reject (s.perform c e rest) (.conn c (.effect e))
  | rejected {c} (loop : s.loop = .rejecting c) (job : s.jobs c = []) :
      Step config s .rejected { s with loop := .top } (.conn c .left)
  | closing {a pa pool e} (loop : s.loop = .ended)
      (action : (a, pa) ∈ [(.shutdown, .shutdown ()), (.closeQueue, .closeQueue ()),
        (.join, .join ())]) (step : s.pool.Step pa pool e) :
      Step config s a { s with pool := pool } .quiet
  | exit {i pool} (step : s.pool.Step (.waitAndPop i) pool .exited) :
      Step config s (.waitAndPop i) { s with pool := pool } .quiet
  | take {i c pool} (step : s.pool.Step (.waitAndPop i) pool (.taken c)) :
      Step config s (.waitAndPop i)
        { s with
          pool := pool
          jobs := Function.update s.jobs c (handleClient config (s.client c)) }
        (.conn c .taken)
  | increment {i pool e} (step : s.pool.Step (.increment i) pool e) :
      Step config s (.increment i) { s with pool := pool } .quiet
  | serve {i c e rest} (worker : s.pool.workers[i]? = some (.running c))
      (job : s.jobs c = e :: rest) (enabled : e.enabled config (s.client c) = true) :
      Step config s (.serve i) (s.perform c e rest) (.conn c (.effect e))
  | served {i c pool outcome} (step : s.pool.Step (.run i .returned) pool (.executed c outcome))
      (job : s.jobs c = []) :
      Step config s (.served i) { s with pool := pool } (.conn c .left)
  | decrement {i pool e} (step : s.pool.Step (.decrement i) pool e) :
      Step config s (.decrement i) { s with pool := pool } .quiet

theorem runJob_inv {config : Config} {s s' : TcpServer} {c : Nat} {ev : ServerEvent}
    (h : s.runJob config c = some (s', ev)) :
    ∃ e rest, s.jobs c = e :: rest ∧ e.enabled config (s.client c) = true ∧
      s' = s.perform c e rest ∧ ev = .conn c (.effect e) := by
  rw [runJob] at h
  cases hj : s.jobs c with
  | nil => simp [hj] at h
  | cons e rest =>
    simp only [hj] at h
    split at h
    · rename_i henabled
      cases h
      exact ⟨e, rest, rfl, henabled, rfl, rfl⟩
    · cases h

theorem poolStep_inv {s s' : TcpServer} {a : PoolAction Unit Nat} {ev : ServerEvent}
    (h : s.poolStep a = some (s', ev)) :
    ∃ pool e, s.pool.Step a pool e ∧ s' = { s with pool := pool } ∧ ev = .quiet := by
  simp only [poolStep, Option.map_eq_some_iff] at h
  obtain ⟨⟨pool, e⟩, hstep, heq⟩ := h
  cases heq
  exact ⟨pool, e, ThreadPool.step_inv hstep, rfl, rfl⟩

/-- **Every step has one of these outcomes.** -/
theorem step_inv {config : Config} {s s' : TcpServer} {a : ServerAction} {ev : ServerEvent}
    (h : s.step config a = some (s', ev)) : Step config s a s' ev := by
  cases a with
  | stop =>
    cases h
    exact Step.stop
  | checkRunning =>
    simp only [step] at h
    split at h
    · rename_i hloop
      cases h
      exact Step.checkRunning hloop
    · cases h
  | acceptFails =>
    simp only [step] at h
    split at h
    · rename_i hloop
      cases h
      exact Step.acceptFails hloop
    · cases h
  | accept client =>
    simp only [step] at h
    split at h
    · rename_i hloop
      cases h
      exact Step.accept hloop
    · cases h
  | connectionOpened =>
    simp only [step] at h
    split at h
    · rename_i hloop
      cases h
      exact Step.connectionOpened hloop
    · cases h
  | loadActiveWorkers =>
    simp only [step] at h
    split at h
    · rename_i hloop
      cases h
      exact Step.loadActiveWorkers hloop
    · cases h
  | storeActiveWorkers =>
    simp only [step] at h
    split at h
    · rename_i hloop
      cases h
      exact Step.storeActiveWorkers hloop
    · cases h
  | submit =>
    simp only [step] at h
    split at h
    · rename_i c hloop
      cases hpool : s.pool.step (.submit () c) with
      | none => simp [hpool] at h
      | some r =>
        obtain ⟨pool, e⟩ := r
        have hstep := ThreadPool.step_inv hpool
        rw [hpool] at h
        cases hstep with
        | submitStopped caller stopped =>
          cases h
          exact Step.submitRefused hloop (.submitStopped caller stopped)
        | submitChecked caller running =>
          cases h
          exact Step.submitChecked hloop (.submitChecked caller running)
    · cases h
  | push =>
    simp only [step] at h
    split at h
    · rename_i c hloop
      cases hpool : s.pool.step (.push ()) with
      | none => simp [hpool] at h
      | some r =>
        obtain ⟨pool, e⟩ := r
        have hstep := ThreadPool.step_inv hpool
        rw [hpool] at h
        cases hstep with
        | pushFull caller full =>
          cases h
          exact Step.pushRefused hloop (.pushFull caller full)
        | pushRoom caller room =>
          cases h
          exact Step.pushed hloop (.pushRoom caller room)
    · cases h
  | submitThrows =>
    simp only [step] at h
    split at h
    · rename_i hloop
      cases h
      exact Step.throwsEarly hloop
    · rename_i hloop
      cases h
      exact Step.throwsLate hloop
    · cases h
  | reject =>
    simp only [step] at h
    split at h
    · rename_i hloop
      obtain ⟨e, rest, hjob, henabled, rfl, rfl⟩ := runJob_inv h
      exact Step.reject hloop hjob henabled
    · cases h
  | rejected =>
    simp only [step] at h
    split at h
    · rename_i hloop
      split at h
      · rename_i hjob
        cases h
        exact Step.rejected hloop hjob
      · cases h
    · cases h
  | shutdown =>
    simp only [step] at h
    split at h
    · rename_i hloop
      obtain ⟨pool, e, hstep, rfl, rfl⟩ := poolStep_inv h
      exact Step.closing hloop (by simp) hstep
    · cases h
  | closeQueue =>
    simp only [step] at h
    split at h
    · rename_i hloop
      obtain ⟨pool, e, hstep, rfl, rfl⟩ := poolStep_inv h
      exact Step.closing hloop (by simp) hstep
    · cases h
  | join =>
    simp only [step] at h
    split at h
    · rename_i hloop
      obtain ⟨pool, e, hstep, rfl, rfl⟩ := poolStep_inv h
      exact Step.closing hloop (by simp) hstep
    · cases h
  | waitAndPop i =>
    simp only [step] at h
    cases hpool : s.pool.step (.waitAndPop i) with
    | none => simp [hpool] at h
    | some r =>
      obtain ⟨pool, e⟩ := r
      have hstep := ThreadPool.step_inv hpool
      rw [hpool] at h
      cases hstep with
      | exit worker empty closed =>
        cases h
        exact Step.exit (.exit worker empty closed)
      | pop worker front =>
        cases h
        exact Step.take (.pop worker front)
  | increment i =>
    obtain ⟨pool, e, hstep, rfl, rfl⟩ := poolStep_inv h
    exact Step.increment hstep
  | serve i =>
    simp only [step] at h
    split at h
    · rename_i hworker
      obtain ⟨e, rest, hjob, henabled, rfl, rfl⟩ := runJob_inv h
      exact Step.serve hworker hjob henabled
    · cases h
  | served i =>
    simp only [step] at h
    split at h
    · rename_i hpool
      split at h
      · rename_i hjob
        cases h
        exact Step.served (ThreadPool.step_inv hpool) hjob
      · cases h
    · cases h
  | decrement i =>
    obtain ⟨pool, e, hstep, rfl, rfl⟩ := poolStep_inv h
    exact Step.decrement hstep

end TcpServer

/-- The server from the start of its accept loop on. -/
def serverMachine (config : Config) : Machine TcpServer ServerAction ServerEvent where
  init := .make config
  step := TcpServer.step config

end HttpServer
