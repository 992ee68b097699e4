/-
  What the clients can make the server hold — open sockets, queued connections, request buffers.

  1. **Places** — a connection that is accepted and not closed is in the hands of the thread of
     `start()`, in the queue, or in the hands of a worker; so there are no more of them than places
     (`openSockets_subset`).

  2. **Gauges** — `active_connections` is the number of those that are registered, and the peak never
     exceeds what `active_connections` has been.

  3. **Buffers** — only a connection in the hands of a worker has a request buffer, and each buffer is
     bounded by the two limits of the configuration.
-/
import HttpServer.ServerPool
import HttpServer.ConnectionsClosed
import HttpServer.BufferBound

namespace HttpServer

open TcpServer (Step)

variable {config : Config} {es : ServerHistory} {s s' : TcpServer} {a : ServerAction}
  {ev : ServerEvent} {st : Nat → Stage}

/-! ## Places -/

/-- The connections that were accepted and are not closed: for each the process holds a
    descriptor. -/
def openSockets (es : ServerHistory) (s : TcpServer) : Finset Nat :=
  (Finset.range s.clients.length).filter fun c => .effect .close ∉ eventsOf c es

/-- The connections with a place in the server: with the thread of `start()`, in the queue, or with
    a worker. -/
def places (s : TcpServer) : List Nat :=
  ((s.loop.holds s.jobs).map Prod.fst).toList ++ (s.pool.queue.queue ++ s.pool.heldTasks)

/-- **An open socket has a place.** -/
theorem openSockets_subset (h : Tracks config es s st) : openSockets es s ⊆ (places s).toFinset := by
  intro c hc
  obtain ⟨hrange, hopen⟩ := Finset.mem_filter.mp hc
  have hfits := fits_of_run (h.life c)
  have hnotfresh : st c ≠ .fresh := fun hfresh =>
    absurd ((h.fresh c).mp hfresh) (Nat.not_le.mpr (Finset.mem_range.mp hrange))
  have hloop : (st c).inLoop = true → c ∈ ((s.loop.holds s.jobs).map Prod.fst).toList := by
    intro hin
    rw [(h.loop c (st c)).mpr ⟨rfl, hin⟩]
    exact List.mem_singleton_self c
  rw [List.mem_toFinset, places, List.mem_append, List.mem_append]
  cases hst : st c with
  | fresh => exact absurd hst hnotfresh
  | accepted => exact Or.inl (hloop (by rw [hst]; rfl))
  | opened => exact Or.inl (hloop (by rw [hst]; rfl))
  | rejecting rest => exact Or.inl (hloop (by rw [hst]; rfl))
  | queued =>
    refine Or.inr (Or.inl (List.count_pos_iff.mp ?_))
    rw [h.queue c, hst]
    exact Nat.zero_lt_one
  | serving rest =>
    refine Or.inr (Or.inr (List.count_pos_iff.mp ?_))
    rw [h.held c, hst]
    exact Nat.zero_lt_one
  | done =>
    rw [hst] at hfits
    exact absurd hfits.close_mem_of_done hopen

/-- A worker has one connection at most. -/
theorem length_heldTasks_le (pool : ThreadPool Unit Nat) :
    pool.heldTasks.length ≤ pool.workers.length := by
  unfold ThreadPool.heldTasks
  induction pool.workers with
  | nil => exact Nat.le_refl 0
  | cons w workers ih =>
    have hone : w.held.length ≤ 1 := by
      cases w <;> simp [Worker.held]
    rw [List.flatMap_cons, List.length_append, List.length_cons]
    omega

/-- The room of a server: one connection in the accept loop, those in the queue, one a worker. -/
def Config.room (config : Config) : Nat :=
  config.queueCapacity + ThreadPool.workerCount config.threadCount + 1

theorem length_places_le (run : (serverMachine config).Run es s) :
    (places s).length ≤ config.room := by
  have hserves := (inOrder_of_run run).serves
  have hroom := hserves.room
  have hheld := length_heldTasks_le s.pool
  have hloop : ((s.loop.holds s.jobs).map Prod.fst).toList.length ≤ 1 := by
    cases s.loop.holds s.jobs <;> simp
  rw [hserves.count] at hheld
  rw [places, List.length_append, List.length_append, Config.room]
  omega

theorem card_openSockets_le (run : (serverMachine config).Run es s) :
    (openSockets es s).card ≤ config.room := by
  obtain ⟨st, h⟩ := tracks_of_run run
  calc (openSockets es s).card
      ≤ (places s).toFinset.card := Finset.card_le_card (openSockets_subset h)
    _ ≤ (places s).length := List.toFinset_card_le _
    _ ≤ config.room := length_places_le run

/-! ## Gauges -/

/-- The connections that the gauge counts are open sockets. -/
theorem activeConnections_le (run : (serverMachine config).Run es s) :
    s.metrics.activeConnections ≤ config.room := by
  have hsub : openConnections es s ⊆ openSockets es s := by
    intro c hc
    obtain ⟨hrange, -, hopen⟩ := Finset.mem_filter.mp hc
    exact Finset.mem_filter.mpr ⟨hrange, hopen⟩
  have hle := (Finset.card_le_card hsub).trans (card_openSockets_le run)
  rw [activeConnections_eq_card run]
  exact_mod_cast hle

/-- Only `connection_opened` raises the peak, to what the gauge is then. -/
theorem peakConnections_le (run : (serverMachine config).Run es s) :
    s.metrics.peakConnections ≤ config.room := by
  induction run with
  | nil => exact Nat.zero_le _
  | @snoc es s a s' ev hrun hstep ih =>
    have hactive := activeConnections_le (hrun.snoc hstep)
    have hnonneg : (0 : Int) ≤ s'.metrics.activeConnections := by
      rw [activeConnections_eq_card (hrun.snoc hstep)]
      exact Int.natCast_nonneg _
    have hmetrics := (TcpServer.step_inv hstep).metrics_eq
    have hsame : s'.metrics.peakConnections = s.metrics.peakConnections ∨
        s'.metrics.peakConnections = Metrics.toUInt64 s'.metrics.activeConnections := by
      cases ev with
      | quiet =>
        obtain ⟨active, heq | heq⟩ := hmetrics
        · exact Or.inl (by rw [heq])
        · exact Or.inl (by rw [heq]; rfl)
      | conn c e =>
        cases e with
        | opened =>
          have heq : s'.metrics = s.metrics.connectionOpened := hmetrics
          rw [heq]
          by_cases hlt : Metrics.toUInt64 (s.metrics.activeConnections + 1) > s.metrics.peakConnections
          · exact Or.inr (if_pos hlt)
          · exact Or.inl (if_neg hlt)
        | effect e =>
          have heq : s'.metrics = e.apply (s.sizes c) s.metrics := hmetrics
          rw [heq]
          cases e <;> exact Or.inl rfl
        | _ =>
          have heq : s'.metrics = s.metrics := hmetrics
          exact Or.inl (by rw [heq])
    rcases hsame with heq | heq
    · rw [heq]
      exact ih
    · rw [heq, Metrics.toUInt64]
      omega

/-! ## Buffers -/

/-- What `recv_request` has read for a connection, whether it has returned or waits, fits into its
    buffer. -/
theorem length_buffer_le (config : Config) (script : List RecvOutcome) :
    (recvRequest config script).buffer.length ≤ bufferBound config := by
  have hinit : (RecvPhase.header []).Bounded config := ⟨Nat.zero_le _, rfl⟩
  rw [RecvPhase.recvRequest_eq]
  exact (hinit.resume script).1

/-- The bytes that `recv_request` holds, all workers together, when every one of them has read what
    it will read. -/
def buffered (config : Config) (s : TcpServer) : Nat :=
  (s.pool.heldTasks.map fun c =>
    (recvRequest config (s.client c).recvScript).buffer.length).sum

theorem buffered_le (run : (serverMachine config).Run es s) :
    buffered config s ≤ ThreadPool.workerCount config.threadCount * bufferBound config := by
  have hheld := length_heldTasks_le s.pool
  rw [(inOrder_of_run run).serves.count] at hheld
  have hsum : buffered config s ≤ s.pool.heldTasks.length * bufferBound config := by
    unfold buffered
    induction s.pool.heldTasks with
    | nil => simp
    | cons c held ih =>
      have hone := length_buffer_le config (s.client c).recvScript
      rw [List.map_cons, List.sum_cons, List.length_cons, Nat.succ_mul]
      omega
  exact hsum.trans (Nat.mul_le_mul_right _ hheld)

/-! ## The theorem -/

/-- **What the server holds is bounded by its configuration.**  In every state of every run, whatever
    the clients send and however many they are: no more sockets are open than one in the accept loop,
    one for each place of the queue and one for each worker; `active_connections` and its peak are
    within the same bound; the queue is within its capacity; and the requests that workers have read
    fit into one buffer for each worker. -/
theorem resources_bounded (config : Config) {es : ServerHistory} {s : TcpServer}
    (run : (serverMachine config).Run es s) :
    (openSockets es s).card ≤ config.room ∧ s.metrics.activeConnections ≤ config.room ∧
      s.metrics.peakConnections ≤ config.room ∧
        s.pool.queue.queue.length ≤ config.queueCapacity ∧
          buffered config s ≤ ThreadPool.workerCount config.threadCount * bufferBound config :=
  ⟨card_openSockets_le run, activeConnections_le run, peakConnections_le run,
    (inOrder_of_run run).serves.room, buffered_le run⟩

/-- One worker and one place in the queue: three sockets are open, and there is no room for more. -/
theorem resources_bounded_full :
    ∃ (es : ServerHistory) (s : TcpServer), (openSockets es s).card = 3 ∧
      s.metrics.peakConnections = 3 ∧ (openSockets es s).card ≤
        Config.room { threadCount := 1, queueCapacity := 1 } := by
  obtain ⟨es, s, run, hopen, hpeak⟩ := Machine.exists_run
    (M := serverMachine { threadCount := 1, queueCapacity := 1 })
    (acceptOne exampleClient ++ [.waitAndPop 0, .increment 0] ++ acceptOne silentClient ++
      (acceptOne exampleClient).take 6)
    (fun es s => (openSockets es s).card = 3 ∧ s.metrics.peakConnections = 3) (by decide +kernel)
  exact ⟨es, s, hopen, hpeak, (resources_bounded { threadCount := 1, queueCapacity := 1 } run).1⟩

end HttpServer
