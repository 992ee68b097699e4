/-
  The load gauges — when `active_workers` and `queue_size` come back to 0.

  1. **Program** — each gauge is a copy: the thread of `start()` reads the pool's `active_workers()` for
     every connection and stores it, every worker reads the queue's size for its own and stores it, and
     nothing stores them when the load is gone.

  2. **When they are 0 (`ReadIdle`, `ReadEmpty`)** — the last read of `active_workers()` found no worker
     at work, and the worker that was last to store the queue's size had read it when the queue was
     empty.

  3. **Bridge** — a gauge holds what its last store wrote, a store writes what its own thread has read,
     and that is what the last read found (`Run.reads`, three times).
-/
import HttpServer.Lib.LastWrite
import HttpServer.RequestCounters

namespace HttpServer

/-! ## The condition -/

/-- The thread of `start()` reads the pool's `active_workers()`. -/
def ReadsActive (e : ServerAction × ServerEvent) : Prop := e.1 = .loadActiveWorkers

/-- The worker that serves `c` reads the queue's size. -/
def ReadsSize (c : Nat) (e : ServerAction × ServerEvent) : Prop :=
  e.2 = .conn c (.effect .loadQueueSize)

/-- A worker stores the size it has read. -/
def StoresSize (e : ServerAction × ServerEvent) : Prop := ∃ c, e.2 = .conn c (.effect .storeQueueSize)

/-- The last read of `active_workers()` found no worker at work. -/
def ReadIdle (config : Config) (es : ServerHistory) : Prop :=
  ∀ es₁ e s₁, (serverMachine config).Last ReadsActive es es₁ e s₁ → s₁.pool.activeWorkers = 0

/-- The worker that was last to store the queue's size had read it when the queue was empty. -/
def ReadEmpty (config : Config) (es : ServerHistory) : Prop :=
  ∀ es₂ e₂ s₂, (serverMachine config).Last StoresSize es es₂ e₂ s₂ →
    ∀ c, e₂.2 = .conn c (.effect .storeQueueSize) →
      ∀ es₁ e₁ s₁, (serverMachine config).Last (ReadsSize c) es₂ es₁ e₁ s₁ →
        s₁.pool.queue.queue = []

/-! ## Bridge: reads and stores -/

/-- What the thread of `start()` has read and not yet stored. -/
def Loop.active : Loop → Option Nat
  | .loaded _ active => some active
  | _ => none

namespace TcpServer

/-- The last value of `active_workers()` that the thread of `start()` has read. -/
def activeRead (s : TcpServer) : Nat := s.loop.active.getD s.metrics.activeWorkers

/-- What an effect of a connection does to the two gauges. -/
theorem apply_gauges (e : Effect) (size : Nat) (m : Metrics) :
    (e.apply size m).activeWorkers = m.activeWorkers ∧
      (e.apply size m).queueSize = if e = .storeQueueSize then size else m.queueSize := by
  cases e <;> exact ⟨rfl, rfl⟩

variable {config : Config} {s s' : TcpServer} {a : ServerAction} {ev : ServerEvent}

/-- The thread of `start()` stays where it is, and so does the gauge. -/
theorem activeRead_of_stay (hloop : s'.loop = s.loop)
    (hgauge : s'.metrics.activeWorkers = s.metrics.activeWorkers) : s'.activeRead = s.activeRead := by
  rw [activeRead, activeRead, hloop, hgauge]

/-- It moves, with nothing in hand before and behind. -/
theorem activeRead_of_move (h : s.loop.active = none) (h' : s'.loop.active = none)
    (hgauge : s'.metrics.activeWorkers = s.metrics.activeWorkers) : s'.activeRead = s.activeRead := by
  rw [activeRead, activeRead, h, h', hgauge]

theorem Step.activeRead_of_read (h : Step config s .loadActiveWorkers s' ev) :
    s'.activeRead = s.pool.activeWorkers := by
  cases h with
  | loadActiveWorkers loop => rfl
  | closing loop action step => simp at action

/-- **Only the read changes what was read last**: the store writes just that. -/
theorem Step.activeRead_keep (h : Step config s a s' ev) (hne : a ≠ .loadActiveWorkers) :
    s'.activeRead = s.activeRead := by
  cases h with
  | loadActiveWorkers => exact absurd rfl hne
  | storeActiveWorkers loop =>
    rw [activeRead, activeRead, loop]
    rfl
  | stop => exact activeRead_of_stay rfl rfl
  | checkRunning loop =>
    refine activeRead_of_move (by rw [loop]; rfl) ?_ rfl
    cases hr : s.running <;> simp [Loop.active]
  | acceptFails loop =>
    refine activeRead_of_move (by rw [loop]; rfl) ?_ rfl
    cases hr : s.running <;> simp [Loop.active]
  | accept loop => exact activeRead_of_move (by rw [loop]; rfl) rfl rfl
  | connectionOpened loop => exact activeRead_of_move (by rw [loop]; rfl) rfl rfl
  | submitRefused loop => exact activeRead_of_move (by rw [loop]; rfl) rfl rfl
  | submitChecked loop => exact activeRead_of_move (by rw [loop]; rfl) rfl rfl
  | pushRefused loop => exact activeRead_of_move (by rw [loop]; rfl) rfl rfl
  | pushed loop => exact activeRead_of_move (by rw [loop]; rfl) rfl rfl
  | throwsEarly loop => exact activeRead_of_move (by rw [loop]; rfl) rfl rfl
  | throwsLate loop => exact activeRead_of_move (by rw [loop]; rfl) rfl rfl
  | reject => exact activeRead_of_stay rfl (apply_gauges _ _ _).1
  | rejected loop => exact activeRead_of_move (by rw [loop]; rfl) rfl rfl
  | closing => exact activeRead_of_stay rfl rfl
  | exit => exact activeRead_of_stay rfl rfl
  | take => exact activeRead_of_stay rfl rfl
  | increment => exact activeRead_of_stay rfl rfl
  | serve => exact activeRead_of_stay rfl (apply_gauges _ _ _).1
  | served => exact activeRead_of_stay rfl rfl
  | decrement => exact activeRead_of_stay rfl rfl

/-- What one effect of connection `c` does to the sizes that were read and to `queue_size`. -/
theorem perform_sizes (s : TcpServer) (c : Nat) (e : Effect) (rest : List Effect) :
    (s.perform c e rest).sizes =
        (if e = .loadQueueSize then Function.update s.sizes c s.pool.queue.queue.length
          else s.sizes) ∧
      (s.perform c e rest).metrics.queueSize =
        if e = .storeQueueSize then s.sizes c else s.metrics.queueSize :=
  ⟨rfl, (apply_gauges e (s.sizes c) s.metrics).2⟩

/-- **Who writes the sizes and `queue_size`**: the effects of the connections. -/
theorem Step.sizes_eq (h : Step config s a s' ev) :
    (∃ c e rest, ev = .conn c (.effect e) ∧ s' = s.perform c e rest) ∨
      ((∀ c e, ev ≠ .conn c (.effect e)) ∧ s'.sizes = s.sizes ∧
        s'.metrics.queueSize = s.metrics.queueSize) := by
  cases h with
  | reject => exact Or.inl ⟨_, _, _, rfl, rfl⟩
  | serve => exact Or.inl ⟨_, _, _, rfl, rfl⟩
  | _ => exact Or.inr ⟨by simp, rfl, rfl⟩

end TcpServer

section Gauges

variable {config : Config} {es : ServerHistory} {s : TcpServer}

/-- The last value read is 0 exactly if the last read found no worker at work. -/
theorem activeRead_eq_zero_iff (run : (serverMachine config).Run es s) :
    s.activeRead = 0 ↔ ReadIdle config es := by
  refine run.reads (v := fun _ s₁ => s₁.pool.activeWorkers) rfl ?_ ?_
  · rintro s i s' o hstep rfl
    replace hstep : s.step config .loadActiveWorkers = some (s', o) := hstep
    exact (TcpServer.step_inv hstep).activeRead_of_read
  · intro s i s' o hstep hne
    exact (TcpServer.step_inv hstep).activeRead_keep hne

/-- The size that was read for `c` is 0 exactly if it was read when the queue was empty. -/
theorem sizes_eq_zero_iff (run : (serverMachine config).Run es s) (c : Nat) :
    s.sizes c = 0 ↔ ∀ es₁ e s₁, (serverMachine config).Last (ReadsSize c) es es₁ e s₁ →
      s₁.pool.queue.queue.length = 0 := by
  refine run.reads (g := fun s => s.sizes c) (v := fun _ s₁ => s₁.pool.queue.queue.length) rfl ?_ ?_
  · rintro s i s' o hstep hread
    replace hread : o = .conn c (.effect .loadQueueSize) := hread
    rcases (TcpServer.step_inv hstep).sizes_eq with ⟨c', e, rest, hev, rfl⟩ | ⟨hnone, -, -⟩
    · rw [hread] at hev
      cases hev
      rw [(TcpServer.perform_sizes s c .loadQueueSize rest).1, if_pos rfl]
      exact Function.update_self ..
    · exact absurd hread (hnone c _)
  · intro s i s' o hstep hother
    replace hother : o ≠ .conn c (.effect .loadQueueSize) := hother
    rcases (TcpServer.step_inv hstep).sizes_eq with ⟨c', e, rest, rfl, rfl⟩ | ⟨-, hsizes, -⟩
    · rw [(TcpServer.perform_sizes s c' e rest).1]
      by_cases he : e = .loadQueueSize
      · subst he
        have hne : c ≠ c' := fun h => hother (by rw [h])
        rw [if_pos rfl, Function.update_of_ne hne]
      · rw [if_neg he]
    · rw [hsizes]

/-- `queue_size` is 0 exactly if the worker that was last to store it had read an empty queue. -/
theorem queueSize_eq_zero_iff (run : (serverMachine config).Run es s) :
    s.metrics.queueSize = 0 ↔ ReadEmpty config es := by
  have hstores : s.metrics.queueSize = 0 ↔ ∀ es₂ e₂ s₂,
      (serverMachine config).Last StoresSize es es₂ e₂ s₂ →
        (match e₂.2 with
          | .conn c _ => s₂.sizes c
          | .quiet => 0) = 0 := by
    refine run.reads (g := fun s => s.metrics.queueSize)
      (v := fun e₂ s₂ => match e₂.2 with
        | .conn c _ => s₂.sizes c
        | .quiet => 0) rfl ?_ ?_
    · rintro s i s' o hstep ⟨c, hstore⟩
      replace hstore : o = .conn c (.effect .storeQueueSize) := hstore
      rcases (TcpServer.step_inv hstep).sizes_eq with ⟨c', e, rest, hev, rfl⟩ | ⟨hnone, -, -⟩
      · rw [hstore] at hev ⊢
        cases hev
        exact (TcpServer.perform_sizes s c .storeQueueSize rest).2
      · exact absurd hstore (hnone c _)
    · intro s i s' o hstep hother
      rcases (TcpServer.step_inv hstep).sizes_eq with ⟨c, e, rest, rfl, rfl⟩ | ⟨-, -, hsize⟩
      · have hne : e ≠ .storeQueueSize := fun he => hother ⟨c, by rw [he]⟩
        exact (TcpServer.perform_sizes s c e rest).2.trans (if_neg hne)
      · exact hsize
  rw [hstores]
  constructor
  · intro h es₂ e₂ s₂ last c hc es₁ e₁ s₁ last₁
    have hzero := h es₂ e₂ s₂ last
    rw [hc] at hzero
    exact List.length_eq_zero_iff.mp ((sizes_eq_zero_iff last.run c).mp hzero es₁ e₁ s₁ last₁)
  · intro h es₂ e₂ s₂ last
    obtain ⟨c, hc⟩ := last.holds
    rw [hc]
    refine (sizes_eq_zero_iff last.run c).mpr fun es₁ e₁ s₁ last₁ => ?_
    exact List.length_eq_zero_iff.mpr (h es₂ e₂ s₂ last c hc es₁ e₁ s₁ last₁)

/-- In a quiescent state the thread of `start()` has no connection, so it has nothing in hand. -/
theorem activeRead_of_quiescent (run : (serverMachine config).Run es s) (hquiet : Quiescent es s) :
    s.activeRead = s.metrics.activeWorkers := by
  cases hloop : s.loop with
  | loaded c active =>
    obtain ⟨st, h⟩ := tracks_of_run run
    have hholds : s.loop.holds s.jobs = some (c, .opened) := by rw [hloop]; rfl
    have hst : st c = .opened := ((h.loop c _).mp hholds).1
    have hclose := hquiet.1 c (h.lt_of_eq hst Stage.noConfusion)
    have hbehind := (fits_of_run (h.life c)).behind
    rw [hst] at hbehind
    rw [show eventsOf c es = [.accepted, .opened] from hbehind] at hclose
    simp at hclose
  | _ => simp [TcpServer.activeRead, hloop, Loop.active]

/-! ## The theorem -/

/-- **When the load gauges come back to rest.**  In every quiescent state of every run, of any number
    of workers, `active_workers` and `queue_size` are both 0 exactly when the last read of the pool's
    `active_workers()` found no worker at work and the worker that was last to store the queue's size
    had read it when the queue was empty. -/
theorem load_gauges_rest_iff (config : Config) (run : (serverMachine config).Run es s)
    (hquiet : Quiescent es s) :
    (s.metrics.activeWorkers = 0 ∧ s.metrics.queueSize = 0) ↔
      ReadIdle config es ∧ ReadEmpty config es := by
  rw [← activeRead_of_quiescent run hquiet, activeRead_eq_zero_iff run, queueSize_eq_zero_iff run]

end Gauges

/-- The theorem on a run that serves one client and stops. -/
theorem load_gauges_rest_iff_get :
    ∃ (es : ServerHistory) (s : TcpServer), Quiescent es s ∧ s.clients.length = 1 ∧
      ReadIdle { threadCount := 1 } es ∧ ReadEmpty { threadCount := 1 } es := by
  obtain ⟨es, s, run, hquiet, hone, hgauges⟩ := Machine.exists_run
    (M := serverMachine { threadCount := 1 })
    (acceptOne exampleClient ++ serveOne 8 ++ stopServer)
    (fun es s => Quiescent es s ∧ s.clients.length = 1 ∧
      s.metrics.activeWorkers = 0 ∧ s.metrics.queueSize = 0) (by decide +kernel)
  exact ⟨es, s, hquiet, hone, (load_gauges_rest_iff { threadCount := 1 } run hquiet).mp hgauges⟩

/-- A second client comes while the only worker serves the first. -/
def overlappingClients : List ServerAction :=
  [acceptOne exampleClient, [.waitAndPop 0, .increment 0], acceptOne exampleClient,
    List.replicate 8 (.serve 0), [.served 0, .decrement 0], serveOne 8].flatten

/-- Two workers read the queue's size and store it in the other order. -/
def crossingStores : List ServerAction :=
  [acceptOne exampleClient, acceptOne exampleClient,
    [.waitAndPop 0, .increment 0, .serve 0, .serve 0, .waitAndPop 1, .increment 1],
    List.replicate 8 (.serve 1), [.served 1, .decrement 1], List.replicate 6 (.serve 0),
    [.served 0, .decrement 0]].flatten

/-- Two runs to a quiescent state: `active_workers` stays 1 in one, `queue_size` in the other. -/
theorem load_gauges_stuck :
    (∃ (es : ServerHistory) (s : TcpServer), (serverMachine { threadCount := 1 }).Run es s ∧
        Quiescent es s ∧ s.pool.activeWorkers = 0 ∧ s.metrics.activeWorkers = 1) ∧
      ∃ (es : ServerHistory) (s : TcpServer), (serverMachine { threadCount := 2 }).Run es s ∧
        Quiescent es s ∧ s.pool.activeWorkers = 0 ∧ s.metrics.queueSize = 1 := by
  constructor
  · exact Machine.exists_run (M := serverMachine { threadCount := 1 }) overlappingClients
      (fun es s => Quiescent es s ∧ s.pool.activeWorkers = 0 ∧ s.metrics.activeWorkers = 1)
      (by decide +kernel)
  · exact Machine.exists_run (M := serverMachine { threadCount := 2 }) crossingStores
      (fun es s => Quiescent es s ∧ s.pool.activeWorkers = 0 ∧ s.metrics.queueSize = 1)
      (by decide +kernel)

end HttpServer
