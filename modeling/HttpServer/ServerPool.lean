/-
  The pool inside the server — what the accept loop and the workers keep of `ThreadPool`.

  1. **Steps (`PoolMove`)** — a step of the server leaves the pool alone, is a step of the pool whose
     only caller is the thread of `start()`, or is a `submit` that throws.

  2. **Where the caller is (`CallerAt`)** — the place of the thread of `start()` says where it is in
     the pool: in the loop it is between two calls or in `submit`, and `stopped_` is not set; behind
     the loop it is in front of `shutdown()`, in it, or behind it.

  3. **Bridge** — `inOrder_of_run`: so the pool of the server is `Orderly`, its queue within its
     capacity, and a worker leaves only when nothing will be queued any more.
-/
import HttpServer.LifecycleRefinement
import HttpServer.PoolShutdown

namespace HttpServer

namespace TcpServer

variable {config : Config} {s s' : TcpServer} {a : ServerAction} {ev : ServerEvent}

/-! ## Steps -/

/-- What a step of the server does to the pool. -/
inductive PoolMove (s s' : TcpServer) : Prop
  | same (pool : s'.pool = s.pool)
  | step {pa : PoolAction Unit Nat} {e : PoolEvent Nat} (step : s.pool.Step pa s'.pool e)
      (returns : ∀ i outcome, pa = .run i outcome → outcome = .returned)
  | throws {c : Nat} (loop : s.loop = .pushing c) (pool : s'.pool = s.pool.setCaller () .idle)

theorem Step.poolMove (h : Step config s a s' ev) : PoolMove s s' := by
  cases h with
  | stop => exact .same rfl
  | checkRunning loop => exact .same rfl
  | acceptFails loop => exact .same rfl
  | accept loop => exact .same rfl
  | connectionOpened loop => exact .same rfl
  | loadActiveWorkers loop => exact .same rfl
  | storeActiveWorkers loop => exact .same rfl
  | submitRefused loop step => exact .step step nofun
  | submitChecked loop step => exact .step step nofun
  | pushRefused loop step => exact .step step nofun
  | pushed loop step => exact .step step nofun
  | throwsEarly loop => exact .same rfl
  | throwsLate loop => exact .throws loop rfl
  | reject loop job enabled => exact .same rfl
  | rejected loop job => exact .same rfl
  | closing loop action step =>
    refine .step step ?_
    simp only [List.mem_cons, Prod.mk.injEq, List.not_mem_nil, or_false] at action
    rcases action with ⟨-, rfl⟩ | ⟨-, rfl⟩ | ⟨-, rfl⟩ <;> nofun
  | exit step => exact .step step nofun
  | take step => exact .step step nofun
  | increment step => exact .step step nofun
  | serve worker job enabled => exact .same rfl
  | served step job =>
    refine .step step fun i outcome heq => ?_
    cases heq
    rfl
  | decrement step => exact .step step nofun

/-! ## The workers and the queue -/

end TcpServer

namespace ThreadPool

variable {s s' : ThreadPool Unit Nat} {a : PoolAction Unit Nat} {e : PoolEvent Nat}

theorem callers_setCaller (s : ThreadPool Unit Nat) (c : Caller Nat) :
    (s.setCaller () c).callers () = c := by
  simp only [setCaller, Function.update_self]

/-- The pool of a server of this configuration. -/
structure Serves (config : Config) (s : ThreadPool Unit Nat) : Prop where
  orderly : Orderly () s
  count : s.workers.length = workerCount config.threadCount
  capacity : s.queue.capacity = config.queueCapacity
  room : s.queue.queue.length ≤ config.queueCapacity
  drained : Drained s
  /-- The tasks do not throw. -/
  uncaught : ∀ w ∈ s.workers, w ≠ .caught

theorem serves_make (config : Config) :
    Serves config (ThreadPool.make config.threadCount config.queueCapacity) where
  orderly := orderly_make () config.threadCount config.queueCapacity
  count := List.length_replicate
  capacity := rfl
  room := Nat.zero_le _
  drained _ := rfl
  uncaught w hw := by
    rw [List.eq_of_mem_replicate hw]
    exact nofun

/-- A step that only moves the caller. -/
theorem Serves.setCaller {config : Config} (h : Serves config s) {c : Caller Nat}
    (hc : c.agrees s.stopped) : Serves config (s.setCaller () c) where
  orderly := h.orderly.setCaller hc
  count := h.count
  capacity := h.capacity
  room := h.room
  drained := h.drained
  uncaught := h.uncaught

/-- All workers have left, so there is one that has. -/
theorem Serves.closed {config : Config} (h : Serves config s) (hexited : s.allExited = true) :
    s.queue.shutdown = true := by
  have hpos := length_workers_pos config.threadCount
  rw [← h.count] at hpos
  obtain ⟨w, hw⟩ := List.exists_mem_of_length_pos hpos
  exact h.orderly.exited w hw (List.all_eq_true.mp hexited w hw)

/-- Nobody has left while `submit` is under way. -/
theorem Serves.pushServed {config : Config} (h : Serves config s) (hstep : Step s a s' e) :
    PushServed s a := by
  have hnone : ∀ {u task}, s.callers u = .submitting task → s.allExited = false := by
    intro u task hu
    by_contra hall
    have hstopped := h.orderly.closed (h.closed (by simpa using hall))
    exact h.orderly.no_submit hstopped u task hu
  cases hstep with
  | pushFull caller full => exact Or.inl (hnone caller)
  | pushRoom caller room => exact Or.inl (hnone caller)
  | _ => exact trivial

/-- A queue within its capacity stays within it. -/
theorem Step.room (h : Step s a s' e) (hroom : s.queue.queue.length ≤ s.queue.capacity) :
    s'.queue.queue.length ≤ s'.queue.capacity := by
  cases h with
  | pushRoom caller room =>
    show (s.queue.queue ++ [_]).length ≤ s.queue.capacity
    rw [List.length_append, List.length_singleton]
    omega
  | @pop i task rest worker front =>
    show rest.length ≤ s.queue.capacity
    rw [front, List.length_cons] at hroom
    omega
  | _ => exact hroom

/-- A worker comes into the catch block only by a task that throws. -/
theorem Step.uncaught (h : Step s a s' e)
    (hreturns : ∀ i outcome, a = .run i outcome → outcome = .returned)
    (hw : ∀ w ∈ s.workers, w ≠ .caught) : ∀ w ∈ s'.workers, w ≠ .caught := by
  have hset : ∀ {i : Nat} {w' : Worker Nat}, w' ≠ .caught →
      ∀ w ∈ s.workers.set i w', w ≠ .caught := by
    intro i w' hne w hmem
    rcases List.mem_or_eq_of_mem_set hmem with hold | rfl
    · exact hw w hold
    · exact hne
  cases h with
  | exit worker empty closed => exact hset nofun
  | pop worker front => exact hset nofun
  | increment worker => exact hset nofun
  | @run i task outcome worker =>
    obtain rfl := hreturns i outcome rfl
    exact hset nofun
  | catchBlock worker => exact hset nofun
  | decrement worker => exact hset nofun
  | _ => exact hw

/-- **A step keeps all of it.** -/
theorem Serves.step {config : Config} (hs : Serves config s) (h : Step s a s' e)
    (hreturns : ∀ i outcome, a = .run i outcome → outcome = .returned) : Serves config s' := by
  have hcapacity : s'.queue.capacity = config.queueCapacity := h.capacity_eq.trans hs.capacity
  have hcalled : CalledBy () s a := by
    show a.caller = none ∨ a.caller = some ()
    cases a.caller with
    | none => exact Or.inl rfl
    | some t => exact Or.inr rfl
  refine ⟨h.orderly hcalled hs.orderly, h.length_workers.trans hs.count, hcapacity, ?_,
    h.drained hs.drained (hs.pushServed h), h.uncaught hreturns hs.uncaught⟩
  have hroom := h.room (hs.capacity ▸ hs.room)
  rwa [hcapacity] at hroom

/-- In the pool of a server all workers have left only behind the last task. -/
theorem Serves.of_allExited {config : Config} (h : Serves config s) (hexited : s.allExited = true) :
    s.queue.queue = [] ∧ s.heldTasks = [] := by
  refine ⟨h.drained hexited, List.flatMap_eq_nil_iff.mpr fun w hw => ?_⟩
  have hleft : w.isExited = true := List.all_eq_true.mp hexited w hw
  cases w with
  | exited => rfl
  | _ => cases hleft

end ThreadPool

/-! ## Where the caller is -/

namespace TcpServer

variable {config : Config} {s s' : TcpServer} {a : ServerAction} {ev : ServerEvent}

/-- Where the thread of `start()` is in the pool. -/
def CallerAt (loop : Loop) (pool : ThreadPool Unit Nat) : Prop :=
  match loop with
  | .pushing c => pool.callers () = .submitting c ∧ pool.stopped = false
  | .ended =>
    pool.callers () = .idle ∧ pool.stopped = false ∨
      pool.stopped = true ∧
        (pool.callers () = .stopping ∨
          pool.callers () = .joining ∧ pool.queue.shutdown = true ∨
            pool.callers () = .idle ∧ pool.allExited = true)
  | _ => pool.callers () = .idle ∧ pool.stopped = false

/-- In the loop the caller is between two calls, or in `submit`. -/
theorem callerAt_of_idle {loop : Loop} {pool : ThreadPool Unit Nat}
    (h : pool.callers () = .idle ∧ pool.stopped = false) (hloop : ∀ c, loop ≠ .pushing c) :
    CallerAt loop pool := by
  cases loop with
  | pushing c => exact absurd rfl (hloop c)
  | ended => exact Or.inl h
  | _ => exact h

/-- A step of a worker does not move the caller. -/
theorem CallerAt.worker {loop : Loop} {pool pool' : ThreadPool Unit Nat} (h : CallerAt loop pool)
    (hcallers : pool'.callers = pool.callers) (hstopped : pool'.stopped = pool.stopped)
    (hclosed : pool'.queue.shutdown = pool.queue.shutdown)
    (hexited : pool.allExited = true → pool'.allExited = true) : CallerAt loop pool' := by
  unfold CallerAt at h ⊢
  rw [hcallers, hstopped, hclosed]
  cases loop with
  | ended =>
    rcases h with h | ⟨hs, h | h | ⟨hidle, hall⟩⟩
    · exact Or.inl h
    · exact Or.inr ⟨hs, Or.inl h⟩
    · exact Or.inr ⟨hs, Or.inr (Or.inl h)⟩
    · exact Or.inr ⟨hs, Or.inr (Or.inr ⟨hidle, hexited hall⟩)⟩
  | _ => exact h

/-- The steps of workers, and what they leave alone. -/
theorem callerAt_of_workerStep {loop : Loop} {pool pool' : ThreadPool Unit Nat}
    {pa : PoolAction Unit Nat} {e : PoolEvent Nat} (hstep : pool.Step pa pool' e)
    (hworker : pa.caller = none) (h : CallerAt loop pool) : CallerAt loop pool' := by
  refine h.worker ?_ ?_ ?_ hstep.allExited
  · cases hstep <;> first | rfl | cases hworker
  · cases hstep <;> first | rfl | cases hworker
  · cases hstep <;> first | rfl | cases hworker

/-- **Every step keeps the caller where the loop says it is.** -/
theorem Step.callerAt (h : Step config s a s' ev) (hc : CallerAt s.loop s.pool) :
    CallerAt s'.loop s'.pool := by
  have hidle : ∀ {loop}, s.loop = loop → (∀ c, loop ≠ .pushing c) → loop ≠ .ended →
      s.pool.callers () = .idle ∧ s.pool.stopped = false := by
    rintro loop hl hpush hend
    rw [hl] at hc
    cases loop with
    | pushing c => exact absurd rfl (hpush c)
    | ended => exact absurd rfl hend
    | _ => exact hc
  cases h with
  | stop => exact hc
  | checkRunning loop =>
    exact callerAt_of_idle (hidle loop nofun nofun) fun c => by cases s.running <;> nofun
  | acceptFails loop =>
    exact callerAt_of_idle (hidle loop nofun nofun) fun c => by cases s.running <;> nofun
  | accept loop => exact hidle loop nofun nofun
  | connectionOpened loop => exact hidle loop nofun nofun
  | loadActiveWorkers loop => exact hidle loop nofun nofun
  | storeActiveWorkers loop => exact hidle loop nofun nofun
  | submitRefused loop step =>
    cases step with
    | submitStopped caller stopped => exact hidle loop nofun nofun
  | @submitChecked c pool loop step =>
    cases step with
    | submitChecked caller running => exact ⟨ThreadPool.callers_setCaller _ _, running⟩
  | @pushRefused c pool task loop step =>
    rw [loop] at hc
    cases step with
    | pushFull caller full => exact ⟨ThreadPool.callers_setCaller _ _, hc.2⟩
  | @pushed c pool task loop step =>
    rw [loop] at hc
    cases step with
    | pushRoom caller room => exact ⟨ThreadPool.callers_setCaller _ _, hc.2⟩
  | throwsEarly loop => exact hidle loop nofun nofun
  | throwsLate loop =>
    rw [loop] at hc
    exact ⟨ThreadPool.callers_setCaller _ _, hc.2⟩
  | reject loop job enabled => exact hc
  | rejected loop job => exact hidle loop nofun nofun
  | closing loop action step =>
    rw [loop] at hc
    show CallerAt s.loop _
    rw [loop]
    simp only [List.mem_cons, Prod.mk.injEq, List.not_mem_nil, or_false] at action
    rcases action with ⟨-, rfl⟩ | ⟨-, rfl⟩ | ⟨-, rfl⟩
    · cases step with
      | shutdownAgain caller stopped => exact hc
      | shutdownFirst caller running =>
        exact Or.inr ⟨rfl, Or.inl (ThreadPool.callers_setCaller _ _)⟩
    · cases step with
      | closeQueue caller =>
        rcases hc with ⟨hcaller, -⟩ | ⟨hstopped, -⟩
        · rw [hcaller] at caller
          cases caller
        · exact Or.inr ⟨hstopped, Or.inr (Or.inl ⟨ThreadPool.callers_setCaller _ _, rfl⟩)⟩
    · cases step with
      | join caller exited =>
        rcases hc with ⟨hcaller, -⟩ | ⟨hstopped, -⟩
        · rw [hcaller] at caller
          cases caller
        · exact Or.inr ⟨hstopped, Or.inr (Or.inr ⟨ThreadPool.callers_setCaller _ _, exited⟩)⟩
  | exit step => exact callerAt_of_workerStep step rfl hc
  | take step => exact callerAt_of_workerStep step rfl hc
  | increment step => exact callerAt_of_workerStep step rfl hc
  | serve worker job enabled => exact hc
  | served step job => exact callerAt_of_workerStep step rfl hc
  | decrement step => exact callerAt_of_workerStep step rfl hc

/-! ## Every run -/

/-- The pool is the one of the configuration, and its caller is where the loop says it is. -/
structure InOrder (config : Config) (s : TcpServer) : Prop where
  serves : s.pool.Serves config
  caller : CallerAt s.loop s.pool

/-- The join comes behind the shutdown of the queue. -/
theorem InOrder.closed_of_joining (h : InOrder config s) (hjoining : s.pool.callers () = .joining) :
    s.pool.queue.shutdown = true := by
  have hidle : ∀ {p : Prop}, s.pool.callers () = .idle → p := by
    intro p hidle
    rw [hjoining] at hidle
    cases hidle
  have hcaller := h.caller
  cases hl : s.loop with
  | ended =>
    rw [hl] at hcaller
    rcases hcaller with ⟨h, -⟩ | ⟨-, h | ⟨-, hclosed⟩ | ⟨h, -⟩⟩
    · exact hidle h
    · rw [hjoining] at h
      cases h
    · exact hclosed
    · exact hidle h
  | pushing c =>
    rw [hl] at hcaller
    have hpushing := hcaller.1
    rw [hjoining] at hpushing
    cases hpushing
  | _ =>
    rw [hl] at hcaller
    exact hidle hcaller.1

theorem PoolMove.serves (h : PoolMove s s') (hs : s.pool.Serves config) :
    s'.pool.Serves config := by
  cases h with
  | same pool =>
    rw [pool]
    exact hs
  | step step returns => exact hs.step step returns
  | throws loop pool =>
    rw [pool]
    exact hs.setCaller trivial

end TcpServer

open TcpServer (InOrder) in
/-- **In every state of every run the pool of the server is in order.** -/
theorem inOrder_of_run {config : Config} {es : ServerHistory} {s : TcpServer}
    (run : (serverMachine config).Run es s) : InOrder config s := by
  refine run.invariant ⟨ThreadPool.serves_make config, rfl, rfl⟩ fun _ ih hstep => ?_
  have hinv := TcpServer.step_inv hstep
  exact ⟨hinv.poolMove.serves ih.serves, hinv.callerAt ih.caller⟩

end HttpServer
