/-
  Backpressure and the gauge — how much work the pool can have outstanding, and `active_workers`.

  1. **Specification** — a task is outstanding from the `submit` that accepts it to the decrement
     that follows its call.  `turns es` counts these decrements, and `counted` says of a worker that
     it is between its increment and its decrement.

  2. **Conservation** — a worker is in the middle of a turn from the pop to the decrement, so the
     tasks taken are the turns done and the workers in a turn (`taken_eq_turns_add`), and the gauge
     is the number of workers that are counted (`activeWorkers_eq_counted`).  Both are sums over the
     workers' table, of which a step overwrites one entry.

  3. **Bridge** — accepted tasks are taken or queued, the queue holds at most `capacity_`, and a
     table has no more workers in a turn than entries.
-/
import HttpServer.PoolShutdown
import Mathlib.Algebra.Group.Nat.Defs

namespace HttpServer

open ThreadPool (Step)

variable {τ α : Type*}

/-! ## The gauge -/

namespace Worker

/-- Between the increment and the decrement. -/
def counted : Worker α → Bool
  | .running _ => true
  | .caught => true
  | .finished => true
  | _ => false

/-- Between the pop and the decrement. -/
def inTurn : Worker α → Bool
  | .popped _ => true
  | .running _ => true
  | .caught => true
  | .finished => true
  | _ => false

/-- Behind the call of its task, before the decrement. -/
def behindCall : Worker α → Bool
  | .caught => true
  | .finished => true
  | _ => false

end Worker

namespace ThreadPool

/-- `thread_count()`. -/
def threadCount (s : ThreadPool τ α) : Nat := s.workers.length

/-- `idle_workers()`: the difference of two values of type `std::size_t`. -/
def idleWorkers (s : ThreadPool τ α) : Nat :=
  (BitVec.ofNat 64 s.threadCount - BitVec.ofNat 64 s.activeWorkers).toNat

/-- The number of workers that pass a test. -/
def workersIn (p : Worker α → Bool) (s : ThreadPool τ α) : Nat := s.workers.countP p

theorem workersIn_le (p : Worker α → Bool) (s : ThreadPool τ α) :
    s.workersIn p ≤ s.threadCount := List.countP_le_length

theorem workersIn_setWorker {p : Worker α → Bool} {s : ThreadPool τ α} {i : Nat} {w : Worker α}
    (h : s.workers[i]? = some w) (w' : Worker α) :
    (s.setWorker i w').workersIn p + (p w).toNat = s.workersIn p + (p w').toNat :=
  Slots.countP_set_add h w'

/-- The subtraction of `idle_workers()` does not wrap below the number of threads. -/
theorem idleWorkers_eq {s : ThreadPool τ α} (hle : s.activeWorkers ≤ s.threadCount)
    (hbound : s.threadCount < 2 ^ 64) : s.idleWorkers = s.threadCount - s.activeWorkers := by
  rw [idleWorkers, BitVec.toNat_sub_of_le]
  · rw [BitVec.toNat_ofNat, BitVec.toNat_ofNat, Nat.mod_eq_of_lt hbound,
      Nat.mod_eq_of_lt (Nat.lt_of_le_of_lt hle hbound)]
  · rw [BitVec.le_def, BitVec.toNat_ofNat, BitVec.toNat_ofNat, Nat.mod_eq_of_lt hbound,
      Nat.mod_eq_of_lt (Nat.lt_of_le_of_lt hle hbound)]
    exact hle

end ThreadPool

variable [DecidableEq τ]

/-- **A step keeps the gauge exact**: the increment and the decrement are where a worker starts and
    stops to be counted, and no other step changes either. -/
theorem ThreadPool.Step.gauge {s s' : ThreadPool τ α} {a : PoolAction τ α} {e : PoolEvent α}
    (h : Step s a s' e) (hs : s.activeWorkers = s.workersIn Worker.counted) :
    s'.activeWorkers = s'.workersIn Worker.counted := by
  cases h with
  | exit worker empty closed =>
    exact hs.trans (ThreadPool.workersIn_setWorker (p := Worker.counted) worker .exited).symm
  | @pop i task rest worker front =>
    exact hs.trans
      (ThreadPool.workersIn_setWorker (p := Worker.counted) worker (.popped task)).symm
  | @increment i task worker =>
    have hset := ThreadPool.workersIn_setWorker (p := Worker.counted) worker (.running task)
    show s.activeWorkers + 1 = (s.setWorker i (.running task)).workersIn Worker.counted
    rw [hs]
    exact hset.symm
  | @run i task outcome worker =>
    have hset := ThreadPool.workersIn_setWorker (p := Worker.counted) worker
      (ThreadPool.afterRun outcome)
    have hcounted : Worker.counted (ThreadPool.afterRun outcome : Worker α) = true := by
      cases outcome <;> rfl
    rw [hcounted] at hset
    exact hs.trans (Nat.succ.inj hset).symm
  | catchBlock worker =>
    have hset := ThreadPool.workersIn_setWorker (p := Worker.counted) worker .finished
    exact hs.trans (Nat.succ.inj hset).symm
  | @decrement i worker =>
    have hset := ThreadPool.workersIn_setWorker (p := Worker.counted) worker .waiting
    have hone : (s.setWorker i .waiting).workersIn Worker.counted + 1 = s.activeWorkers := by
      rw [hs]
      exact hset
    show s.activeWorkers - 1 = (s.setWorker i .waiting).workersIn Worker.counted
    omega
  | _ => exact hs

/-- **The gauge is exact**: `active_workers` is the number of workers between their increment and
    their decrement. -/
theorem activeWorkers_eq_counted {numThreads capacity : Nat} {es : PoolHistory τ α}
    {s : ThreadPool τ α} (run : (poolMachine τ α numThreads capacity).Run es s) :
    s.activeWorkers = s.workersIn Worker.counted := by
  refine run.invariant ?_ fun _ ih hstep => (ThreadPool.step_inv hstep).gauge ih
  show 0 = (List.replicate _ _).countP _
  rw [List.countP_replicate]
  rfl

/-! ## Turns -/

/-- The step that ends a turn. -/
def turnDone : PoolAction τ α × PoolEvent α → Bool
  | (.decrement _, _) => true
  | _ => false

/-- How many turns have ended: the tasks that are finished. -/
def turns (es : PoolHistory τ α) : Nat := es.countP turnDone

/-- What one step does to the workers in a turn. -/
theorem ThreadPool.Step.inTurn {s s' : ThreadPool τ α} {a : PoolAction τ α} {e : PoolEvent α}
    (h : Step s a s' e) :
    s'.workersIn Worker.inTurn + (turnDone (a, e)).toNat =
      s.workersIn Worker.inTurn + (takenTask (a, e)).toList.length := by
  cases h with
  | exit worker empty closed => exact ThreadPool.workersIn_setWorker worker .exited
  | @pop i task rest worker front => exact ThreadPool.workersIn_setWorker worker (.popped task)
  | @increment i task worker =>
    exact Nat.succ.inj (ThreadPool.workersIn_setWorker (p := Worker.inTurn) worker (.running task))
  | @run i task outcome worker =>
    have hset := ThreadPool.workersIn_setWorker (p := Worker.inTurn) worker
      (ThreadPool.afterRun outcome)
    have hturn : Worker.inTurn (ThreadPool.afterRun outcome : Worker α) = true := by
      cases outcome <;> rfl
    rw [hturn] at hset
    exact Nat.succ.inj hset
  | catchBlock worker =>
    exact Nat.succ.inj (ThreadPool.workersIn_setWorker (p := Worker.inTurn) worker .finished)
  | decrement worker => exact ThreadPool.workersIn_setWorker (p := Worker.inTurn) worker .waiting
  | _ => rfl

/-- What one step does to the workers behind their call. -/
theorem ThreadPool.Step.behindCall {s s' : ThreadPool τ α} {a : PoolAction τ α}
    {e : PoolEvent α} (h : Step s a s' e) :
    s'.workersIn Worker.behindCall + (turnDone (a, e)).toNat =
      s.workersIn Worker.behindCall + (executedTask (a, e)).toList.length := by
  cases h with
  | exit worker empty closed => exact ThreadPool.workersIn_setWorker worker .exited
  | @pop i task rest worker front => exact ThreadPool.workersIn_setWorker worker (.popped task)
  | @increment i task worker =>
    exact ThreadPool.workersIn_setWorker (p := Worker.behindCall) worker (.running task)
  | @run i task outcome worker =>
    have hset := ThreadPool.workersIn_setWorker (p := Worker.behindCall) worker
      (ThreadPool.afterRun outcome)
    have hbehind : Worker.behindCall (ThreadPool.afterRun outcome : Worker α) = true := by
      cases outcome <;> rfl
    rw [hbehind] at hset
    exact hset
  | catchBlock worker =>
    exact Nat.succ.inj (ThreadPool.workersIn_setWorker (p := Worker.behindCall) worker .finished)
  | decrement worker =>
    exact ThreadPool.workersIn_setWorker (p := Worker.behindCall) worker .waiting
  | _ => rfl

/-- One reading of a history, with one more event. -/
theorem length_filterMap_snoc {ε β : Type*} (f : ε → Option β) (es : List ε) (e : ε) :
    ((es ++ [e]).filterMap f).length = (es.filterMap f).length + (f e).toList.length := by
  rw [Machine.filterMap_snoc, List.length_append]

omit [DecidableEq τ] in
theorem turns_snoc (es : PoolHistory τ α) (e : PoolAction τ α × PoolEvent α) :
    turns (es ++ [e]) = turns es + (turnDone e).toNat := by
  rw [turns, List.countP_append, ← turns]
  cases h : turnDone e <;> simp [h]

/-- **Taken tasks** are in a turn that has ended or in one that has not. -/
theorem taken_eq_turns_add {numThreads capacity : Nat} {es : PoolHistory τ α}
    {s : ThreadPool τ α} (run : (poolMachine τ α numThreads capacity).Run es s) :
    (taken es).length = turns es + s.workersIn Worker.inTurn := by
  refine run.invariant ?_ fun {es s i s' o} _ ih hstep => ?_
  · show 0 = 0 + (List.replicate _ _).countP _
    rw [List.countP_replicate]
    rfl
  · have hturn := (ThreadPool.step_inv hstep).inTurn
    rw [taken, length_filterMap_snoc, ← taken, turns_snoc]
    omega

/-- **Calls that have ended** belong to a turn that has ended or to a worker behind its call. -/
theorem executed_eq_turns_add {numThreads capacity : Nat} {es : PoolHistory τ α}
    {s : ThreadPool τ α} (run : (poolMachine τ α numThreads capacity).Run es s) :
    (executed es).length = turns es + s.workersIn Worker.behindCall := by
  refine run.invariant ?_ fun {es s i s' o} _ ih hstep => ?_
  · show 0 = 0 + (List.replicate _ _).countP _
    rw [List.countP_replicate]
    rfl
  · have hcall := (ThreadPool.step_inv hstep).behindCall
    rw [executed, length_filterMap_snoc, ← executed, turns_snoc]
    omega

/-! ## Backpressure -/

theorem length_queue_le {numThreads capacity : Nat} {es : PoolHistory τ α} {s : ThreadPool τ α}
    (run : (poolMachine τ α numThreads capacity).Run es s) : s.queue.queue.length ≤ capacity :=
  Fifo.length_le_capacity ((poolRefinement τ α numThreads capacity).run run)

theorem threadCount_eq {numThreads capacity : Nat} {es : PoolHistory τ α} {s : ThreadPool τ α}
    (run : (poolMachine τ α numThreads capacity).Run es s) (hn : 1 ≤ numThreads) :
    s.threadCount = numThreads := by
  rw [ThreadPool.threadCount, length_workers_eq run, ThreadPool.workerCount, if_neg (by omega)]

/-- A decrement finds a gauge that counts the worker itself. -/
theorem gauge_pos_of_finished {numThreads capacity : Nat} {es : PoolHistory τ α}
    {s : ThreadPool τ α} (run : (poolMachine τ α numThreads capacity).Run es s) {i : Nat}
    (worker : s.workers[i]? = some .finished) : 0 < s.activeWorkers := by
  rw [activeWorkers_eq_counted run, ThreadPool.workersIn, List.countP_pos_iff]
  exact ⟨.finished, List.mem_of_getElem? worker, rfl⟩

/-- **Backpressure bounds the outstanding work, and the gauge is exact.**  For any callers and any
    interleaving: the accepted tasks that are not finished, be it the call or the whole turn, are at
    most the capacity and one a worker; `active_workers` is the number of workers between their
    increment and their decrement, it is at most the number of workers, and no decrement finds it at
    zero; and so the subtraction of `idle_workers` never wraps. -/
theorem backpressure_and_gauge (numThreads capacity : Nat) (hn : 1 ≤ numThreads)
    {es : PoolHistory τ α} {s : ThreadPool τ α}
    (run : (poolMachine τ α numThreads capacity).Run es s) :
    (accepted es).length ≤ turns es + (capacity + numThreads) ∧
      (accepted es).length ≤ (executed es).length + (capacity + numThreads) ∧
      s.activeWorkers = s.workersIn Worker.counted ∧ s.activeWorkers ≤ numThreads ∧
      (∀ i s' e, s.step (.decrement i) = some (s', e) → 0 < s.activeWorkers) ∧
      -- `num_threads` is an `unsigned int`
      (numThreads < 2 ^ 32 → s.idleWorkers = numThreads - s.activeWorkers) := by
  have hcount := threadCount_eq run hn
  have haccepted : (accepted es).length = (taken es).length + s.queue.queue.length := by
    rw [← taken_append_queue run, List.length_append]
  have htaken := taken_eq_turns_add run
  have hexecuted := executed_eq_turns_add run
  have hqueue := length_queue_le run
  have hturn : s.workersIn Worker.inTurn ≤ numThreads := hcount ▸ s.workersIn_le Worker.inTurn
  have hgauge := activeWorkers_eq_counted run
  have hactive : s.activeWorkers ≤ numThreads := by
    rw [hgauge, ← hcount]
    exact s.workersIn_le Worker.counted
  refine ⟨by omega, by omega, hgauge, hactive, ?_, ?_⟩
  · intro i s' e hstep
    cases ThreadPool.step_inv hstep with
    | decrement worker => exact gauge_pos_of_finished run worker
  · intro hbound
    rw [ThreadPool.idleWorkers_eq (hcount.symm ▸ hactive) (by omega), hcount]

/-- Two callers, two workers and room for one task: all three places of a task are taken. -/
def backpressureSchedule : List (PoolAction Nat Nat) :=
  [.submit 0 7, .push 0, .waitAndPop 0, .increment 0, .submit 1 8, .push 1, .waitAndPop 1,
    .submit 0 9, .submit 1 10, .push 0, .push 1]

/-- The theorem on that run: three tasks are outstanding, which is all the pool has room for. -/
theorem backpressure_and_gauge_two_workers :
    ∃ (es : PoolHistory Nat Nat) (s : ThreadPool Nat Nat),
      accepted es = [7, 8, 9] ∧ turns es = 0 ∧ s.activeWorkers = 1 ∧
        (accepted es).length ≤ turns es + (1 + 2) ∧ s.activeWorkers = s.workersIn Worker.counted ∧
          s.idleWorkers = 2 - s.activeWorkers := by
  obtain ⟨es, s, run, haccepted, hturns, hactive⟩ :=
    Machine.exists_run (M := poolMachine Nat Nat 2 1) backpressureSchedule
      (fun es s => accepted es = [7, 8, 9] ∧ turns es = 0 ∧ s.activeWorkers = 1)
      (by decide +kernel)
  have h := backpressure_and_gauge 2 1 (by decide) run
  exact ⟨es, s, haccepted, hturns, hactive, h.1, h.2.2.1, h.2.2.2.2.2 (by decide)⟩

end HttpServer
