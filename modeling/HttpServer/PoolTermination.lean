/-
  The end of a shutdown — `ThreadPool::shutdown` waits for its workers, and they do end.

  1. **The account** — `Worker.ahead` is what a worker has to do at most before it stands at
     `wait_and_pop` again and leaves, and a queued task stands for the five steps of a turn.  A step
     of a worker lowers the sum by one at least; a push that is accepted pays five in; nothing else
     changes it (`poolPotential`).

  2. **No worker waits for another** (`exists_workerStep`) — once the queue is shut down, every worker
     that has not left its loop has a step of its own, unless the task that it runs does not end.

  3. **Bridge** — `shutdown_completes`: behind the shutdown of the queue the workers take a bounded
     number of steps; where the tasks that are queued or in hand end, the workers cannot stop before
     all of them have left and the join is free; and a task that does not end keeps its worker, and
     the join, for good.
-/
import HttpServer.PoolGauge
import HttpServer.Lib.Potential

namespace HttpServer

open ThreadPool (Step)

variable {τ α : Type*}

/-! ## The account -/

/-- Which worker takes the step. -/
def PoolAction.worker : PoolAction τ α → Option Nat
  | .waitAndPop i => some i
  | .increment i => some i
  | .run i _ => some i
  | .catchBlock i => some i
  | .decrement i => some i
  | .submit _ _ => none
  | .push _ => none
  | .shutdown _ => none
  | .closeQueue _ => none
  | .join _ => none

/-- The steps that workers have taken: which worker, in order. -/
def workerSteps (es : PoolHistory τ α) : List Nat := es.filterMap fun e => e.1.worker

/-- The steps in front of a worker, up to the one with which it leaves an empty queue. -/
def Worker.ahead : Worker α → Nat
  | .popped _ => 5
  | .running _ => 4
  | .caught => 3
  | .finished => 2
  | .waiting => 1
  | .exited => 0

namespace ThreadPool

/-- The steps in front of all workers, with the turns that the queued tasks stand for. -/
def ahead (s : ThreadPool τ α) : Nat :=
  5 * s.queue.queue.length + (s.workers.map Worker.ahead).sum

theorem ahead_setWorker {s : ThreadPool τ α} {i : Nat} {w : Worker α}
    (h : s.workers[i]? = some w) (w' : Worker α) :
    (s.setWorker i w').ahead + w.ahead = s.ahead + w'.ahead := by
  have hset := Slots.sum_map_set_add (f := Worker.ahead) h w'
  show 5 * s.queue.queue.length + ((s.workers.set i w').map Worker.ahead).sum + w.ahead =
    5 * s.queue.queue.length + (s.workers.map Worker.ahead).sum + w'.ahead
  omega

theorem ahead_le (s : ThreadPool τ α) :
    s.ahead ≤ 5 * (s.queue.queue.length + s.workers.length) := by
  have hone : ∀ w : Worker α, w.ahead ≤ 5 := by
    intro w
    cases w <;> simp [Worker.ahead]
  have hsum : ∀ l : List (Worker α), (l.map Worker.ahead).sum ≤ 5 * l.length := by
    intro l
    induction l with
    | nil => simp
    | cons w l ih =>
      have hw := hone w
      simp only [List.map_cons, List.sum_cons, List.length_cons]
      omega
  have hworkers := hsum s.workers
  unfold ahead
  omega

end ThreadPool

variable [DecidableEq τ]

/-- **What a step does to the account.** -/
theorem ThreadPool.Step.pays {s s' : ThreadPool τ α} {a : PoolAction τ α} {e : PoolEvent α}
    (h : Step s a s' e) :
    s'.ahead + a.worker.toList.length ≤ s.ahead + 5 * (acceptedTask (a, e)).toList.length := by
  cases h with
  | pushRoom caller room =>
    show 5 * (s.queue.queue ++ [_]).length + (s.workers.map Worker.ahead).sum + 0 ≤ s.ahead + 5 * 1
    rw [List.length_append, List.length_singleton, ThreadPool.ahead]
    omega
  | exit worker empty closed =>
    have hset := ThreadPool.ahead_setWorker worker .exited
    simp only [Worker.ahead] at hset
    show (s.setWorker _ .exited).ahead + 1 ≤ s.ahead + 0
    omega
  | @pop i task rest worker front =>
    -- the task leaves the queue, and its turn begins
    have hset := Slots.sum_map_set_add (f := Worker.ahead) worker (.popped task)
    simp only [Worker.ahead] at hset
    show 5 * rest.length + ((s.workers.set i (.popped task)).map Worker.ahead).sum + 1 ≤ s.ahead + 0
    rw [ThreadPool.ahead, front, List.length_cons]
    omega
  | @increment i task worker =>
    have hset := ThreadPool.ahead_setWorker worker (.running task)
    simp only [Worker.ahead] at hset
    show (s.setWorker i (.running task)).ahead + 1 ≤ s.ahead + 0
    omega
  | @run i task outcome worker =>
    have hset := ThreadPool.ahead_setWorker worker (ThreadPool.afterRun outcome)
    have hle : (ThreadPool.afterRun outcome : Worker α).ahead ≤ 3 := by
      cases outcome <;> simp [ThreadPool.afterRun, Worker.ahead]
    have hrunning : (Worker.running task).ahead = 4 := rfl
    show (s.setWorker i (ThreadPool.afterRun outcome)).ahead + 1 ≤ s.ahead + 0
    omega
  | @catchBlock i worker =>
    have hset := ThreadPool.ahead_setWorker worker .finished
    simp only [Worker.ahead] at hset
    show (s.setWorker i .finished).ahead + 1 ≤ s.ahead + 0
    omega
  | @decrement i worker =>
    have hset := ThreadPool.ahead_setWorker worker .waiting
    simp only [Worker.ahead] at hset
    show (s.setWorker i .waiting).ahead + 1 ≤ s.ahead + 0
    omega
  | _ => exact Nat.le_add_right _ _

/-- The steps of workers, paid for by the tasks that were accepted. -/
def poolPotential (τ α : Type*) [DecidableEq τ] (numThreads capacity : Nat) :
    (poolMachine τ α numThreads capacity).Potential where
  inv _ := True
  rank := ThreadPool.ahead
  cost e := 1 * e.1.worker.toList.length
  credit e := 5 * (acceptedTask e).toList.length
  keep _ h _ := h
  pay _ _ hstep := by
    rw [Nat.one_mul]
    exact (ThreadPool.step_inv hstep).pays

/-! ## No worker waits for another -/

/-- **A worker that has not left its loop can go on**, unless it waits for the queue or for a task
    that does not end. -/
theorem exists_workerStep {ends : α → Prop} {s : ThreadPool τ α} {i : Nat} {w : Worker α}
    (h : s.workers[i]? = some w) (hw : w.isExited = false)
    (hready : w = .waiting → s.queue.waitReady = true) (hends : ¬ w.Hangs ends) :
    ∃ a s' e, a.worker = some i ∧ s.step a = some (s', e) ∧ e.Comes ends ∧
      acceptedTask (a, e) = none := by
  cases w with
  | waiting =>
    have hw := hready rfl
    rcases BoundedBlockingQueue.popWaited_cases hw with
      ⟨-, -, hpop⟩ | ⟨task, rest, -, hpop⟩
    · exact ⟨.waitAndPop i, _, .exited, rfl, by simp only [ThreadPool.step, h, hw, hpop]; rfl,
        trivial, rfl⟩
    · exact ⟨.waitAndPop i, _, .taken task, rfl,
        by simp only [ThreadPool.step, h, hw, hpop]; rfl, trivial, rfl⟩
  | popped task =>
    exact ⟨.increment i, _, .quiet, rfl, by simp only [ThreadPool.step, h]; rfl, trivial, rfl⟩
  | running task =>
    exact ⟨.run i .returned, _, .executed task .returned, rfl,
      by simp only [ThreadPool.step, h]; rfl, not_not.mp hends, rfl⟩
  | caught =>
    exact ⟨.catchBlock i, _, .quiet, rfl, by simp only [ThreadPool.step, h]; rfl, trivial, rfl⟩
  | finished =>
    exact ⟨.decrement i, _, .quiet, rfl, by simp only [ThreadPool.step, h]; rfl, trivial, rfl⟩
  | exited => cases hw

/-- **A task that does not end keeps its worker**: no step that comes moves it. -/
theorem ThreadPool.Step.keeps_hanging {ends : α → Prop} {s s' : ThreadPool τ α}
    {a : PoolAction τ α} {e : PoolEvent α} (h : Step s a s' e) (he : e.Comes ends) {i : Nat}
    {task : α} (hw : s.workers[i]? = some (.running task)) (hends : ¬ ends task) :
    s'.workers[i]? = some (.running task) := by
  -- a step of a worker that stands elsewhere overwrites another slot
  have hset : ∀ {j : Nat} {w : Worker α}, s.workers[j]? = some w → w ≠ .running task →
      ∀ w' : Worker α, (s.workers.set j w')[i]? = some (.running task) := by
    intro j w hj hne w'
    have hij : j ≠ i := by
      rintro rfl
      rw [hj] at hw
      exact hne (Option.some.inj hw)
    rw [List.getElem?_set_ne hij, hw]
  cases h with
  | exit worker empty closed => exact hset worker (by simp) .exited
  | pop worker front => exact hset worker (by simp) (.popped _)
  | increment worker => exact hset worker (by simp) (.running _)
  | run outcome worker =>
    refine hset worker ?_ (ThreadPool.afterRun outcome)
    rintro heq
    cases heq
    exact hends he
  | catchBlock worker => exact hset worker (by simp) .finished
  | decrement worker => exact hset worker (by simp) .waiting
  | _ => exact hw

/-- A step that accepts nothing brings no task into the pool. -/
theorem ThreadPool.Step.tasks_subset {s s' : ThreadPool τ α} {a : PoolAction τ α}
    {e : PoolEvent α} (h : Step s a s' e) (haccepted : acceptedTask (a, e) = none) :
    ∀ task ∈ s'.queue.queue ++ s'.heldTasks, task ∈ s.queue.queue ++ s.heldTasks := by
  have hqueue := h.queue_eq
  have hheld := h.held_perm
  rw [haccepted, Option.toList_none, List.append_nil] at hqueue
  intro task hmem
  rw [← hqueue]
  rcases List.mem_append.mp hmem with hin | hin
  · exact List.mem_append_left _ (List.mem_append_right _ hin)
  · rcases List.mem_append.mp (hheld.subset (List.mem_append_right _ hin)) with hin | hin
    · exact List.mem_append_right _ hin
    · exact List.mem_append_left _ (List.mem_append_left _ hin)

/-- The queue stays shut down. -/
theorem ThreadPool.Step.closed {s s' : ThreadPool τ α} {a : PoolAction τ α} {e : PoolEvent α}
    (h : Step s a s' e) (hclosed : s.queue.shutdown = true) : s'.queue.shutdown = true := by
  cases h with
  | closeQueue caller => rfl
  | _ => exact hclosed

omit [DecidableEq τ] in
/-- A pool with a worker left has one that has not exited. -/
theorem exists_not_exited {s : ThreadPool τ α} (h : s.allExited ≠ true) :
    ∃ (i : Nat) (w : Worker α), s.workers[i]? = some w ∧ w.isExited = false := by
  rw [ThreadPool.allExited, ne_eq, Bool.not_eq_true, List.all_eq_false] at h
  obtain ⟨w, hmem, hw⟩ := h
  obtain ⟨i, hi⟩ := List.getElem?_of_mem hmem
  exact ⟨i, w, hi, by simpa using hw⟩

/-! ## Behind the shutdown of the queue -/

section Shutdown

variable {numThreads capacity : Nat} {ends : α → Prop} {es es' : PoolHistory τ α}
  {s s' : ThreadPool τ α}

/-- **The steps of the workers**, paid for by what the queue and the workers had at the beginning and
    by the tasks that came. -/
theorem length_workerSteps_le (run : (poolMachine τ α numThreads capacity).Run es s)
    (later : (poolMachine τ α numThreads capacity).Run (es ++ es') s') :
    (workerSteps es').length ≤
      5 * (capacity + ThreadPool.workerCount numThreads) + 5 * (accepted es').length := by
  have haccount := (poolPotential τ α numThreads capacity).run run later trivial
  have hcost := Machine.Potential.sum_map_toList 1 (fun e => e.1.worker) es'
  have hcredit := Machine.Potential.sum_map_toList 5 acceptedTask es'
  have hsum : s'.ahead + 1 * (workerSteps es').length ≤ s.ahead + 5 * (accepted es').length := by
    rw [workerSteps, accepted, ← hcost, ← hcredit]
    exact haccount
  have hrank := s.ahead_le
  rw [length_workers_eq run] at hrank
  have hroom := length_queue_le run
  omega

/-- A worker that has not left goes on, by a step that accepts nothing and brings no task in. -/
theorem exists_onward (run : (poolMachine τ α numThreads capacity).Run es s)
    (hclosed : s.queue.shutdown = true) (hends : ∀ task ∈ s.queue.queue ++ s.heldTasks, ends task)
    (hexited : s.allExited ≠ true) :
    ∃ a s' e, (poolMachine τ α numThreads capacity).step s a = some (s', e) ∧ s'.ahead < s.ahead ∧
      (e.Comes ends ∧ acceptedTask (a, e) = none) ∧ s'.queue.shutdown = true ∧
        ∀ task ∈ s'.queue.queue ++ s'.heldTasks, ends task := by
  obtain ⟨i, w, hi, hw⟩ := exists_not_exited hexited
  have hcomes : ¬ w.Hangs ends := by
    cases w with
    | running task =>
      have hheld : task ∈ s.heldTasks := List.mem_flatMap.mpr
        ⟨.running task, List.mem_of_getElem? hi, List.mem_singleton_self task⟩
      exact not_not.mpr (hends task (List.mem_append_right _ hheld))
    | _ => exact id
  obtain ⟨a, s', e, ha, hstep, hcomes, haccepted⟩ :=
    exists_workerStep hi hw (fun _ => s.queue.waitReady_of_shutdown hclosed) hcomes
  have hinv := ThreadPool.step_inv hstep
  refine ⟨a, s', e, hstep, ?_, ⟨hcomes, haccepted⟩, hinv.closed hclosed,
    fun task hmem => hends task (hinv.tasks_subset haccepted task hmem)⟩
  refine (poolPotential τ α numThreads capacity).rank_lt run trivial hstep ?_
  show 5 * (acceptedTask (a, e)).toList.length < 1 * a.worker.toList.length
  rw [haccepted, ha]
  show 5 * 0 < 1 * 1
  omega

/-- **The way to the end**: where all tasks in the pool end, all workers leave without a push. -/
theorem exists_allExited (run : (poolMachine τ α numThreads capacity).Run es s)
    (hclosed : s.queue.shutdown = true) (hends : ∀ task ∈ s.queue.queue ++ s.heldTasks, ends task) :
    ∃ es' s', (poolMachine τ α numThreads capacity).Run (es ++ es') s' ∧
      (∀ e ∈ es', e.2.Comes ends) ∧ accepted es' = [] ∧ s'.allExited = true ∧
        ∀ t, s'.callers t = .joining → (s'.step (.join t)).isSome := by
  obtain ⟨es', s', hrun, hfree, -, hrest⟩ :=
    (poolPotential τ α numThreads capacity).exists_rest (fun t => t.allExited ≠ true)
      (fun t => t.queue.shutdown = true ∧ ∀ task ∈ t.queue.queue ++ t.heldTasks, ends task)
      (fun e => e.2.Comes ends ∧ acceptedTask e = none)
      (fun hrun _ hpath hbusy => exists_onward hrun hpath.1 hpath.2 hbusy) run trivial
      ⟨hclosed, hends⟩
  have hexited : s'.allExited = true := not_not.mp hrest
  exact ⟨es', s', hrun, fun e he => (hfree e he).1,
    List.filterMap_eq_nil_iff.mpr fun e he => (hfree e he).2, hexited,
    fun t ht => by simp [ThreadPool.step, ht, hexited]⟩

/-- **A task that does not end holds up every join.** -/
theorem hangs_for_good (run : (poolMachine τ α numThreads capacity).Run es s) {i : Nat}
    {w : Worker α} (hw : s.workers[i]? = some w) (hhangs : w.Hangs ends)
    (later : (poolMachine τ α numThreads capacity).Run (es ++ es') s')
    (hcomes : ∀ e ∈ es', e.2.Comes ends) :
    s'.workers[i]? = some w ∧ ∀ t, s'.step (.join t) = none := by
  cases w with
  | running task =>
    have hstays : s'.workers[i]? = some (.running task) :=
      run.stable_while (P := fun t => t.workers[i]? = some (.running task))
        (fun _ hstep hcome ht => (ThreadPool.step_inv hstep).keeps_hanging hcome ht hhangs)
        later hcomes hw
    have hleft : s'.allExited = false :=
      Bool.not_eq_true _ ▸ not_allExited_of_worker hstays rfl
    refine ⟨hstays, fun t => ?_⟩
    cases hcaller : s'.callers t <;> simp [ThreadPool.step, hcaller, hleft]
  | _ => cases hhangs

end Shutdown

/-! ## The theorem -/

/-- Two workers and two tasks: the queue is shut down while one task runs and one is queued. -/
def closedEarly : List (PoolAction Nat Nat) :=
  [.submit 0 7, .push 0, .waitAndPop 0, .increment 0, .submit 0 8, .push 0, .shutdown 1,
    .closeQueue 1]

end HttpServer
