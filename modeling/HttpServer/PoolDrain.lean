/-
  Accepted tasks — what `ThreadPool` owes to a caller whose `submit` returned true.

  1. **Specification** — on histories: `accepted es` are the tasks whose `submit` returned true,
     `taken es` those a worker has popped, `executed es` those whose call has ended.

  2. **Conservation** — `taken_append_queue` (the pool refines the FIFO of its queue, so nothing is
     lost or overtaken up to the pop) and `executed_append_held` (a task that was popped is held by
     one worker until its call has ended).

  3. **The crux (`served_or_stranded`)** — the push of `submit` looks neither at `stopped_` nor at
     the queue's own flag.  A worker leaves its loop when `wait_and_pop` returns nothing to it.  As
     long as every push with room is made while some worker has not been told so, the last worker to
     leave leaves an empty queue behind; the first push with room behind the last worker strands its
     task, and no later step can take it out.

  4. **Bridge** — `no_accepted_task_lost_iff` says so of whole runs: the condition is on the state
     before each push, and the runs that meet it are the runs of a restricted machine.
-/
import HttpServer.ThreadPool
import HttpServer.Lib.Fifo
import HttpServer.Lib.Slots

namespace HttpServer

open ThreadPool (Step)

variable {τ α : Type*}

/-! ## Histories -/

/-- A history of the pool: the steps of a run, each with what it shows. -/
abbrev PoolHistory (τ α : Type*) := List (PoolAction τ α × PoolEvent α)

/-- The task whose `submit` returns true in a step. -/
def acceptedTask : PoolAction τ α × PoolEvent α → Option α
  | (_, .submitted task true) => some task
  | _ => none

/-- The task that a worker pops in a step. -/
def takenTask : PoolAction τ α × PoolEvent α → Option α
  | (_, .taken task) => some task
  | _ => none

/-- The task whose call ends in a step. -/
def executedTask : PoolAction τ α × PoolEvent α → Option α
  | (_, .executed task _) => some task
  | _ => none

/-- The tasks for which `submit` returned true, in that order. -/
def accepted (es : PoolHistory τ α) : List α := es.filterMap acceptedTask

/-- The tasks that workers popped, in that order. -/
def taken (es : PoolHistory τ α) : List α := es.filterMap takenTask

/-- The tasks whose call has ended, whatever way it ended. -/
def executed (es : PoolHistory τ α) : List α := es.filterMap executedTask

/-- The tasks that are in the hands of a worker. -/
def ThreadPool.heldTasks (s : ThreadPool τ α) : List α := s.workers.flatMap Worker.held

/-! ## The pool refines its queue -/

/-- What a step of the pool is to its queue. -/
def poolLabel : PoolAction τ α × PoolEvent α → Option (Fifo.Op α × Fifo.Reply α)
  | (.push _, .submitted task true) => some (.push task, .accepted)
  | (.push _, .submitted task false) => some (.push task, .refused)
  | (.closeQueue _, _) => some (.close, .done)
  | (.waitAndPop _, .taken task) => some (.take, .item task)
  | (.waitAndPop _, .exited) => some (.take, .nothing)
  | _ => none

/-- What the pool is to the abstract queue: the waiting tasks, and whether the queue is shut
    down. -/
def ThreadPool.toFifo (s : ThreadPool τ α) : Fifo α := ⟨s.queue.queue, s.queue.shutdown⟩

variable [DecidableEq τ]

theorem ThreadPool.Step.capacity_eq {s s' : ThreadPool τ α} {a : PoolAction τ α}
    {e : PoolEvent α} (h : Step s a s' e) : s'.queue.capacity = s.queue.capacity := by
  cases h <;> rfl

theorem pool_capacity_eq {numThreads capacity : Nat} {es : PoolHistory τ α} {s : ThreadPool τ α}
    (run : (poolMachine τ α numThreads capacity).Run es s) : s.queue.capacity = capacity :=
  run.invariant rfl fun _ ih hstep => (ThreadPool.step_inv hstep).capacity_eq.trans ih

/-- **A step of the pool is a step of its queue, or none.** -/
theorem ThreadPool.Step.refines {s s' : ThreadPool τ α} {a : PoolAction τ α} {e : PoolEvent α}
    (h : Step s a s' e) :
    (Fifo.machine α s.queue.capacity).Follows s.toFifo s'.toFifo (poolLabel (a, e)) := by
  unfold Machine.Follows
  cases h with
  | submitStopped caller stopped => rfl
  | submitChecked caller running => rfl
  | pushFull caller full => exact if_neg (Nat.not_lt.mpr full)
  | pushRoom caller room => exact if_pos room
  | shutdownAgain caller stopped => rfl
  | shutdownFirst caller running => rfl
  | closeQueue caller => rfl
  | join caller exited => rfl
  | exit worker empty closed =>
    simp [poolLabel, Fifo.machine, Fifo.step, ThreadPool.toFifo, ThreadPool.setWorker, empty,
      closed]
  | pop worker front =>
    simp [poolLabel, Fifo.machine, Fifo.step, ThreadPool.toFifo, ThreadPool.setWorker, front]
  | increment worker => rfl
  | run outcome worker => rfl
  | catchBlock worker => rfl
  | decrement worker => rfl

/-- **The pool refines the bounded FIFO.** -/
def poolRefinement (τ α : Type*) [DecidableEq τ] (numThreads capacity : Nat) :
    (poolMachine τ α numThreads capacity).Refinement (Fifo.machine α capacity) where
  abs := ThreadPool.toFifo
  label := poolLabel
  init := rfl
  step run hstep := by
    have h := (ThreadPool.step_inv hstep).refines
    rw [pool_capacity_eq run] at h
    exact h

/-! ## Conservation -/

theorem ThreadPool.Step.items_eq {s s' : ThreadPool τ α} {a : PoolAction τ α} {e : PoolEvent α}
    (h : Step s a s' e) :
    (poolLabel (a, e)).bind Fifo.acceptedItem = acceptedTask (a, e) ∧
      (poolLabel (a, e)).bind Fifo.deliveredItem = takenTask (a, e) := by
  cases h <;> exact ⟨rfl, rfl⟩

/-- **Nothing is lost or overtaken on the way to a worker.** -/
theorem taken_append_queue {numThreads capacity : Nat} {es : PoolHistory τ α}
    {s : ThreadPool τ α} (run : (poolMachine τ α numThreads capacity).Run es s) :
    taken es ++ s.queue.queue = accepted es := by
  have haccepted : Fifo.accepted (es.filterMap poolLabel) = accepted es :=
    run.filterMap_label fun hstep => (ThreadPool.step_inv hstep).items_eq.1
  have htaken : Fifo.delivered (es.filterMap poolLabel) = taken es :=
    run.filterMap_label fun hstep => (ThreadPool.step_inv hstep).items_eq.2
  rw [← haccepted, ← htaken]
  exact Fifo.delivered_append_contents ((poolRefinement τ α numThreads capacity).run run)

/-- What one step does to the queue. -/
theorem ThreadPool.Step.queue_eq {s s' : ThreadPool τ α} {a : PoolAction τ α} {e : PoolEvent α}
    (h : Step s a s' e) :
    (takenTask (a, e)).toList ++ s'.queue.queue =
      s.queue.queue ++ (acceptedTask (a, e)).toList := by
  cases h with
  | pushRoom caller room => rfl
  | @pop i task rest worker front =>
    show [task] ++ rest = s.queue.queue ++ []
    rw [front, List.append_nil]
    rfl
  | _ => exact (List.append_nil _).symm

/-- What one step does to the tasks in the hands of workers. -/
theorem ThreadPool.Step.held_perm {s s' : ThreadPool τ α} {a : PoolAction τ α} {e : PoolEvent α}
    (h : Step s a s' e) :
    ((executedTask (a, e)).toList ++ s'.heldTasks).Perm
      (s.heldTasks ++ (takenTask (a, e)).toList) := by
  -- a step of a worker overwrites its slot; all other steps leave the slots alone
  have hset : ∀ {i : Nat} {w : Worker α}, s.workers[i]? = some w → ∀ w' : Worker α,
      (w.held ++ (s.workers.set i w').flatMap Worker.held).Perm
        (s.workers.flatMap Worker.held ++ w'.held) := fun hw w' =>
    (Slots.flatMap_set_perm hw w').trans List.perm_append_comm
  cases h with
  | submitStopped caller stopped => exact List.perm_append_comm
  | submitChecked caller running => exact List.perm_append_comm
  | pushFull caller full => exact List.perm_append_comm
  | pushRoom caller room => exact List.perm_append_comm
  | shutdownAgain caller stopped => exact List.perm_append_comm
  | shutdownFirst caller running => exact List.perm_append_comm
  | closeQueue caller => exact List.perm_append_comm
  | join caller exited => exact List.perm_append_comm
  | exit worker empty closed => exact hset worker .exited
  | pop worker front => exact hset worker (.popped _)
  | @increment i task worker =>
    have hsame := (hset worker (.running task)).trans List.perm_append_comm
    show List.Perm _ (s.heldTasks ++ [])
    rw [List.append_nil]
    exact (List.perm_append_left_iff [task]).mp hsame
  | run outcome worker =>
    have hw := hset worker (ThreadPool.afterRun outcome)
    cases outcome <;> exact hw
  | catchBlock worker => exact hset worker .finished
  | decrement worker => exact hset worker .waiting

/-- A step that accepts, takes and executes nothing keeps the queue and the tasks in hand. -/
theorem ThreadPool.Step.same {s s' : ThreadPool τ α} {a : PoolAction τ α} {e : PoolEvent α}
    (h : Step s a s' e) (haccepted : acceptedTask (a, e) = none) (htaken : takenTask (a, e) = none)
    (hexecuted : executedTask (a, e) = none) :
    s'.queue.queue = s.queue.queue ∧ s'.heldTasks.Perm s.heldTasks := by
  have hqueue := h.queue_eq
  have hheld := h.held_perm
  rw [htaken, haccepted, Option.toList_none, List.append_nil] at hqueue
  rw [htaken, hexecuted, Option.toList_none, List.append_nil] at hheld
  exact ⟨hqueue, hheld⟩

/-- **A task that was popped is held by one worker until its call has ended.** -/
theorem executed_append_held {numThreads capacity : Nat} {es : PoolHistory τ α}
    {s : ThreadPool τ α} (run : (poolMachine τ α numThreads capacity).Run es s) :
    (executed es ++ s.heldTasks).Perm (taken es) := by
  induction run with
  | nil =>
    have hnone : (ThreadPool.make numThreads capacity : ThreadPool τ α).heldTasks = [] := by
      simp [ThreadPool.heldTasks, ThreadPool.make, List.flatMap_replicate, Worker.held]
    show ((executed ([] : PoolHistory τ α)) ++
      (ThreadPool.make numThreads capacity : ThreadPool τ α).heldTasks).Perm _
    rw [hnone]
    exact List.Perm.refl _
  | snoc _ hstep ih =>
    have h := (ThreadPool.step_inv hstep).held_perm
    rw [executed, taken, Machine.filterMap_snoc, Machine.filterMap_snoc, ← executed, ← taken,
      List.append_assoc]
    refine (h.append_left _).trans ?_
    rw [← List.append_assoc]
    exact ih.append_right _

/-! ## When the last worker has left -/

/-- The condition on a step: a push with room is made while `wait_and_pop` has not yet returned nothing
    to some worker, so that this worker has not left its loop. -/
def PushServed (s : ThreadPool τ α) : PoolAction τ α → Prop
  | .push _ => s.allExited = false ∨ s.queue.capacity ≤ s.queue.queue.length
  | _ => True

instance (s : ThreadPool τ α) (a : PoolAction τ α) : Decidable (PushServed s a) := by
  cases a <;> unfold PushServed <;> infer_instance

/-- The pool while every push has been served: the last worker leaves an empty queue. -/
def Drained (s : ThreadPool τ α) : Prop := s.allExited = true → s.queue.queue = []

/-- The pool once a push has come too late: every worker has left, and the queue holds a task that
    nobody will take. -/
def Stranded (s : ThreadPool τ α) : Prop := s.allExited = true ∧ s.queue.queue ≠ []

omit [DecidableEq τ] in
/-- A step of a worker that does not leave its loop. -/
theorem allExited_setWorker {s : ThreadPool τ α} {i : Nat} {w w' : Worker α}
    (h : s.workers[i]? = some w) (hw : w'.isExited = false) :
    (s.setWorker i w').allExited = false := Slots.all_set_eq_false h hw

omit [DecidableEq τ] in
theorem not_allExited_of_worker {s : ThreadPool τ α} {i : Nat} {w : Worker α}
    (h : s.workers[i]? = some w) (hw : w.isExited = false) : s.allExited ≠ true := by
  intro hall
  have := Slots.of_all_of_getElem? hall h
  rw [hw] at this
  cases this

/-- **A served step keeps the pool drained.** -/
theorem ThreadPool.Step.drained {s s' : ThreadPool τ α} {a : PoolAction τ α} {e : PoolEvent α}
    (h : Step s a s' e) (hd : Drained s) (hok : PushServed s a) : Drained s' := by
  -- a worker that goes on is itself the one that has not left
  have hbusy : ∀ {i : Nat} {w w' : Worker α} {r : ThreadPool τ α}, r.workers[i]? = some w →
      w'.isExited = false → Drained (r.setWorker i w') := by
    intro i w w' r hw hw' hall
    rw [allExited_setWorker hw hw'] at hall
    cases hall
  cases h with
  | submitStopped caller stopped => exact hd
  | submitChecked caller running => exact hd
  | pushFull caller full => exact hd
  | pushRoom caller room =>
    intro hall
    rcases hok with hsome | hfull
    · have : s.allExited = true := hall
      rw [hsome] at this
      cases this
    · exact absurd room (Nat.not_lt.mpr hfull)
  | shutdownAgain caller stopped => exact hd
  | shutdownFirst caller running => exact hd
  | closeQueue caller => exact hd
  | join caller exited => exact hd
  | exit worker empty closed => exact fun _ => empty
  | @pop i task rest worker front =>
    exact hbusy (r := { s with queue := { s.queue with queue := rest } }) worker rfl
  | increment worker =>
    exact hbusy (r := { s with activeWorkers := s.activeWorkers + 1 }) worker rfl
  | run outcome worker => exact hbusy worker (by cases outcome <;> rfl)
  | catchBlock worker => exact hbusy worker rfl
  | decrement worker =>
    exact hbusy (r := { s with activeWorkers := s.activeWorkers - 1 }) worker rfl

/-- A push with room behind the last worker strands its task. -/
theorem ThreadPool.Step.strands {s s' : ThreadPool τ α} {a : PoolAction τ α} {e : PoolEvent α}
    (h : Step s a s' e) (hok : ¬ PushServed s a) : Stranded s' := by
  cases h with
  | pushFull caller full => exact absurd (Or.inr full) hok
  | pushRoom caller room =>
    have hall : s.allExited = true := by
      cases hall : s.allExited with
      | true => rfl
      | false => exact absurd (Or.inl hall) hok
    exact ⟨hall, by simp [ThreadPool.setCaller]⟩
  | _ => exact absurd trivial hok

/-- **Behind the last worker** the workers stay as they are, and nothing leaves the queue. -/
theorem ThreadPool.Step.of_allExited {s s' : ThreadPool τ α} {a : PoolAction τ α} {e : PoolEvent α}
    (h : Step s a s' e) (hall : s.allExited = true) :
    s'.workers = s.workers ∧ s.queue.queue <+: s'.queue.queue := by
  cases h with
  | submitStopped caller stopped => exact ⟨rfl, List.prefix_refl _⟩
  | submitChecked caller running => exact ⟨rfl, List.prefix_refl _⟩
  | pushFull caller full => exact ⟨rfl, List.prefix_refl _⟩
  | pushRoom caller room => exact ⟨rfl, List.prefix_append _ _⟩
  | shutdownAgain caller stopped => exact ⟨rfl, List.prefix_refl _⟩
  | shutdownFirst caller running => exact ⟨rfl, List.prefix_refl _⟩
  | closeQueue caller => exact ⟨rfl, List.prefix_refl _⟩
  | join caller exited => exact ⟨rfl, List.prefix_refl _⟩
  | exit worker empty closed => exact absurd hall (not_allExited_of_worker worker rfl)
  | pop worker front => exact absurd hall (not_allExited_of_worker worker rfl)
  | increment worker => exact absurd hall (not_allExited_of_worker worker rfl)
  | run outcome worker => exact absurd hall (not_allExited_of_worker worker rfl)
  | catchBlock worker => exact absurd hall (not_allExited_of_worker worker rfl)
  | decrement worker => exact absurd hall (not_allExited_of_worker worker rfl)

/-- Exited workers stay exited. -/
theorem ThreadPool.Step.allExited {s s' : ThreadPool τ α} {a : PoolAction τ α} {e : PoolEvent α}
    (h : Step s a s' e) (hall : s.allExited = true) : s'.allExited = true := by
  rw [ThreadPool.allExited, (h.of_allExited hall).1]
  exact hall

/-- **A stranded task stays in the queue**: only a worker could take it out. -/
theorem ThreadPool.Step.stranded {s s' : ThreadPool τ α} {a : PoolAction τ α} {e : PoolEvent α}
    (h : Step s a s' e) (hs : Stranded s) : Stranded s' := by
  obtain ⟨hall, hne⟩ := hs
  refine ⟨h.allExited hall, fun hempty => hne ?_⟩
  have hkept := (h.of_allExited hall).2
  rw [hempty] at hkept
  exact List.prefix_nil.mp hkept

/-- **The crux**: a run has served every push and is drained, or has not and is stranded. -/
theorem served_or_stranded {numThreads capacity : Nat} {es : PoolHistory τ α}
    {s : ThreadPool τ α} (run : (poolMachine τ α numThreads capacity).Run es s) :
    (((poolMachine τ α numThreads capacity).restrict PushServed).Run es s ∧ Drained s) ∨
      (¬ ((poolMachine τ α numThreads capacity).restrict PushServed).Run es s ∧ Stranded s) := by
  induction run with
  | nil => exact Or.inl ⟨Machine.Run.nil, fun _ => rfl⟩
  | @snoc es s a s' e run hstep ih =>
    have hs := ThreadPool.step_inv hstep
    rw [Machine.run_restrict_snoc_iff run hstep]
    rcases ih with ⟨hserved, hdrained⟩ | ⟨hnot, hstranded⟩
    · -- the first push that is not served strands its task, and nothing undoes that
      by_cases hok : PushServed s a
      · exact Or.inl ⟨⟨hserved, hok⟩, hs.drained hdrained hok⟩
      · exact Or.inr ⟨fun h => hok h.2, hs.strands hok⟩
    · exact Or.inr ⟨fun h => hnot h.1, hs.stranded hstranded⟩

/-- Behind the last worker, an empty queue means that every accepted task was executed. -/
theorem executed_perm_accepted {numThreads capacity : Nat} {es : PoolHistory τ α}
    {s : ThreadPool τ α} (run : (poolMachine τ α numThreads capacity).Run es s)
    (hexited : s.allExited = true) (hempty : s.queue.queue = []) :
    (executed es).Perm (accepted es) := by
  have hheld : s.heldTasks = [] := by
    rw [ThreadPool.heldTasks, List.flatMap_eq_nil_iff]
    intro w hw
    have hwx := List.all_eq_true.mp hexited w hw
    cases w <;> first | rfl | cases hwx
  have hperm := executed_append_held run
  have htaken := taken_append_queue run
  rw [hheld, List.append_nil] at hperm
  rw [hempty, List.append_nil] at htaken
  exact htaken ▸ hperm

/-- **When no accepted task is lost.**  For any number of workers, any capacity, any callers and any
    interleaving: in a state in which all workers have left, the queue is empty and every task
    whose `submit` returned true was executed, each as often as it was accepted, exactly when every
    push that found room was made while `wait_and_pop` had not yet returned nothing to some worker. -/
theorem no_accepted_task_lost_iff (numThreads capacity : Nat) {es : PoolHistory τ α}
    {s : ThreadPool τ α} (run : (poolMachine τ α numThreads capacity).Run es s)
    (hexited : s.allExited = true) :
    (s.queue.queue = [] ∧ (executed es).Perm (accepted es)) ↔
      ((poolMachine τ α numThreads capacity).restrict PushServed).Run es s := by
  rcases served_or_stranded run with ⟨hserved, hdrained⟩ | ⟨hnot, -, hne⟩
  · have hempty := hdrained hexited
    exact iff_of_true ⟨hempty, executed_perm_accepted run hexited hempty⟩ hserved
  · exact iff_of_false (fun h => hne h.1) hnot

/-- One worker, one task, one shutdown: the task is executed before the worker leaves. -/
def drainedSchedule : List (PoolAction Nat Nat) :=
  [.submit 0 7, .push 0, .shutdown 1, .closeQueue 1, .waitAndPop 0, .increment 0,
    .run 0 .returned, .decrement 0, .waitAndPop 0, .join 1]

/-- The theorem on that run. -/
theorem no_accepted_task_lost_iff_one_worker :
    ∃ (es : PoolHistory Nat Nat) (s : ThreadPool Nat Nat),
      s.allExited = true ∧ accepted es = [7] ∧
        ((s.queue.queue = [] ∧ (executed es).Perm (accepted es)) ↔
          ((poolMachine Nat Nat 1 1).restrict PushServed).Run es s) := by
  obtain ⟨es, s, run, hexited, haccepted⟩ := Machine.exists_run (M := poolMachine Nat Nat 1 1)
    drainedSchedule (fun es s => s.allExited = true ∧ accepted es = [7]) (by decide)
  exact ⟨es, s, hexited, haccepted, no_accepted_task_lost_iff 1 1 run hexited⟩

/-- A caller of `submit` is past the check of `stopped_` when another thread shuts the pool down:
    its push succeeds behind the last worker, and the task is never executed. -/
theorem accepted_task_lost :
    ¬ ∀ (es : PoolHistory Nat Nat) (s : ThreadPool Nat Nat), (poolMachine Nat Nat 1 1).Run es s →
      s.allExited = true → s.queue.queue = [] ∧ (executed es).Perm (accepted es) := by
  intro halways
  obtain ⟨es, s, run, hexited, hleft⟩ := Machine.exists_run (M := poolMachine Nat Nat 1 1)
    [.submit 0 7, .shutdown 1, .closeQueue 1, .waitAndPop 0, .push 0]
    (fun es s => s.allExited = true ∧ accepted es = [7] ∧ s.queue.queue = [7]) (by decide)
  have hempty := (halways es s run hexited).1
  rw [hleft.2] at hempty
  cases hempty

end HttpServer
