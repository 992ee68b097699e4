/-
  The thread pool — `thread_pool.hpp`: `ThreadPool`, its callers and its workers.

  1. **Data** — a caller between the two steps of `submit`, or inside `shutdown`, is a `Caller`; a
     worker inside `worker_loop` is a `Worker`, which says which task it holds and how far it is.
     `callers` is a map on an arbitrary type of threads, `workers` a list as long as the pool.

  2. **Program** — a step is one access to shared data: the check of `stopped_` and the push of
     `submit` are two steps, `shutdown` is its compare-exchange, the shutdown of the queue and the
     join, and a turn of `worker_loop` is `wait_and_pop`, the increment, the task, the catch block
     for a task that threw, and the decrement.

  3. **Waiting** — `wait_and_pop` is one step, taken when its predicate holds: what happens between
     a consumer that blocks and the same consumer returning is the subject of `BlockingQueue`.

  4. **Tasks that do not end** — the step `run i` is the end of the call of a task, and so a step of
     the task and not of the pool: a task that never returns is one whose `run` never comes.  What
     is safe in every run is safe with such tasks too; what is said of progress is said for a set of
     tasks that end (`PoolEvent.Comes`, `Worker.Hangs`).
-/
import HttpServer.BlockingQueue
import Mathlib.Logic.Function.Basic

namespace HttpServer

/-- Where a thread that uses the pool is. -/
inductive Caller (α : Type*)
  /-- In no call on the pool. -/
  | idle
  /-- In `submit`, past the check of `stopped_`. -/
  | submitting (task : α)
  /-- In `shutdown`, past the compare-exchange. -/
  | stopping
  /-- In `shutdown`, joining the workers. -/
  | joining

/-- How a call of a task ends. -/
inductive TaskOutcome
  /-- It returns. -/
  | returned
  /-- It throws a `std::exception`. -/
  | exception
  /-- It throws something else. -/
  | unknown
  deriving DecidableEq, Repr

/-- Where a worker is in `worker_loop`. -/
inductive Worker (α : Type*)
  /-- In `wait_and_pop`. -/
  | waiting
  /-- With a task, before `active_workers_` is raised. -/
  | popped (task : α)
  /-- In the call of the task. -/
  | running (task : α)
  /-- In the catch block. -/
  | caught
  /-- Behind the call and its catch blocks, before `active_workers_` is lowered. -/
  | finished
  /-- Behind `worker_loop`. -/
  | exited
  deriving DecidableEq

namespace Worker

variable {α : Type*}

/-- The task a worker has taken and not called yet, or whose call has not ended. -/
def held : Worker α → List α
  | .popped task => [task]
  | .running task => [task]
  | _ => []

/-- The worker has left its loop. -/
def isExited : Worker α → Bool
  | .exited => true
  | _ => false

end Worker

/-- The fields of `ThreadPool`, and where every thread that uses it is.  `callers` are the threads
    outside, of any number; the workers are numbered as `workers_` is. -/
structure ThreadPool (τ α : Type*) where
  queue : BoundedBlockingQueue α
  /-- `stopped_`. -/
  stopped : Bool
  /-- `active_workers_`. -/
  activeWorkers : Nat
  workers : List (Worker α)
  callers : τ → Caller α

/-- One step of a caller or of a worker: an access to a shared field, a critical section of the
    queue, or the end of the call of a task. -/
inductive PoolAction (τ α : Type*)
  /-- The check of `stopped_` in `submit`. -/
  | submit (t : τ) (task : α)
  /-- The push behind it. -/
  | push (t : τ)
  /-- The compare-exchange of `shutdown`. -/
  | shutdown (t : τ)
  /-- The queue's `shutdown()` behind it. -/
  | closeQueue (t : τ)
  /-- The joins have returned. -/
  | join (t : τ)
  /-- `wait_and_pop` of worker `i` returns, with a task or without. -/
  | waitAndPop (i : Nat)
  /-- `active_workers_` is raised. -/
  | increment (i : Nat)
  /-- The call of the task that worker `i` runs ends, if it ever does. -/
  | run (i : Nat) (outcome : TaskOutcome)
  /-- The catch block is done. -/
  | catchBlock (i : Nat)
  /-- `active_workers_` is lowered. -/
  | decrement (i : Nat)

/-- What a step shows. -/
inductive PoolEvent (α : Type*)
  /-- `submit(task)` returns. -/
  | submitted (task : α) (ok : Bool)
  | taken (task : α)
  /-- A call of a task has ended. -/
  | executed (task : α) (outcome : TaskOutcome)
  | exited
  | quiet
  deriving DecidableEq

/-- A step with this event does come, where the tasks in `ends` are those whose calls return or
    throw: it is not the end of the call of another task. -/
def PoolEvent.Comes {α : Type*} (ends : α → Prop) : PoolEvent α → Prop
  | .executed task _ => ends task
  | _ => True

/-- The worker is in the call of a task that neither returns nor throws. -/
def Worker.Hangs {α : Type*} (ends : α → Prop) : Worker α → Prop
  | .running task => ¬ ends task
  | _ => False

namespace ThreadPool

variable {τ α : Type*}

/-- The constructor starts two workers where it is told none. -/
def workerCount (numThreads : Nat) : Nat := if numThreads = 0 then 2 else numThreads

/-- The constructor, with every worker in its first `wait_and_pop`. -/
def make (numThreads queueCapacity : Nat) : ThreadPool τ α where
  queue := .make queueCapacity
  stopped := false
  activeWorkers := 0
  workers := List.replicate (workerCount numThreads) .waiting
  callers _ := .idle

/-- Every worker has left its loop. -/
def allExited (s : ThreadPool τ α) : Bool := s.workers.all Worker.isExited

/-- Worker `i` is now at `w`. -/
def setWorker (s : ThreadPool τ α) (i : Nat) (w : Worker α) : ThreadPool τ α :=
  { s with workers := s.workers.set i w }

/-- Caller `t` is now at `c`. -/
def setCaller [DecidableEq τ] (s : ThreadPool τ α) (t : τ) (c : Caller α) : ThreadPool τ α :=
  { s with callers := Function.update s.callers t c }

/-- The worker behind a call that ended: a call that threw goes on in a catch block. -/
def afterRun : TaskOutcome → Worker α
  | .returned => .finished
  | .exception => .caught
  | .unknown => .caught

/-- `s.step a` — the step, if it is possible in `s`.  Each is what one thread does between two
    moments at which another may come in between. -/
def step [DecidableEq τ] (s : ThreadPool τ α) :
    PoolAction τ α → Option (ThreadPool τ α × PoolEvent α)
  | .submit t task =>
    match s.callers t with
    | .idle =>
      if s.stopped then some (s, .submitted task false)
      else some (s.setCaller t (.submitting task), .quiet)
    | _ => none
  | .push t =>
    match s.callers t with
    | .submitting task =>
      -- neither `stopped_` nor the queue's `shutdown_` is looked at here
      let (ok, queue) := s.queue.push task
      some ({ s with queue := queue }.setCaller t .idle, .submitted task ok)
    | _ => none
  | .shutdown t =>
    match s.callers t with
    | .idle =>
      if s.stopped then some (s, .quiet)
      else some ({ s with stopped := true }.setCaller t .stopping, .quiet)
    | _ => none
  | .closeQueue t =>
    match s.callers t with
    | .stopping => some ({ s with queue := s.queue.close }.setCaller t .joining, .quiet)
    | _ => none
  | .join t =>
    match s.callers t with
    | .joining => if s.allExited then some (s.setCaller t .idle, .quiet) else none
    | _ => none
  | .waitAndPop i =>
    match s.workers[i]? with
    | some .waiting =>
      if s.queue.waitReady then
        match s.queue.popWaited with
        | (none, queue) => some ({ s with queue := queue }.setWorker i .exited, .exited)
        | (some task, queue) =>
          some ({ s with queue := queue }.setWorker i (.popped task), .taken task)
      else none
    | _ => none
  | .increment i =>
    match s.workers[i]? with
    | some (.popped task) =>
      some ({ s with activeWorkers := s.activeWorkers + 1 }.setWorker i (.running task), .quiet)
    | _ => none
  | .run i outcome =>
    match s.workers[i]? with
    | some (.running task) => some (s.setWorker i (afterRun outcome), .executed task outcome)
    | _ => none
  | .catchBlock i =>
    match s.workers[i]? with
    | some .caught => some (s.setWorker i .finished, .quiet)
    | _ => none
  | .decrement i =>
    match s.workers[i]? with
    | some .finished =>
      some ({ s with activeWorkers := s.activeWorkers - 1 }.setWorker i .waiting, .quiet)
    | _ => none

/-! ## What a step can do -/

/-- `Step s a s' e` — the outcomes of a step, one constructor an outcome. -/
inductive Step [DecidableEq τ] (s : ThreadPool τ α) :
    PoolAction τ α → ThreadPool τ α → PoolEvent α → Prop
  | submitStopped {t task} (caller : s.callers t = .idle) (stopped : s.stopped = true) :
      Step s (.submit t task) s (.submitted task false)
  | submitChecked {t task} (caller : s.callers t = .idle) (running : s.stopped = false) :
      Step s (.submit t task) (s.setCaller t (.submitting task)) .quiet
  | pushFull {t task} (caller : s.callers t = .submitting task)
      (full : s.queue.capacity ≤ s.queue.queue.length) :
      Step s (.push t) (s.setCaller t .idle) (.submitted task false)
  | pushRoom {t task} (caller : s.callers t = .submitting task)
      (room : s.queue.queue.length < s.queue.capacity) :
      Step s (.push t)
        ({ s with queue := { s.queue with queue := s.queue.queue ++ [task] } }.setCaller t .idle)
        (.submitted task true)
  | shutdownAgain {t} (caller : s.callers t = .idle) (stopped : s.stopped = true) :
      Step s (.shutdown t) s .quiet
  | shutdownFirst {t} (caller : s.callers t = .idle) (running : s.stopped = false) :
      Step s (.shutdown t) ({ s with stopped := true }.setCaller t .stopping) .quiet
  | closeQueue {t} (caller : s.callers t = .stopping) :
      Step s (.closeQueue t) ({ s with queue := s.queue.close }.setCaller t .joining) .quiet
  | join {t} (caller : s.callers t = .joining) (exited : s.allExited = true) :
      Step s (.join t) (s.setCaller t .idle) .quiet
  | exit {i} (worker : s.workers[i]? = some .waiting) (empty : s.queue.queue = [])
      (closed : s.queue.shutdown = true) : Step s (.waitAndPop i) (s.setWorker i .exited) .exited
  | pop {i task rest} (worker : s.workers[i]? = some .waiting)
      (front : s.queue.queue = task :: rest) :
      Step s (.waitAndPop i)
        ({ s with queue := { s.queue with queue := rest } }.setWorker i (.popped task))
        (.taken task)
  | increment {i task} (worker : s.workers[i]? = some (.popped task)) :
      Step s (.increment i)
        ({ s with activeWorkers := s.activeWorkers + 1 }.setWorker i (.running task)) .quiet
  | run {i task} (outcome : TaskOutcome) (worker : s.workers[i]? = some (.running task)) :
      Step s (.run i outcome) (s.setWorker i (afterRun outcome)) (.executed task outcome)
  | catchBlock {i} (worker : s.workers[i]? = some .caught) :
      Step s (.catchBlock i) (s.setWorker i .finished) .quiet
  | decrement {i} (worker : s.workers[i]? = some .finished) :
      Step s (.decrement i)
        ({ s with activeWorkers := s.activeWorkers - 1 }.setWorker i .waiting) .quiet

variable [DecidableEq τ]

/-- **Every step has one of these outcomes.** -/
theorem step_inv {s s' : ThreadPool τ α} {a : PoolAction τ α} {e : PoolEvent α}
    (h : s.step a = some (s', e)) : Step s a s' e := by
  cases a with
  | submit t task =>
    simp only [step] at h
    split at h
    · rename_i hcaller
      cases hs : s.stopped with
      | true =>
        rw [hs, if_pos rfl] at h
        cases h
        exact Step.submitStopped hcaller hs
      | false =>
        rw [hs, if_neg (by decide)] at h
        cases h
        exact Step.submitChecked hcaller hs
    · cases h
  | push t =>
    simp only [step] at h
    split at h
    · rename_i task hcaller
      rcases s.queue.push_cases task with ⟨hfull, hpush⟩ | ⟨hroom, hpush⟩
      · rw [hpush] at h
        cases h
        exact Step.pushFull hcaller hfull
      · rw [hpush] at h
        cases h
        exact Step.pushRoom hcaller hroom
    · cases h
  | shutdown t =>
    simp only [step] at h
    split at h
    · rename_i hcaller
      cases hs : s.stopped with
      | true =>
        rw [hs, if_pos rfl] at h
        cases h
        exact Step.shutdownAgain hcaller hs
      | false =>
        rw [hs, if_neg (by decide)] at h
        cases h
        exact Step.shutdownFirst hcaller hs
    · cases h
  | closeQueue t =>
    simp only [step] at h
    split at h
    · rename_i hcaller
      cases h
      exact Step.closeQueue hcaller
    · cases h
  | join t =>
    simp only [step] at h
    split at h
    · rename_i hcaller
      split at h
      · rename_i hexited
        cases h
        exact Step.join hcaller hexited
      · cases h
    · cases h
  | waitAndPop i =>
    simp only [step] at h
    split at h
    · rename_i hworker
      split at h
      · rename_i hready
        rcases BoundedBlockingQueue.popWaited_cases hready with
          ⟨hempty, hclosed, hpop⟩ | ⟨task, rest, hq, hpop⟩
        · rw [hpop] at h
          cases h
          exact Step.exit hworker hempty hclosed
        · rw [hpop] at h
          cases h
          exact Step.pop hworker hq
      · cases h
    · cases h
  | increment i =>
    simp only [step] at h
    split at h
    · rename_i hworker
      cases h
      exact Step.increment hworker
    · cases h
  | run i outcome =>
    simp only [step] at h
    split at h
    · rename_i hworker
      cases h
      exact Step.run outcome hworker
    · cases h
  | catchBlock i =>
    simp only [step] at h
    split at h
    · rename_i hworker
      cases h
      exact Step.catchBlock hworker
    · cases h
  | decrement i =>
    simp only [step] at h
    split at h
    · rename_i hworker
      cases h
      exact Step.decrement hworker
    · cases h

end ThreadPool

/-- A pool and any number of threads that call it. -/
def poolMachine (τ α : Type*) [DecidableEq τ] (numThreads queueCapacity : Nat) :
    Machine (ThreadPool τ α) (PoolAction τ α) (PoolEvent α) where
  init := .make numThreads queueCapacity
  step := ThreadPool.step

end HttpServer
