/-
  The pool with its waits — `ThreadPool` over the queue's mutex and condition variable.

  1. **Data** — `ThreadPool` takes `wait_and_pop` as one step that waits for its predicate.  Here the
     workers sleep: beside the pool stand the state of `cv_` and the threads between the two halves
     of the queue's `shutdown()`.  A thread is a caller (`inl t`) or a worker (`inr i`).

  2. **Program** — a critical section of the queue is a step of `QueueMonitor` by the thread that
     makes it, and what the pool does around it is as in `ThreadPool`.  All other steps are those of
     `ThreadPool` (`elsewhere`), with one more guard: the join comes behind the `notify_all`.

  3. **Two refinements** — forgetting the pool gives a run of the queue alone (`toQueue`), with the
     lost wakeups that it does not have; forgetting the sleepers gives a run of the pool whose waits
     are one step (`toPool`), so what is proved about that pool holds of this one.
-/
import HttpServer.PoolTermination
import HttpServer.QueueWakeup
import Mathlib.Data.Finset.Image

namespace HttpServer

variable {τ α : Type*}

/-! ## Data -/

/-- A thread: one that calls the pool, or a worker of it. -/
abbrev Thread (τ : Type*) := τ ⊕ Nat

/-- The pool, the state of `cv_`, and the threads in the second half of the queue's `shutdown()`. -/
structure MonitoredPool (τ α : Type*) where
  /-- The pool, whose worker in `wait_and_pop` may be asleep. -/
  pool : ThreadPool τ α
  /-- Who sleeps on the queue, and who has been woken and waits for its lock. -/
  cv : CondVar (Thread τ)
  /-- Who has set `shutdown_` and not yet notified. -/
  closing : Finset (Thread τ)

/-- A step of the pool over the real queue.  `wake` is the thread that a `notify_one` of the step
    wakes, where one sleeps. -/
inductive MonitoredAction (τ α : Type*)
  /-- A step that is no critical section of the queue. -/
  | elsewhere (a : PoolAction τ α)
  /-- The critical section of `push`, in a `submit` of caller `t`. -/
  | push (t : τ) (wake : Option (Thread τ))
  /-- The locked half of the queue's `shutdown()`. -/
  | closeQueue (t : τ)
  /-- The `notify_all` of the queue's `shutdown()`. -/
  | notifyAll (t : τ)
  /-- Worker `i` enters `wait_and_pop`, and takes an item, or leaves, or falls asleep. -/
  | waitAndPop (i : Nat) (wake : Option (Thread τ))
  /-- Worker `i` has been woken, has the lock again and looks at its predicate. -/
  | recheck (i : Nat) (wake : Option (Thread τ))
  /-- Worker `i` wakes up, and nobody has notified it. -/
  | spurious (i : Nat)

/-- The steps of the pool that are critical sections of the queue. -/
def PoolAction.onQueue : PoolAction τ α → Bool
  | .push _ => true
  | .closeQueue _ => true
  | .waitAndPop _ => true
  | _ => false

namespace MonitoredPool

/-- The queue with its sleepers. -/
def monitor (s : MonitoredPool τ α) : QueueMonitor (Thread τ) α := ⟨s.pool.queue, s.cv, s.closing⟩

@[simp] theorem monitor_queue (s : MonitoredPool τ α) : s.monitor.queue = s.pool.queue := rfl
@[simp] theorem monitor_cv (s : MonitoredPool τ α) : s.monitor.cv = s.cv := rfl
@[simp] theorem monitor_closing (s : MonitoredPool τ α) : s.monitor.closing = s.closing := rfl

/-- The pool behind a critical section of its queue. -/
def withMonitor (s : MonitoredPool τ α) (m : QueueMonitor (Thread τ) α) : MonitoredPool τ α :=
  ⟨{ s.pool with queue := m.queue }, m.cv, m.closing⟩

/-- Worker `i` of the pool is now at `w`. -/
def setWorker (s : MonitoredPool τ α) (i : Nat) (w : Worker α) : MonitoredPool τ α :=
  { s with pool := s.pool.setWorker i w }

/-- Worker `i` at the end of a critical section of `wait_and_pop`: it has returned, with a task or
    without, or it sleeps. -/
def afterWait (s : MonitoredPool τ α) (i : Nat) :
    QueueMonitor (Thread τ) α × QueueEvent α → MonitoredPool τ α × PoolEvent α
  | (m, .popped (some task)) => ((s.withMonitor m).setWorker i (.popped task), .taken task)
  | (m, .popped none) => ((s.withMonitor m).setWorker i .exited, .exited)
  | (m, _) => (s.withMonitor m, .quiet)

variable [DecidableEq τ]

/-- Caller `t` of the pool is now at `c`. -/
def setCaller (s : MonitoredPool τ α) (t : τ) (c : Caller α) : MonitoredPool τ α :=
  { s with pool := s.pool.setCaller t c }

/-- The queue's `shutdown()` of this caller has returned, if it called it. -/
def Notified (s : MonitoredPool τ α) : PoolAction τ α → Prop
  | .join t => .inl t ∉ s.closing
  | _ => True

instance (s : MonitoredPool τ α) (a : PoolAction τ α) : Decidable (s.Notified a) :=
  match a with
  | .join t => inferInstanceAs (Decidable (.inl t ∉ s.closing))
  | .submit _ _ => .isTrue trivial
  | .push _ => .isTrue trivial
  | .shutdown _ => .isTrue trivial
  | .closeQueue _ => .isTrue trivial
  | .waitAndPop _ => .isTrue trivial
  | .increment _ => .isTrue trivial
  | .run _ _ => .isTrue trivial
  | .catchBlock _ => .isTrue trivial
  | .decrement _ => .isTrue trivial

/-- `s.step a` — the step, if it is possible in `s`: a critical section of the queue is a step of
    its monitor, and every other step one of the pool. -/
def step (s : MonitoredPool τ α) :
    MonitoredAction τ α → Option (MonitoredPool τ α × PoolEvent α)
  | .elsewhere a =>
    if a.onQueue = false ∧ s.Notified a then
      (s.pool.step a).map fun r => ({ s with pool := r.1 }, r.2)
    else none
  | .push t wake =>
    match s.pool.callers t with
    | .submitting task =>
      match s.monitor.step (.push (.inl t) task wake) with
      | some (m, .pushed ok) => some ((s.withMonitor m).setCaller t .idle, .submitted task ok)
      | _ => none
    | _ => none
  | .closeQueue t =>
    match s.pool.callers t with
    | .stopping =>
      (s.monitor.step (.shutdown (.inl t))).map fun r =>
        ((s.withMonitor r.1).setCaller t .joining, .quiet)
    | _ => none
  | .notifyAll t =>
    (s.monitor.step (.notifyAll (.inl t))).map fun r => (s.withMonitor r.1, .quiet)
  | .waitAndPop i wake =>
    match s.pool.workers[i]? with
    | some .waiting => (s.monitor.step (.waitAndPop (.inr i) wake)).map (s.afterWait i)
    | _ => none
  | .recheck i wake =>
    match s.pool.workers[i]? with
    | some .waiting => (s.monitor.step (.recheck (.inr i) wake)).map (s.afterWait i)
    | _ => none
  | .spurious i => (s.monitor.step (.spurious (.inr i))).map fun r => (s.withMonitor r.1, .quiet)

/-! ## What a step can do -/

/-- The two critical sections of `wait_and_pop`, as steps of the pool and of the queue. -/
def waits (i : Nat) (wake : Option (Thread τ)) :
    List (MonitoredAction τ α × QueueAction (Thread τ) α) :=
  [(.waitAndPop i wake, .waitAndPop (.inr i) wake), (.recheck i wake, .recheck (.inr i) wake)]

/-- `Step s a s' e` — the outcomes of a step, over those of the queue and of the pool. -/
inductive Step (s : MonitoredPool τ α) :
    MonitoredAction τ α → MonitoredPool τ α → PoolEvent α → Prop
  | elsewhere {a pool e} (off : a.onQueue = false) (notified : s.Notified a)
      (step : s.pool.step a = some (pool, e)) : Step s (.elsewhere a) { s with pool := pool } e
  | push {t task wake m ok} (caller : s.pool.callers t = .submitting task)
      (step : s.monitor.step (.push (.inl t) task wake) = some (m, .pushed ok)) :
      Step s (.push t wake) ((s.withMonitor m).setCaller t .idle) (.submitted task ok)
  | closeQueue {t m} (caller : s.pool.callers t = .stopping)
      (step : s.monitor.step (.shutdown (.inl t)) = some (m, .flagged)) :
      Step s (.closeQueue t) ((s.withMonitor m).setCaller t .joining) .quiet
  | notifyAll {t m} (step : s.monitor.step (.notifyAll (.inl t)) = some (m, .returned)) :
      Step s (.notifyAll t) (s.withMonitor m) .quiet
  | taken {a qa i wake m task} (worker : s.pool.workers[i]? = some .waiting)
      (action : (a, qa) ∈ waits i wake) (step : s.monitor.step qa = some (m, .popped (some task))) :
      Step s a ((s.withMonitor m).setWorker i (.popped task)) (.taken task)
  | exited {a qa i wake m} (worker : s.pool.workers[i]? = some .waiting)
      (action : (a, qa) ∈ waits i wake) (step : s.monitor.step qa = some (m, .popped none)) :
      Step s a ((s.withMonitor m).setWorker i .exited) .exited
  | asleep {a qa i wake m} (worker : s.pool.workers[i]? = some .waiting)
      (action : (a, qa) ∈ waits i wake) (step : s.monitor.step qa = some (m, .blocked)) :
      Step s a (s.withMonitor m) .quiet
  | spurious {i m} (step : s.monitor.step (.spurious (.inr i)) = some (m, .awake)) :
      Step s (.spurious i) (s.withMonitor m) .quiet

omit [DecidableEq τ] in
theorem eq_of_mem_waits {a : MonitoredAction τ α} {qa : QueueAction (Thread τ) α} {i : Nat}
    {wake : Option (Thread τ)} (h : (a, qa) ∈ waits i wake) :
    (a = .waitAndPop i wake ∧ qa = .waitAndPop (.inr i) wake) ∨
      (a = .recheck i wake ∧ qa = .recheck (.inr i) wake) := by
  simpa only [waits, List.mem_cons, Prod.mk.injEq, List.not_mem_nil, or_false] using h

/-- `wait_and_pop` returns, or its caller goes to sleep. -/
theorem event_of_waits {m m' : QueueMonitor (Thread τ) α} {a : MonitoredAction τ α}
    {qa : QueueAction (Thread τ) α} {e : QueueEvent α} {i : Nat} {wake : Option (Thread τ)}
    (action : (a, qa) ∈ waits i wake) (h : m.Step qa m' e) :
    (∃ item, e = .popped item) ∨ e = .blocked := by
  rcases eq_of_mem_waits action with ⟨-, rfl⟩ | ⟨-, rfl⟩
  · cases h with
    | takeClosed empty closed => exact Or.inl ⟨none, rfl⟩
    | takeItem front notify => exact Or.inl ⟨_, rfl⟩
    | takeBlock empty opened => exact Or.inr rfl
  · cases h with
    | wokenClosed empty closed => exact Or.inl ⟨none, rfl⟩
    | wokenItem front notify => exact Or.inl ⟨_, rfl⟩
    | wokenBlock empty opened => exact Or.inr rfl

/-- Both critical sections of `wait_and_pop` have three outcomes for its worker. -/
theorem afterWait_inv {s s' : MonitoredPool τ α} {a : MonitoredAction τ α}
    {qa : QueueAction (Thread τ) α} {i : Nat} {wake : Option (Thread τ)} {e : PoolEvent α}
    (worker : s.pool.workers[i]? = some .waiting) (action : (a, qa) ∈ waits i wake)
    (h : (s.monitor.step qa).map (s.afterWait i) = some (s', e)) : Step s a s' e := by
  obtain ⟨⟨m, qe⟩, hstep, heq⟩ := Option.map_eq_some_iff.mp h
  rcases event_of_waits action (QueueMonitor.step_inv hstep) with ⟨item, rfl⟩ | rfl
  · cases item with
    | none =>
      cases heq
      exact Step.exited worker action hstep
    | some task =>
      cases heq
      exact Step.taken worker action hstep
  · cases heq
    exact Step.asleep worker action hstep

/-- **Every step has one of these outcomes.** -/
theorem step_inv {s s' : MonitoredPool τ α} {a : MonitoredAction τ α} {e : PoolEvent α}
    (h : s.step a = some (s', e)) : Step s a s' e := by
  cases a with
  | elsewhere a =>
    rw [step] at h
    split at h
    · rename_i hguard
      obtain ⟨⟨pool, e⟩, hstep, heq⟩ := Option.map_eq_some_iff.mp h
      cases heq
      exact Step.elsewhere hguard.1 hguard.2 hstep
    · cases h
  | push t wake =>
    simp only [step] at h
    split at h
    · rename_i task hcaller
      split at h
      · rename_i m ok hstep
        cases h
        exact Step.push hcaller hstep
      · cases h
    · cases h
  | closeQueue t =>
    simp only [step] at h
    split at h
    · rename_i hcaller
      obtain ⟨⟨m, e⟩, hstep, heq⟩ := Option.map_eq_some_iff.mp h
      cases heq
      have hinv := QueueMonitor.step_inv hstep
      cases hinv with
      | shutdown => exact Step.closeQueue hcaller hstep
    · cases h
  | notifyAll t =>
    obtain ⟨⟨m, e⟩, hstep, heq⟩ := Option.map_eq_some_iff.mp h
    cases heq
    have hinv := QueueMonitor.step_inv hstep
    cases hinv with
    | notifyAll inside => exact Step.notifyAll hstep
  | waitAndPop i wake =>
    simp only [step] at h
    split at h
    · rename_i hworker
      exact afterWait_inv hworker (List.mem_cons_self ..) h
    · cases h
  | recheck i wake =>
    simp only [step] at h
    split at h
    · rename_i hworker
      exact afterWait_inv hworker (List.mem_cons_of_mem _ (List.mem_cons_self ..)) h
    · cases h
  | spurious i =>
    obtain ⟨⟨m, e⟩, hstep, heq⟩ := Option.map_eq_some_iff.mp h
    cases heq
    have hinv := QueueMonitor.step_inv hstep
    cases hinv with
    | spurious => exact Step.spurious hstep

end MonitoredPool

/-- A pool with its waits, and any number of threads that call it. -/
def monitoredMachine (τ α : Type*) [DecidableEq τ] (numThreads queueCapacity : Nat) :
    Machine (MonitoredPool τ α) (MonitoredAction τ α) (PoolEvent α) where
  init := ⟨.make numThreads queueCapacity, .empty, ∅⟩
  step := MonitoredPool.step

open MonitoredPool (Step)

/-- A history of the pool over the real queue; its events are those of the pool. -/
abbrev MonitoredHistory (τ α : Type*) := List (MonitoredAction τ α × PoolEvent α)

variable [DecidableEq τ]

/-! ## The queue in it -/

/-- What the end of a critical section of `wait_and_pop` shows. -/
def waitEvent : PoolEvent α → QueueEvent α
  | .taken task => .popped (some task)
  | .exited => .popped none
  | _ => .blocked

/-- What a step of the pool is to its queue. -/
def queueStep : MonitoredAction τ α × PoolEvent α →
    Option (QueueAction (Thread τ) α × QueueEvent α)
  | (.push t wake, .submitted task ok) => some (.push (.inl t) task wake, .pushed ok)
  | (.closeQueue t, _) => some (.shutdown (.inl t), .flagged)
  | (.notifyAll t, _) => some (.notifyAll (.inl t), .returned)
  | (.waitAndPop i wake, e) => some (.waitAndPop (.inr i) wake, waitEvent e)
  | (.recheck i wake, e) => some (.recheck (.inr i) wake, waitEvent e)
  | (.spurious i, _) => some (.spurious (.inr i), .awake)
  | _ => none

/-- A step elsewhere leaves the queue alone. -/
theorem ThreadPool.queue_of_not_onQueue {s s' : ThreadPool τ α} {a : PoolAction τ α}
    {e : PoolEvent α} (h : s.step a = some (s', e)) (off : a.onQueue = false) :
    s'.queue = s.queue := by
  have hinv := ThreadPool.step_inv h
  cases hinv with
  | pushFull caller full => cases off
  | pushRoom caller room => cases off
  | closeQueue caller => cases off
  | exit worker empty closed => cases off
  | pop worker front => cases off
  | _ => rfl

omit [DecidableEq τ] in
theorem queueStep_of_waits {a : MonitoredAction τ α} {qa : QueueAction (Thread τ) α} {i : Nat}
    {wake : Option (Thread τ)} (h : (a, qa) ∈ MonitoredPool.waits i wake) (e : PoolEvent α) :
    queueStep (a, e) = some (qa, waitEvent e) := by
  rcases MonitoredPool.eq_of_mem_waits h with ⟨rfl, rfl⟩ | ⟨rfl, rfl⟩
  · rfl
  · rfl

/-- **Forgetting the pool leaves the queue**, its mutex and its condition variable. -/
def toQueue (τ α : Type*) [DecidableEq τ] (numThreads capacity : Nat) :
    (monitoredMachine τ α numThreads capacity).Refinement
      (queueMachine (Thread τ) α capacity) where
  abs := MonitoredPool.monitor
  label := queueStep
  init := rfl
  step _ hstep := by
    have hinv := MonitoredPool.step_inv hstep
    unfold Machine.Follows
    cases hinv with
    | elsewhere off notified step =>
      show MonitoredPool.monitor _ = _
      simp only [MonitoredPool.monitor, ThreadPool.queue_of_not_onQueue step off]
    | push caller step => exact step
    | closeQueue caller step => exact step
    | notifyAll step => exact step
    | taken worker action step =>
      rw [queueStep_of_waits action]
      exact step
    | exited worker action step =>
      rw [queueStep_of_waits action]
      exact step
    | asleep worker action step =>
      rw [queueStep_of_waits action]
      exact step
    | spurious step => exact step

/-! ## The pool with one-step waits -/

/-- What a step is to a pool that waits in one step: going to sleep and waking up is nothing. -/
def poolStep : MonitoredAction τ α × PoolEvent α → Option (PoolAction τ α × PoolEvent α)
  | (.elsewhere a, e) => some (a, e)
  | (.push t _, e) => some (.push t, e)
  | (.closeQueue t, e) => some (.closeQueue t, e)
  | (.notifyAll _, _) => none
  | (.waitAndPop _ _, .quiet) => none
  | (.waitAndPop i _, e) => some (.waitAndPop i, e)
  | (.recheck _ _, .quiet) => none
  | (.recheck i _, e) => some (.waitAndPop i, e)
  | (.spurious _, _) => none

omit [DecidableEq τ] in
theorem poolStep_of_waits {a : MonitoredAction τ α} {qa : QueueAction (Thread τ) α} {i : Nat}
    {wake : Option (Thread τ)} {e : PoolEvent α} (h : (a, qa) ∈ MonitoredPool.waits i wake)
    (he : e ≠ .quiet) : poolStep (a, e) = some (.waitAndPop i, e) := by
  rcases MonitoredPool.eq_of_mem_waits h with ⟨rfl, -⟩ | ⟨rfl, -⟩
  · cases e <;> first | rfl | exact absurd rfl he
  · cases e <;> first | rfl | exact absurd rfl he

omit [DecidableEq τ] in
theorem poolStep_of_waits_quiet {a : MonitoredAction τ α} {qa : QueueAction (Thread τ) α} {i : Nat}
    {wake : Option (Thread τ)} (h : (a, qa) ∈ MonitoredPool.waits i wake) :
    poolStep (a, .quiet) = none := by
  rcases MonitoredPool.eq_of_mem_waits h with ⟨rfl, -⟩ | ⟨rfl, -⟩
  · rfl
  · rfl

/-- `wait_and_pop` returns an item of the queue, or nothing from one that is empty and shut down. -/
theorem waits_popped {m m' : QueueMonitor (Thread τ) α} {a : MonitoredAction τ α}
    {qa : QueueAction (Thread τ) α} {i : Nat} {wake : Option (Thread τ)} {item : Option α}
    (action : (a, qa) ∈ MonitoredPool.waits i wake) (h : m.Step qa m' (.popped item)) :
    m.queue.waitReady = true ∧ m.queue.popWaited = (item, m'.queue) := by
  rcases MonitoredPool.eq_of_mem_waits action with ⟨-, rfl⟩ | ⟨-, rfl⟩
  all_goals
    cases h <;>
      simp_all [BoundedBlockingQueue.waitReady, BoundedBlockingQueue.popWaited,
        BoundedBlockingQueue.popFront]

/-- A push of the monitor is the push of its queue. -/
theorem push_of_step {m m' : QueueMonitor (Thread τ) α} {t : Thread τ} {task : α}
    {wake : Option (Thread τ)} {ok : Bool} (h : m.Step (.push t task wake) m' (.pushed ok)) :
    m.queue.push task = (ok, m'.queue) := by
  cases h with
  | pushFull full => exact if_pos full
  | pushRoom room notify => exact if_neg (Nat.not_le.mpr room)

/-- A sleeper leaves the queue alone. -/
theorem queue_of_quiet {m m' : QueueMonitor (Thread τ) α} {qa : QueueAction (Thread τ) α}
    {e : QueueEvent α} (h : m.Step qa m' e) (he : e = .blocked ∨ e = .awake ∨ e = .returned) :
    m'.queue = m.queue := by
  cases h <;> first | rfl | simp at he

/-- **Forgetting the sleepers leaves a pool whose waits are one step.** -/
def toPool (τ α : Type*) [DecidableEq τ] (numThreads capacity : Nat) :
    (monitoredMachine τ α numThreads capacity).Refinement
      (poolMachine τ α numThreads capacity) where
  abs := MonitoredPool.pool
  label := poolStep
  init := rfl
  step _ hstep := by
    have hinv := MonitoredPool.step_inv hstep
    unfold Machine.Follows
    cases hinv with
    | elsewhere off notified step => exact step
    | push caller step =>
      have hpush := push_of_step (QueueMonitor.step_inv step)
      rw [MonitoredPool.monitor_queue] at hpush
      show ThreadPool.step _ (.push _) = _
      simp only [ThreadPool.step, caller]
      rw [hpush]
      rfl
    | closeQueue caller step =>
      have hclose := QueueMonitor.step_inv step
      cases hclose with
      | shutdown =>
        show ThreadPool.step _ (.closeQueue _) = _
        simp only [ThreadPool.step, caller]
        rfl
    | notifyAll step =>
      have hqueue := queue_of_quiet (QueueMonitor.step_inv step) (Or.inr (Or.inr rfl))
      show MonitoredPool.pool _ = _
      rw [MonitoredPool.withMonitor, hqueue]
      rfl
    | taken worker action step =>
      obtain ⟨hready, hpop⟩ := waits_popped action (QueueMonitor.step_inv step)
      rw [MonitoredPool.monitor_queue] at hready hpop
      rw [poolStep_of_waits action (by simp)]
      show ThreadPool.step _ (.waitAndPop _) = _
      simp only [ThreadPool.step, worker]
      rw [hready, hpop]
      rfl
    | exited worker action step =>
      obtain ⟨hready, hpop⟩ := waits_popped action (QueueMonitor.step_inv step)
      rw [MonitoredPool.monitor_queue] at hready hpop
      rw [poolStep_of_waits action (by simp)]
      show ThreadPool.step _ (.waitAndPop _) = _
      simp only [ThreadPool.step, worker]
      rw [hready, hpop]
      rfl
    | asleep worker action step =>
      have hqueue := queue_of_quiet (QueueMonitor.step_inv step) (Or.inl rfl)
      rw [poolStep_of_waits_quiet action]
      show MonitoredPool.pool _ = _
      rw [MonitoredPool.withMonitor, hqueue]
      rfl
    | spurious step =>
      have hqueue := queue_of_quiet (QueueMonitor.step_inv step) (Or.inr (Or.inl rfl))
      show MonitoredPool.pool _ = _
      rw [MonitoredPool.withMonitor, hqueue]
      rfl

/-! ## The theorem -/

/-- The part of an event that can be seen from outside. -/
def visible : PoolEvent α → Option (PoolEvent α)
  | .quiet => none
  | e => some e

/-- **The pool with its waits refines the pool with one-step waits, and its queue.**  For any number
    of workers, any capacity, any callers, any choice of whom a notification wakes and any spurious
    wakeups: a run is a run of `ThreadPool` that shows the same and ends in the same state, and what
    it does to the queue is a run of the queue. -/
theorem monitored_refines (numThreads capacity : Nat) {es : MonitoredHistory τ α}
    {s : MonitoredPool τ α} (run : (monitoredMachine τ α numThreads capacity).Run es s) :
    (poolMachine τ α numThreads capacity).Run (es.filterMap poolStep) s.pool ∧
      (es.filterMap poolStep).filterMap (fun e => visible e.2) =
        es.filterMap (fun e => visible e.2) ∧
      (queueMachine (Thread τ) α capacity).Run (es.filterMap queueStep) s.monitor := by
  refine ⟨(toPool τ α numThreads capacity).run run, ?_,
    (toQueue τ α numThreads capacity).run run⟩
  refine run.filterMap_label fun {s a s' e} hstep => ?_
  have hinv := MonitoredPool.step_inv hstep
  cases hinv with
  | elsewhere off notified step => rfl
  | push caller step => rfl
  | closeQueue caller step => rfl
  | notifyAll step => rfl
  | taken worker action step => rw [poolStep_of_waits action (by simp)]; rfl
  | exited worker action step => rw [poolStep_of_waits action (by simp)]; rfl
  | asleep worker action step => rw [poolStep_of_waits_quiet action]; rfl
  | spurious step => rfl

/-- One worker sleeps, is woken by a push, wakes again without cause and takes the task. -/
def sleepyWorker : List (MonitoredAction Nat Nat) :=
  [.waitAndPop 0 none, .spurious 0, .recheck 0 none, .elsewhere (.submit 0 7),
    .push 0 (some (.inr 0)), .recheck 0 none]

/-- The theorem on that run: six steps, of which the pool with one-step waits sees three. -/
theorem monitored_refines_sleepy :
    ∃ (es : MonitoredHistory Nat Nat) (s : MonitoredPool Nat Nat),
      es.length = 6 ∧ es.filterMap (fun e => visible e.2) = [.submitted 7 true, .taken 7] ∧
        (es.filterMap poolStep).filterMap (fun e => visible e.2) =
          [.submitted 7 true, .taken 7] ∧
        (poolMachine Nat Nat 1 1).Run (es.filterMap poolStep) s.pool := by
  obtain ⟨es, s, run, hlength, hseen⟩ := Machine.exists_run (M := monitoredMachine Nat Nat 1 1)
    sleepyWorker (fun es _ => es.length = 6 ∧
      es.filterMap (fun e => visible e.2) = [.submitted 7 true, .taken 7]) (by decide)
  obtain ⟨hrun, hsame, -⟩ := monitored_refines 1 1 run
  exact ⟨es, s, hlength, hseen, hsame.trans hseen, hrun⟩

end HttpServer
