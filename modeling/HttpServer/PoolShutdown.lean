/-
  Graceful shutdown — one thread submits the tasks and afterwards shuts the pool down.

  1. **Specification** — `CalledBy t` is the condition on a step: whoever calls the pool is `t`.
     The steps of the workers, and how each task ends, are left to the scheduler.  `ShutDown s` says
     that nothing can be submitted any more and that `shutdown` is done.

  2. **The crux (`Orderly`)** — `submit` reads `stopped_` and pushes in two steps, and `shutdown`
     sets `stopped_` and closes the queue in two steps.  A single thread is never between the two
     steps of `submit` when `stopped_` is set, so a queue that is closed gets no task any more, and
     a worker leaves its loop only on a closed and empty queue.

  3. **Bridge** — every push is served, so `no_accepted_task_lost` has nothing to exclude; that all
     workers have left is never undone, so `ShutDown` holds from there on.
-/
import HttpServer.PoolDrain

namespace HttpServer

open ThreadPool (Step)

variable {τ α : Type*} [DecidableEq τ]

/-- The thread that makes a call of the pool; a step of a worker has none. -/
def PoolAction.caller : PoolAction τ α → Option τ
  | .submit t _ => some t
  | .push t => some t
  | .shutdown t => some t
  | .closeQueue t => some t
  | .join t => some t
  | _ => none

/-- The condition on a step: all calls of the pool are made by `t`. -/
def CalledBy (t : τ) (_ : ThreadPool τ α) (a : PoolAction τ α) : Prop :=
  a.caller = none ∨ a.caller = some t

instance (t : τ) (s : ThreadPool τ α) (a : PoolAction τ α) : Decidable (CalledBy t s a) :=
  inferInstanceAs (Decidable (_ ∨ _))

/-- A pool that one thread calls. -/
abbrev ownedPool (α : Type*) (numThreads queueCapacity : Nat) (t : τ) :
    Machine (ThreadPool τ α) (PoolAction τ α) (PoolEvent α) :=
  (poolMachine τ α numThreads queueCapacity).restrict (CalledBy t)

/-- The pool is shut down for good: no call of `submit` is under way, a further one returns false,
    and a further `shutdown` returns at once. -/
structure ThreadPool.ShutDown (s : ThreadPool τ α) : Prop where
  no_push : ∀ u s' e, s.step (.push u) ≠ some (s', e)
  submit_false : ∀ u task s' e, s.step (.submit u task) = some (s', e) →
    s' = s ∧ e = .submitted task false
  shutdown_same : ∀ u s' e, s.step (.shutdown u) = some (s', e) → s' = s ∧ e = .quiet

/-! ## The order of the calls -/

/-- What the place of the caller says about `stopped_`. -/
def Caller.agrees : Caller α → Bool → Prop
  | .submitting _, stopped => stopped = false
  | .stopping, stopped => stopped = true
  | _, _ => True

/-- The pool under one caller `t`: the queue is closed behind `stopped_`, `stopped_` is set while
    no `submit` is under way, and a worker leaves only a closed queue. -/
structure Orderly (t : τ) (s : ThreadPool τ α) : Prop where
  others : ∀ u, u ≠ t → s.callers u = .idle
  own : (s.callers t).agrees s.stopped
  closed : s.queue.shutdown = true → s.stopped = true
  exited : ∀ w ∈ s.workers, w.isExited = true → s.queue.shutdown = true

omit [DecidableEq τ] in
theorem orderly_make (t : τ) (numThreads capacity : Nat) :
    Orderly t (ThreadPool.make numThreads capacity : ThreadPool τ α) where
  others _ _ := rfl
  own := trivial
  closed h := by cases h
  exited w hw h := by
    rw [List.eq_of_mem_replicate hw] at h
    cases h

/-- A step that only moves the caller. -/
theorem Orderly.setCaller {t : τ} {s : ThreadPool τ α} (h : Orderly t s) {c : Caller α}
    (hc : c.agrees s.stopped) : Orderly t (s.setCaller t c) where
  others u hu := by
    show Function.update s.callers t c u = .idle
    rw [Function.update_of_ne hu]
    exact h.others u hu
  own := by
    show (Function.update s.callers t c t).agrees s.stopped
    rwa [Function.update_self]
  closed := h.closed
  exited := h.exited

omit [DecidableEq τ] in
/-- A step that only moves a worker. -/
theorem Orderly.setWorker {t : τ} {s : ThreadPool τ α} (h : Orderly t s) {i : Nat} {w' : Worker α}
    (hw : w'.isExited = true → s.queue.shutdown = true) : Orderly t (s.setWorker i w') where
  others := h.others
  own := h.own
  closed := h.closed
  exited w hmem hexited := by
    rcases List.mem_or_eq_of_mem_set hmem with hold | rfl
    · exact h.exited w hold hexited
    · exact hw hexited

/-- **A step of the single caller, or of a worker, keeps the order.** -/
theorem ThreadPool.Step.orderly {t : τ} {s s' : ThreadPool τ α} {a : PoolAction τ α}
    {e : PoolEvent α} (h : Step s a s' e) (hcalled : CalledBy t s a) (hs : Orderly t s) :
    Orderly t s' := by
  -- whoever makes a call is `t`
  have hself : ∀ {u : τ}, a.caller = some u → u = t := by
    intro u hu
    rcases hcalled with hnone | hsome
    · rw [hu] at hnone
      cases hnone
    · rw [hu] at hsome
      exact Option.some.inj hsome
  cases h with
  | submitStopped caller stopped => exact hs
  | submitChecked caller running =>
    obtain rfl := hself rfl
    exact hs.setCaller running
  | pushFull caller full =>
    obtain rfl := hself rfl
    exact hs.setCaller trivial
  | @pushRoom u task caller room =>
    obtain rfl := hself rfl
    have hpush : Orderly u
        { s with queue := { s.queue with queue := s.queue.queue ++ [task] } } :=
      ⟨hs.others, hs.own, hs.closed, hs.exited⟩
    exact hpush.setCaller trivial
  | shutdownAgain caller stopped => exact hs
  | @shutdownFirst u caller running =>
    obtain rfl := hself rfl
    have hidle : (s.callers u).agrees true := by
      rw [caller]
      trivial
    have hstopped : Orderly u { s with stopped := true } :=
      ⟨hs.others, hidle, fun _ => rfl, hs.exited⟩
    exact hstopped.setCaller rfl
  | @closeQueue u caller =>
    obtain rfl := hself rfl
    have hstopped : s.stopped = true := by
      have hown := hs.own
      rwa [caller] at hown
    have hclosed : Orderly u { s with queue := s.queue.close } :=
      ⟨hs.others, hs.own, fun _ => hstopped, fun _ _ _ => rfl⟩
    exact hclosed.setCaller trivial
  | join caller exited =>
    obtain rfl := hself rfl
    exact hs.setCaller trivial
  | exit worker empty closed => exact hs.setWorker fun _ => closed
  | @pop i task rest worker front =>
    have hpop : Orderly t { s with queue := { s.queue with queue := rest } } :=
      ⟨hs.others, hs.own, hs.closed, hs.exited⟩
    exact hpop.setWorker nofun
  | increment worker =>
    have hinc : Orderly t { s with activeWorkers := s.activeWorkers + 1 } :=
      ⟨hs.others, hs.own, hs.closed, hs.exited⟩
    exact hinc.setWorker nofun
  | run outcome worker => exact hs.setWorker (by cases outcome <;> nofun)
  | catchBlock worker => exact hs.setWorker nofun
  | decrement worker =>
    have hdec : Orderly t { s with activeWorkers := s.activeWorkers - 1 } :=
      ⟨hs.others, hs.own, hs.closed, hs.exited⟩
    exact hdec.setWorker nofun

theorem orderly_of_run {numThreads capacity : Nat} {t : τ} {es : PoolHistory τ α}
    {s : ThreadPool τ α} (run : (ownedPool α numThreads capacity t).Run es s) : Orderly t s := by
  refine run.invariant (orderly_make t numThreads capacity) fun _ ih hstep => ?_
  obtain ⟨hcalled, hstep⟩ := (Machine.restrict_step_iff _).mp hstep
  exact (ThreadPool.step_inv hstep).orderly hcalled ih

/-! ## When all workers have left -/

omit [DecidableEq τ] in
theorem length_workers_pos (numThreads : Nat) : 0 < ThreadPool.workerCount numThreads := by
  unfold ThreadPool.workerCount
  split
  · decide
  · omega

theorem ThreadPool.Step.length_workers {s s' : ThreadPool τ α} {a : PoolAction τ α}
    {e : PoolEvent α} (h : Step s a s' e) : s'.workers.length = s.workers.length := by
  cases h <;> first | rfl | exact List.length_set

theorem length_workers_eq {numThreads capacity : Nat} {es : PoolHistory τ α} {s : ThreadPool τ α}
    (run : (poolMachine τ α numThreads capacity).Run es s) :
    s.workers.length = ThreadPool.workerCount numThreads :=
  run.invariant List.length_replicate fun _ ih hstep =>
    (ThreadPool.step_inv hstep).length_workers.trans ih

/-- A pool whose workers have all left is closed, since it has a worker. -/
theorem stopped_of_allExited {numThreads capacity : Nat} {t : τ} {es : PoolHistory τ α}
    {s : ThreadPool τ α} (run : (ownedPool α numThreads capacity t).Run es s)
    (hexited : s.allExited = true) : s.queue.shutdown = true ∧ s.stopped = true := by
  have hs := orderly_of_run run
  have hlength := length_workers_eq run.of_restrict
  have hpos := length_workers_pos numThreads
  rw [← hlength] at hpos
  obtain ⟨w, hw⟩ := List.exists_mem_of_length_pos hpos
  have hclosed := hs.exited w hw (List.all_eq_true.mp hexited w hw)
  exact ⟨hclosed, hs.closed hclosed⟩

/-- In a closed pool no `submit` is under way. -/
theorem Orderly.no_submit {t : τ} {s : ThreadPool τ α} (h : Orderly t s) (hstopped : s.stopped = true)
    (u : τ) (task : α) : s.callers u ≠ .submitting task := by
  intro hu
  by_cases hut : u = t
  · subst hut
    have hown := h.own
    rw [hu, hstopped] at hown
    cases hown
  · rw [h.others u hut] at hu
    cases hu

/-- **With one caller every push is served**: behind the last worker there is no push. -/
theorem pushServed_of_run {numThreads capacity : Nat} {t : τ} {es : PoolHistory τ α}
    {s s' : ThreadPool τ α} {a : PoolAction τ α} {e : PoolEvent α}
    (run : (ownedPool α numThreads capacity t).Run es s) (h : Step s a s' e) : PushServed s a := by
  have hnone : ∀ {u task}, s.callers u = .submitting task → s.allExited = false := by
    intro u task hu
    cases hall : s.allExited with
    | false => rfl
    | true =>
      have hstopped := (stopped_of_allExited run hall).2
      exact absurd hu ((orderly_of_run run).no_submit hstopped u task)
  cases h with
  | pushFull caller full => exact Or.inl (hnone caller)
  | pushRoom caller room => exact Or.inl (hnone caller)
  | _ => exact trivial

theorem served_of_run {numThreads capacity : Nat} {t : τ} {es : PoolHistory τ α}
    {s : ThreadPool τ α} (run : (ownedPool α numThreads capacity t).Run es s) :
    ((poolMachine τ α numThreads capacity).restrict PushServed).Run es s := by
  refine run.invariant Machine.Run.nil fun hrun ih hstep => ?_
  have hstep' := ((Machine.restrict_step_iff _).mp hstep).2
  exact ih.snoc ((Machine.restrict_step_iff _).mpr
    ⟨pushServed_of_run hrun (ThreadPool.step_inv hstep'), hstep'⟩)

theorem shutDown_of_stopped {t : τ} {s : ThreadPool τ α} (h : Orderly t s)
    (hstopped : s.stopped = true) : s.ShutDown where
  no_push u s' e hstep := by
    cases ThreadPool.step_inv hstep with
    | pushFull caller full => exact h.no_submit hstopped u _ caller
    | pushRoom caller room => exact h.no_submit hstopped u _ caller
  submit_false u task s' e hstep := by
    cases ThreadPool.step_inv hstep with
    | submitStopped caller stopped => exact ⟨rfl, rfl⟩
    | submitChecked caller running =>
      rw [hstopped] at running
      cases running
  shutdown_same u s' e hstep := by
    cases ThreadPool.step_inv hstep with
    | shutdownAgain caller stopped => exact ⟨rfl, rfl⟩
    | shutdownFirst caller running =>
      rw [hstopped] at running
      cases running

/-- In every state, a task has been called, or is held by a worker, at most as often as its
    `submit` returned true. -/
theorem executed_held_subperm_accepted {numThreads capacity : Nat} {es : PoolHistory τ α}
    {s : ThreadPool τ α} (run : (poolMachine τ α numThreads capacity).Run es s) :
    (executed es ++ s.heldTasks).Subperm (accepted es) := by
  have hsub : (taken es).Subperm (accepted es) := by
    rw [← taken_append_queue run]
    exact (List.sublist_append_left _ _).subperm
  exact (executed_append_held run).subperm.trans hsub

/-- **Graceful shutdown drains the queue.**  For any number of workers, any capacity and any
    interleaving, with one thread that makes all calls: no task is called, or in the hands of a
    worker, more often than `submit` returned true for it; and once all workers have left, the queue
    is empty, the accepted tasks have been taken in the order of their submission and each called as
    often as it was accepted, and from there on the pool is shut down. -/
theorem graceful_shutdown_drains (numThreads capacity : Nat) (t : τ) {es : PoolHistory τ α}
    {s : ThreadPool τ α} (run : (ownedPool α numThreads capacity t).Run es s) :
    (executed es ++ s.heldTasks).Subperm (accepted es) ∧
      (s.allExited = true →
        s.queue.queue = [] ∧ taken es = accepted es ∧ (executed es).Perm (accepted es) ∧
          ∀ es' s', (ownedPool α numThreads capacity t).Run (es ++ es') s' → s'.ShutDown) := by
  refine ⟨executed_held_subperm_accepted run.of_restrict, fun hexited => ?_⟩
  have hempty : s.queue.queue = [] := by
    rcases served_or_stranded run.of_restrict with ⟨-, hdrained⟩ | ⟨hnot, -⟩
    · exact hdrained hexited
    · exact absurd (served_of_run run) hnot
  have htaken := taken_append_queue run.of_restrict
  rw [hempty, List.append_nil] at htaken
  refine ⟨hempty, htaken, executed_perm_accepted run.of_restrict hexited hempty, ?_⟩
  intro es' s' later
  have hexited' : s'.allExited = true :=
    run.stable (P := fun r => r.allExited = true)
      (fun _ hstep => (ThreadPool.step_inv ((Machine.restrict_step_iff _).mp hstep).2).allExited)
      later hexited
  exact shutDown_of_stopped (orderly_of_run later) (stopped_of_allExited later hexited').2

/-- Two workers, room for two tasks, and three of them: the third is refused, the other two are
    called after the queue was closed, and both throw. -/
def gracefulSchedule : List (PoolAction Nat Nat) :=
  [.submit 0 7, .push 0, .submit 0 8, .push 0, .submit 0 9, .push 0, .shutdown 0, .closeQueue 0,
    .waitAndPop 1, .increment 1, .waitAndPop 0, .run 1 .exception, .increment 0, .catchBlock 1,
    .decrement 1, .run 0 .unknown, .waitAndPop 1, .catchBlock 0, .decrement 0, .waitAndPop 0,
    .join 0, .submit 0 6]

/-- The theorem on that run. -/
theorem graceful_shutdown_drains_two_workers :
    ∃ (es : PoolHistory Nat Nat) (s : ThreadPool Nat Nat),
      accepted es = [7, 8] ∧ s.queue.queue = [] ∧ taken es = accepted es ∧
        (executed es).Perm (accepted es) ∧
          ∀ es' s', (ownedPool Nat 2 2 0).Run (es ++ es') s' → s'.ShutDown := by
  obtain ⟨es, s, run, hexited, haccepted⟩ := Machine.exists_run (M := ownedPool Nat 2 2 0)
    gracefulSchedule (fun es s => s.allExited = true ∧ accepted es = [7, 8]) (by decide +kernel)
  exact ⟨es, s, haccepted, (graceful_shutdown_drains 2 2 0 run).2 hexited⟩

end HttpServer
