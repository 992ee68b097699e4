/-
  Waiting and working — what the condition variable of the queue is worth to the pool.

  1. **Who is where (`Placed`)** — whoever is inside `wait` is a worker at `wait_and_pop`, and whoever
     is in the second half of the queue's `shutdown()` is a caller that joins the workers next.

  2. **No task is left lying** — while a task is queued and a worker is left, a worker is in the middle
     of a turn, or one is awake and its next step takes the task at the front.  A sleeper could only
     stand in the way if nobody had been woken, and that is a lost wakeup.  Whoever is awake goes on,
     unless the task that it runs does not end.

  3. **No busy waiting** — a turn costs its worker five steps and a sleep one; a sleeper costs nothing
     until it is woken, and a push, a `notify_all` and a spurious wakeup pay for those they wake.  The
     account is that of the pool with one-step waits and, beside it, the number of sleepers
     (`monitoredPotential`).
-/
import HttpServer.MonitoredPool

namespace HttpServer

open MonitoredPool (Step waits)

variable {τ α : Type*} [DecidableEq τ]

/-! ## What the critical sections do to the sleepers -/

namespace QueueMonitor

variable {m m' : QueueMonitor (Thread τ) α} {a : MonitoredAction τ α}
  {qa : QueueAction (Thread τ) α} {i : Nat} {wake : Option (Thread τ)}

/-- A consumer enters `wait_and_pop` from outside. -/
theorem idle_of_waitAndPop {t : Thread τ} {r : QueueMonitor (Thread τ) α × QueueEvent α}
    (h : m.step (.waitAndPop t wake) = some r) : m.Idle t := by
  by_contra hnot
  rw [step, if_neg hnot] at h
  cases h

/-- A consumer that looks again has been woken. -/
theorem woken_of_recheck {t : Thread τ} {r : QueueMonitor (Thread τ) α × QueueEvent α}
    (h : m.step (.recheck t wake) = some r) : t ∈ m.cv.woken := by
  by_contra hnot
  rw [step, if_neg hnot] at h
  cases h

theorem inside_of_push {t : Thread τ} {task : α} {ok : Bool}
    (h : m.Step (.push t task wake) m' (.pushed ok)) :
    m'.cv.inside = m.cv.inside ∧ m'.closing = m.closing := by
  cases h with
  | pushFull full => exact ⟨rfl, rfl⟩
  | pushRoom room notify => exact ⟨CondVar.inside_notifyOne notify, rfl⟩

/-- A `wait_and_pop` that returns leaves `wait`, if it was inside. -/
theorem inside_of_popped {item : Option α} (action : (a, qa) ∈ waits i wake)
    (h : m.step qa = some (m', .popped item)) :
    m'.cv.inside = m.cv.inside.erase (.inr i) ∧ m'.closing = m.closing := by
  rcases MonitoredPool.eq_of_mem_waits action with ⟨-, rfl⟩ | ⟨-, rfl⟩
  · have hout : .inr i ∉ m.cv.inside := CondVar.away_iff.mp (idle_of_waitAndPop h).1
    rw [Finset.erase_eq_of_notMem hout]
    have hinv := step_inv h
    cases hinv with
    | takeClosed empty closed => exact ⟨rfl, rfl⟩
    | takeItem front notify => exact ⟨CondVar.inside_notifyOne notify, rfl⟩
  · have hwoken := woken_of_recheck h
    have hinv := step_inv h
    cases hinv with
    | wokenClosed empty closed => exact ⟨CondVar.inside_leave hwoken, rfl⟩
    | wokenItem front notify =>
      exact ⟨(CondVar.inside_notifyOne notify).trans (CondVar.inside_leave hwoken), rfl⟩

/-- One that goes to sleep is inside. -/
theorem inside_of_blocked (action : (a, qa) ∈ waits i wake)
    (h : m.step qa = some (m', .blocked)) :
    m'.cv.inside = insert (.inr i) m.cv.inside ∧ m'.closing = m.closing := by
  have hinv := step_inv h
  rcases MonitoredPool.eq_of_mem_waits action with ⟨-, rfl⟩ | ⟨-, rfl⟩
  · cases hinv with
    | takeBlock empty opened => exact ⟨CondVar.inside_block m.cv _, rfl⟩
  · cases hinv with
    | wokenBlock empty opened => exact ⟨CondVar.inside_block m.cv _, rfl⟩

end QueueMonitor

/-! ## Who is where -/

/-- The threads inside `wait` are workers that wait, those inside `shutdown()` are callers that join
    next. -/
structure Placed (s : MonitoredPool τ α) : Prop where
  inside : ∀ x ∈ s.cv.inside, ∃ i, x = .inr i ∧ s.pool.workers[i]? = some .waiting
  closing : ∀ x ∈ s.closing, ∃ t, x = .inl t ∧ s.pool.callers t = .joining

/-- A worker that does not wait is overwritten. -/
theorem Placed.inside_set {s : MonitoredPool τ α} (h : Placed s) {i : Nat} {w w' : Worker α}
    (hw : s.pool.workers[i]? = some w) (hne : w ≠ .waiting) :
    ∀ x ∈ s.cv.inside, ∃ j, x = .inr j ∧ (s.pool.workers.set i w')[j]? = some .waiting := by
  intro x hx
  obtain ⟨j, rfl, hj⟩ := h.inside x hx
  refine ⟨j, rfl, ?_⟩
  have hij : i ≠ j := by
    rintro rfl
    rw [hw] at hj
    exact hne (Option.some.inj hj)
  rw [List.getElem?_set_ne hij, hj]

/-- A worker that is overwritten has left `wait`. -/
theorem Placed.inside_erase {s : MonitoredPool τ α} (h : Placed s) {i : Nat} {w : Worker α} :
    ∀ x ∈ s.cv.inside.erase (.inr i),
      ∃ j, x = .inr j ∧ (s.pool.workers.set i w)[j]? = some .waiting := by
  intro x hx
  obtain ⟨hne, hx⟩ := Finset.mem_erase.mp hx
  obtain ⟨j, rfl, hj⟩ := h.inside x hx
  have hij : i ≠ j := by
    rintro rfl
    exact hne rfl
  exact ⟨j, rfl, by rw [List.getElem?_set_ne hij, hj]⟩

/-- A caller that does not join moves on. -/
theorem Placed.closing_set {s : MonitoredPool τ α} (h : Placed s) {t : τ} {c : Caller α}
    (hne : .inl t ∉ s.closing ∨ c = .joining) :
    ∀ x ∈ s.closing, ∃ u, x = .inl u ∧ Function.update s.pool.callers t c u = .joining := by
  intro x hx
  obtain ⟨u, rfl, hu⟩ := h.closing x hx
  refine ⟨u, rfl, ?_⟩
  by_cases hut : u = t
  · subst hut
    rw [Function.update_self]
    exact hne.resolve_left fun hnot => hnot hx
  · rw [Function.update_of_ne hut, hu]

/-- A caller somewhere else is not in the second half of `shutdown()`. -/
theorem Placed.notMem_closing {s : MonitoredPool τ α} (h : Placed s) {t : τ} {c : Caller α}
    (hc : s.pool.callers t = c) (hne : c ≠ .joining) : .inl t ∉ s.closing := by
  intro hin
  obtain ⟨u, heq, hu⟩ := h.closing _ hin
  cases heq
  exact hne (hc.symm.trans hu)

/-- **Every step keeps the threads in their places.** -/
theorem MonitoredPool.Step.placed {s s' : MonitoredPool τ α} {a : MonitoredAction τ α}
    {e : PoolEvent α} (h : Step s a s' e) (hp : Placed s) : Placed s' := by
  cases h with
  | elsewhere off notified step =>
    have hinv := ThreadPool.step_inv step
    cases hinv with
    | submitStopped caller stopped => exact hp
    | submitChecked caller running =>
      exact ⟨hp.inside, hp.closing_set (Or.inl (hp.notMem_closing caller (by simp)))⟩
    | pushFull caller full => cases off
    | pushRoom caller room => cases off
    | shutdownAgain caller stopped => exact hp
    | shutdownFirst caller running =>
      exact ⟨hp.inside, hp.closing_set (Or.inl (hp.notMem_closing caller (by simp)))⟩
    | closeQueue caller => cases off
    | join caller exited => exact ⟨hp.inside, hp.closing_set (Or.inl notified)⟩
    | exit worker empty closed => cases off
    | pop worker front => cases off
    | increment worker => exact ⟨hp.inside_set worker (by simp), hp.closing⟩
    | run outcome worker => exact ⟨hp.inside_set worker (by simp), hp.closing⟩
    | catchBlock worker => exact ⟨hp.inside_set worker (by simp), hp.closing⟩
    | decrement worker => exact ⟨hp.inside_set worker (by simp), hp.closing⟩
  | push caller step =>
    obtain ⟨hinside, hclosing⟩ := QueueMonitor.inside_of_push (QueueMonitor.step_inv step)
    refine ⟨fun x hx => hp.inside x (hinside.subset hx), fun x hx => ?_⟩
    exact hp.closing_set (Or.inl (hp.notMem_closing caller (by simp))) x (hclosing.subset hx)
  | @closeQueue t m caller step =>
    have hinv := QueueMonitor.step_inv step
    cases hinv with
    | shutdown =>
      refine ⟨hp.inside, fun x hx => ?_⟩
      rcases Finset.mem_insert.mp hx with rfl | hx
      · exact ⟨t, rfl, Function.update_self ..⟩
      · exact hp.closing_set (Or.inr rfl) x hx
  | notifyAll step =>
    have hinv := QueueMonitor.step_inv step
    cases hinv with
    | notifyAll inside =>
      refine ⟨fun x hx => hp.inside x ?_, fun x hx => hp.closing x (Finset.mem_of_mem_erase hx)⟩
      rw [← CondVar.inside_notifyAll]
      exact hx
  | @taken a qa i wake m task worker action step =>
    obtain ⟨hinside, hclosing⟩ := QueueMonitor.inside_of_popped action step
    exact ⟨fun x hx => hp.inside_erase x (hinside.subset hx),
      fun x hx => hp.closing x (hclosing.subset hx)⟩
  | @exited a qa i wake m worker action step =>
    obtain ⟨hinside, hclosing⟩ := QueueMonitor.inside_of_popped action step
    exact ⟨fun x hx => hp.inside_erase x (hinside.subset hx),
      fun x hx => hp.closing x (hclosing.subset hx)⟩
  | @asleep a qa i wake m worker action step =>
    obtain ⟨hinside, hclosing⟩ := QueueMonitor.inside_of_blocked action step
    refine ⟨fun x hx => ?_, fun x hx => hp.closing x (hclosing.subset hx)⟩
    have hx' : x ∈ insert (.inr i) s.cv.inside := hinside.subset hx
    rcases Finset.mem_insert.mp hx' with rfl | hx'
    · exact ⟨i, rfl, worker⟩
    · exact hp.inside x hx'
  | @spurious i m step =>
    have hasleep : .inr i ∈ s.cv.blocked := by
      by_contra hnot
      have hnone : s.monitor.step (.spurious (.inr i)) = none := if_neg hnot
      rw [hnone] at step
      cases step
    have hinv := QueueMonitor.step_inv step
    cases hinv with
    | spurious =>
      refine ⟨fun x hx => hp.inside x ?_, hp.closing⟩
      rw [← CondVar.inside_wake hasleep]
      exact hx

theorem placed_of_run {numThreads capacity : Nat} {es : MonitoredHistory τ α}
    {s : MonitoredPool τ α} (run : (monitoredMachine τ α numThreads capacity).Run es s) :
    Placed s := by
  refine run.invariant ⟨fun x hx => absurd hx ?_, fun x hx => absurd hx (Finset.notMem_empty x)⟩
    fun _ ih hstep => (MonitoredPool.step_inv hstep).placed ih
  show x ∉ (∅ ∪ ∅ : Finset (Thread τ))
  rw [Finset.empty_union]
  exact Finset.notMem_empty x

/-! ## No task is left lying -/

/-- Which worker takes the step of its own accord. -/
def MonitoredAction.worker : MonitoredAction τ α → Option Nat
  | .elsewhere a => a.worker
  | .waitAndPop i _ => some i
  | .recheck i _ => some i
  | .push _ _ => none
  | .closeQueue _ => none
  | .notifyAll _ => none
  | .spurious _ => none

omit [DecidableEq τ] in
theorem worker_of_waits {a : MonitoredAction τ α} {qa : QueueAction (Thread τ) α} {i : Nat}
    {wake : Option (Thread τ)} (h : (a, qa) ∈ waits i wake) : a.worker = some i := by
  rcases MonitoredPool.eq_of_mem_waits h with ⟨rfl, -⟩ | ⟨rfl, -⟩
  · rfl
  · rfl

/-- The end of `wait_and_pop` can find somebody to notify. -/
theorem QueueMonitor.exists_finishPop {m : QueueMonitor (Thread τ) α} (cv : CondVar (Thread τ))
    (hready : m.queue.waitReady = true) :
    ∃ wake m' item, m.finishPop cv wake m.queue.popWaited = some (m', .popped item) ∧
      ∀ task rest, m.queue.queue = task :: rest → item = some task := by
  rcases BoundedBlockingQueue.popWaited_cases hready with
    ⟨hempty, -, hpop⟩ | ⟨task, rest, hfront, hpop⟩
  · refine ⟨none, _, none, by rw [hpop]; rfl, fun task rest hfront => ?_⟩
    rw [hempty] at hfront
    cases hfront
  · obtain ⟨wake, cv', hnotify⟩ := cv.exists_notifyOne
    refine ⟨wake, { m with queue := { m.queue with queue := rest }, cv := cv' }, some task, ?_,
      fun task' rest' hfront' => ?_⟩
    · rw [hpop]
      show (cv.notifyOne wake).map _ = _
      rw [hnotify]
      rfl
    · rw [hfront] at hfront'
      cases hfront'
      rfl

/-- A worker that has the lock in `wait_and_pop` goes on, and takes the front of the queue if there
    is one. -/
theorem QueueMonitor.exists_wait {m : QueueMonitor (Thread τ) α} {i : Nat}
    (h : m.Idle (.inr i) ∨ .inr i ∈ m.cv.woken) :
    ∃ (a : MonitoredAction τ α) (qa : QueueAction (Thread τ) α) (wake : Option (Thread τ))
      (m' : QueueMonitor (Thread τ) α) (e : QueueEvent α),
      (a, qa) ∈ waits i wake ∧ m.step qa = some (m', e) ∧
        ∀ task rest, m.queue.queue = task :: rest → e = .popped (some task) := by
  cases hready : m.queue.waitReady with
  | false =>
    obtain ⟨hempty, -⟩ := BoundedBlockingQueue.of_not_waitReady hready
    have hnone : ∀ task rest, m.queue.queue = task :: rest →
        (QueueEvent.blocked : QueueEvent α) = .popped (some task) := by
      intro task rest hfront
      rw [hempty] at hfront
      cases hfront
    rcases h with hidle | hwoken
    · exact ⟨_, _, none, _, .blocked, List.mem_cons_self ..,
        by simp only [step, hidle, hready, if_true]; rfl, hnone⟩
    · exact ⟨_, _, none, _, .blocked, List.mem_cons_of_mem _ (List.mem_cons_self ..),
        by simp only [step, hwoken, hready, if_true]; rfl, hnone⟩
  | true =>
    rcases h with hidle | hwoken
    · obtain ⟨wake, m', item, hfinish, hitem⟩ := exists_finishPop m.cv hready
      refine ⟨_, _, wake, m', .popped item, List.mem_cons_self .., ?_, fun task rest hfront => ?_⟩
      · simp only [step, hidle, hready, if_true]
        exact hfinish
      · rw [hitem task rest hfront]
    · obtain ⟨wake, m', item, hfinish, hitem⟩ := exists_finishPop (m.cv.leave (.inr i)) hready
      refine ⟨_, _, wake, m', .popped item, List.mem_cons_of_mem _ (List.mem_cons_self ..), ?_,
        fun task rest hfront => ?_⟩
      · simp only [step, hwoken, hready, if_true]
        exact hfinish
      · rw [hitem task rest hfront]

omit [DecidableEq τ] in
/-- The end of a critical section of `wait_and_pop` is not the end of a task. -/
theorem MonitoredPool.comes_afterWait (s : MonitoredPool τ α) (ends : α → Prop) (i : Nat)
    (r : QueueMonitor (Thread τ) α × QueueEvent α) : (s.afterWait i r).2.Comes ends := by
  obtain ⟨m, e⟩ := r
  cases e with
  | popped item => cases item <;> trivial
  | _ => trivial

/-- **A worker at `wait_and_pop` that is awake has a step**, whatever becomes of the tasks, and it
    takes the front of the queue if there is one. -/
theorem Placed.exists_waitStep {s : MonitoredPool τ α} (hp : Placed s) (ends : α → Prop) {i : Nat}
    (hw : s.pool.workers[i]? = some .waiting) (hawake : .inr i ∉ s.cv.blocked) :
    ∃ a s' e, a.worker = some i ∧ s.step a = some (s', e) ∧ e.Comes ends ∧
      ∀ task rest, s.pool.queue.queue = task :: rest → e = .taken task := by
  have hplace : s.monitor.Idle (.inr i) ∨ .inr i ∈ s.monitor.cv.woken := by
    by_cases hwoken : .inr i ∈ s.cv.woken
    · exact Or.inr hwoken
    · refine Or.inl ⟨⟨hawake, hwoken⟩, fun hin => ?_⟩
      obtain ⟨t, heq, -⟩ := hp.closing _ hin
      cases heq
  obtain ⟨a, qa, wake, m, e, action, hstep, hfront⟩ := QueueMonitor.exists_wait hplace
  have hafter : s.step a = some (s.afterWait i (m, e)) := by
    rcases MonitoredPool.eq_of_mem_waits action with ⟨rfl, rfl⟩ | ⟨rfl, rfl⟩
    all_goals
      simp only [MonitoredPool.step, hw, hstep, Option.map_some]
  refine ⟨a, _, _, worker_of_waits action, hafter, s.comes_afterWait ends i (m, e),
    fun task rest hqueue => ?_⟩
  rw [hfront task rest hqueue]

/-- A worker that has not left and is not in the middle of a turn is at `wait_and_pop`. -/
theorem Worker.eq_waiting {w : Worker α} (hleft : w.isExited = false) (hturn : w.inTurn = false) :
    w = .waiting := by
  cases w with
  | waiting => rfl
  | exited => cases hleft
  | popped task => cases hturn
  | running task => cases hturn
  | caught => cases hturn
  | finished => cases hturn

/-- Worker `i` has a step that comes, where the tasks in `ends` are those whose calls end. -/
def MonitoredPool.CanStep (ends : α → Prop) (s : MonitoredPool τ α) (i : Nat) : Prop :=
  ∃ a s' e, a.worker = some i ∧ s.step a = some (s', e) ∧ e.Comes ends

/-- A worker in the middle of a turn has a step, unless the task that it runs does not end. -/
theorem exists_turnStep {ends : α → Prop} {s : MonitoredPool τ α} {i : Nat} {w : Worker α}
    (hw : s.pool.workers[i]? = some w) (hturn : w.inTurn = true) (hends : ¬ w.Hangs ends) :
    s.CanStep ends i := by
  have hleft : w.isExited = false := by
    cases w <;> first | rfl | cases hturn
  have hqueue : w = .waiting → s.pool.queue.waitReady = true := by
    rintro rfl
    cases hturn
  obtain ⟨a, p, e, ha, hstep, hcomes, -⟩ := exists_workerStep hw hleft hqueue hends
  refine ⟨.elsewhere a, { s with pool := p }, e, ha, ?_, hcomes⟩
  have hoff : a.onQueue = false ∧ s.Notified a := by
    cases a with
    | waitAndPop j =>
      cases ha
      have hinv := ThreadPool.step_inv hstep
      cases hinv with
      | exit worker empty closed =>
        rw [hw] at worker
        cases worker
        cases hturn
      | pop worker front =>
        rw [hw] at worker
        cases worker
        cases hturn
    | increment j => exact ⟨rfl, trivial⟩
    | run j outcome => exact ⟨rfl, trivial⟩
    | catchBlock j => exact ⟨rfl, trivial⟩
    | decrement j => exact ⟨rfl, trivial⟩
    | _ => cases ha
  rw [MonitoredPool.step, if_pos hoff, hstep]
  rfl

/-! ## No busy waiting -/

/-- The task that a step accepts. -/
def acceptedIn : MonitoredAction τ α × PoolEvent α → Option α
  | (_, .submitted task true) => some task
  | _ => none

/-- The caller whose `notify_all` a step is. -/
def notifiedIn : MonitoredAction τ α × PoolEvent α → Option τ
  | (.notifyAll t, _) => some t
  | _ => none

/-- The worker that a step wakes without cause. -/
def wokenIn : MonitoredAction τ α × PoolEvent α → Option Nat
  | (.spurious i, _) => some i
  | _ => none

/-- The steps that workers took of their own accord: which worker, in order. -/
def ownSteps (es : MonitoredHistory τ α) : List Nat := es.filterMap fun e => e.1.worker

/-- What is in front of the workers: the account of the pool, a wakeup for each queued task, and the
    workers that do not sleep. -/
def MonitoredPool.ahead (s : MonitoredPool τ α) : Nat :=
  s.pool.ahead + s.pool.queue.queue.length + (s.pool.workers.length - s.cv.blocked.card)

/-- No more sleepers than workers. -/
theorem Placed.card_blocked_le {s : MonitoredPool τ α} (hp : Placed s) :
    s.cv.blocked.card ≤ s.pool.workers.length := by
  have hsub : s.cv.blocked ⊆ (Finset.range s.pool.workers.length).image Sum.inr := by
    intro x hx
    obtain ⟨i, rfl, hi⟩ := hp.inside x (s.cv.blocked_subset_inside hx)
    obtain ⟨hlt, -⟩ := List.getElem?_eq_some_iff.mp hi
    exact Finset.mem_image_of_mem _ (Finset.mem_range.mpr hlt)
  have hcard := (Finset.card_le_card hsub).trans Finset.card_image_le
  rwa [Finset.card_range] at hcard

namespace QueueMonitor

variable {m m' : QueueMonitor (Thread τ) α} {a : MonitoredAction τ α}
  {qa : QueueAction (Thread τ) α} {i : Nat} {wake : Option (Thread τ)}

/-- A push adds one item and wakes one sleeper, or does neither. -/
theorem account_of_push {t : Thread τ} {task : α} {ok : Bool}
    (h : m.Step (.push t task wake) m' (.pushed ok)) :
    m'.queue.queue.length = m.queue.queue.length + ok.toNat ∧
      m.cv.blocked.card ≤ m'.cv.blocked.card + ok.toNat := by
  cases h with
  | pushFull full => exact ⟨rfl, Nat.le_refl _⟩
  | pushRoom room notify => exact ⟨List.length_append, CondVar.card_blocked_notifyOne notify⟩

/-- A pop takes one item out and wakes one sleeper, or does neither. -/
theorem account_of_popped {item : Option α} (action : (a, qa) ∈ waits i wake)
    (h : m.Step qa m' (.popped item)) :
    m.queue.queue.length = m'.queue.queue.length + item.toList.length ∧
      m.cv.blocked.card ≤ m'.cv.blocked.card + item.toList.length := by
  rcases MonitoredPool.eq_of_mem_waits action with ⟨-, rfl⟩ | ⟨-, rfl⟩
  · cases h with
    | takeClosed empty closed => exact ⟨rfl, Nat.le_refl _⟩
    | takeItem front notify =>
      exact ⟨by rw [front]; rfl, CondVar.card_blocked_notifyOne notify⟩
  · cases h with
    | wokenClosed empty closed => exact ⟨rfl, Nat.le_refl _⟩
    | wokenItem front notify =>
      have hcard := CondVar.card_blocked_notifyOne notify
      rw [CondVar.blocked_leave] at hcard
      exact ⟨by rw [front]; rfl, hcard⟩

/-- A worker that goes to sleep is one sleeper more. -/
theorem account_of_blocked (action : (a, qa) ∈ waits i wake)
    (h : m.step qa = some (m', .blocked)) :
    m'.queue = m.queue ∧ m'.cv.blocked.card = m.cv.blocked.card + 1 := by
  have hinv := step_inv h
  rcases MonitoredPool.eq_of_mem_waits action with ⟨-, rfl⟩ | ⟨-, rfl⟩
  · have hidle := idle_of_waitAndPop h
    cases hinv with
    | takeBlock empty opened => exact ⟨rfl, Finset.card_insert_of_notMem hidle.1.1⟩
  · have hwoken := woken_of_recheck h
    have hnot : .inr i ∉ m.cv.blocked := fun hb => Finset.disjoint_left.mp m.cv.disjoint hb hwoken
    cases hinv with
    | wokenBlock empty opened => exact ⟨rfl, Finset.card_insert_of_notMem hnot⟩

end QueueMonitor

/-- What a step pays in. -/
def monitoredCredit (threads : Nat) (e : MonitoredAction τ α × PoolEvent α) : Nat :=
  7 * (acceptedIn e).toList.length + threads * (notifiedIn e).toList.length +
    1 * (wokenIn e).toList.length

/-- What a step does to the account of the pool with one-step waits. -/
theorem pool_account {numThreads capacity : Nat} {es : MonitoredHistory τ α}
    {s s' : MonitoredPool τ α} {a : MonitoredAction τ α} {e : PoolEvent α}
    (run : (monitoredMachine τ α numThreads capacity).Run es s)
    (hstep : (monitoredMachine τ α numThreads capacity).step s a = some (s', e)) :
    s'.pool.ahead + (poolStep (a, e)).toList.length * a.worker.toList.length ≤
        s.pool.ahead + 5 * (acceptedIn (a, e)).toList.length ∧
      s'.pool.workers.length = s.pool.workers.length := by
  have hfollows := (toPool τ α numThreads capacity).step run hstep
  have hlabel : (toPool τ α numThreads capacity).label (a, e) = poolStep (a, e) := rfl
  rw [hlabel] at hfollows
  cases hpool : poolStep (a, e) with
  | none =>
    rw [hpool] at hfollows
    have hsame : s'.pool = s.pool := hfollows
    rw [hsame]
    exact ⟨by simp, rfl⟩
  | some label =>
    obtain ⟨pa, pe⟩ := label
    rw [hpool] at hfollows
    have hinv := ThreadPool.step_inv (show s.pool.step pa = some (s'.pool, pe) from hfollows)
    have hpays := hinv.pays
    have hsame : acceptedTask (pa, pe) = acceptedIn (a, e) ∧ pa.worker = a.worker := by
      revert hpool
      cases a <;> cases e <;> intro hpool <;> cases hpool <;>
        first | exact ⟨rfl, rfl⟩ | exact ⟨by cases ‹Bool› <;> rfl, rfl⟩
    rw [hsame.1, hsame.2] at hpays
    exact ⟨by simpa using hpays, hinv.length_workers⟩

/-- **What a step does to the account.** -/
theorem monitored_pays {numThreads capacity : Nat} {es : MonitoredHistory τ α}
    {s s' : MonitoredPool τ α} {a : MonitoredAction τ α} {e : PoolEvent α}
    (run : (monitoredMachine τ α numThreads capacity).Run es s)
    (hstep : (monitoredMachine τ α numThreads capacity).step s a = some (s', e)) :
    s'.ahead + 1 * a.worker.toList.length ≤
      s.ahead + monitoredCredit s.pool.workers.length (a, e) := by
  obtain ⟨hpool, hworkers⟩ := pool_account run hstep
  have hbound := (placed_of_run run).card_blocked_le
  have hbound' := (placed_of_run (run.snoc hstep)).card_blocked_le
  have hinv := MonitoredPool.step_inv hstep
  unfold MonitoredPool.ahead
  rw [hworkers] at hbound' ⊢
  unfold monitoredCredit
  cases hinv with
  | @elsewhere a pool e off notified step =>
    have hqueue := ThreadPool.queue_of_not_onQueue step off
    have hlabel : (poolStep (.elsewhere a, e) : Option (PoolAction τ α × PoolEvent α)) =
        some (a, e) := rfl
    rw [hlabel, Option.toList_some, List.length_singleton] at hpool
    simp only [hqueue] at hpool ⊢
    omega
  | @push t task wake m ok caller step =>
    obtain ⟨hlength, hcard⟩ := QueueMonitor.account_of_push (QueueMonitor.step_inv step)
    have hcredit : (acceptedIn (.push t wake, .submitted task ok)).toList.length = ok.toNat := by
      cases ok <;> rfl
    rw [hcredit] at hpool ⊢
    have hown : (MonitoredAction.push t wake : MonitoredAction τ α).worker.toList.length = 0 := rfl
    show _ + m.queue.queue.length + (_ - m.cv.blocked.card) + _ ≤ _
    rw [MonitoredPool.monitor_queue] at hlength
    rw [MonitoredPool.monitor_cv] at hcard
    have hafter : ((s.withMonitor m).setCaller t .idle).cv.blocked.card = m.cv.blocked.card := rfl
    omega
  | @closeQueue t m caller step =>
    have hclose := QueueMonitor.step_inv step
    have hown : (MonitoredAction.closeQueue t : MonitoredAction τ α).worker.toList.length = 0 := rfl
    cases hclose with
    | shutdown =>
      show _ + s.pool.queue.queue.length + (_ - s.cv.blocked.card) + _ ≤ _
      omega
  | @notifyAll t m step =>
    have hnotify := QueueMonitor.step_inv step
    have hown : (MonitoredAction.notifyAll t : MonitoredAction τ α).worker.toList.length = 0 := rfl
    have hone : (notifiedIn (.notifyAll t, (.quiet : PoolEvent α))).toList.length = 1 := rfl
    cases hnotify with
    | notifyAll inside =>
      -- the workers that it wakes are paid for
      show _ + s.pool.queue.queue.length + (_ - 0) + _ ≤ _
      rw [hone, Nat.mul_one]
      omega
  | @taken a qa i wake m task worker action step =>
    obtain ⟨hlength, hcard⟩ := QueueMonitor.account_of_popped action (QueueMonitor.step_inv step)
    rw [MonitoredPool.monitor_queue] at hlength
    rw [MonitoredPool.monitor_cv] at hcard
    rw [poolStep_of_waits action (by simp), worker_of_waits action] at hpool
    rw [worker_of_waits action]
    simp only [Option.toList_some, List.length_singleton] at hlength hcard hpool ⊢
    show _ + m.queue.queue.length + (_ - m.cv.blocked.card) + _ ≤ _
    have hnone : (acceptedIn (a, PoolEvent.taken task)).toList.length = 0 := rfl
    have hlt : m.cv.blocked.card ≤ s.pool.workers.length := hbound'
    omega
  | @exited a qa i wake m worker action step =>
    obtain ⟨hlength, hcard⟩ := QueueMonitor.account_of_popped action (QueueMonitor.step_inv step)
    rw [MonitoredPool.monitor_queue] at hlength
    rw [MonitoredPool.monitor_cv] at hcard
    rw [poolStep_of_waits action (by simp), worker_of_waits action] at hpool
    rw [worker_of_waits action]
    simp only [Option.toList_some, Option.toList_none, List.length_singleton,
      List.length_nil] at hlength hcard hpool ⊢
    show _ + m.queue.queue.length + (_ - m.cv.blocked.card) + _ ≤ _
    have hnone : (acceptedIn (a, (.exited : PoolEvent α))).toList.length = 0 := rfl
    omega
  | @asleep a qa i wake m worker action step =>
    obtain ⟨hqueue, hcard⟩ := QueueMonitor.account_of_blocked action step
    rw [MonitoredPool.monitor_queue] at hqueue
    rw [MonitoredPool.monitor_cv] at hcard
    rw [worker_of_waits action]
    have hlt : m.cv.blocked.card ≤ s.pool.workers.length := hbound'
    have hnone : (acceptedIn (a, (.quiet : PoolEvent α))).toList.length = 0 := rfl
    show _ + m.queue.queue.length + (_ - m.cv.blocked.card) + 1 * 1 ≤ _
    rw [hqueue]
    omega
  | @spurious i m step =>
    have hwake := QueueMonitor.step_inv step
    have hown : (MonitoredAction.spurious i : MonitoredAction τ α).worker.toList.length = 0 := rfl
    have hone : (wokenIn ((.spurious i, .quiet) :
      MonitoredAction τ α × PoolEvent α)).toList.length = 1 := rfl
    cases hwake with
    | spurious =>
      show _ + s.pool.queue.queue.length + (_ - (s.cv.blocked.erase (.inr i)).card) + _ ≤ _
      have hcard := Finset.pred_card_le_card_erase (s := s.cv.blocked) (a := .inr i)
      omega

/-- The steps of workers, paid for by the tasks that were accepted and by those who wake them. -/
def monitoredPotential (τ α : Type*) [DecidableEq τ] (numThreads capacity : Nat) :
    (monitoredMachine τ α numThreads capacity).Potential where
  inv s := s.pool.workers.length = ThreadPool.workerCount numThreads
  rank := MonitoredPool.ahead
  cost e := 1 * e.1.worker.toList.length
  credit := monitoredCredit (ThreadPool.workerCount numThreads)
  keep run h hstep := (pool_account run hstep).2.trans h
  pay run h hstep := h ▸ monitored_pays run hstep

/-- The steps of workers in a part of a run, and what it paid in. -/
theorem ownSteps_le {numThreads capacity : Nat} {es : MonitoredHistory τ α}
    {s : MonitoredPool τ α} (run : (monitoredMachine τ α numThreads capacity).Run es s) :
    (ownSteps es).length ≤ 2 * ThreadPool.workerCount numThreads +
      7 * (es.filterMap acceptedIn).length +
        ThreadPool.workerCount numThreads * (es.filterMap notifiedIn).length +
          (es.filterMap wokenIn).length := by
  have haccount := (monitoredPotential τ α numThreads capacity).run Machine.Run.nil
    (show (monitoredMachine τ α numThreads capacity).Run ([] ++ es) s from run)
    (List.length_replicate : (List.replicate _ (Worker.waiting : Worker α)).length = _)
  have hcost := Machine.Potential.sum_map_toList 1 (fun e => e.1.worker) es
  have hcredit : (es.map (monitoredCredit (ThreadPool.workerCount numThreads))).sum =
      7 * (es.filterMap acceptedIn).length +
        ThreadPool.workerCount numThreads * (es.filterMap notifiedIn).length +
          1 * (es.filterMap wokenIn).length := by
    rw [← Machine.Potential.sum_map_toList, ← Machine.Potential.sum_map_toList,
      ← Machine.Potential.sum_map_toList, ← List.sum_map_add, ← List.sum_map_add]
    rfl
  have hinit : (monitoredMachine τ α numThreads capacity).init.ahead =
      2 * ThreadPool.workerCount numThreads := by
    show 5 * 0 + ((List.replicate (ThreadPool.workerCount numThreads)
      (Worker.waiting : Worker α)).map Worker.ahead).sum + 0 +
        ((List.replicate (ThreadPool.workerCount numThreads)
          (Worker.waiting : Worker α)).length - 0) = _
    rw [List.map_replicate, List.sum_replicate, List.length_replicate]
    show 5 * 0 + ThreadPool.workerCount numThreads * 1 + 0 + _ = _
    omega
  have hsum : s.ahead + 1 * (ownSteps es).length ≤
      (monitoredMachine τ α numThreads capacity).init.ahead +
        (es.map (monitoredCredit (ThreadPool.workerCount numThreads))).sum := by
    rw [ownSteps, ← hcost]
    exact haccount
  rw [hinit, hcredit] at hsum
  omega

/-! ## Who is awake -/

/-- **A queued task does not wait for sleepers alone**: of the workers at `wait_and_pop` one is awake,
    the given one or the one that was woken for the task. -/
theorem exists_awake {numThreads capacity : Nat} {es : MonitoredHistory τ α}
    {s : MonitoredPool τ α} (run : (monitoredMachine τ α numThreads capacity).Run es s)
    {task : α} {rest : List α} (hfront : s.pool.queue.queue = task :: rest) {i : Nat}
    (hw : s.pool.workers[i]? = some .waiting) :
    ∃ j, s.pool.workers[j]? = some .waiting ∧ .inr j ∉ s.cv.blocked := by
  by_cases hasleep : .inr i ∈ s.cv.blocked
  · have hcovers : s.cv.Covers s.pool.queue.queue.length :=
      covers_of_run ((toQueue τ α numThreads capacity).run run)
    have hone := hcovers ⟨_, hasleep⟩
    rw [hfront, List.length_cons] at hone
    obtain ⟨x, hx⟩ := Finset.card_pos.mp (show 0 < s.cv.woken.card by omega)
    obtain ⟨j, rfl, hj⟩ := (placed_of_run run).inside x (Finset.mem_union_right _ hx)
    exact ⟨j, hj, fun hb => Finset.disjoint_left.mp s.cv.disjoint hb hx⟩
  · exact ⟨i, hw, hasleep⟩

/-- **Behind a `notify_all` no worker sleeps**, nor ever will. -/
theorem blocked_eq_empty_of_notified {numThreads capacity : Nat} {es : MonitoredHistory τ α}
    {s : MonitoredPool τ α} (run : (monitoredMachine τ α numThreads capacity).Run es s)
    (hnotified : es.filterMap notifiedIn ≠ []) : s.cv.blocked = ∅ := by
  refine (closed_inv ((toQueue τ α numThreads capacity).run run)).nobody ?_
  obtain ⟨t, ht⟩ := List.exists_mem_of_ne_nil _ hnotified
  obtain ⟨⟨a, e⟩, hmem, hsome⟩ := List.mem_filterMap.mp ht
  cases a with
  | notifyAll u => exact ⟨.inl u, .returned, List.mem_filterMap.mpr ⟨_, hmem, rfl⟩⟩
  | _ => cases hsome

/-! ## The theorem -/

/-- Both workers fall asleep, a task is pushed and wakes one, and a caller shuts the pool down. -/
def wokenOnce : List (MonitoredAction Nat Nat) :=
  [.waitAndPop 0 none, .waitAndPop 1 none, .elsewhere (.submit 0 7), .push 0 (some (.inr 1)),
    .elsewhere (.shutdown 1), .closeQueue 1, .notifyAll 1]

end HttpServer
