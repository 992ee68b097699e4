/-
  The bounded queue — `blocking_queue.hpp`: `BoundedBlockingQueue` and the threads that call it.

  1. **Data** — the fields `queue_`, `capacity_` and `shutdown_`, and beside them the state of
     `cv_`, which is a `CondVar` over an arbitrary type of threads.  A thread inside `shutdown()`
     that has left the lock and has not called `notify_all` yet is in `closing`.

  2. **Program** — the body of each critical section is a function on the queue (`push`,
     `waitReady`, `popWaited`, `popFront`, `close`), and a step of the machine is one critical
     section: the predicate, what follows it and the notification are under one lock.  Only the
     `notify_all` of `shutdown()` stands outside the lock, and is a step of its own.

  3. **Choice** — the scheduler picks the thread, and with it the thread that `notify_one` wakes:
     any blocked one, and `none` only if there is none.  `spurious` wakes a thread without cause.
-/
import HttpServer.Lib.Machine
import HttpServer.Lib.CondVar

namespace HttpServer

/-- The fields of `BoundedBlockingQueue<T>`; the front of `queue_` is the head of the list. -/
structure BoundedBlockingQueue (α : Type*) where
  queue : List α
  capacity : Nat
  shutdown : Bool
  deriving DecidableEq, Repr

namespace BoundedBlockingQueue

variable {α : Type*}

/-- The constructor. -/
def make (capacity : Nat) : BoundedBlockingQueue α := ⟨[], capacity, false⟩

/-- `push(item)`: a queue that holds `capacity_` items refuses one more.  `shutdown_` is not looked
    at, so an item is taken in behind `shutdown()` too; `notify_one` is called exactly when the push
    returns true. -/
def push (q : BoundedBlockingQueue α) (item : α) : Bool × BoundedBlockingQueue α :=
  if q.queue.length ≥ q.capacity then (false, q)
  else (true, { q with queue := q.queue ++ [item] })

/-- The predicate that `wait_and_pop()` waits for: an item, or the end.  It is evaluated under the
    lock, before the first wait and behind every wakeup. -/
def waitReady (q : BoundedBlockingQueue α) : Bool := !q.queue.isEmpty || q.shutdown

/-- Taking the front of a queue that is not empty; `notify_one` is called exactly when an item is
    returned. -/
def popFront (q : BoundedBlockingQueue α) : Option α × BoundedBlockingQueue α :=
  match q.queue with
  | [] => (none, q)
  | item :: rest => (some item, { q with queue := rest })

/-- `wait_and_pop()` from the end of the wait on: nothing only of a queue that is both shut down and
    empty, so what was accepted before is handed out first. -/
def popWaited (q : BoundedBlockingQueue α) : Option α × BoundedBlockingQueue α :=
  if q.shutdown && q.queue.isEmpty then (none, q) else q.popFront

/-- `try_pop()`: the front item, or nothing of an empty queue.  It never waits, and `shutdown_` is
    not looked at. -/
def tryPop (q : BoundedBlockingQueue α) : Option α × BoundedBlockingQueue α :=
  if q.queue.isEmpty then (none, q) else q.popFront

/-- What `shutdown()` does under the lock: it sets the flag and leaves the items where they are.
    The `notify_all` comes behind the lock. -/
def close (q : BoundedBlockingQueue α) : BoundedBlockingQueue α := { q with shutdown := true }

/-- What `push` does. -/
theorem push_cases (q : BoundedBlockingQueue α) (item : α) :
    (q.capacity ≤ q.queue.length ∧ q.push item = (false, q)) ∨
      (q.queue.length < q.capacity ∧
        q.push item = (true, { q with queue := q.queue ++ [item] })) := by
  rcases Nat.lt_or_ge q.queue.length q.capacity with h | h
  · exact Or.inr ⟨h, if_neg (Nat.not_le.mpr h)⟩
  · exact Or.inl ⟨h, if_pos h⟩

/-- What `try_pop` does. -/
theorem tryPop_cases (q : BoundedBlockingQueue α) :
    (q.queue = [] ∧ q.tryPop = (none, q)) ∨
      ∃ item rest, q.queue = item :: rest ∧
        q.tryPop = (some item, { q with queue := rest }) := by
  cases h : q.queue with
  | nil => exact Or.inl ⟨rfl, by simp [tryPop, h]⟩
  | cons item rest => exact Or.inr ⟨item, rest, rfl, by simp [tryPop, popFront, h]⟩

/-- What `wait_and_pop` does once its predicate holds: `front()` is called on no empty queue. -/
theorem popWaited_cases {q : BoundedBlockingQueue α} (h : q.waitReady = true) :
    (q.queue = [] ∧ q.shutdown = true ∧ q.popWaited = (none, q)) ∨
      ∃ item rest, q.queue = item :: rest ∧
        q.popWaited = (some item, { q with queue := rest }) := by
  cases hq : q.queue with
  | nil =>
    have hs : q.shutdown = true := by simpa [waitReady, hq] using h
    exact Or.inl ⟨rfl, hs, by simp [popWaited, hq, hs]⟩
  | cons item rest => exact Or.inr ⟨item, rest, rfl, by simp [popWaited, popFront, hq]⟩

/-- Behind `shutdown()` nobody waits. -/
theorem waitReady_of_shutdown (q : BoundedBlockingQueue α) (h : q.shutdown = true) :
    q.waitReady = true := by
  rw [waitReady, h, Bool.or_true]

/-- A consumer goes to sleep only on an empty queue that is not shut down. -/
theorem of_not_waitReady {q : BoundedBlockingQueue α} (h : q.waitReady = false) :
    q.queue = [] ∧ q.shutdown = false := by
  simpa [waitReady] using h

end BoundedBlockingQueue

/-! ## The threads -/

/-- The queue, its condition variable, and the threads between the two halves of `shutdown()`. -/
structure QueueMonitor (τ α : Type*) where
  queue : BoundedBlockingQueue α
  cv : CondVar τ
  closing : Finset τ

/-- Which thread takes its next step, and whom a `notify_one` in it would wake. -/
inductive QueueAction (τ α : Type*)
  | push (t : τ) (item : α) (wake : Option τ)
  | tryPop (t : τ) (wake : Option τ)
  | waitAndPop (t : τ) (wake : Option τ)
  /-- A woken thread inside `wait_and_pop()` has the lock again and looks at its predicate. -/
  | recheck (t : τ) (wake : Option τ)
  | spurious (t : τ)
  /-- The locked half of `shutdown()`. -/
  | shutdown (t : τ)
  /-- The `notify_all` of `shutdown()`, after which it returns. -/
  | notifyAll (t : τ)

/-- What a step shows: what a call returns, or that its thread falls asleep or wakes up. -/
inductive QueueEvent (α : Type*)
  | pushed (ok : Bool)
  | popped (item : Option α)
  | blocked
  | awake
  | flagged
  | returned
  deriving DecidableEq

namespace QueueMonitor

variable {τ α : Type*} [DecidableEq τ]

/-- `t` is inside no call on the queue: not asleep or woken in `wait_and_pop()`, and not between the
    two halves of `shutdown()`. -/
def Idle (s : QueueMonitor τ α) (t : τ) : Prop := s.cv.Away t ∧ t ∉ s.closing

instance (s : QueueMonitor τ α) (t : τ) : Decidable (s.Idle t) :=
  inferInstanceAs (Decidable (_ ∧ _))

/-- The end of a critical section that returns an item or not: `notify_one` after an item. -/
def finishPop (s : QueueMonitor τ α) (cv : CondVar τ) (wake : Option τ)
    (result : Option α × BoundedBlockingQueue α) : Option (QueueMonitor τ α × QueueEvent α) :=
  match result with
  | (none, queue) => some ({ s with queue := queue, cv := cv }, .popped none)
  | (some item, queue) =>
    (cv.notifyOne wake).map fun cv => ({ s with queue := queue, cv := cv }, .popped (some item))

/-- `s.step a` — the step, if it is possible in `s`: a critical section under the queue's mutex, or
    what happens to a sleeper.  A thread that is inside one call makes no other. -/
def step (s : QueueMonitor τ α) : QueueAction τ α → Option (QueueMonitor τ α × QueueEvent α)
  | .push t item wake =>
    if s.Idle t then
      match s.queue.push item with
      | (false, queue) => some ({ s with queue := queue }, .pushed false)
      | (true, queue) =>
        (s.cv.notifyOne wake).map fun cv => ({ s with queue := queue, cv := cv }, .pushed true)
    else none
  | .tryPop t wake => if s.Idle t then s.finishPop s.cv wake s.queue.tryPop else none
  | .waitAndPop t wake =>
    if s.Idle t then
      if s.queue.waitReady then s.finishPop s.cv wake s.queue.popWaited
      else some ({ s with cv := s.cv.block t }, .blocked)
    else none
  | .recheck t wake =>
    if t ∈ s.cv.woken then
      if s.queue.waitReady then s.finishPop (s.cv.leave t) wake s.queue.popWaited
      else some ({ s with cv := s.cv.block t }, .blocked)
    else none
  | .spurious t => if t ∈ s.cv.blocked then some ({ s with cv := s.cv.wake t }, .awake) else none
  | .shutdown t =>
    if s.Idle t then
      -- the lock is released before `notify_all`, so nobody is woken yet
      some ({ s with queue := s.queue.close, closing := insert t s.closing }, .flagged)
    else none
  | .notifyAll t =>
    if t ∈ s.closing then
      some ({ s with cv := s.cv.notifyAll, closing := s.closing.erase t }, .returned)
    else none

/-! ## What a step can do -/

/-- `Step s a s' e` — the outcomes of a step, one constructor an outcome. -/
inductive Step (s : QueueMonitor τ α) : QueueAction τ α → QueueMonitor τ α → QueueEvent α → Prop
  | pushFull {t item wake} (full : s.queue.capacity ≤ s.queue.queue.length) :
      Step s (.push t item wake) s (.pushed false)
  | pushRoom {t item wake cv} (room : s.queue.queue.length < s.queue.capacity)
      (notify : s.cv.notifyOne wake = some cv) :
      Step s (.push t item wake)
        { s with queue := { s.queue with queue := s.queue.queue ++ [item] }, cv := cv }
        (.pushed true)
  | pollEmpty {t wake} (empty : s.queue.queue = []) : Step s (.tryPop t wake) s (.popped none)
  | pollItem {t wake item rest cv} (front : s.queue.queue = item :: rest)
      (notify : s.cv.notifyOne wake = some cv) :
      Step s (.tryPop t wake) { s with queue := { s.queue with queue := rest }, cv := cv }
        (.popped (some item))
  | takeClosed {t wake} (empty : s.queue.queue = []) (closed : s.queue.shutdown = true) :
      Step s (.waitAndPop t wake) s (.popped none)
  | takeItem {t wake item rest cv} (front : s.queue.queue = item :: rest)
      (notify : s.cv.notifyOne wake = some cv) :
      Step s (.waitAndPop t wake) { s with queue := { s.queue with queue := rest }, cv := cv }
        (.popped (some item))
  | takeBlock {t wake} (empty : s.queue.queue = []) (opened : s.queue.shutdown = false) :
      Step s (.waitAndPop t wake) { s with cv := s.cv.block t } .blocked
  | wokenClosed {t wake} (empty : s.queue.queue = []) (closed : s.queue.shutdown = true) :
      Step s (.recheck t wake) { s with cv := s.cv.leave t } (.popped none)
  | wokenItem {t wake item rest cv} (front : s.queue.queue = item :: rest)
      (notify : (s.cv.leave t).notifyOne wake = some cv) :
      Step s (.recheck t wake) { s with queue := { s.queue with queue := rest }, cv := cv }
        (.popped (some item))
  | wokenBlock {t wake} (empty : s.queue.queue = []) (opened : s.queue.shutdown = false) :
      Step s (.recheck t wake) { s with cv := s.cv.block t } .blocked
  | spurious {t} : Step s (.spurious t) { s with cv := s.cv.wake t } .awake
  | shutdown {t} :
      Step s (.shutdown t) { s with queue := s.queue.close, closing := insert t s.closing } .flagged
  | notifyAll {t} (inside : t ∈ s.closing) :
      Step s (.notifyAll t) { s with cv := s.cv.notifyAll, closing := s.closing.erase t } .returned

/-- The end of `wait_and_pop()`, for a consumer that never slept and for one that did. -/
theorem finishPop_cases {s s' : QueueMonitor τ α} {cv : CondVar τ} {wake : Option τ}
    {e : QueueEvent α} (hready : s.queue.waitReady = true)
    (h : s.finishPop cv wake s.queue.popWaited = some (s', e)) :
    (s.queue.queue = [] ∧ s.queue.shutdown = true ∧ s' = { s with cv := cv } ∧
        e = .popped none) ∨
      ∃ item rest cv', s.queue.queue = item :: rest ∧ cv.notifyOne wake = some cv' ∧
        s' = { s with queue := { s.queue with queue := rest }, cv := cv' } ∧
          e = .popped (some item) := by
  rcases BoundedBlockingQueue.popWaited_cases hready with
    ⟨hempty, hclosed, hpop⟩ | ⟨item, rest, hq, hpop⟩
  · rw [hpop] at h
    cases h
    exact Or.inl ⟨hempty, hclosed, rfl, rfl⟩
  · rw [hpop] at h
    simp only [finishPop, Option.map_eq_some_iff] at h
    obtain ⟨cv', hnotify, heq⟩ := h
    cases heq
    exact Or.inr ⟨item, rest, cv', hq, hnotify, rfl, rfl⟩

/-- **Every step has one of these outcomes.** -/
theorem step_inv {s s' : QueueMonitor τ α} {a : QueueAction τ α} {e : QueueEvent α}
    (h : s.step a = some (s', e)) : Step s a s' e := by
  cases a with
  | push t item wake =>
    rw [step] at h
    split at h
    · rcases s.queue.push_cases item with ⟨hfull, hpush⟩ | ⟨hroom, hpush⟩
      · rw [hpush] at h
        cases h
        exact Step.pushFull hfull
      · simp only [hpush, Option.map_eq_some_iff] at h
        obtain ⟨cv, hnotify, heq⟩ := h
        cases heq
        exact Step.pushRoom hroom hnotify
    · cases h
  | tryPop t wake =>
    rw [step] at h
    split at h
    · rcases s.queue.tryPop_cases with ⟨hempty, hpop⟩ | ⟨item, rest, hq, hpop⟩
      · rw [hpop] at h
        cases h
        exact Step.pollEmpty hempty
      · simp only [hpop, finishPop, Option.map_eq_some_iff] at h
        obtain ⟨cv, hnotify, heq⟩ := h
        cases heq
        exact Step.pollItem hq hnotify
    · cases h
  | waitAndPop t wake =>
    rw [step] at h
    split at h
    · cases hready : s.queue.waitReady with
      | true =>
        rw [hready, if_pos rfl] at h
        rcases finishPop_cases hready h with ⟨hempty, hclosed, rfl, rfl⟩ |
          ⟨item, rest, cv, hq, hnotify, rfl, rfl⟩
        · exact Step.takeClosed hempty hclosed
        · exact Step.takeItem hq hnotify
      | false =>
        obtain ⟨hempty, hopen⟩ := BoundedBlockingQueue.of_not_waitReady hready
        rw [hready, if_neg (by decide)] at h
        cases h
        exact Step.takeBlock hempty hopen
    · cases h
  | recheck t wake =>
    rw [step] at h
    split at h
    · cases hready : s.queue.waitReady with
      | true =>
        rw [hready, if_pos rfl] at h
        rcases finishPop_cases hready h with ⟨hempty, hclosed, rfl, rfl⟩ |
          ⟨item, rest, cv, hq, hnotify, rfl, rfl⟩
        · exact Step.wokenClosed hempty hclosed
        · exact Step.wokenItem hq hnotify
      | false =>
        obtain ⟨hempty, hopen⟩ := BoundedBlockingQueue.of_not_waitReady hready
        rw [hready, if_neg (by decide)] at h
        cases h
        exact Step.wokenBlock hempty hopen
    · cases h
  | spurious t =>
    rw [step] at h
    split at h
    · cases h
      exact Step.spurious
    · cases h
  | shutdown t =>
    rw [step] at h
    split at h
    · cases h
      exact Step.shutdown
    · cases h
  | notifyAll t =>
    rw [step] at h
    split at h
    · rename_i hin
      cases h
      exact Step.notifyAll hin
    · cases h

end QueueMonitor

/-- A queue and any number of threads that call it. -/
def queueMachine (τ α : Type*) [DecidableEq τ] (capacity : Nat) :
    Machine (QueueMonitor τ α) (QueueAction τ α) (QueueEvent α) where
  init := ⟨.make capacity, .empty, ∅⟩
  step := QueueMonitor.step

end HttpServer
