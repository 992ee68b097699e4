/-
  The queue is a linear FIFO — `BoundedBlockingQueue`, under any threads, refines `Fifo`.

  1. **Specification** — on the histories of the code: `pushed es` are the items whose `push`
     returned true, in the order of those pushes; `popped es` are the items that `try_pop` and
     `wait_and_pop` returned, in the order they were taken.

  2. **The refinement (`fifoRefinement`)** — a critical section that returns is one operation of the
     FIFO; going to sleep, waking and notifying are none.  Which consumer gets an item, and after
     how many wakeups, is not visible there.

  3. **Bridge** — `accepted_filterMap` and `delivered_filterMap` say that the histories of the FIFO
     are those of the code, so the laws of `Fifo` are laws of the queue.
-/
import HttpServer.BlockingQueue
import HttpServer.Lib.Fifo

namespace HttpServer

open QueueMonitor (Step)

variable {τ α : Type*}

/-! ## Histories -/

/-- A history of the queue: the steps of a run of its monitor, each with what it shows. -/
abbrev QueueHistory (τ α : Type*) := List (QueueAction τ α × QueueEvent α)

/-- The item whose push returns true in a step. -/
def pushedItem : QueueAction τ α × QueueEvent α → Option α
  | (.push _ item _, .pushed true) => some item
  | _ => none

/-- The item that a step takes out. -/
def poppedItem : QueueAction τ α × QueueEvent α → Option α
  | (_, .popped item) => item
  | _ => none

/-- The items whose push returned true, in the order of the pushes. -/
def pushed (es : QueueHistory τ α) : List α := es.filterMap pushedItem

/-- The items returned by the pops so far, in order. -/
def popped (es : QueueHistory τ α) : List α := es.filterMap poppedItem

/-! ## The refinement -/

/-- What a step is to the FIFO. -/
def fifoLabel : QueueAction τ α × QueueEvent α → Option (Fifo.Op α × Fifo.Reply α)
  | (.push _ item _, .pushed true) => some (.push item, .accepted)
  | (.push _ item _, .pushed false) => some (.push item, .refused)
  | (.tryPop _ _, .popped (some item)) => some (.poll, .item item)
  | (.tryPop _ _, .popped none) => some (.poll, .nothing)
  | (.waitAndPop _ _, .popped (some item)) => some (.take, .item item)
  | (.waitAndPop _ _, .popped none) => some (.take, .nothing)
  | (.recheck _ _, .popped (some item)) => some (.take, .item item)
  | (.recheck _ _, .popped none) => some (.take, .nothing)
  | (.shutdown _, _) => some (.close, .done)
  | _ => none

/-- The queue without its threads. -/
def QueueMonitor.toFifo (s : QueueMonitor τ α) : Fifo α := ⟨s.queue.queue, s.queue.shutdown⟩

/-- Only a shutdown closes the FIFO. -/
theorem fifoLabel_eq_close {a : QueueAction τ α} {e : QueueEvent α} {reply : Fifo.Reply α}
    (h : fifoLabel (a, e) = some (.close, reply)) : ∃ t, a = .shutdown t := by
  unfold fifoLabel at h
  split at h <;> cases h
  rename_i t _ heq
  cases heq
  exact ⟨t, rfl⟩

variable [DecidableEq τ]

/-- No step changes the capacity. -/
theorem QueueMonitor.Step.capacity_eq {s s' : QueueMonitor τ α} {a : QueueAction τ α}
    {e : QueueEvent α} (h : Step s a s' e) : s'.queue.capacity = s.queue.capacity := by
  cases h <;> rfl

theorem capacity_eq {capacity : Nat} {es : QueueHistory τ α} {s : QueueMonitor τ α}
    (run : (queueMachine τ α capacity).Run es s) : s.queue.capacity = capacity :=
  run.invariant rfl fun _ ih hstep => (QueueMonitor.step_inv hstep).capacity_eq.trans ih

/-- **A step of the code is a step of the FIFO, or none.** -/
theorem QueueMonitor.Step.refines {s s' : QueueMonitor τ α} {a : QueueAction τ α}
    {e : QueueEvent α} (h : Step s a s' e) :
    (Fifo.machine α s.queue.capacity).Follows s.toFifo s'.toFifo (fifoLabel (a, e)) := by
  unfold Machine.Follows
  cases h with
  | pushFull full => exact if_neg (Nat.not_lt.mpr full)
  | pushRoom room notify => exact if_pos room
  | pollEmpty empty => simp [fifoLabel, Fifo.machine, Fifo.step, QueueMonitor.toFifo, empty]
  | pollItem front notify => simp [fifoLabel, Fifo.machine, Fifo.step, QueueMonitor.toFifo, front]
  | takeClosed empty closed =>
    simp [fifoLabel, Fifo.machine, Fifo.step, QueueMonitor.toFifo, empty, closed]
  | takeItem front notify => simp [fifoLabel, Fifo.machine, Fifo.step, QueueMonitor.toFifo, front]
  | takeBlock empty opened => rfl
  | wokenClosed empty closed =>
    simp [fifoLabel, Fifo.machine, Fifo.step, QueueMonitor.toFifo, empty, closed]
  | wokenItem front notify => simp [fifoLabel, Fifo.machine, Fifo.step, QueueMonitor.toFifo, front]
  | wokenBlock empty opened => rfl
  | spurious => rfl
  | shutdown => rfl
  | notifyAll inside => rfl

/-- **The queue with its threads refines the bounded FIFO.** -/
def fifoRefinement (τ α : Type*) [DecidableEq τ] (capacity : Nat) :
    (queueMachine τ α capacity).Refinement (Fifo.machine α capacity) where
  abs := QueueMonitor.toFifo
  label := fifoLabel
  init := rfl
  step run hstep := by
    have h := (QueueMonitor.step_inv hstep).refines
    rw [capacity_eq run] at h
    exact h

/-! ## The laws of the FIFO, on the histories of the code -/

/-- A step and its label push and pop the same items. -/
theorem QueueMonitor.Step.items_eq {s s' : QueueMonitor τ α} {a : QueueAction τ α}
    {e : QueueEvent α} (h : Step s a s' e) :
    (fifoLabel (a, e)).bind Fifo.acceptedItem = pushedItem (a, e) ∧
      (fifoLabel (a, e)).bind Fifo.deliveredItem = poppedItem (a, e) := by
  cases h <;> exact ⟨rfl, rfl⟩

theorem accepted_filterMap {capacity : Nat} {es : QueueHistory τ α} {s : QueueMonitor τ α}
    (run : (queueMachine τ α capacity).Run es s) :
    Fifo.accepted (es.filterMap fifoLabel) = pushed es :=
  run.filterMap_label fun hstep => (QueueMonitor.step_inv hstep).items_eq.1

theorem delivered_filterMap {capacity : Nat} {es : QueueHistory τ α} {s : QueueMonitor τ α}
    (run : (queueMachine τ α capacity).Run es s) :
    Fifo.delivered (es.filterMap fifoLabel) = popped es :=
  run.filterMap_label fun hstep => (QueueMonitor.step_inv hstep).items_eq.2

/-- **The queue is a linear FIFO of bounded size**, for every capacity, any threads and any
    interleaving: what came out and what is inside is what went in, in order; the contents fit the
    capacity; and the next step refuses a push exactly when they have reached it, and lets a
    `wait_and_pop` return nothing only after a shutdown, on an empty queue. -/
theorem queue_linear_fifo (capacity : Nat) {es : QueueHistory τ α} {s : QueueMonitor τ α}
    (run : (queueMachine τ α capacity).Run es s) :
    popped es ++ s.queue.queue = pushed es ∧ s.queue.queue.length ≤ capacity ∧
      ∀ a s' e, (queueMachine τ α capacity).step s a = some (s', e) →
        (∀ t item wake, a = .push t item wake →
          (e = .pushed false ↔ s.queue.queue.length = capacity)) ∧
        (∀ t wake, a = .waitAndPop t wake ∨ a = .recheck t wake → e = .popped none →
          (∃ t' e', (.shutdown t', e') ∈ es) ∧ s.queue.queue = []) := by
  have hfifo := (fifoRefinement τ α capacity).run run
  have hcap := capacity_eq run
  have hle : s.queue.queue.length ≤ capacity := Fifo.length_le_capacity hfifo
  have hclosed : s.queue.shutdown = true → ∃ t' e', (.shutdown t', e') ∈ es := by
    intro hshut
    obtain ⟨reply, hmem⟩ := Fifo.mem_close_of_closed hfifo hshut
    obtain ⟨⟨a, e⟩, he, hlabel⟩ := List.mem_filterMap.mp hmem
    obtain ⟨t, rfl⟩ := fifoLabel_eq_close hlabel
    exact ⟨t, e, he⟩
  refine ⟨?_, hle, ?_⟩
  · rw [← accepted_filterMap run, ← delivered_filterMap run]
    exact Fifo.delivered_append_contents hfifo
  · intro a s' e hstep
    have hs := QueueMonitor.step_inv hstep
    constructor
    · rintro t item wake rfl
      cases hs with
      | pushFull full => exact iff_of_true rfl (Nat.le_antisymm hle (hcap ▸ full))
      | pushRoom room notify =>
        exact iff_of_false (by simp) (fun heq => absurd room (by omega))
    · rintro t wake (rfl | rfl) rfl
      · cases hs with
        | takeClosed empty closed => exact ⟨hclosed closed, empty⟩
      · cases hs with
        | wokenClosed empty closed => exact ⟨hclosed closed, empty⟩

/-- The theorem on a run in which a consumer sleeps, is woken by a push, and a second push meets a
    full queue. -/
theorem queue_linear_fifo_sleeper :
    ∃ (es : QueueHistory Nat Nat) (s : QueueMonitor Nat Nat),
      pushed es = [7] ∧ popped es = [7] ∧ popped es ++ s.queue.queue = pushed es ∧
        s.queue.queue.length ≤ 1 := by
  obtain ⟨es, s, run, hitems⟩ := Machine.exists_run (M := queueMachine Nat Nat 1)
    [.waitAndPop 0 none, .push 1 7 (some 0), .push 2 8 none, .recheck 0 none]
    (fun es _ => pushed es = [7] ∧ popped es = [7]) (by decide)
  obtain ⟨hfifo, hbound, -⟩ := queue_linear_fifo 1 run
  exact ⟨es, s, hitems.1, hitems.2, hfifo, hbound⟩

end HttpServer
