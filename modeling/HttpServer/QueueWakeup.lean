/-
  No lost wakeup — the notifications of `BoundedBlockingQueue` are enough.

  1. **Specification** — a blocked consumer that nobody has notified is harmless as long as every
     queued item has a woken consumer on its way to it: `CondVar.Covers` at the length of the queue.
     It is a bound and not a pairing, for a woken consumer can find its item gone (taken by
     `try_pop`, or by a consumer that never slept) and go back to sleep.

  2. **The step (`Step.covers`)** — one case an outcome.  A push adds an item and notifies; a woken
     consumer that takes an item pays for itself; every other pop only shortens the queue; a
     consumer blocks on an empty queue alone.

  3. **Shutdown** — the flag alone wakes nobody.  From the `notify_all` on, nobody is blocked, and
     nobody blocks again, because the flag is set before it and is never taken back (`closed_inv`).
-/
import HttpServer.BlockingQueue
import HttpServer.QueueFifo

namespace HttpServer

open QueueMonitor (Step)

variable {τ α : Type*} [DecidableEq τ]

/-! ## Items and woken consumers -/

/-- **Every step keeps a woken consumer for every item.** -/
theorem QueueMonitor.Step.covers {s s' : QueueMonitor τ α} {a : QueueAction τ α}
    {e : QueueEvent α} (h : Step s a s' e) (hc : s.cv.Covers s.queue.queue.length) :
    s'.cv.Covers s'.queue.queue.length := by
  cases h with
  | pushFull full => exact hc
  | pushRoom room notify =>
    show CondVar.Covers _ (s.queue.queue ++ [_]).length
    rw [List.length_append, List.length_singleton]
    exact hc.notifyOne_succ notify
  | pollEmpty empty => exact hc
  | pollItem front notify =>
    rw [front, List.length_cons] at hc
    exact ((hc.mono (Nat.le_succ _)).notifyOne_succ notify).mono (Nat.le_succ _)
  | takeClosed empty closed => exact hc
  | takeItem front notify =>
    rw [front, List.length_cons] at hc
    exact ((hc.mono (Nat.le_succ _)).notifyOne_succ notify).mono (Nat.le_succ _)
  | takeBlock empty opened =>
    show CondVar.Covers _ s.queue.queue.length
    rw [empty]
    exact CondVar.covers_zero _
  | wokenClosed empty closed =>
    show CondVar.Covers _ s.queue.queue.length
    rw [empty]
    exact CondVar.covers_zero _
  | wokenItem front notify =>
    -- the item pays for the consumer that leaves, so the notification is not even needed
    rw [front, List.length_cons] at hc
    exact ((hc.leave _).notifyOne_succ notify).mono (Nat.le_succ _)
  | wokenBlock empty opened =>
    show CondVar.Covers _ s.queue.queue.length
    rw [empty]
    exact CondVar.covers_zero _
  | spurious => exact hc.wake _
  | shutdown => exact hc
  | notifyAll inside => exact CondVar.covers_of_blocked_eq_empty rfl _

theorem covers_of_run {capacity : Nat} {es : QueueHistory τ α} {s : QueueMonitor τ α}
    (run : (queueMachine τ α capacity).Run es s) : s.cv.Covers s.queue.queue.length :=
  run.invariant (CondVar.covers_zero _) fun _ ih hstep =>
    (QueueMonitor.step_inv hstep).covers ih

/-! ## After a shutdown -/

/-- `shutdown()` has returned to one of its callers: its `notify_all` is done. -/
def ShutdownReturned (es : QueueHistory τ α) : Prop := ∃ t e, (QueueAction.notifyAll t, e) ∈ es

/-- The flag is set while a `shutdown()` is under way, and once one has returned the flag is set
    and nobody is blocked. -/
structure Closed (es : QueueHistory τ α) (s : QueueMonitor τ α) : Prop where
  inside : s.closing.Nonempty → s.queue.shutdown = true
  flag : ShutdownReturned es → s.queue.shutdown = true
  nobody : ShutdownReturned es → s.cv.blocked = ∅

omit [DecidableEq τ] in
/-- A step other than a `notify_all` leaves it open whether a shutdown has returned. -/
theorem shutdownReturned_snoc {es : QueueHistory τ α} {a : QueueAction τ α} {e : QueueEvent α}
    (ha : ∀ t, a ≠ .notifyAll t) :
    ShutdownReturned (es ++ [(a, e)]) ↔ ShutdownReturned es := by
  constructor
  · rintro ⟨t, e', hmem⟩
    rcases List.mem_append.mp hmem with hmem | hmem
    · exact ⟨t, e', hmem⟩
    · cases List.mem_singleton.mp hmem
      exact absurd rfl (ha t)
  · rintro ⟨t, e', hmem⟩
    exact ⟨t, e', List.mem_append_left _ hmem⟩

omit [DecidableEq τ] in
/-- A step that keeps the flag and the callers of `shutdown()`, and blocks nobody once the flag is
    set. -/
theorem Closed.step {es : QueueHistory τ α} {s s' : QueueMonitor τ α} {a : QueueAction τ α}
    {e : QueueEvent α} (hc : Closed es s) (ha : ∀ t, a ≠ .notifyAll t)
    (hclosing : s'.closing = s.closing) (hflag : s'.queue.shutdown = s.queue.shutdown)
    (hblocked : s.queue.shutdown = true → s.cv.blocked = ∅ → s'.cv.blocked = ∅) :
    Closed (es ++ [(a, e)]) s' := by
  refine ⟨fun h => ?_, fun h => ?_, fun h => ?_⟩
  · rw [hflag]
    exact hc.inside (hclosing ▸ h)
  · rw [hflag]
    exact hc.flag ((shutdownReturned_snoc ha).mp h)
  · have hret := (shutdownReturned_snoc ha).mp h
    exact hblocked (hc.flag hret) (hc.nobody hret)

omit [DecidableEq τ] in
theorem blocked_eq_empty_of_subset {cv cv' : CondVar τ} (hsub : cv'.blocked ⊆ cv.blocked)
    (h : cv.blocked = ∅) : cv'.blocked = ∅ :=
  Finset.subset_empty.mp (h ▸ hsub)

/-- **Every step keeps `Closed`.** -/
theorem QueueMonitor.Step.closed {es : QueueHistory τ α} {s s' : QueueMonitor τ α}
    {a : QueueAction τ α} {e : QueueEvent α} (h : Step s a s' e) (hc : Closed es s) :
    Closed (es ++ [(a, e)]) s' := by
  cases h with
  | pushFull full => exact hc.step (by simp) rfl rfl fun _ hb => hb
  | pushRoom room notify =>
    exact hc.step (by simp) rfl rfl fun _ =>
      blocked_eq_empty_of_subset (CondVar.blocked_notifyOne_subset notify)
  | pollEmpty empty => exact hc.step (by simp) rfl rfl fun _ hb => hb
  | pollItem front notify =>
    exact hc.step (by simp) rfl rfl fun _ =>
      blocked_eq_empty_of_subset (CondVar.blocked_notifyOne_subset notify)
  | takeClosed empty closed => exact hc.step (by simp) rfl rfl fun _ hb => hb
  | takeItem front notify =>
    exact hc.step (by simp) rfl rfl fun _ =>
      blocked_eq_empty_of_subset (CondVar.blocked_notifyOne_subset notify)
  | takeBlock empty opened =>
    refine hc.step (by simp) rfl rfl fun hflag _ => ?_
    rw [opened] at hflag
    cases hflag
  | wokenClosed empty closed => exact hc.step (by simp) rfl rfl fun _ hb => hb
  | wokenItem front notify =>
    have hsub := CondVar.blocked_notifyOne_subset notify
    rw [CondVar.blocked_leave] at hsub
    exact hc.step (by simp) rfl rfl fun _ => blocked_eq_empty_of_subset hsub
  | wokenBlock empty opened =>
    refine hc.step (by simp) rfl rfl fun hflag _ => ?_
    rw [opened] at hflag
    cases hflag
  | spurious =>
    exact hc.step (by simp) rfl rfl fun _ =>
      blocked_eq_empty_of_subset (Finset.erase_subset _ _)
  | shutdown =>
    refine ⟨fun _ => rfl, fun _ => rfl, fun hret => ?_⟩
    exact hc.nobody ((shutdownReturned_snoc (by simp)).mp hret)
  | notifyAll inside =>
    have hflag := hc.inside ⟨_, inside⟩
    exact ⟨fun _ => hflag, fun _ => hflag, fun _ => rfl⟩

theorem closed_inv {capacity : Nat} {es : QueueHistory τ α} {s : QueueMonitor τ α}
    (run : (queueMachine τ α capacity).Run es s) : Closed es s := by
  refine run.invariant ?_ ?_
  · refine ⟨fun h => absurd h Finset.not_nonempty_empty, fun h => ?_, fun _ => rfl⟩
    obtain ⟨_, _, hmem⟩ := h
    exact absurd hmem List.not_mem_nil
  · intro es s a s' e _ ih hstep
    exact (QueueMonitor.step_inv hstep).closed ih

/-! ## The theorem -/

/-- **No lost wakeup**, for every capacity, any threads and any interleaving: while a consumer is
    blocked, the queue has no more items than there are woken consumers, and once a `shutdown()`
    has returned no consumer is blocked. -/
theorem no_lost_wakeup (capacity : Nat) {es : QueueHistory τ α} {s : QueueMonitor τ α}
    (run : (queueMachine τ α capacity).Run es s) :
    (s.cv.blocked.Nonempty → s.queue.queue.length ≤ s.cv.woken.card) ∧
      (ShutdownReturned es → s.cv.blocked = ∅) :=
  ⟨covers_of_run run, (closed_inv run).nobody⟩

/-- The theorem on a run with two sleepers and one item: one is woken, the other sleeps on. -/
theorem no_lost_wakeup_two_sleepers :
    ∃ (es : QueueHistory Nat Nat) (s : QueueMonitor Nat Nat),
      s.queue.queue = [7] ∧ s.cv.blocked = {1} ∧
        (s.cv.blocked.Nonempty → s.queue.queue.length ≤ s.cv.woken.card) ∧
          (ShutdownReturned es → s.cv.blocked = ∅) := by
  obtain ⟨es, s, run, hstate⟩ := Machine.exists_run (M := queueMachine Nat Nat 2)
    [.waitAndPop 0 none, .waitAndPop 1 none, .push 2 7 (some 0)]
    (fun _ s => s.queue.queue = [7] ∧ s.cv.blocked = {1}) (by decide)
  exact ⟨es, s, hstate.1, hstate.2, no_lost_wakeup 2 run⟩

end HttpServer
