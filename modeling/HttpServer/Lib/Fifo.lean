/-
  Bounded closable FIFO — what a work queue is for, without threads, locks or wakeups.

  1. **Program** — a queue is its contents and whether it is closed.  `push` is refused when the
     contents have reached the capacity; `take` waits for an item, and gives up (`nothing`) on a
     closed queue that is empty; `poll` never waits; `close` is final.  Closing refuses no `push`.

  2. **Specification** — on histories: `accepted es` are the items whose push was accepted, in that
     order, `delivered es` the items that came out, in that order.

  3. **The laws** — `delivered_append_contents` (nothing is lost, doubled or overtaken),
     `length_le_capacity` and `mem_close_of_closed`.
-/
import HttpServer.Lib.Machine

/-- `Fifo α` — items in order, oldest first. -/
structure Fifo (α : Type*) where
  contents : List α
  closed : Bool

namespace Fifo

variable {α : Type*}

/-- What is asked of the queue: `take` waits for an item, `poll` does not. -/
inductive Op (α : Type*)
  | push (item : α)
  | take
  | poll
  | close

/-- What it answers. -/
inductive Reply (α : Type*)
  | accepted
  | refused
  | item (item : α)
  | nothing
  | done

/-! ## The program -/

/-- `q.step` — the answer, if there is one yet: a `take` of an empty queue that is not closed has
    none. -/
def step (capacity : Nat) (q : Fifo α) : Op α → Option (Fifo α × Reply α)
  | .push item =>
    if q.contents.length < capacity then
      some ({ q with contents := q.contents ++ [item] }, .accepted)
    else some (q, .refused)
  | .take =>
    match q.contents with
    | item :: rest => some ({ q with contents := rest }, .item item)
    | [] => if q.closed then some (q, .nothing) else none
  | .poll =>
    match q.contents with
    | item :: rest => some ({ q with contents := rest }, .item item)
    | [] => some (q, .nothing)
  | .close => some ({ q with closed := true }, .done)

/-- The queue as a machine, empty and open at first. -/
def machine (α : Type*) (capacity : Nat) : Machine (Fifo α) (Op α) (Reply α) where
  init := ⟨[], false⟩
  step := step capacity

/-! ## Histories -/

/-- The item whose push is accepted in a step. -/
def acceptedItem : Op α × Reply α → Option α
  | (.push item, .accepted) => some item
  | _ => none

/-- The item that a step takes out. -/
def deliveredItem : Op α × Reply α → Option α
  | (_, .item item) => some item
  | _ => none

/-- The items whose push was accepted. -/
def accepted (es : List (Op α × Reply α)) : List α := es.filterMap acceptedItem

/-- The items that were taken out. -/
def delivered (es : List (Op α × Reply α)) : List α := es.filterMap deliveredItem

/-! ## The laws -/

/-- What one step does to the contents: the queue moves from the left of an equation to its
    right. -/
theorem step_contents {capacity : Nat} {q q' : Fifo α} {op : Op α} {reply : Reply α}
    (h : step capacity q op = some (q', reply)) :
    (deliveredItem (op, reply)).toList ++ q'.contents =
      q.contents ++ (acceptedItem (op, reply)).toList := by
  cases op with
  | push item =>
    rw [step] at h
    split at h
    · cases h
      rfl
    · cases h
      exact (List.append_nil _).symm
  | take =>
    rw [step] at h
    cases hc : q.contents with
    | nil =>
      simp only [hc] at h
      split at h
      · cases h
        simp [deliveredItem, acceptedItem, hc]
      · cases h
    | cons item rest =>
      simp only [hc] at h
      cases h
      simp [deliveredItem, acceptedItem]
  | poll =>
    rw [step] at h
    cases hc : q.contents with
    | nil =>
      simp only [hc] at h
      cases h
      simp [deliveredItem, acceptedItem, hc]
    | cons item rest =>
      simp only [hc] at h
      cases h
      simp [deliveredItem, acceptedItem]
  | close =>
    cases h
    exact (List.append_nil _).symm

/-- **Nothing is lost, doubled or overtaken.** -/
theorem delivered_append_contents {capacity : Nat} {es : List (Op α × Reply α)} {q : Fifo α}
    (run : (machine α capacity).Run es q) : delivered es ++ q.contents = accepted es := by
  induction run with
  | nil => rfl
  | snoc _ hstep ih =>
    rename_i es q op q' reply _
    have h := step_contents hstep
    rw [delivered, accepted, Machine.filterMap_snoc, Machine.filterMap_snoc, ← delivered,
      ← accepted, List.append_assoc, h, ← List.append_assoc, ih]

/-- **The bound.** -/
theorem length_le_capacity {capacity : Nat} {es : List (Op α × Reply α)} {q : Fifo α}
    (run : (machine α capacity).Run es q) : q.contents.length ≤ capacity := by
  induction run with
  | nil => exact Nat.zero_le _
  | snoc _ hstep ih =>
    rename_i es q op q' reply _
    have hlen := congrArg List.length (step_contents hstep)
    rw [List.length_append, List.length_append] at hlen
    -- only a push lengthens the queue, and it looks at the bound first
    cases op with
    | push item =>
      have hpush : step capacity q (.push item) = some (q', reply) := hstep
      rw [step] at hpush
      split at hpush
      · rename_i hroom
        cases hpush
        rw [List.length_append, List.length_singleton]
        omega
      · cases hpush
        exact ih
    | take => simp only [acceptedItem, Option.toList_none, List.length_nil] at hlen; omega
    | poll => simp only [acceptedItem, Option.toList_none, List.length_nil] at hlen; omega
    | close => simp only [acceptedItem, Option.toList_none, List.length_nil] at hlen; omega

/-- A queue is closed only by `close`. -/
theorem mem_close_of_closed {capacity : Nat} {es : List (Op α × Reply α)} {q : Fifo α}
    (run : (machine α capacity).Run es q) (hclosed : q.closed = true) :
    ∃ reply, (Op.close, reply) ∈ es := by
  induction run with
  | nil => cases hclosed
  | snoc _ hstep ih =>
    rename_i es q op q' reply _
    have hstep : step capacity q op = some (q', reply) := hstep
    -- every operation but `close` leaves the flag alone
    have hkeep : op = .close ∨ q'.closed = q.closed := by
      cases op with
      | push item => rw [step] at hstep; split at hstep <;> cases hstep <;> exact Or.inr rfl
      | take =>
        rw [step] at hstep
        split at hstep
        · cases hstep
          exact Or.inr rfl
        · split at hstep
          · cases hstep
            exact Or.inr rfl
          · cases hstep
      | poll => rw [step] at hstep; split at hstep <;> cases hstep <;> exact Or.inr rfl
      | close => exact Or.inl rfl
    rcases hkeep with rfl | hsame
    · exact ⟨reply, List.mem_append_right es (List.mem_singleton_self _)⟩
    · obtain ⟨r, hr⟩ := ih (hsame ▸ hclosed)
      exact ⟨r, List.mem_append_left _ hr⟩

end Fifo
