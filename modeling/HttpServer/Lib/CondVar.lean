/-
  Condition variables — who waits, and who has been told to look again.

  1. **Data** — `blocked` are the threads inside `wait` that nobody has notified, `woken` the ones
     that have been notified, or woke without cause, and have not yet looked at their predicate
     again.  A thread is never both: the structure carries that.

  2. **Program** — `notifyOne` moves one blocked thread, any one, to the woken ones, and does
     nothing when none is blocked; `notifyAll` moves all; `wake` alone is a spurious wakeup; a woken
     thread that finds its predicate true leaves (`leave`), else it blocks again (`block`).

  3. **Who is inside** — `inside` are the threads in a call of `wait`, asleep or not; only `block`
     puts one in and only `leave` takes one out.

  4. **The rule (`Covers`)** — `cv.Covers n` says that a blocked thread, if there is one, has `n`
     woken threads in front of it.  With `n` the number of items the threads wait for, that is
     freedom from lost wakeups, and every operation of a queue keeps it: one more item needs one
     notification, one item less pays for the consumer that took it.
-/
import Mathlib.Data.Finset.Card

/-- `CondVar τ` — the threads `τ` that a condition variable knows of. -/
structure CondVar (τ : Type*) where
  blocked : Finset τ
  woken : Finset τ
  disjoint : Disjoint blocked woken

namespace CondVar

variable {τ : Type*}

/-- Nobody sleeps. -/
def empty : CondVar τ := ⟨∅, ∅, Finset.disjoint_empty_left _⟩

/-! ## Enough wakeups -/

/-- `cv.Covers n` — as long as a thread is blocked, `n` threads are on their way. -/
def Covers (cv : CondVar τ) (n : Nat) : Prop := cv.blocked.Nonempty → n ≤ cv.woken.card

theorem covers_zero (cv : CondVar τ) : cv.Covers 0 := fun _ => Nat.zero_le _

theorem covers_of_blocked_eq_empty {cv : CondVar τ} (h : cv.blocked = ∅) (n : Nat) :
    cv.Covers n := by
  intro hne
  rw [h] at hne
  exact absurd hne Finset.not_nonempty_empty

theorem Covers.mono {cv : CondVar τ} {m n : Nat} (h : cv.Covers n) (hmn : m ≤ n) : cv.Covers m :=
  fun hne => Nat.le_trans hmn (h hne)

variable [DecidableEq τ]

/-! ## The operations -/

/-- `t` is inside no call of `wait`. -/
def Away (cv : CondVar τ) (t : τ) : Prop := t ∉ cv.blocked ∧ t ∉ cv.woken

instance (cv : CondVar τ) (t : τ) : Decidable (cv.Away t) :=
  inferInstanceAs (Decidable (_ ∧ _))

/-- `t` goes to sleep, coming from outside or from a predicate that was false. -/
def block (cv : CondVar τ) (t : τ) : CondVar τ where
  blocked := insert t cv.blocked
  woken := cv.woken.erase t
  disjoint := by
    rw [Finset.disjoint_insert_left]
    exact ⟨Finset.notMem_erase t _, cv.disjoint.mono_right (Finset.erase_subset t _)⟩

/-- `t` is on its way to look at its predicate. -/
def wake (cv : CondVar τ) (t : τ) : CondVar τ where
  blocked := cv.blocked.erase t
  woken := insert t cv.woken
  disjoint := by
    rw [Finset.disjoint_insert_right]
    exact ⟨Finset.notMem_erase t _, cv.disjoint.mono_left (Finset.erase_subset t _)⟩

/-- `notify_one`: `choice` is the thread that moves; `none` is no choice while a thread is
    blocked. -/
def notifyOne (cv : CondVar τ) : Option τ → Option (CondVar τ)
  | none => if cv.blocked = ∅ then some cv else none
  | some t => if t ∈ cv.blocked then some (cv.wake t) else none

/-- `notify_all`. -/
def notifyAll (cv : CondVar τ) : CondVar τ where
  blocked := ∅
  woken := cv.woken ∪ cv.blocked
  disjoint := Finset.disjoint_empty_left _

/-- `t` returns from `wait`. -/
def leave (cv : CondVar τ) (t : τ) : CondVar τ where
  blocked := cv.blocked
  woken := cv.woken.erase t
  disjoint := cv.disjoint.mono_right (Finset.erase_subset t _)

@[simp] theorem blocked_leave (cv : CondVar τ) (t : τ) : (cv.leave t).blocked = cv.blocked := rfl

/-- What `notify_one` does. -/
theorem notifyOne_cases {cv cv' : CondVar τ} {choice : Option τ}
    (h : cv.notifyOne choice = some cv') :
    (cv.blocked = ∅ ∧ cv' = cv) ∨ ∃ t ∈ cv.blocked, cv' = cv.wake t := by
  cases choice with
  | none =>
    rw [notifyOne] at h
    split at h
    · rename_i hnone
      cases h
      exact Or.inl ⟨hnone, rfl⟩
    · cases h
  | some t =>
    rw [notifyOne] at h
    split at h
    · rename_i ht
      cases h
      exact Or.inr ⟨t, ht, rfl⟩
    · cases h

/-- `notify_one` blocks nobody. -/
theorem blocked_notifyOne_subset {cv cv' : CondVar τ} {choice : Option τ}
    (h : cv.notifyOne choice = some cv') : cv'.blocked ⊆ cv.blocked := by
  rcases notifyOne_cases h with ⟨-, rfl⟩ | ⟨t, -, rfl⟩
  · exact Finset.Subset.refl _
  · exact Finset.erase_subset t _

theorem card_woken_wake {cv : CondVar τ} {t : τ} (h : t ∈ cv.blocked) :
    (cv.wake t).woken.card = cv.woken.card + 1 :=
  Finset.card_insert_of_notMem (Finset.disjoint_left.mp cv.disjoint h)

/-! ## The threads inside `wait` -/

/-- The threads inside `wait`. -/
def inside (cv : CondVar τ) : Finset τ := cv.blocked ∪ cv.woken

theorem away_iff {cv : CondVar τ} {t : τ} : cv.Away t ↔ t ∉ cv.inside := by
  rw [Away, inside, Finset.mem_union, not_or]

theorem blocked_subset_inside (cv : CondVar τ) : cv.blocked ⊆ cv.inside :=
  Finset.subset_union_left

/-- A wakeup takes nobody out of `wait`. -/
theorem inside_wake {cv : CondVar τ} {t : τ} (h : t ∈ cv.blocked) :
    (cv.wake t).inside = cv.inside := by
  show cv.blocked.erase t ∪ insert t cv.woken = cv.blocked ∪ cv.woken
  rw [Finset.union_insert, ← Finset.insert_union, Finset.insert_erase h]

theorem inside_notifyOne {cv cv' : CondVar τ} {choice : Option τ}
    (h : cv.notifyOne choice = some cv') : cv'.inside = cv.inside := by
  rcases notifyOne_cases h with ⟨-, rfl⟩ | ⟨t, ht, rfl⟩
  · rfl
  · exact inside_wake ht

theorem inside_notifyAll (cv : CondVar τ) : cv.notifyAll.inside = cv.inside := by
  show ∅ ∪ (cv.woken ∪ cv.blocked) = cv.blocked ∪ cv.woken
  rw [Finset.empty_union, Finset.union_comm]

theorem inside_block (cv : CondVar τ) (t : τ) : (cv.block t).inside = insert t cv.inside := by
  show insert t cv.blocked ∪ cv.woken.erase t = insert t (cv.blocked ∪ cv.woken)
  ext x
  simp only [Finset.mem_union, Finset.mem_insert, Finset.mem_erase]
  by_cases hx : x = t <;> simp [hx]

theorem inside_leave {cv : CondVar τ} {t : τ} (h : t ∈ cv.woken) :
    (cv.leave t).inside = cv.inside.erase t := by
  have hnot : t ∉ cv.blocked := fun hb => Finset.disjoint_left.mp cv.disjoint hb h
  show cv.blocked ∪ cv.woken.erase t = (cv.blocked ∪ cv.woken).erase t
  rw [Finset.erase_union_distrib, Finset.erase_eq_of_notMem hnot]

/-- Somebody can be notified, or nobody has to be. -/
theorem exists_notifyOne (cv : CondVar τ) : ∃ choice cv', cv.notifyOne choice = some cv' := by
  rcases cv.blocked.eq_empty_or_nonempty with hnone | ⟨t, ht⟩
  · exact ⟨none, cv, if_pos hnone⟩
  · exact ⟨some t, cv.wake t, if_pos ht⟩

/-- `notify_one` leaves at most one sleeper less. -/
theorem card_blocked_notifyOne {cv cv' : CondVar τ} {choice : Option τ}
    (h : cv.notifyOne choice = some cv') : cv.blocked.card ≤ cv'.blocked.card + 1 := by
  rcases notifyOne_cases h with ⟨-, rfl⟩ | ⟨t, ht, rfl⟩
  · omega
  · show cv.blocked.card ≤ (cv.blocked.erase t).card + 1
    have hcard := Finset.card_erase_add_one ht
    omega

/-! ## Enough wakeups, kept -/

/-- A spurious wakeup. -/
theorem Covers.wake {cv : CondVar τ} {n : Nat} (h : cv.Covers n) (t : τ) :
    (cv.wake t).Covers n := by
  intro hne
  have hle : cv.woken.card ≤ (cv.wake t).woken.card :=
    Finset.card_le_card (Finset.subset_insert t _)
  exact Nat.le_trans (h (hne.mono (Finset.erase_subset t _))) hle

/-- **One more item, one notification.** -/
theorem Covers.notifyOne_succ {cv cv' : CondVar τ} {choice : Option τ} {n : Nat} (h : cv.Covers n)
    (hnotify : cv.notifyOne choice = some cv') : cv'.Covers (n + 1) := by
  rcases notifyOne_cases hnotify with ⟨hnone, rfl⟩ | ⟨t, ht, rfl⟩
  · exact covers_of_blocked_eq_empty hnone _
  · intro _
    have hn : n ≤ cv.woken.card := h ⟨t, ht⟩
    rw [card_woken_wake ht]
    omega

/-- **One item less, one consumer less.** -/
theorem Covers.leave {cv : CondVar τ} {n : Nat} (h : cv.Covers (n + 1)) (t : τ) :
    (cv.leave t).Covers n := by
  intro hne
  have hn : n + 1 ≤ cv.woken.card := h hne
  have hcard : cv.woken.card - 1 ≤ (cv.woken.erase t).card := Finset.pred_card_le_card_erase
  show n ≤ (cv.woken.erase t).card
  omega

end CondVar
