/-
  Slots — a list in which one entry at a time is overwritten, as the table of a pool's workers.

  1. **Program** — the table is a list, and a step of worker `i` is `slots.set i b`.

  2. **What the slots hold** — with `held` the list of things in a slot, `slots.flatMap held` is all
     that is held.  Overwriting one slot takes out what it held and puts in what it holds now, up to
     order (`flatMap_set_perm`).

  3. **What the slots are** — a Boolean property of all slots after one was overwritten
     (`all_set_eq_false`, `of_all_of_getElem?`), how many slots have it (`countP_set_add`), and a
     sum over the slots (`sum_map_set_add`).
-/
import Mathlib.Data.List.Perm.Basic
import Mathlib.Algebra.BigOperators.Group.List.Basic
import Mathlib.Algebra.GroupWithZero.Nat

namespace Slots

open scoped List

variable {α β : Type*}

/-- **Overwriting a slot**: what it holds now replaces what it held. -/
theorem flatMap_set_perm {held : α → List β} {slots : List α} {i : Nat} {a : α}
    (h : slots[i]? = some a) (b : α) :
    (held a ++ (slots.set i b).flatMap held).Perm (held b ++ slots.flatMap held) := by
  induction slots generalizing i with
  | nil => simp at h
  | cons c slots ih =>
    cases i with
    | zero =>
      have hca : c = a := by simpa using h
      subst hca
      rw [List.set_cons_zero, List.flatMap_cons, List.flatMap_cons, ← List.append_assoc,
        ← List.append_assoc]
      exact List.perm_append_comm.append_right _
    | succ i =>
      have hih := ih (i := i) (by simpa using h)
      rw [List.set_cons_succ, List.flatMap_cons, List.flatMap_cons]
      calc held a ++ (held c ++ (slots.set i b).flatMap held)
          ~ held c ++ (held a ++ (slots.set i b).flatMap held) := by
            simpa only [List.append_assoc] using List.perm_append_comm.append_right _
        _ ~ held c ++ (held b ++ slots.flatMap held) := hih.append_left _
        _ ~ held b ++ (held c ++ slots.flatMap held) := by
            simpa only [List.append_assoc] using List.perm_append_comm.append_right _

/-- A slot that fails a test makes the test of all slots fail. -/
theorem all_set_eq_false {p : α → Bool} {slots : List α} {i : Nat} {a b : α}
    (h : slots[i]? = some a) (hb : p b = false) : (slots.set i b).all p = false := by
  obtain ⟨hi, -⟩ := List.getElem?_eq_some_iff.mp h
  rw [List.all_eq_false]
  exact ⟨b, List.mem_iff_getElem.mpr ⟨i, by simpa using hi, by simp⟩, by simp [hb]⟩

/-- A slot passes a test that all slots pass. -/
theorem of_all_of_getElem? {p : α → Bool} {slots : List α} {i : Nat} {a : α}
    (hall : slots.all p = true) (h : slots[i]? = some a) : p a = true :=
  List.all_eq_true.mp hall a (List.mem_of_getElem? h)

/-- Counting the slots that pass a test, after one of them was overwritten. -/
theorem countP_set_add {p : α → Bool} {slots : List α} {i : Nat} {a : α}
    (h : slots[i]? = some a) (b : α) :
    (slots.set i b).countP p + (p a).toNat = slots.countP p + (p b).toNat := by
  obtain ⟨hi, rfl⟩ := List.getElem?_eq_some_iff.mp h
  have hle := List.boole_getElem_le_countP (p := p) hi
  rw [List.countP_set hi]
  cases hpa : p slots[i] with
  | false =>
    cases hpb : p b <;> rfl
  | true =>
    rw [if_pos hpa] at hle
    cases hpb : p b with
    | false =>
      show slots.countP p - 1 + 0 + 1 = slots.countP p + 0
      omega
    | true =>
      show slots.countP p - 1 + 1 + 1 = slots.countP p + 1
      omega

/-- A sum over the slots, after one of them was overwritten. -/
theorem sum_map_set_add {f : α → Nat} {slots : List α} {i : Nat} {a : α}
    (h : slots[i]? = some a) (b : α) :
    ((slots.set i b).map f).sum + f a = (slots.map f).sum + f b := by
  induction slots generalizing i with
  | nil => simp at h
  | cons c slots ih =>
    cases i with
    | zero =>
      have hca : c = a := by simpa using h
      subst hca
      simp only [List.set_cons_zero, List.map_cons, List.sum_cons]
      omega
    | succ i =>
      have hih := ih (i := i) (by simpa using h)
      simp only [List.set_cons_succ, List.map_cons, List.sum_cons]
      omega

end Slots
