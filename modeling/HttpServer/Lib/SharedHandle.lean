/-
  A shared handle — a field that several parties test, release and reset, each in steps of its own.

  1. **Program** — the field holds a handle or nothing.  A party that has found a handle in it is
     `holding`; it then reads the field (`reading v`), releases what it has read (`released`) and
     clears the field.  A handle is stored, and a test passes, only while nobody else is between its
     test and its reset.

  2. **Specification** — `stored es` are the handles that were stored, `releases es` what was released,
     in order; a release of nothing is `none`.

  3. **The crux (`Phase`)** — either every party is idle and the field holds what is not yet released,
     or exactly one is on its way, before its release or behind it.

  4. **Bridge** — what was stored is what was released and what is still owed (`stored_eq`), so nothing
     is released that was not stored, and with nobody on its way and the field empty everything
     stored was released once.
-/
import HttpServer.Lib.Machine
import Mathlib.Data.Option.Basic

/-- Where a party is between its test of the field and its reset. -/
inductive Grip (α : Type*)
  /-- Before its test, or behind its reset. -/
  | free
  /-- Its test found a handle; the field is not yet read for the release. -/
  | holding
  /-- With what it has read. -/
  | reading (v : Option α)
  /-- Behind the release and before the reset. -/
  | released

/-- The field, and its parties. -/
structure Handle (α : Type*) where
  /-- The handle that is stored, if one is. -/
  slot : Option α
  grips : List (Grip α)

/-- The steps: each is one access to the field or one release, so that the steps of two parties may
    come between one another wherever the conditions on `store` and `take` let them. -/
inductive HandleAction (α : Type*)
  /-- A handle is stored in the empty field. -/
  | store (v : α)
  /-- One more party. -/
  | join
  /-- The test of party `i` finds a handle. -/
  | take (i : Nat)
  /-- Party `i` reads the field, for the release. -/
  | read (i : Nat)
  /-- Party `i` releases what it has read. -/
  | release (i : Nat)
  /-- Party `i` clears the field. -/
  | reset (i : Nat)

/-- What a step shows of the handles. -/
inductive HandleEvent (α : Type*)
  | stored (v : α)
  | released (v : Option α)
  | quiet

/-- The handle that a step stores. -/
def HandleEvent.stored? {α : Type*} : HandleEvent α → Option α
  | .stored v => some v
  | _ => none

/-- What a step releases, and `none` within if that is nothing. -/
def HandleEvent.released? {α : Type*} : HandleEvent α → Option (Option α)
  | .released v => some v
  | _ => none

namespace Grip

variable {α : Type*}

/-- The party is not between its test and its reset. -/
def isFree : Grip α → Bool
  | .free => true
  | _ => false

theorem isFree_iff {g : Grip α} : g.isFree = true ↔ g = .free := by
  cases g <;> simp [isFree]

end Grip

namespace Handle

variable {α : Type*}

/-! ## Program -/

/-- Nobody is between its test and its reset. -/
def allFree (h : Handle α) : Bool := h.grips.all Grip.isFree

/-- Party `i` is now at `g`. -/
def setGrip (h : Handle α) (i : Nat) (g : Grip α) : Handle α := { h with grips := h.grips.set i g }

/-- `h.step a` — the step, if it is possible in `h`.  Only `store` and `take` have a condition on
    the other parties; from its `take` on a party goes its way without looking at anybody. -/
def step (h : Handle α) : HandleAction α → Option (Handle α × HandleEvent α)
  | .store v => if h.slot = none ∧ h.allFree then some ({ h with slot := some v }, .stored v) else none
  | .join => some ({ h with grips := h.grips ++ [.free] }, .quiet)
  | .take i =>
    if h.slot ≠ none ∧ h.allFree ∧ i < h.grips.length then some (h.setGrip i .holding, .quiet)
    else none
  | .read i =>
    match h.grips[i]? with
    | some .holding => some (h.setGrip i (.reading h.slot), .quiet)
    | _ => none
  | .release i =>
    match h.grips[i]? with
    | some (.reading v) => some (h.setGrip i .released, .released v)
    | _ => none
  | .reset i =>
    match h.grips[i]? with
    | some .released => some ({ h with slot := none }.setGrip i .free, .quiet)
    | _ => none

/-- `n` parties and no handle yet. -/
def machine (α : Type*) (n : Nat) : Machine (Handle α) (HandleAction α) (HandleEvent α) where
  init := ⟨none, List.replicate n .free⟩
  step := step

/-! ## Specification -/

/-- A history. -/
abbrev History (α : Type*) := List (HandleAction α × HandleEvent α)

/-- The handles stored in a history, in order. -/
def stored (es : History α) : List α := es.filterMap fun e => e.2.stored?

/-- What was released in a history, in order, with `none` for a release of nothing. -/
def releases (es : History α) : List (Option α) := es.filterMap fun e => e.2.released?

theorem stored_snoc (es : History α) (a : HandleAction α) (e : HandleEvent α) :
    stored (es ++ [(a, e)]) = stored es ++ e.stored?.toList :=
  Machine.filterMap_snoc _ es (a, e)

theorem releases_snoc (es : History α) (a : HandleAction α) (e : HandleEvent α) :
    releases (es ++ [(a, e)]) = releases es ++ e.released?.toList :=
  Machine.filterMap_snoc _ es (a, e)

/-! ## The crux: one party at a time -/

/-- Every party but `i` is idle. -/
def Only (h : Handle α) (i : Nat) : Prop := ∀ g ∈ h.grips.set i .free, g = .free

/-- `Phase sto rel h` — who is on its way, and what of the stored handles `sto` is released. -/
inductive Phase (sto : List α) (rel : List (Option α)) (h : Handle α) : Prop
  /-- Nobody is; what the field holds is not yet released. -/
  | rest (free : ∀ g ∈ h.grips, g = .free) (ledger : sto.map some = rel ++ h.slot.toList.map some)
  /-- Party `i` is, before its release. -/
  | held {v i} (only : h.Only i) (slot : h.slot = some v)
      (grip : h.grips[i]? = some .holding ∨ h.grips[i]? = some (.reading (some v)))
      (ledger : sto.map some = rel ++ [some v])
  /-- Party `i` is, behind its release. -/
  | released {i} (only : h.Only i) (grip : h.grips[i]? = some .released)
      (ledger : sto.map some = rel)

section Crux

variable {sto : List α} {rel : List (Option α)} {h : Handle α} {i j : Nat} {g : Grip α}

/-- A party on its way is the one that is. -/
theorem Only.eq_of_grip (only : h.Only i) (hj : h.grips[j]? = some g) (hg : g ≠ .free) : j = i := by
  by_contra hne
  have hset : (h.grips.set i .free)[j]? = some g := by rwa [List.getElem?_set_ne (Ne.symm hne)]
  exact hg (only g (List.mem_of_getElem? hset))

theorem only_setGrip (only : h.Only i) (g : Grip α) : (h.setGrip i g).Only i := by
  show ∀ g' ∈ (h.grips.set i g).set i .free, g' = .free
  rwa [List.set_set]

theorem setGrip_getElem? (hi : h.grips[i]? = some g) (g' : Grip α) :
    (h.setGrip i g').grips[i]? = some g' := by
  obtain ⟨hlt, -⟩ := List.getElem?_eq_some_iff.mp hi
  exact List.getElem?_set_self hlt

theorem allFree_iff : h.allFree = true ↔ ∀ g ∈ h.grips, g = .free := by
  simp only [allFree, List.all_eq_true, Grip.isFree_iff]

/-- In a state of rest no party is on its way. -/
theorem not_free_of_rest (free : ∀ g ∈ h.grips, g = .free) (hi : h.grips[i]? = some g) : g = .free :=
  free g (List.mem_of_getElem? hi)

/-- A store, or a test that passes, finds everybody idle. -/
theorem Phase.ledger_of_allFree (hphase : Phase sto rel h) (hfree : h.allFree = true) :
    sto.map some = rel ++ h.slot.toList.map some := by
  have hgrips := allFree_iff.mp hfree
  cases hphase with
  | rest _ ledger => exact ledger
  | held _ _ grip _ =>
    rcases grip with grip | grip
    · cases not_free_of_rest hgrips grip
    · cases not_free_of_rest hgrips grip
  | released _ grip _ => cases not_free_of_rest hgrips grip

theorem Phase.store (hphase : Phase sto rel h) (hslot : h.slot = none) (hfree : h.allFree = true)
    (v : α) : Phase (sto ++ [v]) rel { h with slot := some v } := by
  have hledger := hphase.ledger_of_allFree hfree
  rw [hslot, Option.toList_none, List.map_nil, List.append_nil] at hledger
  refine .rest (allFree_iff.mp hfree) ?_
  rw [List.map_append, hledger]
  rfl

theorem Phase.take (hphase : Phase sto rel h) (hslot : h.slot ≠ none) (hfree : h.allFree = true)
    (hi : i < h.grips.length) : Phase sto rel (h.setGrip i .holding) := by
  have hledger := hphase.ledger_of_allFree hfree
  obtain ⟨v, hv⟩ := Option.ne_none_iff_exists'.mp hslot
  rw [hv] at hledger
  have honly : h.Only i := by
    intro g hg
    rcases List.mem_or_eq_of_mem_set hg with hg | rfl
    · exact allFree_iff.mp hfree g hg
    · rfl
  exact .held (only_setGrip honly _) hv (Or.inl (List.getElem?_set_self hi)) hledger

/-- A new party is idle. -/
theorem Phase.join (hphase : Phase sto rel h) :
    Phase sto rel { h with grips := h.grips ++ [.free] } := by
  have hget {i : Nat} {g : Grip α} (hi : h.grips[i]? = some g) :
      (h.grips ++ [Grip.free])[i]? = some g := by
    obtain ⟨hlt, -⟩ := List.getElem?_eq_some_iff.mp hi
    rwa [List.getElem?_append_left hlt]
  have honly {i : Nat} {g : Grip α} (hi : h.grips[i]? = some g) (only : h.Only i) :
      Only { h with grips := h.grips ++ [.free] } i := by
    obtain ⟨hlt, -⟩ := List.getElem?_eq_some_iff.mp hi
    intro g' hg'
    replace hg' : g' ∈ (h.grips ++ [Grip.free]).set i Grip.free := hg'
    rw [List.set_append_left _ _ hlt] at hg'
    rcases List.mem_append.mp hg' with hg' | hg'
    · exact only g' hg'
    · exact List.mem_singleton.mp hg'
  cases hphase with
  | rest free ledger =>
    refine .rest (fun g hg => ?_) ledger
    rcases List.mem_append.mp hg with hg | hg
    · exact free g hg
    · exact List.mem_singleton.mp hg
  | held only slot grip ledger =>
    rcases grip with grip | grip
    · exact .held (honly grip only) slot (Or.inl (hget grip)) ledger
    · exact .held (honly grip only) slot (Or.inr (hget grip)) ledger
  | released only grip ledger => exact .released (honly grip only) (hget grip) ledger

theorem Phase.read (hphase : Phase sto rel h) (hi : h.grips[i]? = some .holding) :
    Phase sto rel (h.setGrip i (.reading h.slot)) := by
  cases hphase with
  | rest free _ => cases not_free_of_rest free hi
  | held only slot _ ledger =>
    obtain rfl := only.eq_of_grip hi (by simp)
    rw [slot]
    exact .held (only_setGrip only _) slot (Or.inr (setGrip_getElem? hi _)) ledger
  | released only grip _ =>
    obtain rfl := only.eq_of_grip hi (by simp)
    rw [grip] at hi
    cases hi

/-- **What is released is what the field holds.** -/
theorem Phase.release {v : Option α} (hphase : Phase sto rel h)
    (hi : h.grips[i]? = some (.reading v)) :
    Phase sto (rel ++ [v]) (h.setGrip i .released) := by
  cases hphase with
  | rest free _ => cases not_free_of_rest free hi
  | held only slot grip ledger =>
    obtain rfl := only.eq_of_grip hi (by simp)
    rw [hi] at grip
    rcases grip with grip | grip
    · cases grip
    · cases grip
      exact .released (only_setGrip only _) (setGrip_getElem? hi _) ledger
  | released only grip _ =>
    obtain rfl := only.eq_of_grip hi (by simp)
    rw [grip] at hi
    cases hi

theorem Phase.reset (hphase : Phase sto rel h) (hi : h.grips[i]? = some .released) :
    Phase sto rel ({ h with slot := none }.setGrip i .free) := by
  cases hphase with
  | rest free _ => cases not_free_of_rest free hi
  | held only _ grip _ =>
    obtain rfl := only.eq_of_grip hi (by simp)
    rw [hi] at grip
    rcases grip with grip | grip
    · cases grip
    · cases grip
  | released only _ ledger =>
    obtain rfl := only.eq_of_grip hi (by simp)
    refine .rest only ?_
    show _ = rel ++ []
    rw [ledger, List.append_nil]

/-- A step that stores and releases nothing. -/
theorem Phase.quiet (hphase : Phase sto rel h) : Phase (sto ++ []) (rel ++ []) h := by
  rwa [List.append_nil, List.append_nil]

end Crux

/-- **One step.** -/
theorem Phase.step {es : History α} {h h' : Handle α} {a : HandleAction α} {e : HandleEvent α}
    (hphase : Phase (stored es) (releases es) h) (hstep : h.step a = some (h', e)) :
    Phase (stored (es ++ [(a, e)])) (releases (es ++ [(a, e)])) h' := by
  rw [stored_snoc, releases_snoc]
  cases a with
  | store v =>
    rw [Handle.step] at hstep
    split at hstep
    · rename_i hcond
      cases hstep
      exact (List.append_nil (releases es)).symm ▸ hphase.store hcond.1 hcond.2 v
    · cases hstep
  | join =>
    cases hstep
    exact .quiet hphase.join
  | take i =>
    rw [Handle.step] at hstep
    split at hstep
    · rename_i hcond
      cases hstep
      exact .quiet (hphase.take hcond.1 hcond.2.1 hcond.2.2)
    · cases hstep
  | read i =>
    simp only [Handle.step] at hstep
    split at hstep
    · rename_i hi
      cases hstep
      exact .quiet (hphase.read hi)
    · cases hstep
  | release i =>
    simp only [Handle.step] at hstep
    split at hstep
    · rename_i v hi
      cases hstep
      exact (List.append_nil (stored es)).symm ▸ hphase.release hi
    · cases hstep
  | reset i =>
    simp only [Handle.step] at hstep
    split at hstep
    · rename_i hi
      cases hstep
      exact .quiet (hphase.reset hi)
    · cases hstep

/-- **A whole run.** -/
theorem phase_of_run {n : Nat} {es : History α} {h : Handle α} (run : (machine α n).Run es h) :
    Phase (stored es) (releases es) h := by
  refine run.invariant (.rest (fun g hg => ?_) rfl) fun _ hphase hstep => hphase.step hstep
  exact List.eq_of_mem_replicate hg

/-! ## What was stored is released once -/

/-- **Nothing else is released, and nothing twice**: the releases are the first of the stored
    handles, in order. -/
theorem releases_first {n : Nat} {es : History α} {h : Handle α} (run : (machine α n).Run es h) :
    releases es <+: (stored es).map some := by
  cases phase_of_run run with
  | rest _ ledger => exact ledger ▸ List.prefix_append _ _
  | held _ _ _ ledger => exact ledger ▸ List.prefix_append _ _
  | released _ _ ledger => exact ledger ▸ List.prefix_refl _

/-- **With nobody on its way and the field empty, everything stored was released.** -/
theorem releases_eq_of_rest {n : Nat} {es : History α} {h : Handle α} (run : (machine α n).Run es h)
    (hfree : h.allFree = true) (hslot : h.slot = none) : releases es = (stored es).map some := by
  have hledger := (phase_of_run run).ledger_of_allFree hfree
  rw [hslot, Option.toList_none, List.map_nil, List.append_nil] at hledger
  exact hledger.symm

end Handle
