/-
  Locked jobs — threads whose calls do their work under one lock, and handlers that interrupt them.

  1. **Program** — a call waits for the lock, makes up its job when it has got it (from its arguments
     and from what it reads there), does the job one effect after the other and gives the lock back;
     a call that needs no lock returns at once.  A handler may interrupt a thread anywhere, also
     inside the lock.  It begins with a call of its own, and the thread goes on when the handler has
     returned; a handler does not interrupt itself.

  2. **Specification** — `granted es`, the calls in the order in which they got the lock, and
     `performed es`, the effects in the order in which they happened.

  3. **The crux (`Inv`)** — of all that a thread has under way, one call is inside the lock if the
     thread is the holder, and none if it is not.

  4. **Serial (`performed_append_pending`, `shared_eq`)** — the effects are those of whole jobs, one
     job behind the other, less what the last of them has still to do.

  5. **Order (`calledBy_eq`)** — of one thread, or one handler in one thread, the calls get the lock
     in the order in which they were made, and none is lost.
-/
import HttpServer.Lib.Machine
import Mathlib.Logic.Function.Basic

/-- `LockedJobs σ ρ α ε κ` — calls `ρ` whose jobs have effects `ε` on `σ`, readings `α`, handlers
    `κ`. -/
structure LockedJobs (σ ρ α ε κ : Type*) where
  /-- What the calls share, at the beginning. -/
  init : σ
  /-- What one effect does to it. -/
  apply : σ → ε → σ
  /-- A call that does not returns without having done anything. -/
  needsLock : ρ → Bool
  /-- What a call does under the lock, with what it reads there. -/
  job : ρ → α → List ε
  /-- The call that a handler begins with. -/
  handlerCall : κ → ρ

namespace LockedJobs

/-- Where the code of a thread, or a handler, is. -/
inductive Phase (ρ ε : Type*)
  /-- Outside of every call. -/
  | away
  /-- With a call that has not got the lock yet. -/
  | waiting (call : ρ)
  /-- With the effects that are still to come. -/
  | inside (rest : List ε)

/-- The code of a thread and the handlers that have interrupted it, the innermost first. -/
structure Thread (ρ ε κ : Type*) where
  /-- Where the thread's own code is. -/
  own : Phase ρ ε
  handlers : List (κ × Phase ρ ε)

/-- What the calls share, who has the lock, and where every thread is.  The lock is not recursive: a
    handler that interrupts the holder and calls waits for a lock that nobody can give back. -/
structure State (ι σ ρ ε κ : Type*) where
  shared : σ
  holder : Option ι
  threads : ι → Thread ρ ε κ

/-- One step of thread `i`. -/
inductive Action (ι ρ α κ : Type*)
  /-- The thread's own code makes a call. -/
  | call (i : ι) (r : ρ)
  /-- Handler `k` begins on top of whatever the thread does, with its call. -/
  | interrupt (i : ι) (k : κ)
  /-- What runs gets the lock, and reads `x` there. -/
  | acquire (i : ι) (x : α)
  /-- The next effect of the job. -/
  | perform (i : ι)
  /-- The job is done: the lock is given back and the call returns. -/
  | release (i : ι)
  /-- A handler does what it has to do behind its call, and returns. -/
  | finish (i : ι)

/-- What a step shows: which call got the lock, and every effect as it happens. -/
inductive Event (ρ ε κ : Type*)
  | called
  /-- `held` says whether the interrupted thread was the holder. -/
  | interrupted (held : Bool)
  /-- The call, and the handler whose call it is. -/
  | acquired (handler : Option κ) (call : ρ)
  | performed (effect : ε)
  | released
  | finished (k : κ)

variable {ι σ ρ α ε κ : Type*}

/-! ## Program -/

/-- It has the lock. -/
def Phase.isInside : Phase ρ ε → Bool
  | .inside _ => true
  | _ => false

/-- It waits for the lock. -/
def Phase.isWaiting : Phase ρ ε → Bool
  | .waiting _ => true
  | _ => false

namespace Thread

/-- What runs: the innermost handler, or the code of the thread. -/
def top (t : Thread ρ ε κ) : Phase ρ ε :=
  match t.handlers with
  | [] => t.own
  | h :: _ => h.2

/-- What runs is now at `p`; what it has interrupted stays where it was. -/
def setTop (t : Thread ρ ε κ) (p : Phase ρ ε) : Thread ρ ε κ :=
  match t.handlers with
  | [] => { t with own := p }
  | h :: hs => { t with handlers := (h.1, p) :: hs }

/-- The handler that runs. -/
def current (t : Thread ρ ε κ) : Option κ := t.handlers.head?.map Prod.fst

/-- All that a thread has under way, what runs first. -/
def phases (t : Thread ρ ε κ) : List (Phase ρ ε) := t.handlers.map Prod.snd ++ [t.own]

/-- What is interrupted. -/
def below (t : Thread ρ ε κ) : List (Phase ρ ε) := t.phases.tail

end Thread

theorem Thread.phases_eq (t : Thread ρ ε κ) : t.phases = t.top :: t.below := by
  obtain ⟨own, handlers⟩ := t
  cases handlers with
  | nil => rfl
  | cons h hs => rfl

theorem Thread.phases_setTop (t : Thread ρ ε κ) (p : Phase ρ ε) :
    (t.setTop p).phases = p :: t.below := by
  obtain ⟨own, handlers⟩ := t
  cases handlers with
  | nil => rfl
  | cons h hs => rfl

/-- Thread `i` is now `t`; nothing else changes. -/
def State.setThread [DecidableEq ι] (s : State ι σ ρ ε κ) (i : ι) (t : Thread ρ ε κ) :
    State ι σ ρ ε κ :=
  { s with threads := Function.update s.threads i t }

variable (J : LockedJobs σ ρ α ε κ)

/-- Where a call begins. -/
def start (r : ρ) : Phase ρ ε := if J.needsLock r then .waiting r else .away

theorem start_isInside (r : ρ) : (J.start r).isInside = false := by
  unfold start
  split
  · rfl
  · rfl

variable [DecidableEq ι]

/-- `J.step s a` — the step, if it is possible in `s`.  A call is made outside of every call and of
    every handler; the lock is given to one that waits, when nobody has it; a job ends when none of
    its effects is left; a handler that is on top and in no call returns. -/
def step [DecidableEq κ] (s : State ι σ ρ ε κ) :
    Action ι ρ α κ → Option (State ι σ ρ ε κ × Event ρ ε κ)
  | .call i r =>
    match s.threads i with
    | ⟨.away, []⟩ => some (s.setThread i ⟨J.start r, []⟩, .called)
    | _ => none
  | .interrupt i k =>
    let t := s.threads i
    if k ∈ t.handlers.map Prod.fst then none
    else
      some (s.setThread i { t with handlers := (k, J.start (J.handlerCall k)) :: t.handlers },
        .interrupted (decide (s.holder = some i)))
  | .acquire i x =>
    let t := s.threads i
    match t.top with
    | .waiting r =>
      if s.holder.isSome then none
      else
        some ({ s.setThread i (t.setTop (.inside (J.job r x))) with holder := some i },
          .acquired t.current r)
    | _ => none
  | .perform i =>
    let t := s.threads i
    match t.top with
    | .inside (e :: rest) =>
      some ({ s.setThread i (t.setTop (.inside rest)) with shared := J.apply s.shared e },
        .performed e)
    | _ => none
  | .release i =>
    let t := s.threads i
    match t.top with
    | .inside [] => some ({ s.setThread i (t.setTop .away) with holder := none }, .released)
    | _ => none
  | .finish i =>
    let t := s.threads i
    match t.handlers with
    | (k, .away) :: hs => some (s.setThread i { t with handlers := hs }, .finished k)
    | _ => none

/-- All threads outside, the lock free. -/
def machine (ι : Type*) [DecidableEq ι] [DecidableEq κ] (J : LockedJobs σ ρ α ε κ) :
    Machine (State ι σ ρ ε κ) (Action ι ρ α κ) (Event ρ ε κ) where
  init := ⟨J.init, none, fun _ => ⟨.away, []⟩⟩
  step := J.step

/-! ## What a step can do -/

/-- `J.Step s a s' e` — the steps, with what is known where each can be taken. -/
inductive Step (s : State ι σ ρ ε κ) :
    Action ι ρ α κ → State ι σ ρ ε κ → Event ρ ε κ → Prop
  | call {i r} (free : s.threads i = ⟨.away, []⟩) :
      Step s (.call i r) (s.setThread i ⟨J.start r, []⟩) .called
  | interrupt {i k} (fresh : k ∉ (s.threads i).handlers.map Prod.fst) :
      Step s (.interrupt i k)
        (s.setThread i { s.threads i with
          handlers := (k, J.start (J.handlerCall k)) :: (s.threads i).handlers })
        (.interrupted (decide (s.holder = some i)))
  | acquire {i x r} (top : (s.threads i).top = .waiting r) (free : s.holder = none) :
      Step s (.acquire i x)
        { s.setThread i ((s.threads i).setTop (.inside (J.job r x))) with holder := some i }
        (.acquired (s.threads i).current r)
  | perform {i e rest} (top : (s.threads i).top = .inside (e :: rest)) :
      Step s (.perform i)
        { s.setThread i ((s.threads i).setTop (.inside rest)) with shared := J.apply s.shared e }
        (.performed e)
  | release {i} (top : (s.threads i).top = .inside []) :
      Step s (.release i)
        { s.setThread i ((s.threads i).setTop .away) with holder := none } .released
  | finish {i k hs} (handlers : (s.threads i).handlers = (k, .away) :: hs) :
      Step s (.finish i) (s.setThread i { s.threads i with handlers := hs }) (.finished k)

variable {J} {s s' : State ι σ ρ ε κ} {a : Action ι ρ α κ} {e : Event ρ ε κ}

theorem Step.of_step [DecidableEq κ] (h : J.step s a = some (s', e)) : J.Step s a s' e := by
  cases a with
  | call i r =>
    simp only [step] at h
    split at h
    · rename_i hfree
      cases h
      exact .call hfree
    · cases h
  | interrupt i k =>
    simp only [step] at h
    split at h
    · cases h
    · rename_i hfresh
      cases h
      exact .interrupt hfresh
  | acquire i x =>
    simp only [step] at h
    split at h
    · rename_i r htop
      by_cases hfree : s.holder.isSome = true
      · rw [if_pos hfree] at h
        cases h
      · rw [if_neg hfree] at h
        cases h
        exact .acquire htop (Option.not_isSome_iff_eq_none.mp hfree)
    · cases h
  | perform i =>
    simp only [step] at h
    split at h
    · rename_i htop
      cases h
      exact .perform htop
    · cases h
  | release i =>
    simp only [step] at h
    split at h
    · rename_i htop
      cases h
      exact .release htop
    · cases h
  | finish i =>
    simp only [step] at h
    split at h
    · rename_i hhandlers
      cases h
      exact .finish hhandlers
    · cases h

/-! ## The crux: one call inside -/

theorem setThread_self (s : State ι σ ρ ε κ) (i : ι) (t : Thread ρ ε κ) :
    (s.setThread i t).threads i = t := by
  show Function.update s.threads i t i = t
  exact Function.update_self i t s.threads

theorem setThread_ne (s : State ι σ ρ ε κ) {i j : ι} (h : j ≠ i) (t : Thread ρ ε κ) :
    (s.setThread i t).threads j = s.threads j := by
  show Function.update s.threads i t j = s.threads j
  exact Function.update_of_ne h t s.threads

/-- `Inv s` — one call of the holder is inside the lock, and no other. -/
def Inv (s : State ι σ ρ ε κ) : Prop :=
  ∀ i, (s.threads i).phases.countP Phase.isInside = if s.holder = some i then 1 else 0

/-- Whoever is inside is the holder, and nothing below is inside. -/
theorem Inv.of_top {i : ι} {rest : List ε} (h : Inv s) (htop : (s.threads i).top = .inside rest) :
    s.holder = some i ∧ (s.threads i).below.countP Phase.isInside = 0 := by
  have hcount := h i
  rw [Thread.phases_eq, htop, List.countP_cons_of_pos rfl] at hcount
  by_cases hholder : s.holder = some i
  · rw [if_pos hholder] at hcount
    exact ⟨hholder, by omega⟩
  · rw [if_neg hholder] at hcount
    omega

theorem Inv.of_free {i : ι} (h : Inv s) (hfree : s.holder = none) :
    (s.threads i).phases.countP Phase.isInside = 0 := by
  rw [h i, hfree]
  exact if_neg (by simp)

/-- One thread is written, and the others hold the lock as before. -/
theorem Inv.update {i : ι} {t : Thread ρ ε κ} {holder : Option ι} (h : Inv s) (shared : σ)
    (hself : t.phases.countP Phase.isInside = if holder = some i then 1 else 0)
    (hother : ∀ j, j ≠ i → (holder = some j ↔ s.holder = some j)) :
    Inv { s.setThread i t with holder := holder, shared := shared } := by
  intro j
  show ((s.setThread i t).threads j).phases.countP Phase.isInside = if holder = some j then 1 else 0
  by_cases hji : j = i
  · subst hji
    rw [setThread_self, hself]
  · rw [setThread_ne s hji, h j]
    simp only [hother j hji]

theorem Inv.step (h : Inv s) (hstep : J.Step s a s' e) : Inv s' := by
  cases hstep with
  | @call i r free =>
    apply h.update s.shared _ (fun j _ => Iff.rfl)
    rw [← h i, free]
    show List.countP Phase.isInside [J.start r] = 0
    rw [List.countP_cons_of_neg (by simp [start_isInside]), List.countP_nil]
  | @interrupt i k fresh =>
    apply h.update s.shared _ (fun j _ => Iff.rfl)
    rw [← h i]
    show List.countP Phase.isInside (J.start _ :: (s.threads i).phases) = _
    exact List.countP_cons_of_neg (by simp [start_isInside])
  | @acquire i x r top free =>
    apply h.update s.shared
    · have hcount := h.of_free (i := i) free
      rw [Thread.phases_eq, List.countP_eq_zero] at hcount
      have hbelow : (s.threads i).below.countP Phase.isInside = 0 :=
        List.countP_eq_zero.mpr fun p hp => hcount p (List.mem_cons_of_mem _ hp)
      rw [Thread.phases_setTop, List.countP_cons_of_pos rfl, hbelow, if_pos rfl]
    · intro j hji
      rw [free]
      constructor
      · intro hsome
        exact absurd (Option.some.inj hsome).symm hji
      · intro hnone
        cases hnone
  | @perform i e rest top =>
    apply h.update (J.apply s.shared e) _ (fun j _ => Iff.rfl)
    rw [← h i, Thread.phases_setTop, Thread.phases_eq, top, List.countP_cons_of_pos rfl,
      List.countP_cons_of_pos rfl]
  | @release i top =>
    obtain ⟨hholder, hbelow⟩ := h.of_top top
    apply h.update s.shared
    · rw [Thread.phases_setTop, List.countP_cons_of_neg (by simp [Phase.isInside]), hbelow,
        if_neg (by simp)]
    · intro j hji
      rw [hholder]
      constructor
      · intro hnone
        cases hnone
      · intro hsome
        exact absurd (Option.some.inj hsome).symm hji
  | @finish i k hs handlers =>
    apply h.update s.shared _ (fun j _ => Iff.rfl)
    rw [← h i]
    unfold Thread.phases
    rw [handlers]
    exact (List.countP_cons_of_neg (by simp [Phase.isInside])).symm

/-- A run. -/
abbrev History (ι ρ α ε κ : Type*) := List (Action ι ρ α κ × Event ρ ε κ)

variable {es es' : History ι ρ α ε κ}

theorem inv_of_run [DecidableEq κ] (run : (machine ι J).Run es s) : Inv s := by
  refine run.invariant ?_ fun _ ih hstep => ih.step (.of_step hstep)
  intro i
  show List.countP Phase.isInside [Phase.away] = if (none : Option ι) = some i then 1 else 0
  rw [if_neg (by simp)]
  rfl

/-! ## Serial: one job behind the other -/

/-- The call that gets the lock in a step, with what it reads there. -/
def grantedCall : Action ι ρ α κ × Event ρ ε κ → Option (ρ × α)
  | (.acquire _ x, .acquired _ r) => some (r, x)
  | _ => none

/-- The effect that happens in a step. -/
def performedEffect : Action ι ρ α κ × Event ρ ε κ → Option ε
  | (_, .performed e) => some e
  | _ => none

/-- The calls that got the lock, with what they read there. -/
def granted (es : History ι ρ α ε κ) : List (ρ × α) := es.filterMap grantedCall

/-- The effects of a history, in the order in which they happened. -/
def performed (es : History ι ρ α ε κ) : List ε := es.filterMap performedEffect

/-- The effects that a phase has still to come: of a call that has the lock, what is left of its
    job. -/
def Phase.rest : Phase ρ ε → List ε
  | .inside rest => rest
  | _ => []

/-- What the call inside the lock has still to do. -/
def pending (s : State ι σ ρ ε κ) : List ε :=
  match s.holder with
  | none => []
  | some i => (s.threads i).phases.flatMap Phase.rest

/-- All jobs, one behind the other. -/
def jobs (J : LockedJobs σ ρ α ε κ) (calls : List (ρ × α)) : List ε :=
  calls.flatMap fun call => J.job call.1 call.2

theorem jobs_snoc (calls : List (ρ × α)) (r : ρ) (x : α) :
    J.jobs (calls ++ [(r, x)]) = J.jobs calls ++ J.job r x := by
  show (calls ++ [(r, x)]).flatMap _ = _
  rw [List.flatMap_append, List.flatMap_singleton]
  rfl

theorem flatMap_rest {phases : List (Phase ρ ε)} (h : phases.countP Phase.isInside = 0) :
    phases.flatMap Phase.rest = [] := by
  rw [List.flatMap_eq_nil_iff]
  intro p hp
  have hfree := List.countP_eq_zero.mp h p hp
  cases p with
  | away => rfl
  | waiting r => rfl
  | inside rest => exact absurd rfl hfree

/-- What the holder has to do is what it is inside with. -/
theorem flatMap_rest_of_top {t : Thread ρ ε κ} {rest : List ε}
    (hbelow : t.below.countP Phase.isInside = 0) :
    (t.setTop (.inside rest)).phases.flatMap Phase.rest = rest := by
  rw [Thread.phases_setTop, List.flatMap_cons, flatMap_rest hbelow, List.append_nil]
  rfl

omit [DecidableEq ι] in
theorem pending_of_holder {i : ι} (h : s.holder = some i) :
    pending s = (s.threads i).phases.flatMap Phase.rest := by
  unfold pending
  rw [h]

omit [DecidableEq ι] in
theorem pending_of_free (h : s.holder = none) : pending s = [] := by
  unfold pending
  rw [h]

/-- The holder goes on inside the lock. -/
theorem pending_inside {i : ι} {rest : List ε}
    (hbelow : (s.threads i).below.countP Phase.isInside = 0) (shared : σ) :
    pending { s.setThread i ((s.threads i).setTop (.inside rest)) with
      holder := some i, shared := shared } = rest := by
  show ((s.setThread i _).threads i).phases.flatMap Phase.rest = rest
  rw [setThread_self]
  exact flatMap_rest_of_top hbelow

/-- A thread goes on outside the lock. -/
theorem pending_setThread {i : ι} {t : Thread ρ ε κ}
    (h : t.phases.flatMap Phase.rest = (s.threads i).phases.flatMap Phase.rest) :
    pending (s.setThread i t) = pending s := by
  show (match s.holder with
    | none => []
    | some j => ((s.setThread i t).threads j).phases.flatMap Phase.rest) = pending s
  cases hholder : s.holder with
  | none => exact (pending_of_free hholder).symm
  | some j =>
    rw [pending_of_holder hholder]
    show ((s.setThread i t).threads j).phases.flatMap Phase.rest = _
    by_cases hji : j = i
    · subst hji
      rw [setThread_self, h]
    · rw [setThread_ne s hji]

/-- **One step**: a job begins behind the others, or its next effect happens, or neither. -/
theorem Step.serial (h : J.Step s a s' e) (hinv : Inv s) :
    (grantedCall (a, e) = none ∧ performedEffect (a, e) = none ∧ pending s' = pending s ∧
      s'.shared = s.shared) ∨
    (∃ r x, grantedCall (a, e) = some (r, x) ∧ performedEffect (a, e) = none ∧
      pending s = [] ∧ pending s' = J.job r x ∧ s'.shared = s.shared) ∨
    ∃ f, grantedCall (a, e) = none ∧ performedEffect (a, e) = some f ∧
      pending s = f :: pending s' ∧ s'.shared = J.apply s.shared f := by
  cases h with
  | @call i r free =>
    refine Or.inl ⟨rfl, rfl, pending_setThread ?_, rfl⟩
    rw [free]
    show [J.start r].flatMap Phase.rest = _
    exact flatMap_rest (List.countP_eq_zero.mpr (by simp [start_isInside]))
  | @interrupt i k fresh =>
    refine Or.inl ⟨rfl, rfl, pending_setThread ?_, rfl⟩
    show (J.start _ :: (s.threads i).phases).flatMap Phase.rest = _
    have hstart : (J.start (J.handlerCall k)).rest = [] := by
      unfold start
      split
      · rfl
      · rfl
    rw [List.flatMap_cons, hstart, List.nil_append]
  | @acquire i x r top free =>
    have hcount := hinv.of_free (i := i) free
    rw [Thread.phases_eq, List.countP_eq_zero] at hcount
    refine Or.inr (Or.inl ⟨r, x, rfl, rfl, pending_of_free free, ?_, rfl⟩)
    exact pending_inside
      (List.countP_eq_zero.mpr fun p hp => hcount p (List.mem_cons_of_mem _ hp)) s.shared
  | @perform i f rest top =>
    obtain ⟨hholder, hbelow⟩ := hinv.of_top top
    refine Or.inr (Or.inr ⟨f, rfl, rfl, ?_, rfl⟩)
    have hafter : pending { s.setThread i ((s.threads i).setTop (.inside rest)) with
        holder := some i, shared := J.apply s.shared f } = rest :=
      pending_inside hbelow (J.apply s.shared f)
    rw [← hholder] at hafter
    rw [pending_of_holder hholder, Thread.phases_eq, top, List.flatMap_cons, flatMap_rest hbelow,
      List.append_nil]
    exact congrArg (f :: ·) hafter.symm
  | @release i top =>
    obtain ⟨hholder, hbelow⟩ := hinv.of_top top
    refine Or.inl ⟨rfl, rfl, ?_, rfl⟩
    rw [pending_of_holder hholder, Thread.phases_eq, top, List.flatMap_cons, flatMap_rest hbelow]
    rfl
  | @finish i k hs handlers =>
    refine Or.inl ⟨rfl, rfl, pending_setThread ?_, rfl⟩
    unfold Thread.phases
    rw [handlers]
    rfl

/-- A step that gives the lock to nobody leaves it free if it was. -/
theorem Step.holder_ne_none (h : J.Step s a s' e) (hholder : s'.holder ≠ none)
    (hgranted : grantedCall (a, e) = none) : s.holder ≠ none := by
  cases h with
  | @acquire i x r top free => cases hgranted
  | @release i top => exact absurd rfl hholder
  | call | interrupt | perform | finish => exact hholder

/-- **The effects are those of whole jobs, one behind the other**, less the rest of the last one. -/
theorem performed_append_pending [DecidableEq κ] (run : (machine ι J).Run es s) :
    performed es ++ pending s = J.jobs (granted es) := by
  refine run.invariant rfl fun {es s a s' e} hrun ih hstep => ?_
  have hgranted : granted (es ++ [(a, e)]) = granted es ++ (grantedCall (a, e)).toList :=
    Machine.filterMap_snoc _ es (a, e)
  have hperformed : performed (es ++ [(a, e)]) = performed es ++ (performedEffect (a, e)).toList :=
    Machine.filterMap_snoc _ es (a, e)
  rw [hgranted, hperformed]
  rcases (Step.of_step hstep).serial (inv_of_run hrun) with
    ⟨hg, hp, hpending, -⟩ | ⟨r, x, hg, hp, hnone, hpending, -⟩ | ⟨f, hg, hp, hpending, -⟩
  · rw [hg, hp, hpending, Option.toList_none, Option.toList_none, List.append_nil, List.append_nil]
    exact ih
  · rw [hnone, List.append_nil] at ih
    rw [hg, hp, hpending, Option.toList_none, List.append_nil, Option.toList_some, jobs_snoc, ih]
  · rw [hpending] at ih
    rw [hg, hp, Option.toList_none, List.append_nil, Option.toList_some, List.append_assoc]
    exact ih

/-- The shared state is what the effects have made of it. -/
theorem shared_eq [DecidableEq κ] (run : (machine ι J).Run es s) :
    s.shared = (performed es).foldl J.apply J.init := by
  refine run.invariant rfl fun {es s a s' e} hrun ih hstep => ?_
  have hperformed : performed (es ++ [(a, e)]) = performed es ++ (performedEffect (a, e)).toList :=
    Machine.filterMap_snoc _ es (a, e)
  rw [hperformed, List.foldl_append, ← ih]
  rcases (Step.of_step hstep).serial (inv_of_run hrun) with
    ⟨-, hp, -, hshared⟩ | ⟨r, x, -, hp, -, -, hshared⟩ | ⟨f, -, hp, -, hshared⟩
  · rw [hp, hshared]
    rfl
  · rw [hp, hshared]
    rfl
  · rw [hp, hshared]
    rfl

/-- The job inside the lock is that of the last call that got it, from some effect on. -/
theorem granted_of_holder [DecidableEq κ] (run : (machine ι J).Run es s) (h : s.holder ≠ none) :
    ∃ calls r x, granted es = calls ++ [(r, x)] ∧ pending s <:+ J.job r x := by
  have hlast : s.holder ≠ none →
      ∃ calls r x, granted es = calls ++ [(r, x)] ∧ pending s <:+ J.job r x := by
    refine run.invariant (fun hinit => absurd rfl hinit) fun {es s a s' e} hrun ih hstep hholder => ?_
    have hgranted : granted (es ++ [(a, e)]) = granted es ++ (grantedCall (a, e)).toList :=
      Machine.filterMap_snoc _ es (a, e)
    rw [hgranted]
    rcases (Step.of_step hstep).serial (inv_of_run hrun) with
      ⟨hg, -, hpending, -⟩ | ⟨r, x, hg, -, -, hpending, -⟩ | ⟨f, hg, -, hpending, -⟩
    · have hbefore := (Step.of_step hstep).holder_ne_none hholder hg
      rw [hg, Option.toList_none, List.append_nil, hpending]
      exact ih hbefore
    · rw [hg, hpending]
      exact ⟨granted es, r, x, rfl, List.suffix_refl _⟩
    · have hbefore := (Step.of_step hstep).holder_ne_none hholder hg
      obtain ⟨calls, r, x, hcalls, hsuffix⟩ := ih hbefore
      rw [hg, Option.toList_none, List.append_nil]
      rw [hpending] at hsuffix
      exact ⟨calls, r, x, hcalls, (List.suffix_cons f (pending s')).trans hsuffix⟩
  exact hlast h

/-- **At any time** all jobs but the last are done, and of the last one a first part; if the lock is
    free, all are. -/
theorem jobs_between [DecidableEq κ] (run : (machine ι J).Run es s) :
    ∃ done, done <+: granted es ∧ (granted es).length ≤ done.length + 1 ∧
      (s.holder = none → done = granted es) ∧ J.jobs done <+: performed es ∧
        performed es <+: J.jobs (granted es) := by
  have hserial := performed_append_pending run
  by_cases hholder : s.holder = none
  · rw [pending_of_free hholder, List.append_nil] at hserial
    exact ⟨granted es, List.prefix_refl _, by omega, fun _ => rfl, hserial ▸ List.prefix_refl _,
      hserial ▸ List.prefix_refl _⟩
  · obtain ⟨calls, r, x, hcalls, before, hbefore⟩ := granted_of_holder run hholder
    refine ⟨calls, hcalls ▸ List.prefix_append _ _, ?_, fun h => absurd h hholder, ?_,
      hserial ▸ List.prefix_append _ _⟩
    · have hlength : (granted es).length = calls.length + 1 := by
        rw [hcalls, List.length_append, List.length_singleton]
      omega
    · rw [hcalls, jobs_snoc, ← hbefore, ← List.append_assoc] at hserial
      rw [List.append_cancel_right hserial]
      exact List.prefix_append _ _

/-! ## Order: no call is lost, and none overtakes another of its caller -/

section Order

variable [DecidableEq κ]

/-- Where a handler of the thread is, or the code of the thread. -/
def Thread.phaseOf (t : Thread ρ ε κ) : Option κ → Phase ρ ε
  | none => t.own
  | some k => (t.handlers.lookup k).getD .away

/-- The calls for the lock that caller `c` of thread `i` makes. -/
def callMade (J : LockedJobs σ ρ α ε κ) (i : ι) (c : Option κ) :
    Action ι ρ α κ × Event ρ ε κ → Option ρ
  | (.call j r, _) => if (j = i ∧ c = none) ∧ J.needsLock r = true then some r else none
  | (.interrupt j k, _) =>
    if (j = i ∧ c = some k) ∧ J.needsLock (J.handlerCall k) = true then some (J.handlerCall k)
    else none
  | _ => none

/-- Those that get it. -/
def callGranted (i : ι) (c : Option κ) : Action ι ρ α κ × Event ρ ε κ → Option ρ
  | (.acquire j _, .acquired c' r) => if j = i ∧ c' = c then some r else none
  | _ => none

/-- The call that waits for the lock. -/
def Phase.waitingCall : Phase ρ ε → Option ρ
  | .waiting r => some r
  | _ => none

theorem phaseOf_current (t : Thread ρ ε κ) : t.phaseOf t.current = t.top := by
  obtain ⟨own, handlers⟩ := t
  cases handlers with
  | nil => rfl
  | cons h hs =>
    show ((h :: hs).lookup h.1).getD .away = h.2
    rw [List.lookup_cons, beq_self_eq_true]
    rfl

theorem phaseOf_setTop_self (t : Thread ρ ε κ) (p : Phase ρ ε) :
    (t.setTop p).phaseOf t.current = p := by
  obtain ⟨own, handlers⟩ := t
  cases handlers with
  | nil => rfl
  | cons h hs =>
    show (((h.1, p) :: hs).lookup h.1).getD .away = p
    rw [List.lookup_cons, beq_self_eq_true]
    rfl

theorem phaseOf_setTop_ne {t : Thread ρ ε κ} {c : Option κ} (h : c ≠ t.current) (p : Phase ρ ε) :
    (t.setTop p).phaseOf c = t.phaseOf c := by
  obtain ⟨own, handlers⟩ := t
  cases handlers with
  | nil =>
    cases c with
    | none => exact absurd rfl h
    | some k => rfl
  | cons head hs =>
    cases c with
    | none => rfl
    | some k =>
      have hne : (k == head.1) = false := beq_eq_false_iff_ne.mpr fun heq => h (congrArg some heq)
      show (((head.1, p) :: hs).lookup k).getD .away = ((head :: hs).lookup k).getD .away
      rw [List.lookup_cons, List.lookup_cons, hne]

/-- A handler that is not there is away. -/
theorem lookup_of_not_mem {k : κ} {handlers : List (κ × Phase ρ ε)}
    (h : k ∉ handlers.map Prod.fst) : handlers.lookup k = none := by
  rw [List.lookup_eq_none_iff]
  intro p hp
  have hne : k ≠ p.1 := by
    intro heq
    exact h (heq ▸ List.mem_map_of_mem hp)
  simpa using hne

omit [DecidableEq κ] in
theorem start_waitingCall (r : ρ) :
    (J.start r).waitingCall = if J.needsLock r = true then some r else none := by
  unfold start
  split
  · rfl
  · rfl

/-- What runs goes on without waiting. -/
theorem waitingCall_setTop {t : Thread ρ ε κ} {p : Phase ρ ε} (htop : t.top.waitingCall = none)
    (hp : p.waitingCall = none) (c : Option κ) :
    ((t.setTop p).phaseOf c).waitingCall = (t.phaseOf c).waitingCall := by
  by_cases hc : c = t.current
  · rw [hc, phaseOf_setTop_self, phaseOf_current, hp, htop]
  · rw [phaseOf_setTop_ne hc]

theorem waitingCall_setThread {j : ι} {t : Thread ρ ε κ}
    (h : ∀ c, (t.phaseOf c).waitingCall = ((s.threads j).phaseOf c).waitingCall) (i : ι)
    (c : Option κ) :
    (((s.setThread j t).threads i).phaseOf c).waitingCall =
      ((s.threads i).phaseOf c).waitingCall := by
  by_cases hij : i = j
  · subst hij
    rw [setThread_self, h c]
  · rw [setThread_ne s hij]

/-- **One step**: caller `c` of thread `i` makes a call that waits, or the call it waits with gets the
    lock, or neither. -/
theorem Step.order (h : J.Step s a s' e)
    (hnodup : ∀ i, ((s.threads i).handlers.map Prod.fst).Nodup) (i : ι) (c : Option κ) :
    ((s.threads i).phaseOf c).waitingCall.toList ++ (callMade J i c (a, e)).toList =
      (callGranted i c (a, e)).toList ++ ((s'.threads i).phaseOf c).waitingCall.toList := by
  cases h with
  | @call j r free =>
    show _ ++ (if (j = i ∧ c = none) ∧ J.needsLock r = true then some r else none).toList =
      (((s.setThread j _).threads i).phaseOf c).waitingCall.toList
    by_cases hij : i = j
    · subst hij
      rw [setThread_self, free]
      cases c with
      | none =>
        show (if (i = i ∧ none = none) ∧ J.needsLock r = true then some r else none).toList =
          (J.start r).waitingCall.toList
        rw [start_waitingCall]
        simp only [true_and]
      | some k =>
        rw [if_neg (by simp)]
        rfl
    · rw [setThread_ne s hij, if_neg (fun hc => hij hc.1.1.symm)]
      exact List.append_nil _
  | @interrupt j k fresh =>
    show _ ++ (if (j = i ∧ c = some k) ∧ J.needsLock (J.handlerCall k) = true then
        some (J.handlerCall k) else none).toList =
      (((s.setThread j _).threads i).phaseOf c).waitingCall.toList
    by_cases hij : i = j
    · subst hij
      rw [setThread_self]
      by_cases hck : c = some k
      · subst hck
        have hbefore : (s.threads i).phaseOf (some k) = .away := by
          show ((s.threads i).handlers.lookup k).getD .away = .away
          rw [lookup_of_not_mem fresh]
          rfl
        have hafter : ({ s.threads i with handlers := (k, J.start (J.handlerCall k)) ::
            (s.threads i).handlers } : Thread ρ ε κ).phaseOf (some k) =
              J.start (J.handlerCall k) := by
          show (((k, J.start (J.handlerCall k)) :: (s.threads i).handlers).lookup k).getD .away = _
          rw [List.lookup_cons, beq_self_eq_true]
          rfl
        rw [hbefore, hafter, start_waitingCall]
        simp only [true_and]
        rfl
      · rw [if_neg (fun hc => hck hc.1.2), Option.toList_none, List.append_nil]
        cases c with
        | none => rfl
        | some l =>
          have hne : (l == k) = false := beq_eq_false_iff_ne.mpr fun heq => hck (congrArg some heq)
          show _ = ((((k, J.start (J.handlerCall k)) ::
            (s.threads i).handlers).lookup l).getD .away).waitingCall.toList
          rw [List.lookup_cons, hne]
          rfl
    · rw [setThread_ne s hij, if_neg (fun hc => hij hc.1.1.symm)]
      exact List.append_nil _
  | @acquire j x r top free =>
    show _ ++ [] = (if j = i ∧ (s.threads j).current = c then some r else none).toList ++
      (((s.setThread j _).threads i).phaseOf c).waitingCall.toList
    rw [List.append_nil]
    by_cases hij : i = j
    · subst hij
      rw [setThread_self]
      by_cases hc : (s.threads i).current = c
      · subst hc
        rw [phaseOf_current, top, phaseOf_setTop_self, if_pos ⟨rfl, rfl⟩]
        rfl
      · rw [phaseOf_setTop_ne (fun heq => hc heq.symm), if_neg (fun hboth => hc hboth.2)]
        rfl
    · rw [setThread_ne s hij, if_neg (fun hc => hij hc.1.symm)]
      rfl
  | @perform j f rest top =>
    show _ ++ [] = (((s.setThread j _).threads i).phaseOf c).waitingCall.toList
    have hsame := waitingCall_setThread (s := s)
      (waitingCall_setTop (p := .inside rest) (by rw [top]; rfl) rfl) i c
    rw [hsame, List.append_nil]
  | @release j top =>
    show _ ++ [] = (((s.setThread j _).threads i).phaseOf c).waitingCall.toList
    have hsame := waitingCall_setThread (s := s)
      (waitingCall_setTop (p := .away) (by rw [top]; rfl) rfl) i c
    rw [hsame, List.append_nil]
  | @finish j k hs handlers =>
    show _ ++ [] = (((s.setThread j _).threads i).phaseOf c).waitingCall.toList
    have hkeys := hnodup j
    rw [handlers, List.map_cons, List.nodup_cons] at hkeys
    rw [waitingCall_setThread _ i c, List.append_nil]
    -- the handler that returns was away, and it is not there twice
    intro c
    cases c with
    | none => rfl
    | some l =>
      show ((hs.lookup l).getD .away).waitingCall =
        (((s.threads j).handlers.lookup l).getD .away).waitingCall
      rw [handlers, List.lookup_cons]
      by_cases hlk : l = k
      · rw [hlk, lookup_of_not_mem hkeys.1, beq_self_eq_true]
        rfl
      · rw [beq_eq_false_iff_ne.mpr hlk]

omit [DecidableEq κ] in
theorem keys_setTop (t : Thread ρ ε κ) (p : Phase ρ ε) :
    (t.setTop p).handlers.map Prod.fst = t.handlers.map Prod.fst := by
  obtain ⟨own, handlers⟩ := t
  cases handlers with
  | nil => rfl
  | cons h hs => rfl

omit [DecidableEq κ] in
/-- No handler interrupts itself. -/
theorem Step.nodup (h : J.Step s a s' e)
    (hnodup : ∀ i, ((s.threads i).handlers.map Prod.fst).Nodup) (i : ι) :
    ((s'.threads i).handlers.map Prod.fst).Nodup := by
  have hset : ∀ j t, ((t : Thread ρ ε κ).handlers.map Prod.fst).Nodup →
      (((s.setThread j t).threads i).handlers.map Prod.fst).Nodup := by
    intro j t ht
    by_cases hij : i = j
    · subst hij
      rwa [setThread_self]
    · rw [setThread_ne s hij]
      exact hnodup i
  cases h with
  | @call j r free => exact hset j _ List.nodup_nil
  | @interrupt j k fresh => exact hset j _ (List.nodup_cons.mpr ⟨fresh, hnodup j⟩)
  | @acquire j x r top free => exact hset j _ (by rw [keys_setTop]; exact hnodup j)
  | @perform j f rest top => exact hset j _ (by rw [keys_setTop]; exact hnodup j)
  | @release j top => exact hset j _ (by rw [keys_setTop]; exact hnodup j)
  | @finish j k hs handlers =>
    have hkeys := hnodup j
    rw [handlers] at hkeys
    exact hset j _ hkeys.of_cons

theorem nodup_of_run (run : (machine ι J).Run es s) (i : ι) :
    ((s.threads i).handlers.map Prod.fst).Nodup := by
  have h : ∀ i, ((s.threads i).handlers.map Prod.fst).Nodup :=
    run.invariant (fun _ => List.nodup_nil) fun _ ih hstep => (Step.of_step hstep).nodup ih
  exact h i

/-- **The calls of one caller get the lock in their order**, and the one that has not got it waits. -/
theorem calledBy_eq (run : (machine ι J).Run es s) (i : ι) (c : Option κ) :
    es.filterMap (callMade J i c) =
      es.filterMap (callGranted i c) ++ ((s.threads i).phaseOf c).waitingCall.toList := by
  refine run.invariant ?_ fun {es s a s' e} hrun ih hstep => ?_
  · cases c with
    | none => rfl
    | some k => rfl
  · have horder := (Step.of_step hstep).order (nodup_of_run hrun) i c
    rw [Machine.filterMap_snoc, Machine.filterMap_snoc, ih, List.append_assoc, horder,
      List.append_assoc]

end Order

end LockedJobs
