/-
  Progress under a lock — when the lock of `LockedJobs` is never given back, and what holds until then.

  1. **Specification** — `Dead s` says that a handler waits for the lock in the thread that holds it:
     the handler waits for the call that it has interrupted.

  2. **The cause (`dead_iff`)** — a state is dead exactly if a handler that needs the lock has
     interrupted the holder inside of it.

  3. **The consequence (`Dead.forever`)** — from a dead state on, nothing happens under the lock.

  4. **Until then (`exists_return`)** — every call that waits can return, and no further call or
     handler is needed for it: the handlers above the holder return (`onward_unwind`), the holder
     does the rest of its job (`onward_serve`), and the lock is free for whoever waits.
-/
import HttpServer.Lib.LockedJobs

namespace LockedJobs

variable {ι σ ρ α ε κ : Type*} [DecidableEq ι] {J : LockedJobs σ ρ α ε κ}
  {s s' : State ι σ ρ ε κ} {a : Action ι ρ α κ} {e : Event ρ ε κ} {es es' : History ι ρ α ε κ}

/-! ## Dead: the lock that is never given back -/

/-- What has interrupted the call inside the lock. -/
def Thread.above (t : Thread ρ ε κ) : List (Phase ρ ε) :=
  t.phases.takeWhile fun p => !p.isInside

/-- `Dead s` — a handler waits for the lock in the thread that holds it. -/
def Dead (s : State ι σ ρ ε κ) : Prop :=
  ∃ i, s.holder = some i ∧ ∃ p ∈ (s.threads i).above, p.isWaiting = true

/-- A handler that needs the lock interrupts its holder. -/
def blocksHolder (J : LockedJobs σ ρ α ε κ) : Action ι ρ α κ × Event ρ ε κ → Bool
  | (.interrupt _ k, .interrupted held) => held && J.needsLock (J.handlerCall k)
  | _ => false

/-- What happens under the lock. -/
def Event.isLocked : Event ρ ε κ → Bool
  | .acquired _ _ => true
  | .performed _ => true
  | .released => true
  | _ => false

/-- A call that runs is interrupted by nothing. -/
theorem above_of_top {t : Thread ρ ε κ} {rest : List ε} (h : t.top = .inside rest) :
    t.above = [] := by
  unfold Thread.above
  rw [Thread.phases_eq, h]
  rfl

/-- What runs first, when it is not inside. -/
theorem above_cons {t : Thread ρ ε κ} {p : Phase ρ ε} {ps : List (Phase ρ ε)}
    (h : t.phases = p :: ps) (hp : p.isInside = false) :
    t.above = p :: ps.takeWhile fun p => !p.isInside := by
  unfold Thread.above
  rw [h, List.takeWhile_cons_of_pos (by simp [hp])]

/-- The thread that runs inside the lock is not dead. -/
theorem not_dead_of_top {i : ι} {rest : List ε} (hinv : Inv s)
    (htop : (s.threads i).top = .inside rest) : ¬ Dead s := by
  rintro ⟨j, hholder, p, hp, -⟩
  have hsame : i = j := Option.some.inj ((hinv.of_top htop).1.symm.trans hholder)
  subst hsame
  rw [above_of_top htop] at hp
  cases hp

/-- A step of another thread than the holder, as the holder sees it. -/
theorem Dead.setThread {j : ι} {t : Thread ρ ε κ} (h : Dead s)
    (ht : s.holder = some j → ∀ p ∈ (s.threads j).above, p.isWaiting = true → p ∈ t.above) :
    Dead (s.setThread j t) := by
  obtain ⟨i, hholder, p, hp, hwaiting⟩ := h
  refine ⟨i, hholder, p, ?_, hwaiting⟩
  by_cases hij : i = j
  · subst hij
    rw [setThread_self]
    exact ht hholder p hp hwaiting
  · rw [setThread_ne s hij]
    exact hp

theorem Dead.of_setThread {j : ι} {t : Thread ρ ε κ} (h : Dead (s.setThread j t))
    (ht : s.holder = some j → ∀ p ∈ t.above, p.isWaiting = true → p ∈ (s.threads j).above) :
    Dead s := by
  obtain ⟨i, hholder, p, hp, hwaiting⟩ := h
  refine ⟨i, hholder, p, ?_, hwaiting⟩
  by_cases hij : i = j
  · subst hij
    rw [setThread_self] at hp
    exact ht hholder p hp hwaiting
  · rwa [setThread_ne s hij] at hp

/-- **One step from a dead state**: nothing happens under the lock, and the state stays dead. -/
theorem Step.dead (h : J.Step s a s' e) (hinv : Inv s) (hdead : Dead s) :
    Dead s' ∧ s'.shared = s.shared ∧ e.isLocked = false := by
  cases h with
  | @call j r free =>
    refine ⟨hdead.setThread fun hholder => ?_, rfl, rfl⟩
    -- a thread outside of every call is not the holder
    have hcount := hinv j
    rw [if_pos hholder, free] at hcount
    exact absurd hcount (by simp [Thread.phases, Phase.isInside])
  | @interrupt j k fresh =>
    refine ⟨hdead.setThread fun _ p hp _ => ?_, rfl, rfl⟩
    rw [above_cons rfl (start_isInside J _)]
    exact List.mem_cons_of_mem _ hp
  | @acquire j x r top free =>
    obtain ⟨i, hholder, -⟩ := hdead
    rw [free] at hholder
    cases hholder
  | @perform j f rest top => exact absurd hdead (not_dead_of_top hinv top)
  | @release j top => exact absurd hdead (not_dead_of_top hinv top)
  | @finish j k hs handlers =>
    refine ⟨hdead.setThread fun _ p hp hwaiting => ?_, rfl, rfl⟩
    -- the handler that returns was not waiting
    have hphases : (s.threads j).phases = .away :: (hs.map Prod.snd ++ [(s.threads j).own]) := by
      unfold Thread.phases
      rw [handlers]
      rfl
    rw [above_cons hphases rfl] at hp
    rcases List.mem_cons.mp hp with heq | hp
    · rw [heq] at hwaiting
      cases hwaiting
    · exact hp

theorem top_setTop (t : Thread ρ ε κ) (p : Phase ρ ε) : (t.setTop p).top = p := by
  obtain ⟨own, handlers⟩ := t
  cases handlers with
  | nil => rfl
  | cons h hs => rfl

theorem start_isWaiting (r : ρ) : (J.start r).isWaiting = J.needsLock r := by
  unfold start
  split
  · rename_i h
    exact h.symm
  · rename_i h
    exact (Bool.eq_false_iff.mpr h).symm

theorem setTop_top (t : Thread ρ ε κ) : t.setTop t.top = t := by
  obtain ⟨own, handlers⟩ := t
  cases handlers with
  | nil => rfl
  | cons h hs => rfl

theorem setTop_setTop (t : Thread ρ ε κ) (p q : Phase ρ ε) :
    (t.setTop p).setTop q = t.setTop q := by
  obtain ⟨own, handlers⟩ := t
  cases handlers with
  | nil => rfl
  | cons h hs => rfl

/-- **The step that makes a state dead** is the handler that interrupts the holder. -/
theorem Step.dead_iff (h : J.Step s a s' e) (hinv : Inv s) :
    Dead s' ↔ Dead s ∨ J.blocksHolder (a, e) = true := by
  constructor
  · intro hdead
    have hinv' := hinv.step h
    cases h with
    | @call j r free =>
      refine Or.inl (hdead.of_setThread fun hholder => ?_)
      have hcount := hinv j
      rw [if_pos hholder, free] at hcount
      exact absurd hcount (by simp [Thread.phases, Phase.isInside])
    | @interrupt j k fresh =>
      show Dead s ∨ (decide (s.holder = some j) && J.needsLock (J.handlerCall k)) = true
      by_cases hblocks : s.holder = some j ∧ J.needsLock (J.handlerCall k) = true
      · rw [decide_eq_true hblocks.1, hblocks.2]
        exact Or.inr rfl
      · refine Or.inl (hdead.of_setThread fun hholder p hp hwaiting => ?_)
        rw [above_cons rfl (start_isInside J _)] at hp
        rcases List.mem_cons.mp hp with heq | hp
        · rw [heq, start_isWaiting] at hwaiting
          exact absurd ⟨hholder, hwaiting⟩ hblocks
        · exact hp
    | @acquire j x r top free =>
      have htop : ((s.setThread j ((s.threads j).setTop (.inside (J.job r x)))).threads j).top =
          .inside (J.job r x) := by
        rw [setThread_self, top_setTop]
      exact absurd hdead (not_dead_of_top hinv' htop)
    | @perform j f rest top =>
      have htop : ((s.setThread j ((s.threads j).setTop (.inside rest))).threads j).top =
          .inside rest := by
        rw [setThread_self, top_setTop]
      exact absurd hdead (not_dead_of_top hinv' htop)
    | @release j top =>
      obtain ⟨i, hholder, -⟩ := hdead
      cases hholder
    | @finish j k hs handlers =>
      refine Or.inl (hdead.of_setThread fun _ p hp _ => ?_)
      have hphases : (s.threads j).phases = .away :: (hs.map Prod.snd ++ [(s.threads j).own]) := by
        unfold Thread.phases
        rw [handlers]
        rfl
      rw [above_cons hphases rfl]
      exact List.mem_cons_of_mem _ hp
  · rintro (hdead | hblocks)
    · exact (h.dead hinv hdead).1
    · cases h with
      | @interrupt j k fresh =>
        have hboth : s.holder = some j ∧ J.needsLock (J.handlerCall k) = true := by
          simpa [blocksHolder] using hblocks
        refine ⟨j, hboth.1, J.start (J.handlerCall k), ?_, ?_⟩
        · rw [setThread_self, above_cons rfl (start_isInside J _)]
          exact List.mem_cons_self
        · rw [start_isWaiting, hboth.2]
      | call | acquire | perform | release | finish => cases hblocks

/-- **Dead, exactly if a handler that needs the lock has interrupted its holder.** -/
theorem dead_iff [DecidableEq κ] (run : (machine ι J).Run es s) :
    Dead s ↔ ∃ e ∈ es, J.blocksHolder e = true := by
  refine run.invariant ?_ fun {es s a s' e} hrun ih hstep => ?_
  · constructor
    · rintro ⟨i, hholder, -⟩
      cases hholder
    · rintro ⟨e, he, -⟩
      cases he
  · rw [(Step.of_step hstep).dead_iff (inv_of_run hrun), ih]
    constructor
    · rintro (⟨f, hf, hblocks⟩ | hblocks)
      · exact ⟨f, List.mem_append_left _ hf, hblocks⟩
      · exact ⟨(a, e), List.mem_append_right _ (List.mem_singleton_self _), hblocks⟩
    · rintro ⟨f, hf, hblocks⟩
      rcases List.mem_append.mp hf with hf | hf
      · exact Or.inl ⟨f, hf, hblocks⟩
      · rw [List.mem_singleton.mp hf] at hblocks
        exact Or.inr hblocks

/-- **From a dead state on, nothing happens under the lock.** -/
theorem Dead.forever [DecidableEq κ] (run : (machine ι J).Run es s)
    (later : (machine ι J).Run (es ++ es') s') (hdead : Dead s) :
    Dead s' ∧ s'.shared = s.shared ∧ ∀ e ∈ es', e.2.isLocked = false := by
  induction es' using List.reverseRecOn generalizing s' with
  | nil =>
    rw [List.append_nil] at later
    rw [← run.unique later]
    exact ⟨hdead, rfl, fun e he => absurd he List.not_mem_nil⟩
  | append_singleton es' e ih =>
    rw [← List.append_assoc] at later
    obtain ⟨t, hlater, hstep⟩ := later.snoc_inv
    obtain ⟨hdead', hshared, hquiet⟩ := ih hlater
    obtain ⟨hdead'', hshared', hlast⟩ := (Step.of_step hstep).dead (inv_of_run hlater) hdead'
    refine ⟨hdead'', hshared'.trans hshared, fun f hf => ?_⟩
    rcases List.mem_append.mp hf with hf | hf
    · exact hquiet f hf
    · rw [List.mem_singleton.mp hf]
      exact hlast

/-- **A call that waits in a dead state waits for ever.** -/
theorem Dead.waits [DecidableEq κ] (run : (machine ι J).Run es s)
    (later : (machine ι J).Run (es ++ es') s') (hdead : Dead s) {i : ι} {c : Option κ} {r : ρ}
    (h : ((s.threads i).phaseOf c).waitingCall = some r) :
    ((s'.threads i).phaseOf c).waitingCall = some r := by
  induction es' using List.reverseRecOn generalizing s' with
  | nil =>
    rw [List.append_nil] at later
    rwa [← run.unique later]
  | append_singleton es' f ih =>
    obtain ⟨b, g⟩ := f
    rw [← List.append_assoc] at later
    obtain ⟨t, hlater, hstep⟩ := later.snoc_inv
    have horder := (Step.of_step hstep).order (nodup_of_run hlater) i c
    have hquiet := ((Step.of_step hstep).dead (inv_of_run hlater)
      (Dead.forever run hlater hdead).1).2.2
    have hgranted : callGranted i c (b, g) = none := by
      cases Step.of_step hstep with
      | acquire => cases hquiet
      | call | interrupt | perform | release | finish => rfl
    rw [hgranted, ih hlater] at horder
    -- one call waits before the step, so one waits behind it
    cases hafter : ((s'.threads i).phaseOf c).waitingCall with
    | none =>
      rw [hafter] at horder
      cases horder
    | some q =>
      rw [hafter] at horder
      exact congrArg some (List.cons.inj horder).1.symm

/-- A handler that waits in a dead state never returns. -/
theorem Dead.not_finished [DecidableEq κ] (run : (machine ι J).Run es s)
    (later : (machine ι J).Run (es ++ es') s') (hdead : Dead s) {i : ι} {k : κ} {r : ρ}
    (h : ((s.threads i).phaseOf (some k)).waitingCall = some r) :
    (Action.finish i, Event.finished k) ∉ es' := by
  induction es' using List.reverseRecOn generalizing s' with
  | nil => exact List.not_mem_nil
  | append_singleton es' f ih =>
    rw [← List.append_assoc] at later
    obtain ⟨t, hlater, hstep⟩ := later.snoc_inv
    intro hmem
    rcases List.mem_append.mp hmem with hmem | hmem
    · exact ih hlater hmem
    · obtain rfl := List.mem_singleton.mp hmem
      have hwaits := Dead.waits run hlater hdead h
      have hfinish : J.step t (.finish i) = some (s', .finished k) := hstep
      cases Step.of_step hfinish with
      | finish handlers =>
        have haway : (t.threads i).phaseOf (some k) = .away := by
          show ((t.threads i).handlers.lookup k).getD .away = .away
          rw [handlers, List.lookup_cons, beq_self_eq_true]
          rfl
        rw [haway] at hwaits
        cases hwaits

/-! ## Before that, every call can return -/

variable [DecidableEq κ]

/-- No new call and no further handler. -/
def Action.isOnward : Action ι ρ α κ → Bool
  | .call _ _ => false
  | .interrupt _ _ => false
  | _ => true

/-- `J.Onward s s'` — the calls and handlers under way can lead from `s` to `s'` by themselves. -/
def Onward (J : LockedJobs σ ρ α ε κ) (s s' : State ι σ ρ ε κ) : Prop :=
  ∃ (as : List (Action ι ρ α κ)) (es : History ι ρ α ε κ),
    (∀ a ∈ as, a.isOnward = true) ∧ (machine ι J).exec s as = some (es, s')

theorem Onward.refl (s : State ι σ ρ ε κ) : J.Onward s s :=
  ⟨[], [], fun _ ha => absurd ha List.not_mem_nil, rfl⟩

theorem Onward.trans {s₁ s₂ s₃ : State ι σ ρ ε κ} (h : J.Onward s₁ s₂) (h' : J.Onward s₂ s₃) :
    J.Onward s₁ s₃ := by
  obtain ⟨as, es, honward, hexec⟩ := h
  obtain ⟨as', es', honward', hexec'⟩ := h'
  refine ⟨as ++ as', es ++ es', fun a ha => ?_, Machine.exec_append hexec hexec'⟩
  rcases List.mem_append.mp ha with ha | ha
  · exact honward a ha
  · exact honward' a ha

theorem Onward.of_step (h : J.step s a = some (s', e)) (honward : a.isOnward = true) :
    J.Onward s s' := by
  refine ⟨[a], [(a, e)], fun b hb => ?_, ?_⟩
  · rw [List.mem_singleton.mp hb]
    exact honward
  · have hstep : (machine ι J).step s a = some (s', e) := h
    rw [Machine.exec, hstep]
    rfl

/-- A run that goes on so. -/
theorem Onward.run (h : J.Onward s s') (run : (machine ι J).Run es s) :
    ∃ es' : History ι ρ α ε κ, (machine ι J).Run (es ++ es') s' ∧
      ∀ e ∈ es', e.1.isOnward = true := by
  obtain ⟨as, es', honward, hexec⟩ := h
  refine ⟨es', run.exec hexec, fun e he => honward e.1 ?_⟩
  rw [← Machine.exec_inputs hexec]
  exact List.mem_map_of_mem he

/-- **The call inside the lock can do its job and give the lock back.** -/
theorem onward_serve {i : ι} {rest : List ε} (htop : (s.threads i).top = .inside rest) :
    ∃ s', J.Onward s s' ∧ s'.threads i = (s.threads i).setTop .away ∧ s'.holder = none ∧
      s'.shared = rest.foldl J.apply s.shared ∧ ∀ j, j ≠ i → s'.threads j = s.threads j := by
  induction rest generalizing s with
  | nil =>
    refine ⟨{ s.setThread i ((s.threads i).setTop .away) with holder := none },
      .of_step (a := .release i) (e := .released) ?_ rfl, setThread_self _ _ _, rfl, rfl,
      fun j hj => setThread_ne s hj _⟩
    simp only [step, htop]
  | cons f rest ih =>
    have hstep : J.step s (.perform i) =
        some ({ s.setThread i ((s.threads i).setTop (.inside rest)) with
          shared := J.apply s.shared f }, .performed f) := by
      simp only [step, htop]
    have hself : (s.setThread i ((s.threads i).setTop (.inside rest))).threads i =
        (s.threads i).setTop (.inside rest) := setThread_self _ _ _
    obtain ⟨s', honward, hthread, hfree, hshared, hother⟩ :=
      ih (s := { s.setThread i ((s.threads i).setTop (.inside rest)) with
        shared := J.apply s.shared f }) (by rw [hself, top_setTop])
    refine ⟨s', (Onward.of_step hstep rfl).trans honward, ?_, hfree, hshared, fun j hj => ?_⟩
    · rw [hthread, hself, setTop_setTop]
    · rw [hother j hj]
      exact setThread_ne s hj _

omit [DecidableEq κ] in
/-- If the holder is not dead, it runs inside the lock, or a handler is about to return. -/
theorem top_of_holder {i : ι} (hinv : Inv s) (hdead : ¬ Dead s) (hholder : s.holder = some i) :
    (s.threads i).top = .inside (pending s) ∨
      ∃ k hs, (s.threads i).handlers = (k, .away) :: hs := by
  cases htop : (s.threads i).top with
  | inside rest =>
    refine Or.inl ?_
    rw [pending_of_holder hholder, Thread.phases_eq, htop, List.flatMap_cons,
      flatMap_rest (hinv.of_top htop).2, List.append_nil]
    rfl
  | waiting r =>
    refine absurd ⟨i, hholder, .waiting r, ?_, rfl⟩ hdead
    rw [above_cons (Thread.phases_eq _) (by rw [htop]; rfl), htop]
    exact List.mem_cons_self
  | away =>
    refine Or.inr ?_
    have hcount := hinv i
    rw [if_pos hholder] at hcount
    generalize s.threads i = t at htop hcount
    obtain ⟨own, handlers⟩ := t
    cases handlers with
    | nil =>
      have hown : own = .away := htop
      rw [hown] at hcount
      exact absurd hcount (by simp [Thread.phases, Phase.isInside])
    | cons h hs =>
      have hphase : h.2 = .away := htop
      exact ⟨h.1, hs, by rw [← hphase]⟩

/-- **The handlers that have interrupted the holder can return**, if none of them waits. -/
theorem onward_unwind {i : ι} (hinv : Inv s) (hdead : ¬ Dead s) (hholder : s.holder = some i) :
    ∃ s', J.Onward s s' ∧ (s'.threads i).top = .inside (pending s) ∧ s'.shared = s.shared ∧
      ∀ j, j ≠ i → s'.threads j = s.threads j := by
  generalize hn : (s.threads i).handlers.length = n
  induction n generalizing s with
  | zero =>
    rcases top_of_holder hinv hdead hholder with htop | ⟨k, hs, hhandlers⟩
    · exact ⟨s, .refl s, htop, rfl, fun j _ => rfl⟩
    · rw [hhandlers, List.length_cons] at hn
      omega
  | succ n ih =>
    rcases top_of_holder hinv hdead hholder with htop | ⟨k, hs, hhandlers⟩
    · exact ⟨s, .refl s, htop, rfl, fun j _ => rfl⟩
    · have hstep : J.step s (.finish i) =
          some (s.setThread i { s.threads i with handlers := hs }, .finished k) := by
        simp only [step, hhandlers]
      have hpending : pending (s.setThread i { s.threads i with handlers := hs }) = pending s := by
        refine pending_setThread ?_
        unfold Thread.phases
        rw [hhandlers]
        rfl
      have hquiet : ¬ Dead (s.setThread i { s.threads i with handlers := hs }) := by
        rw [(Step.of_step hstep).dead_iff hinv]
        rintro (hd | hb)
        · exact hdead hd
        · cases hb
      have hlength : ((s.setThread i { s.threads i with handlers := hs }).threads i).handlers.length
          = n := by
        rw [setThread_self]
        rw [hhandlers, List.length_cons] at hn
        show hs.length = n
        omega
      obtain ⟨s', honward, htop, hshared, hother⟩ :=
        ih (hinv.step (.of_step hstep)) hquiet hholder hlength
      refine ⟨s', (Onward.of_step hstep rfl).trans honward, ?_, hshared, fun j hj => ?_⟩
      · rw [htop, hpending]
      · rw [hother j hj, setThread_ne s hj]

/-- **The lock can be given back**, and then the job inside it is done. -/
theorem onward_free (hinv : Inv s) (hdead : ¬ Dead s) :
    ∃ s', J.Onward s s' ∧ s'.holder = none ∧ s'.shared = (pending s).foldl J.apply s.shared ∧
      ∀ j, s.holder ≠ some j → s'.threads j = s.threads j := by
  cases hholder : s.holder with
  | none =>
    refine ⟨s, .refl s, hholder, ?_, fun j _ => rfl⟩
    rw [pending_of_free hholder]
    rfl
  | some i =>
    obtain ⟨s₁, honward, htop, hshared, hother⟩ := onward_unwind (J := J) hinv hdead hholder
    obtain ⟨s₂, honward', -, hfree, hshared', hother'⟩ := onward_serve (J := J) htop
    refine ⟨s₂, honward.trans honward', hfree, ?_, fun j hj => ?_⟩
    · rw [hshared', hshared]
    · have hji : j ≠ i := fun heq => hj (congrArg some heq.symm)
      rw [hother' j hji, hother j hji]

/-- **Every call that waits can return**, with its job done behind the one inside the lock. -/
theorem exists_return (run : (machine ι J).Run es s) (hdead : ¬ Dead s) {i : ι} {r : ρ}
    (htop : (s.threads i).top = .waiting r) (x : α) :
    ∃ s', J.Onward s s' ∧ s'.threads i = (s.threads i).setTop .away ∧ s'.holder = none ∧
      s'.shared = (pending s ++ J.job r x).foldl J.apply s.shared := by
  have hinv := inv_of_run run
  have hother : s.holder ≠ some i := by
    intro hholder
    refine hdead ⟨i, hholder, .waiting r, ?_, rfl⟩
    rw [above_cons (Thread.phases_eq _) (by rw [htop]; rfl), htop]
    exact List.mem_cons_self
  obtain ⟨s₁, honward, hfree, hshared, hthreads⟩ := onward_free (J := J) hinv hdead
  have htop₁ : (s₁.threads i).top = .waiting r := by rw [hthreads i hother, htop]
  have hstep : J.step s₁ (.acquire i x) =
      some ({ s₁.setThread i ((s₁.threads i).setTop (.inside (J.job r x))) with holder := some i },
        .acquired (s₁.threads i).current r) := by
    simp only [step, htop₁, hfree]
    rfl
  have hself : (s₁.setThread i ((s₁.threads i).setTop (.inside (J.job r x)))).threads i =
      (s₁.threads i).setTop (.inside (J.job r x)) := setThread_self _ _ _
  have hinside : ((s₁.setThread i ((s₁.threads i).setTop (.inside (J.job r x)))).threads i).top =
      .inside (J.job r x) := by rw [hself, top_setTop]
  obtain ⟨s₂, honward', hthread, hfree', hshared', -⟩ :=
    onward_serve (J := J) (i := i) (s := { s₁.setThread i ((s₁.threads i).setTop
      (.inside (J.job r x))) with holder := some i }) hinside
  refine ⟨s₂, (honward.trans (.of_step hstep rfl)).trans honward', ?_, hfree', ?_⟩
  · rw [hthread, hself, setTop_setTop, hthreads i hother]
  · rw [hshared', List.foldl_append, ← hshared]
    rfl

/-- **Every handler can return**, the innermost of its thread. -/
theorem exists_finish [Nonempty α] (run : (machine ι J).Run es s) (hdead : ¬ Dead s) {i : ι} {k : κ}
    (hcurrent : (s.threads i).current = some k) :
    ∃ s₁ s₂, J.Onward s s₁ ∧ J.step s₁ (.finish i) = some (s₂, .finished k) := by
  obtain ⟨x⟩ := ‹Nonempty α›
  have haway : ∀ {s₁ : State ι σ ρ ε κ}, s₁.threads i = (s.threads i).setTop .away →
      ∃ s₂, J.step s₁ (.finish i) = some (s₂, .finished k) := by
    intro s₁ hthread
    generalize s.threads i = t at hcurrent hthread
    obtain ⟨own, handlers⟩ := t
    cases handlers with
    | nil => cases hcurrent
    | cons h hs =>
      have hk : h.1 = k := Option.some.inj hcurrent
      refine ⟨s₁.setThread i { s₁.threads i with handlers := hs }, ?_⟩
      simp only [step, hthread, Thread.setTop, hk]
  cases htop : (s.threads i).top with
  | away =>
    have hsame : s.threads i = (s.threads i).setTop .away := by
      rw [← htop]
      exact (setTop_top _).symm
    obtain ⟨s₂, hstep⟩ := haway hsame
    exact ⟨s, s₂, .refl s, hstep⟩
  | waiting r =>
    obtain ⟨s₁, honward, hthread, -, -⟩ := exists_return run hdead htop x
    obtain ⟨s₂, hstep⟩ := haway hthread
    exact ⟨s₁, s₂, honward, hstep⟩
  | inside rest =>
    obtain ⟨s₁, honward, hthread, -, -, -⟩ := onward_serve (J := J) htop
    obtain ⟨s₂, hstep⟩ := haway hthread
    exact ⟨s₁, s₂, honward, hstep⟩

end LockedJobs
