/-
  Stop requests — does the server stop once a call of `stop()` has returned?

  1. **Specification (`StopKept`)** — in the history of a run, no iteration of the accept loop and no
     accepted connection stands behind the return of a call of `stop()`.

  2. **When it is kept (`SafeStep`)** — a request is lost in three ways.  `start()` sets `running_`
     after a call has cleared it, as it does for every call that comes before the socket listens.  A
     second call returns on finding `running_` cleared while the first, in another thread, has not
     yet closed the socket.  A call in another thread closes the socket while an `accept` is in
     progress on it, and the platform lets that `accept` go on.  The call of a handler on the thread
     of `start()` finds no `accept` in progress (`Suspended`): the signal has ended it.

  3. **The crux (`Stopped`)** — once a call has returned in a run without such steps, `running_`
     stays cleared, the iteration under way cannot reach an open socket when `start()` goes on with
     it, and an `accept` in progress cannot deliver.

  4. **Bridge** — `Run.pairwise_after`: the return of a call leads into `Stopped`, no step leaves it,
     and none in it begins an iteration or accepts (`stop_kept`).
-/
import HttpServer.Listener

namespace HttpServer

/-! ## The specification -/

/-- A call of `stop()` returns. -/
def ListenerEvent.isReturn : ListenerEvent → Bool
  | .stopReturned _ => true
  | _ => false

/-- An iteration of the accept loop begins, or a connection is accepted. -/
def ListenerEvent.isWork : ListenerEvent → Bool
  | .iteration => true
  | .accepted => true
  | _ => false

/-- Nothing is begun or accepted behind the return of a call of `stop()`. -/
def StopKept (es : List (ListenerAction × ListenerEvent)) : Prop :=
  es.Pairwise fun e e' => e.2.isReturn = true → ¬ e'.2.isWork = true

instance (es : List (ListenerAction × ListenerEvent)) : Decidable (StopKept es) :=
  inferInstanceAs (Decidable (es.Pairwise _))

/-! ## The condition on a step -/

/-- Between the condition of the accept loop and the end of `accept`. -/
def StartPc.inIteration : StartPc → Bool
  | .calling => true
  | .entering _ => true
  | .accepting _ _ => true
  | _ => false

/-- In an `accept` on a socket that was open. -/
def StartPc.inAccept : StartPc → Bool
  | .accepting _ wasOpen => wasOpen
  | _ => false

theorem inIteration_of_inAccept {pc : StartPc} (h : pc.inAccept = true) : pc.inIteration = true := by
  cases pc with
  | accepting fd wasOpen => exact rfl
  | _ => cases h

namespace Listener

/-- A step of call `k` of `stop()` at its place. -/
def safeStop (os : Platform) (s : Listener) (k : Nat) : Bool :=
  match s.stops[k]? with
  -- no `accept` is in progress, or it ends with the socket
  | some (.closingFd _) => !(os.keepsAccept && s.start.inAccept)
  -- the loop is not on its way to the socket, or a handler holds it up, or the socket is closed
  | some .returning => !s.start.inIteration || s.handlers.erase k ≠ [] || s.live = []
  | _ => true

/-- The condition on a step.  A step of `start()` is the store of `running_` only before every call
    of `stop()` has exchanged it. -/
def safeStep (os : Platform) (s : Listener) : ListenerAction → Bool
  | .main _ => s.start ≠ .storing || s.stops.all (· = .entered)
  | .callStop => true
  | .signal => true
  | .stop k => s.safeStop os k

/-- `SafeStep os s a` — the step loses no stop request. -/
def SafeStep (os : Platform) (s : Listener) (a : ListenerAction) : Prop := s.safeStep os a = true

instance (os : Platform) (s : Listener) (a : ListenerAction) : Decidable (SafeStep os s a) :=
  inferInstanceAs (Decidable (_ = true))

/-! ## What steps leave alone -/

section Frame

variable {os : Platform} {s s' : Listener} {a : ListenerAction} {e : ListenerEvent}

/-- Some call of `stop()` is past its `exchange`. -/
def Exchanged (s : Listener) : Prop := ∃ pc ∈ s.stops, pc ≠ .entered

theorem exchanged_setStop {k : Nat} {pc pc' : StopPc} (h : s.stops[k]? = some pc)
    (hne : pc' ≠ .entered) : (s.setStop k pc').Exchanged := by
  obtain ⟨hk, -⟩ := List.getElem?_eq_some_iff.mp h
  exact ⟨pc', List.mem_set hk pc', hne⟩

/-- A call that is made has not exchanged. -/
theorem exchanged_of_append {s' : Listener} (h : s'.Exchanged)
    (hstops : s'.stops = s.stops ++ [.entered]) : s.Exchanged := by
  obtain ⟨pc, hpc, hne⟩ := h
  rw [hstops] at hpc
  rcases List.mem_append.mp hpc with hpc | hpc
  · exact ⟨pc, hpc, hne⟩
  · exact absurd (List.mem_singleton.mp hpc) hne

theorem exchanged_of_getElem? {k : Nat} {pc : StopPc} (h : s.stops[k]? = some pc)
    (hne : pc ≠ .entered) : s.Exchanged := ⟨pc, List.mem_of_getElem? h, hne⟩

/-- A call that has exchanged has done so for good. -/
theorem Step.exchanged (h : Step os s a s' e) (hs : s.Exchanged) : s'.Exchanged := by
  cases h with
  | callStop =>
    obtain ⟨pc, hpc, hne⟩ := hs
    exact ⟨pc, List.mem_append_left _ hpc, hne⟩
  | signal =>
    obtain ⟨pc, hpc, hne⟩ := hs
    exact ⟨pc, List.mem_append_left _ hpc, hne⟩
  | exchange pc => exact exchanged_setStop (s := { s with running := false }) pc (by split <;> decide)
  | stopTests pc => exact exchanged_setStop pc (by split <;> decide)
  | stopReads pc => exact exchanged_setStop pc (by simp)
  | stopCloses pc => exact exchanged_setStop (s := s.closeSocket _) pc (by decide)
  | stopResets pc => exact exchanged_setStop (s := { s with listenFd := none }) pc (by decide)
  | stopReturns pc => exact exchanged_setStop (s := { s with handlers := _ }) pc (by decide)
  | _ => exact hs

/-- A handler that leaves the thread of `start()` in an iteration has not moved it. -/
theorem interrupted_of_inIteration {pc : StartPc} (h : pc.interrupted.inIteration = true) :
    pc.interrupted = pc := by
  cases pc with
  | accepting fd wasOpen => cases h
  | _ => rfl

theorem inAccept_interrupted (pc : StartPc) : pc.interrupted.inAccept = false := by
  cases pc <;> rfl

/-- **How the thread of `start()` gets into `accept`**: from the condition of the loop, over the read
    of `listen_fd_`; every other step leaves it where it is, or elsewhere. -/
theorem Step.start_cases (h : Step os s a s' e) (hs' : s'.start.inIteration = true) :
    s'.start = s.start ∨ (s.start = .top ∧ s.running = true ∧ s'.start = .calling) ∨
      (s.start = .calling ∧ s'.start = .entering s.listenFd) ∨
      ∃ ok fd, a = .main ok ∧ s.start = .entering fd ∧ s'.start = .accepting fd (s.isOpen fd) ∧
        s'.live = s.live := by
  cases h with
  | iterate start running => exact Or.inr (Or.inl ⟨start, running, rfl⟩)
  | readFd start => exact Or.inr (Or.inr (Or.inl ⟨start, rfl⟩))
  | callAccept start => exact Or.inr (Or.inr (Or.inr ⟨_, _, rfl, start, rfl, rfl⟩))
  | callStop => exact Or.inl rfl
  | signal => exact Or.inl (interrupted_of_inIteration hs')
  | exchange => exact Or.inl rfl
  | stopTests => exact Or.inl rfl
  | stopReads => exact Or.inl rfl
  | stopCloses => exact Or.inl rfl
  | stopResets => exact Or.inl rfl
  | stopReturns => exact Or.inl rfl
  | setUp start call =>
    simp only [setUpCalls, List.mem_cons, Prod.mk.injEq, List.not_mem_nil, or_false] at call
    rcases call with ⟨-, rfl⟩ | ⟨-, rfl⟩ | ⟨-, rfl⟩ <;>
      split at hs' <;> cases hs'
  | checkSocket => split at hs' <;> cases hs'
  | buildPool => split at hs' <;> cases hs'
  | recheck => split at hs' <;> cases hs'
  | test => split at hs' <;> cases hs'
  | _ => cases hs'

/-- The loop gets on its way to an `accept` at its condition only. -/
theorem Step.inIteration (h : Step os s a s' e) (hs' : s'.start.inIteration = true) :
    s.start.inIteration = true ∨ s.start = .top ∧ s.running = true := by
  rcases h.start_cases hs' with
    hsame | ⟨htop, hrunning, -⟩ | ⟨hcalling, -⟩ | ⟨ok, fd, -, hentering, -, -⟩
  · exact Or.inl (hsame ▸ hs')
  · exact Or.inr ⟨htop, hrunning⟩
  · exact Or.inl (by rw [hcalling]; rfl)
  · exact Or.inl (by rw [hentering]; rfl)

/-- An `accept` on an open socket starts on an open socket. -/
theorem Step.inAccept (h : Step os s a s' e) (hs' : s'.start.inAccept = true) :
    s'.start = s.start ∨ ∃ ok fd, a = .main ok ∧ s.start = .entering fd ∧
      s'.start = .accepting fd true ∧ s.isOpen fd = true ∧ s'.live = s.live := by
  rcases h.start_cases (inIteration_of_inAccept hs') with
    hsame | ⟨-, -, hcalling⟩ | ⟨-, hentering⟩ | ⟨ok, fd, hmain, hentering, haccepting, hlive⟩
  · exact Or.inl hsame
  · rw [hcalling] at hs'
    cases hs'
  · rw [hentering] at hs'
    cases hs'
  · have hopen : s.isOpen fd = true := by
      rw [haccepting] at hs'
      exact hs'
    exact Or.inr ⟨ok, fd, hmain, hentering, by rw [haccepting, hopen], hopen, hlive⟩

/-- While an iteration is under way only a call of `stop()` closes a socket. -/
theorem Step.live (h : Step os s a s' e) (hs : s.start.inIteration = true) :
    s'.live = s.live ∨ ∃ k fd, a = .stop k ∧ s.stops[k]? = some (.closingFd fd) ∧
      s'.live = (s.closeSocket fd).live := by
  cases h with
  | socket start =>
    rw [start] at hs
    cases hs
  | close start =>
    rw [start] at hs
    cases hs
  | stopCloses pc => exact Or.inr ⟨_, _, rfl, pc, rfl⟩
  | _ => exact Or.inl rfl

/-- No socket is opened while an iteration is under way. -/
theorem Step.live_eq_nil (h : Step os s a s' e) (hs : s.start.inIteration = true)
    (hnil : s.live = []) : s'.live = [] := by
  rcases h.live hs with hsame | ⟨k, fd, -, -, hclose⟩
  · exact hsame.trans hnil
  · rw [hclose, closeSocket, hnil]
    rfl

/-- The handlers on the thread of `start()`: a signal puts one more on top, and the return of a call
    takes it away; no other step changes them. -/
theorem Step.handlers_cases (h : Step os s a s' e) :
    s'.handlers = s.handlers ∨ (a = .signal ∧ s'.handlers ≠ []) ∨
      ∃ k, a = .stop k ∧ s.stops[k]? = some .returning ∧ s'.handlers = s.handlers.erase k ∧
        s'.start = s.start ∧ s'.live = s.live := by
  cases h with
  | signal => exact Or.inr (Or.inl ⟨rfl, List.cons_ne_nil _ _⟩)
  | stopReturns pc => exact Or.inr (Or.inr ⟨_, rfl, pc, rfl, rfl, rfl⟩)
  | _ => exact Or.inl rfl

end Frame

/-! ## What holds in a run without unsafe steps -/

section Invariants

variable {os : Platform} {s s' : Listener} {a : ListenerAction} {e : ListenerEvent}

/-- The store comes before every exchange. -/
theorem SafeStep.store {ok : Bool} (h : SafeStep os s (.main ok)) (hstart : s.start = .storing) :
    ¬ s.Exchanged := by
  rintro ⟨pc, hpc, hne⟩
  have hall : s.stops.all (· = .entered) = true := by
    simpa [SafeStep, safeStep, hstart] using h
  exact hne (by simpa using List.all_eq_true.mp hall pc hpc)

/-- **`running_` stays cleared behind the first exchange.** -/
theorem Step.running_of_exchanged (h : Step os s a s' e) (hsafe : SafeStep os s a)
    (hs : s.Exchanged → s.running = false) : s'.Exchanged → s'.running = false := by
  cases h with
  | store start =>
    intro hs'
    exact absurd hs' (hsafe.store start)
  | callStop => exact fun hs' => hs (exchanged_of_append hs' rfl)
  | signal => exact fun hs' => hs (exchanged_of_append hs' rfl)
  | exchange => exact fun _ => rfl
  | stopTests pc => exact fun _ => hs (exchanged_of_getElem? pc (by decide))
  | stopReads pc => exact fun _ => hs (exchanged_of_getElem? pc (by decide))
  | stopCloses pc => exact fun _ => hs (exchanged_of_getElem? pc (by simp))
  | stopResets pc => exact fun _ => hs (exchanged_of_getElem? pc (by decide))
  | stopReturns pc => exact fun _ => hs (exchanged_of_getElem? pc (by decide))
  | _ => exact hs

/-- An `accept` in progress is on an open socket, or ends. -/
def AcceptEnds (os : Platform) (s : Listener) : Prop :=
  ∀ fd, s.start = .accepting fd true → s.isOpen fd = true ∨ os.keepsAccept = false

/-- **No call closes the socket under an `accept` that goes on.** -/
theorem Step.acceptEnds (h : Step os s a s' e) (hsafe : SafeStep os s a)
    (hs : AcceptEnds os s) : AcceptEnds os s' := by
  intro fd hstart'
  have hin : s'.start.inAccept = true := by rw [hstart']; rfl
  have hisOpen : s'.live = s.live → s.isOpen fd = true → s'.isOpen fd = true := by
    intro hlive hopen
    rw [isOpen, hlive]
    exact hopen
  rcases h.inAccept hin with hsame | ⟨ok, fd', -, -, haccepting, hopen, hlive⟩
  · have hstart : s.start = .accepting fd true := hsame.symm.trans hstart'
    rcases h.live (by rw [hstart]; rfl) with hlive | ⟨k, fd', rfl, hpc, -⟩
    · rcases hs fd hstart with hopen | hends
      · exact Or.inl (hisOpen hlive hopen)
      · exact Or.inr hends
    · -- the condition on a `close`
      right
      simpa [SafeStep, safeStep, hpc, safeStop, hstart, StartPc.inAccept] using hsafe
  · cases hstart'.symm.trans haccepting
    exact Or.inl (hisOpen hlive hopen)

/-- A handler on the thread of `start()` leaves no `accept` in progress. -/
def Suspended (s : Listener) : Prop := s.handlers ≠ [] → s.start.inAccept = false

/-- **A signal ends the `accept`**, and while its handler runs no other begins. -/
theorem Step.suspended (h : Step os s a s' e) (htop : s.isOnTop a = true) (hs : s.Suspended) :
    s'.Suspended := by
  rcases h.handlers_cases with hsame | ⟨rfl, -⟩ | ⟨k, rfl, -, herase, hstart, -⟩
  · intro hne
    cases hin : s'.start.inAccept with
    | false => rfl
    | true =>
      rcases h.inAccept hin with hstart | ⟨ok, fd, rfl, -⟩
      · rw [← hin, hstart]
        exact hs (hsame ▸ hne)
      · exact absurd (hsame.trans (handlers_of_isOnTop htop)) hne
  · intro _
    cases h
    exact inAccept_interrupted s.start
  · intro hne
    rw [hstart]
    refine hs fun hnil => hne ?_
    rw [herase, hnil]
    rfl

end Invariants

/-- Once a call of `stop()` has returned: `running_` is cleared for good, an iteration that is under
    way finds no open socket when `start()` goes on with it, and an `accept` in progress does not go
    on. -/
structure Stopped (os : Platform) (s : Listener) : Prop where
  exchanged : s.Exchanged
  cleared : s.running = false
  no_socket : s.start.inIteration = true → s.handlers = [] → s.live = []
  ends : s.start.inAccept = true → os.keepsAccept = false

section Stopped

variable {os : Platform} {s s' : Listener} {a : ListenerAction} {e : ListenerEvent}

theorem isOpen_of_live_eq_nil (h : s.live = []) (fd : Option Nat) : s.isOpen fd = false := by
  rw [isOpen, h]
  cases fd <;> rfl

/-- **The return of a call leads there.** -/
theorem Step.stopped_of_return (h : Step os s a s' e) (he : e.isReturn = true)
    (hsafe : SafeStep os s a) (hcleared : s.Exchanged → s.running = false)
    (hends : AcceptEnds os s) (hsuspended : s.Suspended) : Stopped os s' := by
  cases h with
  | @stopReturns k pc =>
    have hsocket : s.start.inIteration = true → s.handlers.erase k = [] → s.live = [] := by
      intro hin hnil
      simpa [SafeStep, safeStep, pc, safeStop, hin, hnil] using hsafe
    refine ⟨exchanged_setStop (s := { s with handlers := _ }) pc (by decide),
      hcleared (exchanged_of_getElem? pc (by decide)), hsocket, fun hin => ?_⟩
    replace hin : s.start.inAccept = true := hin
    have hnil : s.handlers = [] := by
      by_contra hne
      rw [hsuspended hne] at hin
      cases hin
    cases hstart : s.start with
    | accepting fd wasOpen =>
      rw [hstart] at hin
      have hwas : wasOpen = true := hin
      rw [hwas] at hstart
      rcases hends fd hstart with hopen | hends
      · have hlive : s.live = [] := hsocket (by rw [hstart]; rfl) (by rw [hnil]; rfl)
        rw [isOpen_of_live_eq_nil hlive fd] at hopen
        cases hopen
      · exact hends
    | _ =>
      rw [hstart] at hin
      cases hin
  | _ => cases he

/-- **No step leads out of it.** -/
theorem Step.stopped (h : Step os s a s' e) (htop : s.isOnTop a = true) (hsafe : SafeStep os s a)
    (hs : Stopped os s) : Stopped os s' where
  exchanged := h.exchanged hs.exchanged
  cleared := h.running_of_exchanged hsafe (fun _ => hs.cleared) (h.exchanged hs.exchanged)
  no_socket hin hnil := by
    rcases h.inIteration hin with hin | ⟨-, hrunning⟩
    · rcases h.handlers_cases with hsame | ⟨-, hne⟩ | ⟨k, rfl, hpc, herase, -, hlive⟩
      · exact h.live_eq_nil hin (hs.no_socket hin (hsame ▸ hnil))
      · exact absurd hnil hne
      · -- the condition on a return
        rw [hlive]
        rw [herase] at hnil
        simpa [SafeStep, safeStep, hpc, safeStop, hin, hnil] using hsafe
    · rw [hs.cleared] at hrunning
      cases hrunning
  ends hin := by
    rcases h.inAccept hin with hsame | ⟨ok, fd, rfl, hentering, -, hopen, -⟩
    · exact hs.ends (hsame ▸ hin)
    · have hlive := hs.no_socket (by rw [hentering]; rfl) (handlers_of_isOnTop htop)
      rw [isOpen_of_live_eq_nil hlive fd] at hopen
      cases hopen

/-- **No step in it begins an iteration or accepts.** -/
theorem Step.not_isWork_of_stopped (h : Step os s a s' e) (htop : s.isOnTop a = true)
    (hs : Stopped os s) : ¬ e.isWork = true := by
  intro he
  cases h with
  | iterate start running =>
    rw [hs.cleared] at running
    cases running
  | accept start deliver =>
    rename_i fd wasOpen
    simp only [canDeliver, Bool.and_eq_true, Bool.or_eq_true] at deliver
    obtain ⟨hwas, hopen | hkeeps⟩ := deliver
    · have hlive := hs.no_socket (by rw [start]; rfl) (handlers_of_isOnTop htop)
      rw [isOpen_of_live_eq_nil hlive fd] at hopen
      cases hopen
    · rw [hs.ends (by rw [start]; exact hwas)] at hkeeps
      cases hkeeps
  | _ => cases he

end Stopped

/-- The runs all of whose steps are safe. -/
abbrev safeListener (os : Platform) : Machine Listener ListenerAction ListenerEvent :=
  (listenerMachine os).restrict (SafeStep os)

/-- A step of such a run. -/
theorem step_safe {os : Platform} {s s' : Listener} {a : ListenerAction} {e : ListenerEvent}
    (h : (safeListener os).step s a = some (s', e)) :
    SafeStep os s a ∧ s.isOnTop a = true ∧ Step os s a s' e := by
  obtain ⟨hsafe, hstep⟩ := (Machine.restrict_step_iff _).mp h
  exact ⟨hsafe, isOnTop_of_step hstep, step_inv hstep⟩

/-- What holds in every state of such a run. -/
theorem invariants_of_run {os : Platform} {es : List (ListenerAction × ListenerEvent)}
    {s : Listener} (run : (safeListener os).Run es s) :
    (s.Exchanged → s.running = false) ∧ AcceptEnds os s ∧ s.Suspended := by
  refine run.invariant ⟨fun _ => rfl, fun fd hstart => ?_, fun hne => ?_⟩ fun _ ih hstep => ?_
  · cases hstart
  · exact absurd rfl hne
  · obtain ⟨hsafe, htop, h⟩ := step_safe hstep
    obtain ⟨hcleared, hends, hsuspended⟩ := ih
    exact ⟨h.running_of_exchanged hsafe hcleared, h.acceptEnds hsafe hends,
      h.suspended htop hsuspended⟩

/-- **A stop request is kept.**  In every run, of any number of calls of `stop()` at any time, in
    other threads and by handlers on the thread of `start()`, and with any answers of the system, in
    which `start()` sets `running_` only before every call has exchanged it, a call closes the socket
    only while no `accept` is in progress on it that goes on, and a call returns only with the socket
    closed, or with the loop not on its way to it, or with a handler still to return on the thread of
    `start()`: once a call has returned, no iteration of the accept loop begins and no connection is
    accepted. -/
theorem stop_kept (os : Platform) {es : List (ListenerAction × ListenerEvent)} {s : Listener}
    (run : (safeListener os).Run es s) : StopKept es := by
  refine run.pairwise_after (Q := Stopped os) ?_ ?_ ?_
  · intro es s a s' e hrun hstep he
    obtain ⟨hsafe, -, h⟩ := step_safe hstep
    obtain ⟨hcleared, hends, hsuspended⟩ := invariants_of_run hrun
    exact h.stopped_of_return he hsafe hcleared hends hsuspended
  · intro es s a s' e _ hstep hs
    obtain ⟨hsafe, htop, h⟩ := step_safe hstep
    exact h.stopped htop hsafe hs
  · intro es s a s' e _ hstep hs
    obtain ⟨-, htop, h⟩ := step_safe hstep
    exact h.not_isWork_of_stopped htop hs

/-- The statements of `start()` up to the condition of the accept loop, all of them successful. -/
def startUp : List ListenerAction := List.replicate 8 (.main true)

/-- The theorem where an `accept` goes on behind a `close`: a call in another thread between two
    iterations; a signal on the thread of `start()` while it waits in `accept`; two signals there on
    its way to `accept`, where the second handler returns before the first closes the socket. -/
theorem stop_kept_at_accept :
    (∃ es s, (safeListener ⟨true⟩).Run es s ∧ StopKept es ∧ (.callStop, .quiet) ∈ es ∧
        s.stops = [.returned] ∧ s.start = .ended) ∧
      (∃ es s, (safeListener ⟨true⟩).Run es s ∧ StopKept es ∧ (.signal, .quiet) ∈ es ∧
        s.stops = [.returned] ∧ s.start = .ended) ∧
      ∃ es s, (safeListener ⟨true⟩).Run es s ∧ StopKept es ∧ es.count (.signal, .quiet) = 2 ∧
        s.stops = [.returned, .returned] ∧ s.start = .ended := by
  refine ⟨?_, ?_, ?_⟩
  · obtain ⟨es, s, run, hrest⟩ := Machine.exists_run (M := safeListener ⟨true⟩)
      [startUp, List.replicate 4 (.main true), [.callStop], List.replicate 6 (.stop 0),
        [.main true, .main true]].flatten
      (fun es s => (.callStop, .quiet) ∈ es ∧ s.stops = [.returned] ∧ s.start = .ended) (by decide)
    exact ⟨es, s, run, stop_kept ⟨true⟩ run, hrest⟩
  · obtain ⟨es, s, run, hrest⟩ := Machine.exists_run (M := safeListener ⟨true⟩)
      [startUp, List.replicate 3 (.main true), [.signal], List.replicate 6 (.stop 0),
        [.main true]].flatten
      (fun es s => (.signal, .quiet) ∈ es ∧ s.stops = [.returned] ∧ s.start = .ended) (by decide)
    exact ⟨es, s, run, stop_kept ⟨true⟩ run, hrest⟩
  · obtain ⟨es, s, run, hrest⟩ := Machine.exists_run (M := safeListener ⟨true⟩)
      [startUp, [.main true, .signal, .stop 0, .signal], List.replicate 2 (.stop 1),
        List.replicate 5 (.stop 0), [.main true, .main true, .main false, .main true]].flatten
      (fun es s => es.count (.signal, .quiet) = 2 ∧ s.stops = [.returned, .returned] ∧
        s.start = .ended) (by decide)
    exact ⟨es, s, run, stop_kept ⟨true⟩ run, hrest⟩

/-- Three lost requests: a signal before the socket is bound, whatever the platform; a call in another
    thread during an `accept` that goes on behind the `close`; a second call while the first, in
    another thread, has not yet closed. -/
theorem stop_requests_lost :
    (∃ es s, (listenerMachine ⟨false⟩).Run es s ∧ (.stop 0, .stopReturned 0) ∈ es ∧
        s.stops.length = 1 ∧ ¬ StopKept es) ∧
      (∃ es s, (listenerMachine ⟨true⟩).Run es s ∧ (.main true, .accepted) ∈ es ∧
        s.stops.length = 1 ∧ ¬ StopKept es) ∧
      ∃ es s, (listenerMachine ⟨false⟩).Run es s ∧ (.main true, .accepted) ∈ es ∧
        s.stops.length = 2 ∧ ¬ StopKept es := by
  refine ⟨?_, ?_, ?_⟩
  · exact Machine.exists_run (M := listenerMachine ⟨false⟩)
      [List.replicate 4 (.main true), [.signal, .stop 0, .stop 0],
        List.replicate 5 (.main true)].flatten
      (fun es (s : Listener) => (.stop 0, .stopReturned 0) ∈ es ∧ s.stops.length = 1 ∧
        ¬ StopKept es) (by decide)
  · exact Machine.exists_run (M := listenerMachine ⟨true⟩)
      [startUp, List.replicate 3 (.main true), [.callStop], List.replicate 6 (.stop 0),
        [.main true]].flatten
      (fun es (s : Listener) => (.main true, .accepted) ∈ es ∧ s.stops.length = 1 ∧
        ¬ StopKept es) (by decide)
  · exact Machine.exists_run (M := listenerMachine ⟨false⟩)
      [startUp, [.main true, .callStop, .callStop, .stop 0, .stop 1, .stop 1],
        List.replicate 3 (.main true)].flatten
      (fun es (s : Listener) => (.main true, .accepted) ∈ es ∧ s.stops.length = 2 ∧
        ¬ StopKept es) (by decide)

end Listener

end HttpServer
