/-
  The listening socket is closed once — who closes it, over all interleavings of `start()` and the
  calls of `stop()`.

  1. **Specification (`ClosedOnce`)** — no `close` is made on the invalid descriptor, and none on a
     descriptor that was closed; and when a call of `stop()` has come behind the end of `start()`, as
     the destructor's does, and every call has returned, each listening socket was closed
     (`Destroyed`).

  2. **When it holds (`LoneTest`)** — `start()` and `stop()` each test `listen_fd_`, close it and reset
     it, in steps of their own.  Two of them that pass the test before either resets it both close:
     the same descriptor twice, or behind the reset the invalid one.

  3. **The crux** — while the socket is set up, `running_` is false and no call of `stop()` acts
     (`SetUp`), and a socket that is behind its set-up is closed by the call that clears `running_`
     (`Covered`).

  4. **Bridge** — the threads are the parties of a `Handle`, and in a run whose tests are lone each
     step is a step of it or none (`Step.simulates`).
-/
import HttpServer.Lib.SharedHandle
import HttpServer.Lib.Slots
import HttpServer.Listener
import Mathlib.Data.List.Nodup

namespace HttpServer

/-! ## The specification -/

/-- What a run of the listener shows. -/
abbrev ListenerHistory := List (ListenerAction × ListenerEvent)

/-- The listening socket that a step makes. -/
def ListenerEvent.created? : ListenerEvent → Option Nat
  | .created fd => some fd
  | _ => none

/-- The descriptor that a step closes. -/
def ListenerEvent.closed? : ListenerEvent → Option (Option Nat)
  | .closed fd => some fd
  | _ => none

/-- The listening sockets that were made. -/
def creates (es : ListenerHistory) : List Nat := es.filterMap fun e => e.2.created?

/-- The descriptors that were closed. -/
def closes (es : ListenerHistory) : List (Option Nat) := es.filterMap fun e => e.2.closed?

/-- `close` is never called on the invalid descriptor, nor on one already closed. -/
def ClosedOnce (es : ListenerHistory) : Prop :=
  none ∉ closes es ∧ (closes es).Nodup

instance (es : ListenerHistory) : Decidable (ClosedOnce es) :=
  inferInstanceAs (Decidable (_ ∧ _))

/-- Every call of `stop()` has returned. -/
def Listener.allReturned (s : Listener) : Bool := s.stops.all (· = .returned)

/-- A call of `stop()` was made behind the end of `start()`, and every call has returned. -/
def Destroyed (os : Platform) (es : ListenerHistory) (s : Listener) : Prop :=
  s.allReturned = true ∧ ∃ es₁ s₁ exit es₂, (listenerMachine os).Run es₁ s₁ ∧
    s₁.start = .done exit ∧ es = es₁ ++ (.callStop, .quiet) :: es₂

/-! ## The condition on a step -/

/-- What the thread of `start()` has of `listen_fd_`. -/
def StartPc.grip : StartPc → Grip Nat
  | .closing _ => .holding
  | .closingFd _ fd => .reading fd
  | .resetting _ => .released
  | _ => .free

/-- What a call of `stop()` has of it. -/
def StopPc.grip : StopPc → Grip Nat
  | .closing => .holding
  | .closingFd fd => .reading fd
  | .resetting => .released
  | _ => .free

namespace Listener

/-- `listen_fd_`, `start()` and the calls of `stop()` as the parties of one handle. -/
def handle (s : Listener) : Handle Nat := ⟨s.listenFd, s.start.grip :: s.stops.map StopPc.grip⟩

/-- The condition on a step: a test that finds a descriptor is made while nobody is between its own
    test and its reset. -/
def loneTest (s : Listener) : ListenerAction → Bool
  | .main _ => s.start ≠ .testing || s.listenFd = none || s.handle.allFree
  | .callStop => true
  | .signal => true
  | .stop k => s.stops[k]? ≠ some .testing || s.listenFd = none || s.handle.allFree

/-- `LoneTest s a` — the step closes nothing that another thread is about to close. -/
def LoneTest (s : Listener) (a : ListenerAction) : Prop := s.loneTest a = true

instance (s : Listener) (a : ListenerAction) : Decidable (LoneTest s a) :=
  inferInstanceAs (Decidable (_ = true))

/-! ## The crux: who closes a socket -/

end Listener

/-- Before `running_` is set, the ways out of it that throw included. -/
def StartPc.settingUp : StartPc → Bool
  | .constructed => true
  | .created _ => true
  | .checkingSocket => true
  | .settingOption => true
  | .binding => true
  | .listening => true
  | .storing => true
  | .closing exit => exit = .threw
  | .closingFd exit _ => exit = .threw
  | .resetting exit => exit = .threw
  | _ => false

/-- No descriptor has been stored. -/
def StartPc.unassigned : StartPc → Bool
  | .constructed => true
  | .created _ => true
  | _ => false

/-- At one of the three calls that set the socket up. -/
def StartPc.atSetUpCall : StartPc → Bool
  | .settingOption => true
  | .binding => true
  | .listening => true
  | _ => false

/-- The call has cleared `running_` and is not done with the socket. -/
def StopPc.acts : StopPc → Bool
  | .testing => true
  | .closing => true
  | .closingFd _ => true
  | .resetting => true
  | _ => false

theorem settingUp_of_atSetUpCall {pc : StartPc} (h : pc.atSetUpCall = true) : pc.settingUp = true := by
  cases pc <;> first | rfl | cases h

theorem settingUp_of_unassigned {pc : StartPc} (h : pc.unassigned = true) : pc.settingUp = true := by
  cases pc <;> first | rfl | cases h

/-- The set-up calls, and what comes behind them, are of the set-up. -/
theorem setUpCalls_settingUp {pc next : StartPc} (h : (pc, next) ∈ Listener.setUpCalls) :
    pc.atSetUpCall = true ∧ next.settingUp = true ∧ next.unassigned = false := by
  have hall : ∀ c ∈ Listener.setUpCalls,
      c.1.atSetUpCall = true ∧ c.2.settingUp = true ∧ c.2.unassigned = false := by decide
  exact hall (pc, next) h

/-! An `accept` that is interrupted had nothing of the socket, and was no part of the set-up. -/

theorem settingUp_interrupted (pc : StartPc) : pc.interrupted.settingUp = pc.settingUp := by
  cases pc <;> rfl

theorem unassigned_interrupted (pc : StartPc) : pc.interrupted.unassigned = pc.unassigned := by
  cases pc <;> rfl

theorem atSetUpCall_interrupted (pc : StartPc) : pc.interrupted.atSetUpCall = pc.atSetUpCall := by
  cases pc <;> rfl

theorem grip_interrupted (pc : StartPc) : pc.interrupted.grip = pc.grip := by
  cases pc <;> rfl

theorem grip_of_not_acts {pc : StopPc} (h : pc.acts = false) : pc.grip = .free := by
  cases pc <;> first | rfl | cases h

namespace Listener

/-- While the socket is set up, no call of `stop()` acts on it. -/
structure SetUp (s : Listener) : Prop where
  running : s.start.settingUp = true → s.running = false
  idle : s.start.settingUp = true → ∀ pc ∈ s.stops, pc.acts = false
  unassigned : s.start.unassigned = true → s.listenFd = none
  assigned : s.start.atSetUpCall = true → s.listenFd ≠ none

/-- A socket that is not being set up has someone to close it. -/
def Covered (s : Listener) : Prop :=
  s.start.settingUp = false → s.listenFd = none ∨ s.running = true ∨ 0 < s.stops.countP StopPc.acts

section Invariants

variable {os : Platform} {s s' : Listener} {a : ListenerAction} {e : ListenerEvent}

/-- The set-up comes first. -/
theorem Step.settingUp (h : Step os s a s' e) (hs' : s'.start.settingUp = true) :
    s.start.settingUp = true := by
  cases h with
  | setUp start call =>
    rw [start]
    exact settingUp_of_atSetUpCall (setUpCalls_settingUp call).1
  | buildPool => split at hs' <;> cases hs'
  | recheck => split at hs' <;> cases hs'
  | test => split at hs' <;> cases hs'
  | readForClose start => rw [start]; exact hs'
  | close start => rw [start]; exact hs'
  | reset start => cases hs'
  | callStop => exact hs'
  | signal => exact (settingUp_interrupted s.start).symm.trans hs'
  | exchange => exact hs'
  | stopTests => exact hs'
  | stopReads => exact hs'
  | stopCloses => exact hs'
  | stopResets => exact hs'
  | stopReturns => exact hs'
  | socket start => rw [start]; rfl
  | socketFails start => rw [start]; rfl
  | assign start => rw [start]; rfl
  | checkSocket start => rw [start]; rfl
  | store => cases hs'
  | _ => cases hs'

/-- While the socket is set up no call of `stop()` is past its `exchange` with something to do. -/
theorem SetUp.not_acts (hs : s.SetUp) (hstart : s.start.settingUp = true) {k : Nat} {pc : StopPc}
    (hk : s.stops[k]? = some pc) : pc.acts = false :=
  hs.idle hstart pc (List.mem_of_getElem? hk)

theorem Step.setUp_running (h : Step os s a s' e) (hs : s.SetUp)
    (hs' : s'.start.settingUp = true) : s'.running = false := by
  have hrunning := hs.running (h.settingUp hs')
  cases h with
  | store => cases hs'
  | exchange => rfl
  | _ => exact hrunning

theorem Step.setUp_idle (h : Step os s a s' e) (hs : s.SetUp) (hs' : s'.start.settingUp = true) :
    ∀ pc ∈ s'.stops, pc.acts = false := by
  have hstart := h.settingUp hs'
  have hidle := hs.idle hstart
  have hset {k : Nat} {pc' : StopPc} (hpc' : pc'.acts = false) :
      ∀ pc ∈ s.stops.set k pc', pc.acts = false := by
    intro pc hpc
    rcases List.mem_or_eq_of_mem_set hpc with hpc | rfl
    · exact hidle pc hpc
    · exact hpc'
  have hcall : ∀ pc ∈ s.stops ++ [.entered], pc.acts = false := by
    intro pc hpc
    rcases List.mem_append.mp hpc with hpc | hpc
    · exact hidle pc hpc
    · rw [List.mem_singleton.mp hpc]
      rfl
  cases h with
  | callStop => exact hcall
  | signal => exact hcall
  | exchange =>
    rw [hs.running hstart]
    exact hset rfl
  | stopTests hk => cases hs.not_acts hstart hk
  | stopReads hk => cases hs.not_acts hstart hk
  | stopCloses hk => cases hs.not_acts hstart hk
  | stopResets hk => cases hs.not_acts hstart hk
  | stopReturns => exact hset rfl
  | _ => exact hidle

theorem Step.setUp_unassigned (h : Step os s a s' e) (hs : s.SetUp)
    (hs' : s'.start.unassigned = true) : s'.listenFd = none := by
  cases h with
  | socket start => exact hs.unassigned (by rw [start]; rfl)
  | socketFails start => exact hs.unassigned (by rw [start]; rfl)
  | checkSocket => split at hs' <;> cases hs'
  | setUp start call =>
    replace hs' : (if _ then _ else _ : StartPc).unassigned = true := hs'
    split at hs'
    · rw [(setUpCalls_settingUp call).2.2] at hs'
      cases hs'
    · cases hs'
  | buildPool => split at hs' <;> cases hs'
  | recheck => split at hs' <;> cases hs'
  | test => split at hs' <;> cases hs'
  | callStop => exact hs.unassigned hs'
  | signal => exact hs.unassigned ((unassigned_interrupted s.start).symm.trans hs')
  | exchange => exact hs.unassigned hs'
  | stopTests => exact hs.unassigned hs'
  | stopReads => exact hs.unassigned hs'
  | stopCloses => exact hs.unassigned hs'
  | stopResets => rfl
  | stopReturns => exact hs.unassigned hs'
  | _ => cases hs'

theorem Step.setUp_assigned (h : Step os s a s' e) (hs : s.SetUp)
    (hs' : s'.start.atSetUpCall = true) : s'.listenFd ≠ none := by
  cases h with
  | checkSocket =>
    intro hnone
    replace hnone : s.listenFd = none := hnone
    rw [if_pos hnone] at hs'
    cases hs'
  | setUp start call =>
    refine hs.assigned ?_
    rw [start]
    exact (setUpCalls_settingUp call).1
  | buildPool => split at hs' <;> cases hs'
  | recheck => split at hs' <;> cases hs'
  | test => split at hs' <;> cases hs'
  | callStop => exact hs.assigned hs'
  | signal => exact hs.assigned ((atSetUpCall_interrupted s.start).symm.trans hs')
  | exchange => exact hs.assigned hs'
  | stopTests => exact hs.assigned hs'
  | stopReads => exact hs.assigned hs'
  | stopCloses => exact hs.assigned hs'
  | stopResets hk => cases hs.not_acts (settingUp_of_atSetUpCall hs') hk
  | stopReturns => exact hs.assigned hs'
  | _ => cases hs'

/-- **The set-up, one step.** -/
theorem Step.setUp_step (h : Step os s a s' e) (hs : s.SetUp) : s'.SetUp where
  running := h.setUp_running hs
  idle := h.setUp_idle hs
  unassigned := h.setUp_unassigned hs
  assigned := h.setUp_assigned hs

/-- A call that moves and acts no less than before leaves the socket covered. -/
theorem Covered.setStop (hs : s.Covered) {k : Nat} {pc pc' : StopPc}
    (hk : s.stops[k]? = some pc) (hacts : pc.acts = true → pc'.acts = true) :
    (s.setStop k pc').Covered := by
  intro hstart
  have hle : s.stops.countP StopPc.acts ≤ (s.stops.set k pc').countP StopPc.acts := by
    have hadd := Slots.countP_set_add (p := StopPc.acts) hk pc'
    have hbit : pc.acts.toNat ≤ pc'.acts.toNat := by
      cases hpc : pc.acts with
      | false => exact Nat.zero_le _
      | true => exact Nat.le_of_eq (congrArg Bool.toNat (hacts hpc).symm)
    omega
  rcases hs hstart with hnone | hrunning | hpos
  · exact Or.inl hnone
  · exact Or.inr (Or.inl hrunning)
  · exact Or.inr (Or.inr (Nat.lt_of_lt_of_le hpos hle))

/-- One more call covers no less. -/
theorem Covered.call (hs : s.Covered) {start : StartPc} {handlers : List Nat}
    (hsetUp : start.settingUp = s.start.settingUp) :
    Covered { s with start := start, stops := s.stops ++ [.entered], handlers := handlers } := by
  intro hstart
  rcases hs (hsetUp.symm.trans hstart) with hnone | hrunning | hpos
  · exact Or.inl hnone
  · exact Or.inr (Or.inl hrunning)
  · refine Or.inr (Or.inr ?_)
    show 0 < (s.stops ++ [StopPc.entered]).countP StopPc.acts
    rw [List.countP_append]
    omega

/-- A call clears `running_` and goes on, or finds it cleared. -/
theorem Covered.exchange (hs : s.Covered) {k : Nat} (hk : s.stops[k]? = some .entered) :
    ({ s with running := false }.setStop k
      (if s.running then .testing else .returning)).Covered := by
  by_cases hrunning : s.running = true
  · rw [if_pos hrunning]
    intro _
    have hadd := Slots.countP_set_add (p := StopPc.acts) hk .testing
    right; right
    show 0 < (s.stops.set k .testing).countP StopPc.acts
    simp only [StopPc.acts, Bool.toNat_false, Bool.toNat_true] at hadd
    omega
  · rw [if_neg hrunning]
    refine Covered.setStop (s := { s with running := false }) (fun hstart => ?_) hk fun h => by cases h
    rcases hs hstart with hnone | hset | hpos
    · exact Or.inl hnone
    · exact absurd hset hrunning
    · exact Or.inr (Or.inr hpos)

/-- **The cover, one step.** -/
theorem Step.covered (h : Step os s a s' e) (hs : s.Covered) : s'.Covered := by
  have hmain {pc : StartPc} (hstart : s.start.settingUp = false) : Covered { s with start := pc } :=
    fun _ => hs hstart
  cases h with
  | exchange hk => exact hs.exchange hk
  | stopTests hk =>
    by_cases hnone : s.listenFd = none
    · exact fun _ => Or.inl hnone
    · rw [if_neg hnone]
      exact hs.setStop hk fun _ => rfl
  | stopReads hk => exact hs.setStop hk fun _ => rfl
  | stopCloses hk => exact Covered.setStop (s := s.closeSocket _) hs hk fun _ => rfl
  | stopResets hk => exact fun _ => Or.inl rfl
  | stopReturns hk =>
    exact Covered.setStop (s := { s with handlers := _ }) hs hk fun hacts => by cases hacts
  | callStop => exact hs.call rfl
  | signal => exact hs.call (settingUp_interrupted s.start)
  | socket => exact fun hstart => by cases hstart
  | socketFails => exact fun hstart => by cases hstart
  | assign => exact fun hstart => by cases hstart
  | checkSocket =>
    intro hstart
    by_cases hnone : s.listenFd = none
    · exact Or.inl hnone
    · replace hstart : (if s.listenFd = none then StartPc.done .threw
        else .settingOption).settingUp = false := hstart
      rw [if_neg hnone] at hstart
      cases hstart
  | setUp start call =>
    intro hstart
    replace hstart : (if _ then _ else _ : StartPc).settingUp = false := hstart
    split at hstart
    · rw [(setUpCalls_settingUp call).2.1] at hstart
      cases hstart
    · cases hstart
  | store => exact fun _ => Or.inr (Or.inl rfl)
  | buildPool start => exact hmain (by rw [start]; rfl)
  | iterate start => exact hmain (by rw [start]; rfl)
  | leave start => exact hmain (by rw [start]; rfl)
  | readFd start => exact hmain (by rw [start]; rfl)
  | callAccept start => exact hmain (by rw [start]; rfl)
  | accept start => exact hmain (by rw [start]; rfl)
  | acceptFails start => exact hmain (by rw [start]; rfl)
  | recheck start => exact hmain (by rw [start]; rfl)
  | served start => exact hmain (by rw [start]; rfl)
  | shutDown start => exact hmain (by rw [start]; rfl)
  | test start => exact hmain (by rw [start]; rfl)
  | readForClose start => exact fun hstart => hs (by rw [start]; exact hstart)
  | close start => exact fun hstart => hs (by rw [start]; exact hstart)
  | reset => exact fun _ => Or.inl rfl

end Invariants

/-! ## Bridge: the threads are the parties of a handle -/

end Listener

/-- A socket that was made and is not yet stored. -/
def StartPc.inHand : StartPc → List Nat
  | .created fd => fd.toList
  | _ => []

theorem inHand_interrupted (pc : StartPc) : pc.interrupted.inHand = pc.inHand := by
  cases pc <;> rfl

namespace Listener

/-- `Simulates s s' e` — the handle takes steps, or none, that show the same sockets. -/
def Simulates (s s' : Listener) (e : ListenerEvent) : Prop :=
  ∃ is hes, (Handle.machine Nat 1).exec s.handle is = some (hes, s'.handle) ∧
    Handle.releases hes = e.closed?.toList ∧
    s.start.inHand ++ e.created?.toList = Handle.stored hes ++ s'.start.inHand

section Simulation

variable {os : Platform} {s s' : Listener} {a : ListenerAction} {e : ListenerEvent}

/-- The handle does not move. -/
theorem simulates_skip (hhandle : s'.handle = s.handle) (hclosed : e.closed? = none)
    (hhand : s.start.inHand ++ e.created?.toList = s'.start.inHand) : Simulates s s' e := by
  refine ⟨[], [], ?_, ?_, hhand⟩
  · rw [hhandle]
    rfl
  · rw [hclosed]
    rfl

/-- The handle takes one step. -/
theorem simulates_one (ha : HandleAction Nat) (he : HandleEvent Nat)
    (hstep : s.handle.step ha = some (s'.handle, he))
    (hreleased : he.released?.toList = e.closed?.toList)
    (hhand : s.start.inHand ++ e.created?.toList = he.stored?.toList ++ s'.start.inHand) :
    Simulates s s' e := by
  refine ⟨[ha], [(ha, he)], ?_, ?_, ?_⟩
  · simp only [Machine.exec, Handle.machine, hstep, Option.map_some]
  · rw [← hreleased]
    exact Handle.releases_snoc [] ha he
  · rw [hhand]
    exact congrArg (· ++ _) (Handle.stored_snoc [] ha he).symm

/-- The thread of `start()` moves and has nothing of the handle before or behind. -/
theorem simulates_main {pc pc' : StartPc} {running : Bool} (hstart : s.start = pc)
    (hgrip : pc'.grip = pc.grip) (hhand : pc'.inHand = pc.inHand) (hclosed : e.closed? = none)
    (hcreated : e.created? = none) :
    Simulates s { s with start := pc', running := running } e := by
  refine simulates_skip ?_ hclosed ?_
  · show (⟨s.listenFd, pc'.grip :: s.stops.map StopPc.grip⟩ : Handle Nat) =
      ⟨s.listenFd, s.start.grip :: s.stops.map StopPc.grip⟩
    rw [hgrip, hstart]
  · show _ = pc'.inHand
    rw [hcreated, hstart, hhand, Option.toList_none, List.append_nil]

/-- What the handle is behind a step of call `k`. -/
theorem handle_setStop (s : Listener) (k : Nat) (pc : StopPc) :
    (s.setStop k pc).handle = s.handle.setGrip (k + 1) pc.grip := by
  show (⟨s.listenFd, s.start.grip :: (s.stops.set k pc).map StopPc.grip⟩ : Handle Nat) = _
  rw [List.map_set]
  rfl

theorem handle_getElem? {k : Nat} {pc : StopPc} (hk : s.stops[k]? = some pc) :
    s.handle.grips[k + 1]? = some pc.grip := by
  show (s.start.grip :: s.stops.map StopPc.grip)[k + 1]? = _
  rw [List.getElem?_cons_succ, List.getElem?_map, hk, Option.map_some]

/-- Call `k` moves and has nothing of the handle before or behind. -/
theorem simulates_stop {k : Nat} {pc pc' : StopPc} {running : Bool} {handlers : List Nat}
    (hk : s.stops[k]? = some pc) (hgrip : pc'.grip = pc.grip) (hclosed : e.closed? = none)
    (hcreated : e.created? = none) :
    Simulates s ({ s with running := running, handlers := handlers }.setStop k pc') e := by
  refine simulates_skip ?_ hclosed ?_
  · rw [handle_setStop]
    show s.handle.setGrip (k + 1) pc'.grip = s.handle
    rw [hgrip]
    obtain ⟨hlt, hget⟩ := List.getElem?_eq_some_iff.mp (handle_getElem? hk)
    rw [← hget, Handle.setGrip, List.set_getElem_self]
  · rw [hcreated, Option.toList_none, List.append_nil]
    rfl

/-- One more call is one more party. -/
theorem simulates_call {start : StartPc} {handlers : List Nat} (hgrip : start.grip = s.start.grip)
    (hhand : start.inHand = s.start.inHand) :
    Simulates s
      { s with start := start, stops := s.stops ++ [.entered], handlers := handlers } .quiet := by
  refine simulates_one .join .quiet ?_ rfl ?_
  · show some _ = some ((⟨s.listenFd,
      start.grip :: (s.stops ++ [StopPc.entered]).map StopPc.grip⟩ : Handle Nat), _)
    rw [List.map_append, hgrip]
    rfl
  · exact (List.append_nil _).trans hhand.symm

/-- While the socket is set up nobody has anything of it. -/
theorem SetUp.allFree (hs : s.SetUp) (hstart : s.start.settingUp = true)
    (hgrip : s.start.grip = .free) : s.handle.allFree = true := by
  refine Handle.allFree_iff.mpr fun g hg => ?_
  rcases List.mem_cons.mp hg with rfl | hg
  · exact hgrip
  · obtain ⟨pc, hpc, rfl⟩ := List.mem_map.mp hg
    exact grip_of_not_acts (hs.idle hstart pc hpc)

/-- A failed call of the set-up takes the descriptor, which nobody else has anything of. -/
theorem SetUp.simulates_take (hs : s.SetUp) (hcall : s.start.atSetUpCall = true) (exit : Exit) :
    Simulates s { s with start := .closing exit } .quiet := by
  have hgrip : s.start.grip = .free := by
    cases hstart : s.start <;> first | rfl | (rw [hstart] at hcall; cases hcall)
  have hhand : s.start.inHand = [] := by
    cases hstart : s.start <;> first | rfl | (rw [hstart] at hcall; cases hcall)
  have hfree := hs.allFree (settingUp_of_atSetUpCall hcall) hgrip
  have htake : s.handle.step (.take 0) =
      some (({ s with start := .closing exit } : Listener).handle, .quiet) :=
    if_pos ⟨hs.assigned hcall, hfree, Nat.succ_pos _⟩
  refine simulates_one _ _ htake rfl ?_
  rw [hhand]
  rfl

/-- A test that finds the descriptor while nobody else has anything of it takes it. -/
theorem handle_take {i : Nat} (hfd : s.listenFd ≠ none) (hfree : s.handle.allFree = true)
    (hi : i < s.handle.grips.length) :
    s.handle.step (.take i) = some (s.handle.setGrip i .holding, .quiet) :=
  if_pos ⟨hfd, hfree, hi⟩

/-- The condition on a test by `start()`. -/
theorem LoneTest.main {ok : Bool} (hlone : LoneTest s (.main ok)) (hstart : s.start = .testing)
    (hfd : s.listenFd ≠ none) : s.handle.allFree = true := by
  simpa [LoneTest, loneTest, hstart, hfd] using hlone

/-- The condition on a test by call `k`. -/
theorem LoneTest.stop {k : Nat} (hlone : LoneTest s (.stop k)) (hk : s.stops[k]? = some .testing)
    (hfd : s.listenFd ≠ none) : s.handle.allFree = true := by
  simpa [LoneTest, loneTest, hk, hfd] using hlone

end Simulation

section Steps

variable {os : Platform} {s s' : Listener} {a : ListenerAction} {e : ListenerEvent}

/-- **A step of the thread of `start()`.** -/
theorem Step.simulates_main {ok : Bool} (h : Step os s (.main ok) s' e)
    (hlone : LoneTest s (.main ok)) (hs : s.SetUp) : Simulates s s' e := by
  cases h with
  | socket start =>
    refine simulates_skip ?_ rfl ?_
    · rw [handle, handle, start]
      rfl
    · rw [start]
      rfl
  | socketFails start => exact Listener.simulates_main start rfl rfl rfl rfl
  | @assign _ fd start =>
    have hunassigned : s.start.unassigned = true := by rw [start]; rfl
    have hnone := hs.unassigned hunassigned
    cases fd with
    | none =>
      refine simulates_skip ?_ rfl ?_
      · rw [handle, handle, hnone, start]
        rfl
      · rw [start]
        rfl
    | some v =>
      have hfree := hs.allFree (settingUp_of_unassigned hunassigned) (by rw [start]; rfl)
      have hstore : s.handle.step (.store v) = some ({ s.handle with slot := some v }, .stored v) :=
        if_pos ⟨hnone, hfree⟩
      refine simulates_one (.store v) (.stored v) ?_ rfl ?_
      · rw [hstore, handle, handle, start]
        rfl
      · rw [start]
        rfl
  | checkSocket start =>
    by_cases hnone : s.listenFd = none
    · rw [if_pos hnone]
      exact Listener.simulates_main start rfl rfl rfl rfl
    · rw [if_neg hnone]
      exact Listener.simulates_main start rfl rfl rfl rfl
  | @setUp _ pc next start call =>
    cases ok with
    | true =>
      simp only [setUpCalls, List.mem_cons, Prod.mk.injEq, List.not_mem_nil, or_false] at call
      rcases call with ⟨rfl, rfl⟩ | ⟨rfl, rfl⟩ | ⟨rfl, rfl⟩
      · exact Listener.simulates_main start rfl rfl rfl rfl
      · exact Listener.simulates_main start rfl rfl rfl rfl
      · exact Listener.simulates_main start rfl rfl rfl rfl
    | false =>
      refine hs.simulates_take ?_ .threw
      rw [start]
      exact (setUpCalls_settingUp call).1
  | store start => exact Listener.simulates_main start rfl rfl rfl rfl
  | buildPool start =>
    cases ok with
    | true => exact Listener.simulates_main start rfl rfl rfl rfl
    | false => exact Listener.simulates_main start rfl rfl rfl rfl
  | iterate start => exact Listener.simulates_main start rfl rfl rfl rfl
  | leave start => exact Listener.simulates_main start rfl rfl rfl rfl
  | readFd start => exact Listener.simulates_main start rfl rfl rfl rfl
  | callAccept start => exact Listener.simulates_main start rfl rfl rfl rfl
  | accept start => exact Listener.simulates_main start rfl rfl rfl rfl
  | acceptFails start => exact Listener.simulates_main start rfl rfl rfl rfl
  | recheck start =>
    by_cases hrunning : s.running = true
    · rw [if_pos hrunning]
      exact Listener.simulates_main start rfl rfl rfl rfl
    · rw [if_neg hrunning]
      exact Listener.simulates_main start rfl rfl rfl rfl
  | served start => exact Listener.simulates_main start rfl rfl rfl rfl
  | shutDown start => exact Listener.simulates_main start rfl rfl rfl rfl
  | test start =>
    by_cases hnone : s.listenFd = none
    · rw [if_pos hnone]
      exact Listener.simulates_main start rfl rfl rfl rfl
    · rw [if_neg hnone]
      refine simulates_one _ _ (handle_take hnone (hlone.main start hnone) (Nat.succ_pos _)) rfl ?_
      rw [start]
      rfl
  | readForClose start =>
    refine simulates_one (.read 0) .quiet ?_ rfl ?_
    · simp only [Handle.step, handle, start, List.getElem?_cons_zero, StartPc.grip]
      rfl
    · rw [start]
      rfl
  | @close _ exit fd start =>
    refine simulates_one (.release 0) (.released fd) ?_ rfl ?_
    · simp only [Handle.step, handle, start, List.getElem?_cons_zero, StartPc.grip]
      rfl
    · rw [start]
      rfl
  | reset start =>
    refine simulates_one (.reset 0) .quiet ?_ rfl ?_
    · simp only [Handle.step, handle, start, List.getElem?_cons_zero, StartPc.grip]
      rfl
    · rw [start]
      rfl

/-- **A step of a call of `stop()`.** -/
theorem Step.simulates_stop {k : Nat} (h : Step os s (.stop k) s' e)
    (hlone : LoneTest s (.stop k)) : Simulates s s' e := by
  cases h with
  | exchange hk =>
    refine Listener.simulates_stop hk ?_ rfl rfl
    split <;> rfl
  | stopTests hk =>
    by_cases hnone : s.listenFd = none
    · rw [if_pos hnone]
      exact Listener.simulates_stop hk rfl rfl rfl
    · rw [if_neg hnone]
      obtain ⟨hlt, -⟩ := List.getElem?_eq_some_iff.mp (handle_getElem? hk)
      refine simulates_one (.take (k + 1)) .quiet ?_ rfl (List.append_nil _)
      rw [handle_take hnone (hlone.stop hk hnone) hlt, handle_setStop]
      rfl
  | stopReads hk =>
    refine simulates_one (.read (k + 1)) .quiet ?_ rfl (List.append_nil _)
    simp only [Handle.step, handle_getElem? hk, StopPc.grip, handle_setStop]
    rfl
  | @stopCloses _ fd hk =>
    refine simulates_one (.release (k + 1)) (.released fd) ?_ rfl (List.append_nil _)
    simp only [Handle.step, handle_getElem? hk, StopPc.grip, handle_setStop]
    rfl
  | stopResets hk =>
    refine simulates_one (.reset (k + 1)) .quiet ?_ rfl (List.append_nil _)
    simp only [Handle.step, handle_getElem? hk, StopPc.grip, handle_setStop]
    rfl
  | stopReturns hk => exact Listener.simulates_stop hk rfl rfl rfl

/-- **Every step with a lone test.** -/
theorem Step.simulates (h : Step os s a s' e) (hlone : LoneTest s a) (hs : s.SetUp) :
    Simulates s s' e := by
  cases a with
  | main ok => exact h.simulates_main hlone hs
  | callStop =>
    cases h
    exact simulates_call rfl rfl
  | signal =>
    cases h
    exact simulates_call (grip_interrupted s.start) (inHand_interrupted s.start)
  | stop k => exact h.simulates_stop hlone

end Steps

/-! ## Runs whose tests are lone -/

/-- The runs all of whose tests are lone. -/
abbrev loneListener (os : Platform) : Machine Listener ListenerAction ListenerEvent :=
  (listenerMachine os).restrict LoneTest

section Runs

variable {os : Platform} {es : ListenerHistory} {s : Listener}

theorem creates_snoc (es : ListenerHistory) (a : ListenerAction) (e : ListenerEvent) :
    creates (es ++ [(a, e)]) = creates es ++ e.created?.toList := Machine.filterMap_snoc _ es (a, e)

theorem closes_snoc (es : ListenerHistory) (a : ListenerAction) (e : ListenerEvent) :
    closes (es ++ [(a, e)]) = closes es ++ e.closed?.toList := Machine.filterMap_snoc _ es (a, e)

/-- The set-up and the cover, over a whole run. -/
theorem setUp_covered_of_run (run : (listenerMachine os).Run es s) : s.SetUp ∧ s.Covered := by
  refine run.invariant ⟨⟨fun _ => rfl, ?_, fun _ => rfl, ?_⟩, ?_⟩ fun _ ih hstep => ?_
  · intro _ pc hpc
    cases hpc
  · intro hstart
    cases hstart
  · intro hstart
    cases hstart
  · have h := step_inv hstep
    exact ⟨h.setUp_step ih.1, h.covered ih.2⟩

/-- **A run of the listener is one of the handle**, with the same sockets. -/
theorem simulates_of_run (run : (loneListener os).Run es s) :
    ∃ hes, (Handle.machine Nat 1).Run hes s.handle ∧ Handle.releases hes = closes es ∧
      creates es = Handle.stored hes ++ s.start.inHand := by
  refine run.invariant ⟨[], .nil, rfl, rfl⟩ fun {es s a s' e} hrun ih hstep => ?_
  obtain ⟨hes, hhandle, hreleases, hstored⟩ := ih
  obtain ⟨hlone, hstep⟩ := (Machine.restrict_step_iff _).mp hstep
  obtain ⟨is, hes', hexec, hreleases', hstored'⟩ :=
    (step_inv hstep).simulates hlone (setUp_covered_of_run hrun.of_restrict).1
  refine ⟨hes ++ hes', hhandle.exec hexec, ?_, ?_⟩
  · rw [closes_snoc, ← hreleases, ← hreleases']
    exact List.filterMap_append
  · rw [creates_snoc, hstored, List.append_assoc, hstored', ← List.append_assoc]
    exact congrArg (· ++ _) List.filterMap_append.symm

/-- Sockets are numbered as they are made. -/
theorem creates_eq_range (run : (listenerMachine os).Run es s) :
    creates es = List.range s.created := by
  refine run.invariant rfl fun {es s a s' e} _ ih hstep => ?_
  rw [creates_snoc, ih]
  cases step_inv hstep with
  | socket => exact List.range_succ.symm
  | _ => exact List.append_nil _

/-- `start()` is over, and call `k` has cleared `running_` or is about to. -/
def Behind (exit : Exit) (k : Nat) (s : Listener) : Prop :=
  s.start = .done exit ∧ ∃ pc, s.stops[k]? = some pc ∧ (pc = .entered ∨ s.running = false)

/-- A call that moves and is past its `exchange` leaves that so. -/
theorem Behind.setStop {exit : Exit} {k j : Nat} {pc pc' : StopPc} (hs : s.Behind exit k)
    (hj : s.stops[j]? = some pc) (hne : pc ≠ .entered) : (s.setStop j pc').Behind exit k := by
  obtain ⟨hdone, pck, hk, hcleared⟩ := hs
  refine ⟨hdone, ?_⟩
  show ∃ pc, (s.stops.set j pc')[k]? = some pc ∧ (pc = .entered ∨ s.running = false)
  by_cases hjk : j = k
  · subst hjk
    obtain ⟨hlt, -⟩ := List.getElem?_eq_some_iff.mp hj
    rw [hj] at hk
    cases hk
    exact ⟨pc', List.getElem?_set_self hlt, Or.inr (hcleared.resolve_left hne)⟩
  · exact ⟨pck, by rwa [List.getElem?_set_ne hjk], hcleared⟩

/-- One more call comes behind the others. -/
theorem Behind.call {exit : Exit} {k : Nat} (hs : s.Behind exit k) {start : StartPc}
    {handlers : List Nat} (hdone : start = .done exit) :
    Behind exit k
      { s with start := start, stops := s.stops ++ [.entered], handlers := handlers } := by
  obtain ⟨-, pc, hk, hcleared⟩ := hs
  obtain ⟨hlt, -⟩ := List.getElem?_eq_some_iff.mp hk
  refine ⟨hdone, pc, ?_, hcleared⟩
  show (s.stops ++ [StopPc.entered])[k]? = some pc
  rwa [List.getElem?_append_left hlt]

theorem Step.behind {a : ListenerAction} {s' : Listener} {e : ListenerEvent} {exit : Exit} {k : Nat}
    (h : (listenerMachine os).step s a = some (s', e)) (hs : s.Behind exit k) : s'.Behind exit k := by
  have hstep : s.step os a = some (s', e) := h
  cases a with
  | main ok =>
    have hnone : s.mainStep os ok = none := by rw [mainStep, hs.1]
    cases hnone.symm.trans (step_eq_some_iff.mp hstep).2
  | callStop =>
    cases step_inv hstep
    exact hs.call hs.1
  | signal =>
    cases step_inv hstep
    exact hs.call (by rw [hs.1]; rfl)
  | stop j =>
    cases step_inv hstep with
    | exchange hj =>
      obtain ⟨hdone, pc, hk, -⟩ := hs
      obtain ⟨hlt, -⟩ := List.getElem?_eq_some_iff.mp hk
      refine ⟨hdone, ?_⟩
      obtain ⟨pc', hpc'⟩ : ∃ pc', (s.stops.set j (if s.running then .testing else .returning))[k]? =
          some pc' := by
        refine ⟨_, List.getElem?_eq_getElem ?_⟩
        rwa [List.length_set]
      exact ⟨pc', hpc', Or.inr rfl⟩
    | stopTests hj => exact hs.setStop hj (by simp)
    | stopReads hj => exact hs.setStop hj (by simp)
    | stopCloses hj => exact Behind.setStop (s := s.closeSocket _) hs hj (by simp)
    | stopResets hj => exact Behind.setStop (s := { s with listenFd := none }) hs hj (by simp)
    | stopReturns hj => exact Behind.setStop (s := { s with handlers := _ }) hs hj (by simp)

/-- **What a call of `stop()` behind the end of `start()` leaves**: `running_` is cleared. -/
theorem cleared_of_destroyed (run : (listenerMachine os).Run es s) (hd : Destroyed os es s) :
    (∃ exit, s.start = .done exit) ∧ s.running = false := by
  obtain ⟨hreturned, es₁, s₁, exit, es₂, run₁, hdone, rfl⟩ := hd
  have hcall : (listenerMachine os).Run (es₁ ++ [(.callStop, .quiet)])
      { s₁ with stops := s₁.stops ++ [.entered] } := run₁.snoc rfl
  have hbehind : s.Behind exit s₁.stops.length := by
    have hlater : (listenerMachine os).Run ((es₁ ++ [(.callStop, .quiet)]) ++ es₂) s := by
      rwa [List.append_assoc]
    refine hcall.stable (fun _ hstep hr => Step.behind hstep hr) hlater ?_
    exact ⟨hdone, .entered, List.getElem?_concat_length, Or.inl rfl⟩
  obtain ⟨hstart, pc, hpc, hcleared⟩ := hbehind
  refine ⟨⟨exit, hstart⟩, hcleared.resolve_left ?_⟩
  rintro rfl
  have hentered := Slots.of_all_of_getElem? hreturned hpc
  cases hentered

/-- With every call returned, nobody has anything of the socket, nor is about to. -/
theorem idle_of_allReturned (hreturned : s.allReturned = true) {exit : Exit}
    (hstart : s.start = .done exit) :
    s.handle.allFree = true ∧ s.stops.countP StopPc.acts = 0 := by
  have hpc : ∀ pc ∈ s.stops, pc = .returned := by
    intro pc hpc
    simpa using List.all_eq_true.mp hreturned pc hpc
  constructor
  · refine Handle.allFree_iff.mpr fun g hg => ?_
    rcases List.mem_cons.mp hg with rfl | hg
    · rw [hstart]
      rfl
    · obtain ⟨pc, hmem, rfl⟩ := List.mem_map.mp hg
      rw [hpc pc hmem]
      rfl
  · refine List.countP_eq_zero.mpr fun pc hmem => ?_
    rw [hpc pc hmem]
    decide

/-- **Behind the destructor every socket that was made was closed.** -/
theorem closes_of_destroyed (run : (loneListener os).Run es s) (hd : Destroyed os es s) :
    closes es = (creates es).map some := by
  obtain ⟨⟨exit, hstart⟩, hcleared⟩ := cleared_of_destroyed run.of_restrict hd
  obtain ⟨hfree, hidle⟩ := idle_of_allReturned hd.1 hstart
  have hslot : s.listenFd = none := by
    rcases (setUp_covered_of_run run.of_restrict).2 (by rw [hstart]; rfl) with hnone | hset | hpos
    · exact hnone
    · rw [hcleared] at hset
      cases hset
    · omega
  obtain ⟨hes, hhandle, hreleases, hstored⟩ := simulates_of_run run
  have hhand : s.start.inHand = [] := by rw [hstart]; rfl
  rw [hhand, List.append_nil] at hstored
  rw [← hreleases, hstored]
  exact Handle.releases_eq_of_rest hhandle hfree hslot

theorem closedOnce_of_run (run : (loneListener os).Run es s) : ClosedOnce es := by
  obtain ⟨hes, hhandle, hreleases, hstored⟩ := simulates_of_run run
  have hfirst := Handle.releases_first hhandle
  have hnodup : (creates es).Nodup := by
    rw [creates_eq_range run.of_restrict]
    exact List.nodup_range
  rw [hstored] at hnodup
  rw [ClosedOnce, ← hreleases]
  constructor
  · intro hnone
    obtain ⟨v, -, hv⟩ := List.mem_map.mp (hfirst.subset hnone)
    cases hv
  · have hstored := (List.nodup_append.mp hnodup).1
    exact (hstored.map (Option.some_injective Nat)).sublist hfirst.sublist

end Runs

/-- **The listening socket is closed once.**  In every run, of any number of calls of `stop()` at any
    time, in other threads and by handlers on the thread of `start()`, and with any answers of the
    system, in which each test that finds a descriptor is made while
    nobody is between its own test and its reset: no `close` is made on the invalid descriptor or on
    one already closed, and behind the destructor every socket that was made was closed exactly
    once. -/
theorem closed_once (os : Platform) {es : ListenerHistory} {s : Listener}
    (run : (loneListener os).Run es s) :
    ClosedOnce es ∧ (Destroyed os es s → ∀ fd ∈ creates es, (closes es).count (some fd) = 1) := by
  have honce := closedOnce_of_run run
  refine ⟨honce, fun hd fd hfd => ?_⟩
  refine List.count_eq_one_of_mem honce.2 ?_
  rw [closes_of_destroyed run hd]
  exact List.mem_map_of_mem hfd

/-- A call closes the socket before `start()` tests it; the destructor finds it closed. -/
def stoppedSchedule : List ListenerAction :=
  [List.replicate 9 (.main true), [.callStop], List.replicate 6 (.stop 0),
    [.main true, .main true, .main false, .main true, .main true, .main true]].flatten

/-- The theorem on that run: the one socket was closed exactly once. -/
theorem closed_once_stopped :
    ∃ es s, (loneListener ⟨true⟩).Run es s ∧ ClosedOnce es ∧ creates es = [0] ∧
      (closes es).count (some 0) = 1 := by
  obtain ⟨es₁, s₁, es₂, s₂, run₁, run₂, hdone, hcall, hreturned, hcreates⟩ :=
    Machine.exists_run_then (M := loneListener ⟨true⟩) stoppedSchedule
      (.callStop :: List.replicate 2 (.stop 1))
      (fun es s es' s' => s.start = .done .returned ∧ es'.head? = some (.callStop, .quiet) ∧
        s'.allReturned = true ∧ creates (es ++ es') = [0])
      (by decide)
  have hd : Destroyed ⟨true⟩ (es₁ ++ es₂) s₂ :=
    ⟨hreturned, es₁, s₁, .returned, es₂.tail, run₁.of_restrict, hdone,
      by rw [List.cons_head?_tail hcall]⟩
  have honce := closed_once ⟨true⟩ run₂
  refine ⟨es₁ ++ es₂, s₂, run₂, honce.1, hcreates, honce.2 hd 0 ?_⟩
  rw [hcreates]
  exact List.mem_singleton_self 0

/-- Two runs in which `start()` tests the descriptor while a call of `stop()` is about to close it: it
    is closed twice, or the invalid descriptor is closed. -/
theorem listener_closed_twice :
    (∃ es s, (listenerMachine ⟨true⟩).Run es s ∧ closes es = [some 0, some 0] ∧ ¬ ClosedOnce es) ∧
      ∃ es s, (listenerMachine ⟨true⟩).Run es s ∧ closes es = [some 0, none] ∧ ¬ ClosedOnce es := by
  constructor
  · exact Machine.exists_run (M := listenerMachine ⟨true⟩)
      [List.replicate 8 (.main true), [.callStop, .stop 0, .stop 0], List.replicate 4 (.main true),
        [.stop 0, .stop 0, .main true]].flatten
      (fun es _ => closes es = [some 0, some 0] ∧ ¬ ClosedOnce es) (by decide +kernel)
  · exact Machine.exists_run (M := listenerMachine ⟨true⟩)
      [List.replicate 8 (.main true), [.callStop, .stop 0, .stop 0], List.replicate 3 (.main true),
        [.stop 0, .stop 0, .stop 0, .main true, .main true]].flatten
      (fun es _ => closes es = [some 0, none] ∧ ¬ ClosedOnce es) (by decide +kernel)

end Listener

end HttpServer
