/-
  The listening socket — `TcpServer::start` and `TcpServer::stop`, statement by statement.

  1. **Data** — `running_`, `listen_fd_`, the listening sockets the system holds open, where the
     thread of `start()` is, and where every call of `stop()` is that was ever made, from a signal
     handler, a console handler or the destructor.  A descriptor is numbered by its `socket` call,
     so a number that the system reuses is another descriptor, and `invalid_socket()` is `none`.

  2. **Program** — one step is one read or write of `running_` or `listen_fd_` and one system call.
     `main ok` is the next statement of the thread of `start()`, `stop k` that of call `k`; `ok` is
     the answer of the call a statement makes, if it makes one.  What the loop body does with an
     accepted connection touches neither field and is one step.

  3. **Signals** — a handler that is called on the thread of `start()` calls `stop()` on top of what
     `start()` does there: `start()` goes on when the call has returned, and so does a handler that
     another signal interrupts.  `sigaction` is called without `SA_RESTART`, so an `accept` that is
     interrupted does not go on and fails with EINTR.  A call that a handler makes on another thread
     of the process is one in another thread.

  4. **The system** — an `accept` can deliver a connection only if its descriptor was an open socket
     when it was called, and the socket is still open or the platform lets an `accept` in progress
     outlive a `close` in another thread (`keepsAccept`, as Linux does).  It can fail at any time.
-/
import HttpServer.Lib.Machine

namespace HttpServer

/-! ## Data -/

/-- How `start()` ends. -/
inductive Exit
  | returned
  | threw
  deriving DecidableEq

/-- Where the thread of `start()` is. -/
inductive StartPc
  /-- The server is constructed and `start()` not yet called. -/
  | constructed
  /-- With the result of `socket`. -/
  | created (fd : Option Nat)
  | checkingSocket
  | settingOption
  | binding
  | listening
  /-- At `running_.store(true)`. -/
  | storing
  | buildingPool
  /-- At the condition of the accept loop. -/
  | top
  /-- At the `accept`, its arguments not yet evaluated. -/
  | calling
  | entering (fd : Option Nat)
  /-- In `accept`, and whether the descriptor was an open socket when it was called. -/
  | accepting (fd : Option Nat) (wasOpen : Bool)
  /-- Behind an `accept` that failed. -/
  | checking
  /-- With a connection in hand. -/
  | serving
  /-- Behind the loop. -/
  | ended
  /-- At the test of `listen_fd_` behind the pool's shutdown. -/
  | testing
  /-- At `close_socket(listen_fd_)`, its argument not yet evaluated. -/
  | closing (exit : Exit)
  | closingFd (exit : Exit) (fd : Option Nat)
  | resetting (exit : Exit)
  | done (exit : Exit)
  deriving DecidableEq

/-- Where a call of `stop()` is. -/
inductive StopPc
  /-- At the `exchange`. -/
  | entered
  | testing
  | closing
  | closingFd (fd : Option Nat)
  | resetting
  | returning
  | returned
  deriving DecidableEq

/-- The fields of `TcpServer` that `start()` and `stop()` share, what the system has open, and where
    the calls are. -/
structure Listener where
  running : Bool := false
  /-- The field is written by `start()` and by every call of `stop()`, and it is no atomic. -/
  listenFd : Option Nat := none
  /-- How many listening sockets there have been. -/
  created : Nat := 0
  /-- The listening sockets that are open. -/
  live : List Nat := []
  start : StartPc := .constructed
  /-- The calls of `stop()`, in the order in which they were made. -/
  stops : List StopPc := []
  /-- The calls under way that handlers make on the thread of `start()`, the innermost first. -/
  handlers : List Nat := []

/-- What differs between the systems the server runs on. -/
structure Platform where
  /-- An `accept` in progress goes on when another thread closes its descriptor. -/
  keepsAccept : Bool

/-- Who takes the next step, or makes the next call of `stop()`. -/
inductive ListenerAction
  /-- The next statement of the thread of `start()`. -/
  | main (ok : Bool)
  /-- A call of `stop()` in another thread, or behind the end of `start()` by the destructor. -/
  | callStop
  /-- A handler calls `stop()` on the thread of `start()`, on top of all that it does. -/
  | signal
  /-- The next statement of call `k` of `stop()`. -/
  | stop (k : Nat)
  deriving DecidableEq

/-- What a step shows. -/
inductive ListenerEvent
  /-- `socket` has made a listening socket. -/
  | created (fd : Nat)
  /-- `close_socket` was called, on the invalid descriptor if this is `none`. -/
  | closed (fd : Option Nat)
  /-- An iteration of the accept loop begins. -/
  | iteration
  /-- `accept` has returned a connection. -/
  | accepted
  /-- Call `k` of `stop()` returns. -/
  | stopReturned (k : Nat)
  | quiet
  deriving DecidableEq

/-- Where a handler leaves the thread of `start()`: an `accept` that it interrupts has failed. -/
def StartPc.interrupted : StartPc → StartPc
  | .accepting _ _ => .checking
  | pc => pc

namespace Listener

/-! ## Program -/

/-- The descriptor is an open listening socket. -/
def isOpen (s : Listener) (fd : Option Nat) : Bool := fd.any (· ∈ s.live)

/-- `close_socket(fd)`: of an open socket the end, and of anything else no change. -/
def closeSocket (s : Listener) (fd : Option Nat) : Listener :=
  { s with live := s.live.filter fun n => fd ≠ some n }

/-- An `accept` in progress can deliver a connection. -/
def canDeliver (os : Platform) (s : Listener) (fd : Option Nat) (wasOpen : Bool) : Bool :=
  wasOpen && (s.isOpen fd || os.keepsAccept)

/-- The thread of `start()`, one statement; `ok` is the answer of the call in it, and without a call
    it is not looked at. -/
def mainStep (os : Platform) (s : Listener) (ok : Bool) : Option (Listener × ListenerEvent) :=
  match s.start with
  | .constructed =>
    if ok then
      some ({ s with
        start := .created (some s.created), created := s.created + 1,
        live := s.created :: s.live }, .created s.created)
    else some ({ s with start := .created none }, .quiet)
  | .created fd => some ({ s with start := .checkingSocket, listenFd := fd }, .quiet)
  | .checkingSocket =>
    some ({ s with start := if s.listenFd = none then .done .threw else .settingOption }, .quiet)
  | .settingOption => some ({ s with start := if ok then .binding else .closing .threw }, .quiet)
  | .binding => some ({ s with start := if ok then .listening else .closing .threw }, .quiet)
  | .listening => some ({ s with start := if ok then .storing else .closing .threw }, .quiet)
  | .storing => some ({ s with start := .buildingPool, running := true }, .quiet)
  -- nothing closes the socket when the pool cannot be built
  | .buildingPool => some ({ s with start := if ok then .top else .done .threw }, .quiet)
  | .top =>
    if s.running then some ({ s with start := .calling }, .iteration)
    else some ({ s with start := .ended }, .quiet)
  | .calling => some ({ s with start := .entering s.listenFd }, .quiet)
  | .entering fd => some ({ s with start := .accepting fd (s.isOpen fd) }, .quiet)
  | .accepting fd wasOpen =>
    if ok then
      if s.canDeliver os fd wasOpen then some ({ s with start := .serving }, .accepted) else none
    else some ({ s with start := .checking }, .quiet)
  | .checking => some ({ s with start := if s.running then .top else .ended }, .quiet)
  | .serving => some ({ s with start := .top }, .quiet)
  | .ended => some ({ s with start := .testing }, .quiet)
  | .testing =>
    some ({ s with
      start := if s.listenFd = none then .done .returned else .closing .returned }, .quiet)
  | .closing exit => some ({ s with start := .closingFd exit s.listenFd }, .quiet)
  | .closingFd exit fd => some ({ s.closeSocket fd with start := .resetting exit }, .closed fd)
  | .resetting exit => some ({ s with start := .done exit, listenFd := none }, .quiet)
  | .done _ => none

/-- The thread of call `k` moves to `pc`. -/
def setStop (s : Listener) (k : Nat) (pc : StopPc) : Listener :=
  { s with stops := s.stops.set k pc }

/-- Call `k` of `stop()`, one statement: the call that clears `running_` goes on to the socket,
    every other one returns. -/
def stopStep (s : Listener) (k : Nat) : Option (Listener × ListenerEvent) :=
  match s.stops[k]? with
  | some .entered =>
    some ({ s with running := false }.setStop k (if s.running then .testing else .returning), .quiet)
  | some .testing =>
    some (s.setStop k (if s.listenFd = none then .returning else .closing), .quiet)
  | some .closing => some (s.setStop k (.closingFd s.listenFd), .quiet)
  | some (.closingFd fd) => some ((s.closeSocket fd).setStop k .resetting, .closed fd)
  | some .resetting => some ({ s with listenFd := none }.setStop k .returning, .quiet)
  | some .returning =>
    some ({ s with handlers := s.handlers.erase k }.setStop k .returned, .stopReturned k)
  | some .returned => none
  | none => none

/-- The next statement of whoever it is, and the calls. -/
def move (os : Platform) (s : Listener) : ListenerAction → Option (Listener × ListenerEvent)
  | .main ok => s.mainStep os ok
  | .callStop => some ({ s with stops := s.stops ++ [.entered] }, .quiet)
  | .signal =>
    some ({ s with
      start := s.start.interrupted, stops := s.stops ++ [.entered],
      handlers := s.stops.length :: s.handlers }, .quiet)
  | .stop k => s.stopStep k

/-- Nothing runs on top of it: `start()` waits for every handler on its thread, and the call of a
    handler there for those that came behind it. -/
def isOnTop (s : Listener) : ListenerAction → Bool
  | .main _ => s.handlers = []
  | .callStop => true
  | .signal => true
  | .stop k => k ∉ s.handlers || s.handlers.head? = some k

/-- `s.step os a` — the step, if it is possible in `s`. -/
def step (os : Platform) (s : Listener) (a : ListenerAction) : Option (Listener × ListenerEvent) :=
  if s.isOnTop a then s.move os a else none

/-! ## What a step can do -/

/-- The three system calls that set the socket up, and what comes behind them. -/
def setUpCalls : List (StartPc × StartPc) :=
  [(.settingOption, .binding), (.binding, .listening), (.listening, .storing)]

/-- `Step os s a s' e` — the outcomes of a step. -/
inductive Step (os : Platform) (s : Listener) :
    ListenerAction → Listener → ListenerEvent → Prop
  | socket (start : s.start = .constructed) :
      Step os s (.main true)
        { s with
          start := .created (some s.created), created := s.created + 1,
          live := s.created :: s.live }
        (.created s.created)
  | socketFails (start : s.start = .constructed) :
      Step os s (.main false) { s with start := .created none } .quiet
  | assign {ok fd} (start : s.start = .created fd) :
      Step os s (.main ok) { s with start := .checkingSocket, listenFd := fd } .quiet
  | checkSocket {ok} (start : s.start = .checkingSocket) :
      Step os s (.main ok)
        { s with start := if s.listenFd = none then .done .threw else .settingOption } .quiet
  | setUp {ok pc next} (start : s.start = pc) (call : (pc, next) ∈ setUpCalls) :
      Step os s (.main ok) { s with start := if ok then next else .closing .threw } .quiet
  | store {ok} (start : s.start = .storing) :
      Step os s (.main ok) { s with start := .buildingPool, running := true } .quiet
  | buildPool {ok} (start : s.start = .buildingPool) :
      Step os s (.main ok) { s with start := if ok then .top else .done .threw } .quiet
  | iterate {ok} (start : s.start = .top) (running : s.running = true) :
      Step os s (.main ok) { s with start := .calling } .iteration
  | leave {ok} (start : s.start = .top) (stopped : s.running = false) :
      Step os s (.main ok) { s with start := .ended } .quiet
  | readFd {ok} (start : s.start = .calling) :
      Step os s (.main ok) { s with start := .entering s.listenFd } .quiet
  | callAccept {ok fd} (start : s.start = .entering fd) :
      Step os s (.main ok) { s with start := .accepting fd (s.isOpen fd) } .quiet
  | accept {fd wasOpen} (start : s.start = .accepting fd wasOpen)
      (deliver : s.canDeliver os fd wasOpen = true) :
      Step os s (.main true) { s with start := .serving } .accepted
  | acceptFails {fd wasOpen} (start : s.start = .accepting fd wasOpen) :
      Step os s (.main false) { s with start := .checking } .quiet
  | recheck {ok} (start : s.start = .checking) :
      Step os s (.main ok) { s with start := if s.running then .top else .ended } .quiet
  | served {ok} (start : s.start = .serving) :
      Step os s (.main ok) { s with start := .top } .quiet
  | shutDown {ok} (start : s.start = .ended) :
      Step os s (.main ok) { s with start := .testing } .quiet
  | test {ok} (start : s.start = .testing) :
      Step os s (.main ok)
        { s with start := if s.listenFd = none then .done .returned else .closing .returned } .quiet
  | readForClose {ok exit} (start : s.start = .closing exit) :
      Step os s (.main ok) { s with start := .closingFd exit s.listenFd } .quiet
  | close {ok exit fd} (start : s.start = .closingFd exit fd) :
      Step os s (.main ok) { s.closeSocket fd with start := .resetting exit } (.closed fd)
  | reset {ok exit} (start : s.start = .resetting exit) :
      Step os s (.main ok) { s with start := .done exit, listenFd := none } .quiet
  | callStop : Step os s .callStop { s with stops := s.stops ++ [.entered] } .quiet
  | signal :
      Step os s .signal
        { s with
          start := s.start.interrupted, stops := s.stops ++ [.entered],
          handlers := s.stops.length :: s.handlers }
        .quiet
  | exchange {k} (pc : s.stops[k]? = some .entered) :
      Step os s (.stop k)
        ({ s with running := false }.setStop k (if s.running then .testing else .returning)) .quiet
  | stopTests {k} (pc : s.stops[k]? = some .testing) :
      Step os s (.stop k) (s.setStop k (if s.listenFd = none then .returning else .closing)) .quiet
  | stopReads {k} (pc : s.stops[k]? = some .closing) :
      Step os s (.stop k) (s.setStop k (.closingFd s.listenFd)) .quiet
  | stopCloses {k fd} (pc : s.stops[k]? = some (.closingFd fd)) :
      Step os s (.stop k) ((s.closeSocket fd).setStop k .resetting) (.closed fd)
  | stopResets {k} (pc : s.stops[k]? = some .resetting) :
      Step os s (.stop k) ({ s with listenFd := none }.setStop k .returning) .quiet
  | stopReturns {k} (pc : s.stops[k]? = some .returning) :
      Step os s (.stop k) ({ s with handlers := s.handlers.erase k }.setStop k .returned)
        (.stopReturned k)

variable {os : Platform} {s s' : Listener} {e : ListenerEvent}

theorem mainStep_inv {ok : Bool} (h : s.mainStep os ok = some (s', e)) :
    Step os s (.main ok) s' e := by
  cases hpc : s.start with
  | constructed =>
    cases ok with
    | false =>
      simp only [mainStep, hpc] at h
      cases h
      exact .socketFails hpc
    | true =>
      simp only [mainStep, hpc] at h
      cases h
      exact .socket hpc
  | top =>
    simp only [mainStep, hpc] at h
    split at h
    · rename_i hrunning
      cases h
      exact .iterate hpc hrunning
    · rename_i hrunning
      cases h
      exact .leave hpc (Bool.not_eq_true _ ▸ hrunning)
  | accepting fd wasOpen =>
    cases ok with
    | false =>
      simp only [mainStep, hpc] at h
      cases h
      exact .acceptFails hpc
    | true =>
      simp only [mainStep, hpc, if_true] at h
      split at h
      · rename_i hdeliver
        cases h
        exact .accept hpc hdeliver
      · cases h
  | done exit => simp [mainStep, hpc] at h
  | created fd =>
    simp only [mainStep, hpc] at h
    cases h
    exact .assign hpc
  | checkingSocket =>
    simp only [mainStep, hpc] at h
    cases h
    exact .checkSocket hpc
  | settingOption =>
    simp only [mainStep, hpc] at h
    cases h
    exact .setUp hpc (by decide)
  | binding =>
    simp only [mainStep, hpc] at h
    cases h
    exact .setUp hpc (by decide)
  | listening =>
    simp only [mainStep, hpc] at h
    cases h
    exact .setUp hpc (by decide)
  | storing =>
    simp only [mainStep, hpc] at h
    cases h
    exact .store hpc
  | buildingPool =>
    simp only [mainStep, hpc] at h
    cases h
    exact .buildPool hpc
  | calling =>
    simp only [mainStep, hpc] at h
    cases h
    exact .readFd hpc
  | entering fd =>
    simp only [mainStep, hpc] at h
    cases h
    exact .callAccept hpc
  | checking =>
    simp only [mainStep, hpc] at h
    cases h
    exact .recheck hpc
  | serving =>
    simp only [mainStep, hpc] at h
    cases h
    exact .served hpc
  | ended =>
    simp only [mainStep, hpc] at h
    cases h
    exact .shutDown hpc
  | testing =>
    simp only [mainStep, hpc] at h
    cases h
    exact .test hpc
  | closing exit =>
    simp only [mainStep, hpc] at h
    cases h
    exact .readForClose hpc
  | closingFd exit fd =>
    simp only [mainStep, hpc] at h
    cases h
    exact .close hpc
  | resetting exit =>
    simp only [mainStep, hpc] at h
    cases h
    exact .reset hpc

theorem stopStep_inv {k : Nat} (h : s.stopStep k = some (s', e)) : Step os s (.stop k) s' e := by
  cases hpc : s.stops[k]? with
  | none => simp [stopStep, hpc] at h
  | some pc =>
    cases pc with
    | returned => simp [stopStep, hpc] at h
    | entered =>
      simp only [stopStep, hpc] at h
      cases h
      exact .exchange hpc
    | testing =>
      simp only [stopStep, hpc] at h
      cases h
      exact .stopTests hpc
    | closing =>
      simp only [stopStep, hpc] at h
      cases h
      exact .stopReads hpc
    | closingFd fd =>
      simp only [stopStep, hpc] at h
      cases h
      exact .stopCloses hpc
    | resetting =>
      simp only [stopStep, hpc] at h
      cases h
      exact .stopResets hpc
    | returning =>
      simp only [stopStep, hpc] at h
      cases h
      exact .stopReturns hpc

theorem step_eq_some_iff {a : ListenerAction} :
    s.step os a = some (s', e) ↔ s.isOnTop a = true ∧ s.move os a = some (s', e) :=
  Option.ite_none_right_eq_some

/-- **Every step has one of these outcomes.** -/
theorem step_inv {a : ListenerAction} (h : s.step os a = some (s', e)) : Step os s a s' e := by
  have hmove := (step_eq_some_iff.mp h).2
  cases a with
  | main ok => exact mainStep_inv hmove
  | callStop =>
    cases hmove
    exact .callStop
  | signal =>
    cases hmove
    exact .signal
  | stop k => exact stopStep_inv hmove

/-- What takes a step has nothing on top of it. -/
theorem isOnTop_of_step {a : ListenerAction} (h : s.step os a = some (s', e)) :
    s.isOnTop a = true := (step_eq_some_iff.mp h).1

/-- `start()` takes a step only with no handler on its thread. -/
theorem handlers_of_isOnTop {ok : Bool} (h : s.isOnTop (.main ok) = true) : s.handlers = [] :=
  of_decide_eq_true h

end Listener

/-- The server's listening socket on the platform `os`, from the constructor on. -/
def listenerMachine (os : Platform) : Machine Listener ListenerAction ListenerEvent where
  init := {}
  step := Listener.step os

end HttpServer
