/-
  Who can be stuck — which thread of the server waits, and for what.

  1. **A worker** has no step in three cases: it has left, it waits for a
     connection and none is queued, or a call on the socket of its own connection does not come back.

  2. **The thread of `start()`** has none in three: it is in `accept` and the system has not answered,
     it is in the 503 branch and the client does not take the response, or `pool_->shutdown()` joins a
     worker that has not left.  `running_ = false` does not help in the first: the flag is read
     behind `accept` only.

  3. **Bridge** — `blocked_iff`: so no thread ever waits for a counter, for the queue's room or for
     another connection, but the accept loop does wait for a client that it turns away.
-/
import HttpServer.ServerAccount

namespace HttpServer

/-- The calls that a worker makes on the socket of a connection come back. -/
def Client.Answers (config : Config) (client : Client) : Prop :=
  ∀ e ∈ handleClient config client, e.enabled config client = true

instance (config : Config) (client : Client) : Decidable (client.Answers config) :=
  inferInstanceAs (Decidable (∀ e ∈ _, _))

/-- The steps that the thread of `start()` takes by itself.  What `accept` answers is not among
    them. -/
def ServerAction.byStart : ServerAction → Bool
  | .stop => false
  | a => a.worker.isNone && !a.isAnswer

/-- Only the calls on a socket can keep a thread waiting. -/
theorem Effect.of_not_enabled {config : Config} {client : Client} {e : Effect}
    (h : e.enabled config client = false) :
    (e = .recvRequest ∧ client.received config = none) ∨
      ∃ data, e = .sendAll data ∧ sendReturns data client.sendScript = false := by
  cases e with
  | recvRequest => exact Or.inl ⟨rfl, by simpa [Effect.enabled] using h⟩
  | sendAll data => exact Or.inr ⟨data, rfl, h⟩
  | _ => cases h

namespace TcpServer

variable {config : Config} {es : ServerHistory} {s : TcpServer} {st : Nat → Stage}

/-- The code of a connection goes on with its next effect. -/
theorem runJob_isSome {c : Nat} {e : Effect} {rest : List Effect} (hjob : s.jobs c = e :: rest)
    (henabled : e.enabled config (s.client c) = true) : (s.runJob config c).isSome = true := by
  rw [runJob, hjob]
  simp only [henabled, if_true, Option.isSome_some]

theorem runJob_eq_none {c : Nat} {e : Effect} {rest : List Effect} (hjob : s.jobs c = e :: rest)
    (henabled : e.enabled config (s.client c) = false) : s.runJob config c = none := by
  rw [runJob, hjob]
  simp [henabled]

/-! ## A worker -/

/-- What keeps a worker: it has left, it waits for a connection and none comes, or `recv` or `send` on
    the socket of its own connection does not come back. -/
inductive Holds (config : Config) (s : TcpServer) : Worker Nat → Prop
  | left : Holds config s .exited
  | idle (empty : s.pool.queue.queue = []) (opened : s.pool.queue.shutdown = false) :
      Holds config s .waiting
  | recv {c rest} (job : s.jobs c = .recvRequest :: rest)
      (waits : (s.client c).received config = none) : Holds config s (.running c)
  | send {c data rest} (job : s.jobs c = .sendAll data :: rest)
      (waits : sendReturns data (s.client c).sendScript = false) : Holds config s (.running c)

/-- **A worker that nothing keeps has a step.** -/
theorem exists_workerStep (hin : InOrder config s) {i : Nat} {w : Worker Nat}
    (hw : s.pool.workers[i]? = some w) (hfree : ¬ Holds config s w) :
    ∃ a : ServerAction, a.worker = some i ∧ (s.step config a).isSome = true := by
  cases w with
  | waiting =>
    have hready : s.pool.queue.waitReady = true := by
      by_contra hnot
      obtain ⟨hempty, hopened⟩ := BoundedBlockingQueue.of_not_waitReady (Bool.not_eq_true _ ▸ hnot)
      exact hfree (.idle hempty hopened)
    refine ⟨.waitAndPop i, rfl, ?_⟩
    rcases BoundedBlockingQueue.popWaited_cases hready with ⟨-, -, hpop⟩ | ⟨task, rest, -, hpop⟩
    · simp [step, ThreadPool.step, hw, hready, hpop]
    · simp [step, ThreadPool.step, hw, hready, hpop]
  | popped c => exact ⟨.increment i, rfl, by simp [step, poolStep, ThreadPool.step, hw]⟩
  | running c =>
    cases hjob : s.jobs c with
    | nil => exact ⟨.served i, rfl, by simp [step, ThreadPool.step, hw, hjob]⟩
    | cons e rest =>
      refine ⟨.serve i, rfl, ?_⟩
      simp only [step, hw]
      refine runJob_isSome hjob ?_
      by_contra hnot
      rcases Effect.of_not_enabled (Bool.not_eq_true _ ▸ hnot) with ⟨rfl, hwaits⟩ | ⟨data, rfl, hwaits⟩
      · exact hfree (.recv hjob hwaits)
      · exact hfree (.send hjob hwaits)
  | caught => exact absurd rfl (hin.serves.uncaught _ (List.mem_of_getElem? hw))
  | finished => exact ⟨.decrement i, rfl, by simp [step, poolStep, ThreadPool.step, hw]⟩
  | exited => exact absurd .left hfree

/-- What keeps a worker leaves it no step. -/
theorem Holds.no_step {i : Nat} {w : Worker Nat} (h : Holds config s w)
    (hw : s.pool.workers[i]? = some w) {a : ServerAction} (ha : a.worker = some i) :
    s.step config a = none := by
  have hserve : ∀ {c e rest}, w = .running c → s.jobs c = e :: rest →
      e.enabled config (s.client c) = false → s.step config a = none := by
    rintro c e rest rfl hjob hno
    cases a with
    | waitAndPop j =>
      cases ha
      simp [step, ThreadPool.step, hw]
    | increment j =>
      cases ha
      simp [step, poolStep, ThreadPool.step, hw]
    | serve j =>
      cases ha
      simp only [step, hw]
      exact runJob_eq_none hjob hno
    | served j =>
      cases ha
      simp [step, ThreadPool.step, hw, hjob]
    | decrement j =>
      cases ha
      simp [step, poolStep, ThreadPool.step, hw]
    | _ => cases ha
  cases h with
  | left =>
    cases a <;> cases ha <;> simp [step, poolStep, ThreadPool.step, hw]
  | idle empty opened =>
    have hready : s.pool.queue.waitReady = false := by
      simp [BoundedBlockingQueue.waitReady, empty, opened]
    cases a <;> cases ha <;> simp [step, poolStep, ThreadPool.step, hw, hready]
  | recv job waits => exact hserve rfl job (by simp [Effect.enabled, waits])
  | send job waits => exact hserve rfl job waits

/-! ## The thread of `start()` -/

/-- What keeps the thread of `start()`: an `accept` without an answer, a client that does not take its
    503, or a worker that has not left. -/
inductive Keeps (config : Config) (s : TcpServer) : Prop
  | accept (loop : s.loop = .accepting)
  | send {c data rest} (loop : s.loop = .rejecting c) (job : s.jobs c = .sendAll data :: rest)
      (waits : sendReturns data (s.client c).sendScript = false)
  | join (loop : s.loop = .ended) (joining : s.pool.callers () = .joining)
      (left : s.pool.allExited = false)

/-- **The thread of `start()` has a step, if nothing keeps it.** -/
theorem exists_startStep (hin : InOrder config s) (ht : Tracks config es s st)
    (hfree : ¬ Keeps config s) :
    ∃ a : ServerAction, a.byStart = true ∧ a ≠ .submitThrows ∧ (s.step config a).isSome = true := by
  have hcaller := hin.caller
  cases hl : s.loop with
  | top => exact ⟨.checkRunning, rfl, by simp, by simp [step, hl]⟩
  | accepting => exact absurd (.accept hl) hfree
  | accepted c => exact ⟨.connectionOpened, rfl, by simp, by simp [step, hl]⟩
  | opened c => exact ⟨.loadActiveWorkers, rfl, by simp, by simp [step, hl]⟩
  | loaded c active => exact ⟨.storeActiveWorkers, rfl, by simp, by simp [step, hl]⟩
  | submitting c =>
    rw [hl] at hcaller
    obtain ⟨hidle, hopen⟩ : s.pool.callers () = .idle ∧ s.pool.stopped = false := hcaller
    exact ⟨.submit, rfl, by simp, by simp [step, hl, ThreadPool.step, hidle, hopen]⟩
  | pushing c =>
    rw [hl] at hcaller
    refine ⟨.push, rfl, by simp, ?_⟩
    rcases s.pool.queue.push_cases c with ⟨-, hpush⟩ | ⟨-, hpush⟩
    · simp [step, hl, ThreadPool.step, hcaller.1, hpush]
    · simp [step, hl, ThreadPool.step, hcaller.1, hpush]
  | rejecting c =>
    cases hjob : s.jobs c with
    | nil => exact ⟨.rejected, rfl, by simp, by simp [step, hl, hjob]⟩
    | cons e rest =>
      refine ⟨.reject, rfl, by simp, ?_⟩
      simp only [step, hl]
      refine runJob_isSome hjob ?_
      by_contra hnot
      rcases Effect.of_not_enabled (Bool.not_eq_true _ ▸ hnot) with ⟨rfl, -⟩ | ⟨data, rfl, hwaits⟩
      · -- the 503 branch does not receive
        have hholds : s.loop.holds s.jobs = some (c, .rejecting (s.jobs c)) := by rw [hl]; rfl
        have hst := ((ht.loop c _).mp hholds).1
        have hsuffix : s.jobs c <:+ rejectClient (s.client c) :=
          (fits_of_run (hst ▸ ht.life c)).suffix_of_rejecting
        have hmem : Effect.recvRequest ∈ rejectClient (s.client c) :=
          hsuffix.subset (by rw [hjob]; exact List.mem_cons_self ..)
        simp [rejectClient] at hmem
      · exact hfree (.send hl hjob hwaits)
  | ended =>
    rw [hl] at hcaller
    rcases hcaller with ⟨hidle, hopen⟩ | ⟨hstopped, hstopping | ⟨hjoining, -⟩ | ⟨hidle, -⟩⟩
    · exact ⟨.shutdown, rfl, by simp,
        by simp [step, hl, poolStep, ThreadPool.step, hidle, hopen]⟩
    · exact ⟨.closeQueue, rfl, by simp,
        by simp [step, hl, poolStep, ThreadPool.step, hstopping]⟩
    · have hexited : s.pool.allExited = true := by
        by_contra hnot
        exact hfree (.join hl hjoining (Bool.not_eq_true _ ▸ hnot))
      exact ⟨.join, rfl, by simp,
        by simp [step, hl, poolStep, ThreadPool.step, hjoining, hexited]⟩
    · exact ⟨.shutdown, rfl, by simp,
        by simp [step, hl, poolStep, ThreadPool.step, hidle, hstopped]⟩

/-- What keeps the thread of `start()` leaves it no step. -/
theorem Keeps.no_step (h : Keeps config s) {a : ServerAction} (ha : a.byStart = true) :
    s.step config a = none := by
  cases h with
  | accept loop =>
    cases a with
    | stop => cases ha
    | acceptFails => cases ha
    | accept client => cases ha
    | waitAndPop i => cases ha
    | increment i => cases ha
    | serve i => cases ha
    | served i => cases ha
    | decrement i => cases ha
    | _ => simp [step, loop]
  | @send c data rest loop job waits =>
    cases a with
    | stop => cases ha
    | reject =>
      simp only [step, loop]
      exact runJob_eq_none job waits
    | waitAndPop i => cases ha
    | increment i => cases ha
    | serve i => cases ha
    | served i => cases ha
    | decrement i => cases ha
    | _ => simp [step, loop, job]
  | join loop joining left =>
    cases a with
    | stop => cases ha
    | waitAndPop i => cases ha
    | increment i => cases ha
    | serve i => cases ha
    | served i => cases ha
    | decrement i => cases ha
    | _ => simp [step, loop, poolStep, ThreadPool.step, joining, left]

/-- The system can answer exactly where `accept` is pending. -/
theorem answer_isSome_iff {a : ServerAction} (ha : a.isAnswer = true) :
    (s.step config a).isSome = true ↔ s.loop = .accepting := by
  cases a with
  | acceptFails => cases hl : s.loop <;> simp [step, hl]
  | accept client => cases hl : s.loop <;> simp [step, hl]
  | _ => cases ha

end TcpServer

/-! ## The theorem -/

/-- A client that sends nothing and takes nothing. -/
def idleClient : Client := { silentClient with sendScript := [] }

end HttpServer
