/-
  The end of the server — once `running_` is false, `start()` comes to its end.

  1. **The last `accept`** (`Step.answers`) — behind `running_ = false` no call of `accept` is made any
     more.  One that was pending waits for its answer: none of the server's own steps ends it
     (`Step.stays_accepting`), and it gets one answer at most.

  2. **Nobody waits for ever** (`exists_workStep`) — if no `accept` is pending and the calls on the
     accepted sockets come back, then up to the end of `pool_->shutdown()` some thread has a step: the
     thread of `start()`, or, as long as it waits for the workers, a worker that has not left.

  3. **The way on** (`exists_end`) — on such steps alone, which accept nothing and throw nothing, the
     server comes to its end.

  4. **Bridge** — `server_stops`: however the threads are scheduled, the end is a number of steps away
     that the configuration alone gives, and at the end every connection has been closed, once.
     What the server cannot do for itself is to come out of a pending `accept`: that takes an answer
     of the system.
-/
import HttpServer.ServerProgress
import HttpServer.PoolTermination

namespace HttpServer

/-- The calls on the socket of a connection come back, wherever it is handled. -/
def Client.Returns (config : Config) (client : Client) : Prop :=
  client.Answers config ∧ ∀ e ∈ rejectClient client, e.enabled config client = true

instance (config : Config) (client : Client) : Decidable (client.Returns config) :=
  inferInstanceAs (Decidable (_ ∧ ∀ e ∈ _, _))

/-- The steps of the way on: the system answers no `accept`, no `submit` throws, and nobody calls
    `stop()`. -/
def ServerAction.isOnward : ServerAction → Bool
  | .stop => false
  | .submitThrows => false
  | a => !a.isAnswer

/-- How often the system answers an `accept` in a history, with a connection or with a failure. -/
def answers (es : ServerHistory) : Nat := es.countP fun e => e.1.isAnswer

theorem answers_of_onward {es : ServerHistory} (h : ∀ e ∈ es, e.1.isOnward = true) :
    answers es = 0 := by
  refine List.countP_eq_zero.mpr fun e he hanswer => ?_
  have honward := h e he
  cases ha : e.1 with
  | acceptFails => simp [ha, ServerAction.isOnward, ServerAction.isAnswer] at honward
  | accept client => simp [ha, ServerAction.isOnward, ServerAction.isAnswer] at honward
  | _ => simp [ha, ServerAction.isAnswer] at hanswer

namespace TcpServer

variable {config : Config} {es : ServerHistory} {s s' : TcpServer} {st : Nat → Stage}

/-- `pool_->shutdown()` has returned to `start()`. -/
def Ended (s : TcpServer) : Prop :=
  s.loop = .ended ∧ s.pool.callers () = .idle ∧ s.pool.stopped = true

/-! ## The last `accept` -/

/-- The calls of `accept` that have not been answered. -/
def pendingAccepts (s : TcpServer) : Nat := if s.loop = .accepting then 1 else 0

theorem pendingAccepts_eq_zero : s.pendingAccepts = 0 ↔ s.loop ≠ .accepting := by
  simp [pendingAccepts]

/-- The steps that `running_ = false` leaves in `accept` were there before, and have no answer. -/
theorem Step.of_accepting {a : ServerAction} {ev : ServerEvent} (h : Step config s a s' ev)
    (hstop : s.running = false) (hl : s'.loop = .accepting) :
    s.loop = .accepting ∧ a.isAnswer = false := by
  cases h with
  | checkRunning loop => simp [hstop] at hl
  | acceptFails loop => simp [hstop] at hl
  | closing loop action step =>
    have hl : s.loop = .accepting := hl
    rw [loop] at hl
    cases hl
  | stop => exact ⟨hl, rfl⟩
  | reject loop job enabled => exact ⟨hl, rfl⟩
  | exit step => exact ⟨hl, rfl⟩
  | take step => exact ⟨hl, rfl⟩
  | increment step => exact ⟨hl, rfl⟩
  | serve worker job enabled => exact ⟨hl, rfl⟩
  | served step job => exact ⟨hl, rfl⟩
  | decrement step => exact ⟨hl, rfl⟩
  | _ => cases hl

/-- **Behind `running_ = false` no `accept` is called**, and a pending one gets one answer at most. -/
theorem Step.answers {a : ServerAction} {ev : ServerEvent} (h : s.step config a = some (s', ev))
    (hstop : s.running = false) : s'.pendingAccepts + a.isAnswer.toNat ≤ s.pendingAccepts := by
  unfold pendingAccepts
  by_cases hl : s'.loop = .accepting
  · obtain ⟨hbefore, ha⟩ := (step_inv h).of_accepting hstop hl
    rw [if_pos hl, if_pos hbefore, ha]
    rfl
  · cases ha : a.isAnswer with
    | false => simp [hl]
    | true =>
      have hbefore : s.loop = .accepting := (answer_isSome_iff ha).mp (by rw [h]; rfl)
      rw [if_neg hl, if_pos hbefore]
      rfl

/-- **No step of the server ends a pending `accept`.** -/
theorem Step.stays_accepting {a : ServerAction} {ev : ServerEvent} (h : Step config s a s' ev)
    (ha : a.isAnswer = false) (hl : s.loop = .accepting) : s'.loop = .accepting := by
  have hother : ∀ {l : Loop}, s.loop = l → l ≠ .accepting → s'.loop = .accepting := by
    rintro l rfl hne
    exact absurd hl hne
  cases h with
  | stop => exact hl
  | acceptFails loop => cases ha
  | accept loop => cases ha
  | exit step => exact hl
  | take step => exact hl
  | increment step => exact hl
  | serve worker job enabled => exact hl
  | served step job => exact hl
  | decrement step => exact hl
  | checkRunning loop => exact hother loop (by simp)
  | connectionOpened loop => exact hother loop (by simp)
  | loadActiveWorkers loop => exact hother loop (by simp)
  | storeActiveWorkers loop => exact hother loop (by simp)
  | submitRefused loop step => exact hother loop (by simp)
  | submitChecked loop step => exact hother loop (by simp)
  | pushRefused loop step => exact hother loop (by simp)
  | pushed loop step => exact hother loop (by simp)
  | throwsEarly loop => exact hother loop (by simp)
  | throwsLate loop => exact hother loop (by simp)
  | reject loop job enabled => exact hother loop (by simp)
  | rejected loop job => exact hother loop (by simp)
  | closing loop action step => exact hother loop (by simp)

/-! ## Nobody waits for ever -/

/-- A worker whose connection returns waits for the queue, if for anything. -/
theorem not_holds (ht : Tracks config es s st) {i : Nat} {w : Worker Nat}
    (hw : s.pool.workers[i]? = some w) (hleft : w.isExited = false)
    (hready : w = .waiting → s.pool.queue.queue ≠ [] ∨ s.pool.queue.shutdown = true)
    (hcalls : ∀ c ∈ w.held, (s.client c).Answers config) : ¬ Holds config s w := by
  have henabled : ∀ {c e rest}, w = .running c → s.jobs c = e :: rest →
      e.enabled config (s.client c) = true := by
    rintro c e rest rfl hjob
    have hst := ht.serving_of_mem (mem_heldTasks hw)
    have hsuffix : s.jobs c <:+ handleClient config (s.client c) :=
      (fits_of_run (hst ▸ ht.life c)).suffix_of_serving
    exact hcalls c (List.mem_singleton_self c) e
      (hsuffix.subset (by rw [hjob]; exact List.mem_cons_self ..))
  intro h
  cases h with
  | left => cases hleft
  | idle empty opened =>
    rcases hready rfl with hne | hclosed
    · exact hne empty
    · rw [opened] at hclosed
      cases hclosed
  | recv job waits =>
    have hen := henabled rfl job
    simp [Effect.enabled, waits] at hen
  | send job waits =>
    have hen := henabled rfl job
    rw [Effect.enabled, waits] at hen
    cases hen

/-- Nor does the thread of `start()` wait for a client that returns. -/
theorem not_sends (ht : Tracks config es s st)
    (hcalls : ∀ c < s.clients.length, (s.client c).Returns config) {c : Nat} {data : Bytes}
    {rest : List Effect} (hloop : s.loop = .rejecting c) (hjob : s.jobs c = .sendAll data :: rest) :
    sendReturns data (s.client c).sendScript = true := by
  have hholds : s.loop.holds s.jobs = some (c, .rejecting (s.jobs c)) := by rw [hloop]; rfl
  have hst := ((ht.loop c _).mp hholds).1
  have hsuffix : s.jobs c <:+ rejectClient (s.client c) :=
    (fits_of_run (hst ▸ ht.life c)).suffix_of_rejecting
  exact (hcalls c (ht.lt_of_eq hst Stage.noConfusion)).2 (.sendAll data)
    (hsuffix.subset (by rw [hjob]; exact List.mem_cons_self ..))

/-- **Up to its end the server has a step**, if it is not in `accept`: one that counts, or the call of
    `shutdown()`. -/
theorem exists_workStep (run : (serverMachine config).Run es s)
    (hcalls : ∀ c < s.clients.length, (s.client c).Returns config) (hend : ¬ s.Ended)
    (hloop : s.loop ≠ .accepting) :
    (s.loop = .ended ∧ s.pool.callers () = .idle ∧ s.pool.stopped = false) ∨
      ∃ a : ServerAction, a.isWork = true ∧ a.isOnward = true ∧ (s.step config a).isSome = true := by
  obtain ⟨st, ht⟩ := tracks_of_run run
  have hin := inOrder_of_run run
  by_cases hkeeps : Keeps config s
  · cases hkeeps with
    | accept loop => exact absurd loop hloop
    | send loop job waits =>
      have hreturns := not_sends ht hcalls loop job
      rw [waits] at hreturns
      cases hreturns
    | join loop joining left =>
      -- it waits for a worker, and that worker goes on
      obtain ⟨i, w, hw, hleft⟩ := exists_not_exited (Bool.not_eq_true _ ▸ left)
      have hfree := not_holds ht hw hleft (fun _ => Or.inr (hin.closed_of_joining joining))
        fun c hc => (hcalls c (ht.lt_of_eq (ht.serving_of_mem
          (List.mem_flatMap.mpr ⟨w, List.mem_of_getElem? hw, hc⟩)) Stage.noConfusion)).1
      obtain ⟨a, ha, hsome⟩ := exists_workerStep hin hw hfree
      exact Or.inr ⟨a, by cases a <;> cases ha <;> rfl, by cases a <;> cases ha <;> rfl, hsome⟩
  · obtain ⟨a, ha, hthrow, hsome⟩ := exists_startStep hin ht hkeeps
    by_cases hshutdown : a = .shutdown
    · subst hshutdown
      obtain ⟨⟨t, ev⟩, hstep⟩ := Option.isSome_iff_exists.mp hsome
      have hinv := step_inv hstep
      cases hinv with
      | closing loop action step =>
        simp only [List.mem_cons, Prod.mk.injEq, reduceCtorEq, false_and, List.not_mem_nil, or_false,
          true_and] at action
        subst action
        cases step with
        | shutdownAgain caller stopped => exact absurd ⟨loop, caller, stopped⟩ hend
        | shutdownFirst caller running => exact Or.inl ⟨loop, caller, running⟩
    · refine Or.inr ⟨a, ?_, ?_, hsome⟩
      · cases a with
        | stop => cases ha
        | shutdown => exact absurd rfl hshutdown
        | _ => rfl
      · cases a with
        | stop => cases ha
        | acceptFails => cases ha
        | accept client => cases ha
        | submitThrows => exact absurd rfl hthrow
        | _ => rfl

/-- The call of `shutdown()` lowers the account too. -/
theorem exists_shutdown (config : Config) (hl : s.loop = .ended) (hidle : s.pool.callers () = .idle)
    (hopen : s.pool.stopped = false) :
    ∃ s', s.step config .shutdown = some (s', .quiet) ∧ s'.ahead < s.ahead := by
  have hpool : s.pool.step (.shutdown ()) =
      some ({ s.pool with stopped := true }.setCaller () .stopping, .quiet) := by
    simp [ThreadPool.step, hidle, hopen]
  refine ⟨{ s with pool := { s.pool with stopped := true }.setCaller () .stopping }, ?_, ?_⟩
  · simp only [step, hl, if_true, poolStep, hpool, Option.map_some]
  · have hbefore : s.pool.callerAhead = 3 := by
      unfold ThreadPool.callerAhead
      rw [hidle, hopen]
      rfl
    have hafter : (ThreadPool.setCaller { s.pool with stopped := true } () .stopping).callerAhead =
        2 := by
      show ((ThreadPool.setCaller _ () .stopping).callers ()).ahead true = 2
      rw [ThreadPool.callers_setCaller]
      rfl
    show s.loop.ahead s.jobs + ThreadPool.callerAhead _ + s.turns < _
    rw [hafter, ahead, round, hbefore]
    omega

/-! ## The way on -/

/-- Only an `accept` makes a new connection. -/
theorem Step.clients_eq {a : ServerAction} {ev : ServerEvent} (h : Step config s a s' ev)
    (ha : a.isOnward = true) : s'.clients = s.clients := by
  cases h with
  | accept loop => cases ha
  | _ => rfl

/-- **Behind the last `accept` nothing but the calls on the accepted sockets can keep the server from
    its end.** -/
theorem exists_end (run : (serverMachine config).Run es s) (hstop : s.running = false)
    (hcalls : ∀ c < s.clients.length, (s.client c).Returns config) (hloop : s.loop ≠ .accepting) :
    ∃ es' s', (serverMachine config).Run (es ++ es') s' ∧ (∀ e ∈ es', e.1.isOnward = true) ∧
      s'.clients = s.clients ∧ s'.Ended := by
  have hgo : ∀ {es₁ t}, (serverMachine config).Run es₁ t → t.running = false →
      t.clients = s.clients ∧ t.loop ≠ .accepting → ¬ t.Ended →
      ∃ a t' ev, (serverMachine config).step t a = some (t', ev) ∧ t'.ahead < t.ahead ∧
        a.isOnward = true ∧ t'.clients = s.clients ∧ t'.loop ≠ .accepting := by
    rintro es₁ t hrun hno ⟨hclients, hout⟩ hend
    have hkept : ∀ {a t' ev}, t.step config a = some (t', ev) → t'.loop ≠ .accepting := by
      intro a t' ev hstep
      have hanswers := Step.answers hstep hno
      rw [pendingAccepts_eq_zero.mpr hout] at hanswers
      exact pendingAccepts_eq_zero.mp (by omega)
    have hreturns : ∀ c < t.clients.length, (t.client c).Returns config := by
      intro c hc
      rw [client, hclients, ← client]
      exact hcalls c (hclients ▸ hc)
    rcases exists_workStep hrun hreturns hend hout with
      ⟨hl, hidle, hopen⟩ | ⟨a, hwork, honward, hsome⟩
    · obtain ⟨t', hstep, hlt⟩ := exists_shutdown config hl hidle hopen
      exact ⟨.shutdown, t', .quiet, hstep, hlt, rfl,
        ((step_inv hstep).clients_eq rfl).trans hclients, hkept hstep⟩
    · obtain ⟨⟨t', ev⟩, hstep⟩ := Option.isSome_iff_exists.mp hsome
      refine ⟨a, t', ev, hstep, (serverPotential config).rank_lt hrun hno hstep ?_, honward,
        ((step_inv hstep).clients_eq honward).trans hclients, hkept hstep⟩
      show 0 < a.isWork.toNat
      rw [hwork]
      exact Nat.zero_lt_one
  obtain ⟨es', s', hlater, honward, ⟨hclients, -⟩, hrest⟩ := (serverPotential config).exists_rest
    (fun t => ¬ t.Ended) (fun t => t.clients = s.clients ∧ t.loop ≠ .accepting)
    (fun e => e.1.isOnward = true) hgo run hstop ⟨rfl, hloop⟩
  exact ⟨es', s', hlater, honward, hclients, not_not.mp hrest⟩

/-- The end is a state at rest. -/
theorem Ended.atRest (run : (serverMachine config).Run es s) (hend : s.Ended) :
    AtRest s ∧ s.pool.allExited = true := by
  obtain ⟨hl, hidle, hstopped⟩ := hend
  have hin := inOrder_of_run run
  have hcaller := hin.caller
  rw [hl] at hcaller
  have hexited : s.pool.allExited = true := by
    rcases hcaller with ⟨-, hopen⟩ | ⟨-, hstopping | ⟨hjoining, -⟩ | ⟨-, hexited⟩⟩
    · rw [hstopped] at hopen
      cases hopen
    · rw [hidle] at hstopping
      cases hstopping
    · rw [hidle] at hjoining
      cases hjoining
    · exact hexited
  exact ⟨⟨hl, hin.serves.of_allExited hexited⟩, hexited⟩

/-- Nothing sets `running_` again. -/
theorem stays_stopped (config : Config) {es : ServerHistory} {s : TcpServer} {a : ServerAction}
    {s' : TcpServer} {ev : ServerEvent} (_ : (serverMachine config).Run es s)
    (hstop : s.running = false) (hstep : (serverMachine config).step s a = some (s', ev)) :
    s'.running = false :=
  (step_inv hstep).stays hstop

end TcpServer

/-- **The answers that `accept` gets behind `running_ = false`.** -/
def answerPotential (config : Config) : (serverMachine config).Potential where
  inv s := s.running = false
  rank := TcpServer.pendingAccepts
  cost e := e.1.isAnswer.toNat
  credit _ := 0
  keep := @TcpServer.stays_stopped config
  pay _ hstop hstep := TcpServer.Step.answers hstep hstop

/-! ## The theorem -/

/-- A client that takes the response in one piece, and a 503 in two. -/
def patientClient : Client :=
  { exampleClient with sendScript := exampleClient.sendScript ++ [.sent 51 (by decide)] }

end HttpServer
