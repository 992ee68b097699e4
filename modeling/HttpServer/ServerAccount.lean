/-
  The account of the server — what its threads have in front of them once `running_` is false.

  1. **Parts** — the rest of a round of the accept loop, the three steps of `pool_->shutdown()`, a
     turn for each queued connection, and the turns under way with the effects that are left of each
     (`TcpServer.ahead`).

  2. **The step (`Step.pays`)** — every step but a `stop()` and a repeated `shutdown()` takes one off.
     A connection that is accepted, queued, taken or rejected is paid for by the round it comes from,
     and there is no further round, since `running_` is read between two of them.

  3. **The bound (`ahead_le`)** — in a reachable state the account is at most what the capacity of the
     queue and the number of workers give.
-/
import HttpServer.ServiceOrder
import HttpServer.Lib.Potential

namespace HttpServer

open TcpServer (Step InOrder CallerAt)

/-! ## The account -/

/-- The steps that count: not a `stop()`, which another thread makes as often as it likes, and not a
    call of `shutdown()`, since all of them but the first return at once. -/
def ServerAction.isWork : ServerAction → Bool
  | .stop => false
  | .shutdown => false
  | _ => true

/-- Which worker takes the step. -/
def ServerAction.worker : ServerAction → Option Nat
  | .waitAndPop i => some i
  | .increment i => some i
  | .serve i => some i
  | .served i => some i
  | .decrement i => some i
  | _ => none

/-- How many steps of a history count. -/
def workSteps (es : ServerHistory) : Nat := es.countP fun e => e.1.isWork

/-- In front of the thread of `start()`, up to the end of its loop. -/
def Loop.ahead (jobs : Nat → List Effect) : Loop → Nat
  | .accepting => 19
  | .accepted _ => 18
  | .opened _ => 17
  | .loaded _ _ => 16
  | .submitting _ => 15
  | .pushing _ => 14
  | .rejecting c => (jobs c).length + 2
  | .top => 1
  | .ended => 0

/-- In front of it then. -/
def Caller.ahead (stopped : Bool) : Caller Nat → Nat
  | .idle => if stopped then 0 else 3
  | .submitting _ => 3
  | .stopping => 2
  | .joining => 1

/-- In front of the thread of `start()` while it is in a call on the pool. -/
def ThreadPool.callerAhead (pool : ThreadPool Unit Nat) : Nat :=
  (pool.callers ()).ahead pool.stopped

/-- In front of a worker, without the effects of its connection. -/
def Worker.turnAhead : Worker Nat → Nat
  | .popped _ => 4
  | .running _ => 3
  | .caught => 3
  | .finished => 2
  | .waiting => 1
  | .exited => 0

namespace TcpServer

/-- The effects in front of the workers. -/
def effectsAhead (jobs : Nat → List Effect) (held : List Nat) : Nat :=
  (held.map fun c => (jobs c).length).sum

/-- The turns of the queued connections, and those under way. -/
def turnsAhead (jobs : Nat → List Effect) (queued : Nat) (workers : List (Worker Nat)) : Nat :=
  12 * queued + (workers.map Worker.turnAhead).sum + effectsAhead jobs (workers.flatMap Worker.held)

/-- In front of the workers. -/
def turns (s : TcpServer) : Nat := turnsAhead s.jobs s.pool.queue.queue.length s.pool.workers

/-- In front of the thread of `start()`. -/
def round (s : TcpServer) : Nat := s.loop.ahead s.jobs + s.pool.callerAhead

/-- All the steps that the server has in front of it, whatever comes. -/
def ahead (s : TcpServer) : Nat := s.round + s.turns

theorem effectsAhead_perm (jobs : Nat → List Effect) {held held' : List Nat}
    (h : held.Perm held') : effectsAhead jobs held = effectsAhead jobs held' :=
  (h.map _).sum_eq

theorem effectsAhead_append (jobs : Nat → List Effect) (held held' : List Nat) :
    effectsAhead jobs (held ++ held') = effectsAhead jobs held + effectsAhead jobs held' := by
  rw [effectsAhead, List.map_append, List.sum_append, ← effectsAhead, ← effectsAhead]

theorem effectsAhead_cons (jobs : Nat → List Effect) (c : Nat) (held : List Nat) :
    effectsAhead jobs (c :: held) = (jobs c).length + effectsAhead jobs held := rfl

/-- The effects of a connection that no worker has do not count. -/
theorem effectsAhead_update {jobs : Nat → List Effect} {c : Nat} {held : List Nat}
    (h : c ∉ held) (rest : List Effect) :
    effectsAhead (Function.update jobs c rest) held = effectsAhead jobs held := by
  unfold effectsAhead
  refine congrArg List.sum (List.map_congr_left fun d hd => ?_)
  have hne : d ≠ c := by
    rintro rfl
    exact h hd
  rw [Function.update_of_ne hne]

/-- The effects of a connection that one worker has count once. -/
theorem effectsAhead_update_of_count (jobs : Nat → List Effect) {c : Nat} {held : List Nat}
    (h : held.count c = 1) (rest : List Effect) :
    effectsAhead (Function.update jobs c rest) held + (jobs c).length =
      effectsAhead jobs held + rest.length := by
  have hmem : c ∈ held := List.count_pos_iff.mp (by omega)
  have hperm := List.perm_cons_erase hmem
  have hnot : c ∉ held.erase c := by
    refine List.count_eq_zero.mp ?_
    rw [List.count_erase_self]
    omega
  rw [effectsAhead_perm _ hperm, effectsAhead_perm _ hperm, effectsAhead_cons, effectsAhead_cons,
    effectsAhead_update hnot, Function.update_self]
  omega

/-- The loop looks at the effects of the connection that it rejects only. -/
theorem ahead_loop_update {loop : Loop} {jobs : Nat → List Effect} {c : Nat}
    (h : loop ≠ .rejecting c) (rest : List Effect) :
    loop.ahead (Function.update jobs c rest) = loop.ahead jobs := by
  cases loop with
  | rejecting d =>
    have hne : d ≠ c := by
      rintro rfl
      exact h rfl
    show (Function.update jobs c rest d).length + 2 = (jobs d).length + 2
    rw [Function.update_of_ne hne]
  | _ => rfl

theorem turnsAhead_update {jobs : Nat → List Effect} {c : Nat} {workers : List (Worker Nat)}
    (h : c ∉ workers.flatMap Worker.held) (queued : Nat) (rest : List Effect) :
    turnsAhead (Function.update jobs c rest) queued workers = turnsAhead jobs queued workers := by
  rw [turnsAhead, effectsAhead_update h, ← turnsAhead]

/-- A queued connection is a turn. -/
theorem turnsAhead_succ (jobs : Nat → List Effect) (queued : Nat) (workers : List (Worker Nat)) :
    turnsAhead jobs (queued + 1) workers = turnsAhead jobs queued workers + 12 := by
  unfold turnsAhead
  omega

theorem turnsAhead_set (jobs : Nat → List Effect) (queued : Nat) {workers : List (Worker Nat)}
    {i : Nat} {w : Worker Nat} (h : workers[i]? = some w) (w' : Worker Nat) :
    turnsAhead jobs queued (workers.set i w') + (w.turnAhead + effectsAhead jobs w.held) =
      turnsAhead jobs queued workers + (w'.turnAhead + effectsAhead jobs w'.held) := by
  have hsum := Slots.sum_map_set_add (f := Worker.turnAhead) h w'
  have hperm : (w.held ++ (workers.set i w').flatMap Worker.held).Perm
      (w'.held ++ workers.flatMap Worker.held) := Slots.flatMap_set_perm h w'
  have hheld := effectsAhead_perm jobs hperm
  rw [effectsAhead_append, effectsAhead_append] at hheld
  unfold turnsAhead
  omega

end TcpServer

/-! ## What is left of a connection -/

theorem length_rejectClient (client : Client) : (rejectClient client).length = 4 := rfl

theorem length_handleClient_le (config : Config) (client : Client) :
    (handleClient config client).length ≤ 8 := by
  have hrespond : ∀ raw, (respond config client raw).length ≤ 4 := by
    intro raw
    rcases respond_cases config client raw with
      ⟨-, hrespond⟩ | ⟨-, outcome, data, tail, -, htail, hrespond⟩
    · rw [hrespond]
      decide
    · rw [hrespond]
      rcases htail with rfl | rfl <;> simp
  rw [handleClient, List.length_append]
  have hfour : [Effect.recordRequest, .loadQueueSize, .storeQueueSize, .recvRequest].length = 4 := rfl
  split
  · rename_i raw _ _
    have hle := hrespond raw
    omega
  · decide

/-- An end of a life that consists of effects is an end of the effects of that life. -/
theorem suffix_of_append {w front : List ConnEvent} {rest effects : List Effect}
    (h : w ++ rest.map .effect = front ++ effects.map .effect)
    (hfront : ∀ e, ConnEvent.effect e ∉ front) : rest <:+ effects := by
  have hinj : Function.Injective (List.map ConnEvent.effect) :=
    List.map_injective_iff.mpr fun _ _ heq => ConnEvent.effect.inj heq
  rcases List.append_eq_append_iff.mp h with ⟨l, hl, hrest⟩ | ⟨l, -, hrest⟩
  · -- no effect stands in front of the first one
    have hnil : l = [] := by
      refine List.eq_nil_iff_forall_not_mem.mpr fun ev hev => ?_
      have hin : ev ∈ rest.map ConnEvent.effect := by
        rw [hrest]
        exact List.mem_append_left _ hev
      obtain ⟨e, -, rfl⟩ := List.mem_map.mp hin
      exact hfront e (hl ▸ List.mem_append_right _ hev)
    rw [hnil, List.nil_append] at hrest
    exact ⟨[], hinj hrest⟩
  · obtain ⟨l₁, l₂, heq, -, hl₂⟩ := List.map_eq_append_iff.mp hrest
    exact ⟨l₁, by rw [heq, hinj hl₂]⟩

/-- **What is left of a worker's code is the end of `handle_client`.** -/
theorem Fits.suffix_of_serving {config : Config} {client : Client} {w : List ConnEvent}
    {rest : List Effect} (h : Fits config client w (.serving rest)) :
    rest <:+ handleClient config client :=
  suffix_of_append (show w ++ rest.map .effect =
    [.accepted, .opened, .handed, .taken] ++ (handleClient config client).map .effect
      from h.behind) (by simp)

/-- And what is left of the 503 branch is the end of it. -/
theorem Fits.suffix_of_rejecting {config : Config} {client : Client} {w : List ConnEvent}
    {rest : List Effect} (h : Fits config client w (.rejecting rest)) :
    rest <:+ rejectClient client :=
  suffix_of_append (show w ++ rest.map .effect =
    [.accepted, .opened, .rejected] ++ (rejectClient client).map .effect from h.behind) (by simp)

/-! ## Every step is paid for -/

namespace TcpServer

variable {config : Config} {es : ServerHistory} {s s' : TcpServer} {st : Nat → Stage}
  {a : ServerAction} {ev : ServerEvent}

/-- A connection that the loop holds is with no worker. -/
theorem notMem_held (h : Tracks config es s st) {c : Nat} {x : Stage}
    (hloop : s.loop.holds s.jobs = some (c, x)) : c ∉ s.pool.heldTasks := by
  intro hmem
  obtain ⟨rfl, hin⟩ := (h.loop c x).mp hloop
  rw [h.serving_of_mem hmem] at hin
  cases hin

/-- A connection of a worker is not the one that the loop rejects. -/
theorem ne_rejecting (h : Tracks config es s st) {c : Nat} (hc : (st c).inLoop = false) :
    s.loop ≠ .rejecting c := by
  intro hloop
  have hholds : s.loop.holds s.jobs = some (c, .rejecting (s.jobs c)) := by rw [hloop]; rfl
  obtain ⟨hst, hin⟩ := (h.loop c _).mp hholds
  rw [hst, hin] at hc
  cases hc

/-- The steps of a worker that its connection does not see. -/
theorem turns_of_worker {pool : ThreadPool Unit Nat} {i : Nat} {w w' : Worker Nat}
    (hw : s.pool.workers[i]? = some w) (hworkers : pool.workers = s.pool.workers.set i w')
    (hlt : w'.turnAhead + effectsAhead s.jobs w'.held < w.turnAhead + effectsAhead s.jobs w.held)
    (hqueue : pool.queue = s.pool.queue) :
    ({ s with pool := pool } : TcpServer).turns + 1 ≤ s.turns := by
  have hset := turnsAhead_set s.jobs s.pool.queue.queue.length hw w'
  show turnsAhead s.jobs pool.queue.queue.length pool.workers + 1 ≤
    turnsAhead s.jobs s.pool.queue.queue.length s.pool.workers
  rw [hqueue, hworkers]
  omega

/-- `running_` is never set again. -/
theorem Step.stays (h : Step config s a s' ev) (hstop : s.running = false) :
    s'.running = false := by
  cases h with
  | stop => rfl
  | _ => exact hstop

/-- **What a step does to the turns**: a step of a worker takes one off, and a connection that is
    handed over is a turn more. -/
theorem Step.turns (h : Step config s a s' ev) (ht : Tracks config es s st) :
    s'.turns + a.worker.toList.length ≤ s.turns + 12 * (handedConn (a, ev)).toList.length := by
  cases h with
  | submitRefused loop step =>
    cases step with
    | submitStopped caller stopped =>
      exact Nat.le_of_eq (turnsAhead_update (notMem_held ht (by rw [loop]; rfl)) _ _)
  | submitChecked loop step =>
    cases step with
    | submitChecked caller running => exact Nat.le_refl _
  | pushRefused loop step =>
    cases step with
    | pushFull caller full =>
      exact Nat.le_of_eq (turnsAhead_update (notMem_held ht (by rw [loop]; rfl)) _ _)
  | @pushed c pool task loop step =>
    cases step with
    | @pushRoom t task caller room =>
      show turnsAhead s.jobs (s.pool.queue.queue ++ [task]).length s.pool.workers + 0 ≤
        turnsAhead s.jobs s.pool.queue.queue.length s.pool.workers + 12 * 1
      rw [List.length_append, List.length_singleton, turnsAhead_succ]
  | throwsEarly loop =>
    exact Nat.le_of_eq (turnsAhead_update (notMem_held ht (by rw [loop]; rfl)) _ _)
  | throwsLate loop =>
    exact Nat.le_of_eq (turnsAhead_update (notMem_held ht (by rw [loop]; rfl)) _ _)
  | reject loop job enabled =>
    exact Nat.le_of_eq (turnsAhead_update (notMem_held ht (by rw [loop]; rfl)) _ _)
  | closing loop action step =>
    simp only [List.mem_cons, Prod.mk.injEq, List.not_mem_nil, or_false] at action
    rcases action with ⟨rfl, rfl⟩ | ⟨rfl, rfl⟩ | ⟨rfl, rfl⟩
    · cases step with
      | shutdownAgain caller stopped => exact Nat.le_refl _
      | shutdownFirst caller running => exact Nat.le_refl _
    · cases step with
      | closeQueue caller => exact Nat.le_refl _
    · cases step with
      | join caller exited => exact Nat.le_refl _
  | exit step =>
    cases step with
    | exit worker empty closed => exact turns_of_worker worker rfl (Nat.lt_succ_self _) rfl
  | @take i c pool step =>
    cases step with
    | @pop j task rest worker front =>
      have hst : st c = .queued := ht.queued_of_mem (by rw [front]; exact List.mem_cons_self ..)
      have hnot : c ∉ s.pool.workers.flatMap Worker.held := by
        intro hmem
        have hserving := ht.serving_of_mem hmem
        rw [hst] at hserving
        cases hserving
      have hjob := length_handleClient_le config (s.client c)
      have hself : Function.update s.jobs c (handleClient config (s.client c)) c =
          handleClient config (s.client c) := Function.update_self ..
      have hset := turnsAhead_set (Function.update s.jobs c (handleClient config (s.client c)))
        rest.length worker (.popped c)
      have hpopped : (Worker.popped c).turnAhead +
          effectsAhead (Function.update s.jobs c (handleClient config (s.client c)))
            (Worker.popped c).held = 4 + (handleClient config (s.client c)).length := by
        show 4 + ((Function.update s.jobs c (handleClient config (s.client c)) c).length + 0) = _
        rw [hself, Nat.add_zero]
      have hwaiting : (Worker.waiting : Worker Nat).turnAhead +
          effectsAhead (Function.update s.jobs c (handleClient config (s.client c)))
            (Worker.waiting : Worker Nat).held = 1 := rfl
      rw [hpopped, hwaiting, turnsAhead_update hnot] at hset
      -- the turn leaves the queue and goes to the worker
      show turnsAhead (Function.update s.jobs c (handleClient config (s.client c))) rest.length
          (s.pool.workers.set i (.popped c)) + 1 ≤
        turnsAhead s.jobs s.pool.queue.queue.length s.pool.workers + 0
      rw [front, List.length_cons, turnsAhead_succ]
      omega
  | increment step =>
    cases step with
    | @increment j task worker =>
      refine turns_of_worker worker rfl ?_ rfl
      show 3 + effectsAhead s.jobs [task] < 4 + effectsAhead s.jobs [task]
      omega
  | @serve i c e rest worker job enabled =>
    have hst := ht.serving_of_mem (mem_heldTasks worker)
    have hone : (s.pool.workers.flatMap Worker.held).count c = 1 := by
      have hcount := ht.held c
      rw [hst] at hcount
      exact hcount
    have heffects := effectsAhead_update_of_count s.jobs hone rest
    rw [job, List.length_cons] at heffects
    show turnsAhead (Function.update s.jobs c rest) s.pool.queue.queue.length s.pool.workers + 1 ≤
      turnsAhead s.jobs s.pool.queue.queue.length s.pool.workers + 0
    unfold turnsAhead
    omega
  | @served i c pool outcome step job =>
    cases step with
    | run outcome worker =>
      refine turns_of_worker worker rfl ?_ rfl
      show 2 + 0 < 3 + effectsAhead s.jobs [c]
      omega
  | decrement step =>
    cases step with
    | decrement worker => exact turns_of_worker worker rfl (Nat.lt_succ_self _) rfl
  | _ => exact Nat.le_refl _

/-- The steps of the accept loop that the pool does not see. -/
theorem round_of_loop {m n k : Nat} (hloop : s.loop.ahead s.jobs = m)
    (hloop' : s'.loop.ahead s'.jobs = n) (hlt : n + k ≤ m) (hpool : s'.pool = s.pool) :
    s'.round + k ≤ s.round := by
  unfold round
  rw [hloop, hloop', hpool]
  omega

/-- The steps of the accept loop with a step of the caller. -/
theorem round_of_caller {m n p q k : Nat} (hloop : s.loop.ahead s.jobs = m)
    (hloop' : s'.loop.ahead s'.jobs = n) (hcaller : s.pool.callerAhead = p)
    (hcaller' : s'.pool.callerAhead = q) (hlt : n + q + k ≤ m + p) : s'.round + k ≤ s.round := by
  unfold round
  rw [hloop, hloop', hcaller, hcaller']
  exact hlt

/-- The loop into the 503 branch has four effects in front. -/
theorem ahead_enterReject (s : TcpServer) (c : Nat) :
    (s.enterReject c).loop.ahead (s.enterReject c).jobs = 6 := by
  show (Function.update s.jobs c (rejectClient (s.client c)) c).length + 2 = 6
  rw [Function.update_self, length_rejectClient]

/-- **What a step does to the round**, once `running_` is false: a step of the thread of `start()`
    takes one off, and one that hands over a connection pays for the turn. -/
theorem Step.round_le (h : Step config s a s' ev) (ht : Tracks config es s st)
    (hc : CallerAt s.loop s.pool) (hstop : s.running = false) :
    s'.round + ((a.isWork && a.worker.isNone).toNat + 12 * (handedConn (a, ev)).toList.length) ≤
      s.round := by
  have hidle : ∀ {pool : ThreadPool Unit Nat}, pool.stopped = false →
      (pool.setCaller () .idle).callerAhead = 3 := by
    intro pool hopen
    show ((pool.setCaller () .idle).callers ()).ahead pool.stopped = 3
    rw [ThreadPool.callers_setCaller, hopen]
    rfl
  have hsubmitting : ∀ {c}, s.loop = .pushing c → s.pool.callerAhead = 3 := by
    intro c hl
    rw [hl] at hc
    unfold ThreadPool.callerAhead
    rw [hc.1]
    rfl
  -- a worker does not touch the thread of `start()`
  have hworker : ∀ {pool : ThreadPool Unit Nat} {jobs : Nat → List Effect},
      pool.callers = s.pool.callers → pool.stopped = s.pool.stopped →
      s.loop.ahead jobs = s.loop.ahead s.jobs →
      s.loop.ahead jobs + pool.callerAhead + 0 ≤ s.round := by
    intro pool jobs hcallers hstopped hjobs
    unfold round ThreadPool.callerAhead
    rw [hcallers, hstopped, hjobs]
    exact Nat.le_refl _
  cases h with
  | stop => exact Nat.le_refl _
  | checkRunning loop =>
    refine round_of_loop (m := 1) (n := 0) (by rw [loop]; rfl) ?_ (Nat.le_refl 1) rfl
    show (if s.running then Loop.accepting else .ended).ahead s.jobs = 0
    rw [hstop]
    rfl
  | acceptFails loop =>
    refine round_of_loop (m := 19) (n := 0) (by rw [loop]; rfl) ?_ (Nat.le_add_left 1 18) rfl
    show (if s.running then Loop.top else .ended).ahead s.jobs = 0
    rw [hstop]
    rfl
  | accept loop => exact round_of_loop (by rw [loop]; rfl) rfl (Nat.le_refl 19) rfl
  | connectionOpened loop => exact round_of_loop (by rw [loop]; rfl) rfl (Nat.le_refl 18) rfl
  | loadActiveWorkers loop => exact round_of_loop (by rw [loop]; rfl) rfl (Nat.le_refl 17) rfl
  | storeActiveWorkers loop => exact round_of_loop (by rw [loop]; rfl) rfl (Nat.le_refl 16) rfl
  | submitRefused loop step =>
    cases step with
    | submitStopped caller stopped =>
      exact round_of_loop (m := 15) (by rw [loop]; rfl) (ahead_enterReject _ _)
        (Nat.le_add_left 7 8) rfl
  | submitChecked loop step =>
    cases step with
    | submitChecked caller running =>
      refine round_of_caller (m := 15) (n := 14) (p := 3) (q := 3) (by rw [loop]; rfl) rfl ?_ ?_
        (Nat.le_refl 18)
      · unfold ThreadPool.callerAhead
        rw [caller, running]
        rfl
      · show ((s.pool.setCaller () _).callers ()).ahead s.pool.stopped = 3
        rw [ThreadPool.callers_setCaller]
        rfl
  | pushRefused loop step =>
    have hbefore := hsubmitting loop
    rw [loop] at hc
    cases step with
    | pushFull caller full =>
      exact round_of_caller (m := 14) (by rw [loop]; rfl) (ahead_enterReject _ _) hbefore (hidle hc.2)
        (Nat.le_add_left 10 7)
  | pushed loop step =>
    have hbefore := hsubmitting loop
    rw [loop] at hc
    cases step with
    | pushRoom caller room =>
      exact round_of_caller (m := 14) (n := 1) (by rw [loop]; rfl) rfl hbefore
        (hidle hc.2) (Nat.le_refl 17)
  | throwsEarly loop =>
    exact round_of_loop (m := 15) (by rw [loop]; rfl) (ahead_enterReject _ _) (Nat.le_add_left 7 8) rfl
  | throwsLate loop =>
    have hbefore := hsubmitting loop
    rw [loop] at hc
    exact round_of_caller (m := 14) (by rw [loop]; rfl) (ahead_enterReject _ _) hbefore (hidle hc.2)
      (Nat.le_add_left 10 7)
  | @reject c e rest loop job enabled =>
    have hself : Function.update s.jobs c rest c = rest := Function.update_self ..
    refine round_of_loop (m := (s.jobs c).length + 2) (n := rest.length + 2) (by rw [loop]; rfl)
      ?_ ?_ rfl
    · show s.loop.ahead (Function.update s.jobs c rest) = _
      rw [loop]
      show (Function.update s.jobs c rest c).length + 2 = _
      rw [hself]
    · show rest.length + 2 + 1 ≤ (s.jobs c).length + 2
      rw [job, List.length_cons]
  | @rejected c loop job =>
    refine round_of_loop (m := 2) (n := 1) ?_ rfl (Nat.le_refl 2) rfl
    rw [loop]
    show (s.jobs c).length + 2 = 2
    rw [job]
    rfl
  | closing loop action step =>
    rw [loop] at hc
    have hloop : s.loop.ahead s.jobs = 0 := by rw [loop]; rfl
    simp only [List.mem_cons, Prod.mk.injEq, List.not_mem_nil, or_false] at action
    rcases action with ⟨rfl, rfl⟩ | ⟨rfl, rfl⟩ | ⟨rfl, rfl⟩
    · cases step with
      | shutdownAgain caller stopped => exact Nat.le_refl _
      | shutdownFirst caller running =>
        refine round_of_caller (p := 3) (q := 2) hloop hloop ?_ ?_ (Nat.le_add_left 2 1)
        · unfold ThreadPool.callerAhead
          rw [caller, running]
          rfl
        · show ((ThreadPool.setCaller _ () .stopping).callers ()).ahead true = 2
          rw [ThreadPool.callers_setCaller]
          rfl
    · cases step with
      | closeQueue caller =>
        refine round_of_caller (p := 2) (q := 1) hloop hloop ?_ ?_ (Nat.le_refl 2)
        · unfold ThreadPool.callerAhead
          rw [caller]
          rfl
        · show ((ThreadPool.setCaller _ () .joining).callers ()).ahead s.pool.stopped = 1
          rw [ThreadPool.callers_setCaller]
          rfl
    · cases step with
      | join caller exited =>
        have hstopped : s.pool.stopped = true := by
          rcases hc with ⟨hcaller, -⟩ | ⟨hstopped, -⟩
          · rw [hcaller] at caller
            cases caller
          · exact hstopped
        refine round_of_caller (p := 1) (q := 0) hloop hloop ?_ ?_ (Nat.le_refl 1)
        · unfold ThreadPool.callerAhead
          rw [caller]
          rfl
        · show ((s.pool.setCaller () .idle).callers ()).ahead s.pool.stopped = 0
          rw [ThreadPool.callers_setCaller, hstopped]
          rfl
  | exit step =>
    cases step with
    | exit worker empty closed => exact hworker rfl rfl rfl
  | @take i c pool step =>
    cases step with
    | pop worker front =>
      have hst : st c = .queued := ht.queued_of_mem (by rw [front]; exact List.mem_cons_self ..)
      exact hworker rfl rfl (ahead_loop_update (ne_rejecting ht (by rw [hst]; rfl)) _)
  | increment step =>
    cases step with
    | increment worker => exact hworker rfl rfl rfl
  | serve worker job enabled =>
    have hst := ht.serving_of_mem (mem_heldTasks worker)
    exact hworker rfl rfl (ahead_loop_update (ne_rejecting ht (by rw [hst]; rfl)) _)
  | served step job =>
    cases step with
    | run outcome worker => exact hworker rfl rfl rfl
  | decrement step =>
    cases step with
    | decrement worker => exact hworker rfl rfl rfl

/-- **A step takes one off the account.** -/
theorem Step.pays (h : Step config s a s' ev) (ht : Tracks config es s st)
    (hc : CallerAt s.loop s.pool) (hstop : s.running = false) :
    s'.ahead + a.isWork.toNat ≤ s.ahead := by
  have hturns := h.turns ht
  have hround := h.round_le ht hc hstop
  have hcost : a.isWork.toNat = (a.isWork && a.worker.isNone).toNat + a.worker.toList.length := by
    cases a <;> rfl
  unfold ahead
  omega

end TcpServer

namespace TcpServer

variable {config : Config} {es : ServerHistory} {s : TcpServer}

/-! ## How much there is at most -/

/-- A worker has twelve steps in front of it, with the effects that are left. -/
theorem turnsAhead_le (jobs : Nat → List Effect) (queued : Nat) {workers : List (Worker Nat)}
    (h : ∀ c ∈ workers.flatMap Worker.held, (jobs c).length ≤ 8) :
    turnsAhead jobs queued workers ≤ 12 * (queued + workers.length) := by
  have hworkers : (workers.map Worker.turnAhead).sum +
      effectsAhead jobs (workers.flatMap Worker.held) ≤ 12 * workers.length := by
    induction workers with
    | nil => exact Nat.le_refl _
    | cons w workers ih =>
      rw [List.flatMap_cons] at h
      have hrest := ih fun c hc => h c (List.mem_append_right _ hc)
      have hone : w.turnAhead + effectsAhead jobs w.held ≤ 12 := by
        cases w with
        | popped c =>
          have hc := h c (List.mem_append_left _ (List.mem_singleton_self c))
          show 4 + ((jobs c).length + 0) ≤ 12
          omega
        | running c =>
          have hc := h c (List.mem_append_left _ (List.mem_singleton_self c))
          show 3 + ((jobs c).length + 0) ≤ 12
          omega
        | caught => exact Nat.le_add_right 3 9
        | finished => exact Nat.le_add_right 2 10
        | waiting => exact Nat.le_add_right 1 11
        | exited => exact Nat.zero_le _
      rw [List.map_cons, List.sum_cons, List.flatMap_cons, effectsAhead_append, List.length_cons]
      omega
  unfold turnsAhead
  omega

/-- **The account of a reachable state**, by the configuration alone. -/
theorem ahead_le (run : (serverMachine config).Run es s) :
    s.ahead ≤ 12 * (config.queueCapacity + ThreadPool.workerCount config.threadCount) + 22 := by
  obtain ⟨st, ht⟩ := tracks_of_run run
  have hserves := (inOrder_of_run run).serves
  have hloop : s.loop.ahead s.jobs ≤ 19 := by
    cases hl : s.loop with
    | rejecting c =>
      have hholds : s.loop.holds s.jobs = some (c, .rejecting (s.jobs c)) := by rw [hl]; rfl
      have hfits := fits_of_run (ht.life c)
      rw [((ht.loop c _).mp hholds).1] at hfits
      have hlength := hfits.suffix_of_rejecting.length_le
      rw [length_rejectClient] at hlength
      show (s.jobs c).length + 2 ≤ 19
      omega
    | _ => simp [Loop.ahead]
  have hcaller : s.pool.callerAhead ≤ 3 := by
    unfold ThreadPool.callerAhead
    cases s.pool.callers () with
    | idle => cases s.pool.stopped <;> decide
    | submitting task => exact Nat.le_refl 3
    | stopping => exact Nat.le_add_right 2 1
    | joining => exact Nat.le_add_right 1 2
  have hjobs : ∀ c ∈ s.pool.workers.flatMap Worker.held, (s.jobs c).length ≤ 8 := by
    intro c hc
    have hfits := fits_of_run (ht.life c)
    rw [ht.serving_of_mem hc] at hfits
    exact hfits.suffix_of_serving.length_le.trans (length_handleClient_le config (s.client c))
  have hturns := turnsAhead_le s.jobs s.pool.queue.queue.length hjobs
  have hroom := hserves.room
  rw [hserves.count] at hturns
  unfold ahead round turns
  omega

end TcpServer

/-- **The steps of a server that has been told to stop.** -/
def serverPotential (config : Config) : (serverMachine config).Potential where
  inv s := s.running = false
  rank := TcpServer.ahead
  cost e := e.1.isWork.toNat
  credit _ := 0
  keep _ hstop hstep := (TcpServer.step_inv hstep).stays hstop
  pay run hstop hstep := by
    obtain ⟨st, ht⟩ := tracks_of_run run
    exact (TcpServer.step_inv hstep).pays ht (inOrder_of_run run).caller hstop

end HttpServer
