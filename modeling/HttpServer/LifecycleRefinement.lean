/-
  The server refines the lives of its connections.

  1. **The relation (`Tracks`)** — a stage for every connection, which its own history leads to, and
     which agrees with the place the server keeps it at: the thread of `start()` holds the one
     connection at a stage of the loop, the queue holds those that are queued, once each, and the
     workers hold those that are served, once each.

  2. **The step (`Tracks.advance`)** — an event of connection `c` moves `c` alone to its next stage,
     out of the place of the old one and into the place of the new one.  What is left to show for
     each step of the server is where `c` was and where it is.

  3. **Bridge** — `tracks_of_run`: in every state that a run reaches, some stages track it.  With
     `fits_of_run`, the history of each connection is then part of one of its lives.
-/
import HttpServer.ConnectionLifecycle
import HttpServer.PoolDrain
import HttpServer.Lib.KeyedHistory

namespace HttpServer

open KeyedHistory (ofKey)

/-! ## Histories -/

/-- A history of the server: the steps of a run, each with what it shows. -/
abbrev ServerHistory := List (ServerAction × ServerEvent)

/-- What a step does to a connection, if it does anything to one. -/
def connEvent : ServerAction × ServerEvent → Option (Nat × ConnEvent)
  | (_, .conn c e) => some (c, e)
  | (_, .quiet) => none

/-- What happened to the connections, in order. -/
def connHistory (es : ServerHistory) : List (Nat × ConnEvent) := es.filterMap connEvent

/-- What happened to connection `c`, in order. -/
def eventsOf (c : Nat) (es : ServerHistory) : List ConnEvent := ofKey c (connHistory es)

theorem connHistory_snoc_quiet (es : ServerHistory) (a : ServerAction) :
    connHistory (es ++ [(a, .quiet)]) = connHistory es := by
  rw [connHistory, Machine.filterMap_snoc]
  exact List.append_nil _

theorem connHistory_snoc_conn (es : ServerHistory) (a : ServerAction) (c : Nat) (e : ConnEvent) :
    connHistory (es ++ [(a, .conn c e)]) = connHistory es ++ [(c, e)] := by
  rw [connHistory, Machine.filterMap_snoc]
  rfl

/-! ## Places -/

/-- The connection that the thread of `start()` holds, and how far it is with it. -/
def Loop.holds (jobs : Nat → List Effect) : Loop → Option (Nat × Stage)
  | .accepted c => some (c, .accepted)
  | .opened c => some (c, .opened)
  | .loaded c _ => some (c, .opened)
  | .submitting c => some (c, .opened)
  | .pushing c => some (c, .opened)
  | .rejecting c => some (c, .rejecting (jobs c))
  | .top => none
  | .accepting => none
  | .ended => none

/-- The connection is in the hands of the thread of `start()`. -/
def Stage.inLoop : Stage → Bool
  | .accepted => true
  | .opened => true
  | .rejecting _ => true
  | _ => false

/-- It is in the queue of the pool. -/
def Stage.isQueued : Stage → Bool
  | .queued => true
  | _ => false

/-- It is with a worker. -/
def Stage.isServing : Stage → Bool
  | .serving _ => true
  | _ => false

/-- A stage of the loop has no place in the queue or with a worker. -/
theorem Stage.of_inLoop {st : Stage} (h : st.inLoop = true) :
    st.isQueued = false ∧ st.isServing = false ∧ st ≠ .fresh := by
  cases st with
  | accepted => exact ⟨rfl, rfl, Stage.noConfusion⟩
  | opened => exact ⟨rfl, rfl, Stage.noConfusion⟩
  | rejecting rest => exact ⟨rfl, rfl, Stage.noConfusion⟩
  | _ => cases h

/-- `Tracks config es s st` — the stages `st` agree with the histories and with the state. -/
structure Tracks (config : Config) (es : ServerHistory) (s : TcpServer) (st : Nat → Stage) :
    Prop where
  life : ∀ c, Stage.run config (s.client c) (eventsOf c es) = some (st c)
  fresh : ∀ c, st c = .fresh ↔ s.clients.length ≤ c
  loop : ∀ c x, s.loop.holds s.jobs = some (c, x) ↔ st c = x ∧ x.inLoop = true
  queue : ∀ c, s.pool.queue.queue.count c = if (st c).isQueued then 1 else 0
  held : ∀ c, s.pool.heldTasks.count c = if (st c).isServing then 1 else 0
  jobs : ∀ c rest, st c = .serving rest → s.jobs c = rest
  caller : ∀ c, s.loop = .pushing c → s.pool.callers () = .submitting c

/-- A step that no connection sees and that moves none. -/
theorem Tracks.quiet {config : Config} {es : ServerHistory} {s s' : TcpServer} {st : Nat → Stage}
    {a : ServerAction} (h : Tracks config es s st) (hclients : s'.clients = s.clients)
    (hjobs : s'.jobs = s.jobs) (hloop : s'.loop.holds s'.jobs = s.loop.holds s.jobs)
    (hqueue : s'.pool.queue.queue = s.pool.queue.queue)
    (hheld : s'.pool.heldTasks.Perm s.pool.heldTasks)
    (hcaller : ∀ c, s'.loop = .pushing c → s'.pool.callers () = .submitting c) :
    Tracks config (es ++ [(a, .quiet)]) s' st where
  life c := by
    rw [eventsOf, connHistory_snoc_quiet, TcpServer.client, hclients]
    exact h.life c
  fresh c := by
    rw [hclients]
    exact h.fresh c
  loop c x := by
    rw [hloop]
    exact h.loop c x
  queue c := by
    rw [hqueue]
    exact h.queue c
  held c := by
    rw [hheld.count_eq]
    exact h.held c
  jobs c rest hc := by
    rw [hjobs]
    exact h.jobs c rest hc
  caller := hcaller

/-- A place that `c` leaves with its old stage and enters with its new one. -/
theorem count_update {P : Stage → Bool} {st : Nat → Stage} {c : Nat} {x : Stage}
    {l l' : List Nat} (hl : ∀ d, l.count d = if P (st d) then 1 else 0)
    (hperm : ((if P (st c) then [c] else []) ++ l').Perm (l ++ if P x then [c] else [])) (d : Nat) :
    l'.count d = if P (Function.update st c x d) then 1 else 0 := by
  have hcount := hperm.count_eq d
  rw [List.count_append, List.count_append, hl d] at hcount
  by_cases hd : d = c
  · subst hd
    rw [Function.update_self]
    by_cases hold : P (st d) = true <;> by_cases hnew : P x = true <;>
      simp [hold, hnew] at hcount ⊢ <;> omega
  · rw [Function.update_of_ne hd]
    have hzero : ∀ b : Bool, (if b then [c] else []).count d = 0 := by
      intro b
      cases b
      · rfl
      · exact List.count_eq_zero.mpr (by simpa using hd)
    rw [hzero, hzero] at hcount
    omega

/-- The stage of a connection depends on what the connection meets only once it is accepted. -/
theorem Tracks.life_client {config : Config} {es : ServerHistory} {s s' : TcpServer}
    {st : Nat → Stage} (h : Tracks config es s st) {d : Nat}
    (hclient : d < s.clients.length → s'.client d = s.client d) :
    Stage.run config (s'.client d) (eventsOf d es) = some (st d) := by
  rcases Nat.lt_or_ge d s.clients.length with hd | hd
  · rw [hclient hd]
    exact h.life d
  · have hfresh := (h.fresh d).mpr hd
    have hw : eventsOf d es = [] := by
      have hbehind := (fits_of_run (h.life d)).behind
      rw [hfresh] at hbehind
      exact hbehind
    rw [hw, hfresh]
    rfl

/-- **The step**: an event of connection `c` moves `c` to its next stage, and nothing else. -/
theorem Tracks.advance {config : Config} {es : ServerHistory} {s s' : TcpServer}
    {st : Nat → Stage} {a : ServerAction} {c : Nat} {ev : ConnEvent} {x : Stage}
    (h : Tracks config es s st)
    (hclient : ∀ d < s.clients.length, s'.client d = s.client d)
    (hnew : ∀ d ≠ c, s'.clients.length ≤ d ↔ s.clients.length ≤ d) (hc : c < s'.clients.length)
    (hnext : (st c).next config (s'.client c) ev = some x)
    (hloop : ∀ d y, s'.loop.holds s'.jobs = some (d, y) ↔
      Function.update st c x d = y ∧ y.inLoop = true)
    (hqueue : ((if (st c).isQueued then [c] else []) ++ s'.pool.queue.queue).Perm
      (s.pool.queue.queue ++ if x.isQueued then [c] else []))
    (hheld : ((if (st c).isServing then [c] else []) ++ s'.pool.heldTasks).Perm
      (s.pool.heldTasks ++ if x.isServing then [c] else []))
    (hjobs : ∀ d ≠ c, s'.jobs d = s.jobs d) (hjob : ∀ rest, x = .serving rest → s'.jobs c = rest)
    (hcaller : ∀ c, s'.loop = .pushing c → s'.pool.callers () = .submitting c) :
    Tracks config (es ++ [(a, .conn c ev)]) s' (Function.update st c x) where
  life d := by
    rw [eventsOf, connHistory_snoc_conn]
    by_cases hd : d = c
    · subst hd
      rw [KeyedHistory.ofKey_snoc_self, Stage.run_snoc, ← eventsOf,
        h.life_client (hclient d), Function.update_self]
      exact hnext
    · rw [KeyedHistory.ofKey_snoc_ne (Ne.symm hd), Function.update_of_ne hd]
      exact h.life_client (hclient d)
  fresh d := by
    by_cases hd : d = c
    · subst hd
      rw [Function.update_self]
      exact iff_of_false (Stage.next_ne_fresh hnext) (Nat.not_le.mpr hc)
    · rw [Function.update_of_ne hd, hnew d hd]
      exact h.fresh d
  loop := hloop
  queue := count_update h.queue hqueue
  held := count_update h.held hheld
  jobs d rest hd := by
    by_cases hdc : d = c
    · subst hdc
      rw [Function.update_self] at hd
      exact hjob rest hd
    · rw [Function.update_of_ne hdc] at hd
      rw [hjobs d hdc]
      exact h.jobs d rest hd
  caller := hcaller

/-- The loop holds no connection but `c`, and goes on with `c` or lets it go. -/
theorem Tracks.loop_of_loop {config : Config} {es : ServerHistory} {s s' : TcpServer}
    {st : Nat → Stage} {c : Nat} {x : Stage} (h : Tracks config es s st)
    (honly : ∀ d y, s.loop.holds s.jobs = some (d, y) → d = c)
    (hafter : s'.loop.holds s'.jobs = if x.inLoop then some (c, x) else none) (d : Nat)
    (y : Stage) :
    s'.loop.holds s'.jobs = some (d, y) ↔ Function.update st c x d = y ∧ y.inLoop = true := by
  rw [hafter]
  by_cases hd : d = c
  · subst hd
    rw [Function.update_self]
    cases hx : x.inLoop with
    | true =>
      constructor
      · intro heq
        cases heq
        exact ⟨rfl, hx⟩
      · rintro ⟨rfl, -⟩
        rfl
    | false =>
      refine iff_of_false (by simp) ?_
      rintro ⟨rfl, hy⟩
      rw [hx] at hy
      cases hy
  · rw [Function.update_of_ne hd]
    refine iff_of_false (fun heq => ?_) (fun hy => hd (honly d y ((h.loop d y).mpr hy)))
    split at heq
    · cases heq
      exact hd rfl
    · cases heq

/-- A worker moves a connection that the loop does not hold. -/
theorem Tracks.loop_of_worker {config : Config} {es : ServerHistory} {s s' : TcpServer}
    {st : Nat → Stage} {c : Nat} {x : Stage} (h : Tracks config es s st)
    (hloop : s'.loop = s.loop) (hjobs : ∀ d ≠ c, s'.jobs d = s.jobs d)
    (hold : (st c).inLoop = false) (hnew : x.inLoop = false) (d : Nat) (y : Stage) :
    s'.loop.holds s'.jobs = some (d, y) ↔ Function.update st c x d = y ∧ y.inLoop = true := by
  have hnotc : ∀ y, s.loop.holds s.jobs ≠ some (c, y) := by
    intro y heq
    obtain ⟨rfl, hy⟩ := (h.loop c y).mp heq
    rw [hold] at hy
    cases hy
  have hsame : s'.loop.holds s'.jobs = s.loop.holds s.jobs := by
    rw [hloop]
    cases hl : s.loop with
    | rejecting d =>
      have hd : d ≠ c := by
        rintro rfl
        exact hnotc (.rejecting (s.jobs d)) (by rw [hl]; rfl)
      rw [Loop.holds, Loop.holds, hjobs d hd]
    | _ => rfl
  rw [hsame]
  by_cases hd : d = c
  · subst hd
    rw [Function.update_self]
    refine iff_of_false (hnotc y) ?_
    rintro ⟨rfl, hy⟩
    rw [hnew] at hy
    cases hy
  · rw [Function.update_of_ne hd]
    exact h.loop d y

/-! ## Where a connection is -/

theorem Tracks.queued_of_mem {config : Config} {es : ServerHistory} {s : TcpServer}
    {st : Nat → Stage} (h : Tracks config es s st) {c : Nat} (hc : c ∈ s.pool.queue.queue) :
    st c = .queued := by
  have hpos := List.count_pos_iff.mpr hc
  rw [h.queue c] at hpos
  cases hst : st c <;> simp [hst, Stage.isQueued] at hpos ⊢

theorem Tracks.serving_of_mem {config : Config} {es : ServerHistory} {s : TcpServer}
    {st : Nat → Stage} (h : Tracks config es s st) {c : Nat} (hc : c ∈ s.pool.heldTasks) :
    st c = .serving (s.jobs c) := by
  have hpos := List.count_pos_iff.mpr hc
  rw [h.held c] at hpos
  cases hst : st c with
  | serving rest => rw [h.jobs c rest hst]
  | _ => simp [hst, Stage.isServing] at hpos

theorem Tracks.lt_of_ne_fresh {config : Config} {es : ServerHistory} {s : TcpServer}
    {st : Nat → Stage} (h : Tracks config es s st) {c : Nat} (hc : st c ≠ .fresh) :
    c < s.clients.length := by
  by_contra hlt
  exact hc ((h.fresh c).mpr (Nat.not_lt.mp hlt))

theorem Tracks.lt_of_eq {config : Config} {es : ServerHistory} {s : TcpServer}
    {st : Nat → Stage} (h : Tracks config es s st) {c : Nat} {x : Stage} (hst : st c = x)
    (hx : x ≠ .fresh) : c < s.clients.length :=
  h.lt_of_ne_fresh (hst ▸ hx)

/-- The task that a worker is running is in its hands. -/
theorem mem_heldTasks {s : ThreadPool Unit Nat} {i c : Nat}
    (h : s.workers[i]? = some (.running c)) : c ∈ s.heldTasks :=
  List.mem_flatMap.mpr ⟨.running c, List.mem_of_getElem? h, List.mem_singleton_self c⟩

/-! ## The steps of the server -/

/-- A place that does not change, as `Tracks.advance` asks for it. -/
theorem perm_stay (l : List Nat) : ([] ++ l).Perm (l ++ []) := by
  rw [List.append_nil]
  exact List.Perm.refl l

/-- The thread of `start()` takes the connection it holds one event further, and the pool has no
    part in it. -/
theorem Tracks.advanceLoop {config : Config} {es : ServerHistory} {s s' : TcpServer}
    {st : Nat → Stage} {a : ServerAction} {c : Nat} {ev : ConnEvent} {x₀ x : Stage}
    (h : Tracks config es s st) (hholds : s.loop.holds s.jobs = some (c, x₀))
    (hclients : s'.clients = s.clients) (hnext : x₀.next config (s.client c) ev = some x)
    (hafter : s'.loop.holds s'.jobs = if x.inLoop then some (c, x) else none)
    (hqueued : x.isQueued = false) (hserving : x.isServing = false)
    (hqueue : s'.pool.queue.queue = s.pool.queue.queue)
    (hheld : s'.pool.heldTasks.Perm s.pool.heldTasks) (hjobs : ∀ d ≠ c, s'.jobs d = s.jobs d)
    (hcaller : ∀ c, s'.loop ≠ .pushing c) :
    ∃ st', Tracks config (es ++ [(a, .conn c ev)]) s' st' := by
  obtain ⟨rfl, hin⟩ := (h.loop c x₀).mp hholds
  obtain ⟨hnotqueued, hnotserving, hnotfresh⟩ := Stage.of_inLoop hin
  have hclient : ∀ d, s'.client d = s.client d := fun d => by
    rw [TcpServer.client, hclients, ← TcpServer.client]
  refine ⟨_, h.advance (x := x) (fun d _ => hclient d) (fun d _ => by rw [hclients]) ?_ ?_ ?_ ?_ ?_
    hjobs ?_ fun d hl => absurd hl (hcaller d)⟩
  · rw [hclients]
    exact h.lt_of_ne_fresh hnotfresh
  · rw [hclient]
    exact hnext
  · refine h.loop_of_loop (fun d y hd => ?_) hafter
    rw [hholds] at hd
    cases hd
    rfl
  · rw [hnotqueued, hqueued, hqueue]
    exact perm_stay _
  · rw [hnotserving, hserving]
    exact (perm_stay s'.pool.heldTasks).trans (hheld.append_right [])
  · rintro rest rfl
    cases hserving

/-- All ways into the 503 branch. -/
theorem Tracks.enterReject {config : Config} {es : ServerHistory} {s : TcpServer}
    {st : Nat → Stage} {a : ServerAction} {c : Nat} (h : Tracks config es s st)
    (pool : ThreadPool Unit Nat) (hloop : s.loop.holds s.jobs = some (c, .opened))
    (hqueue : pool.queue.queue = s.pool.queue.queue)
    (hheld : pool.heldTasks.Perm s.pool.heldTasks) :
    ∃ st', Tracks config (es ++ [(a, .conn c .rejected)]) ({ s with pool := pool }.enterReject c)
      st' := by
  have hself : Function.update s.jobs c (rejectClient (s.client c)) c = rejectClient (s.client c) :=
    Function.update_self ..
  refine h.advanceLoop (x := .rejecting (rejectClient (s.client c))) hloop rfl rfl ?_ rfl rfl hqueue
    hheld (fun d hd => Function.update_of_ne hd ..) (fun _ hl => Loop.noConfusion hl)
  show some (c, Stage.rejecting (Function.update s.jobs c (rejectClient (s.client c)) c)) = _
  rw [hself]
  rfl

/-- A step of the pool that moves no connection, from any place of the thread of `start()`. -/
theorem Tracks.poolQuiet {config : Config} {es : ServerHistory} {s : TcpServer}
    {st : Nat → Stage} {a : ServerAction} {pa : PoolAction Unit Nat} {e : PoolEvent Nat}
    {pool : ThreadPool Unit Nat} (h : Tracks config es s st) (hstep : s.pool.Step pa pool e)
    (haccepted : acceptedTask (pa, e) = none) (htaken : takenTask (pa, e) = none)
    (hexecuted : executedTask (pa, e) = none)
    (hcallers : s.loop = .ended ∨ pool.callers = s.pool.callers) :
    Tracks config (es ++ [(a, .quiet)]) { s with pool := pool } st := by
  obtain ⟨hqueue, hheld⟩ := hstep.same haccepted htaken hexecuted
  refine h.quiet rfl rfl rfl hqueue hheld fun c hl => ?_
  rcases hcallers with hended | hsame
  · rw [show s.loop = .pushing c from hl] at hended
    cases hended
  · rw [show ({ s with pool := pool } : TcpServer).pool.callers = s.pool.callers from hsame]
    exact h.caller c hl

/-- The next effect of the 503 branch. -/
theorem Tracks.reject {config : Config} {es : ServerHistory} {s : TcpServer} {st : Nat → Stage}
    {a : ServerAction} {c : Nat} {e : Effect} {rest : List Effect} (h : Tracks config es s st)
    (hloop : s.loop = .rejecting c) (hjob : s.jobs c = e :: rest)
    (henabled : e.enabled config (s.client c) = true) :
    ∃ st', Tracks config (es ++ [(a, .conn c (.effect e))]) (s.perform c e rest) st' := by
  have hholds : s.loop.holds s.jobs = some (c, .rejecting (e :: rest)) := by
    rw [hloop, Loop.holds, hjob]
  have hself : Function.update s.jobs c rest c = rest := Function.update_self ..
  refine h.advanceLoop (x := .rejecting rest) hholds rfl (if_pos ⟨rfl, henabled⟩) ?_ rfl rfl rfl
    (List.Perm.refl _) (fun d hd => Function.update_of_ne hd ..) ?_
  · show s.loop.holds (Function.update s.jobs c rest) = _
    rw [hloop, Loop.holds, hself]
    rfl
  · intro d hd
    rw [show s.loop = .pushing d from hd] at hloop
    cases hloop

/-- The next effect of `handle_client`. -/
theorem Tracks.serve {config : Config} {es : ServerHistory} {s : TcpServer} {st : Nat → Stage}
    {a : ServerAction} {i c : Nat} {e : Effect} {rest : List Effect} (h : Tracks config es s st)
    (hworker : s.pool.workers[i]? = some (.running c)) (hjob : s.jobs c = e :: rest)
    (henabled : e.enabled config (s.client c) = true) :
    ∃ st', Tracks config (es ++ [(a, .conn c (.effect e))]) (s.perform c e rest) st' := by
  have hst : st c = .serving (e :: rest) := by
    rw [h.serving_of_mem (mem_heldTasks hworker), hjob]
  have hjobs : ∀ d ≠ c, Function.update s.jobs c rest d = s.jobs d := fun d hd =>
    Function.update_of_ne hd ..
  refine ⟨_, h.advance (x := .serving rest) (fun _ _ => rfl) (fun _ _ => Iff.rfl)
    (h.lt_of_eq hst Stage.noConfusion) ?_
    (h.loop_of_worker rfl hjobs (by rw [hst]; rfl) rfl) ?_ ?_ hjobs ?_ h.caller⟩
  · rw [hst]
    exact if_pos ⟨rfl, henabled⟩
  · rw [hst]
    exact perm_stay _
  · rw [hst]
    exact List.perm_append_comm
  · rintro _ ⟨⟩
    exact Function.update_self ..

/-- **Every step of the server keeps the stages on track.** -/
theorem TcpServer.Step.tracks {config : Config} {es : ServerHistory} {s s' : TcpServer}
    {st : Nat → Stage} {a : ServerAction} {ev : ServerEvent}
    (hstep : TcpServer.Step config s a s' ev) (h : Tracks config es s st) :
    ∃ st', Tracks config (es ++ [(a, ev)]) s' st' := by
  cases hstep with
  | stop => exact ⟨st, h.quiet rfl rfl rfl rfl (List.Perm.refl _) h.caller⟩
  | checkRunning loop =>
    refine ⟨st, h.quiet rfl rfl ?_ rfl (List.Perm.refl _) fun c hl => ?_⟩
    · rw [loop]
      cases s.running <;> rfl
    · cases hr : s.running <;> simp [hr] at hl
  | acceptFails loop =>
    refine ⟨st, h.quiet rfl rfl ?_ rfl (List.Perm.refl _) fun c hl => ?_⟩
    · rw [loop]
      cases s.running <;> rfl
    · cases hr : s.running <;> simp [hr] at hl
  | @accept client loop =>
    have hst : st s.clients.length = .fresh := (h.fresh _).mpr (Nat.le_refl _)
    refine ⟨_, h.advance (x := .accepted) (fun d hd => ?_) (fun d hd => ?_) (by simp)
      (by rw [hst]; rfl)
      (h.loop_of_loop (fun d y hd => ?_) rfl) (by rw [hst]; exact perm_stay _)
      (by rw [hst]; exact perm_stay _) (fun _ _ => rfl) (fun _ hx => Stage.noConfusion hx)
      (fun _ hl => Loop.noConfusion hl)⟩
    · show (s.clients ++ [client])[d]?.getD default = _
      rw [List.getElem?_append_left hd]
      rfl
    · rw [List.length_append, List.length_singleton]
      omega
    · rw [loop] at hd
      cases hd
  | connectionOpened loop =>
    exact h.advanceLoop (x := .opened) (by rw [loop]; rfl) rfl rfl rfl rfl rfl rfl
      (List.Perm.refl _) (fun _ _ => rfl) (fun _ hl => Loop.noConfusion hl)
  | loadActiveWorkers loop =>
    refine ⟨st, h.quiet rfl rfl ?_ rfl (List.Perm.refl _) fun _ hl => Loop.noConfusion hl⟩
    rw [loop]
    rfl
  | storeActiveWorkers loop =>
    refine ⟨st, h.quiet rfl rfl ?_ rfl (List.Perm.refl _) fun _ hl => Loop.noConfusion hl⟩
    rw [loop]
    rfl
  | submitRefused loop step =>
    cases step with
    | submitStopped caller stopped =>
      exact h.enterReject s.pool (by rw [loop]; rfl) rfl (List.Perm.refl _)
  | @submitChecked c pool loop step =>
    have hcaller : pool.callers () = .submitting c := by
      cases step with
      | submitChecked caller running =>
        show Function.update s.pool.callers () (.submitting c) () = _
        exact Function.update_self ..
    obtain ⟨hqueue, hheld⟩ := step.same rfl rfl rfl
    refine ⟨st, h.quiet rfl rfl ?_ hqueue hheld fun d hl => ?_⟩
    · rw [loop]
      rfl
    · cases hl
      exact hcaller
  | pushRefused loop step =>
    obtain ⟨hqueue, hheld⟩ := step.same rfl rfl rfl
    exact h.enterReject _ (by rw [loop]; rfl) hqueue hheld
  | @pushed c pool task loop step =>
    have hholds : s.loop.holds s.jobs = some (c, .opened) := by rw [loop]; rfl
    have hst : st c = .opened := ((h.loop c _).mp hholds).1
    -- the pool pushes what its caller carries, and the caller carries what the loop holds
    have htask : task = c := by
      cases step with
      | pushRoom caller room =>
        rw [h.caller c loop] at caller
        cases caller
        rfl
    subst htask
    refine ⟨_, h.advance (x := .queued) (fun _ _ => rfl) (fun _ _ => Iff.rfl)
      (h.lt_of_eq hst Stage.noConfusion) (by rw [hst]; rfl)
      (h.loop_of_loop (fun d y hd => ?_) rfl) ?_ ?_ (fun _ _ => rfl)
      (fun _ hx => Stage.noConfusion hx) (fun _ hl => Loop.noConfusion hl)⟩
    · rw [hholds] at hd
      cases hd
      rfl
    · rw [hst]
      exact List.Perm.of_eq step.queue_eq
    · rw [hst]
      exact step.held_perm
  | throwsEarly loop =>
    exact h.enterReject s.pool (by rw [loop]; rfl) rfl (List.Perm.refl _)
  | throwsLate loop => exact h.enterReject _ (by rw [loop]; rfl) rfl (List.Perm.refl _)
  | reject loop job enabled => exact h.reject loop job enabled
  | rejected loop job =>
    exact h.advanceLoop (x := .done) (by rw [loop, Loop.holds, job]) rfl rfl rfl rfl rfl rfl
      (List.Perm.refl _) (fun _ _ => rfl) (fun _ hl => Loop.noConfusion hl)
  | closing loop action step =>
    refine ⟨st, ?_⟩
    simp only [List.mem_cons, Prod.mk.injEq, List.not_mem_nil, or_false] at action
    rcases action with ⟨-, rfl⟩ | ⟨-, rfl⟩ | ⟨-, rfl⟩ <;>
      exact h.poolQuiet step (by cases step <;> rfl) (by cases step <;> rfl)
        (by cases step <;> rfl) (Or.inl loop)
  | exit step =>
    refine ⟨st, h.poolQuiet step rfl rfl rfl (Or.inr ?_)⟩
    cases step
    rfl
  | @take i c pool step =>
    have hqueue := step.queue_eq
    have hmem : c ∈ s.pool.queue.queue := by
      have hin : c ∈ s.pool.queue.queue ++ [] := hqueue ▸ List.mem_cons_self ..
      rwa [List.append_nil] at hin
    -- the front of the queue goes from the queue into the hands of the worker
    have hst : st c = .queued := h.queued_of_mem hmem
    have hjobs : ∀ d ≠ c,
        Function.update s.jobs c (handleClient config (s.client c)) d = s.jobs d := fun d hd =>
      Function.update_of_ne hd ..
    refine ⟨_, h.advance (x := .serving (handleClient config (s.client c))) (fun _ _ => rfl)
      (fun _ _ => Iff.rfl) (h.lt_of_eq hst Stage.noConfusion)
      (by rw [hst]; rfl)
      (h.loop_of_worker rfl hjobs (by rw [hst]; rfl) rfl) ?_ ?_ hjobs ?_ ?_⟩
    · rw [hst]
      exact List.Perm.of_eq hqueue
    · rw [hst]
      exact step.held_perm
    · rintro _ ⟨⟩
      exact Function.update_self ..
    · cases step
      exact h.caller
  | increment step =>
    refine ⟨st, h.poolQuiet step (by cases step; rfl) (by cases step; rfl) (by cases step; rfl)
      (Or.inr ?_)⟩
    cases step
    rfl
  | serve worker job enabled => exact h.serve worker job enabled
  | @served i c pool outcome step job =>
    have hmem : c ∈ s.pool.heldTasks := by
      cases step with
      | run outcome worker => exact mem_heldTasks worker
    -- the task has returned, so the connection is in no worker's hands any more
    have hst : st c = .serving [] := by rw [h.serving_of_mem hmem, job]
    refine ⟨_, h.advance (x := .done) (fun _ _ => rfl) (fun _ _ => Iff.rfl)
      (h.lt_of_eq hst Stage.noConfusion) (by rw [hst]; rfl)
      (h.loop_of_worker rfl (fun _ _ => rfl) (by rw [hst]; rfl) rfl) ?_ ?_ (fun _ _ => rfl)
      (fun _ hx => Stage.noConfusion hx) ?_⟩
    · rw [hst]
      exact List.Perm.of_eq step.queue_eq
    · rw [hst]
      exact step.held_perm
    · cases step
      exact h.caller
  | decrement step =>
    refine ⟨st, h.poolQuiet step (by cases step; rfl) (by cases step; rfl) (by cases step; rfl)
      (Or.inr ?_)⟩
    cases step
    rfl

/-- **In every state that a run reaches, some stages track it.** -/
theorem tracks_of_run {config : Config} {es : ServerHistory} {s : TcpServer}
    (run : (serverMachine config).Run es s) : ∃ st, Tracks config es s st := by
  refine run.invariant ?_ ?_
  · refine ⟨fun _ => .fresh, ⟨fun _ => rfl, fun c => iff_of_true rfl (Nat.zero_le c), fun c x => ?_,
      fun c => rfl, fun c => ?_, fun c rest h => Stage.noConfusion h,
      fun c h => Loop.noConfusion h⟩⟩
    · refine iff_of_false (by simp [serverMachine, TcpServer.make, Loop.holds]) ?_
      rintro ⟨rfl, hx⟩
      cases hx
    · show List.count c (ThreadPool.heldTasks (ThreadPool.make _ _)) = 0
      simp [ThreadPool.heldTasks, ThreadPool.make, List.flatMap_replicate, Worker.held]
  · intro es s a s' ev _ ih hstep
    obtain ⟨st, h⟩ := ih
    exact (TcpServer.step_inv hstep).tracks h

end HttpServer
