/-
  Work per connection — how much the workers do, and how few of them it takes.

  1. **The account of the workers** — a connection that is handed over is worth a turn of twelve steps,
     and a step of a worker takes one off; the accept loop can do nothing to it (`workersPotential`).
     So the workers never spin, in a server that stops as in one that runs.

  2. **One worker is enough** — a worker whose calls come back takes the connections from the queue
     one after the other and closes them, with steps of its own alone (`Clears`): the other workers
     may all be held by their clients, and so may the accept loop.
-/
import HttpServer.ServerTermination

namespace HttpServer

open TcpServer (Holds)

variable {config : Config} {es es' : ServerHistory} {s s' t : TcpServer}

/-! ## The account of the workers -/

/-- The steps that workers have taken: which worker, in order. -/
def turnSteps (es : ServerHistory) : List Nat := es.filterMap fun e => e.1.worker

/-- The steps of workers, paid for by the connections that were handed over. -/
def workersPotential (config : Config) : (serverMachine config).Potential where
  inv _ := True
  rank := TcpServer.turns
  cost e := 1 * e.1.worker.toList.length
  credit e := 12 * (handedConn e).toList.length
  keep _ h _ := h
  pay run _ hstep := by
    obtain ⟨st, ht⟩ := tracks_of_run run
    rw [Nat.one_mul]
    exact (TcpServer.step_inv hstep).turns ht

/-- Twelve steps for each connection, and the one with which a worker leaves. -/
theorem turnSteps_le (run : (serverMachine config).Run es s) :
    (turnSteps es).length ≤ 12 * (handed es).length + ThreadPool.workerCount config.threadCount := by
  have haccount := (workersPotential config).run Machine.Run.nil (by simpa using run) trivial
  have hcost := Machine.Potential.sum_map_toList 1
    (fun e : ServerAction × ServerEvent => e.1.worker) es
  have hcredit := Machine.Potential.sum_map_toList 12 handedConn es
  have hsum : s.turns + 1 * (turnSteps es).length ≤
      (serverMachine config).init.turns + 12 * (handed es).length := by
    rw [turnSteps, handed, ← hcost, ← hcredit]
    exact haccount
  have hinit : (serverMachine config).init.turns ≤ ThreadPool.workerCount config.threadCount := by
    show TcpServer.turnsAhead (fun _ => []) 0 (List.replicate _ .waiting) ≤ _
    rw [TcpServer.turnsAhead, List.map_replicate, List.sum_replicate, List.flatMap_replicate]
    simp [Worker.turnAhead, Worker.held, TcpServer.effectsAhead]
  omega

/-! ## One worker -/

/-- The connection that worker `i` has. -/
def heldBy (pool : ThreadPool Unit Nat) (i : Nat) : List Nat :=
  (pool.workers[i]?.map Worker.held).getD []

theorem heldBy_of_worker {pool : ThreadPool Unit Nat} {i : Nat} {w : Worker Nat}
    (h : pool.workers[i]? = some w) : heldBy pool i = w.held := by
  rw [heldBy, h]
  rfl

/-- `Clears s i t` — worker `i` alone has been at work between `s` and `t`, and has not left. -/
structure Clears (s : TcpServer) (i : Nat) (t : TcpServer) : Prop where
  clients : t.clients = s.clients
  loop : t.loop = s.loop
  others : ∀ j ≠ i, t.pool.workers[j]? = s.pool.workers[j]?
  mine : ∀ c ∈ t.pool.queue.queue ++ heldBy t.pool i, c ∈ s.pool.queue.queue ++ heldBy s.pool i
  stays : ∃ w, t.pool.workers[i]? = some w ∧ w.isExited = false

/-- A step of worker `i` that overwrites its slot. -/
theorem Clears.step (h : Clears s i t) {w w' : Worker Nat} {t' : TcpServer}
    (hw : t.pool.workers[i]? = some w) (hclients : t'.clients = t.clients) (hloop : t'.loop = t.loop)
    (hworkers : t'.pool.workers = t.pool.workers.set i w')
    (hqueue : ∀ c ∈ t'.pool.queue.queue ++ w'.held, c ∈ t.pool.queue.queue ++ w.held)
    (hleft : w'.isExited = false) : Clears s i t' := by
  have hself : t'.pool.workers[i]? = some w' := by
    obtain ⟨hlt, -⟩ := List.getElem?_eq_some_iff.mp hw
    rw [hworkers, List.getElem?_set_self hlt]
  refine ⟨hclients.trans h.clients, hloop.trans h.loop, fun j hj => ?_, fun c hc => ?_,
    ⟨w', hself, hleft⟩⟩
  · rw [hworkers, List.getElem?_set_ne (Ne.symm hj)]
    exact h.others j hj
  · rw [heldBy_of_worker hself] at hc
    refine h.mine c ?_
    rw [heldBy_of_worker hw]
    exact hqueue c hc

/-- A step of worker `i` that leaves its slot as it is. -/
theorem Clears.stay (h : Clears s i t) {t' : TcpServer} (hclients : t'.clients = t.clients)
    (hloop : t'.loop = t.loop) (hpool : t'.pool = t.pool) : Clears s i t' := by
  refine ⟨hclients.trans h.clients, hloop.trans h.loop, ?_, ?_, ?_⟩
  · rw [hpool]
    exact h.others
  · rw [hpool]
    exact h.mine
  · rw [hpool]
    exact h.stays

/-- **What the steps of worker `i` keep**, as long as it does not leave. -/
theorem Clears.next (h : Clears s i t) {a : ServerAction} {t' : TcpServer} {ev : ServerEvent}
    (hstep : TcpServer.Step config t a t' ev) (ha : a.worker = some i)
    (hne : t.pool.queue.queue ≠ [] ∨ t.pool.workers[i]? ≠ some .waiting) : Clears s i t' := by
  cases hstep with
  | @exit j pool step =>
    cases ha
    cases step with
    | exit worker empty closed =>
      rcases hne with hne | hne
      · exact absurd empty hne
      · exact absurd worker hne
  | @take j c pool step =>
    cases ha
    cases step with
    | @pop k task rest worker front =>
      refine h.step worker rfl rfl rfl (fun d hd => ?_) rfl
      have hin : d ∈ rest ++ [c] := hd
      rw [front]
      exact List.mem_append_left _ (by simpa [or_comm] using hin)
  | @increment j pool e step =>
    cases ha
    cases step with
    | increment worker => exact h.step worker rfl rfl rfl (fun _ hd => hd) rfl
  | @serve j c e rest worker job enabled => exact h.stay rfl rfl rfl
  | @served j c pool outcome step job =>
    cases ha
    cases step with
    | run outcome worker =>
      refine h.step worker rfl rfl rfl (fun d hd => ?_) rfl
      have hin : d ∈ t.pool.queue.queue ++ [] := hd
      rw [List.append_nil] at hin
      exact List.mem_append_left _ hin
  | @decrement j pool e step =>
    cases ha
    cases step with
    | decrement worker => exact h.step worker rfl rfl rfl (fun _ hd => hd) rfl
  | closing loop action step =>
    simp only [List.mem_cons, Prod.mk.injEq, List.not_mem_nil, or_false] at action
    rcases action with ⟨rfl, -⟩ | ⟨rfl, -⟩ | ⟨rfl, -⟩ <;> cases ha
  | _ => cases ha

/-- A worker with a connection in hand is not the only one with it. -/
theorem notMem_of_count {workers : List (Worker Nat)} {i j c : Nat} {w w' : Worker Nat}
    (hcount : (workers.flatMap Worker.held).count c ≤ 1) (hi : workers[i]? = some w)
    (hj : workers[j]? = some w') (hij : j ≠ i) (hc : c ∈ w.held) : c ∉ w'.held := by
  intro hc'
  have hperm : (w.held ++ (workers.set i .exited).flatMap Worker.held).Perm
      ([] ++ workers.flatMap Worker.held) := Slots.flatMap_set_perm hi .exited
  have hsum := hperm.count_eq c
  rw [List.count_append, List.nil_append] at hsum
  have hother : (workers.set i .exited)[j]? = some w' := by
    rw [List.getElem?_set_ne (Ne.symm hij)]
    exact hj
  have hone := List.count_pos_iff.mpr hc
  have htwo := List.count_pos_iff.mpr
    (List.mem_flatMap.mpr ⟨w', List.mem_of_getElem? hother, hc'⟩)
  omega

/-- **What worker `i` has cleared is done**: it is in no place any more. -/
theorem Clears.closed {st st' : Nat → Stage} {i : Nat} (h : Clears s i t)
    (hs : Tracks config es s st) (ht : Tracks config es' t st') (hempty : t.pool.queue.queue = [])
    (hwaiting : t.pool.workers[i]? = some .waiting) {c : Nat}
    (hc : c ∈ s.pool.queue.queue ++ heldBy s.pool i) :
    (eventsOf c es').count (.effect .close) = 1 := by
  have hplace : st c = .queued ∨ st c = .serving (s.jobs c) ∧ ∃ w, s.pool.workers[i]? = some w ∧
      c ∈ w.held := by
    rcases List.mem_append.mp hc with hc | hc
    · exact Or.inl (hs.queued_of_mem hc)
    · cases hw : s.pool.workers[i]? with
      | none =>
        rw [heldBy, hw] at hc
        exact absurd hc List.not_mem_nil
      | some w =>
        rw [heldBy_of_worker hw] at hc
        have hmem : c ∈ s.pool.heldTasks :=
          List.mem_flatMap.mpr ⟨w, List.mem_of_getElem? hw, hc⟩
        exact Or.inr ⟨hs.serving_of_mem hmem, w, rfl, hc⟩
  have hlt : c < t.clients.length := by
    rw [h.clients]
    rcases hplace with hst | ⟨hst, -⟩
    · exact hs.lt_of_eq hst Stage.noConfusion
    · exact hs.lt_of_eq hst Stage.noConfusion
  have hnotheld : c ∉ t.pool.heldTasks := by
    intro hmem
    obtain ⟨w', hw', hc'⟩ := List.mem_flatMap.mp hmem
    obtain ⟨j, hj⟩ := List.getElem?_of_mem hw'
    by_cases hij : j = i
    · subst hij
      rw [hwaiting] at hj
      cases hj
      cases hc'
    · -- another worker had it before
      rw [h.others j hij] at hj
      have hbefore : c ∈ s.pool.heldTasks :=
        List.mem_flatMap.mpr ⟨w', List.mem_of_getElem? hj, hc'⟩
      rcases hplace with hst | ⟨hst, w, hw, hcw⟩
      · rw [hs.serving_of_mem hbefore] at hst
        cases hst
      · have hcount := hs.held c
        rw [hst] at hcount
        exact notMem_of_count (Nat.le_of_eq hcount) hw hj hij hcw hc'
  have hnotloop : (st' c).inLoop = false := by
    by_contra hin
    have hholds := (ht.loop c (st' c)).mpr ⟨rfl, by simpa using hin⟩
    -- the loop holds what it held before
    have hconn : (s.loop.holds s.jobs).map Prod.fst = some c := by
      rw [Loop.map_holds, ← h.loop, ← Loop.map_holds t.jobs, hholds]
      rfl
    obtain ⟨⟨d, x⟩, hx, rfl⟩ := Option.map_eq_some_iff.mp hconn
    obtain ⟨hst, hinloop⟩ := (hs.loop d x).mp hx
    rw [← hst] at hinloop
    rcases hplace with hst | ⟨hst, -⟩
    · rw [hst] at hinloop
      cases hinloop
    · rw [hst] at hinloop
      cases hinloop
  have hfits := fits_of_run (ht.life c)
  have hdone : st' c = .done := by
    cases hst : st' c with
    | done => rfl
    | fresh => exact absurd ((ht.fresh c).mp hst) (Nat.not_le.mpr hlt)
    | accepted => rw [hst] at hnotloop; cases hnotloop
    | opened => rw [hst] at hnotloop; cases hnotloop
    | rejecting rest => rw [hst] at hnotloop; cases hnotloop
    | queued =>
      have hcount := ht.queue c
      rw [hempty, hst] at hcount
      cases hcount
    | serving rest =>
      have hcount := ht.held c
      rw [List.count_eq_zero.mpr hnotheld, hst] at hcount
      cases hcount
  rw [hdone] at hfits
  exact hfits.count_close hfits.close_mem_of_done

/-! ## The theorem -/

/-- A client that connects and sends nothing. -/
def mutedClient : Client := { silentClient with recvScript := [] }

end HttpServer
