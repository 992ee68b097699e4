/-
  First come, first served — the order in which connections reach the workers.

  1. **Bridge (`serverFifo`)** — the server refines the bounded FIFO of its queue: a connection that is
     handed over is a push, one that a worker takes is a take, and the laws of the FIFO say that
     nothing is lost or overtaken in between.

  2. **Numbers (`InLine`)** — connections are numbered by their `accept`, and the thread of `start()`
     has one of them at a time, the latest; so those it hands over are handed over in order.

  3. **Waiting** — a connection with `k` others in front of it is taken with the `k + 1`st take from
     there on, whatever else happens.
-/
import HttpServer.ServerPool
import HttpServer.ConnectionsClosed

namespace HttpServer

open TcpServer (Step)

/-! ## The queue of the server -/

/-- What a step does to the queue. -/
def queueLabel : ServerAction × ServerEvent → Option (Fifo.Op Nat × Fifo.Reply Nat)
  | (.push, .conn c .handed) => some (.push c, .accepted)
  | (.push, .conn c .rejected) => some (.push c, .refused)
  | (.closeQueue, _) => some (.close, .done)
  | (.waitAndPop _, .conn c .taken) => some (.take, .item c)
  | (.waitAndPop _, .quiet) => some (.take, .nothing)
  | _ => none

/-- The connection that is handed to the pool. -/
def handedConn : ServerAction × ServerEvent → Option Nat
  | (_, .conn c .handed) => some c
  | _ => none

/-- The connection that a worker takes. -/
def takenConn : ServerAction × ServerEvent → Option Nat
  | (_, .conn c .taken) => some c
  | _ => none

/-- The connections that were handed to the pool, in order. -/
def handed (es : ServerHistory) : List Nat := es.filterMap handedConn

/-- The connections that workers have taken, in order. -/
def takenBy (es : ServerHistory) : List Nat := es.filterMap takenConn

theorem handed_append (es es' : ServerHistory) : handed (es ++ es') = handed es ++ handed es' :=
  List.filterMap_append

theorem takenBy_append (es es' : ServerHistory) : takenBy (es ++ es') = takenBy es ++ takenBy es' :=
  List.filterMap_append

variable {config : Config} {es es' : ServerHistory} {s s' : TcpServer} {a : ServerAction}
  {ev : ServerEvent}

/-- **A step of the server is a step of its queue, or none.** -/
theorem TcpServer.Step.queue_refines {st : Nat → Stage} (h : Step config s a s' ev)
    (ht : Tracks config es s st) :
    (Fifo.machine Nat s.pool.queue.capacity).Follows s.pool.toFifo s'.pool.toFifo
      (queueLabel (a, ev)) := by
  cases h with
  | submitRefused loop step => exact step.refines
  | submitChecked loop step => exact step.refines
  | @pushRefused c pool task loop step =>
    have hstep := step.refines
    cases step with
    | pushFull caller full =>
      -- the pool carries the connection that the loop has
      rw [ht.caller c loop] at caller
      cases caller
      exact hstep
  | @pushed c pool task loop step =>
    have hstep := step.refines
    cases step with
    | pushRoom caller room =>
      rw [ht.caller c loop] at caller
      cases caller
      exact hstep
  | closing loop action step =>
    simp only [List.mem_cons, Prod.mk.injEq, List.not_mem_nil, or_false] at action
    rcases action with ⟨rfl, rfl⟩ | ⟨rfl, rfl⟩ | ⟨rfl, rfl⟩
    · have hstep := step.refines
      cases step <;> exact hstep
    · have hstep := step.refines
      cases step
      exact hstep
    · have hstep := step.refines
      cases step
      exact hstep
  | exit step => exact step.refines
  | take step => exact step.refines
  | increment step =>
    have hstep := step.refines
    cases step
    exact hstep
  | served step job => exact step.refines
  | decrement step =>
    have hstep := step.refines
    cases step
    exact hstep
  | _ => rfl

/-- **The server refines the bounded FIFO.** -/
def serverFifo (config : Config) :
    (serverMachine config).Refinement (Fifo.machine Nat config.queueCapacity) where
  abs s := s.pool.toFifo
  label := queueLabel
  init := rfl
  step run hstep := by
    obtain ⟨st, ht⟩ := tracks_of_run run
    have h := (TcpServer.step_inv hstep).queue_refines ht
    rw [(inOrder_of_run run).serves.capacity] at h
    exact h

/-- What the FIFO accepts and delivers. -/
theorem TcpServer.Step.queue_items (h : Step config s a s' ev) :
    (queueLabel (a, ev)).bind Fifo.acceptedItem = handedConn (a, ev) ∧
      (queueLabel (a, ev)).bind Fifo.deliveredItem = takenConn (a, ev) := by
  cases h with
  | closing loop action step =>
    simp only [List.mem_cons, Prod.mk.injEq, List.not_mem_nil, or_false] at action
    rcases action with ⟨rfl, -⟩ | ⟨rfl, -⟩ | ⟨rfl, -⟩ <;> exact ⟨rfl, rfl⟩
  | _ => exact ⟨rfl, rfl⟩

theorem takenBy_append_queue (run : (serverMachine config).Run es s) :
    takenBy es ++ s.pool.queue.queue = handed es := by
  have hhanded : Fifo.accepted (es.filterMap queueLabel) = handed es :=
    run.filterMap_label fun hstep => (TcpServer.step_inv hstep).queue_items.1
  have htaken : Fifo.delivered (es.filterMap queueLabel) = takenBy es :=
    run.filterMap_label fun hstep => (TcpServer.step_inv hstep).queue_items.2
  rw [← hhanded, ← htaken]
  exact Fifo.delivered_append_contents ((serverFifo config).run run)

/-- **The line**: those taken from now on are those that stand in it, and those that join it. -/
theorem takenBy_append_queue_later (run : (serverMachine config).Run es s)
    (later : (serverMachine config).Run (es ++ es') s') :
    takenBy es' ++ s'.pool.queue.queue = s.pool.queue.queue ++ handed es' := by
  have hbefore := takenBy_append_queue run
  have hafter := takenBy_append_queue later
  rw [takenBy_append, handed_append, ← hbefore, List.append_assoc, List.append_assoc] at hafter
  exact List.append_cancel_left hafter

/-! ## Numbers -/

/-- The connection that the thread of `start()` has. -/
def Loop.conn : Loop → Option Nat
  | .accepted c => some c
  | .opened c => some c
  | .loaded c _ => some c
  | .submitting c => some c
  | .pushing c => some c
  | .rejecting c => some c
  | .top => none
  | .accepting => none
  | .ended => none

theorem Loop.map_holds (jobs : Nat → List Effect) (loop : Loop) :
    (loop.holds jobs).map Prod.fst = loop.conn := by
  cases loop <;> rfl

/-- The connections handed over so far are in order, and behind none that is still to be. -/
structure InLine (es : ServerHistory) (s : TcpServer) : Prop where
  sorted : (handed es).Pairwise (· < ·)
  lt : ∀ d ∈ handed es, d < s.clients.length
  last : ∀ c, s.loop.conn = some c → c + 1 = s.clients.length ∧ ∀ d ∈ handed es, d < c

/-- A step that hands nothing over, after which the loop has the connection it had, or none. -/
theorem InLine.keep (h : InLine es s) (hnone : handedConn (a, ev) = none)
    (hclients : s'.clients = s.clients)
    (hconn : s'.loop.conn = s.loop.conn ∨ s'.loop.conn = none) :
    InLine (es ++ [(a, ev)]) s' := by
  have hsame : handed (es ++ [(a, ev)]) = handed es := by
    rw [handed, Machine.filterMap_snoc, hnone]
    exact List.append_nil _
  refine ⟨by rw [hsame]; exact h.sorted, by rw [hsame, hclients]; exact h.lt, fun c hc => ?_⟩
  rw [hsame, hclients]
  rcases hconn with heq | heq
  · exact h.last c (heq ▸ hc)
  · rw [heq] at hc
    cases hc

theorem TcpServer.Step.inLine (h : Step config s a s' ev) (hl : InLine es s) :
    InLine (es ++ [(a, ev)]) s' := by
  cases h with
  | stop => exact hl.keep rfl rfl (Or.inl rfl)
  | checkRunning loop =>
    refine hl.keep rfl rfl (Or.inr ?_)
    show (if s.running then Loop.accepting else .ended).conn = none
    cases s.running <;> rfl
  | acceptFails loop =>
    refine hl.keep rfl rfl (Or.inr ?_)
    show (if s.running then Loop.top else .ended).conn = none
    cases s.running <;> rfl
  | @accept client loop =>
    -- the new connection has the next number
    have hsame : handed (es ++ [(.accept client, .conn s.clients.length .accepted)]) = handed es := by
      rw [handed, Machine.filterMap_snoc]
      exact List.append_nil _
    refine ⟨by rw [hsame]; exact hl.sorted, fun d hd => ?_, fun c hc => ?_⟩
    · rw [hsame] at hd
      have hlt := hl.lt d hd
      show d < (s.clients ++ [client]).length
      rw [List.length_append]
      omega
    · cases hc
      rw [hsame]
      refine ⟨?_, hl.lt⟩
      show s.clients.length + 1 = (s.clients ++ [client]).length
      rw [List.length_append, List.length_singleton]
  | connectionOpened loop => exact hl.keep rfl rfl (Or.inl (by rw [loop]; rfl))
  | loadActiveWorkers loop => exact hl.keep rfl rfl (Or.inl (by rw [loop]; rfl))
  | storeActiveWorkers loop => exact hl.keep rfl rfl (Or.inl (by rw [loop]; rfl))
  | submitRefused loop step => exact hl.keep rfl rfl (Or.inl (by rw [loop]; rfl))
  | submitChecked loop step => exact hl.keep rfl rfl (Or.inl (by rw [loop]; rfl))
  | pushRefused loop step => exact hl.keep rfl rfl (Or.inl (by rw [loop]; rfl))
  | @pushed c pool task loop step =>
    obtain ⟨hlast, hlt⟩ := hl.last c (by rw [loop]; rfl)
    have hmore : handed (es ++ [(.push, .conn c .handed)]) = handed es ++ [c] := by
      rw [handed, Machine.filterMap_snoc]
      rfl
    refine ⟨?_, fun d hd => ?_, fun d hd => by cases hd⟩
    · rw [hmore, List.pairwise_append]
      refine ⟨hl.sorted, List.pairwise_singleton .., fun d hd x hx => ?_⟩
      rw [List.mem_singleton.mp hx]
      exact hlt d hd
    · rw [hmore] at hd
      show d < s.clients.length
      rcases List.mem_append.mp hd with hd | hd
      · exact hl.lt d hd
      · rw [List.mem_singleton.mp hd]
        omega
  | throwsEarly loop => exact hl.keep rfl rfl (Or.inl (by rw [loop]; rfl))
  | throwsLate loop => exact hl.keep rfl rfl (Or.inl (by rw [loop]; rfl))
  | reject loop job enabled => exact hl.keep rfl rfl (Or.inl rfl)
  | rejected loop job => exact hl.keep rfl rfl (Or.inr rfl)
  | closing loop action step => exact hl.keep rfl rfl (Or.inl rfl)
  | exit step => exact hl.keep rfl rfl (Or.inl rfl)
  | take step => exact hl.keep rfl rfl (Or.inl rfl)
  | increment step => exact hl.keep rfl rfl (Or.inl rfl)
  | serve worker job enabled => exact hl.keep rfl rfl (Or.inl rfl)
  | served step job => exact hl.keep rfl rfl (Or.inl rfl)
  | decrement step => exact hl.keep rfl rfl (Or.inl rfl)

theorem inLine_of_run (run : (serverMachine config).Run es s) : InLine es s :=
  run.invariant ⟨List.Pairwise.nil, nofun, nofun⟩ fun _ ih hstep =>
    (TcpServer.step_inv hstep).inLine ih

/-! ## The theorem -/

/-- In a list without repetitions an element is in a prefix if the prefix is long enough. -/
theorem mem_prefix_iff {l front rest : List Nat} {c : Nat} (hnodup : (front ++ c :: rest).Nodup)
    (hpre : l <+: front ++ c :: rest) : c ∈ l ↔ front.length < l.length := by
  obtain ⟨behind, hl⟩ := hpre
  constructor
  · intro hc
    by_contra hshort
    -- the prefix ends in front of `c`
    have hfront : l <+: front :=
      List.prefix_of_prefix_length_le ⟨behind, hl⟩ (List.prefix_append ..) (Nat.le_of_not_lt hshort)
    have hdisjoint := (List.nodup_append.mp hnodup).2.2
    exact hdisjoint c (hfront.subset hc) c (List.mem_cons_self ..) rfl
  · intro hlong
    have hget : (l ++ behind)[front.length]? = some c := by
      rw [hl, List.getElem?_append_right (Nat.le_refl _), Nat.sub_self]
      rfl
    rw [List.getElem?_append_left hlong] at hget
    exact List.mem_of_getElem? hget

/-- **First come, first served.**  In every run, however the accept loop and the workers interleave:
    connections are handed to the pool, and taken by workers, in the order in which they were
    accepted; and from any state on, a connection that has `front` before it in the queue is taken
    when more than `front.length` connections have been taken, and not before. -/
theorem first_come_first_served (config : Config) {es es' : ServerHistory} {s s' : TcpServer}
    (run : (serverMachine config).Run es s) (later : (serverMachine config).Run (es ++ es') s') :
    (handed (es ++ es')).Pairwise (· < ·) ∧ (takenBy (es ++ es')).Pairwise (· < ·) ∧
      ∀ front c rest, s.pool.queue.queue = front ++ c :: rest →
        (c ∈ takenBy es' ↔ front.length < (takenBy es').length) := by
  have hsorted := (inLine_of_run later).sorted
  have hall := takenBy_append_queue later
  refine ⟨hsorted, ?_, fun front c rest hqueue => ?_⟩
  · exact hsorted.sublist (hall ▸ List.sublist_append_left ..)
  · have hline := takenBy_append_queue_later run later
    rw [hqueue, List.append_assoc, List.cons_append] at hline
    have hsub : (front ++ c :: (rest ++ handed es')).Sublist (handed (es ++ es')) := by
      have hbefore := takenBy_append_queue run
      rw [handed_append, ← hbefore, hqueue, List.append_assoc, List.append_assoc, List.cons_append]
      exact List.sublist_append_right ..
    have hnodup : (front ++ c :: (rest ++ handed es')).Nodup :=
      (hsorted.sublist hsub).imp Nat.ne_of_lt
    exact mem_prefix_iff hnodup (hline ▸ List.prefix_append ..)

/-- Three clients, of which one is served, and the second and third wait in front of the worker. -/
def threeInLine : List ServerAction :=
  acceptOne exampleClient ++ [.waitAndPop 0, .increment 0] ++ acceptOne silentClient ++
    acceptOne exampleClient

/-- The theorem on that run: the third client is taken second, and it is the second that is taken
    when the worker comes back. -/
theorem first_come_first_served_three :
    ∃ (es es' : ServerHistory) (s : TcpServer), s.pool.queue.queue = [1] ++ 2 :: [] ∧
      takenBy es' = [1] ∧ 2 ∉ takenBy es' ∧ (takenBy (es ++ es')).Pairwise (· < ·) := by
  obtain ⟨es, s, es', s', run, later, hqueue, htaken⟩ :=
    Machine.exists_run_then (M := serverMachine { threadCount := 1 }) threeInLine
      (List.replicate 8 (.serve 0) ++ [.served 0, .decrement 0, .waitAndPop 0])
      (fun _ s es' _ => s.pool.queue.queue = [1] ++ 2 :: [] ∧ takenBy es' = [1]) (by decide +kernel)
  obtain ⟨-, hsorted, hline⟩ := first_come_first_served { threadCount := 1 } run later
  refine ⟨es, es', s, hqueue, htaken, ?_, hsorted⟩
  rw [hline [1] 2 [] hqueue, htaken]
  exact Nat.lt_irrefl 1

end HttpServer
