/-
  The life of a connection — what the server is for, seen from one socket.

  1. **Specification** — a connection is at a `Stage`, and `Stage.next` says which event may come
     next: it is accepted, registered, and then either handed over, taken by a worker and served, or
     rejected; `serving rest` and `rejecting rest` still have `rest` to run.  Nothing here knows of
     the loop, the queue, the workers or the other connections.

  2. **Lives** — `servedLife` and `rejectedLife` are the two ways a connection can end, as lists of
     events.  `fits_of_run` says that a history the stages allow is the part of one of them that the
     stage has behind it.

  3. **What a life holds** — `close` is the last effect and the only one of its kind, a response is
     sent once, and not at all where a worker received nothing (`Life`).
-/
import HttpServer.TcpServer

namespace HttpServer

/-! ## Stages -/

/-- How far one connection is, whoever has it.  `next` says what may come: this is the life of a
    connection by itself, with nothing of the threads and the queue it passes through. -/
inductive Stage
  /-- Not accepted yet. -/
  | fresh
  /-- `accept` has returned its socket. -/
  | accepted
  /-- Counted by `connection_opened`, and not yet handed over. -/
  | opened
  /-- In the queue of the pool. -/
  | queued
  /-- With a worker, which has these effects of `handle_client` still to do. -/
  | serving (rest : List Effect)
  /-- In the 503 branch, with these effects of it still to do. -/
  | rejecting (rest : List Effect)
  /-- Closed and forgotten. -/
  | done
  deriving DecidableEq

/-- The stage behind an event, if the event may happen. -/
def Stage.next (config : Config) (client : Client) : Stage → ConnEvent → Option Stage
  | .fresh, .accepted => some .accepted
  | .accepted, .opened => some .opened
  | .opened, .handed => some .queued
  | .opened, .rejected => some (.rejecting (rejectClient client))
  | .queued, .taken => some (.serving (handleClient config client))
  | .serving (e :: rest), .effect e' =>
    if e' = e ∧ e.enabled config client = true then some (.serving rest) else none
  | .rejecting (e :: rest), .effect e' =>
    if e' = e ∧ e.enabled config client = true then some (.rejecting rest) else none
  | .serving [], .left => some .done
  | .rejecting [], .left => some .done
  | _, _ => none

theorem Stage.next_ne_fresh {config : Config} {client : Client} {st st' : Stage} {ev : ConnEvent}
    (h : st.next config client ev = some st') : st' ≠ .fresh := by
  rintro rfl
  unfold Stage.next at h
  split at h <;> first | cases h | (split at h <;> cases h)

/-- The stage that a history leads to. -/
def Stage.run (config : Config) (client : Client) (w : List ConnEvent) : Option Stage :=
  w.foldlM (Stage.next config client) .fresh

theorem Stage.run_snoc (config : Config) (client : Client) (w : List ConnEvent) (e : ConnEvent) :
    Stage.run config client (w ++ [e]) =
      (Stage.run config client w).bind fun st => st.next config client e := by
  simp only [Stage.run, List.foldlM_append, List.foldlM_cons, List.foldlM_nil, bind_pure]
  rfl

/-! ## Lives -/

/-- A connection that a worker serves. -/
def servedLife (config : Config) (client : Client) : List ConnEvent :=
  [.accepted, .opened, .handed, .taken] ++ (handleClient config client).map .effect

/-- A connection that the accept loop answers with a 503. -/
def rejectedLife (client : Client) : List ConnEvent :=
  [.accepted, .opened, .rejected] ++ (rejectClient client).map .effect

/-- What a stage has behind it. -/
def Behind (config : Config) (client : Client) (w : List ConnEvent) : Stage → Prop
  | .fresh => w = []
  | .accepted => w = [.accepted]
  | .opened => w = [.accepted, .opened]
  | .queued => w = [.accepted, .opened, .handed]
  | .serving rest => w ++ rest.map .effect = servedLife config client
  | .rejecting rest => w ++ rest.map .effect = rejectedLife client
  | .done => w = servedLife config client ++ [.left] ∨ w = rejectedLife client ++ [.left]

/-- The history of a connection at a stage: its part of a life, and no effect that blocks. -/
structure Fits (config : Config) (client : Client) (w : List ConnEvent) (st : Stage) : Prop where
  behind : Behind config client w st
  enabled : ∀ e, .effect e ∈ w → e.enabled config client = true

/-- **One event keeps a history within its life.** -/
theorem Fits.next {config : Config} {client : Client} {w : List ConnEvent} {st st' : Stage}
    {ev : ConnEvent} (h : Fits config client w st) (hnext : st.next config client ev = some st') :
    Fits config client (w ++ [ev]) st' := by
  obtain ⟨hbehind, henabled⟩ := h
  have hkeep : (∀ e, ev = .effect e → e.enabled config client = true) →
      ∀ e, .effect e ∈ w ++ [ev] → e.enabled config client = true := by
    intro hev e he
    rcases List.mem_append.mp he with he | he
    · exact henabled e he
    · exact hev e (List.mem_singleton.mp he).symm
  -- the effect moves from what is left to what is behind
  have hmove : ∀ {e : Effect} {rest : List Effect} {life : List ConnEvent},
      w ++ (e :: rest).map .effect = life → (w ++ [.effect e]) ++ rest.map .effect = life := by
    intro e rest life hw
    rw [← hw, List.append_assoc]
    rfl
  unfold Stage.next at hnext
  split at hnext
  · cases hnext
    refine ⟨?_, hkeep (by simp)⟩
    rw [show w = [] from hbehind]
    rfl
  · cases hnext
    refine ⟨?_, hkeep (by simp)⟩
    rw [show w = [.accepted] from hbehind]
    rfl
  · cases hnext
    refine ⟨?_, hkeep (by simp)⟩
    rw [show w = [.accepted, .opened] from hbehind]
    rfl
  · cases hnext
    refine ⟨?_, hkeep (by simp)⟩
    rw [show w = [.accepted, .opened] from hbehind]
    rfl
  · cases hnext
    refine ⟨?_, hkeep (by simp)⟩
    rw [show w = [.accepted, .opened, .handed] from hbehind]
    rfl
  · rename_i e rest e'
    split at hnext
    · rename_i he
      obtain ⟨rfl, hen⟩ := he
      cases hnext
      exact ⟨hmove hbehind, hkeep (by rintro _ ⟨⟩; exact hen)⟩
    · cases hnext
  · rename_i e rest e'
    split at hnext
    · rename_i he
      obtain ⟨rfl, hen⟩ := he
      cases hnext
      exact ⟨hmove hbehind, hkeep (by rintro _ ⟨⟩; exact hen)⟩
    · cases hnext
  · cases hnext
    refine ⟨Or.inl ?_, hkeep (by simp)⟩
    have hw : w ++ [] = servedLife config client := hbehind
    rw [← hw, List.append_nil]
  · cases hnext
    refine ⟨Or.inr ?_, hkeep (by simp)⟩
    have hw : w ++ [] = rejectedLife client := hbehind
    rw [← hw, List.append_nil]
  · cases hnext

/-- **A history that the stages allow fits its stage.** -/
theorem fits_of_run {config : Config} {client : Client} {w : List ConnEvent} {st : Stage}
    (h : Stage.run config client w = some st) : Fits config client w st := by
  induction w using List.reverseRecOn generalizing st with
  | nil =>
    cases h
    exact ⟨rfl, fun e he => absurd he List.not_mem_nil⟩
  | append_singleton w ev ih =>
    rw [Stage.run_snoc] at h
    obtain ⟨st₀, hrun, hnext⟩ := Option.bind_eq_some_iff.mp h
    exact (ih hrun).next hnext

/-! ## What a life holds -/

/-- The bytes of a `send_all`. -/
def sentData : ConnEvent → Option Bytes
  | .effect (.sendAll data) => some data
  | _ => none

/-- The responses passed to `send_all`. -/
def responses (w : List ConnEvent) : List Bytes := w.filterMap sentData

/-- One of the three counters of outcomes is raised. -/
def Effect.isOutcome : Effect → Bool
  | .recordSuccess => true
  | .recordClientError => true
  | .recordServerError => true
  | _ => false

/-- The event raises one of the three counters of outcomes. -/
def ConnEvent.isOutcome : ConnEvent → Bool
  | .effect e => e.isOutcome
  | _ => false

/-- A counter of outcomes is none of the other effects that a life is measured by. -/
theorem Effect.of_isOutcome {e : Effect} (h : e.isOutcome = true) :
    e ≠ .close ∧ e ≠ .recordRequest ∧ sentData (.effect e) = none := by
  cases e <;> cases h <;> exact ⟨by simp, by simp, rfl⟩

theorem outcomeOf_isOutcome (response : HttpResponse) : (outcomeOf response).isOutcome = true := by
  rcases outcomeOf_cases response with heq | heq | heq
  · rw [heq]
    rfl
  · rw [heq]
    rfl
  · rw [heq]
    rfl

/-- **What `handle_client` does with what it received**: it closes at once, or counts one outcome,
    sends one response and closes. -/
theorem respond_cases (config : Config) (client : Client) (rawRequest : Bytes) :
    (rawRequest = [] ∧ respond config client rawRequest = [.close]) ∨
      (rawRequest ≠ [] ∧ ∃ outcome data tail, outcome.isOutcome = true ∧
        (tail = [] ∨ tail = [Effect.addBytesSent data.length]) ∧
          respond config client rawRequest = outcome :: .sendAll data :: (tail ++ [.close])) := by
  by_cases hraw : rawRequest = []
  · exact Or.inl ⟨hraw, if_pos hraw⟩
  · refine Or.inr ⟨hraw, ?_⟩
    rcases respond_answers config client hraw with ⟨response, hrespond⟩ | ⟨herror, what, hthrow⟩
    · exact ⟨outcomeOf response, _, _, outcomeOf_isOutcome response, Or.inr rfl, hrespond⟩
    · exact ⟨_, _, [], rfl, Or.inl rfl, respond_of_throw hraw herror hthrow⟩

/-- `Life config client before` — a whole life, up to the `close` behind it. -/
structure Life (config : Config) (client : Client) (before : List ConnEvent) : Prop where
  noClose : .effect .close ∉ before
  opened : before.count .opened = 1
  handler : before.count .taken + before.count .rejected = 1
  handed : before.count .handed = before.count .taken
  responses : (responses before).length =
    if .taken ∈ before ∧ client.received config = some [] then 0 else 1
  requests : before.count (.effect .recordRequest) = before.count .taken
  outcomes : before.countP ConnEvent.isOutcome =
    if .taken ∈ before ∧ client.received config = some [] then 0 else 1

/-- Effects alone contain no other event. -/
theorem count_map_effect {ev : ConnEvent} (h : ∀ e, ev ≠ .effect e) (effects : List Effect) :
    (effects.map ConnEvent.effect).count ev = 0 := by
  refine List.count_eq_zero.mpr fun hmem => ?_
  obtain ⟨e, -, heq⟩ := List.mem_map.mp hmem
  exact h e heq.symm

theorem rejectedLife_eq (config : Config) (client : Client) :
    ∃ before, Life config client before ∧
      rejectedLife client = before ++ [ConnEvent.effect .close] := by
  refine ⟨[.accepted, .opened, .rejected,
    .effect (.sendAll (HttpResponse.serviceUnavailable.serialize client.iter)),
    .effect (.addBytesSent (HttpResponse.serviceUnavailable.serialize client.iter).length),
    .effect .recordServerError], ?_, rfl⟩
  refine ⟨by simp, rfl, rfl, rfl, ?_, rfl, ?_⟩
  · rw [if_neg (fun h => absurd h.1 (by simp))]
    rfl
  · rw [if_neg (fun h => absurd h.1 (by simp))]
    rfl

/-- The part of `handle_client` up to the end of `recv_request`. -/
def receiving : List ConnEvent :=
  [.accepted, .opened, .handed, .taken, .effect .recordRequest, .effect .loadQueueSize,
    .effect .storeQueueSize, .effect .recvRequest]

theorem servedLife_eq_receiving {config : Config} {client : Client} {rawRequest : Bytes}
    (h : client.received config = some rawRequest) :
    servedLife config client = receiving ++ (respond config client rawRequest).map .effect := by
  unfold Client.received at h
  rw [servedLife, handleClient]
  split at h
  · cases h
    rfl
  · cases h

/-- A connection whose `recv_request` never returns is not closed. -/
theorem servedLife_of_blocked {config : Config} {client : Client}
    (h : client.received config = none) : servedLife config client = receiving := by
  unfold Client.received at h
  rw [servedLife, handleClient]
  split at h
  · cases h
  · rfl

/-- Effects behind `recv_request` make a life if they send one response and raise one outcome, or
    none of both where nothing was received. -/
theorem life_receiving {config : Config} {client : Client} {effects : List Effect}
    (hclose : .close ∉ effects) (hrequest : .recordRequest ∉ effects)
    (hresponses : (responses (effects.map .effect)).length =
      if client.received config = some [] then 0 else 1)
    (houtcomes : effects.countP Effect.isOutcome =
      if client.received config = some [] then 0 else 1) :
    Life config client (receiving ++ effects.map .effect) := by
  have hcount : ∀ ev, (∀ e, ev ≠ .effect e) →
      (receiving ++ effects.map ConnEvent.effect).count ev = receiving.count ev := by
    intro ev hev
    rw [List.count_append, count_map_effect hev, Nat.add_zero]
  have hopened := hcount .opened (by simp)
  have hhanded := hcount .handed (by simp)
  have htaken := hcount .taken (by simp)
  have hrejected := hcount .rejected (by simp)
  have hmem : .taken ∈ receiving ++ effects.map .effect :=
    List.mem_append_left _ (by simp [receiving])
  refine ⟨?_, hopened, ?_, hhanded.trans htaken.symm, ?_, ?_, ?_⟩
  · simp [receiving, hclose]
  · rw [htaken, hrejected]
    rfl
  · have hnone : responses receiving = [] := rfl
    rw [responses, List.filterMap_append, ← responses, ← responses, hnone, List.nil_append,
      hresponses]
    simp only [hmem, true_and]
  · have hnone : (effects.map ConnEvent.effect).count (.effect .recordRequest) = 0 :=
      List.count_eq_zero.mpr (by simpa using hrequest)
    rw [htaken, List.count_append, hnone]
    rfl
  · have hnone : receiving.countP ConnEvent.isOutcome = 0 := rfl
    rw [List.countP_append, hnone, Nat.zero_add, List.countP_map]
    simp only [hmem, true_and]
    exact houtcomes

theorem servedLife_eq {config : Config} {client : Client} {rawRequest : Bytes}
    (h : client.received config = some rawRequest) :
    ∃ before, Life config client before ∧
      servedLife config client = before ++ [ConnEvent.effect .close] := by
  rw [servedLife_eq_receiving h]
  rcases respond_cases config client rawRequest with
    ⟨rfl, hrespond⟩ | ⟨hne, outcome, data, tail, houtcome, htail, hrespond⟩
  · refine ⟨receiving ++ [].map .effect, ?_, by rw [hrespond]; rfl⟩
    exact life_receiving List.not_mem_nil List.not_mem_nil (if_pos h).symm (if_pos h).symm
  · obtain ⟨hclose, hrequest, hsent⟩ := Effect.of_isOutcome houtcome
    have hreceived : client.received config ≠ some [] := by
      rw [h]
      simpa using hne
    refine ⟨receiving ++ (outcome :: .sendAll data :: tail).map .effect, ?_, ?_⟩
    · refine life_receiving ?_ ?_ ?_ ?_
      · rcases htail with rfl | rfl <;> simp [hclose.symm]
      · rcases htail with rfl | rfl <;> simp [hrequest.symm]
      · rw [if_neg hreceived, responses, List.map_cons, List.filterMap_cons_none hsent]
        rcases htail with rfl | rfl <;> rfl
      · rw [if_neg hreceived, List.countP_cons_of_pos houtcome]
        rcases htail with rfl | rfl <;> rfl
    · rw [hrespond]
      simp

/-! ## Parts of a life -/

/-- **What a stage has behind it is part of one of the two lives**, up to the end of its thread. -/
theorem Fits.isPrefix_life {config : Config} {client : Client} {w : List ConnEvent} {st : Stage}
    (h : Fits config client w st) :
    w <+: servedLife config client ++ [.left] ∨ w <+: rejectedLife client ++ [.left] := by
  have hbehind := h.behind
  cases st with
  | fresh =>
    rw [show w = [] from hbehind]
    exact Or.inl List.nil_prefix
  | accepted =>
    rw [show w = [.accepted] from hbehind]
    exact Or.inl ⟨_, rfl⟩
  | opened =>
    rw [show w = [.accepted, .opened] from hbehind]
    exact Or.inl ⟨_, rfl⟩
  | queued =>
    rw [show w = [.accepted, .opened, .handed] from hbehind]
    exact Or.inl ⟨_, rfl⟩
  | serving rest =>
    have hw : w ++ rest.map .effect = servedLife config client := hbehind
    refine Or.inl ⟨rest.map .effect ++ [.left], ?_⟩
    rw [← List.append_assoc, hw]
  | rejecting rest =>
    have hw : w ++ rest.map .effect = rejectedLife client := hbehind
    refine Or.inr ⟨rest.map .effect ++ [.left], ?_⟩
    rw [← List.append_assoc, hw]
  | done =>
    rcases hbehind with hw | hw
    · exact Or.inl (by rw [hw])
    · exact Or.inr (by rw [hw])

/-- It has a `close` behind it at last, or waits in `recv_request`. -/
theorem Fits.isPrefix {config : Config} {client : Client} {w : List ConnEvent} {st : Stage}
    (h : Fits config client w st) :
    w <+: receiving ∨
      ∃ before, Life config client before ∧ w <+: before ++ [ConnEvent.effect .close, .left] := by
  rcases h.isPrefix_life with hpre | hpre
  · cases hrecv : client.received config with
    | some rawRequest =>
      obtain ⟨before, hlife, heq⟩ := servedLife_eq hrecv
      rw [heq, List.append_assoc] at hpre
      exact Or.inr ⟨before, hlife, hpre⟩
    | none =>
      -- nothing stands behind a `recv_request` that blocks
      rw [servedLife_of_blocked hrecv] at hpre
      rcases List.prefix_concat_iff.mp hpre with heq | hpre
      · have hin : .effect .recvRequest ∈ w := by
          rw [heq]
          simp [receiving]
        have hen := h.enabled _ hin
        simp [Effect.enabled, hrecv] at hen
      · exact Or.inl hpre
  · obtain ⟨before, hlife, heq⟩ := rejectedLife_eq config client
    rw [heq, List.append_assoc] at hpre
    exact Or.inr ⟨before, hlife, hpre⟩

/-- A part of a life that is closed is the whole of it. -/
theorem Life.whole_of_close {config : Config} {client : Client} {before w : List ConnEvent}
    (hlife : Life config client before) (hpre : w <+: before ++ [ConnEvent.effect .close])
    (hclose : .effect .close ∈ w) : w = before ++ [ConnEvent.effect .close] := by
  rcases List.prefix_concat_iff.mp hpre with heq | hpre
  · exact heq
  · exact absurd (hpre.subset hclose) hlife.noClose

/-- **A closed connection has a whole life behind it**, and nothing happens to it any more. -/
theorem Fits.closed {config : Config} {client : Client} {w : List ConnEvent} {st : Stage}
    (h : Fits config client w st) (hclose : .effect .close ∈ w) :
    ∃ before, Life config client before ∧
      (w = before ++ [ConnEvent.effect .close] ∨
        w = before ++ [ConnEvent.effect .close, .left]) := by
  rcases h.isPrefix with hpre | ⟨before, hlife, hpre⟩
  · have := hpre.subset hclose
    simp [receiving] at this
  · refine ⟨before, hlife, ?_⟩
    have happend : before ++ [ConnEvent.effect .close, .left] =
        (before ++ [ConnEvent.effect .close]) ++ [.left] := by simp
    rw [happend] at hpre
    rcases List.prefix_concat_iff.mp hpre with heq | hpre
    · exact Or.inr (by rw [heq]; simp)
    · exact Or.inl (hlife.whole_of_close hpre hclose)

/-- The end of a life is closed. -/
theorem Fits.close_mem_of_done {config : Config} {client : Client} {w : List ConnEvent}
    (h : Fits config client w .done) : .effect .close ∈ w := by
  rcases h.behind with hw | hw
  · cases hrecv : client.received config with
    | some rawRequest =>
      obtain ⟨before, -, heq⟩ := servedLife_eq hrecv
      rw [hw, heq]
      simp
    | none =>
      have hin : .effect .recvRequest ∈ w := by
        rw [hw, servedLife_of_blocked hrecv]
        simp [receiving]
      have hen := h.enabled _ hin
      simp [Effect.enabled, hrecv] at hen
  · obtain ⟨before, -, heq⟩ := rejectedLife_eq config client
    rw [hw, heq]
    simp

end HttpServer
