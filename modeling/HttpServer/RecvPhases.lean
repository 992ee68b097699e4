/-
  The receive loop, one `recv` at a time — where `recv_request` is between two calls of `recv`.

  1. **Phases** (`RecvPhase`) — between two calls of `recv` the function is in its outer loop with a
     buffer, in its inner loop with a buffer and what it waits for, or has returned.  `next` is what
     one outcome does, and `recvRequest_eq` says that the two loops are this machine, run on the
     script.

  2. **Where an outcome is met** — `InHeaders` and `InBody` say of the outcomes before it alone which
     of the two loops meets the next one (`phaseAfter_header_iff`, `phaseAfter_body_iff`).

  3. **Prefixes of a script** (`resume_append`) — a call that waits behind some outcomes goes on from
     its phase there, which is how the effect of one outcome in the middle of a script is found.
-/
import HttpServer.Framing

namespace HttpServer

open ListSearch

/-! ## Phases -/

/-- Where `recv_request` is between two calls of `recv`, with all it has kept of what it received:
    the buffer, and in the inner loop what the header block said of the body. -/
inductive RecvPhase
  /-- At the `recv` of the outer loop. -/
  | header (request : Bytes)
  /-- At the `recv` of the inner loop. -/
  | body (headerSize contentLength : Nat) (request : Bytes)
  /-- Behind a `return`, the empty buffer of an error or an early end included. -/
  | returned (request : Bytes)
  deriving DecidableEq

namespace RecvPhase

/-- The buffer, or what was returned. -/
def request : RecvPhase → Bytes
  | .header request => request
  | .body _ _ request => request
  | .returned request => request

/-- The function has returned: it looks at no outcome any more. -/
def isReturned : RecvPhase → Bool
  | .returned _ => true
  | _ => false

/-- The condition of the inner loop. -/
def awaitBody (config : Config) (headerSize contentLength : Nat) (request : Bytes) : RecvPhase :=
  if request.length - headerSize < contentLength ∧
      request.length - headerSize < config.maxBodySize then
    .body headerSize contentLength request
  else .returned request

/-- Behind a chunk that completes the header section. -/
def headersEnd (config : Config) (headerEnd : Nat) (request : Bytes) : RecvPhase :=
  match recvLocateLength request with
  | .absent => .returned request
  | .dangling => .returned request
  | .value clValue =>
    match stoull clValue with
    | .error _ => .returned request
    | .ok contentLength => awaitBody config (headerEnd + 4) contentLength request

/-- Behind a chunk in the outer loop. -/
def headerChunk (config : Config) (request : Bytes) : RecvPhase :=
  match find crlfcrlf request with
  | some headerEnd => headersEnd config headerEnd request
  | none => if request.length > config.maxHeaderSize then .returned request else .header request

/-- What one outcome of `recv` does. -/
def next (config : Config) : RecvPhase → RecvOutcome → RecvPhase
  | .header request, .data chunk => headerChunk config (request ++ chunk.bytes)
  | .header request, .eintr => .header request
  | .header request, .eagain => .header request
  | .header request, .eof => .returned request
  | .header request, .error => .returned request
  | .body headerSize contentLength request, .data chunk =>
    awaitBody config headerSize contentLength (request ++ chunk.bytes)
  | .body _ _ request, _ => .returned request
  | .returned request, _ => .returned request

theorem request_awaitBody (config : Config) (headerSize contentLength : Nat) (request : Bytes) :
    (awaitBody config headerSize contentLength request).request = request := by
  unfold awaitBody
  split <;> rfl

theorem request_headerChunk (config : Config) (request : Bytes) :
    (headerChunk config request).request = request := by
  unfold headerChunk
  split
  · unfold headersEnd
    split
    · rfl
    · rfl
    · split
      · rfl
      · exact request_awaitBody ..
  · split <;> rfl

/-- **An outcome appends its bytes to the buffer**, or leaves it as it is. -/
theorem request_next (config : Config) (p : RecvPhase) (o : RecvOutcome) :
    (p.next config o).request = p.request ∨
      ∃ chunk, o = .data chunk ∧ p.isReturned = false ∧
        (p.next config o).request = p.request ++ chunk.bytes := by
  cases p with
  | returned request => exact Or.inl rfl
  | header request =>
    cases o with
    | data chunk => exact Or.inr ⟨chunk, rfl, rfl, request_headerChunk ..⟩
    | _ => exact Or.inl rfl
  | body headerSize n request =>
    cases o with
    | data chunk => exact Or.inr ⟨chunk, rfl, rfl, request_awaitBody ..⟩
    | _ => exact Or.inl rfl

/-- The machine on a script, up to its return. -/
def resume (config : Config) : List RecvOutcome → RecvPhase → RecvResult
  | [], p => if p.isReturned then .returned p.request [] else .waiting p.request
  | o :: rest, p =>
    if p.isReturned then .returned p.request (o :: rest) else resume config rest (p.next config o)

variable {config : Config}

@[simp] theorem resume_returned (script : List RecvOutcome) (request : Bytes) :
    resume config script (.returned request) = .returned request script := by
  cases script <;> rfl

@[simp] theorem resume_nil_header (request : Bytes) :
    resume config [] (.header request) = .waiting request := rfl

@[simp] theorem resume_nil_body (headerSize contentLength : Nat) (request : Bytes) :
    resume config [] (.body headerSize contentLength request) = .waiting request := rfl

theorem resume_cons {p : RecvPhase} (h : p.isReturned = false) (o : RecvOutcome)
    (rest : List RecvOutcome) : resume config (o :: rest) p = resume config rest (p.next config o) := by
  rw [resume, h]
  rfl

/-! ## The loops are the machine -/

theorem recvBody_eq (headerSize contentLength : Nat) (script : List RecvOutcome)
    (request : Bytes) :
    recvBody config.maxBodySize headerSize contentLength script request =
      resume config script (awaitBody config headerSize contentLength request) := by
  induction script generalizing request with
  | nil =>
    rw [recvBody, awaitBody]
    split <;> rfl
  | cons o rest ih =>
    rw [recvBody.eq_def, awaitBody]
    split
    · cases o with
      | data chunk => exact ih (request ++ chunk.bytes)
      | _ => exact (resume_returned rest request).symm
    · rfl

theorem afterHeaders_eq (headerEnd : Nat) (request : Bytes) (script : List RecvOutcome) :
    afterHeaders config headerEnd request script =
      resume config script (headersEnd config headerEnd request) := by
  unfold afterHeaders headersEnd
  cases recvLocateLength request with
  | absent => exact (resume_returned script request).symm
  | dangling => exact (resume_returned script request).symm
  | value clValue =>
    simp only
    cases stoull clValue with
    | error e => exact (resume_returned script request).symm
    | ok contentLength => exact recvBody_eq _ _ _ _

theorem recvLoop_eq (script : List RecvOutcome) (request : Bytes) :
    recvLoop config script request = resume config script (.header request) := by
  induction script generalizing request with
  | nil => rfl
  | cons o rest ih =>
    rw [resume_cons rfl]
    cases o with
    | eof => exact (resume_returned rest request).symm
    | error => exact (resume_returned rest request).symm
    | eintr => exact ih request
    | eagain => exact ih request
    | data chunk =>
      rw [recvLoop, next, headerChunk]
      cases find crlfcrlf (request ++ chunk.bytes) with
      | some headerEnd => exact afterHeaders_eq headerEnd _ rest
      | none =>
        simp only
        split
        · exact (resume_returned rest _).symm
        · exact ih _

/-- **`recv_request` is the machine**, from an empty buffer in the outer loop. -/
theorem recvRequest_eq (script : List RecvOutcome) :
    recvRequest config script = resume config script (.header []) := recvLoop_eq script []

/-! ## Prefixes of a script -/

/-- Where the outcomes `pre` leave the machine. -/
def run (config : Config) (pre : List RecvOutcome) (p : RecvPhase) : RecvPhase :=
  pre.foldl (next config) p

@[simp] theorem run_nil (p : RecvPhase) : run config [] p = p := rfl

@[simp] theorem run_cons (o : RecvOutcome) (pre : List RecvOutcome) (p : RecvPhase) :
    run config (o :: pre) p = run config pre (p.next config o) := rfl

theorem run_append (pre rest : List RecvOutcome) (p : RecvPhase) :
    run config (pre ++ rest) p = run config rest (run config pre p) := List.foldl_append

theorem run_returned (pre : List RecvOutcome) (request : Bytes) :
    run config pre (.returned request) = .returned request := by
  induction pre with
  | nil => rfl
  | cons o pre ih => exact ih

/-- A call that has not returned behind `pre` goes on from there. -/
theorem resume_append {pre : List RecvOutcome} {p : RecvPhase}
    (h : (run config pre p).isReturned = false) (rest : List RecvOutcome) :
    resume config (pre ++ rest) p = resume config rest (run config pre p) := by
  induction pre generalizing p with
  | nil => rfl
  | cons o pre ih =>
    have hp : p.isReturned = false := by
      cases p with
      | returned request =>
        rw [run_returned] at h
        exact h
      | _ => rfl
    rw [List.cons_append, resume_cons hp]
    exact ih h

/-- A call that waits behind `pre` has not returned there. -/
theorem isReturned_of_waiting {pre : List RecvOutcome} {p : RecvPhase} {request : Bytes}
    (h : resume config pre p = .waiting request) : (run config pre p).isReturned = false := by
  induction pre generalizing p with
  | nil =>
    cases p with
    | returned request =>
      rw [resume_returned] at h
      cases h
    | _ => rfl
  | cons o pre ih =>
    cases hp : p.isReturned with
    | false =>
      rw [resume_cons hp] at h
      exact ih h
    | true =>
      rw [resume, hp] at h
      cases h

/-- A call that returns later than at once has consumed an outcome. -/
theorem length_lt_of_resume {script rest : List RecvOutcome} {p : RecvPhase} {request : Bytes}
    (h : resume config script p = .returned request rest) (hp : p.isReturned = false) :
    rest.length < script.length := by
  induction script generalizing p with
  | nil =>
    rw [resume, hp] at h
    cases h
  | cons o script ih =>
    rw [resume_cons hp] at h
    cases hn : (p.next config o).isReturned with
    | false => exact Nat.lt_succ_of_lt (ih h hn)
    | true =>
      obtain ⟨request', hreturned⟩ : ∃ request', p.next config o = .returned request' := by
        cases hq : p.next config o with
        | returned request' => exact ⟨request', rfl⟩
        | _ =>
          rw [hq] at hn
          cases hn
      rw [hreturned, resume_returned] at h
      cases h
      exact Nat.lt_succ_self _

end RecvPhase

open RecvPhase

/-! ## Where an outcome is met -/

/-- Some bytes were received. -/
def RecvOutcome.isData : RecvOutcome → Bool
  | .data _ => true
  | _ => false

/-- The bytes of the successful calls. -/
def dataOf (outcomes : List RecvOutcome) : Bytes :=
  outcomes.flatMap fun
    | .data chunk => chunk.bytes
    | _ => []

theorem dataOf_append (pre rest : List RecvOutcome) :
    dataOf (pre ++ rest) = dataOf pre ++ dataOf rest := List.flatMap_append

theorem dataOf_cons_data (chunk : Chunk) (rest : List RecvOutcome) :
    dataOf (.data chunk :: rest) = chunk.bytes ++ dataOf rest := rfl

theorem dataOf_snoc_data (pre : List RecvOutcome) (chunk : Chunk) :
    dataOf (pre ++ [.data chunk]) = dataOf pre ++ chunk.bytes := by
  rw [dataOf_append, dataOf_cons_data]
  exact congrArg _ (List.append_nil _)

theorem dataOf_snoc_of_not_data {o : RecvOutcome} (h : o.isData = false)
    (pre : List RecvOutcome) : dataOf (pre ++ [o]) = dataOf pre := by
  rw [dataOf_append]
  cases o with
  | data chunk => cases h
  | _ => exact List.append_nil _

/-- The place of `recv_request` behind the outcomes `pre`. -/
def phaseAfter (config : Config) (pre : List RecvOutcome) : RecvPhase :=
  RecvPhase.run config pre (.header [])

theorem phaseAfter_snoc (config : Config) (pre : List RecvOutcome) (o : RecvOutcome) :
    phaseAfter config (pre ++ [o]) = (phaseAfter config pre).next config o := run_append pre [o] _

/-- The outcomes leave the outer loop going: no end of stream, no error, no CRLFCRLF yet, and no more
    than `max_header_size` bytes. -/
structure InHeaders (config : Config) (pre : List RecvOutcome) : Prop where
  goesOn : ∀ o ∈ pre, o ≠ .eof ∧ o ≠ .error
  noEnd : find crlfcrlf (dataOf pre) = none
  small : (dataOf pre).length ≤ config.maxHeaderSize

/-- The outcomes leave the inner loop going: behind the chunk that completes the header section, in
    which the buffer declares the length `n`, there are only chunks, and they are not enough. -/
structure InBodyOf (config : Config) (pre : List RecvOutcome) (headers rest : List RecvOutcome)
    (chunk : Chunk) (headerEnd n : Nat) : Prop where
  split : pre = headers ++ .data chunk :: rest
  inHeaders : InHeaders config headers
  ends : find crlfcrlf (dataOf headers ++ chunk.bytes) = some headerEnd
  declared : LengthIs (recvLocateLength (dataOf headers ++ chunk.bytes)) n
  chunks : ∀ o ∈ rest, o.isData = true
  short : (dataOf pre).length - (headerEnd + 4) < n ∧
    (dataOf pre).length - (headerEnd + 4) < config.maxBodySize

/-- **The next outcome is met in the inner loop**: read off the outcomes before it alone. -/
def InBody (config : Config) (pre : List RecvOutcome) : Prop :=
  ∃ headers rest chunk headerEnd n, InBodyOf config pre headers rest chunk headerEnd n

/-- One more outcome in the outer loop. -/
theorem inHeaders_snoc_iff {config : Config} {pre : List RecvOutcome} {o : RecvOutcome} :
    InHeaders config (pre ++ [o]) ↔
      InHeaders config pre ∧ (o ≠ .eof ∧ o ≠ .error) ∧
        find crlfcrlf (dataOf (pre ++ [o])) = none ∧
          (dataOf (pre ++ [o])).length ≤ config.maxHeaderSize := by
  constructor
  · rintro ⟨hgoes, hend, hsmall⟩
    have hlast : o ≠ .eof ∧ o ≠ .error :=
      hgoes o (List.mem_append_right _ (List.mem_singleton_self o))
    refine ⟨⟨fun o' ho => hgoes o' (List.mem_append_left _ ho), ?_, ?_⟩, hlast, hend, hsmall⟩
    · rw [dataOf_append] at hend
      exact find_eq_none_of_append hend
    · rw [dataOf_append, List.length_append] at hsmall
      omega
  · rintro ⟨hin, hlast, hend, hsmall⟩
    refine ⟨fun o' ho => ?_, hend, hsmall⟩
    rcases List.mem_append.mp ho with ho | ho
    · exact hin.goesOn o' ho
    · rwa [List.mem_singleton.mp ho]

/-- What a chunk does in the outer loop. -/
theorem headerChunk_eq_header_iff {config : Config} {request request' : Bytes} :
    headerChunk config request = .header request' ↔
      request' = request ∧ find crlfcrlf request = none ∧
        request.length ≤ config.maxHeaderSize := by
  unfold headerChunk
  cases find crlfcrlf request with
  | some headerEnd =>
    refine iff_of_false (fun h => ?_) (fun h => by cases h.2.1)
    unfold headersEnd awaitBody at h
    simp only at h
    split at h
    · cases h
    · cases h
    · split at h
      · cases h
      · split at h <;> cases h
  | none =>
    simp only
    split
    · rename_i hbig
      refine iff_of_false (fun h => by cases h) (fun h => ?_)
      omega
    · rename_i hbig
      rw [RecvPhase.header.injEq]
      exact ⟨fun h => ⟨h.symm, trivial, Nat.not_lt.mp hbig⟩, fun h => h.1.symm⟩

/-- **The outer loop**, and what it has in its buffer. -/
theorem phaseAfter_eq_header_iff (config : Config) (pre : List RecvOutcome) (request : Bytes) :
    phaseAfter config pre = .header request ↔ InHeaders config pre ∧ request = dataOf pre := by
  induction pre using List.reverseRecOn generalizing request with
  | nil =>
    constructor
    · intro h
      cases h
      exact ⟨⟨fun o ho => absurd ho List.not_mem_nil, rfl, Nat.zero_le _⟩, rfl⟩
    · rintro ⟨-, rfl⟩
      rfl
  | append_singleton pre o ih =>
    rw [phaseAfter_snoc]
    constructor
    · intro h
      obtain ⟨r, hr⟩ : ∃ r, phaseAfter config pre = .header r := by
        cases hp : phaseAfter config pre with
        | header r => exact ⟨r, rfl⟩
        | returned r =>
          rw [hp] at h
          cases h
        | body hs n r =>
          rw [hp] at h
          cases o with
          | data chunk =>
            simp only [next, awaitBody] at h
            split at h <;> cases h
          | _ => cases h
      obtain ⟨hin, rfl⟩ := (ih r).mp hr
      rw [hr] at h
      rw [inHeaders_snoc_iff]
      cases o with
      | eof => cases h
      | error => cases h
      | eintr | eagain =>
        -- the loop goes on with the buffer it has
        cases h
        rw [dataOf_snoc_of_not_data rfl]
        exact ⟨⟨hin, ⟨nofun, nofun⟩, hin.noEnd, hin.small⟩, rfl⟩
      | data chunk =>
        obtain ⟨rfl, hend, hsmall⟩ := headerChunk_eq_header_iff.mp h
        rw [dataOf_snoc_data]
        exact ⟨⟨hin, ⟨nofun, nofun⟩, hend, hsmall⟩, rfl⟩
    · rintro ⟨hin, rfl⟩
      obtain ⟨hin, ⟨hneEof, hneError⟩, hend, hsmall⟩ := inHeaders_snoc_iff.mp hin
      rw [(ih _).mpr ⟨hin, rfl⟩]
      cases o with
      | eof => exact absurd rfl hneEof
      | error => exact absurd rfl hneError
      | eintr | eagain =>
        rw [dataOf_snoc_of_not_data rfl]
        rfl
      | data chunk =>
        rw [dataOf_snoc_data] at hend hsmall ⊢
        exact headerChunk_eq_header_iff.mpr ⟨rfl, hend, hsmall⟩

theorem awaitBody_eq_body_iff {config : Config} {headerSize n headerSize' n' : Nat}
    {request request' : Bytes} :
    awaitBody config headerSize n request = .body headerSize' n' request' ↔
      (headerSize' = headerSize ∧ n' = n ∧ request' = request) ∧
        request.length - headerSize < n ∧ request.length - headerSize < config.maxBodySize := by
  unfold awaitBody
  split
  · rename_i hshort
    rw [RecvPhase.body.injEq]
    exact ⟨fun h => ⟨⟨h.1.symm, h.2.1.symm, h.2.2.symm⟩, hshort⟩,
      fun h => ⟨h.1.1.symm, h.1.2.1.symm, h.1.2.2.symm⟩⟩
  · rename_i hshort
    exact iff_of_false (fun h => by cases h) fun h => hshort h.2

theorem headerChunk_eq_body_iff {config : Config} {headerSize n : Nat} {request request' : Bytes} :
    headerChunk config request = .body headerSize n request' ↔
      ∃ headerEnd, find crlfcrlf request = some headerEnd ∧
        LengthIs (recvLocateLength request) n ∧
          (headerSize = headerEnd + 4 ∧ request' = request) ∧
            request.length - (headerEnd + 4) < n ∧
              request.length - (headerEnd + 4) < config.maxBodySize := by
  unfold headerChunk
  cases find crlfcrlf request with
  | none =>
    refine iff_of_false (fun h => ?_) (fun h => by cases h.choose_spec.1)
    simp only at h
    split at h <;> cases h
  | some headerEnd =>
    simp only [Option.some.injEq, exists_eq_left', LengthIs]
    unfold headersEnd
    cases recvLocateLength request with
    | absent => exact iff_of_false (fun h => by cases h) (fun h => by cases h.1.choose_spec.1)
    | dangling => exact iff_of_false (fun h => by cases h) (fun h => by cases h.1.choose_spec.1)
    | value clValue =>
      simp only [Located.value.injEq, exists_eq_left']
      cases stoull clValue with
      | error e => exact iff_of_false (fun h => by cases h) (fun h => by cases h.1)
      | ok m =>
        simp only [awaitBody_eq_body_iff, Except.ok.injEq]
        constructor
        · rintro ⟨⟨hsize, rfl, hrequest⟩, hshort⟩
          exact ⟨rfl, ⟨hsize, hrequest⟩, hshort⟩
        · rintro ⟨rfl, ⟨hsize, hrequest⟩, hshort⟩
          exact ⟨⟨hsize, rfl, hrequest⟩, hshort⟩

/-- Chunks that are not enough keep the inner loop going. -/
theorem run_awaitBody {config : Config} {headerSize n : Nat} {rest : List RecvOutcome}
    (hdata : ∀ o ∈ rest, o.isData = true) (request : Bytes)
    (hshort : (request ++ dataOf rest).length - headerSize < n ∧
      (request ++ dataOf rest).length - headerSize < config.maxBodySize) :
    run config rest (awaitBody config headerSize n request) =
      .body headerSize n (request ++ dataOf rest) := by
  induction rest generalizing request with
  | nil =>
    rw [show request ++ dataOf [] = request from List.append_nil request] at hshort ⊢
    exact awaitBody_eq_body_iff.mpr ⟨⟨rfl, rfl, rfl⟩, hshort⟩
  | cons o rest ih =>
    cases o with
    | data chunk =>
      have hsplit : request ++ dataOf (.data chunk :: rest) =
          (request ++ chunk.bytes) ++ dataOf rest := (List.append_assoc ..).symm
      rw [hsplit] at hshort ⊢
      have hnow : awaitBody config headerSize n request = .body headerSize n request := by
        refine awaitBody_eq_body_iff.mpr ⟨⟨rfl, rfl, rfl⟩, ?_⟩
        rw [List.length_append, List.length_append] at hshort
        omega
      rw [run_cons, hnow]
      exact ih (fun o ho => hdata o (List.mem_cons_of_mem _ ho)) _ hshort
    | _ => cases hdata _ (List.mem_cons_self ..)

/-- **The inner loop**, what it waits for and what it has in its buffer. -/
theorem phaseAfter_eq_body_iff (config : Config) (pre : List RecvOutcome) (headerSize n : Nat)
    (request : Bytes) :
    phaseAfter config pre = .body headerSize n request ↔
      ∃ headers rest chunk headerEnd, InBodyOf config pre headers rest chunk headerEnd n ∧
        headerSize = headerEnd + 4 ∧ request = dataOf pre := by
  constructor
  · intro h
    induction pre using List.reverseRecOn generalizing request with
    | nil => cases h
    | append_singleton pre o ih =>
      rw [phaseAfter_snoc] at h
      cases hp : phaseAfter config pre with
      | returned r =>
        rw [hp] at h
        cases h
      | header r =>
        obtain ⟨hin, rfl⟩ := (phaseAfter_eq_header_iff config pre r).mp hp
        rw [hp] at h
        cases o with
        | data chunk =>
          obtain ⟨headerEnd, hend, hn, ⟨rfl, rfl⟩, hshort⟩ := headerChunk_eq_body_iff.mp h
          rw [← dataOf_snoc_data] at hshort ⊢
          exact ⟨pre, [], chunk, headerEnd, ⟨rfl, hin, hend, hn,
            fun o ho => absurd ho List.not_mem_nil, hshort⟩, rfl, rfl⟩
        | _ => cases h
      | body headerSize' n' r =>
        rw [hp] at h
        cases o with
        | data chunk =>
          obtain ⟨⟨rfl, rfl, rfl⟩, hshort⟩ := awaitBody_eq_body_iff.mp h
          obtain ⟨headers, rest, first, headerEnd, hbody, rfl, rfl⟩ := ih r hp
          rw [← dataOf_snoc_data] at hshort ⊢
          refine ⟨headers, rest ++ [.data chunk], first, headerEnd, ⟨?_, hbody.inHeaders, hbody.ends,
            hbody.declared, ?_, hshort⟩, rfl, rfl⟩
          · rw [hbody.split, List.append_assoc]
            rfl
          · intro o ho
            rcases List.mem_append.mp ho with ho | ho
            · exact hbody.chunks o ho
            · rw [List.mem_singleton.mp ho]
              rfl
        | _ => cases h
  · rintro ⟨headers, rest, chunk, headerEnd, hbody, rfl, rfl⟩
    obtain ⟨rfl, hin, hend, hn, hchunks, hshort⟩ := hbody
    have hheaders := (phaseAfter_eq_header_iff config headers _).mpr ⟨hin, rfl⟩
    have hdata : dataOf (headers ++ .data chunk :: rest) =
        (dataOf headers ++ chunk.bytes) ++ dataOf rest := by
      rw [dataOf_append, dataOf_cons_data, List.append_assoc]
    rw [hdata] at hshort ⊢
    have hnow : headerChunk config (dataOf headers ++ chunk.bytes) =
        awaitBody config (headerEnd + 4) n (dataOf headers ++ chunk.bytes) := by
      obtain ⟨v, hv, hstoull⟩ := hn
      simp only [headerChunk, hend, headersEnd, hv, hstoull]
    rw [phaseAfter, run_append, ← phaseAfter, hheaders, run_cons, next, hnow]
    exact run_awaitBody hchunks _ hshort

theorem inBody_iff (config : Config) (pre : List RecvOutcome) :
    InBody config pre ↔ ∃ headerSize n request, phaseAfter config pre = .body headerSize n request := by
  constructor
  · rintro ⟨headers, rest, chunk, headerEnd, n, h⟩
    exact ⟨_, n, _, (phaseAfter_eq_body_iff ..).mpr ⟨headers, rest, chunk, headerEnd, h, rfl, rfl⟩⟩
  · rintro ⟨headerSize, n, request, h⟩
    obtain ⟨headers, rest, chunk, headerEnd, h, -, -⟩ := (phaseAfter_eq_body_iff ..).mp h
    exact ⟨headers, rest, chunk, headerEnd, n, h⟩

/-- **When a call still waits**: its outcomes are used up, and they leave one of the two loops going. -/
theorem waits_iff (config : Config) (script : List RecvOutcome) :
    (∃ request, recvRequest config script = .waiting request) ↔
      InHeaders config script ∨ InBody config script := by
  rw [inBody_iff, recvRequest_eq]
  constructor
  · rintro ⟨request, hwaiting⟩
    have hreturned := isReturned_of_waiting hwaiting
    cases hphase : run config script (.header []) with
    | header r => exact Or.inl ((phaseAfter_eq_header_iff config script r).mp hphase).1
    | body headerSize n r => exact Or.inr ⟨headerSize, n, r, hphase⟩
    | returned r =>
      rw [hphase] at hreturned
      cases hreturned
  · -- behind the last outcome the call is in the `recv` of its loop
    have hcall : ∀ {p : RecvPhase}, phaseAfter config script = p → p.isReturned = false →
        resume config script (.header []) = .waiting p.request := by
      rintro p rfl hreturned
      have happend := resume_append hreturned []
      rw [List.append_nil] at happend
      rw [happend, resume, ← phaseAfter, hreturned]
      rfl
    rintro (hin | ⟨headerSize, n, r, hphase⟩)
    · exact ⟨_, hcall ((phaseAfter_eq_header_iff config script _).mpr ⟨hin, rfl⟩) rfl⟩
    · exact ⟨_, hcall hphase rfl⟩

end HttpServer
