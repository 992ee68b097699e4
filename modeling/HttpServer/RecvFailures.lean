/-
  Failed receives — what `recv_request` makes of a timeout and of an interruption.

  1. **Program** — the outer loop goes on after `EINTR` and after `EAGAIN`, which is what a `recv`
     that runs into `SO_RCVTIMEO` fails with; the inner loop breaks on every failure.

  2. **The receive timeout** (`ReleasesOnTimeout`) — a call whose `recv` times out returns, with every
     later outcome unread.  It does so exactly if no timeout is met in the outer loop
     (`releasesOnTimeout_iff`).

  3. **Interruptions** (`InterruptsInvisible`) — a script gives the same bytes with its interruptions
     as without.  It does exactly if an interruption in the inner loop is followed, less further ones,
     by an outcome that ends the loop in any case (`interruptsInvisible_iff`).
-/
import HttpServer.RecvPhases

namespace HttpServer

open RecvPhase

/-! ## The receive timeout -/

/-- Whenever a `recv` of the call fails with the timeout, the call returns and leaves all later
    outcomes unread. -/
def ReleasesOnTimeout (config : Config) (script : List RecvOutcome) : Prop :=
  ∀ pre post, script = pre ++ .eagain :: post →
    (∃ request, recvRequest config pre = .waiting request) →
      ∃ request, recvRequest config script = .returned request post

/-- **When a timeout releases the worker.**  For every script: exactly if no timeout comes while the
    header section is incomplete and within `max_header_size`, the stream has not ended and no error
    has come. -/
theorem releasesOnTimeout_iff (config : Config) (script : List RecvOutcome) :
    ReleasesOnTimeout config script ↔
      ∀ pre post, script = pre ++ .eagain :: post → ¬ InHeaders config pre := by
  constructor
  · intro h pre post hscript hin
    have hphase := (phaseAfter_eq_header_iff config pre _).mpr ⟨hin, rfl⟩
    have hreturned : (phaseAfter config pre).isReturned = false := by rw [hphase]; rfl
    have hwaiting : recvRequest config pre = .waiting (dataOf pre) := by
      have happend := resume_append hreturned []
      rw [List.append_nil] at happend
      rw [recvRequest_eq, happend, ← phaseAfter, hphase, resume_nil_header]
    obtain ⟨request, hreturn⟩ := h pre post hscript ⟨_, hwaiting⟩
    -- the outer loop is where it was, and at least one more `recv` is called
    rw [hscript, recvRequest_eq, resume_append hreturned, ← phaseAfter, hphase,
      resume_cons rfl] at hreturn
    exact absurd (length_lt_of_resume hreturn rfl) (Nat.lt_irrefl _)
  · intro h pre post hscript hwaiting
    obtain ⟨request, hwaiting⟩ := hwaiting
    rw [recvRequest_eq] at hwaiting
    have hreturned := isReturned_of_waiting hwaiting
    rw [hscript, recvRequest_eq, resume_append hreturned, resume_cons hreturned]
    cases hphase : run config pre (.header []) with
    | header r =>
      exact absurd ((phaseAfter_eq_header_iff config pre r).mp hphase).1 (h pre post hscript)
    | body headerSize n r => exact ⟨r, resume_returned post r⟩
    | returned r =>
      rw [hphase] at hreturned
      cases hreturned

/-- A client that connects and stays silent: any number of timeouts is waited through. -/
theorem timeouts_hold_worker :
    ¬ ReleasesOnTimeout { threadCount := 2 } [.eagain, .eagain] ∧
      ∀ k, recvRequest { threadCount := 2 } (List.replicate k .eagain) = .waiting [] := by
  refine ⟨fun h => ?_, fun k => ?_⟩
  · obtain ⟨request, hreturn⟩ := h [] [.eagain] rfl ⟨[], rfl⟩
    cases hreturn
  · induction k with
    | zero => rfl
    | succ k ih => exact ih

/-! ## Interruptions -/

/-- What the call returns, if it does. -/
def RecvResult.bytes : RecvResult → Option Bytes
  | .returned request _ => some request
  | .waiting _ => none

/-- The script without its interruptions. -/
def uninterrupted (script : List RecvOutcome) : List RecvOutcome :=
  script.filter fun o => o ≠ .eintr

/-- The call returns the same bytes with the interruptions of the script as without. -/
def InterruptsInvisible (config : Config) (script : List RecvOutcome) : Prop :=
  (recvRequest config script).bytes = (recvRequest config (uninterrupted script)).bytes

variable {config : Config}

theorem uninterrupted_cons_of_ne {o : RecvOutcome} (h : o ≠ .eintr) (script : List RecvOutcome) :
    uninterrupted (o :: script) = o :: uninterrupted script :=
  List.filter_cons_of_pos (by simpa using h)

theorem bytes_resume_of_isReturned {p : RecvPhase} (h : p.isReturned = true)
    (script : List RecvOutcome) : (resume config script p).bytes = some p.request := by
  cases p with
  | returned request => rw [resume_returned]; rfl
  | _ => cases h

/-- Outside the inner loop interruptions change nothing. -/
theorem bytes_resume_uninterrupted {script : List RecvOutcome} {p : RecvPhase}
    (h : ∀ pre post, script = pre ++ .eintr :: post →
      ∀ headerSize n request, run config pre p ≠ .body headerSize n request) :
    (resume config script p).bytes = (resume config (uninterrupted script) p).bytes := by
  induction script generalizing p with
  | nil => rfl
  | cons o rest ih =>
    cases hp : p.isReturned with
    | true => rw [bytes_resume_of_isReturned hp, bytes_resume_of_isReturned hp]
    | false =>
      have hrest : ∀ pre post, rest = pre ++ .eintr :: post →
          ∀ headerSize n request,
            run config pre (p.next config o) ≠ .body headerSize n request := by
        intro pre post hsplit
        exact h (o :: pre) post (congrArg (o :: ·) hsplit)
      rw [resume_cons hp]
      by_cases ho : o = .eintr
      · subst ho
        have hnext : p.next config .eintr = p := by
          cases hq : p with
          | header request => rfl
          | body headerSize n request => exact absurd hq (h [] rest rfl headerSize n request)
          | returned request =>
            rw [hq] at hp
            cases hp
        rw [hnext] at hrest ⊢
        exact ih hrest
      · rw [uninterrupted_cons_of_ne ho, resume_cons hp]
        exact ih hrest

/-- Outcomes that lead into a loop lead there without their interruptions, too. -/
theorem run_uninterrupted {pre : List RecvOutcome} {p : RecvPhase}
    (h : (run config pre p).isReturned = false) :
    run config (uninterrupted pre) p = run config pre p := by
  induction pre generalizing p with
  | nil => rfl
  | cons o pre ih =>
    by_cases ho : o = .eintr
    · subst ho
      have hnext : p.next config .eintr = p := by
        cases hq : p with
        | header request => rfl
        | returned request => rfl
        | body headerSize n request =>
          -- the inner loop breaks
          rw [hq, run_cons, next, run_returned] at h
          cases h
          all_goals exact fun _ => RecvOutcome.noConfusion
      rw [run_cons, hnext] at h ⊢
      exact ih h
    · rw [uninterrupted_cons_of_ne ho]
      exact ih h

/-- The buffer only grows. -/
theorem isPrefix_of_bytes {script : List RecvOutcome} {p : RecvPhase} {request : Bytes}
    (h : (resume config script p).bytes = some request) : p.request <+: request := by
  induction script generalizing p with
  | nil =>
    cases hp : p.isReturned with
    | true =>
      rw [bytes_resume_of_isReturned hp] at h
      exact (Option.some.inj h) ▸ List.prefix_refl _
    | false =>
      rw [resume, hp] at h
      cases h
  | cons o script ih =>
    cases hp : p.isReturned with
    | true =>
      rw [bytes_resume_of_isReturned hp] at h
      exact (Option.some.inj h) ▸ List.prefix_refl _
    | false =>
      rw [resume_cons hp] at h
      have hnext := ih h
      rcases request_next config p o with hsame | ⟨chunk, -, -, happend⟩
      · exact hsame ▸ hnext
      · rw [happend] at hnext
        exact (List.prefix_append _ _).trans hnext

/-- The inner loop returns the buffer it has now exactly if the next outcome ends it: a chunk would
    be appended. -/
theorem bytes_of_body {headerSize n : Nat} {request : Bytes} {rest : List RecvOutcome} :
    (resume config rest (.body headerSize n request)).bytes = some request ↔
      ∃ o tail, rest = o :: tail ∧ o.isData = false := by
  cases rest with
  | nil => exact iff_of_false (fun h => by cases h) (fun ⟨o, tail, h, _⟩ => by cases h)
  | cons o tail =>
    rw [resume_cons rfl]
    cases o with
    | data chunk =>
      refine iff_of_false (fun h => ?_) ?_
      · have hprefix := (isPrefix_of_bytes h).length_le
        rw [next, request_awaitBody, List.length_append] at hprefix
        have hpos : 0 < chunk.bytes.length := List.length_pos_of_ne_nil chunk.nonempty
        omega
      · rintro ⟨o, tail', h, hdata⟩
        cases h
        cases hdata
    | _ =>
      rw [next, resume_returned]
      exact iff_of_true rfl ⟨_, tail, rfl, rfl⟩
      all_goals exact fun _ => RecvOutcome.noConfusion

/-- **When interruptions are invisible.**  For every script: exactly if behind every interruption that
    the inner loop meets, less further ones, there is an outcome that is no chunk.  The inner loop
    meets it (`InBody`) as soon as the header section is complete, with a length declared, and as long
    as the bytes behind the CRLFCRLF, possibly none, are fewer than that length and than
    `max_body_size`. -/
theorem interruptsInvisible_iff (config : Config) (script : List RecvOutcome) :
    InterruptsInvisible config script ↔
      ∀ pre post, script = pre ++ .eintr :: post → InBody config pre →
        ∃ o tail, uninterrupted post = o :: tail ∧ o.isData = false := by
  -- what is returned on both scripts, where the inner loop meets an interruption
  have hmet : ∀ pre post, script = pre ++ .eintr :: post → InBody config pre →
      (InterruptsInvisible config script ↔
        ∃ o tail, uninterrupted post = o :: tail ∧ o.isData = false) := by
    intro pre post hscript hbody
    obtain ⟨headerSize, n, request, hphase⟩ := (inBody_iff config pre).mp hbody
    have hphase' : run config pre (.header []) = .body headerSize n request := hphase
    have hreturned : (run config pre (.header [])).isReturned = false := by rw [hphase']; rfl
    have hsplit : uninterrupted script = uninterrupted pre ++ uninterrupted post := by
      rw [hscript, uninterrupted, List.filter_append]
      rfl
    have hclean := run_uninterrupted hreturned
    rw [InterruptsInvisible, recvRequest_eq, recvRequest_eq, hsplit, hscript,
      resume_append hreturned, resume_append (hclean ▸ hreturned), hclean, hphase', resume_cons rfl,
      next, resume_returned, ← bytes_of_body]
    · exact eq_comm
    all_goals exact fun _ => RecvOutcome.noConfusion
  constructor
  · exact fun h pre post hscript hbody => (hmet pre post hscript hbody).mp h
  · intro h
    by_cases hany : ∃ pre post, script = pre ++ .eintr :: post ∧ InBody config pre
    · obtain ⟨pre, post, hscript, hbody⟩ := hany
      exact (hmet pre post hscript hbody).mpr (h pre post hscript hbody)
    · rw [InterruptsInvisible, recvRequest_eq, recvRequest_eq]
      refine bytes_resume_uninterrupted fun pre post hscript headerSize n request hphase => ?_
      exact hany ⟨pre, post, hscript, (inBody_iff config pre).mpr ⟨headerSize, n, request, hphase⟩⟩

/-- The chunks of an upload, with a signal between them: what has come so far goes back as the
    request, and `parse` calls it incomplete. -/
def interruptedUpload : List RecvOutcome :=
  [.data ⟨str "POST / HTTP/1.1\r\nContent-Length: 3\r\n\r\na", by decide, by decide⟩, .eintr,
    .data ⟨str "bc", by decide, by decide⟩]

theorem interrupt_truncates_upload :
    ¬ InterruptsInvisible { threadCount := 2 } interruptedUpload ∧
      (recvRequest { threadCount := 2 } interruptedUpload).bytes =
        some (str "POST / HTTP/1.1\r\nContent-Length: 3\r\n\r\na") ∧
      (recvRequest { threadCount := 2 } (uninterrupted interruptedUpload)).bytes =
        some (str "POST / HTTP/1.1\r\nContent-Length: 3\r\n\r\nabc") := by
  have hcut : (recvRequest { threadCount := 2 } interruptedUpload).bytes =
      some (str "POST / HTTP/1.1\r\nContent-Length: 3\r\n\r\na") := by decide +kernel
  have hwhole : (recvRequest { threadCount := 2 } (uninterrupted interruptedUpload)).bytes =
      some (str "POST / HTTP/1.1\r\nContent-Length: 3\r\n\r\nabc") := by decide +kernel
  refine ⟨fun h => ?_, hcut, hwhole⟩
  rw [InterruptsInvisible, hcut, hwhole] at h
  exact absurd h (by decide)

end HttpServer
