/-
  The receive buffer — how large it gets, and when `recv` is called no more.

  1. **Specification** — what `recv_request` holds at any moment of a run on a script is what it holds
     on a part of the script, in a call of `recv` or at its return.  `HoldsRequest` says of a buffer
     that it needs no more bytes, and `BoundedReads` is the bound and the end of the calls.

  2. **The invariant (`RecvPhase.Bounded`)** — in the outer loop the buffer is within
     `max_header_size` and has no header end; in the inner loop its header section overshoots that by
     one chunk at most, the length waited for is the one that the buffer declares, and neither that
     nor `max_body_size` is reached.  A chunk behind either gives the two overshoots of the bound.

  3. **Bridge** — a declared length stays what it is when more bytes come (`recvLocateLength_append`),
     so the invariant is kept by every outcome (`Bounded.next`) and by a whole run.
-/
import HttpServer.RecvPhases

namespace HttpServer

open ListSearch

/-! ## The specification -/

/-- What `recv_request` holds, in a call of `recv` or at its return. -/
def RecvResult.buffer : RecvResult → Bytes
  | .returned request _ => request
  | .waiting request => request

/-- The buffer has a header end and behind it the number of bytes that its header section, or the
    buffer as a whole, declares, or `max_body_size` bytes. -/
def HoldsRequest (config : Config) (request : Bytes) : Prop :=
  ∃ headerEnd, find crlfcrlf request = some headerEnd ∧
    ((∃ n, (Declares (request.take (headerEnd + 4)) n ∨ Declares request n) ∧
        n ≤ request.length - (headerEnd + 4)) ∨
      config.maxBodySize ≤ request.length - (headerEnd + 4))

/-- The largest buffer: both limits, and a chunk behind each. -/
def bufferBound (config : Config) : Nat := config.maxHeaderSize + config.maxBodySize + 8190

/-- The memory of one call of `recv_request`. -/
structure BoundedReads (config : Config) (script : List RecvOutcome) : Prop where
  /-- At any moment the buffer is within the bound. -/
  buffer : ∀ before, before <+: script →
    (recvRequest config before).buffer.length ≤ bufferBound config
  /-- In a call of `recv` the buffer needs more bytes. -/
  stops : ∀ before request, before <+: script → recvRequest config before = .waiting request →
    ¬HoldsRequest config request

/-! ## A declared length -/

/-- **More bytes do not change a length that is found.** -/
theorem recvLocateLength_append {s v : Bytes} (h : recvLocateLength s = .value v) (t : Bytes) :
    recvLocateLength (s ++ t) = .value v := by
  rw [recvLocateLength_eq, locateLength_eq] at h ⊢
  cases hp : find contentLengthText (lower s) with
  | none =>
    rw [hp] at h
    cases h
  | some p =>
    rw [hp] at h
    have hfit := find_add_length_le hp
    rw [contentLengthText_length, lower_length] at hfit
    rw [lower_append, find_append_of_some (lower t) hp]
    unfold valueBehind at h ⊢
    simp only at h ⊢
    cases he : find crlf (s.drop (p + 15)) with
    | none =>
      rw [he] at h
      cases h
    | some e =>
      rw [he] at h
      have hline := find_add_length_le he
      rw [List.drop_append_of_le_length hfit, find_append_of_some t he]
      simp only
      rw [List.take_append_of_le_length (by omega)]
      exact h

theorem lengthIs_append {s : Bytes} {n : Nat} (h : LengthIs (recvLocateLength s) n) (t : Bytes) :
    LengthIs (recvLocateLength (s ++ t)) n := by
  obtain ⟨v, hv, hn⟩ := h
  exact ⟨v, recvLocateLength_append hv t, hn⟩

/-- A buffer declares one length, in its header section or not. -/
theorem eq_of_declares {request : Bytes} {headerEnd n n' : Nat}
    (hfind : find crlfcrlf request = some headerEnd) (h : LengthIs (recvLocateLength request) n)
    (h' : Declares (request.take (headerEnd + 4)) n' ∨ Declares request n') : n' = n := by
  have hwhole : LengthIs (recvLocateLength request) n' := by
    rw [recvLocateLength_eq]
    rcases h' with hsection | hrequest
    · obtain ⟨H, body, rfl, -, -, htake, -⟩ := exists_cut hfind
      rw [htake] at hsection
      obtain ⟨v, hv, hn⟩ := (lengthIs_locateLength_iff _ _).mpr hsection
      rw [H.locateLength_append (H.mentions_of_locateLength hv)]
      exact ⟨v, hv, hn⟩
    · exact (lengthIs_locateLength_iff _ _).mpr hrequest
  obtain ⟨v, hv, hn⟩ := h
  obtain ⟨v', hv', hn'⟩ := hwhole
  rw [hv] at hv'
  cases hv'
  rw [hn] at hn'
  cases hn'
  rfl

/-! ## The invariant -/

/-- The inner loop waits for more bytes. -/
structure AwaitsBody (config : Config) (headerSize n : Nat) (request : Bytes) : Prop where
  ends : ∃ headerEnd, find crlfcrlf request = some headerEnd ∧ headerSize = headerEnd + 4
  declared : LengthIs (recvLocateLength request) n
  small : headerSize ≤ config.maxHeaderSize + 4095
  short : request.length - headerSize < n ∧ request.length - headerSize < config.maxBodySize

namespace RecvPhase

/-- **The crux**: in each phase the buffer is short, for the reason why that phase goes on. -/
def Bounded (config : Config) : RecvPhase → Prop
  | .header request => request.length ≤ config.maxHeaderSize ∧ find crlfcrlf request = none
  | .body headerSize n request => AwaitsBody config headerSize n request
  | .returned request => request.length ≤ bufferBound config

variable {config : Config}

/-- The inner loop goes on, or returns a buffer within the bound. -/
theorem bounded_awaitBody {headerSize n : Nat} {request : Bytes}
    (hends : ∃ headerEnd, find crlfcrlf request = some headerEnd ∧ headerSize = headerEnd + 4)
    (hdeclared : LengthIs (recvLocateLength request) n)
    (hsmall : headerSize ≤ config.maxHeaderSize + 4095)
    (hlength : request.length ≤ bufferBound config) :
    (awaitBody config headerSize n request).Bounded config := by
  unfold awaitBody
  split
  · rename_i hshort
    exact ⟨hends, hdeclared, hsmall, hshort⟩
  · exact hlength

/-- A chunk in the outer loop. -/
theorem bounded_headerChunk {request : Bytes}
    (hlength : request.length ≤ config.maxHeaderSize + 4095) :
    (headerChunk config request).Bounded config := by
  have hreturned : request.length ≤ bufferBound config := by
    unfold bufferBound
    omega
  unfold headerChunk
  cases hfind : find crlfcrlf request with
  | none =>
    simp only
    split
    · exact hreturned
    · rename_i hwithin
      exact ⟨Nat.not_lt.mp hwithin, hfind⟩
  | some headerEnd =>
    have hfit : headerEnd + 4 ≤ request.length := find_add_length_le hfind
    simp only [headersEnd]
    cases hv : recvLocateLength request with
    | absent => exact hreturned
    | dangling => exact hreturned
    | value v =>
      simp only
      cases hn : stoull v with
      | error e => exact hreturned
      | ok n =>
        exact bounded_awaitBody ⟨headerEnd, hfind, rfl⟩ ⟨v, hv, hn⟩ (by omega) hreturned

/-- A buffer at any place is within the bound. -/
theorem Bounded.length_le {p : RecvPhase} (h : p.Bounded config) :
    p.request.length ≤ bufferBound config := by
  cases p with
  | header request =>
    have hlength : request.length ≤ config.maxHeaderSize := h.1
    show request.length ≤ bufferBound config
    unfold bufferBound
    omega
  | body headerSize n request =>
    have hsmall := AwaitsBody.small h
    have hshort := AwaitsBody.short h
    -- the header section and the body are each within their limit and a chunk
    show request.length ≤ bufferBound config
    unfold bufferBound
    omega
  | returned request => exact h

/-- **Every outcome keeps the invariant.** -/
theorem Bounded.next {p : RecvPhase} (h : p.Bounded config) (o : RecvOutcome) :
    (p.next config o).Bounded config := by
  have hreturned := h.length_le
  cases p with
  | header request =>
    obtain ⟨hlength, hnone⟩ := h
    cases o with
    | data chunk =>
      have hchunk := chunk.length_le
      refine bounded_headerChunk ?_
      rw [List.length_append]
      omega
    | eintr => exact ⟨hlength, hnone⟩
    | eagain => exact ⟨hlength, hnone⟩
    | eof => exact hreturned
    | error => exact hreturned
  | body headerSize n request =>
    obtain ⟨⟨headerEnd, hfind, hsize⟩, hdeclared, hsmall, hshort⟩ := h
    have hfit : headerEnd + 4 ≤ request.length := find_add_length_le hfind
    cases o with
    | data chunk =>
      have hchunk := chunk.length_le
      refine bounded_awaitBody ⟨headerEnd, find_append_of_some _ hfind, hsize⟩
        (lengthIs_append hdeclared _) hsmall ?_
      -- the header section and the body are past their limits by a chunk each
      rw [List.length_append, bufferBound]
      omega
    | eof => exact hreturned
    | eintr => exact hreturned
    | eagain => exact hreturned
    | error => exact hreturned
  | returned request => exact h

/-- Before its return the buffer needs more bytes. -/
theorem Bounded.not_holdsRequest {p : RecvPhase} (h : p.Bounded config)
    (hp : p.isReturned = false) : ¬HoldsRequest config p.request := by
  rintro ⟨headerEnd, hfind, henough⟩
  cases p with
  | header request =>
    have hend : find crlfcrlf request = some headerEnd := hfind
    rw [h.2] at hend
    cases hend
  | body headerSize n request =>
    obtain ⟨⟨headerEnd', hfind', rfl⟩, hdeclared, -, hshort⟩ := h
    have hend : find crlfcrlf request = some headerEnd := hfind
    rw [hfind'] at hend
    cases hend
    rcases henough with ⟨n', hn', hle⟩ | hle
    · rw [eq_of_declares hfind' hdeclared hn'] at hle
      exact absurd hshort.1 (Nat.not_lt.mpr hle)
    · exact absurd hshort.2 (Nat.not_lt.mpr hle)
  | returned request => cases hp

/-- **A run keeps the invariant**: the buffer it ends with, and the one of a call of `recv`. -/
theorem Bounded.resume {p : RecvPhase} (h : p.Bounded config) (script : List RecvOutcome) :
    (resume config script p).buffer.length ≤ bufferBound config ∧
      ∀ request, RecvPhase.resume config script p = .waiting request →
        ¬HoldsRequest config request := by
  induction script generalizing p with
  | nil =>
    rw [RecvPhase.resume]
    cases hp : p.isReturned with
    | true =>
      refine ⟨h.length_le, ?_⟩
      intro request hwaiting
      cases hwaiting
    | false =>
      refine ⟨h.length_le, ?_⟩
      intro request hwaiting
      cases hwaiting
      exact h.not_holdsRequest hp
  | cons o rest ih =>
    cases hp : p.isReturned with
    | true =>
      rw [RecvPhase.resume, hp]
      refine ⟨h.length_le, ?_⟩
      intro request hwaiting
      cases hwaiting
    | false =>
      rw [resume_cons hp]
      exact ih (h.next o)

end RecvPhase

/-! ## The theorem -/

/-- **The memory of a connection is bounded.**  For every configuration and every script of outcomes,
    whatever length is declared: the buffer never exceeds both limits and two chunks, and `recv` is
    not called again once the buffer needs no more bytes. -/
theorem recvRequest_boundedReads (config : Config) (script : List RecvOutcome) :
    BoundedReads config script := by
  have hinit : (RecvPhase.header []).Bounded config := ⟨Nat.zero_le _, rfl⟩
  constructor
  · intro before _
    rw [RecvPhase.recvRequest_eq]
    exact (hinit.resume before).1
  · intro before request _ hwaiting
    rw [RecvPhase.recvRequest_eq] at hwaiting
    exact (hinit.resume before).2 request hwaiting

end HttpServer
