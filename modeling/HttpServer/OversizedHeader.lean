/-
  Oversized header sections — does `handle_client` answer them with a 413?

  1. **Program** — the limit is tested twice.  `recv_request` gives up on a buffer that exceeds it
     without a CRLFCRLF; `parse` looks for the CRLFCRLF first, and tests the limit on its position.

  2. **Specification** (`ReportsOversize`) — the call returns a buffer that `parse` finds too large,
     and the answer is `payload_too_large`.

  3. **The cut decides** (`recvLoop_oversize`) — a buffer that reaches the end of the header section
     is reported, whatever came with it.  One that exceeds the limit before goes back without a
     CRLFCRLF, and `parse` calls it incomplete.

  4. **Bridge** (`reportsOversize_iff`) — so the header section is reported exactly if no chunk ends
     between the limit and the end of the header section.
-/
import HttpServer.Segmentation
import HttpServer.HandleClient

namespace HttpServer

open ListSearch

/-! ## The specification -/

/-- The stream is reported as too large: by `parse`, and to the client. -/
def ReportsOversize (config : Config) (client : Client) (chunks : List Chunk) : Prop :=
  ∃ request rest, recvRequest config (stream chunks) = .returned request rest ∧
    (parse request config.maxHeaderSize config.maxBodySize).error = .headerTooLarge ∧
      respond config client request =
        answer client .recordClientError HttpResponse.payloadTooLarge

/-- From the buffer `request` on, no chunk ends behind the limit and before the end of the header
    section. -/
def SkipsGap (maxHeaderSize headerSize : Nat) (request : Bytes) (chunks : List Chunk) : Prop :=
  ∀ sofar, sofar <+: chunks →
    (request ++ cutBytes sofar).length ≤ maxHeaderSize ∨
      headerSize ≤ (request ++ cutBytes sofar).length

theorem skipsGap_cons {maxHeaderSize headerSize : Nat} {request : Bytes} {c : Chunk}
    {cs : List Chunk} :
    SkipsGap maxHeaderSize headerSize request (c :: cs) ↔
      (request.length ≤ maxHeaderSize ∨ headerSize ≤ request.length) ∧
        SkipsGap maxHeaderSize headerSize (request ++ c.bytes) cs := by
  have happend : ∀ sofar, request ++ cutBytes (c :: sofar) = request ++ c.bytes ++ cutBytes sofar :=
    fun sofar => by rw [cutBytes_cons, List.append_assoc]
  constructor
  · intro h
    refine ⟨by simpa using h [] (List.nil_prefix ..), fun sofar hsofar => ?_⟩
    rw [← happend]
    exact h (c :: sofar) (List.cons_prefix_cons.mpr ⟨rfl, hsofar⟩)
  · rintro ⟨hnow, hlater⟩ sofar hsofar
    cases sofar with
    | nil => simpa using hnow
    | cons c' sofar =>
      obtain ⟨rfl, hsofar'⟩ := List.cons_prefix_cons.mp hsofar
      rw [happend]
      exact hlater sofar hsofar'

/-- Behind the header section there is no gap left. -/
theorem skipsGap_of_reached {maxHeaderSize headerSize : Nat} {request : Bytes}
    (h : headerSize ≤ request.length) (chunks : List Chunk) :
    SkipsGap maxHeaderSize headerSize request chunks := by
  intro sofar _
  rw [List.length_append]
  exact Or.inr (Nat.le_add_right_of_le h)

/-! ## What comes back -/

section Oversize

variable {config : Config} {H : HeaderSection}

/-- A call that has the header section returns, with what it has as a prefix. -/
theorem afterHeaders_stream (config : Config) (headerEnd : Nat) (request : Bytes)
    (chunks : List Chunk) :
    ∃ taken rest, afterHeaders config headerEnd request (stream chunks) =
      .returned (request ++ taken) rest := by
  have hnow : ∃ taken rest, RecvResult.returned request (stream chunks) =
      .returned (request ++ taken) rest := ⟨[], stream chunks, by rw [List.append_nil]⟩
  unfold afterHeaders
  split
  · exact hnow
  · exact hnow
  · split
    · exact hnow
    · rename_i n _
      obtain ⟨taken, -, rest, -, hreturn, -⟩ :=
        recvBody_stream config.maxBodySize (headerEnd + 4) n chunks request
      exact ⟨taken, rest, hreturn⟩

/-- **The outer loop on an oversized header section**: it gives up on the first chunk that ends in the
    gap, with a part of the section, or else returns the section and more. -/
theorem recvLoop_oversize (hbig : config.maxHeaderSize < H.bytes.length) :
    ∀ (chunks : List Chunk) (request body : Bytes), request.length ≤ config.maxHeaderSize →
      request ++ cutBytes chunks = H.bytes ++ body →
      ∃ result rest, recvLoop config (stream chunks) request = .returned result rest ∧
        (SkipsGap config.maxHeaderSize H.bytes.length request chunks → H.bytes <+: result) ∧
          (¬ SkipsGap config.maxHeaderSize H.bytes.length request chunks →
            result <+: H.bytes ∧ result.length < H.bytes.length) := by
  intro chunks
  induction chunks with
  | nil =>
    intro request body hwithin heq
    -- the cut holds the whole header section
    have hlen := congrArg List.length heq
    simp only [cutBytes_nil, List.append_nil, List.length_append] at hlen
    omega
  | cons c cs ih =>
    intro request body hwithin heq
    rw [cutBytes_cons, ← List.append_assoc] at heq
    rw [stream_cons]
    simp only [skipsGap_cons, hwithin, true_or, true_and]
    rcases Nat.lt_or_ge (request ++ c.bytes).length H.bytes.length with hshort | hreach
    · have hpre : request ++ c.bytes <+: H.bytes :=
        List.prefix_of_prefix_length_le ⟨cutBytes cs, heq⟩ (List.prefix_append _ _)
          (Nat.le_of_lt hshort)
      rw [recvLoop, find_crlfcrlf_of_short hpre hshort]
      simp only
      split
      · -- in the gap, without a CRLFCRLF
        rename_i hexceeds
        refine ⟨_, _, rfl, fun hskips => ?_, fun _ => ⟨hpre, hshort⟩⟩
        have hnow := hskips [] (List.nil_prefix ..)
        rw [cutBytes_nil, List.append_nil] at hnow
        omega
      · rename_i hwithin'
        exact ih (request ++ c.bytes) body (Nat.not_lt.mp hwithin') heq
    · have hpre : H.bytes <+: request ++ c.bytes :=
        List.prefix_of_prefix_length_le ⟨body, rfl⟩ ⟨cutBytes cs, heq⟩ hreach
      obtain ⟨taken, ht⟩ := hpre
      rw [recvLoop_data_reach _ ht.symm]
      obtain ⟨more, rest, hreturn⟩ :=
        afterHeaders_stream config (H.bytes.length - 4) (H.bytes ++ taken) cs
      refine ⟨_, rest, hreturn, fun _ => ⟨taken ++ more, (List.append_assoc ..).symm⟩, fun hgap => ?_⟩
      exact absurd (skipsGap_of_reached hreach cs) hgap

end Oversize

/-! ## The theorem -/

/-- The client is told what `parse` found. -/
theorem respond_of_headerTooLarge {config : Config} {request : Bytes} (client : Client)
    (hne : request ≠ [])
    (h : (parse request config.maxHeaderSize config.maxBodySize).error = .headerTooLarge) :
    respond config client request =
      answer client .recordClientError HttpResponse.payloadTooLarge := by
  rw [respond, if_neg hne]
  simp only [h]

/-- **When an oversized header section is reported.**  For every stream whose header section, with its
    CRLFCRLF, exceeds `max_header_size`, and every cut of it: exactly if no chunk ends behind the limit
    and before the end of the header section. -/
theorem reportsOversize_iff (config : Config) (client : Client) (chunks : List Chunk)
    (headerEnd : Nat) (hfind : find crlfcrlf (cutBytes chunks) = some headerEnd)
    (hbig : config.maxHeaderSize < headerEnd + 4) :
    ReportsOversize config client chunks ↔
      SkipsGap config.maxHeaderSize (headerEnd + 4) [] chunks := by
  obtain ⟨H, -, hlen, hraw⟩ := exists_headerSection hfind
  rw [← hlen] at hbig ⊢
  obtain ⟨result, rest, hreturn, hskips, hgap⟩ :=
    recvLoop_oversize hbig chunks [] _ (Nat.zero_le _) hraw
  have hcall : recvRequest config (stream chunks) = .returned result rest := hreturn
  constructor
  · rintro ⟨request, rest', hreturn', herror, -⟩
    rw [hcall] at hreturn'
    cases hreturn'
    by_contra hnot
    obtain ⟨hpre, hshort⟩ := hgap hnot
    simp only [parse, find_crlfcrlf_of_short hpre hshort] at herror
    cases herror
  · intro h
    obtain ⟨taken, rfl⟩ := hskips h
    have herror : (parse (H.bytes ++ taken) config.maxHeaderSize config.maxBodySize).error =
        .headerTooLarge := by
      rw [H.parse_append, if_pos hbig]
    refine ⟨_, rest, hcall, herror, respond_of_headerTooLarge client (fun hnil => ?_) herror⟩
    have hfour := H.four_le
    rw [(List.append_eq_nil_iff.mp hnil).1] at hfour
    cases hfour

/-- A header section of 27 bytes where 20 are allowed, in one chunk. -/
theorem reportsOversize_iff_one_chunk :
    ReportsOversize { threadCount := 2, maxHeaderSize := 20 } default
        [⟨str "GET / HTTP/1.1\r\nHost: a\r\n\r\n", by decide, by decide⟩] ↔
      SkipsGap 20 (23 + 4) []
        [⟨str "GET / HTTP/1.1\r\nHost: a\r\n\r\n", by decide, by decide⟩] :=
  reportsOversize_iff { threadCount := 2, maxHeaderSize := 20 } default
    [⟨str "GET / HTTP/1.1\r\nHost: a\r\n\r\n", by decide, by decide⟩] 23 (by decide) (by decide)

/-- The same header section in two chunks, the first of 22 bytes: `parse` finds no CRLFCRLF, and the
    client is answered with a 400. -/
theorem oversized_header_gets_400 :
    ¬ ReportsOversize { threadCount := 2, maxHeaderSize := 20 } default
      [⟨str "GET / HTTP/1.1\r\nHost: ", by decide, by decide⟩,
        ⟨str "a\r\n\r\n", by decide, by decide⟩] := by
  rintro ⟨request, rest, hreturn, herror, -⟩
  have hcall : recvRequest { threadCount := 2, maxHeaderSize := 20 }
      (stream [⟨str "GET / HTTP/1.1\r\nHost: ", by decide, by decide⟩,
        ⟨str "a\r\n\r\n", by decide, by decide⟩]) =
      .returned (str "GET / HTTP/1.1\r\nHost: ")
        [.data ⟨str "a\r\n\r\n", by decide, by decide⟩, .eof] := by decide +kernel
  rw [hcall] at hreturn
  cases hreturn
  exact absurd herror (by decide +kernel)

end HttpServer
