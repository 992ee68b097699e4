/-
  Requests on a stream — what the server answers when a request comes in pieces and more follows it.

  1. **Finality (`parse_append_of_decided`)** — once `parse` says anything but INCOMPLETE, what follows
     in the stream changes nothing, except that a request without a length takes it as its body
     (`openBody`).  So `parse` is a reader of a stream (`requestReader`), and a stream that is decided
     begins with a message.

  2. **Bridge (`received_prefix`)** — whatever `recv` gives, `recv_request` returns a front part of
     the bytes that were sent.

  3. **Answers (`answer_of_stream`)** — so there are three: no response when nothing came, the 400 for
     an incomplete request when the message was cut short, and the response to the message.  And there
     is no answer yet, and may never be, while `recv_request` waits for more of the header section
     or of the body.
-/
import HttpServer.Lib.StreamReader
import HttpServer.Acceptance
import HttpServer.RecvFailures
import HttpServer.ResponseFraming

namespace HttpServer

open ListSearch

variable {maxHeaderSize maxBodySize : Nat}

/-! ## Finality -/

/-- The request is accepted without a length: what follows its header section is its body. -/
def openBody (raw : Bytes) (maxHeaderSize maxBodySize : Nat) : Bool :=
  (parse raw maxHeaderSize maxBodySize).error = .none &&
    match find crlfcrlf raw with
    | none => false
    | some headerEnd => locateLength (raw.take (headerEnd + 4)) = .absent

/-- A body that is decided: with a length it is cut, without one it takes all. -/
theorem frameBody_append_of_decided {result : ParseResult} {located : Located} {body : Bytes}
    (h : (frameBody result located body maxBodySize).error ≠ .incomplete) (more : Bytes) :
    frameBody result located (body ++ more) maxBodySize =
      if located = .absent then { result with body := body ++ more }
      else frameBody result located body maxBodySize := by
  cases located with
  | absent => rfl
  | dangling => rfl
  | value v =>
    rw [if_neg (by simp)]
    cases hn : stoull v with
    | error e => simp only [frameBody, hn]
    | ok n =>
      simp only [frameBody, hn] at h ⊢
      by_cases hmax : n > maxBodySize
      · rw [if_pos hmax, if_pos hmax]
      · by_cases hshort : body.length < n
        · rw [if_neg hmax, if_pos hshort] at h
          exact absurd rfl h
        · have hlong : ¬ (body ++ more).length < n := by
            rw [List.length_append]
            omega
          rw [if_neg hmax, if_neg hmax, if_neg hlong, if_neg hshort,
            List.take_append_of_le_length (by omega)]

namespace HeaderSection

variable (H : HeaderSection)

theorem openBody_append (body : Bytes) :
    openBody (H.bytes ++ body) maxHeaderSize maxBodySize =
      ((parse (H.bytes ++ body) maxHeaderSize maxBodySize).error = .none &&
        locateLength H.bytes = .absent : Bool) := by
  have hcut := H.cut (H.find_append body)
  simp only [openBody, H.find_append]
  rw [hcut.2.2.1]

end HeaderSection

/-- A decided buffer has a header section. -/
theorem exists_section_of_decided {raw : Bytes}
    (h : (parse raw maxHeaderSize maxBodySize).error ≠ .incomplete) :
    ∃ (H : HeaderSection) (body : Bytes), raw = H.bytes ++ body := by
  cases hfind : find crlfcrlf raw with
  | none =>
    simp only [parse, hfind] at h
    exact absurd rfl h
  | some headerEnd =>
    obtain ⟨H, body, hraw, -⟩ := exists_cut hfind
    exact ⟨H, body, hraw⟩

/-- **What `parse` has decided stays.** -/
theorem parse_append_of_decided {raw : Bytes}
    (h : (parse raw maxHeaderSize maxBodySize).error ≠ .incomplete) (more : Bytes) :
    parse (raw ++ more) maxHeaderSize maxBodySize =
      if openBody raw maxHeaderSize maxBodySize then
        { parse raw maxHeaderSize maxBodySize with
          body := (parse raw maxHeaderSize maxBodySize).body ++ more }
      else parse raw maxHeaderSize maxBodySize := by
  obtain ⟨H, body, rfl⟩ := exists_section_of_decided h
  rw [H.openBody_append, List.append_assoc]
  rw [H.parse_append] at h ⊢
  rw [H.parse_append]
  by_cases hsize : H.bytes.length > maxHeaderSize
  · rw [if_pos hsize, if_pos hsize]
    rfl
  · rw [if_neg hsize] at h ⊢
    rw [if_neg hsize]
    by_cases herr : (parseHead H.head).error ≠ .none
    · rw [if_pos herr, if_pos herr]
      simp [herr]
    · rw [if_neg herr] at h ⊢
      rw [if_neg herr, frameBody_append_of_decided h]
      by_cases habsent : locateLength H.bytes = .absent
      · rw [habsent]
        simp [frameBody, not_not.mp herr]
      · simp [habsent]

theorem error_append_of_decided {raw : Bytes}
    (h : (parse raw maxHeaderSize maxBodySize).error ≠ .incomplete) (more : Bytes) :
    (parse (raw ++ more) maxHeaderSize maxBodySize).error =
      (parse raw maxHeaderSize maxBodySize).error := by
  rw [parse_append_of_decided h]
  split <;> rfl

theorem openBody_append_of_decided {raw : Bytes}
    (h : (parse raw maxHeaderSize maxBodySize).error ≠ .incomplete) (more : Bytes) :
    openBody (raw ++ more) maxHeaderSize maxBodySize = openBody raw maxHeaderSize maxBodySize := by
  have herror := error_append_of_decided h more
  obtain ⟨H, body, rfl⟩ := exists_section_of_decided h
  rw [List.append_assoc] at herror ⊢
  rw [H.openBody_append, H.openBody_append, herror]

/-! ## The reader -/

/-- What is final about the result: all of it, or all but the body. -/
def decision (maxHeaderSize maxBodySize : Nat) (raw : Bytes) : Option ParseResult :=
  let result := parse raw maxHeaderSize maxBodySize
  if result.error = .incomplete then none
  else if openBody raw maxHeaderSize maxBodySize then some { result with body := [] }
  else some result

theorem decision_eq_none_iff {raw : Bytes} :
    decision maxHeaderSize maxBodySize raw = none ↔
      (parse raw maxHeaderSize maxBodySize).error = .incomplete := by
  unfold decision
  by_cases h : (parse raw maxHeaderSize maxBodySize).error = .incomplete
  · simp [h]
  · simp only [if_neg h]
    split <;> simp [h]

theorem decision_append {raw : Bytes} {result : ParseResult}
    (h : decision maxHeaderSize maxBodySize raw = some result) (more : Bytes) :
    decision maxHeaderSize maxBodySize (raw ++ more) = some result := by
  have hdecided : (parse raw maxHeaderSize maxBodySize).error ≠ .incomplete := by
    intro herr
    rw [decision_eq_none_iff.mpr herr] at h
    cases h
  have herror := error_append_of_decided hdecided more
  rw [← h, decision, decision, if_neg hdecided, if_neg (herror ▸ hdecided),
    openBody_append_of_decided hdecided, parse_append_of_decided hdecided]
  by_cases hopen : openBody raw maxHeaderSize maxBodySize = true
  · rw [if_pos hopen, if_pos hopen, if_pos hopen]
  · rw [if_neg hopen, if_neg hopen, if_neg hopen]

/-- `parse`, as a reader of a stream of requests. -/
def requestReader (maxHeaderSize maxBodySize : Nat) : StreamReader Byte ParseResult :=
  ⟨decision maxHeaderSize maxBodySize, decision_append⟩

/-- A message is decided. -/
theorem error_of_message {s : Bytes} {result : ParseResult}
    (h : (requestReader maxHeaderSize maxBodySize).Message s result) :
    (parse s maxHeaderSize maxBodySize).error ≠ .incomplete := by
  intro herr
  have hwhole : decision maxHeaderSize maxBodySize s = some result := h.whole
  rw [decision_eq_none_iff.mpr herr] at hwhole
  cases hwhole

/-- A message without a length is a header section. -/
theorem body_of_open_message {s : Bytes} {result : ParseResult}
    (h : (requestReader maxHeaderSize maxBodySize).Message s result)
    (hopen : openBody s maxHeaderSize maxBodySize = true) :
    result = { parse s maxHeaderSize maxBodySize with body := [] } ∧
      (parse s maxHeaderSize maxBodySize).body = [] := by
  have hdecided := error_of_message h
  have hwhole : decision maxHeaderSize maxBodySize s = some result := h.whole
  rw [decision, if_neg hdecided, if_pos hopen] at hwhole
  refine ⟨(Option.some.inj hwhole).symm, ?_⟩
  obtain ⟨H, body, rfl⟩ := exists_section_of_decided hdecided
  rw [H.openBody_append, Bool.and_eq_true, decide_eq_true_iff, decide_eq_true_iff] at hopen
  obtain ⟨herror, habsent⟩ := hopen
  have hfits := H.fits_of_error_none herror
  have hm : ¬ Mentions H.bytes := by
    intro hm
    obtain ⟨v, hv⟩ := H.locateLength_value hm
    rw [hv] at habsent
    cases habsent
  -- the header section is decided already, so there is no more of the message
  have hsection : decision maxHeaderSize maxBodySize H.bytes ≠ none := by
    intro hnone
    have hparse := H.parse_of_fits_of_not_mentions hfits hm [] maxBodySize
    rw [List.append_nil] at hparse
    rw [decision_eq_none_iff, hparse] at hnone
    have hhead : (parseHead H.head).error = .none := (parseHead_error_eq_none_iff H.head).mpr hfits.2
    rw [show (parseHead H.head).error = .incomplete from hnone] at hhead
    cases hhead
  have hall : H.bytes = H.bytes ++ body := by
    by_contra hne
    exact hsection (h.part H.bytes (List.prefix_append _ _) hne)
  rw [H.parse_of_fits_of_not_mentions hfits hm]
  exact (List.self_eq_append_right.mp hall)

/-! ## What is received -/

namespace RecvPhase

variable {config : Config}

theorem request_next_data {p : RecvPhase} (hp : p.isReturned = false) (chunk : Chunk) :
    (p.next config (.data chunk)).request = p.request ++ chunk.bytes := by
  cases p with
  | returned request => cases hp
  | header request => exact request_headerChunk config _
  | body headerSize n request => exact request_awaitBody config _ _ _

theorem request_next_of_not_data {o : RecvOutcome} (h : o.isData = false) (p : RecvPhase) :
    (p.next config o).request = p.request := by
  rcases request_next config p o with hsame | ⟨chunk, rfl, -, -⟩
  · exact hsame
  · cases h

/-- A call that has returned adds nothing. -/
theorem bytes_resume_prefix_of_isReturned {script : List RecvOutcome} {p : RecvPhase}
    {request : Bytes} (hp : p.isReturned = true)
    (h : (resume config script p).bytes = some request) :
    ∃ taken, taken <+: dataOf script ∧ request = p.request ++ taken := by
  rw [bytes_resume_of_isReturned hp] at h
  exact ⟨[], List.nil_prefix, by rw [List.append_nil, Option.some.inj h]⟩

/-- **A call adds bytes in the order in which they were sent.** -/
theorem bytes_resume_prefix {script : List RecvOutcome} {p : RecvPhase} {request : Bytes}
    (h : (resume config script p).bytes = some request) :
    ∃ taken, taken <+: dataOf script ∧ request = p.request ++ taken := by
  induction script generalizing p with
  | nil =>
    cases hp : p.isReturned with
    | true => exact bytes_resume_prefix_of_isReturned hp h
    | false =>
      rw [resume, hp] at h
      cases h
  | cons o script ih =>
    cases hp : p.isReturned with
    | true => exact bytes_resume_prefix_of_isReturned hp h
    | false =>
      rw [resume_cons hp] at h
      obtain ⟨taken, htaken, hrequest⟩ := ih h
      cases hdata : o.isData with
      | false =>
        have hstream : dataOf (o :: script) = dataOf script := by
          cases o with
          | data chunk => cases hdata
          | _ => rfl
        exact ⟨taken, hstream ▸ htaken, by rw [hrequest, request_next_of_not_data hdata]⟩
      | true =>
        obtain ⟨chunk, rfl⟩ : ∃ chunk, o = .data chunk := by
          cases o with
          | data chunk => exact ⟨chunk, rfl⟩
          | _ => cases hdata
        refine ⟨chunk.bytes ++ taken, ?_, ?_⟩
        · rw [dataOf_cons_data]
          exact (List.prefix_append_right_inj _).mpr htaken
        · rw [hrequest, request_next_data hp, List.append_assoc]

end RecvPhase

/-- **What is received is a front part of what was sent.** -/
theorem Client.received_prefix {config : Config} {client : Client} {raw : Bytes}
    (h : client.received config = some raw) : raw <+: dataOf client.recvScript := by
  have hbytes : (recvRequest config client.recvScript).bytes = some raw := by
    unfold Client.received at h
    cases hresult : recvRequest config client.recvScript with
    | returned request rest =>
      rw [hresult] at h
      exact h
    | waiting request =>
      rw [hresult] at h
      cases h
  rw [RecvPhase.recvRequest_eq] at hbytes
  obtain ⟨taken, htaken, rfl⟩ := RecvPhase.bytes_resume_prefix hbytes
  exact htaken

/-- `recv_request` does not return exactly if the outcomes end in one of its loops. -/
theorem Client.received_eq_none_iff {config : Config} {client : Client} :
    client.received config = none ↔
      InHeaders config client.recvScript ∨ InBody config client.recvScript := by
  rw [← waits_iff, Client.received]
  cases recvRequest config client.recvScript with
  | returned request rest => simp
  | waiting request => simp

/-- Nothing is sent to a client while `recv_request` waits. -/
theorem sendAll_not_mem_of_waits {config : Config} {client : Client}
    (h : client.received config = none) (data : Bytes) :
    Effect.sendAll data ∉ handleClient config client := by
  rw [Client.received] at h
  rw [handleClient]
  cases hresult : recvRequest config client.recvScript with
  | returned request rest =>
    rw [hresult] at h
    cases h
  | waiting request => simp

/-! ## The answers -/

theorem responseTo_of_incomplete {config : Config} {client : Client} {raw : Bytes}
    (hne : raw ≠ [])
    (h : (parse raw config.maxHeaderSize config.maxBodySize).error = .incomplete) :
    responseTo config client raw =
      some (HttpResponse.badRequest (str "Incomplete request")) := by
  simp only [responseTo, if_neg hne, h]

/-- Buffers that parse alike are answered alike. -/
theorem responseTo_congr {config : Config} {client : Client} {raw raw' : Bytes} (hne : raw ≠ [])
    (hne' : raw' ≠ [])
    (h : parse raw config.maxHeaderSize config.maxBodySize =
      parse raw' config.maxHeaderSize config.maxBodySize) :
    responseTo config client raw = responseTo config client raw' := by
  simp only [responseTo, if_neg hne, if_neg hne', h]

/-- What was received of a message is all of it, or less. -/
theorem answer_of_received {config : Config} {client : Client} {s raw : Bytes} {result : ParseResult}
    (hmessage : (requestReader config.maxHeaderSize config.maxBodySize).Message s result)
    (hstream : s <+: dataOf client.recvScript ∨ dataOf client.recvScript <+: s)
    (hreceived : client.received config = some raw) :
    raw = [] ∧ responseTo config client raw = none ∨
      raw ≠ [] ∧ raw <+: s ∧ raw ≠ s ∧ responseTo config client raw =
        some (HttpResponse.badRequest (str "Incomplete request")) ∨
      ∃ more, raw = s ++ more ∧
        (openBody s config.maxHeaderSize config.maxBodySize = false →
          responseTo config client raw = responseTo config client s) ∧
        (openBody s config.maxHeaderSize config.maxBodySize = true →
          parse raw config.maxHeaderSize config.maxBodySize = { result with body := more }) := by
  have hfront := Client.received_prefix hreceived
  have hparts : (s <+: raw ∧ _ = _) ∨ (raw <+: s ∧ raw ≠ s ∧ _ = _) :=
    hstream.elim (fun h => hmessage.read_part h hfront)
      fun h => hmessage.read_part (List.prefix_refl s) (hfront.trans h)
  have hdecided := error_of_message hmessage
  rcases hparts with ⟨⟨more, rfl⟩, -⟩ | ⟨hcut, hne, hnone⟩
  · refine Or.inr (Or.inr ⟨more, rfl, ?_, ?_⟩)
    · intro hclosed
      have hs : s ≠ [] := by
        rintro rfl
        exact hdecided rfl
      refine responseTo_congr (List.append_ne_nil_of_left_ne_nil hs more) hs ?_
      rw [parse_append_of_decided hdecided, hclosed]
      rfl
    · intro hopen
      obtain ⟨hresult, hbody⟩ := body_of_open_message hmessage hopen
      rw [parse_append_of_decided hdecided, if_pos hopen, hresult, hbody]
      rfl
  · by_cases hempty : raw = []
    · refine Or.inl ⟨hempty, ?_⟩
      rw [responseTo, if_pos hempty]
    · have herror := decision_eq_none_iff.mp hnone
      exact Or.inr (Or.inl ⟨hempty, hcut, hne, responseTo_of_incomplete hempty herror⟩)

/-- **The server has three answers to a request on a stream, or none yet.**  For every configuration,
    every connection, whatever its `recv` calls give, and every message that its bytes begin with or
    are cut short of: either `recv_request` does not return, because its outcomes end while it waits
    for the end of the header section or for the body that the buffer declares, and nothing is
    sent; or it returns, and then nothing was received and nothing is sent; or less than the message
    was received, and the answer is the 400 for an incomplete request; or all of the message was
    received, and it is answered as the message alone is, with what came behind it as the body if it
    has no length. -/
theorem answer_of_stream (config : Config) (client : Client) {s : Bytes} {result : ParseResult}
    (hmessage : (requestReader config.maxHeaderSize config.maxBodySize).Message s result)
    (hstream : s <+: dataOf client.recvScript ∨ dataOf client.recvScript <+: s) :
    (client.received config = none ∧
      (InHeaders config client.recvScript ∨ InBody config client.recvScript) ∧
      ∀ data, Effect.sendAll data ∉ handleClient config client) ∨
    ∃ raw, client.received config = some raw ∧
      (raw = [] ∧ responseTo config client raw = none ∨
        raw ≠ [] ∧ raw <+: s ∧ raw ≠ s ∧ responseTo config client raw =
          some (HttpResponse.badRequest (str "Incomplete request")) ∨
        ∃ more, raw = s ++ more ∧
          (openBody s config.maxHeaderSize config.maxBodySize = false →
            responseTo config client raw = responseTo config client s) ∧
          (openBody s config.maxHeaderSize config.maxBodySize = true →
            parse raw config.maxHeaderSize config.maxBodySize = { result with body := more })) := by
  cases hreceived : client.received config with
  | none =>
    exact Or.inl ⟨rfl, Client.received_eq_none_iff.mp hreceived, sendAll_not_mem_of_waits hreceived⟩
  | some raw => exact Or.inr ⟨raw, rfl, answer_of_received hmessage hstream hreceived⟩

/-- A whole message with `content-length: 99` behind it in the same chunk: the lookup of
    `recv_request` goes through the whole buffer, so it waits for 99 bytes. -/
def overtakenGet : List RecvOutcome :=
  [.data ⟨str "GET / HTTP/1.1\r\n\r\ncontent-length: 99\r\n", by decide, by decide⟩]

/-- The theorem on a `POST` of three bytes that is interrupted behind the first, and on a message that
    is there and not answered. -/
theorem answer_of_stream_interrupted :
    responseTo { threadCount := 2 } ⟨interruptedUpload, [], fun _ => .error [], .entries⟩
        (str "POST / HTTP/1.1\r\nContent-Length: 3\r\n\r\na") =
      some (HttpResponse.badRequest (str "Incomplete request")) ∧
    str "GET / HTTP/1.1\r\n\r\n" <+: dataOf overtakenGet ∧
      ∀ data, Effect.sendAll data ∉
        handleClient { threadCount := 2 } ⟨overtakenGet, [], fun _ => .error [], .entries⟩ := by
  have hmessage : (requestReader 65536 1048576).Message
      (str "POST / HTTP/1.1\r\nContent-Length: 3\r\n\r\nabc")
      (parse (str "POST / HTTP/1.1\r\nContent-Length: 3\r\n\r\nabc") 65536 1048576) :=
    .of_take (by decide +kernel) (by decide +kernel)
  have hreceived : Client.received { threadCount := 2 }
      ⟨interruptedUpload, [], fun _ => .error [], .entries⟩ =
        some (str "POST / HTTP/1.1\r\nContent-Length: 3\r\n\r\na") := by
    decide +kernel
  have hstream : str "POST / HTTP/1.1\r\nContent-Length: 3\r\n\r\nabc" <+: dataOf interruptedUpload := by
    decide +kernel
  have hget : (requestReader 65536 1048576).Message (str "GET / HTTP/1.1\r\n\r\n")
      { parse (str "GET / HTTP/1.1\r\n\r\n") 65536 1048576 with body := [] } :=
    .of_take (by decide +kernel) (by decide +kernel)
  have hbegins : str "GET / HTTP/1.1\r\n\r\n" <+: dataOf overtakenGet := by decide +kernel
  have hwaits : Client.received { threadCount := 2 }
      ⟨overtakenGet, [], fun _ => .error [], .entries⟩ = none := by decide +kernel
  refine ⟨?_, hbegins, ?_⟩
  · rcases answer_of_stream { threadCount := 2 } ⟨interruptedUpload, [], fun _ => .error [], .entries⟩
      hmessage (Or.inl hstream) with ⟨hnone, -⟩ | ⟨raw, hraw, hcases⟩
    · rw [hreceived] at hnone
      cases hnone
    · rw [hreceived, Option.some.injEq] at hraw
      subst hraw
      rcases hcases with ⟨hempty, -⟩ | ⟨-, -, -, hanswer⟩ | ⟨more, hmore, -⟩
      · cases hempty
      · exact hanswer
      · have hlength := congrArg List.length hmore
        rw [List.length_append] at hlength
        have hshort : (str "POST / HTTP/1.1\r\nContent-Length: 3\r\n\r\na").length <
            (str "POST / HTTP/1.1\r\nContent-Length: 3\r\n\r\nabc").length := by decide
        omega
  · rcases answer_of_stream { threadCount := 2 } ⟨overtakenGet, [], fun _ => .error [], .entries⟩
      hget (Or.inl hbegins) with ⟨-, -, hsilent⟩ | ⟨raw, hraw, -⟩
    · exact hsilent
    · rw [hwaits] at hraw
      cases hraw

end HttpServer
