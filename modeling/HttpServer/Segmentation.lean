/-
  TCP segmentation — does the cut of a byte stream into `recv` chunks reach the parser?

  A client's stream is a list of bytes; the network cuts it into chunks, and `recv_request` sees the
  chunks and then the end of the stream.  The question is whether `parse` of what `recv_request`
  returns depends on the cut.

  1. **The outer loop** (`recvLoop_cut`) — whatever the cut, the loop leaves its header phase
     with the header section and some prefix of the bytes behind it.  One chunk either keeps the
     buffer inside the header section (`recvLoop_data_short`) or completes it
     (`recvLoop_data_reach`); the run lemma is the induction over the chunks.

  2. **The inner loop** (`recvBody_stream`) — it returns with a prefix of what is left, and that
     prefix is everything, or as long as the declared length, or as long as `max_body_size`.

  3. **With a Content-Length** (`parse_recvRequest_eq_parse`) — these prefixes are all the same to
     `frameBody`, so the parse is the parse of the whole stream.

  4. **Without one** (`segmentationInvariant_iff`) — the loop returns at the header end with
     whatever came in the same chunk, and `parse` takes that for the body: the cut shows unless
     there is nothing behind the header section or the request line is rejected anyway.
-/
import HttpServer.ContentLength
import HttpServer.RequestLine

namespace HttpServer

open ListSearch

/-! ## Cuts of a stream -/

/-- The bytes that a list of chunks carries. -/
def cutBytes (chunks : List Chunk) : Bytes := (chunks.map Chunk.bytes).flatten

/-- The chunks, one for each successful `recv`, and then the end of the stream. -/
def stream (chunks : List Chunk) : List RecvOutcome := chunks.map .data ++ [.eof]

@[simp] theorem cutBytes_nil : cutBytes [] = [] := rfl
@[simp] theorem cutBytes_cons (c : Chunk) (cs : List Chunk) :
    cutBytes (c :: cs) = c.bytes ++ cutBytes cs := rfl
@[simp] theorem cutBytes_append (cs ds : List Chunk) :
    cutBytes (cs ++ ds) = cutBytes cs ++ cutBytes ds := by
  simp [cutBytes]
@[simp] theorem stream_nil : stream [] = [.eof] := rfl
@[simp] theorem stream_cons (c : Chunk) (cs : List Chunk) :
    stream (c :: cs) = .data c :: stream cs := rfl

/-! ## The outer loop -/

section OuterLoop

variable {config : Config} {H : HeaderSection}

/-- A chunk that completes the header section ends the header phase. -/
theorem recvLoop_data_reach {request taken : Bytes} {c : Chunk} (rest : List RecvOutcome)
    (h : request ++ c.bytes = H.bytes ++ taken) :
    recvLoop config (.data c :: rest) request =
      afterHeaders config (H.bytes.length - 4) (H.bytes ++ taken) rest := by
  rw [recvLoop, h, H.find_append taken]

/-- A proper prefix of a header section holds no CRLFCRLF. -/
theorem find_crlfcrlf_of_short {request : Bytes} (hpre : request <+: H.bytes)
    (hlt : request.length < H.bytes.length) : find crlfcrlf request = none := by
  cases h : find crlfcrlf request with
  | none => rfl
  | some e =>
    exfalso
    obtain ⟨t, ht⟩ := hpre
    have hfit : e + 4 ≤ request.length := find_add_length_le h
    have hsame := find_append_of_some t h
    rw [ht, H.ends, Option.some.injEq] at hsame
    omega

/-- A chunk that stays inside the header section goes round the loop. -/
theorem recvLoop_data_short {request : Bytes} {c : Chunk} (rest : List RecvOutcome)
    (hmax : H.bytes.length ≤ config.maxHeaderSize) (hpre : request ++ c.bytes <+: H.bytes)
    (hlt : (request ++ c.bytes).length < H.bytes.length) :
    recvLoop config (.data c :: rest) request = recvLoop config rest (request ++ c.bytes) := by
  rw [recvLoop, find_crlfcrlf_of_short hpre hlt]
  exact if_neg (by omega)

/-- **The outer loop on a cut**, whatever comes behind it: it reaches the header section, and has
    then taken some prefix of the bytes behind it. -/
theorem recvLoop_cut (hmax : H.bytes.length ≤ config.maxHeaderSize) (tail : List RecvOutcome) :
    ∀ (chunks : List Chunk) (request body : Bytes), request.length < H.bytes.length →
      request ++ cutBytes chunks = H.bytes ++ body →
      ∃ taken left, body = taken ++ cutBytes left ∧
        recvLoop config (chunks.map .data ++ tail) request =
          afterHeaders config (H.bytes.length - 4) (H.bytes ++ taken)
            (left.map .data ++ tail) := by
  intro chunks
  induction chunks with
  | nil =>
    intro request body hlt heq
    -- the cut holds the whole header section, so it does not end inside it
    have hlen := congrArg List.length heq
    simp only [cutBytes_nil, List.append_nil, List.length_append] at hlen
    omega
  | cons c cs ih =>
    intro request body hlt heq
    rw [cutBytes_cons, ← List.append_assoc] at heq
    rw [List.map_cons, List.cons_append]
    rcases Nat.lt_or_ge (request ++ c.bytes).length H.bytes.length with hshort | hreach
    · have hpre : request ++ c.bytes <+: H.bytes :=
        List.prefix_of_prefix_length_le ⟨cutBytes cs, heq⟩ (List.prefix_append _ _)
          (Nat.le_of_lt hshort)
      rw [recvLoop_data_short _ hmax hpre hshort]
      exact ih _ _ hshort heq
    · have hpre : H.bytes <+: request ++ c.bytes :=
        List.prefix_of_prefix_length_le ⟨body, rfl⟩ ⟨cutBytes cs, heq⟩ hreach
      obtain ⟨taken, ht⟩ := hpre
      refine ⟨taken, cs, ?_, ?_⟩
      · rw [← ht, List.append_assoc] at heq
        exact (List.append_cancel_left heq).symm
      · rw [recvLoop_data_reach _ ht.symm]

/-- **The outer loop on a cut stream.** -/
theorem recvLoop_stream (hmax : H.bytes.length ≤ config.maxHeaderSize) (chunks : List Chunk)
    (request body : Bytes) (hlt : request.length < H.bytes.length)
    (heq : request ++ cutBytes chunks = H.bytes ++ body) :
    ∃ taken left, body = taken ++ cutBytes left ∧
      recvLoop config (stream chunks) request =
        afterHeaders config (H.bytes.length - 4) (H.bytes ++ taken) (stream left) :=
  recvLoop_cut hmax [.eof] chunks request body hlt heq

end OuterLoop

/-! ## The inner loop -/

/-- **The inner loop on a cut stream**: it returns with a prefix of what is left, which is all of
    it unless the declared length or `max_body_size` is reached. -/
theorem recvBody_stream (maxBodySize headerSize contentLength : Nat) :
    ∀ (chunks : List Chunk) (request : Bytes), ∃ taken left rest,
      cutBytes chunks = taken ++ left ∧
      recvBody maxBodySize headerSize contentLength (stream chunks) request =
        .returned (request ++ taken) rest ∧
      (left = [] ∨ contentLength ≤ (request ++ taken).length - headerSize ∨
        maxBodySize ≤ (request ++ taken).length - headerSize) := by
  intro chunks
  induction chunks with
  | nil =>
    intro request
    rw [stream_nil, recvBody]
    split
    · exact ⟨[], [], [], rfl, by rw [List.append_nil], Or.inl rfl⟩
    · exact ⟨[], [], [.eof], rfl, by rw [List.append_nil], Or.inl rfl⟩
  | cons c cs ih =>
    intro request
    rw [stream_cons, recvBody]
    split
    · -- the loop reads the chunk whole, also where that is more than it waits for
      obtain ⟨taken, left, rest, hcut, hret, hstop⟩ := ih (request ++ c.bytes)
      rw [List.append_assoc] at hret hstop
      refine ⟨c.bytes ++ taken, left, rest, ?_, hret, hstop⟩
      rw [cutBytes_cons, hcut, List.append_assoc]
    · -- the condition of the loop has failed: one of the two lengths is reached
      rename_i hdone
      refine ⟨[], cutBytes (c :: cs), stream (c :: cs), rfl, by rw [List.append_nil]; rfl, ?_⟩
      rw [List.append_nil]
      exact Or.inr (by omega)

/-- **The inner loop on exactly the bytes it waits for**: it takes them all, and no outcome behind
    them. -/
theorem recvBody_exact {maxBodySize headerSize contentLength : Nat}
    (hmax : contentLength ≤ maxBodySize) (tail : List RecvOutcome) :
    ∀ (chunks : List Chunk) (request : Bytes), headerSize ≤ request.length →
      request.length + (cutBytes chunks).length = headerSize + contentLength →
      recvBody maxBodySize headerSize contentLength (chunks.map .data ++ tail) request =
        .returned (request ++ cutBytes chunks) tail := by
  intro chunks
  induction chunks with
  | nil =>
    intro request hle hlen
    simp only [cutBytes_nil, List.length_nil] at hlen
    rw [List.map_nil, List.nil_append, recvBody.eq_def, if_neg (by omega), cutBytes_nil,
      List.append_nil]
  | cons c cs ih =>
    intro request hle hlen
    have hpos : 0 < c.bytes.length := List.length_pos_of_ne_nil c.nonempty
    rw [cutBytes_cons, List.length_append] at hlen
    rw [List.map_cons, List.cons_append, recvBody, if_pos (by omega)]
    show recvBody maxBodySize headerSize contentLength (cs.map .data ++ tail)
      (request ++ c.bytes) = _
    rw [ih (request ++ c.bytes) (by rw [List.length_append]; omega)
      (by rw [List.length_append]; omega), cutBytes_cons, List.append_assoc]

/-! ## With a Content-Length the cut does not show -/

/-- Two bodies of which the shorter is a prefix of the longer and long enough for the declared
    length or the limit are framed alike. -/
theorem frameBody_append {clValue : Bytes} {n : Nat} (hn : stoull clValue = .ok n)
    (result : ParseResult) {maxBodySize : Nat} {taken left : Bytes}
    (h : left = [] ∨ n ≤ taken.length ∨ maxBodySize ≤ taken.length) :
    frameBody result (.value clValue) taken maxBodySize =
      frameBody result (.value clValue) (taken ++ left) maxBodySize := by
  rcases h with rfl | h
  · rw [List.append_nil]
  · simp only [frameBody, hn]
    by_cases hbig : n > maxBodySize
    · rw [if_pos hbig, if_pos hbig]
    · have hle : n ≤ taken.length := by omega
      rw [if_neg hbig, if_neg hbig, if_neg (by omega),
        if_neg (by rw [List.length_append]; omega), List.take_append_of_le_length hle]

/-- **Segmentation does not matter with a Content-Length.**  For every stream whose header section
    is within `max_header_size` and mentions `content-length:`, and every cut of it, `recv_request`
    returns a buffer that parses as the whole stream. -/
theorem parse_recvRequest_eq_parse (config : Config) (chunks : List Chunk) (headerEnd : Nat)
    (hfind : find crlfcrlf (cutBytes chunks) = some headerEnd)
    (hmax : headerEnd + 4 ≤ config.maxHeaderSize)
    (hm : Mentions ((cutBytes chunks).take (headerEnd + 4))) :
    ∃ request rest, recvRequest config (stream chunks) = .returned request rest ∧
      parse request config.maxHeaderSize config.maxBodySize =
        parse (cutBytes chunks) config.maxHeaderSize config.maxBodySize := by
  obtain ⟨H, hH, hlen, hraw⟩ := exists_headerSection hfind
  rw [← hH] at hm
  generalize (cutBytes chunks).drop (headerEnd + 4) = body at hraw
  have hempty : ([] : Bytes).length < H.bytes.length := by
    rw [hlen]; exact Nat.succ_pos _
  obtain ⟨taken, left, hbody, hloop⟩ :=
    recvLoop_stream (by omega : H.bytes.length ≤ config.maxHeaderSize) chunks [] body hempty hraw
  obtain ⟨v, hv⟩ := H.locateLength_value hm
  have hlook : recvLocateLength (H.bytes ++ taken) = .value v := by
    rw [recvLocateLength_eq, H.locateLength_append hm, hv]
  have hparse : ∀ b, parse (H.bytes ++ b) config.maxHeaderSize config.maxBodySize =
      if (parseHead H.head).error ≠ .none then parseHead H.head
      else frameBody (parseHead H.head) (.value v) b config.maxBodySize := by
    intro b
    rw [H.parse_append, if_neg (by omega), hv]
  rw [recvRequest, hloop, hraw, hbody, hparse]
  cases hn : stoull v with
  | error e =>
    -- the loop gives up at once, and so does the parser, before it looks at the body
    refine ⟨H.bytes ++ taken, stream left, by simp only [afterHeaders, hlook, hn], ?_⟩
    rw [hparse]
    simp only [frameBody, hn]
  | ok n =>
    obtain ⟨more, skipped, rest, hcut, hret, hstop⟩ :=
      recvBody_stream config.maxBodySize (H.bytes.length - 4 + 4) n left (H.bytes ++ taken)
    refine ⟨H.bytes ++ (taken ++ more), rest, ?_, ?_⟩
    · simp only [afterHeaders, hlook, hn]
      rw [hret, List.append_assoc]
    · have hsize : (H.bytes ++ taken ++ more).length - (H.bytes.length - 4 + 4)
          = (taken ++ more).length := by
        have := H.four_le
        simp only [List.length_append]
        omega
      rw [hsize] at hstop
      rw [hparse, hcut, ← List.append_assoc, frameBody_append hn _ hstop]

/-- The theorem on a `POST` whose body arrives in two pieces, the first with the header section. -/
theorem parse_recvRequest_eq_parse_post :
    ∃ request rest,
      recvRequest { threadCount := 2 }
          (stream [⟨str "POST / HTTP/1.1\r\nContent-Length: 3\r\n\r\na", by decide, by decide⟩,
            ⟨str "bc", by decide, by decide⟩]) = .returned request rest ∧
      parse request 65536 1048576 =
        parse (str "POST / HTTP/1.1\r\nContent-Length: 3\r\n\r\nabc") 65536 1048576 :=
  parse_recvRequest_eq_parse { threadCount := 2 }
    [⟨str "POST / HTTP/1.1\r\nContent-Length: 3\r\n\r\na", by decide, by decide⟩,
      ⟨str "bc", by decide, by decide⟩] 34 (by decide) (by decide) (by decide)

/-! ## Without a Content-Length it does -/

/-- Any two cuts of `S` reach the parser as the same request. -/
def SegmentationInvariant (config : Config) (S : Bytes) : Prop :=
  ∀ chunks₁ chunks₂ : List Chunk, cutBytes chunks₁ = S → cutBytes chunks₂ = S →
    ∃ request₁ rest₁ request₂ rest₂,
      recvRequest config (stream chunks₁) = .returned request₁ rest₁ ∧
      recvRequest config (stream chunks₂) = .returned request₂ rest₂ ∧
      parse request₁ config.maxHeaderSize config.maxBodySize =
        parse request₂ config.maxHeaderSize config.maxBodySize

/-- A buffer that does not mention a length goes back at the header end. -/
theorem afterHeaders_of_not_mentions {config : Config} {request : Bytes} (headerEnd : Nat)
    (script : List RecvOutcome) (hm : ¬ Mentions request) :
    afterHeaders config headerEnd request script = .returned request script := by
  have hlook : recvLocateLength request = .absent := by
    rw [recvLocateLength_eq, locateLength_eq, find_eq_none_iff_not_mentions.mpr hm]
  simp only [afterHeaders, hlook]

theorem Mentions.of_prefix {s t : Bytes} (h : s <+: t) (hm : Mentions s) : Mentions t := by
  obtain ⟨u, rfl⟩ := h
  unfold Mentions
  rw [lower_append]
  exact hm.trans (List.prefix_append _ _).isInfix

/-- Without a mention, the loop returns the header section and what came with its last byte. -/
theorem recvRequest_of_not_mentions {config : Config} {H : HeaderSection}
    (hmax : H.bytes.length ≤ config.maxHeaderSize) {chunks : List Chunk} {body : Bytes}
    (hcut : cutBytes chunks = H.bytes ++ body) (hm : ¬ Mentions (H.bytes ++ body)) :
    ∃ taken left, body = taken ++ cutBytes left ∧
      recvRequest config (stream chunks) = .returned (H.bytes ++ taken) (stream left) := by
  have hempty : ([] : Bytes).length < H.bytes.length := by
    have := H.four_le
    simp only [List.length_nil]
    omega
  obtain ⟨taken, left, hbody, hloop⟩ := recvLoop_stream hmax chunks [] body hempty hcut
  refine ⟨taken, left, hbody, ?_⟩
  rw [recvRequest, hloop]
  refine afterHeaders_of_not_mentions _ _ fun h => hm (h.of_prefix ?_)
  exact ⟨cutBytes left, by rw [hbody, List.append_assoc]⟩

/-- Without a mention, the parser takes everything behind the header section for the body. -/
theorem parse_of_not_mentions {H : HeaderSection} {maxHeaderSize : Nat}
    (hmax : H.bytes.length ≤ maxHeaderSize) (hm : ¬ Mentions H.bytes) (taken : Bytes)
    (maxBodySize : Nat) :
    parse (H.bytes ++ taken) maxHeaderSize maxBodySize =
      if (parseHead H.head).error ≠ .none then parseHead H.head
      else { parseHead H.head with body := taken } := by
  rw [H.parse_append, if_neg (by omega), H.locateLength_absent hm]
  rfl

/-- One byte a chunk. -/
def singles (s : Bytes) : List Chunk :=
  s.map fun b => ⟨[b], List.cons_ne_nil b [], by simp⟩

@[simp] theorem cutBytes_singles (s : Bytes) : cutBytes (singles s) = s := by
  induction s with
  | nil => rfl
  | cons b s ih => exact congrArg (b :: ·) ih

/-- Single bytes of a header section go round the loop up to its last byte. -/
theorem recvLoop_singles {config : Config} {H : HeaderSection}
    (hmax : H.bytes.length ≤ config.maxHeaderSize) (chunks : List Chunk) :
    ∀ s request : Bytes, request ++ s <+: H.bytes → (request ++ s).length < H.bytes.length →
      recvLoop config (stream (singles s ++ chunks)) request =
        recvLoop config (stream chunks) (request ++ s) := by
  intro s
  induction s with
  | nil => intro request _ _; rw [List.append_nil]; rfl
  | cons b s ih =>
    intro request hpre hlt
    have hsplit : request ++ b :: s = (request ++ [b]) ++ s := by simp
    rw [hsplit] at hpre hlt ⊢
    have hshort : (request ++ [b]).length < H.bytes.length := by
      rw [List.length_append] at hlt; omega
    rw [← ih _ hpre hlt]
    exact recvLoop_data_short _ hmax ((List.prefix_append _ _).trans hpre) hshort

/-- A header section is its first bytes and its last `\n`. -/
theorem HeaderSection.exists_init (H : HeaderSection) : ∃ init, H.bytes = init ++ [10] :=
  ⟨H.head ++ [13, 10, 13], by rw [H.bytes_eq]; simp⟩

/-- Single bytes, then a chunk that ends the header section and carries `taken` behind it. -/
theorem recvRequest_singles_chunk {config : Config} {H : HeaderSection} {init taken : Bytes}
    (hmax : H.bytes.length ≤ config.maxHeaderSize) (hinit : H.bytes = init ++ [10]) {c : Chunk}
    (hc : c.bytes = 10 :: taken) (chunks : List Chunk) (hm : ¬ Mentions (H.bytes ++ taken)) :
    recvRequest config (stream (singles init ++ c :: chunks)) =
      .returned (H.bytes ++ taken) (stream chunks) := by
  have hlt : ([] ++ init).length < H.bytes.length := by rw [hinit]; simp
  have hpre : [] ++ init <+: H.bytes := by rw [hinit]; exact List.prefix_append _ _
  have hreach : [] ++ init ++ c.bytes = H.bytes ++ taken := by rw [hc, hinit]; simp
  rw [recvRequest, recvLoop_singles hmax (c :: chunks) init [] hpre hlt, stream_cons,
    recvLoop_data_reach _ hreach, afterHeaders_of_not_mentions _ _ hm]

/-- **When segmentation does not matter without a Content-Length.**  For a stream whose header
    section is within `max_header_size` and which nowhere mentions `content-length:`, every cut
    gives the same parse exactly when nothing follows the header section or the first line is no
    request line. -/
theorem segmentationInvariant_iff (config : Config) (S : Bytes) (headerEnd : Nat)
    (hfind : find crlfcrlf S = some headerEnd) (hmax : headerEnd + 4 ≤ config.maxHeaderSize)
    (hm : ¬ Mentions S) :
    SegmentationInvariant config S ↔
      S.length = headerEnd + 4 ∨ ¬ IsRequestLine (firstLine (S.take headerEnd)) := by
  obtain ⟨H, body, rfl, hlen, hhead, -, -⟩ := exists_cut hfind
  have hmaxH : H.bytes.length ≤ config.maxHeaderSize := by omega
  have hmH : ¬ Mentions H.bytes := fun h => hm (h.of_prefix (List.prefix_append _ _))
  rw [hhead, ← parseHead_error_eq_none_iff]
  constructor
  · intro hinv
    cases body with
    | nil => exact Or.inl (by rw [List.append_nil, hlen])
    | cons b body =>
      right
      intro hok
      -- the cut right behind the header section against the one that carries a byte from behind it
      obtain ⟨init, hinit⟩ := H.exists_init
      have hm₁ : ¬ Mentions (H.bytes ++ []) := by rwa [List.append_nil]
      have hm₂ : ¬ Mentions (H.bytes ++ [b]) := fun h =>
        hm (h.of_prefix ⟨body, by simp⟩)
      let flush : Chunk := ⟨[10], by decide, by decide⟩
      let spill : Chunk := ⟨[10, b], by simp, by simp⟩
      have h₁ := recvRequest_singles_chunk hmaxH hinit (c := flush) rfl (singles (b :: body)) hm₁
      have h₂ := recvRequest_singles_chunk hmaxH hinit (c := spill) rfl (singles body) hm₂
      obtain ⟨request₁, rest₁, request₂, rest₂, hr₁, hr₂, heq⟩ :=
        hinv (singles init ++ flush :: singles (b :: body)) (singles init ++ spill :: singles body)
          (by simp [hinit, flush]) (by simp [hinit, spill])
      rw [h₁] at hr₁
      rw [h₂] at hr₂
      cases hr₁
      cases hr₂
      rw [parse_of_not_mentions hmaxH hmH, parse_of_not_mentions hmaxH hmH,
        if_neg (not_not_intro hok), if_neg (not_not_intro hok)] at heq
      exact absurd (congrArg ParseResult.body heq) (by simp)
  · intro hcond chunks₁ chunks₂ hcut₁ hcut₂
    obtain ⟨taken₁, left₁, hb₁, hr₁⟩ := recvRequest_of_not_mentions hmaxH hcut₁ hm
    obtain ⟨taken₂, left₂, hb₂, hr₂⟩ := recvRequest_of_not_mentions hmaxH hcut₂ hm
    refine ⟨_, _, _, _, hr₁, hr₂, ?_⟩
    rw [parse_of_not_mentions hmaxH hmH, parse_of_not_mentions hmaxH hmH]
    rcases hcond with hnil | hbad
    · have hempty : body = [] := by
        rw [List.length_append, hlen] at hnil
        exact List.length_eq_zero_iff.mp (by omega)
      rw [hempty] at hb₁ hb₂
      rw [(List.append_eq_nil_iff.mp hb₁.symm).1, (List.append_eq_nil_iff.mp hb₂.symm).1]
    · rw [if_pos hbad, if_pos hbad]

/-- The theorem on a request without a body. -/
theorem segmentationInvariant_iff_get :
    SegmentationInvariant { threadCount := 2 } (str "GET / HTTP/1.1\r\n\r\n") ↔
      (str "GET / HTTP/1.1\r\n\r\n").length = 14 + 4 ∨
        ¬ IsRequestLine (firstLine ((str "GET / HTTP/1.1\r\n\r\n").take 14)) :=
  segmentationInvariant_iff { threadCount := 2 } (str "GET / HTTP/1.1\r\n\r\n") 14 (by decide)
    (by decide) (by decide)

/-- A `POST /echo` with three bytes behind its header section, cut in front of them and not cut:
    the handler gets no body, or all of it. -/
theorem segmentation_changes_body :
    find crlfcrlf (str "POST /echo HTTP/1.1\r\n\r\nabc") = some 19 ∧
      19 + 4 ≤ ({ threadCount := 2 } : Config).maxHeaderSize ∧
      ¬ Mentions (str "POST /echo HTTP/1.1\r\n\r\nabc") ∧
      ¬ SegmentationInvariant { threadCount := 2 } (str "POST /echo HTTP/1.1\r\n\r\nabc") := by
  refine ⟨by decide, by decide, by decide, fun hinv => ?_⟩
  let whole : Chunk := ⟨str "POST /echo HTTP/1.1\r\n\r\nabc", by decide, by decide⟩
  let header : Chunk := ⟨str "POST /echo HTTP/1.1\r\n\r\n", by decide, by decide⟩
  let behind : Chunk := ⟨str "abc", by decide, by decide⟩
  obtain ⟨request₁, rest₁, request₂, rest₂, hr₁, hr₂, heq⟩ :=
    hinv [whole] [header, behind] (by decide) (by decide)
  have h₁ : recvRequest { threadCount := 2 } (stream [whole]) =
      .returned (str "POST /echo HTTP/1.1\r\n\r\nabc") [.eof] := by decide
  have h₂ : recvRequest { threadCount := 2 } (stream [header, behind]) =
      .returned (str "POST /echo HTTP/1.1\r\n\r\n") [.data behind, .eof] := by decide
  rw [h₁] at hr₁
  rw [h₂] at hr₂
  cases hr₁
  cases hr₂
  exact absurd (congrArg ParseResult.body heq) (by decide +kernel)

end HttpServer
