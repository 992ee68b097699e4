/-
  The echo route, end to end — from the chunks on the socket to the bytes of the response.

  1. **Receiving** (`recvRequest_exact`) — a request whose header section declares the length of what
     follows it is received whole, and no outcome of `recv` behind it is used up, however it is cut.

  2. **Parsing** — `parse_renderLines` on the lines of the request: the other lines may be any text,
     also without a colon, as long as they do not bring the text `content-length:` with them.

  3. **Routing** (`handle_echo`) — the default routes send a POST to `/echo` to its handler.

  4. **Bridge** (`echo_end_to_end`) — `handle_client` as a whole: its effects are those of one
     success, and what it sends is a response 200 with the body of the request.
-/
import HttpServer.ResponseFraming
import HttpServer.RoundTrip
import HttpServer.RouteSelection
import HttpServer.Segmentation

namespace HttpServer

open ListSearch

/-! ## Receiving -/

/-- **A request that declares its own length is received whole.** -/
theorem recvRequest_exact {config : Config} {H : HeaderSection} {body : Bytes}
    (hmax : H.bytes.length ≤ config.maxHeaderSize) (hbody : body.length ≤ config.maxBodySize)
    (hlength : LengthIs (locateLength H.bytes) body.length) {chunks : List Chunk}
    (hcut : cutBytes chunks = H.bytes ++ body) (tail : List RecvOutcome) :
    recvRequest config (chunks.map .data ++ tail) = .returned (H.bytes ++ body) tail := by
  have hm : Mentions H.bytes := by
    by_contra hm
    obtain ⟨v, hv, -⟩ := hlength
    rw [H.locateLength_absent hm] at hv
    cases hv
  have hfour := H.four_le
  have hempty : ([] : Bytes).length < H.bytes.length := by
    rw [List.length_nil]
    omega
  obtain ⟨taken, left, hsplit, hloop⟩ := recvLoop_cut hmax tail chunks [] body hempty hcut
  have hlook : LengthIs (recvLocateLength (H.bytes ++ taken)) body.length := by
    rwa [recvLocateLength_eq, H.locateLength_append hm]
  rw [recvRequest, hloop, afterHeaders_of_lengthIs hlook, Nat.sub_add_cancel hfour,
    recvBody_exact hbody tail left _ (by rw [List.length_append]; omega), List.append_assoc,
    ← hsplit]
  rw [hsplit, List.length_append, List.length_append, Nat.add_assoc]

/-! ## Routing -/

/-- **The default routes hand a POST to `/echo` to its handler.** -/
theorem handle_echo (fs : FileSystem) (documentRoot : Bytes) (env : HandlerEnv)
    (order : MethodOrder) {req : HttpRequest} (hmethod : req.methodString = str "POST")
    (hpath : req.path = str "/echo") :
    (defaultRouter fs documentRoot env).handle fs order req =
      .ok (HttpResponse.okResponse req.body (str "text/plain")) := by
  have hroute := @lookup_echo fs documentRoot env
  rw [← hpath] at hroute
  have hhandler : (oneMethod (str "POST") echo).lookup req.methodString = some echo := by
    rw [hmethod]
    exact lookup_oneMethod_self _ _
  exact Router.handle_handler hroute hhandler

/-! ## The request -/

/-- The request line of an echo. -/
def echoLine : Bytes := str "POST /echo HTTP/1.1"

section Request

variable {before behind : List Bytes} {cl : HeaderField}

theorem plainLines_echo (hplain : PlainLines (before ++ behind)) :
    PlainLines (echoLine :: (before ++ cl.line :: behind)) := by
  intro line hl
  simp only [List.mem_cons, List.mem_append] at hl
  rcases hl with rfl | hl | rfl | hl
  · decide
  · exact hplain line (List.mem_append_left _ hl)
  · exact cl.line_plain
  · exact hplain line (List.mem_append_right _ hl)

/-- The lookup ends at the Content-Length line. -/
theorem findSome?_textBehind_echo (honly : ∀ line ∈ before ++ behind, ¬ Mentions line)
    (hcl : cl.isContentLength = true) :
    (echoLine :: (before ++ cl.line :: behind)).findSome? textBehind = some (32 :: cl.value) := by
  rw [← List.cons_append]
  refine findSome?_textBehind_of_first hcl fun line hl => ?_
  rcases List.mem_cons.mp hl with rfl | hl
  · decide
  · exact honly line (List.mem_append_left _ hl)

end Request

/-! ## The whole connection -/

/-- **What `handle_client` does with a parsed echo.** -/
theorem respond_echo {config : Config} {client : Client} {fs : FileSystem} {documentRoot : Bytes}
    {env : HandlerEnv} {order : MethodOrder}
    (hclient : client.handle = (defaultRouter fs documentRoot env).handle fs order) {raw : Bytes}
    {result : ParseResult} (hparse : parse raw config.maxHeaderSize config.maxBodySize = result)
    (hne : raw ≠ []) (herror : result.error = .none) (hmethod : result.method = str "POST")
    (hpath : result.path = str "/echo") :
    respond config client raw =
      answer client .recordSuccess (HttpResponse.okResponse result.body (str "text/plain")) := by
  have hhandle := @handle_echo fs documentRoot env order (buildRequest result) hmethod hpath
  unfold respond
  rw [if_neg hne, hparse, hclient]
  simp only [herror, hhandle]
  rfl

/-- **End to end.**  For every configuration, every body within `max_body_size`, every list of other
    header lines, none of them empty or with a CR, an LF or the text `content-length:` in it, that
    keeps the header section within `max_header_size`, every position of the Content-Length line among
    them and every cut of the request: whatever comes on the socket behind it, `handle_client` counts
    one success and sends a response 200 whose Content-Length is the length of the body and whose
    bytes behind the first CRLFCRLF are the body. -/
theorem echo_end_to_end (config : Config) (fs : FileSystem) (documentRoot : Bytes)
    (env : HandlerEnv) (order : MethodOrder) (iter : IterOrder) (sendScript : List SendOutcome)
    {before behind : List Bytes} {cl : HeaderField} {body : Bytes}
    (hplain : PlainLines (before ++ behind)) (honly : ∀ line ∈ before ++ behind, ¬ Mentions line)
    (hcl : cl.isContentLength = true) (hvalue : cl.value = toDecimal body.length)
    (hheader : (renderLines (echoLine :: (before ++ cl.line :: behind))).length ≤
      config.maxHeaderSize)
    (hbody : body.length ≤ config.maxBodySize) (hsize : config.maxBodySize < 2 ^ 64)
    {chunks : List Chunk}
    (hcut : cutBytes chunks = renderLines (echoLine :: (before ++ cl.line :: behind)) ++ body)
    (tail : List RecvOutcome) :
    ∃ data lines,
      handleClient config ⟨chunks.map .data ++ tail, sendScript,
          (defaultRouter fs documentRoot env).handle fs order, iter⟩ =
        [.recordRequest, .loadQueueSize, .storeQueueSize, .recvRequest, .recordSuccess,
          .sendAll data, .addBytesSent data.length, .close] ∧
      ResponseText data (str "HTTP/1.1 200 OK") lines body ∧ bytesBehind data = some body := by
  have ht : tokens echoLine = [str "POST", str "/echo", str "HTTP/1.1"] := by decide
  have hlines : PlainLines (echoLine :: (before ++ cl.line :: behind)) := plainLines_echo hplain
  have htext := findSome?_textBehind_echo honly hcl
  have hn := stoull_length hvalue (by omega)
  let H := headerSectionOf _ hlines (List.cons_ne_nil _ _)
  have hlength : LengthIs (locateLength H.bytes) body.length := by
    refine ⟨skipBlanks (32 :: cl.value), ?_, by rw [stoull_skipBlanks, hn]⟩
    show locateLength (renderLines _) = _
    rw [locateLength_renderLines hlines, htext]
  have hrecv : recvRequest config (chunks.map .data ++ tail) =
      .returned (renderLines (echoLine :: (before ++ cl.line :: behind)) ++ body) tail :=
    recvRequest_exact (H := H) hheader hbody hlength hcut tail
  have hparse := parse_renderLines ht (by decide) hlines htext hn hheader hbody
  have hready : (HttpResponse.okResponse body (str "text/plain")).Ready :=
    HttpResponse.ready_okResponse body (by decide)
  have hframed := hready.wellFramed iter
  have hrespond := @respond_echo config ⟨chunks.map .data ++ tail, sendScript,
    (defaultRouter fs documentRoot env).handle fs order, iter⟩ fs documentRoot env order rfl _ _
    hparse (by simp) rfl rfl rfl
  refine ⟨_, _, ?_, hframed, hframed.bytesBehind_eq⟩
  simp only [handleClient, hrecv]
  rw [hrespond]
  rfl

/-- The theorem on a body with a NUL, a CRLFCRLF and the text, cut inside the header section and
    inside the body, behind a line without a colon. -/
theorem echo_end_to_end_binary :
    ∃ data lines,
      handleClient { threadCount := 2 }
          ⟨[.data ⟨str "POST /echo HTTP/1.1\r\nno colon\r\nContent-Le", by decide, by decide⟩,
              .data ⟨str "ngth: 20\r\n\r\n\r\n\r\n" ++ [0], by decide, by decide⟩,
              .data ⟨str "content-length:", by decide, by decide⟩, .eof], [],
            (defaultRouter exampleFileSystem (str "/srv") exampleEnv).handle exampleFileSystem
              .keys, .entries⟩ =
        [.recordRequest, .loadQueueSize, .storeQueueSize, .recvRequest, .recordSuccess,
          .sendAll data, .addBytesSent data.length, .close] ∧
      ResponseText data (str "HTTP/1.1 200 OK") lines
        (str "\r\n\r\n" ++ [0] ++ str "content-length:") ∧
      bytesBehind data = some (str "\r\n\r\n" ++ [0] ++ str "content-length:") :=
  @echo_end_to_end { threadCount := 2 } exampleFileSystem (str "/srv") exampleEnv .keys .entries []
    [str "no colon"] [] ⟨str "Content-Length", str "20", by decide, by decide⟩
    (str "\r\n\r\n" ++ [0] ++ str "content-length:") (by decide) (by decide) (by decide)
    (by decide) (by decide) (by decide) (by decide)
    [⟨str "POST /echo HTTP/1.1\r\nno colon\r\nContent-Le", by decide, by decide⟩,
      ⟨str "ngth: 20\r\n\r\n\r\n\r\n" ++ [0], by decide, by decide⟩,
      ⟨str "content-length:", by decide, by decide⟩] (by decide) [.eof]

end HttpServer
