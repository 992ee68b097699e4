/-
  What the server logs, and reading its access log.

  1. **Program** — the messages of all `LOG_` statements (`ServerLog`), and which of them one connection
     makes (`connectionLog`); the reader takes a line apart again (`readAccessLine`).

  2. **Tokens** — the method and the path of a `ParseResult` come out of stream extraction, also of a
     request that is refused, so no byte in them is white space: with these a request can neither end
     a line of the log nor move the parts of its own.

  3. **The way that is left** — the `what()` of an exception goes into the log as it is, and bytes of a
     request may be in it: the `filesystem_error` of the static handler names the path, decoded.  What
     stands behind an LF in it is a line of its own, and may read as an entry (`ServerLog.forged`).

  4. **Bridge (`access_log_reads_back`)** — while nobody logs, the reader of stdout finds for each message,
     in the order of the lock, the method, the path and the status of the response that its connection
     sends, if it has one outside of the catch block, and the forged entries; and these are none where
     no `what()` has an LF.
-/
import HttpServer.DoubleText
import HttpServer.HandleClient
import HttpServer.HeaderFields
import HttpServer.Lib.TextCuts
import HttpServer.Logger
import HttpServer.RequestTokens
import HttpServer.StaticFile

namespace HttpServer

open TextCuts (cutFirst)

/-! ## The messages -/

/-- The address of a client: the four bytes of an IPv4 address, and a port. -/
structure ClientAddress where
  ip : UInt8 × UInt8 × UInt8 × UInt8
  port : UInt16
  deriving DecidableEq

/-- `client_info`: the address as `inet_ntop` writes it, a colon and the port. -/
def ClientAddress.text (a : ClientAddress) : Bytes :=
  toDecimal a.ip.1.toNat ++ str "." ++ toDecimal a.ip.2.1.toNat ++ str "." ++
    toDecimal a.ip.2.2.1.toNat ++ str "." ++ toDecimal a.ip.2.2.2.toNat ++ str ":" ++
    toDecimal a.port.toNat

/-- The `LOG_` statements, with what their messages are made of. -/
inductive ServerLog
  | starting (port : Nat)
  | listening (port threadCount : Nat)
  | routesRegistered
  | acceptFailed (err : Nat)
  | queueFull (clientInfo : ClientAddress)
  | submitFailed (what : Bytes)
  /-- The one behind `record_latency`: `rawRequest` is what `recv_request` returned, and the latency
      is the value of a `double`. -/
  | served (rawRequest : Bytes) (maxHeaderSize maxBodySize : Nat) (status : StatusCode)
      (latencyMs : ℚ≥0) (clientAddr : ClientAddress)
  /-- The one in the catch block of `handle_client`. -/
  | clientFailed (clientAddr : ClientAddress) (what : Bytes)
  | taskFailed (what : Bytes)
  | taskFailedUnknown
  | signalled
  | shuttingDown
  | stopped
  | fatal (what : Bytes)
  | shutdownComplete

namespace ServerLog

/-- Which of the macros the statement is. -/
def level : ServerLog → LogLevel
  | .queueFull _ => .LOG_WARN
  | .acceptFailed _ => .LOG_ERROR
  | .submitFailed _ => .LOG_ERROR
  | .clientFailed _ _ => .LOG_ERROR
  | .taskFailed _ => .LOG_ERROR
  | .taskFailedUnknown => .LOG_ERROR
  | .fatal _ => .LOG_ERROR
  | _ => .LOG_INFO

/-- `log_msg` of `handle_client`. -/
def accessMessage (method path : Bytes) (status : StatusCode) (latencyMs : ℚ≥0)
    (clientAddr : ClientAddress) : Bytes :=
  method ++ str " " ++ path ++ str " -> " ++ toDecimal status.toInt ++ str " (" ++
    fixedText 1 latencyMs ++ str " ms)" ++ str " [" ++ clientAddr.text ++ str "]"

/-- The text that is handed to `log`. -/
def message : ServerLog → Bytes
  | .starting port => str "Starting HTTP server on port " ++ toDecimal port
  | .listening port threadCount =>
    str "Listening on port " ++ toDecimal port ++ str " with " ++ toDecimal threadCount ++
      str " threads"
  | .routesRegistered => str "Default routes registered"
  | .acceptFailed err => str "accept() failed: error " ++ toDecimal err
  | .queueFull clientInfo => str "Queue full, sending 503 to " ++ clientInfo.text
  | .submitFailed what => str "Failed to submit client task: " ++ what
  | .served rawRequest maxHeaderSize maxBodySize status latencyMs clientAddr =>
    let parseResult := parse rawRequest maxHeaderSize maxBodySize
    accessMessage parseResult.method parseResult.path status latencyMs clientAddr
  | .clientFailed clientAddr what =>
    str "Error handling client " ++ clientAddr.text ++ str ": " ++ what
  | .taskFailed what => str "Worker thread exception: " ++ what
  | .taskFailedUnknown => str "Worker thread caught unknown exception"
  | .signalled => Logger.shutdownMessage
  | .shuttingDown => str "Shutting down thread pool..."
  | .stopped => str "Server stopped."
  | .fatal what => str "Fatal: " ++ what
  | .shutdownComplete => str "Server shutdown complete."

/-- The call of `log` that the statement makes. -/
def call (log : ServerLog) : LogCall := .log log.level log.message

/-- What an exception says, in the messages that pass it on.  It is the one text that the server does
    not make up itself or take from a token, and it may carry bytes of a request: a `filesystem_error`
    names the path that was asked for, decoded. -/
def what : ServerLog → Option Bytes
  | .submitFailed what => some what
  | .clientFailed _ what => some what
  | .taskFailed what => some what
  | .fatal what => some what
  | _ => none

/-- The statements of `handle_client`. -/
def ofConnection : ServerLog → Bool
  | .served .. => true
  | .clientFailed .. => true
  | _ => false

end ServerLog

/-- What `handle_client` logs behind `recv_request`. -/
def connectionLog (config : Config) (client : Client) (rawRequest : Bytes) (latencyMs : ℚ≥0)
    (clientAddr : ClientAddress) : Option ServerLog :=
  let served (status : StatusCode) : ServerLog :=
    .served rawRequest config.maxHeaderSize config.maxBodySize status latencyMs clientAddr
  if rawRequest = [] then none
  else
    let parseResult := parse rawRequest config.maxHeaderSize config.maxBodySize
    match parseResult.error with
    | .incomplete => some (served (HttpResponse.badRequest (str "Incomplete request")).statusCode)
    | .malformed => some (served (HttpResponse.badRequest (str "Malformed request")).statusCode)
    | .headerTooLarge => some (served HttpResponse.payloadTooLarge.statusCode)
    | .bodyTooLarge => some (served HttpResponse.payloadTooLarge.statusCode)
    | .none =>
      match client.handle (buildRequest parseResult) with
      | .ok response => some (served response.statusCode)
      | .error what => some (.clientFailed clientAddr what)

/-- Where a message comes from: a connection on which `recv_request` has returned, or a statement
    outside of `handle_client`. -/
inductive LogSource
  | connection (config : Config) (client : Client) (rawRequest : Bytes) (latencyMs : ℚ≥0)
      (clientAddr : ClientAddress)
  | other (log : ServerLog) (outside : log.ofConnection = false)

/-- Its message; a connection on which nothing was received has none. -/
def LogSource.log : LogSource → Option ServerLog
  | .connection config client rawRequest latencyMs clientAddr =>
    connectionLog config client rawRequest latencyMs clientAddr
  | .other log _ => some log

/-! ## The reader -/

/-- What the access log says of a request. -/
structure AccessEntry where
  method : Bytes
  path : Bytes
  status : Nat
  deriving DecidableEq

/-- `METHOD PATH -> STATUS (...`. -/
def readAccess (message : Bytes) : Option AccessEntry :=
  (cutFirst (str " ") message).bind fun method =>
    (cutFirst (str " ") method.2).bind fun path =>
      (path.2.dropPrefix? (str "-> ")).bind fun rest =>
        (cutFirst (str " (") rest).map fun status =>
          { method := method.1, path := path.1, status := digitsValue status.1 }

/-- `... [INFO] [Thread ...] MESSAGE`. -/
def readAccessLine (line : Bytes) : Option AccessEntry :=
  (cutFirst (str "[") line).bind fun time =>
    (cutFirst (str "] [Thread ") time.2).bind fun level =>
      (cutFirst (str "] ") level.2).bind fun thread =>
        if level.1 = levelString .LOG_INFO then readAccess thread.2 else none

/-- What there is to read in the line of a message. -/
def ServerLog.entry : ServerLog → Option AccessEntry
  | .served rawRequest maxHeaderSize maxBodySize status _ _ =>
    let parseResult := parse rawRequest maxHeaderSize maxBodySize
    some { method := parseResult.method, path := parseResult.path, status := status.toInt }
  | _ => none

/-- What is read behind the first LF of a message, as lines of their own. -/
def ServerLog.forged (log : ServerLog) : List AccessEntry :=
  (getlines (log.message ++ [10])).tail.filterMap readAccessLine

namespace LogSource

/-- The entry of a source. -/
def entry (source : LogSource) : Option AccessEntry := source.log.bind ServerLog.entry

/-- What is read in its message besides. -/
def forged (source : LogSource) : List AccessEntry := source.log.toList.flatMap ServerLog.forged

/-- **The entry that is owed**, by what the connection does with what it received: one with the status of
    the response that it sends, and none if it sends nothing, or the 500 of its catch block. -/
inductive Owes : LogSource → Option AccessEntry → Prop
  | silent {config client rawRequest latencyMs clientAddr}
      (closes : respond config client rawRequest = [.close]) :
      Owes (.connection config client rawRequest latencyMs clientAddr) none
  | answered {config client rawRequest latencyMs clientAddr} (response : HttpResponse)
      (answers : respond config client rawRequest =
        answer client (outcomeOf response) response) :
      Owes (.connection config client rawRequest latencyMs clientAddr)
        (some
          { method := (parse rawRequest config.maxHeaderSize config.maxBodySize).method
            path := (parse rawRequest config.maxHeaderSize config.maxBodySize).path
            status := response.statusCode.toInt })
  | failed {config client rawRequest latencyMs clientAddr}
      (fails : respond config client rawRequest =
        [.recordServerError, .sendAll (HttpResponse.internalError.serialize client.iter), .close]) :
      Owes (.connection config client rawRequest latencyMs clientAddr) none
  | other {log outside} : Owes (.other log outside) none

end LogSource

/-! ## A request is no white space -/

theorem extract_plain {s t rest : Bytes} (h : extract s = some (t, rest)) :
    ∀ b ∈ t, isspace b = false := by
  unfold extract at h
  split at h
  · cases h
  · cases h
    intro b hb
    simpa using List.mem_takeWhile_imp hb

/-- Of a line that is refused, what was read before it was. -/
theorem readRequestLine_plain (line : Bytes) :
    (∀ b ∈ (readRequestLine line).1.method, isspace b = false) ∧
      ∀ b ∈ (readRequestLine line).1.path, isspace b = false := by
  unfold readRequestLine
  split
  · exact ⟨by simp, by simp⟩
  · rename_i method rl hmethod
    split
    · exact ⟨extract_plain hmethod, by simp⟩
    · rename_i path rl' hpath
      split
      · exact ⟨extract_plain hmethod, extract_plain hpath⟩
      · exact ⟨extract_plain hmethod, extract_plain hpath⟩

theorem parseHead_plain (headersSection : Bytes) :
    (∀ b ∈ (parseHead headersSection).method, isspace b = false) ∧
      ∀ b ∈ (parseHead headersSection).path, isspace b = false := by
  unfold parseHead
  split
  · exact ⟨by simp, by simp⟩
  · rename_i line lines _
    have hline := readRequestLine_plain (popBack 13 line)
    simp only
    split
    · exact hline
    · split
      · exact hline
      · exact hline

/-- **The method and the path that `parse` leaves are free of white space**, whatever was received
    and whether it is accepted or not. -/
theorem parse_plain (raw : Bytes) (maxHeaderSize maxBodySize : Nat) :
    (∀ b ∈ (parse raw maxHeaderSize maxBodySize).method, isspace b = false) ∧
      ∀ b ∈ (parse raw maxHeaderSize maxBodySize).path, isspace b = false := by
  unfold parse
  split
  · exact ⟨by simp, by simp⟩
  · rename_i headerEnd _
    split
    · exact ⟨by simp, by simp⟩
    · simp only
      split
      · exact parseHead_plain _
      · obtain ⟨hmethod, hpath, -⟩ := frameBody_requestLine (parseHead (raw.take headerEnd))
          (locateLength (raw.take (headerEnd + 4))) (raw.drop (headerEnd + 4)) maxBodySize
        rw [hmethod, hpath]
        exact parseHead_plain _

theorem not_mem_of_plain {s : Bytes} {b : Byte} (h : ∀ b ∈ s, isspace b = false)
    (hb : isspace b = true) : b ∉ s := by
  intro hm
  rw [h b hm] at hb
  cases hb

/-! ## Reading a line -/

/-- **The reader gets back what `handle_client` logs.** -/
theorem readAccess_accessMessage {method path : Bytes} (hmethod : 32 ∉ method) (hpath : 32 ∉ path)
    (status : StatusCode) (latencyMs : ℚ≥0) (clientAddr : ClientAddress) :
    readAccess (ServerLog.accessMessage method path status latencyMs clientAddr) =
      some { method, path, status := status.toInt } := by
  have hmessage : ServerLog.accessMessage method path status latencyMs clientAddr =
      method ++ (32 :: [] ++ (path ++ (32 :: [] ++ (str "-> " ++ (toDecimal status.toInt ++
        (32 :: [40] ++ (fixedText 1 latencyMs ++ str " ms)" ++ str " [" ++ clientAddr.text ++
          str "]"))))))) := by
    show method ++ [32] ++ path ++ (32 :: str "-> ") ++ toDecimal status.toInt ++ [32, 40] ++
      fixedText 1 latencyMs ++ str " ms)" ++ str " [" ++ clientAddr.text ++ str "]" = _
    simp only [List.append_assoc, List.cons_append, List.nil_append]
  have hdigits : 32 ∉ toDecimal status.toInt := not_mem_toDecimal (by decide)
  unfold readAccess
  rw [hmessage]
  show (cutFirst (32 :: []) (method ++ _)).bind _ = _
  rw [TextCuts.cutFirst_append hmethod, Option.bind_some]
  show (cutFirst (32 :: []) (path ++ _)).bind _ = _
  rw [TextCuts.cutFirst_append hpath, Option.bind_some]
  have hdrop : ∀ rest : Bytes, (str "-> " ++ rest).dropPrefix? (str "-> ") = some rest :=
    fun rest => List.dropPrefix?_eq_some_iff.mpr ⟨str "-> ", rfl, beq_self_eq_true _⟩
  show (List.dropPrefix? (str "-> " ++ _) (str "-> ")).bind _ = _
  rw [hdrop, Option.bind_some]
  show (cutFirst (32 :: [40]) (toDecimal status.toInt ++ _)).map _ = _
  rw [TextCuts.cutFirst_append hdigits, Option.map_some, digitsValue_toDecimal]

/-- What the logger puts in front of a message. -/
def lineHead (level : LogLevel) (x : LogReading) : Bytes :=
  x.timestamp ++ str " [" ++ levelString level ++ str "] " ++ str "[Thread " ++ x.threadId ++
    str "] "

/-- `formatted` without its LF. -/
def lineText (level : LogLevel) (message : Bytes) (x : LogReading) : Bytes :=
  lineHead level x ++ message

/-- The level and the message of a line. -/
theorem readAccessLine_lineText (level : LogLevel) (message : Bytes) (x : LogReading) :
    readAccessLine (lineText level message x) =
      if level = .LOG_INFO then readAccess message else none := by
  have hline : lineText level message x =
        (x.timestamp ++ [32]) ++ (91 :: [] ++ (levelString level ++ (93 :: str " [Thread " ++
          (x.threadId ++ (93 :: [32] ++ message))))) := by
    show x.timestamp ++ [32, 91] ++ levelString level ++ [93, 32] ++ str "[Thread " ++ x.threadId ++
      [93, 32] ++ message = _
    have hthread : (93 : Byte) :: str " [Thread " = [93, 32] ++ str "[Thread " := by decide
    rw [hthread]
    simp only [List.append_assoc, List.cons_append, List.nil_append]
  have htime : (91 : Byte) ∉ x.timestamp ++ [32] := by
    intro hm
    rcases List.mem_append.mp hm with hm | hm
    · rcases x.timestamp_plain _ hm with hdigit | hsign
      · exact absurd hdigit (by decide)
      · exact absurd hsign (by decide)
    · exact absurd hm (by decide)
  have hlevel : (93 : Byte) ∉ levelString level := by
    cases level with
    | LOG_DEBUG => decide
    | LOG_INFO => decide
    | LOG_WARN => decide
    | LOG_ERROR => decide
  have hthread : (93 : Byte) ∉ x.threadId := fun hm => absurd (x.threadId_plain _ hm) (by decide)
  unfold readAccessLine
  rw [hline]
  show (cutFirst (91 :: []) _).bind _ = _
  rw [TextCuts.cutFirst_append htime, Option.bind_some]
  show (cutFirst (93 :: str " [Thread ") (levelString level ++ _)).bind _ = _
  rw [TextCuts.cutFirst_append hlevel, Option.bind_some]
  show (cutFirst (93 :: [32]) (x.threadId ++ _)).bind _ = _
  rw [TextCuts.cutFirst_append hthread, Option.bind_some]
  show (if levelString level = levelString .LOG_INFO then readAccess message else none) = _
  cases level with
  | LOG_DEBUG => rfl
  | LOG_INFO => rfl
  | LOG_WARN => rfl
  | LOG_ERROR => rfl

/-! ## The lines of the server -/

/-- A message of two words and more, the third of which is no arrow, is no entry. -/
theorem readAccess_none (first second rest : Bytes) (hfirst : 32 ∉ first) (hsecond : 32 ∉ second)
    (hrest : rest.dropPrefix? (str "-> ") = none) :
    readAccess (first ++ (32 :: [] ++ (second ++ (32 :: [] ++ rest)))) = none := by
  unfold readAccess
  show (cutFirst (32 :: []) (first ++ _)).bind _ = _
  rw [TextCuts.cutFirst_append hfirst, Option.bind_some]
  show (cutFirst (32 :: []) (second ++ _)).bind _ = _
  rw [TextCuts.cutFirst_append hsecond, Option.bind_some]
  show (rest.dropPrefix? (str "-> ")).bind _ = _
  rw [hrest]
  rfl

namespace ServerLog

/-- **Of the messages at `LOG_INFO`, the reader finds the entries and no others.** -/
theorem readAccess_message {log : ServerLog} (h : log.level = .LOG_INFO) :
    readAccess log.message = log.entry := by
  cases log with
  | served rawRequest maxHeaderSize maxBodySize status latencyMs clientAddr =>
    obtain ⟨hmethod, hpath⟩ := parse_plain rawRequest maxHeaderSize maxBodySize
    exact readAccess_accessMessage (not_mem_of_plain hmethod (by decide))
      (not_mem_of_plain hpath (by decide)) status latencyMs clientAddr
  | starting port =>
    exact readAccess_none (str "Starting") (str "HTTP") (str "server on port " ++ toDecimal port)
      (by decide) (by decide) rfl
  | listening port threadCount =>
    exact readAccess_none (str "Listening") (str "on")
      (str "port " ++ toDecimal port ++ str " with " ++ toDecimal threadCount ++ str " threads")
      (by decide) (by decide) rfl
  | routesRegistered => decide
  | signalled => decide
  | shuttingDown => decide
  | stopped => decide
  | shutdownComplete => decide
  | queueFull | acceptFailed | submitFailed | clientFailed | taskFailed | taskFailedUnknown
  | fatal => cases h

/-- Messages at other levels are no entries. -/
theorem entry_of_level {log : ServerLog} (h : log.level ≠ .LOG_INFO) : log.entry = none := by
  cases log with
  | served => exact absurd rfl h
  | _ => rfl

theorem lf_not_mem_address (a : ClientAddress) : 10 ∉ a.text := by
  have hdecimal : ∀ n, (10 : Byte) ∉ toDecimal n := fun n => not_mem_toDecimal (by decide)
  unfold ClientAddress.text
  have hdot : (10 : Byte) ∉ str "." := by decide
  have hcolon : (10 : Byte) ∉ str ":" := by decide
  simp only [List.mem_append, hdecimal, hdot, hcolon, or_self, not_false_iff]

theorem lf_not_mem_latency (latencyMs : ℚ≥0) : 10 ∉ fixedText 1 latencyMs := by
  intro hm
  have hnumber := isNumber_fixedText 1 latencyMs
  simp only [FlatJson.isNumber, Bool.and_eq_true, List.all_eq_true] at hnumber
  exact absurd (hnumber.1.1 10 hm) (by decide)

theorem lf_not_mem_accessMessage {method path : Bytes} (hmethod : 10 ∉ method) (hpath : 10 ∉ path)
    (status : StatusCode) (latencyMs : ℚ≥0) (clientAddr : ClientAddress) :
    10 ∉ accessMessage method path status latencyMs clientAddr := by
  have hstatus : (10 : Byte) ∉ toDecimal status.toInt := not_mem_toDecimal (by decide)
  have hspace : (10 : Byte) ∉ str " " := by decide
  have harrow : (10 : Byte) ∉ str " -> " := by decide
  have hopen : (10 : Byte) ∉ str " (" := by decide
  have hms : (10 : Byte) ∉ str " ms)" := by decide
  have hbracket : (10 : Byte) ∉ str " [" := by decide
  have hclose : (10 : Byte) ∉ str "]" := by decide
  unfold accessMessage
  simp only [List.mem_append, hmethod, hpath, hstatus, hspace, harrow, hopen, hms, hbracket, hclose,
    lf_not_mem_latency, lf_not_mem_address, or_self, not_false_iff]

/-- **No message ends its line**, whatever the request, but by what an exception says. -/
theorem lf_not_mem_message {log : ServerLog} (h : ∀ what ∈ log.what, 10 ∉ what) :
    10 ∉ log.message := by
  have hdecimal : ∀ n, (10 : Byte) ∉ toDecimal n := fun n => not_mem_toDecimal (by decide)
  cases log with
  | starting port => exact List.not_mem_append (by decide) (hdecimal port)
  | listening port threadCount =>
    have hport : 10 ∉ str "Listening on port " ++ toDecimal port :=
      List.not_mem_append (by decide) (hdecimal port)
    exact List.not_mem_append
      (List.not_mem_append (List.not_mem_append hport (by decide)) (hdecimal threadCount)) (by decide)
  | acceptFailed err => exact List.not_mem_append (by decide) (hdecimal err)
  | queueFull clientInfo => exact List.not_mem_append (by decide) (lf_not_mem_address clientInfo)
  | submitFailed what => exact List.not_mem_append (by decide) (h what rfl)
  | served rawRequest maxHeaderSize maxBodySize status latencyMs clientAddr =>
    obtain ⟨hmethod, hpath⟩ := parse_plain rawRequest maxHeaderSize maxBodySize
    exact lf_not_mem_accessMessage (not_mem_of_plain hmethod (by decide))
      (not_mem_of_plain hpath (by decide)) status latencyMs clientAddr
  | clientFailed clientAddr what =>
    exact List.not_mem_append (List.not_mem_append
      (List.not_mem_append (by decide) (lf_not_mem_address clientAddr)) (by decide)) (h what rfl)
  | taskFailed what => exact List.not_mem_append (by decide) (h what rfl)
  | fatal what => exact List.not_mem_append (by decide) (h what rfl)
  | routesRegistered => decide
  | taskFailedUnknown => decide
  | signalled => decide
  | shuttingDown => decide
  | stopped => decide
  | shutdownComplete => decide

/-- What an exception says is not logged at `LOG_INFO`. -/
theorem what_of_level {log : ServerLog} (h : log.level = .LOG_INFO) : log.what = none := by
  cases log with
  | submitFailed | clientFailed | taskFailed | fatal => cases h
  | _ => rfl

theorem getlines_message {log : ServerLog} (h : ∀ what ∈ log.what, 10 ∉ what) :
    getlines (log.message ++ [10]) = [log.message] :=
  getlines_append (lf_not_mem_message h) []

/-- **Without an LF in it nothing is forged.** -/
theorem forged_eq_nil {log : ServerLog} (h : ∀ what ∈ log.what, 10 ∉ what) : log.forged = [] := by
  rw [forged, getlines_message h]
  rfl

end ServerLog

/-- The line of a message ends where its message ends. -/
theorem lf_not_mem_lineHead (level : LogLevel) (x : LogReading) : 10 ∉ lineHead level x := by
  have htime : (10 : Byte) ∉ x.timestamp := by
    intro hm
    rcases x.timestamp_plain _ hm with hdigit | hsign
    · exact absurd hdigit (by decide)
    · exact absurd hsign (by decide)
  have hlevel : (10 : Byte) ∉ levelString level := by
    cases level with
    | LOG_DEBUG => decide
    | LOG_INFO => decide
    | LOG_WARN => decide
    | LOG_ERROR => decide
  have hthread : (10 : Byte) ∉ x.threadId := fun hm => absurd (x.threadId_plain _ hm) (by decide)
  have hopen : (10 : Byte) ∉ str " [" := by decide
  have hname : (10 : Byte) ∉ str "[Thread " := by decide
  have hclose : (10 : Byte) ∉ str "] " := by decide
  unfold lineHead
  simp only [List.mem_append, htime, hlevel, hthread, hopen, hname, hclose, or_self, not_false_iff]

/-- The lines of a message, of which the first has the head. -/
theorem getlines_formatted (log : ServerLog) (x : LogReading) (rest : Bytes) :
    ∃ line lines, getlines (log.message ++ [10]) = line :: lines ∧
      getlines (formatted log.level log.message x ++ rest) =
        lineText log.level line x :: (lines ++ getlines rest) := by
  obtain ⟨line, lines, hlines⟩ := exists_getlines log.message
  have hline : formatted log.level log.message x ++ rest =
      lineHead log.level x ++ (log.message ++ 10 :: rest) := by
    show lineHead log.level x ++ log.message ++ [10] ++ rest = _
    simp only [List.append_assoc, List.singleton_append]
  refine ⟨line, lines, hlines, ?_⟩
  rw [hline]
  refine getlines_prefix (lf_not_mem_lineHead log.level x) ?_
  rw [getlines_append_lf, hlines, List.cons_append]

/-- **What is read in the lines of one message**: its entry in the first, and what is forged in the
    others. -/
theorem read_formatted (log : ServerLog) (x : LogReading) (rest : Bytes) :
    (getlines (formatted log.level log.message x ++ rest)).filterMap readAccessLine =
      log.entry.toList ++ log.forged ++ (getlines rest).filterMap readAccessLine := by
  obtain ⟨line, lines, hlines, hformatted⟩ := getlines_formatted log x rest
  have hforged : log.forged = lines.filterMap readAccessLine := by
    rw [ServerLog.forged, hlines, List.tail_cons]
  -- only a message at `LOG_INFO` has an entry, and such a message has no LF
  have hentry : readAccessLine (lineText log.level line x) = log.entry := by
    rw [readAccessLine_lineText]
    by_cases hinfo : log.level = .LOG_INFO
    · have hplain : getlines (log.message ++ [10]) = [log.message] := by
        refine ServerLog.getlines_message ?_
        rw [ServerLog.what_of_level hinfo]
        intro what hwhat
        cases hwhat
      rw [hlines] at hplain
      cases hplain
      rw [if_pos hinfo, ServerLog.readAccess_message hinfo]
    · rw [if_neg hinfo, ServerLog.entry_of_level hinfo]
  rw [hformatted, List.filterMap_cons, List.filterMap_append, hforged, hentry]
  cases log.entry with
  | none => rfl
  | some entry => rfl

/-- **The entries of the access log**, message by message. -/
theorem read_linesOf {logs : List ServerLog} {calls : List (LogCall × LogReading)}
    (hlogs : calls.map Prod.fst = logs.map ServerLog.call) :
    (getlines (linesOf calls).flatten).filterMap readAccessLine =
      logs.flatMap fun log => log.entry.toList ++ log.forged := by
  induction logs generalizing calls with
  | nil =>
    rw [List.map_nil, List.map_eq_nil_iff] at hlogs
    rw [hlogs]
    rfl
  | cons log logs ih =>
    obtain ⟨⟨call, x⟩, calls, rfl, hcall, hcalls⟩ := List.map_eq_cons_iff.mp hlogs
    have hcall : call = .log log.level log.message := hcall
    subst hcall
    show (getlines (formatted log.level log.message x ++ (linesOf calls).flatten)).filterMap _ = _
    rw [read_formatted, ih hcalls, List.flatMap_cons]

/-- **One line for each message**, where no exception says an LF. -/
theorem length_linesOf {logs : List ServerLog} {calls : List (LogCall × LogReading)}
    (hlogs : calls.map Prod.fst = logs.map ServerLog.call)
    (hwhat : ∀ log ∈ logs, ∀ what ∈ log.what, 10 ∉ what) :
    (getlines (linesOf calls).flatten).length = logs.length := by
  induction logs generalizing calls with
  | nil =>
    rw [List.map_nil, List.map_eq_nil_iff] at hlogs
    rw [hlogs]
    rfl
  | cons log logs ih =>
    obtain ⟨⟨call, x⟩, calls, rfl, hcall, hcalls⟩ := List.map_eq_cons_iff.mp hlogs
    have hcall : call = .log log.level log.message := hcall
    subst hcall
    obtain ⟨line, lines, hlines, hformatted⟩ := getlines_formatted log x (linesOf calls).flatten
    rw [ServerLog.getlines_message (hwhat log (List.mem_cons_self ..))] at hlines
    cases hlines
    show (getlines (formatted log.level log.message x ++ (linesOf calls).flatten)).length = _
    rw [hformatted, List.length_cons, List.nil_append,
      ih hcalls fun l hl => hwhat l (List.mem_cons_of_mem _ hl), List.length_cons]

/-! ## What a connection logs -/

/-- **What a connection logs agrees with what it sends.**  Nothing, if nothing was received; else a
    line with the status of the response that it sends, and counts; or, if the router throws, the
    exception, in front of a response 500. -/
theorem connectionLog_answers (config : Config) (client : Client)
    (rawRequest : Bytes) (latencyMs : ℚ≥0) (clientAddr : ClientAddress) :
    (rawRequest = [] ∧
        connectionLog config client rawRequest latencyMs clientAddr = none ∧
        respond config client rawRequest = [.close]) ∨
      (∃ response, connectionLog config client rawRequest latencyMs clientAddr =
          some (.served rawRequest config.maxHeaderSize config.maxBodySize response.statusCode
            latencyMs clientAddr) ∧
        respond config client rawRequest = answer client (outcomeOf response) response) ∨
      ∃ what, connectionLog config client rawRequest latencyMs clientAddr =
          some (.clientFailed clientAddr what) ∧
        respond config client rawRequest =
          [.recordServerError, .sendAll (HttpResponse.internalError.serialize client.iter),
            .close] := by
  unfold connectionLog respond
  by_cases hraw : rawRequest = []
  · rw [if_pos hraw, if_pos hraw]
    exact Or.inl ⟨hraw, rfl, rfl⟩
  · rw [if_neg hraw, if_neg hraw]
    refine Or.inr ?_
    simp only
    cases (parse rawRequest config.maxHeaderSize config.maxBodySize).error with
    | incomplete => exact Or.inl ⟨HttpResponse.badRequest (str "Incomplete request"), rfl, rfl⟩
    | malformed => exact Or.inl ⟨HttpResponse.badRequest (str "Malformed request"), rfl, rfl⟩
    | headerTooLarge => exact Or.inl ⟨HttpResponse.payloadTooLarge, rfl, rfl⟩
    | bodyTooLarge => exact Or.inl ⟨HttpResponse.payloadTooLarge, rfl, rfl⟩
    | none =>
      cases client.handle
          (buildRequest (parse rawRequest config.maxHeaderSize config.maxBodySize)) with
      | ok response => exact Or.inl ⟨response, rfl, rfl⟩
      | error what => exact Or.inr ⟨what, rfl, rfl⟩

namespace LogSource

/-- What an exception says in the message of a source. -/
def what (source : LogSource) : Option Bytes := source.log.bind ServerLog.what

/-- **The entry of a source is the one that is owed.** -/
theorem owes_entry (source : LogSource) : source.Owes source.entry := by
  cases source with
  | connection config client rawRequest latencyMs clientAddr =>
    rcases connectionLog_answers config client rawRequest latencyMs clientAddr with
      ⟨-, hlog, hcloses⟩ | ⟨response, hlog, hanswers⟩ | ⟨what, hlog, hfails⟩
    · simp only [entry, log, hlog]
      exact Owes.silent hcloses
    · simp only [entry, log, hlog]
      exact Owes.answered response hanswers
    · simp only [entry, log, hlog]
      exact Owes.failed hfails
  | other log outside =>
    have hentry : log.entry = none := by
      cases log with
      | served => cases outside
      | _ => rfl
    show Owes (.other log outside) log.entry
    rw [hentry]
    exact Owes.other

theorem forged_eq_nil {source : LogSource} (h : ∀ what ∈ source.what, 10 ∉ what) :
    source.forged = [] := by
  unfold forged
  unfold what at h
  cases hlog : source.log with
  | none => rfl
  | some log =>
    rw [hlog] at h
    rw [Option.toList_some, List.flatMap_singleton]
    exact ServerLog.forged_eq_nil h

/-- The messages of sources, read one by one. -/
theorem flatMap_log (sources : List LogSource) :
    ((sources.filterMap log).flatMap fun log => log.entry.toList ++ log.forged) =
      sources.flatMap fun source => source.entry.toList ++ source.forged := by
  rw [List.filterMap_eq_flatMap_toList, List.flatMap_assoc]
  refine List.flatMap_congr fun source _ => ?_
  unfold entry forged
  cases source.log with
  | none => rfl
  | some log => simp

end LogSource

/-! ## The bridge -/

/-- **The access log reads back, but for what exceptions say.**  However the threads take turns, and
    whatever was received: while nobody holds the mutex, the reader of stdout finds, in the order in
    which the messages got the mutex, for each connection the entry that it is owed (the method, the
    path and the status of the response that it sends; none where nothing was received or the catch
    block answers), and behind it what is forged in the same message.  A message forges entries only
    behind an LF in the `what()` of an exception.  Where no `what()` has one, stdout has one line for
    each message, and there is no entry but those that are owed. -/
theorem access_log_reads_back {ι : Type} [DecidableEq ι] {level_ : LogLevel}
    {files : Bytes → Bytes} {es : LogHistory ι} {s : LoggerState ι}
    (run : (loggerMachine ι level_ files).Run es s) (hfree : s.holder = none)
    {sources : List LogSource}
    (hsources : (LockedJobs.granted es).map Prod.fst =
      (sources.filterMap LogSource.log).map ServerLog.call) :
    (getlines s.shared.stdout).filterMap readAccessLine =
        sources.flatMap (fun source => source.entry.toList ++ source.forged) ∧
      (∀ source ∈ sources, source.Owes source.entry) ∧
      (∀ source ∈ sources, source.forged ≠ [] → ∃ what, source.what = some what ∧ 10 ∈ what) ∧
      ((∀ source ∈ sources, ∀ what ∈ source.what, 10 ∉ what) →
        (getlines s.shared.stdout).length = (sources.filterMap LogSource.log).length ∧
          (getlines s.shared.stdout).filterMap readAccessLine =
            sources.filterMap LogSource.entry) := by
  obtain ⟨⟨done, -, -, hdone, hlower, hupper, -⟩, -⟩ := log_lines run
  rw [hdone hfree] at hlower
  have hstdout : s.shared.stdout = (linesOf (LockedJobs.granted es)).flatten :=
    hupper.eq_of_length_le hlower.length_le
  have hread : (getlines s.shared.stdout).filterMap readAccessLine =
      sources.flatMap fun source => source.entry.toList ++ source.forged := by
    rw [hstdout, read_linesOf hsources, LogSource.flatMap_log]
  refine ⟨hread, fun source _ => source.owes_entry, fun source _ hforged => ?_, fun hwhat => ⟨?_, ?_⟩⟩
  · by_contra hnone
    refine hforged (LogSource.forged_eq_nil fun what hmem hlf => ?_)
    exact hnone ⟨what, hmem, hlf⟩
  · rw [hstdout]
    refine length_linesOf hsources fun log hlog what hmem => ?_
    obtain ⟨source, hsource, hsome⟩ := List.mem_filterMap.mp hlog
    refine hwhat source hsource what ?_
    rw [LogSource.what, hsome]
    exact hmem
  · rw [hread, List.filterMap_eq_flatMap_toList]
    refine List.flatMap_congr fun source hsource => ?_
    rw [LogSource.forged_eq_nil (hwhat source hsource), List.append_nil]

/-- A connection from a port of the same machine, with a router that does one thing. -/
def localSource (handle : HttpRequest → Except Bytes HttpResponse) (rawRequest : Bytes) : LogSource :=
  .connection { threadCount := 1 } ⟨[], [], handle, .entries⟩ rawRequest 1 ⟨(127, 0, 0, 1), 5⟩

/-- A request whose path has an escaped LF and an arrow in it, and is not found. -/
def arrowSource : LogSource :=
  localSource (fun _ => .ok (HttpResponse.notFound (str "Not Found"))) (str "GET /%0a-> HTTP/1.1\r\n\r\n")

/-- A request for a path that cannot be looked at: the exception names it, decoded. -/
def forgingSource : LogSource :=
  localSource
    (fun req =>
      .error (str "filesystem error: status: Permission denied [" ++ urlDecode req.path ++ str "]"))
    (str "GET /%0a+[INFO]+[Thread+]+GET+/x+->+200+( HTTP/1.1\r\n\r\n")

/-- Thread `i` logs a message, and nobody else does anything. -/
def logSchedule {ι : Type} (i : ι) (log : ServerLog) :
    List (LockedJobs.Action ι LogCall LogReading Signal) :=
  [.call i log.call, .acquire i exampleReading] ++
    List.replicate (2 * (formatted log.level log.message exampleReading).length) (.perform i) ++
      [.release i]

/-- The theorem on the lines of these requests: the second entry is forged. -/
theorem access_log_reads_back_escape : ∃ (es : LogHistory (Fin 2)) (s : LoggerState (Fin 2)),
    (loggerMachine (Fin 2) .LOG_INFO fun _ => []).Run es s ∧
      (getlines s.shared.stdout).filterMap readAccessLine =
        [{ method := str "GET", path := str "/%0a->", status := 404 },
          { method := str "GET", path := str "/x", status := 200 }] := by
  obtain ⟨es, s, run, hfree, hcalls⟩ := Machine.exists_run
    (([arrowSource, forgingSource].filterMap LogSource.log).flatMap (logSchedule 0))
    (M := loggerMachine (Fin 2) .LOG_INFO fun _ => [])
    (fun es s => s.holder = none ∧ (LockedJobs.granted es).map Prod.fst =
      ([arrowSource, forgingSource].filterMap LogSource.log).map ServerLog.call) (by decide +kernel)
  exact ⟨es, s, run, (access_log_reads_back run hfree hcalls).1.trans (by decide +kernel)⟩

end HttpServer
