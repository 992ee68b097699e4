/-
  The receive loop — `TcpServer::recv_request`.

  1. **Environment** — the outcomes of the successive `recv` calls on one socket are a script: a
     data chunk (1 to 4095 bytes, the size the call asks for), end of stream, or a failure with its
     `errno`.  Nothing bounds a script, and `recv_request` consumes one outcome a call.

  2. **Program** — `recvLoop` is the outer loop over header bytes, `afterHeaders` what the loop body
     does once the buffer holds a CRLFCRLF, `recvBody` the inner loop over body bytes.  All three
     recurse on the script.

  3. **Result** — `returned request rest` when the function returns, with the outcomes it left
     unread, and `waiting request` when the script is used up and the call sits in `recv`.  The
     buffer at any moment of a run is therefore the one of `waiting` on a prefix of the script.
-/
import HttpServer.Config
import HttpServer.HttpParser

namespace HttpServer

open ListSearch

/-! ## The environment -/

/-- The bytes of one successful `recv`: at least one, and no more than the 4095 that it is asked
    for. -/
structure Chunk where
  bytes : Bytes
  nonempty : bytes ≠ []
  length_le : bytes.length ≤ 4095
  deriving DecidableEq

/-- What one call of `recv` gives: bytes, the end of the stream, or a failure, by its `errno` as far
    as the loops tell failures apart. -/
inductive RecvOutcome
  /-- Some bytes. -/
  | data (chunk : Chunk)
  /-- It returns 0. -/
  | eof
  /-- It is interrupted. -/
  | eintr
  /-- `EAGAIN` or `EWOULDBLOCK`: the receive timeout of the socket. -/
  | eagain
  /-- It fails in another way. -/
  | error
  deriving DecidableEq

/-- How `recv_request` ends on a script of outcomes. -/
inductive RecvResult
  /-- With its result, and the outcomes that it has not asked for. -/
  | returned (request : Bytes) (rest : List RecvOutcome)
  /-- In a `recv` that does not return, with what the buffer then holds. -/
  | waiting (request : Bytes)
  deriving DecidableEq

/-! ## The program -/

/-- The lookup of `recv_request`, in the whole buffer: unlike the one of `parse` it finds a
    `content-length:` in body bytes that came with the header block too. -/
def recvLocateLength (request : Bytes) : Located :=
  match find contentLengthText (lower request) with
  | .none => .absent
  | some clPos =>
    match findFrom [58] request clPos with
    | .none => .dangling
    | some colonPos =>
      match findFrom crlf request colonPos with
      | .none => .dangling
      | some eolPos => .value (skipBlanks (substr request (colonPos + 1) (eolPos - colonPos - 1)))

/-- The inner loop: body bytes until the declared length or `max_body_size` of them are there. -/
def recvBody (maxBodySize headerSize contentLength : Nat) (script : List RecvOutcome)
    (request : Bytes) : RecvResult :=
  if request.length - headerSize < contentLength ∧ request.length - headerSize < maxBodySize then
    match script with
    | [] => .waiting request
    | .data chunk :: rest =>
      recvBody maxBodySize headerSize contentLength rest (request ++ chunk.bytes)
    -- `if (n <= 0) break`: unlike the outer loop, this one does not look at `errno`
    | .eof :: rest | .eintr :: rest | .eagain :: rest | .error :: rest => .returned request rest
  else .returned request script

/-- What the loop does with a buffer that holds its first CRLFCRLF at `headerEnd`. -/
def afterHeaders (config : Config) (headerEnd : Nat) (request : Bytes)
    (script : List RecvOutcome) : RecvResult :=
  match recvLocateLength request with
  | .absent => .returned request script
  | .dangling => .returned request script
  | .value clValue =>
    match stoull clValue with
    | .error _ => .returned request script
    | .ok contentLength => recvBody config.maxBodySize (headerEnd + 4) contentLength script request

/-- The outer loop: bytes until the buffer holds a CRLFCRLF or exceeds `max_header_size`. -/
def recvLoop (config : Config) : List RecvOutcome → Bytes → RecvResult
  | [], request => .waiting request
  | .eof :: rest, request => .returned request rest
  | .eintr :: rest, request => recvLoop config rest request
  | .eagain :: rest, request => recvLoop config rest request
  | .error :: rest, request => .returned request rest
  | .data chunk :: rest, request =>
    -- the CRLFCRLF is looked for before the size is
    match find crlfcrlf (request ++ chunk.bytes) with
    | some headerEnd => afterHeaders config headerEnd (request ++ chunk.bytes) rest
    | .none =>
      if (request ++ chunk.bytes).length > config.maxHeaderSize then
        .returned (request ++ chunk.bytes) rest
      else recvLoop config rest (request ++ chunk.bytes)

/-- `TcpServer::recv_request(client_fd)`: it reads until the buffer holds a whole request, as far as
    it can tell, or `recv` gives no more. -/
def recvRequest (config : Config) (script : List RecvOutcome) : RecvResult :=
  recvLoop config script []

end HttpServer
