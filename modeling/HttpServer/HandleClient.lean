/-
  The code of one connection — `TcpServer::handle_client`, and the 503 branch of `accept_loop`.

  1. **Environment** — what a connection meets is a `Client`: the outcomes of `recv` and `send` on
     its socket, what `router_.handle` does with its request, a response or a `std::exception`, and
     the order in which the header table of its response is iterated.

  2. **Program** — both pieces of code run straight on once these are known, so each is the list of
     its effects in order.  An effect is one access to shared data or one call that may block: the
     counters, the pool's queue size (read, then stored), `recv_request`, `send_all`.  `close` is
     `close_socket` with the `connection_closed` behind it.

  3. **Blocking** — `recvRequest` and `sendAll` are steps only when the call returns (`enabled`).
     Nothing is listed behind a `recv_request` that never returns.

  4. **Two ways through (`respond_answers`)** — a received request is answered with one response, or
     the router throws; the arms of the switch differ in nothing else.
-/
import HttpServer.RecvRequest
import HttpServer.SendAll
import HttpServer.Metrics

namespace HttpServer

/-- All that one connection meets.  Nothing of it is the server's doing: the scripts are what the
    socket's calls answer in turn, and a script that is used up is a call that blocks for good. -/
structure Client where
  /-- What the calls of `recv` return, in turn. -/
  recvScript : List RecvOutcome
  /-- What the calls of `send` return, in turn. -/
  sendScript : List SendOutcome
  /-- `router_.handle`; an error is the `what()` of the exception it throws. -/
  handle : HttpRequest → Except Bytes HttpResponse
  /-- The order in which `std::unordered_map` iterates the header table of the response. -/
  iter : IterOrder

instance : Inhabited Client := ⟨[], [], fun _ => .error [], .entries⟩

/-- One step of the code of a connection: an access to a counter or a gauge, or a call that may
    block.  Between two effects of a connection any other thread may take steps. -/
inductive Effect
  | recordRequest
  /-- `pool_->queue_size()`, the length of the queue at that moment. -/
  | loadQueueSize
  /-- `set_queue_size` with what was read: another thread may have stored in between. -/
  | storeQueueSize
  /-- `recv_request` returns. -/
  | recvRequest
  | recordSuccess
  | recordClientError
  | recordServerError
  /-- `send_all` of these bytes returns, whether it sent them all or not. -/
  | sendAll (data : Bytes)
  | addBytesSent (bytes : Nat)
  /-- `close_socket` and `connection_closed`. -/
  | close
  deriving DecidableEq

/-! ## The programs -/

/-- From a response on: count the outcome, send, count the bytes, close. -/
def answer (client : Client) (outcome : Effect) (response : HttpResponse) : List Effect :=
  let serialized := response.serialize client.iter
  [outcome, .sendAll serialized, .addBytesSent serialized.length, .close]

/-- The counter for a routed response, by the code that is sent: from 400 to 499, from 500 on, or
    neither. -/
def outcomeOf (response : HttpResponse) : Effect :=
  let code := response.statusCode.toInt
  if code ≥ 400 ∧ code < 500 then .recordClientError
  else if code ≥ 500 then .recordServerError
  else .recordSuccess

/-- `handle_client` behind `recv_request`: of an empty buffer nothing but the close; otherwise one
    response, which is that of the error `parse` found, or of the router, or of the catch block. -/
def respond (config : Config) (client : Client) (rawRequest : Bytes) : List Effect :=
  if rawRequest = [] then [.close]
  else
    let parseResult := parse rawRequest config.maxHeaderSize config.maxBodySize
    match parseResult.error with
    | .incomplete =>
      answer client .recordClientError (HttpResponse.badRequest (str "Incomplete request"))
    | .malformed =>
      answer client .recordClientError (HttpResponse.badRequest (str "Malformed request"))
    | .headerTooLarge => answer client .recordClientError HttpResponse.payloadTooLarge
    | .bodyTooLarge => answer client .recordClientError HttpResponse.payloadTooLarge
    | .none =>
      match client.handle (buildRequest parseResult) with
      | .ok response => answer client (outcomeOf response) response
      -- the catch block does not count the bytes it sends
      | .error _ =>
        [.recordServerError, .sendAll (HttpResponse.internalError.serialize client.iter), .close]

/-- `handle_client(client_fd, client_addr)`: the request is counted before anything of it is
    read. -/
def handleClient (config : Config) (client : Client) : List Effect :=
  [.recordRequest, .loadQueueSize, .storeQueueSize, .recvRequest] ++
    match recvRequest config client.recvScript with
    | .returned rawRequest _ => respond config client rawRequest
    | .waiting _ => []

/-- The branch of `accept_loop` behind a `submit` that returned false, and the one behind a `submit`
    that threw: they differ in a log line only. -/
def rejectClient (client : Client) : List Effect :=
  let ser := HttpResponse.serviceUnavailable.serialize client.iter
  [.sendAll ser, .addBytesSent ser.length, .recordServerError, .close]

/-! ## What the programs do -/

theorem outcomeOf_cases (response : HttpResponse) :
    outcomeOf response = .recordClientError ∨ outcomeOf response = .recordServerError ∨
      outcomeOf response = .recordSuccess := by
  unfold outcomeOf
  simp only
  split
  · exact Or.inl rfl
  · split
    · exact Or.inr (Or.inl rfl)
    · exact Or.inr (Or.inr rfl)

/-- The catch block. -/
theorem respond_of_throw {config : Config} {client : Client} {rawRequest what : Bytes}
    (hne : rawRequest ≠ [])
    (herror : (parse rawRequest config.maxHeaderSize config.maxBodySize).error = .none)
    (hthrow : client.handle
      (buildRequest (parse rawRequest config.maxHeaderSize config.maxBodySize)) = .error what) :
    respond config client rawRequest =
      [.recordServerError, .sendAll (HttpResponse.internalError.serialize client.iter),
        .close] := by
  rw [respond, if_neg hne]
  simp only [herror, hthrow]

/-- **The two ways through `handle_client`**: every arm of the switch answers with a response of its
    own and counts the outcome that this response has; or the router throws. -/
theorem respond_answers (config : Config) (client : Client) {rawRequest : Bytes}
    (hne : rawRequest ≠ []) :
    (∃ response, respond config client rawRequest =
        answer client (outcomeOf response) response) ∨
      (parse rawRequest config.maxHeaderSize config.maxBodySize).error = .none ∧
        ∃ what, client.handle
          (buildRequest (parse rawRequest config.maxHeaderSize config.maxBodySize)) =
            .error what := by
  rw [respond, if_neg hne]
  simp only
  cases (parse rawRequest config.maxHeaderSize config.maxBodySize).error with
  | incomplete => exact Or.inl ⟨HttpResponse.badRequest (str "Incomplete request"), rfl⟩
  | malformed => exact Or.inl ⟨HttpResponse.badRequest (str "Malformed request"), rfl⟩
  | headerTooLarge => exact Or.inl ⟨HttpResponse.payloadTooLarge, rfl⟩
  | bodyTooLarge => exact Or.inl ⟨HttpResponse.payloadTooLarge, rfl⟩
  | none =>
    cases client.handle
        (buildRequest (parse rawRequest config.maxHeaderSize config.maxBodySize)) with
    | ok response => exact Or.inl ⟨response, rfl⟩
    | error what => exact Or.inr ⟨rfl, what, rfl⟩

/-! ## One effect -/

/-- `recv_request` returns. -/
def Client.received (config : Config) (client : Client) : Option Bytes :=
  match recvRequest config client.recvScript with
  | .returned rawRequest _ => some rawRequest
  | .waiting _ => none

/-- The call comes back. -/
def Effect.enabled (config : Config) (client : Client) : Effect → Bool
  | .recvRequest => (client.received config).isSome
  | .sendAll data => sendReturns data client.sendScript
  | _ => true

/-- What an effect does to the counters; `size` is the queue size that was read before. -/
def Effect.apply (size : Nat) : Effect → Metrics → Metrics
  | .recordRequest, m => m.recordRequest
  | .storeQueueSize, m => m.setQueueSize size
  | .recordSuccess, m => m.recordSuccess
  | .recordClientError, m => m.recordClientError
  | .recordServerError, m => m.recordServerError
  | .addBytesSent bytes, m => m.addBytesSent bytes
  | .close, m => m.connectionClosed
  | .loadQueueSize, m => m
  | .recvRequest, m => m
  | .sendAll _, m => m

end HttpServer
