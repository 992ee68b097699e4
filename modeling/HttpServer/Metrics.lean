/-
  The counters — what `Metrics` counts and the functions that change it, each as one step.

  The counters are `std::uint64_t` that only grow, and are naturals here; `active_connections_` is a
  `std::int64_t` and an integer.  `connection_opened` adds one and raises the peak; the loop of its
  compare-exchange, which other threads can interleave with, is one step here.  The totals of the
  latencies, which are floating-point numbers, stand with the page that prints them.
-/
import Mathlib.Algebra.Ring.Int.Defs

namespace HttpServer

/-- The counters and gauges of `Metrics`, every one of them an atomic of its own: a reader of two of
    them may find them at two moments. -/
structure Metrics where
  /-- Counted at the start of `handle_client`, before anything is read. -/
  totalRequests : Nat := 0
  successfulRequests : Nat := 0
  clientErrors : Nat := 0
  serverErrors : Nat := 0
  /-- Up at the accept and down behind the close, on whichever thread closes. -/
  activeConnections : Int := 0
  /-- The highest `active_connections_` that a `connection_opened` has offered. -/
  peakConnections : Nat := 0
  /-- The lengths of the responses handed to `send_all`, but for those of the catch block. -/
  totalBytesSent : Nat := 0
  /-- The length of the queue, as the last `handle_client` that began had read it. -/
  queueSize : Nat := 0
  /-- The workers that the pool counted as busy when a connection was accepted last. -/
  activeWorkers : Nat := 0
  deriving DecidableEq, Repr

namespace Metrics

/-- `record_request()`: a connection is being served, whatever comes over it. -/
def recordRequest (m : Metrics) : Metrics := { m with totalRequests := m.totalRequests + 1 }

/-- `record_success()`: a status below 400. -/
def recordSuccess (m : Metrics) : Metrics :=
  { m with successfulRequests := m.successfulRequests + 1 }

/-- `record_client_error()`: a status from 400 to 499. -/
def recordClientError (m : Metrics) : Metrics := { m with clientErrors := m.clientErrors + 1 }

/-- `record_server_error()`: a status from 500 on, a handler that threw, or a full queue. -/
def recordServerError (m : Metrics) : Metrics := { m with serverErrors := m.serverErrors + 1 }

/-- `add_bytes_sent(bytes)`: called with the length of a response, not with what `send` took. -/
def addBytesSent (m : Metrics) (bytes : Nat) : Metrics :=
  { m with totalBytesSent := m.totalBytesSent + bytes }

/-- `static_cast<std::uint64_t>`. -/
def toUInt64 (i : Int) : Nat := (i % 2 ^ 64).toNat

/-- `connection_opened()`: one more connection, and the peak raised to it where it is higher.  The
    comparison is of `std::uint64_t`, so a negative count would be a huge one. -/
def connectionOpened (m : Metrics) : Metrics :=
  let current := m.activeConnections + 1
  { m with
    activeConnections := current
    peakConnections :=
      if toUInt64 current > m.peakConnections then toUInt64 current else m.peakConnections }

/-- `connection_closed()`: one connection less. -/
def connectionClosed (m : Metrics) : Metrics :=
  { m with activeConnections := m.activeConnections - 1 }

/-- `set_queue_size(size)`. -/
def setQueueSize (m : Metrics) (size : Nat) : Metrics := { m with queueSize := size }

/-- `set_active_workers(count)`. -/
def setActiveWorkers (m : Metrics) (count : Nat) : Metrics := { m with activeWorkers := count }

/-- The three counters of outcomes, together. -/
def outcomes (m : Metrics) : Nat := m.successfulRequests + m.clientErrors + m.serverErrors

end Metrics

end HttpServer
