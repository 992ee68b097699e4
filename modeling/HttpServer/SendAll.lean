/-
  The send loop — `TcpServer::send_all`.

  The outcomes of the successive `send` calls on one socket are a script, as those of `recv` are.
  `sendLoop` recurses on it and returns the calls it made, with the offset and the count it passed,
  which is the rest of the buffer through a `static_cast<int>`, and how it ended: `returned ok`, or
  `waiting` when the script is used up and the call sits in `send`.
-/
import HttpServer.Bytes
import Mathlib.Algebra.Ring.Int.Defs

namespace HttpServer

/-- What one call of `send` gives: how many bytes it took, or a failure.  `EINTR` is the one failure
    behind which `send_all` goes on. -/
inductive SendOutcome
  /-- So many bytes were accepted; `send` accepts at least one or fails. -/
  | sent (bytes : Nat) (pos : 0 < bytes)
  | eintr
  | error
  deriving DecidableEq

/-- The arguments of one call of `send`: where in the buffer it begins, and the length that it is
    given. -/
structure SendCall where
  offset : Nat
  count : Int
  deriving DecidableEq, Repr

/-- How `send_all` ends: with its result, or in a `send` that does not return. -/
inductive SendEnd
  | returned (ok : Bool)
  | waiting
  deriving DecidableEq, Repr

/-- `static_cast<int>` of a `std::size_t`: its low 32 bits as a signed number, so 2^31 bytes are a
    negative length. -/
def castInt (n : Nat) : Int := (n + 2 ^ 31 : Int) % 2 ^ 32 - 2 ^ 31

/-- The loop of `send_all` with `totalSent` bytes behind it: the calls of `send` that it makes, and
    how it ends.  Every call is for all that is left, with the length cast to `int`. -/
def sendLoop (len : Nat) (script : List SendOutcome) (totalSent : Nat) :
    List SendCall × SendEnd :=
  if totalSent < len then
    let call : SendCall := ⟨totalSent, castInt (len - totalSent)⟩
    match script with
    | [] => ([call], .waiting)
    | .sent bytes _ :: rest =>
      let (calls, result) := sendLoop len rest (totalSent + bytes)
      (call :: calls, result)
    | .eintr :: rest =>
      let (calls, result) := sendLoop len rest totalSent
      (call :: calls, result)
    | .error :: _ => ([call], .returned false)
  else ([], .returned true)

section Steps

variable {len totalSent : Nat} {script : List SendOutcome}

theorem sendLoop_done (h : len ≤ totalSent) :
    sendLoop len script totalSent = ([], .returned true) := by
  rw [sendLoop, if_neg (by omega)]

theorem sendLoop_nil (h : totalSent < len) :
    sendLoop len [] totalSent = ([⟨totalSent, castInt (len - totalSent)⟩], .waiting) := by
  rw [sendLoop, if_pos h]

theorem sendLoop_error (h : totalSent < len) :
    sendLoop len (.error :: script) totalSent =
      ([⟨totalSent, castInt (len - totalSent)⟩], .returned false) := by
  rw [sendLoop, if_pos h]

end Steps

/-- `TcpServer::send_all(fd, data, len)`: the calls of `send` that it makes, in order, and how it
    ends. -/
def sendAll (data : Bytes) (script : List SendOutcome) : List SendCall × SendEnd :=
  sendLoop data.length script 0

/-- The call comes back, whether or not everything was sent. -/
def sendReturns (data : Bytes) (script : List SendOutcome) : Bool :=
  (sendAll data script).2 ≠ .waiting

end HttpServer
