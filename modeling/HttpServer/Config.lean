/-
  The server's configuration — the fields of `Config` that the modelled functions read, with the
  defaults of `config.hpp`, and `Config::parse`.

  1. **Data** — `port` is a `uint16_t`, `thread_count` an `unsigned int` of 32 bits, the sizes are
     `std::size_t` of 64 bits.  What the environment holds and what
     `std::thread::hardware_concurrency()` returns are parameters of `parse`.

  2. **Program** — `parse` takes PORT and QUEUE_CAPACITY from the environment, where what `stoi` or
     `stoul` throws is caught, and then the command line left to right, where it is not.
-/
import HttpServer.Bytes
import Mathlib.Algebra.Ring.Int.Defs

namespace HttpServer

/-- The fields of `Config` that the server reads, with their defaults. -/
structure Config where
  port : Nat := 8080
  /-- `std::thread::hardware_concurrency()` by default. -/
  threadCount : Nat
  queueCapacity : Nat := 50
  documentRoot : Bytes := str "public"
  maxHeaderSize : Nat := 64 * 1024
  maxBodySize : Nat := 1024 * 1024

/-! ## Numbers -/

/-- `static_cast` to an unsigned type of `bits` bits: the value modulo 2^bits, so a port of 65536 is
    port 0. -/
def castUnsigned (bits : Nat) (v : Int) : Nat := (v % 2 ^ bits).toNat

/-- `std::stoul(s)`, for an `unsigned long` of 64 bits. -/
def stoul (s : Bytes) : Except ConvError Nat := stoull s

/-! ## `Config::parse` -/

/-- How `parse` ends other than by returning: an exception leaves it, or the usage is printed and
    the process exits. -/
inductive ConfigStop
  | thrown (e : ConvError)
  | exited (usage : Bytes)
  deriving DecidableEq

/-- The text of `print_usage(program)`. -/
def usage (program : Bytes) : Bytes :=
  str "Usage: " ++ program ++ str " [options]\n" ++
    str "  --port PORT      Listen port (default: 8080)\n" ++
    str "  --threads N      Worker thread count (default: hardware concurrency)\n" ++
    str "  --capacity N     Queue capacity for backpressure (default: 50)\n" ++
    str "  --root PATH      Document root for static files (default: public)\n" ++
    str "  --help, -h       Show this message\n"

namespace Config

/-- The block that reads PORT: what `stoi` throws is caught. -/
def portFromEnv (getenv : Bytes → Option Bytes) (cfg : Config) : Config :=
  match getenv (str "PORT") with
  | none => cfg
  | some envPort =>
    match stoi envPort with
    | .ok v => { cfg with port := castUnsigned 16 v }
    | .error _ => cfg

/-- The block that reads QUEUE_CAPACITY: what `stoul` throws is caught, and the default stays. -/
def capacityFromEnv (getenv : Bytes → Option Bytes) (cfg : Config) : Config :=
  match getenv (str "QUEUE_CAPACITY") with
  | none => cfg
  | some envCap =>
    match stoul envCap with
    | .ok v => { cfg with queueCapacity := castUnsigned 64 v }
    | .error _ => cfg

/-- The loop over the arguments behind the program's name, left to right: a later option overrides
    an earlier one, what is no option is passed over, and what `stoi` or `stoul` throws leaves
    `parse`. -/
def parseArguments (program : Bytes) (cfg : Config) : List Bytes → Except ConfigStop Config
  | [] => .ok cfg
  | [arg] =>
    -- in last position `i + 1 < argc` fails, so an option that takes a value is passed over
    if arg = str "--help" ∨ arg = str "-h" then .error (.exited (usage program)) else .ok cfg
  | arg :: value :: rest =>
    if arg = str "--port" then
      match stoi value with
      | .ok v => parseArguments program { cfg with port := castUnsigned 16 v } rest
      | .error e => .error (.thrown e)
    else if arg = str "--threads" then
      match stoi value with
      | .ok v => parseArguments program { cfg with threadCount := castUnsigned 32 v } rest
      | .error e => .error (.thrown e)
    else if arg = str "--capacity" then
      match stoul value with
      | .ok v => parseArguments program { cfg with queueCapacity := castUnsigned 64 v } rest
      | .error e => .error (.thrown e)
    else if arg = str "--root" then
      parseArguments program { cfg with documentRoot := value } rest
    else if arg = str "--help" ∨ arg = str "-h" then .error (.exited (usage program))
    else parseArguments program cfg (value :: rest)

/-- `Config::parse(argc, argv)`, where `argv` begins with the program's name: the defaults, over
    them the environment, and over that the arguments; last, no threads become two. -/
def parse (getenv : Bytes → Option Bytes) (hardwareConcurrency : Nat) (argv : List Bytes) :
    Except ConfigStop Config :=
  let cfg := capacityFromEnv getenv (portFromEnv getenv { threadCount := hardwareConcurrency })
  match parseArguments (argv.headD []) cfg argv.tail with
  | .ok cfg => .ok (if cfg.threadCount = 0 then { cfg with threadCount := 2 } else cfg)
  | .error stop => .error stop

end Config

end HttpServer
