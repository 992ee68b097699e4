/-
  The numbers of the configuration — which ones `Config::parse` takes for what is written.

  1. **Specification** — `writtenNumber` reads a text as a number if nothing stands behind its digits,
     and `fitting` takes it if it is not negative and below 2^16, 2^32 or 2^64.  `assignments` are
     the options of a command line with their values.  `MeansWhatItSays` says that no other value is
     accepted, and that a field has the number of the last value of its option, else of its variable,
     else its default.

  2. **What the code does** — `stoi` and `stoul` read the number in front of a text, and
     `static_cast` takes it modulo the field's width (`castUnsigned`), unchecked.

  3. **One argument, the command line (`parseArguments_cases`, `read_last`)** — an option with its
     value sets its field to what it reads; so a field ends with what its last value reads.

  4. **Bridge** — a fitting number is read as it is written (`read_of_fitting`), and the cast leaves
     it alone.  So the configuration means what it says exactly when every value on the command line
     fits, and a variable that decides and does not fit is thrown out by the conversion, or happens
     to be the default modulo the field's width (`meansWhatItSays_iff`).
-/
import HttpServer.Config
import HttpServer.DecimalLength

namespace HttpServer

/-! ## Written numbers -/

/-- The number that a text is: white space, a sign or none, and digits to the end. -/
def writtenNumber (text : Bytes) : Option Int :=
  let (negative, digits) := takeSign (text.dropWhile isspace)
  if IsDecimal digits then
    some (if negative then -(digitsValue digits : Int) else digitsValue digits)
  else none

/-- The number that a text is, if an unsigned type of `bits` bits holds it. -/
def fitting (bits : Nat) (text : Bytes) : Option Nat :=
  match writtenNumber text with
  | some v => if 0 ≤ v ∧ v < 2 ^ bits then some v.toNat else none
  | none => none

example : fitting 16 (str " +8081") = some 8081 := by decide
example : fitting 16 (str "80a") = none ∧ fitting 16 (str "-1") = none := by decide
example : fitting 16 (str "65536") = none := by decide

/-! ## The options -/

/-- The options with a number. -/
inductive NumberOption
  | port
  | threads
  | capacity
  deriving DecidableEq

namespace NumberOption

/-- The flag in front of the value. -/
def flag : NumberOption → Bytes
  | .port => str "--port"
  | .threads => str "--threads"
  | .capacity => str "--capacity"

/-- The width of the field. -/
def bits : NumberOption → Nat
  | .port => 16
  | .threads => 32
  | .capacity => 64

/-- The field that the option sets. -/
def field : NumberOption → Config → Nat
  | .port, cfg => cfg.port
  | .threads, cfg => cfg.threadCount
  | .capacity, cfg => cfg.queueCapacity

/-- The configuration with that field set. -/
def set : NumberOption → Config → Nat → Config
  | .port, cfg, n => { cfg with port := n }
  | .threads, cfg, n => { cfg with threadCount := n }
  | .capacity, cfg, n => { cfg with queueCapacity := n }

/-- The value of the option's environment variable. -/
def envVariable (getenv : Bytes → Option Bytes) : NumberOption → Option Bytes
  | .port => getenv (str "PORT")
  | .threads => none
  | .capacity => getenv (str "QUEUE_CAPACITY")

/-- The value without the flag and without the variable. -/
def default (hardwareConcurrency : Nat) : NumberOption → Nat
  | .port => 8080
  | .threads => hardwareConcurrency
  | .capacity => 50

/-- No threads become two. -/
def settle : NumberOption → Nat → Nat
  | .threads, 0 => 2
  | _, n => n

/-- The library function that reads the option's value. -/
def convert : NumberOption → Bytes → Except ConvError Int
  | .port, text => stoi text
  | .threads, text => stoi text
  | .capacity, text => (stoul text).map Int.ofNat

/-- What the code puts into the field for a value. -/
def read (o : NumberOption) (text : Bytes) : Except ConvError Nat :=
  (o.convert text).map (castUnsigned o.bits)

@[simp] theorem field_set_self (o : NumberOption) (cfg : Config) (n : Nat) :
    o.field (o.set cfg n) = n := by
  cases o <;> rfl

theorem field_set_ne {o o' : NumberOption} (h : o' ≠ o) (cfg : Config) (n : Nat) :
    o'.field (o.set cfg n) = o'.field cfg := by
  cases o <;> cases o' <;> first | rfl | exact absurd rfl h

theorem eq_of_flag {o o' : NumberOption} (h : o.flag = o'.flag) : o = o' := by
  cases o <;> cases o' <;> first | rfl | exact absurd h (by decide)

end NumberOption

/-! ## The specification -/

/-- The options that take the argument behind them. -/
def valueFlags : List Bytes := [str "--port", str "--threads", str "--capacity", str "--root"]

/-- The options of a command line with their values, left to right: an option takes the argument
    behind it, whatever that is, and in last position it has no value. -/
def assignments : List Bytes → List (Bytes × Bytes)
  | arg :: value :: rest =>
    if arg ∈ valueFlags then (arg, value) :: assignments rest else assignments (value :: rest)
  | _ => []

/-- The values that a command line gives to an option. -/
def NumberOption.values (o : NumberOption) (arguments : List Bytes) : List Bytes :=
  (assignments arguments).filterMap fun a => if a.1 = o.flag then some a.2 else none

/-- The number for an option: that of its last value, else that of its variable. -/
def NumberOption.written (o : NumberOption) (getenv : Bytes → Option Bytes)
    (arguments : List Bytes) : Option Nat :=
  match (o.values arguments).getLast? with
  | some text => fitting o.bits text
  | none => (o.envVariable getenv).bind (fitting o.bits)

/-- The configuration means what it says: a value of the command line that does not fit is not
    accepted, and every field has the number that is written for it, or its default. -/
structure MeansWhatItSays (getenv : Bytes → Option Bytes) (hardwareConcurrency : Nat)
    (arguments : List Bytes) (cfg : Config) : Prop where
  accepted : ∀ o : NumberOption, ∀ text ∈ o.values arguments, fitting o.bits text ≠ none
  field : ∀ o : NumberOption, o.field cfg =
    o.settle ((o.written getenv arguments).getD (o.default hardwareConcurrency))

/-- Every value of the command line fits, and so does a variable that decides, unless the conversion
    throws or what it reads is the default modulo the field's width. -/
structure NumbersFit (getenv : Bytes → Option Bytes) (hardwareConcurrency : Nat)
    (arguments : List Bytes) : Prop where
  commandLine : ∀ o : NumberOption, ∀ text ∈ o.values arguments, fitting o.bits text ≠ none
  environment : ∀ o : NumberOption, o.values arguments = [] →
    ∀ text, o.envVariable getenv = some text → fitting o.bits text = none →
      ∀ v, o.convert text = .ok v → castUnsigned o.bits v = o.default hardwareConcurrency

/-! ## Reading a number -/

/-- What both conversions see of a written number: its sign and its digits. -/
theorem signed_of_written {text : Bytes} {v : Int} (h : writtenNumber text = some v) :
    ∃ negative digits, takeSign (text.dropWhile isspace) = (negative, digits) ∧
      digits.takeWhile isdigit = digits ∧ digits ≠ [] ∧
      v = if negative then -(digitsValue digits : Int) else digitsValue digits := by
  unfold writtenNumber at h
  generalize takeSign (text.dropWhile isspace) = signed at h ⊢
  obtain ⟨negative, digits⟩ := signed
  simp only at h
  split at h
  · rename_i hdecimal
    exact ⟨negative, digits, rfl, List.takeWhile_eq_self_iff.mpr hdecimal.2, hdecimal.1,
      (Option.some.inj h).symm⟩
  · cases h

/-- `stoi` on a written number. -/
theorem stoi_of_written {text : Bytes} {v : Int} (h : writtenNumber text = some v) :
    stoi text = if v < -2147483648 ∨ 2147483647 < v then .error .outOfRange else .ok v := by
  obtain ⟨negative, digits, hsigned, hall, hne, rfl⟩ := signed_of_written h
  unfold stoi
  simp only [hsigned]
  rw [hall, if_neg hne]

/-- `stoul` on a written number that 64 bits hold. -/
theorem stoul_of_written {text : Bytes} {v : Int} (h : writtenNumber text = some v) (hle : 0 ≤ v)
    (hlt : v < 2 ^ 64) : stoul text = .ok v.toNat := by
  obtain ⟨negative, digits, hsigned, hall, hne, hv⟩ := signed_of_written h
  unfold stoul stoull
  simp only [hsigned]
  rw [hall, if_neg hne]
  cases negative with
  | false =>
    have hvalue : v = digitsValue digits := hv
    rw [if_neg (by omega), hvalue]
    rfl
  | true =>
    -- a minus sign fits in front of zero only
    have hvalue : v = -(digitsValue digits : Int) := hv
    have hzero : digitsValue digits = 0 := by omega
    rw [hvalue, hzero]
    rfl

theorem fitting_eq_some_iff {bits n : Nat} {text : Bytes} :
    fitting bits text = some n ↔ writtenNumber text = some (n : Int) ∧ n < 2 ^ bits := by
  unfold fitting
  cases hw : writtenNumber text with
  | none => simp
  | some v =>
    simp only [Option.some.injEq]
    constructor
    · intro h
      split at h
      · rename_i hv
        cases h
        have hcast : ((v.toNat : Nat) : Int) = v := Int.toNat_of_nonneg hv.1
        refine ⟨hcast.symm, ?_⟩
        have hlt : ((v.toNat : Nat) : Int) < ((2 ^ bits : Nat) : Int) := by
          rw [hcast]
          exact_mod_cast hv.2
        exact_mod_cast hlt
      · cases h
    · rintro ⟨rfl, hlt⟩
      rw [if_pos ⟨Int.natCast_nonneg n, by exact_mod_cast hlt⟩]
      rfl

/-- The cast leaves a number alone that fits. -/
theorem castUnsigned_of_lt {bits n : Nat} (h : n < 2 ^ bits) : castUnsigned bits n = n := by
  have hlt : (n : Int) < 2 ^ bits := by exact_mod_cast h
  rw [castUnsigned, Int.emod_eq_of_lt (Int.natCast_nonneg n) hlt]
  rfl

namespace NumberOption

/-- **A fitting number is read as it is written**, or, as a number of threads, not at all. -/
theorem read_of_fitting {o : NumberOption} {text : Bytes} {n : Nat}
    (h : fitting o.bits text = some n) :
    o.read text = .ok n ∨ o = .threads ∧ ∃ e, o.read text = .error e := by
  obtain ⟨hwritten, hlt⟩ := fitting_eq_some_iff.mp h
  have hcast := castUnsigned_of_lt hlt
  cases o with
  | port =>
    have hsmall : n < 65536 := hlt
    left
    rw [read, convert, stoi_of_written hwritten, if_neg (by omega), Except.map, hcast]
  | threads =>
    rw [read, convert, stoi_of_written hwritten]
    by_cases hrange : (n : Int) < -2147483648 ∨ 2147483647 < (n : Int)
    · rw [if_pos hrange]
      exact Or.inr ⟨rfl, _, rfl⟩
    · rw [if_neg hrange, Except.map, hcast]
      exact Or.inl rfl
  | capacity =>
    left
    have hlarge : (n : Int) < 2 ^ 64 := by exact_mod_cast hlt
    rw [read, convert, stoul_of_written hwritten (Int.natCast_nonneg n) hlarge]
    show Except.ok (castUnsigned _ _) = _
    exact congrArg Except.ok hcast

theorem read_eq_of_fitting {o : NumberOption} {text : Bytes} {n m : Nat}
    (h : fitting o.bits text = some n) (hread : o.read text = .ok m) : m = n := by
  rcases read_of_fitting h with hok | ⟨-, e, herror⟩
  · rw [hok] at hread
    cases hread
    rfl
  · rw [herror] at hread
    cases hread

end NumberOption

/-! ## The command line -/

/-- An option with its value. -/
theorem parseArguments_flag (program : Bytes) (cfg : Config) (o : NumberOption) (value : Bytes)
    (rest : List Bytes) :
    Config.parseArguments program cfg (o.flag :: value :: rest) =
      match o.read value with
      | .ok n => Config.parseArguments program (o.set cfg n) rest
      | .error e => .error (.thrown e) := by
  rw [Config.parseArguments]
  cases o with
  | port =>
    rw [if_pos (by rfl), NumberOption.read, NumberOption.convert]
    cases stoi value with
    | ok v => rfl
    | error e => rfl
  | threads =>
    rw [if_neg (by decide), if_pos (by rfl), NumberOption.read, NumberOption.convert]
    cases stoi value with
    | ok v => rfl
    | error e => rfl
  | capacity =>
    rw [if_neg (by decide), if_neg (by decide), if_pos (by rfl), NumberOption.read,
      NumberOption.convert]
    cases stoul value with
    | ok v => rfl
    | error e => rfl

/-- **One argument**: an option with a number sets its field to what it reads, `--root` sets no number,
    and any other argument is passed over. -/
theorem parseArguments_cases {program arg value : Bytes} {cfg cfg' : Config} {rest : List Bytes}
    (h : Config.parseArguments program cfg (arg :: value :: rest) = .ok cfg') :
    (∃ (o : NumberOption) (n : Nat), arg = o.flag ∧ o.read value = .ok n ∧
      Config.parseArguments program (o.set cfg n) rest = .ok cfg') ∨
    (arg = str "--root" ∧
      Config.parseArguments program { cfg with documentRoot := value } rest = .ok cfg') ∨
    (arg ∉ valueFlags ∧ Config.parseArguments program cfg (value :: rest) = .ok cfg') := by
  by_cases hflag : ∃ o : NumberOption, arg = o.flag
  · obtain ⟨o, rfl⟩ := hflag
    rw [parseArguments_flag] at h
    cases hread : o.read value with
    | error e =>
      rw [hread] at h
      cases h
    | ok n =>
      rw [hread] at h
      exact Or.inl ⟨o, n, rfl, hread, h⟩
  · have hport : arg ≠ str "--port" := fun heq => hflag ⟨.port, heq⟩
    have hthreads : arg ≠ str "--threads" := fun heq => hflag ⟨.threads, heq⟩
    have hcapacity : arg ≠ str "--capacity" := fun heq => hflag ⟨.capacity, heq⟩
    rw [Config.parseArguments, if_neg hport, if_neg hthreads, if_neg hcapacity] at h
    by_cases hroot : arg = str "--root"
    · rw [if_pos hroot] at h
      exact Or.inr (Or.inl ⟨hroot, h⟩)
    · rw [if_neg hroot] at h
      split at h
      · cases h
      · refine Or.inr (Or.inr ⟨?_, h⟩)
        simp only [valueFlags, List.mem_cons, List.not_mem_nil, or_false, not_or]
        exact ⟨hport, hthreads, hcapacity, hroot⟩

namespace NumberOption

theorem values_cons_of_flag (o : NumberOption) {arg value : Bytes} {rest : List Bytes}
    (h : arg ∈ valueFlags) :
    o.values (arg :: value :: rest) =
      if arg = o.flag then value :: o.values rest else o.values rest := by
  rw [values, assignments, if_pos h, List.filterMap_cons]
  split
  · rename_i hnone
    split at hnone
    · cases hnone
    · rename_i hne
      rw [if_neg hne]
      rfl
  · rename_i v hsome
    split at hsome
    · rename_i heq
      cases hsome
      rw [if_pos heq]
      rfl
    · cases hsome

theorem flag_mem_valueFlags (o : NumberOption) : o.flag ∈ valueFlags := by
  cases o <;> decide

theorem values_cons_of_not_flag (o : NumberOption) {arg value : Bytes} {rest : List Bytes}
    (h : arg ∉ valueFlags) : o.values (arg :: value :: rest) = o.values (value :: rest) := by
  rw [values, assignments, if_neg h, values]

/-- **The command line**: every value of an option is read, and the field has what the last one
    reads, or what it had. -/
theorem read_last {program : Bytes} {cfg cfg' : Config} {arguments : List Bytes}
    (h : Config.parseArguments program cfg arguments = .ok cfg') (o : NumberOption) :
    match (o.values arguments).getLast? with
    | some text => o.read text = .ok (o.field cfg')
    | none => o.field cfg' = o.field cfg := by
  induction arguments using assignments.induct generalizing cfg with
  | case1 arg value rest hflag ih =>
    rw [values_cons_of_flag o hflag]
    rcases parseArguments_cases h with ⟨o', n, rfl, hread, hrest⟩ | ⟨hroot, hrest⟩ | ⟨hno, -⟩
    · have hlast := ih hrest
      by_cases hsame : o'.flag = o.flag
      · obtain rfl := eq_of_flag hsame
        rw [if_pos rfl, List.getLast?_cons]
        cases hvalues : (o'.values rest).getLast? with
        | some text =>
          rw [hvalues] at hlast
          exact hlast
        | none =>
          -- this value is the last one
          rw [hvalues] at hlast
          have hfield : o'.field cfg' = n := hlast.trans (o'.field_set_self cfg n)
          rw [hfield]
          exact hread
      · have hne : o ≠ o' := fun heq => hsame (heq ▸ rfl)
        rw [if_neg hsame]
        rw [field_set_ne hne] at hlast
        exact hlast
    · have hne : arg ≠ o.flag := by
        rw [hroot]
        cases o <;> decide
      have hsame : o.field { cfg with documentRoot := value } = o.field cfg := by
        cases o <;> rfl
      have hlast := ih hrest
      rw [hsame] at hlast
      rw [if_neg hne]
      exact hlast
    · exact absurd hflag hno
  | case2 arg value rest hno ih =>
    rw [values_cons_of_not_flag o hno]
    rcases parseArguments_cases h with ⟨o', n, rfl, -, -⟩ | ⟨rfl, -⟩ | ⟨-, hrest⟩
    · exact absurd (flag_mem_valueFlags o') hno
    · exact absurd (by decide) hno
    · exact ih hrest
  | case3 arguments hshort =>
    have hnone : o.values arguments = [] := by
      rw [values, assignments]
      · rfl
      · exact hshort
    rw [hnone]
    match arguments, hshort, h with
    | [], _, h =>
      cases h
      rfl
    | [arg], _, h =>
      rw [Config.parseArguments] at h
      split at h
      · cases h
      · cases h
        rfl
    | arg :: value :: rest, hshort, _ => exact absurd rfl (hshort arg value rest)

/-! ## The environment -/

/-- What the variable of an option puts into the field. -/
def fromVariable (o : NumberOption) (getenv : Bytes → Option Bytes) (n : Nat) : Nat :=
  match o.envVariable getenv with
  | none => n
  | some text =>
    match o.read text with
    | .ok m => m
    | .error _ => n

theorem portFromEnv_eq (getenv : Bytes → Option Bytes) (cfg : Config) :
    Config.portFromEnv getenv cfg =
      NumberOption.port.set cfg (NumberOption.port.fromVariable getenv cfg.port) := by
  unfold Config.portFromEnv fromVariable
  rw [envVariable]
  cases getenv (str "PORT") with
  | none => rfl
  | some text =>
    simp only [read, convert]
    cases stoi text with
    | ok v => rfl
    | error e => rfl

theorem capacityFromEnv_eq (getenv : Bytes → Option Bytes) (cfg : Config) :
    Config.capacityFromEnv getenv cfg =
      NumberOption.capacity.set cfg
        (NumberOption.capacity.fromVariable getenv cfg.queueCapacity) := by
  unfold Config.capacityFromEnv fromVariable
  rw [envVariable]
  cases getenv (str "QUEUE_CAPACITY") with
  | none => rfl
  | some text =>
    simp only [read, convert]
    cases stoul text with
    | ok v => rfl
    | error e => rfl

/-- **The environment**: every field has what its variable reads, or its default. -/
theorem field_fromEnv (o : NumberOption) (getenv : Bytes → Option Bytes)
    (hardwareConcurrency : Nat) :
    o.field (Config.capacityFromEnv getenv
        (Config.portFromEnv getenv { threadCount := hardwareConcurrency })) =
      o.fromVariable getenv (o.default hardwareConcurrency) := by
  rw [capacityFromEnv_eq, portFromEnv_eq]
  cases o <;> rfl

/-- A variable gives the number that it says, or the default, if it fits or is thrown out, or happens
    to be the default. -/
theorem fromVariable_eq_iff (o : NumberOption) (getenv : Bytes → Option Bytes) (n : Nat) :
    o.fromVariable getenv n = ((o.envVariable getenv).bind (fitting o.bits)).getD n ↔
      ∀ text, o.envVariable getenv = some text → fitting o.bits text = none →
        ∀ v, o.convert text = .ok v → castUnsigned o.bits v = n := by
  unfold fromVariable
  cases hvar : o.envVariable getenv with
  | none => simp
  | some text =>
    simp only [Option.bind_some, Option.some.injEq, forall_eq']
    cases hfit : fitting o.bits text with
    | some m =>
      rcases read_of_fitting hfit with hread | ⟨rfl, -⟩
      · simp [hread]
      · cases hvar
    | none =>
      simp only [read, Option.getD_none, forall_const]
      cases hconvert : o.convert text with
      | ok v => simp [Except.map]
      | error e => simp [Except.map]

/-- A number that a variable may decide is not settled. -/
theorem settle_of_variable {o : NumberOption} {getenv : Bytes → Option Bytes} {text : Bytes}
    (h : o.envVariable getenv = some text) (n : Nat) : o.settle n = n := by
  cases o with
  | port => rfl
  | threads => cases h
  | capacity => rfl

/-- **A configuration that `parse` returns**: a field has what the last value of its option reads, or
    its variable, or its default. -/
theorem field_parse {getenv : Bytes → Option Bytes} {hardwareConcurrency : Nat}
    {argv : List Bytes} {cfg : Config}
    (h : Config.parse getenv hardwareConcurrency argv = .ok cfg) (o : NumberOption) :
    match (o.values argv.tail).getLast? with
    | some text => ∃ n, o.read text = .ok n ∧ o.field cfg = o.settle n
    | none =>
      o.field cfg = o.settle (o.fromVariable getenv (o.default hardwareConcurrency)) := by
  rw [Config.parse] at h
  split at h
  · rename_i cfg' harguments
    have hlast := read_last harguments o
    have hsettle : o.field cfg = o.settle (o.field cfg') := by
      cases h
      by_cases hzero : cfg'.threadCount = 0
      · rw [if_pos hzero]
        cases o with
        | threads =>
          show 2 = NumberOption.threads.settle cfg'.threadCount
          rw [hzero]
          rfl
        | port => rfl
        | capacity => rfl
      · rw [if_neg hzero]
        cases o with
        | threads =>
          show cfg'.threadCount = NumberOption.threads.settle cfg'.threadCount
          unfold settle
          split
          · rename_i heq
            exact absurd heq hzero
          · rfl
        | port => rfl
        | capacity => rfl
    cases hvalues : (o.values argv.tail).getLast? with
    | some text =>
      rw [hvalues] at hlast
      exact ⟨_, hlast, hsettle⟩
    | none =>
      rw [hvalues] at hlast
      rw [← field_fromEnv, ← hlast]
      exact hsettle
  · cases h

end NumberOption

/-! ## The theorem -/

/-- **When configuration numbers mean what they say.**  For every environment, every number of
    hardware threads and every argument vector for which `Config::parse` returns: the configuration
    means what it says if and only if all numbers fit. -/
theorem meansWhatItSays_iff (getenv : Bytes → Option Bytes) (hardwareConcurrency : Nat)
    (argv : List Bytes) (cfg : Config)
    (h : Config.parse getenv hardwareConcurrency argv = .ok cfg) :
    MeansWhatItSays getenv hardwareConcurrency argv.tail cfg ↔
      NumbersFit getenv hardwareConcurrency argv.tail := by
  constructor
  · rintro ⟨haccepted, hfield⟩
    refine ⟨haccepted, ?_⟩
    intro o hnone
    refine (o.fromVariable_eq_iff getenv _).mp ?_
    have hparse := NumberOption.field_parse h o
    have hmeans := hfield o
    rw [hnone] at hparse
    rw [NumberOption.written, hnone, List.getLast?_nil] at hmeans
    cases hvar : o.envVariable getenv with
    | none =>
      rw [NumberOption.fromVariable, hvar]
      rfl
    | some text =>
      have hsame := hparse.symm.trans hmeans
      rw [NumberOption.settle_of_variable hvar, NumberOption.settle_of_variable hvar, hvar]
        at hsame
      exact hsame
  · rintro ⟨hcommand, henv⟩
    refine ⟨hcommand, ?_⟩
    intro o
    have hparse := NumberOption.field_parse h o
    unfold NumberOption.written
    cases hlast : (o.values argv.tail).getLast? with
    | some text =>
      rw [hlast] at hparse
      obtain ⟨n, hread, hfield⟩ := hparse
      cases hfit : fitting o.bits text with
      | none => exact absurd hfit (hcommand o text (List.mem_of_getLast? hlast))
      | some m =>
        rw [hfield, NumberOption.read_eq_of_fitting hfit hread]
        simp only
        rw [hfit, Option.getD_some]
    | none =>
      rw [hlast] at hparse
      have hvalue := (o.fromVariable_eq_iff getenv _).mpr
        (henv o (List.getLast?_eq_none_iff.mp hlast))
      rw [hparse, hvalue]

/-- The theorem on a command line that repeats an option and leaves one to the environment. -/
theorem meansWhatItSays_iff_repeated :
    MeansWhatItSays (fun _ => some (str "9000")) 4
      [str "--port", str "80", str "--threads", str "0", str "--port", str "8081"]
      { port := 8081, threadCount := 2, queueCapacity := 9000 } := by
  refine (meansWhatItSays_iff (fun _ => some (str "9000")) 4
    [str "server", str "--port", str "80", str "--threads", str "0", str "--port", str "8081"]
    { port := 8081, threadCount := 2, queueCapacity := 9000 } (by rfl)).mpr ⟨?_, ?_⟩
  · intro o
    cases o <;> decide
  · intro o hnone text hvar hfit
    cases o with
    | port => exact absurd hnone (by decide)
    | threads => cases hvar
    | capacity =>
      cases hvar
      exact absurd hfit (by decide)

/-- `--port 70000` starts a server on port 4464. -/
theorem port_is_reduced :
    ∃ cfg, Config.parse (fun _ => none) 4 [str "server", str "--port", str "70000"] = .ok cfg ∧
      cfg.port = 4464 ∧
      ¬MeansWhatItSays (fun _ => none) 4 [str "--port", str "70000"] cfg := by
  refine ⟨{ port := 4464, threadCount := 4 }, by rfl, rfl, ?_⟩
  rintro ⟨haccepted, -⟩
  exact haccepted .port (str "70000") (by decide) (by decide)

end HttpServer
