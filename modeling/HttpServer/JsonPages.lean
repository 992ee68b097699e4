/-
  The JSON pages — what `/metrics`, `/health` and `/work` say, and what a browser reads there.

  1. **Program** — `MetricsLoads.toJson` is `Metrics::to_json`, on what its loads give: each counter is
     loaded at a time of its own, and the number of requests twice.  The average latency and the rate
     are quotients of doubles, taken behind a test of the divisor, and written as the stream writes
     them (`DoubleText`).

  2. **Specification** — the members of a page, in their order, and the integers among them
     (`MetricsLoads.integers`).  `dashboardFields` are the fields that `dashboard.js` and `lab.html`
     take from the page.

  3. **Bridge (`json_pages_readable`)** — every page is its members in a layout, so reading gives them
     back; an integer is read as the number that was loaded, and whatever the pages ask for is there
     and is a number.
-/
import HttpServer.DoubleText
import HttpServer.Lib.FlatJson
import HttpServer.Metrics
import HttpServer.Router

namespace HttpServer

open FlatJson (Value Member Layout)

/-! ## `Metrics::to_json` -/

/-- `total_latency_ms_` and `latency_count_`, which `latency_mutex_` keeps together. -/
structure LatencyTotals where
  /-- The value of the `double`: a sum of milliseconds. -/
  totalMs : ℚ≥0 := 0
  count : Nat := 0

/-- `record_latency(ms)`. -/
def LatencyTotals.record (totals : LatencyTotals) (ms : ℚ≥0) : LatencyTotals :=
  ⟨toDouble (totals.totalMs + ms), totals.count + 1⟩

/-- What one call of `to_json` loads. -/
structure MetricsLoads where
  /-- `total_requests_`, for the rate. -/
  requestsForRate : Nat
  /-- The counters, each as its own load gives it. -/
  counters : Metrics
  threadCount : Nat
  queueCapacity : Nat
  /-- Whole seconds since `start_time_`. -/
  uptimeSeconds : Nat
  latency : LatencyTotals

/-- One line of a page, without its comma. -/
def jsonLine (line : Bytes × Bytes) : Bytes := str "  \"" ++ line.1 ++ str "\": " ++ line.2

/-- Lines of a name and a text, with commas behind all but the last. -/
def jsonObject (lines : List (Bytes × Bytes)) : Bytes :=
  str "\x7b\n" ++ (str ",\n").intercalate (lines.map jsonLine) ++ str "\n\x7d"

namespace MetricsLoads

variable (x : MetricsLoads)

/-- `avg_latency`: no division before a request was timed. -/
def avgLatency : Double :=
  if x.latency.count > 0 then (Double.finite x.latency.totalMs).div (.ofNat x.latency.count)
  else .finite 0

/-- `requests_per_sec`: no division within the first second. -/
def requestsPerSec : Double :=
  if x.uptimeSeconds > 0 then (Double.ofNat x.requestsForRate).div (.ofNat x.uptimeSeconds)
  else .finite 0

/-- `iw`. -/
def idleWorkers : Nat :=
  if x.threadCount > x.counters.activeWorkers then x.threadCount - x.counters.activeWorkers else 0

/-- The lines of the page, in the order in which they are written: `std::fixed` and
    `std::setprecision(2)` come behind the average latency. -/
def lines : List (Bytes × Bytes) :=
  [(str "total_requests", toDecimal x.counters.totalRequests),
    (str "successful_requests", toDecimal x.counters.successfulRequests),
    (str "client_errors", toDecimal x.counters.clientErrors),
    (str "server_errors", toDecimal x.counters.serverErrors),
    (str "active_connections", toDecimalInt x.counters.activeConnections),
    (str "peak_connections", toDecimal x.counters.peakConnections),
    (str "total_bytes_sent", toDecimal x.counters.totalBytesSent),
    (str "average_latency_ms", x.avgLatency.write defaultText),
    (str "requests_per_second", x.requestsPerSec.write (fixedText 2)),
    (str "uptime_seconds", toDecimal x.uptimeSeconds),
    (str "worker_threads", toDecimal x.threadCount),
    (str "active_workers", toDecimal x.counters.activeWorkers),
    (str "idle_workers", toDecimal x.idleWorkers),
    (str "queue_size", toDecimal x.counters.queueSize),
    (str "queue_capacity", toDecimal x.queueCapacity)]

/-- `to_json()`. -/
def toJson : Bytes := jsonObject x.lines

end MetricsLoads

/-! ## The members of the pages -/

/-- The members of the metrics: numbers, all of them. -/
def MetricsLoads.members (x : MetricsLoads) : List Member :=
  x.lines.map fun line => (line.1, .number line.2)

/-- Those that are integers, with their values. -/
def MetricsLoads.integers (x : MetricsLoads) : List (Bytes × Int) :=
  [(str "total_requests", x.counters.totalRequests),
    (str "successful_requests", x.counters.successfulRequests),
    (str "client_errors", x.counters.clientErrors),
    (str "server_errors", x.counters.serverErrors),
    (str "active_connections", x.counters.activeConnections),
    (str "peak_connections", x.counters.peakConnections),
    (str "total_bytes_sent", x.counters.totalBytesSent),
    (str "uptime_seconds", x.uptimeSeconds),
    (str "worker_threads", x.threadCount),
    (str "active_workers", x.counters.activeWorkers),
    (str "idle_workers", (x.threadCount - x.counters.activeWorkers : Nat)),
    (str "queue_size", x.counters.queueSize),
    (str "queue_capacity", x.queueCapacity)]

/-- What `dashboard.js` and `lab.html` read. -/
def dashboardFields : List Bytes :=
  [str "total_requests", str "successful_requests", str "client_errors", str "server_errors",
    str "active_connections", str "peak_connections", str "total_bytes_sent",
    str "average_latency_ms", str "requests_per_second", str "uptime_seconds",
    str "worker_threads", str "active_workers", str "idle_workers", str "queue_size",
    str "queue_capacity"]

/-- The members of the `/health` page. -/
def healthMembers : List Member := [(str "status", .quoted (str "ok"))]

/-- The members of the `/work` page, in its order. -/
def workMembers (env : HandlerEnv) (delayMs bodyKb : Int) : List Member :=
  [(str "status", .quoted (str "work_done")), (str "delay_ms", .number (toDecimalInt delayMs)),
    (str "actual_ms", .number env.elapsedFixed), (str "body_kb", .number (toDecimalInt bodyKb))]

/-- The integer that a value is. -/
def integerOf : Value → Option Int
  | .quoted _ => none
  | .number [] => none
  | .number (b :: digits) =>
    if b = 45 then some (-(digitsValue digits : Int))
    else if (b :: digits).all isdigit then some (digitsValue (b :: digits)) else none

/-! ## Numbers -/

theorem isNumber_toDecimalInt (v : Int) : FlatJson.isNumber (toDecimalInt v) = true := by
  have hnumber : FlatJson.isNumber (toDecimal v.natAbs ++ []) = true ∧
      FlatJson.isNumber (45 :: (toDecimal v.natAbs ++ [])) = true :=
    FlatJson.isNumber_append (all_isDigit_toDecimal v.natAbs) (isWhole_toDecimal v.natAbs) rfl
  rw [List.append_nil] at hnumber
  unfold toDecimalInt
  split
  · exact hnumber.2
  · exact hnumber.1

theorem toDecimalInt_natCast (n : Nat) : toDecimalInt n = toDecimal n := by
  rw [toDecimalInt, if_neg (by omega), Int.natAbs_natCast]

theorem isNumber_toDecimal (n : Nat) : FlatJson.isNumber (toDecimal n) = true := by
  rw [← toDecimalInt_natCast]
  exact isNumber_toDecimalInt n

/-- **The average is a finite number**, since nothing is divided by zero. -/
theorem MetricsLoads.avgLatency_eq (x : MetricsLoads) :
    x.avgLatency = .finite
      (if x.latency.count > 0 then toDouble (x.latency.totalMs / toDouble x.latency.count) else 0) := by
  unfold avgLatency
  split
  · rename_i hcount
    exact Double.div_ofNat hcount
  · rfl

theorem MetricsLoads.requestsPerSec_eq (x : MetricsLoads) :
    x.requestsPerSec = .finite (if x.uptimeSeconds > 0 then
      toDouble (toDouble x.requestsForRate / toDouble x.uptimeSeconds) else 0) := by
  unfold requestsPerSec
  split
  · rename_i huptime
    exact Double.div_ofNat huptime
  · rfl

/-- **An integer is read as what was written.** -/
theorem integerOf_toDecimalInt (v : Int) : integerOf (.number (toDecimalInt v)) = some v := by
  have hall : (toDecimal v.natAbs).all isdigit = true := all_isDigit_toDecimal v.natAbs
  obtain ⟨b, digits, hdigits⟩ := List.exists_cons_of_ne_nil (toDecimal_ne_nil v.natAbs)
  unfold toDecimalInt
  split
  · rw [integerOf, if_pos rfl, digitsValue_toDecimal]
    congr 1
    omega
  · have hne : b ≠ 45 := by
      rintro rfl
      rw [hdigits, List.all_cons] at hall
      cases hall
    rw [hdigits, integerOf, if_neg hne, ← hdigits, if_pos hall, digitsValue_toDecimal]
    congr 1
    omega

/-! ## The pages are their members -/

/-- The blanks of `/metrics` and `/work`. -/
def pageLayout : Layout := ⟨[10, 32, 32], [32], [10], rfl, rfl, rfl⟩

/-- Those of `/health`: none. -/
def tightLayout : Layout := ⟨[], [], [], rfl, rfl, rfl⟩

/-- The line of a member. -/
def lineOf (m : Member) : Bytes × Bytes := (m.1, m.2.write)

/-- **Lines with commas behind all but the last are members in a layout.** -/
theorem jsonObject_eq_write {members : List Member} (hne : members ≠ []) :
    jsonObject (members.map lineOf) = FlatJson.write pageLayout members := by
  have hopen : str "\x7b\n" = [123, 10] := rfl
  have hquote : str "  \"" = [32, 32, 34] := rfl
  have hcolon : str "\": " = [34, 58, 32] := rfl
  have hcomma : str ",\n" = [44, 10] := rfl
  have hclose : str "\n\x7d" = [10, 125] := rfl
  -- the line end in front of each member is the one behind the bracket or the comma
  have hmembers : 10 :: ([44, 10].intercalate (members.map (jsonLine ∘ lineOf)) ++ [10, 125]) =
      FlatJson.writeMembers pageLayout members := by
    induction members with
    | nil => exact absurd rfl hne
    | cons m ms ih =>
      cases ms with
      | nil =>
        simp [lineOf, jsonLine, FlatJson.writeMembers, FlatJson.writeMember, pageLayout, hquote,
          hcolon]
      | cons m' ms =>
        rw [FlatJson.writeMembers, ← ih (List.cons_ne_nil _ _), List.map_cons, List.map_cons,
          List.intercalate_cons_cons]
        simp [lineOf, jsonLine, FlatJson.writeMember, pageLayout, hquote, hcolon]
  rw [jsonObject, hopen, hcomma, hclose, FlatJson.write, ← hmembers, List.map_map,
    List.append_assoc]
  rfl

theorem MetricsLoads.toJson_eq_write (x : MetricsLoads) :
    x.toJson = FlatJson.write pageLayout x.members := by
  have hlines : x.members.map lineOf = x.lines := by
    rw [members, List.map_map]
    exact List.map_id _
  rw [toJson, ← hlines]
  exact jsonObject_eq_write (List.cons_ne_nil _ _)

theorem health_eq_write :
    str "\x7b\"status\":\"ok\"\x7d" = FlatJson.write tightLayout healthMembers := rfl

theorem work_eq_write (env : HandlerEnv) (delayMs bodyKb : Int) :
    (workResponse env delayMs bodyKb).body =
      FlatJson.write pageLayout (workMembers env delayMs bodyKb) := by
  have hstatus : str "\x7b\n  \"status\": \"work_done\",\n  \"delay_ms\": " =
      123 :: (pageLayout.before ++ 34 :: (str "status" ++ 34 :: 58 :: 32 :: 34 ::
        (str "work_done" ++ 34 :: 44 :: (pageLayout.before ++ 34 :: (str "delay_ms" ++
          [34, 58, 32]))))) := rfl
  have hactual : str ",\n  \"actual_ms\": " =
      44 :: (pageLayout.before ++ 34 :: (str "actual_ms" ++ [34, 58, 32])) := rfl
  have hbody : str ",\n  \"body_kb\": " =
      44 :: (pageLayout.before ++ 34 :: (str "body_kb" ++ [34, 58, 32])) := rfl
  have hclose : str "\n\x7d" = [10, 125] := rfl
  show str _ ++ toDecimalInt delayMs ++ str _ ++ env.elapsedFixed ++ str _ ++
    toDecimalInt bodyKb ++ str _ = _
  rw [hstatus, hactual, hbody, hclose]
  simp [FlatJson.write, FlatJson.writeMembers, FlatJson.writeMember, workMembers, Value.write,
    pageLayout]

/-! ## Reading them -/

theorem MetricsLoads.ok_of_mem (x : MetricsLoads) : ∀ m ∈ x.members, Member.ok m = true := by
  have hnames : ∀ name ∈ dashboardFields, name.all FlatJson.isPlainByte = true := by decide
  have hlines : ∀ line ∈ x.lines, line.1 ∈ dashboardFields ∧ FlatJson.isNumber line.2 = true := by
    unfold lines
    simp only [List.forall_mem_cons, isNumber_toDecimal, isNumber_toDecimalInt, x.avgLatency_eq,
      x.requestsPerSec_eq, Double.write, isNumber_defaultText, isNumber_fixedText, and_true]
    decide
  intro m hm
  obtain ⟨line, hline, rfl⟩ := List.mem_map.mp hm
  exact Bool.and_eq_true_iff.mpr ⟨hnames _ (hlines line hline).1, (hlines line hline).2⟩

theorem workMembers_ok {env : HandlerEnv} {elapsed : ℚ≥0}
    (h : env.elapsedFixed = fixedText 1 elapsed) (delayMs bodyKb : Int) :
    ∀ m ∈ workMembers env delayMs bodyKb, Member.ok m = true := by
  simp only [workMembers, List.forall_mem_cons, Member.ok, Value.ok, isNumber_toDecimalInt, h,
    isNumber_fixedText, Bool.and_true]
  decide

/-- **The integers are all members but two.** -/
theorem MetricsLoads.integers_eq (x : MetricsLoads) :
    (x.integers.map fun field => (field.1, toDecimalInt field.2)) =
      x.lines.filter fun line =>
        line.1 ≠ str "average_latency_ms" ∧ line.1 ≠ str "requests_per_second" := by
  have hidle : x.threadCount - x.counters.activeWorkers = x.idleWorkers := by
    unfold idleWorkers
    split <;> omega
  simp only [integers, List.map_cons, List.map_nil, toDecimalInt_natCast, hidle]
  rfl

theorem MetricsLoads.mem_members {x : MetricsLoads} {field : Bytes × Int}
    (h : field ∈ x.integers) : (field.1, Value.number (toDecimalInt field.2)) ∈ x.members := by
  have hline : (field.1, toDecimalInt field.2) ∈ x.lines := by
    have hmem := List.mem_map_of_mem (f := fun field => (field.1, toDecimalInt field.2)) h
    rw [x.integers_eq] at hmem
    exact (List.mem_filter.mp hmem).1
  exact List.mem_map_of_mem (f := fun line => (line.1, Value.number line.2)) hline

/-- The names are those that the pages ask for. -/
theorem MetricsLoads.map_fst_members (x : MetricsLoads) :
    x.members.map Prod.fst = dashboardFields := rfl

theorem MetricsLoads.nodup_members (x : MetricsLoads) : (x.members.map Prod.fst).Nodup := by
  rw [x.map_fst_members]
  decide

theorem MetricsLoads.lookup_dashboard (x : MetricsLoads) {name : Bytes}
    (h : name ∈ dashboardFields) :
    ∃ numeral, x.members.lookup name = some (.number numeral) ∧
      FlatJson.isNumber numeral = true := by
  obtain ⟨m, hm, rfl⟩ := List.mem_map.mp (x.map_fst_members ▸ h)
  obtain ⟨line, hline, rfl⟩ := List.mem_map.mp hm
  have hok := Bool.and_eq_true_iff.mp (x.ok_of_mem _ hm)
  exact ⟨line.2, FlatJson.lookup_of_mem x.nodup_members hm, hok.2⟩

/-- What a browser reads on the metrics page: its members, each integer as it was loaded, and a number
    for whatever the pages ask for. -/
structure MetricsLoads.ReadBack (x : MetricsLoads) (body : Bytes) : Prop where
  read : FlatJson.read body = some x.members
  integers : ∀ field ∈ x.integers, (x.members.lookup field.1).bind integerOf = some field.2
  dashboard : ∀ name ∈ dashboardFields, ∃ numeral,
    x.members.lookup name = some (.number numeral) ∧ FlatJson.isNumber numeral = true

theorem MetricsLoads.readBack (x : MetricsLoads) : x.ReadBack x.toJson where
  read := by
    rw [x.toJson_eq_write]
    exact FlatJson.read_write pageLayout (List.cons_ne_nil _ _) x.ok_of_mem
  integers field hfield := by
    rw [FlatJson.lookup_of_mem x.nodup_members (mem_members hfield), Option.bind_some,
      integerOf_toDecimalInt]
  dashboard name hname := x.lookup_dashboard hname

theorem clampedInt_bounds (text : Bytes) (default : Int) {bound : Int} (h : 0 ≤ bound) :
    0 ≤ clampedInt text default bound ∧ clampedInt text default bound ≤ bound := by
  unfold clampedInt
  cases stoi text <;> dsimp only <;> split <;> split <;> omega

/-- **A browser can read every JSON page.**  For whatever `to_json` loads and however long the work
    took, as a finite `double`: the body of `/metrics` is one JSON object whose integers are those that
    were loaded, the idle workers being those of the pool that are not active, if any, and which has a
    number for each field that `dashboard.js` and `lab.html` take from it; the body of `/health` is its
    one member; and that of `/work`, where its handler returns, says a delay and a size within their
    bounds.  (It throws for some queries, as for `/work?body=`.) -/
theorem json_pages_readable (x : MetricsLoads) (env : HandlerEnv) (elapsed : ℚ≥0)
    (hmetrics : env.metricsJson = x.toJson) (helapsed : env.elapsedFixed = fixedText 1 elapsed)
    (req : HttpRequest) (resp : HttpResponse) :
    (metrics env req = .ok resp → x.ReadBack resp.body) ∧
    (health req = .ok resp → FlatJson.read resp.body = some healthMembers) ∧
    (work env req = .ok resp → ∃ delayMs bodyKb : Int, (0 ≤ delayMs ∧ delayMs ≤ 30000) ∧
      (0 ≤ bodyKb ∧ bodyKb ≤ 10240) ∧
      FlatJson.read resp.body = some (workMembers env delayMs bodyKb)) := by
  refine ⟨fun h => ?_, fun h => ?_, fun h => ?_⟩
  · cases h
    show x.ReadBack env.metricsJson
    rw [hmetrics]
    exact x.readBack
  · cases h
    show FlatJson.read (str "\x7b\"status\":\"ok\"\x7d") = _
    rw [health_eq_write]
    exact FlatJson.read_write tightLayout (List.cons_ne_nil _ _) (by decide)
  · unfold work at h
    cases hparams : workParams req.path with
    | error what =>
      rw [hparams] at h
      cases h
    | ok params =>
      rw [hparams] at h
      cases h
      refine ⟨_, _, clampedInt_bounds params.1 100 (by decide),
        clampedInt_bounds params.2 0 (by decide), ?_⟩
      rw [work_eq_write]
      exact FlatJson.read_write pageLayout (List.cons_ne_nil _ _) (workMembers_ok helapsed _ _)

/-- What `to_json` loads in the third second of a server with four workers, of which one is active,
    behind a request that took a quarter of a millisecond. -/
def startLoads : MetricsLoads where
  requestsForRate := 2
  counters :=
    { totalRequests := 2, successfulRequests := 1, activeConnections := 1, peakConnections := 1,
      activeWorkers := 1 }
  threadCount := 4
  queueCapacity := 50
  uptimeSeconds := 3
  latency := ({} : LatencyTotals).record (1 / 4)

/-- The theorem on these: three workers are idle, and the average is a quarter. -/
theorem json_pages_readable_start :
    ((FlatJson.read startLoads.toJson).bind fun members =>
      (members.lookup (str "idle_workers")).bind integerOf) = some 3 ∧
    ((FlatJson.read startLoads.toJson).bind fun members =>
      members.lookup (str "average_latency_ms")) = some (.number (str "0.25")) := by
  have hpage : startLoads.ReadBack startLoads.toJson :=
    (json_pages_readable startLoads { exampleEnv with metricsJson := startLoads.toJson }
      (100 + 1 / 5) rfl (by decide +kernel) {} _).1 rfl
  rw [hpage.read, Option.bind_some, Option.bind_some]
  exact ⟨hpage.integers (str "idle_workers", 3) (by decide), by decide +kernel⟩

end HttpServer
