/-
  The peak — `Metrics::connection_opened` and `connection_closed`, one atomic access at a time.

  1. **Data** — `active_connections_` and `peak_connections_`, where every thread is in a call of
     `connection_opened`, and which connections have been counted and not closed.  A connection is
     numbered by the `fetch_add` that counts it, so that its close is its own.

  2. **Program** — a call is its `fetch_add`, its load of the peak and its weak compare-exchanges, any
     of which may fail spuriously and then reloads the peak; the comparisons between them are local.
     `fetch_add` and `fetch_sub` wrap at 64 bits, and the comparisons are of unsigned values; the sum
     `current` is signed, and with 2^63 - 1 connections open it has no defined value and no step.

  3. **Specification** — `largest es` is the largest value that `active_connections_` has had.

  4. **Bridge** — the counter is the number of unclosed connections, so no comparison is of a negative
     value, and each step is a rule of `SharedMax` (`Step.tracked`).
-/
import HttpServer.Lib.Machine
import HttpServer.Lib.SharedMax
import HttpServer.Metrics
import Mathlib.Algebra.Group.Nat.Defs
import Mathlib.Algebra.Order.Group.Unbundled.Int

namespace HttpServer

/-! ## Data -/

/-- Where a thread is in `connection_opened`: it has counted its connection and not loaded the peak,
    or it is in the loop of the compare-exchange. -/
inductive Opening
  | idle
  /-- Behind the `fetch_add`. -/
  | counted (current : Int)
  /-- In the loop, with the peak that was loaded last. -/
  | looping (current : Int) (peak : Nat)
  deriving DecidableEq

/-- The two atomics of `connection_opened`, and where every thread is in it.  The last two fields
    are ghosts: they name the connections that the counter counts. -/
structure PeakCounters (τ : Type*) where
  /-- `active_connections_`. -/
  activeConnections : Int
  /-- `peak_connections_`. -/
  peakConnections : Nat
  /-- Where the threads are. -/
  calls : τ → Opening
  /-- How many connections have been counted. -/
  counted : Nat
  /-- The connections that have been counted and not closed. -/
  unclosed : List Nat

/-- One access to one of the atomics. -/
inductive PeakAction (τ : Type*)
  /-- Thread `t` calls `connection_opened`. -/
  | fetchAdd (t : τ)
  /-- It loads the peak and tests the condition of the loop. -/
  | loadPeak (t : τ)
  /-- Its `compare_exchange_weak`, which may fail though the peak is the expected one. -/
  | compareExchange (t : τ) (spurious : Bool)
  /-- `connection_closed` for connection `c`. -/
  | close (c : Nat)

/-- What a step shows of `active_connections_`. -/
inductive PeakEvent
  /-- `active_connections_` has a new value. -/
  | active (value : Int)
  | quiet
  deriving DecidableEq

/-- The new value, where the step makes one. -/
def PeakEvent.value? : PeakEvent → Option Int
  | .active value => some value
  | .quiet => none

/-- A value of type `std::int64_t`. -/
def wrapInt64 (i : Int) : Int := i.bmod (2 ^ 64)

/-- A count that no conversion changes: it is not negative, and a `std::int64_t` holds it. -/
def InInt64 (i : Int) : Prop := 0 ≤ i ∧ i < 2 ^ 63

theorem wrapInt64_of_lt {i : Int} (h0 : -1 ≤ i) (h : i < 2 ^ 63) : wrapInt64 i = i :=
  Int.bmod_eq_of_le (by omega) (by omega)

theorem toUInt64_of_inInt64 {i : Int} (h : InInt64 i) : (Metrics.toUInt64 i : Int) = i := by
  obtain ⟨h0, hlt⟩ := h
  have hmod : i % 2 ^ 64 = i := Int.emod_eq_of_lt h0 (by omega)
  rw [Metrics.toUInt64, hmod]
  exact Int.toNat_of_nonneg h0

/-- The value that a call still has to raise the peak to, or to find below it. -/
def Opening.pending : Opening → Option Int
  | .idle => none
  | .counted current => some current
  | .looping current _ => some current

/-- A call in the loop has found its value above the peak that it loaded. -/
def Opening.Sound : Opening → Prop
  | .idle => True
  | .counted current => InInt64 current
  | .looping current peak => InInt64 current ∧ (peak : Int) < current

namespace PeakCounters

variable {τ : Type*}

/-- No connection yet. -/
def make : PeakCounters τ where
  activeConnections := 0
  peakConnections := 0
  calls _ := .idle
  counted := 0
  unclosed := []

/-! ## Program -/

/-- The condition of the loop, with the peak in hand. -/
def enterLoop (current : Int) (peak : Nat) : Opening :=
  if Metrics.toUInt64 current > peak then .looping current peak else .idle

theorem pending_enterLoop {current : Int} (h : InInt64 current) (peak : Nat) :
    ((peak : Int) < current ∧ (enterLoop current peak).pending = some current) ∨
      (current ≤ peak ∧ (enterLoop current peak).pending = none) := by
  have hcast := toUInt64_of_inInt64 h
  rw [enterLoop]
  by_cases hgt : Metrics.toUInt64 current > peak
  · rw [if_pos hgt]
    exact Or.inl ⟨by omega, rfl⟩
  · rw [if_neg hgt]
    exact Or.inr ⟨by omega, rfl⟩

theorem sound_enterLoop {current : Int} (h : InInt64 current) {peak : Nat} :
    (enterLoop current peak).Sound := by
  have hcast := toUInt64_of_inInt64 h
  rw [enterLoop]
  by_cases hgt : Metrics.toUInt64 current > peak
  · rw [if_pos hgt]
    show InInt64 current ∧ (peak : Int) < current
    exact ⟨h, by omega⟩
  · rw [if_neg hgt]
    trivial

/-- Thread `t` is now at `call`. -/
def setCall [DecidableEq τ] (s : PeakCounters τ) (t : τ) (call : Opening) : PeakCounters τ :=
  { s with calls := Function.update s.calls t call }

/-- `s.step a` — the step, if it is possible in `s`.  The conversions are those of the source: the
    sum wraps as a `std::int64_t`, and the comparison is of `std::uint64_t`. -/
def step [DecidableEq τ] (s : PeakCounters τ) :
    PeakAction τ → Option (PeakCounters τ × PeakEvent)
  | .fetchAdd t =>
    match s.calls t with
    | .idle =>
      -- `fetch_add(1) + 1` is signed: beyond this the program has no behaviour
      if s.activeConnections + 1 < 2 ^ 63 then
        let active := wrapInt64 (s.activeConnections + 1)
        some ({ s with
          activeConnections := active, counted := s.counted + 1,
          unclosed := s.counted :: s.unclosed }.setCall t (.counted (s.activeConnections + 1)),
          .active active)
      else none
    | _ => none
  | .loadPeak t =>
    match s.calls t with
    | .counted current => some (s.setCall t (enterLoop current s.peakConnections), .quiet)
    | _ => none
  | .compareExchange t spurious =>
    match s.calls t with
    | .looping current peak =>
      if s.peakConnections = peak ∧ spurious = false then
        some ({ s with peakConnections := Metrics.toUInt64 current }.setCall t .idle, .quiet)
      else some (s.setCall t (enterLoop current s.peakConnections), .quiet)
    | _ => none
  | .close c =>
    if c ∈ s.unclosed then
      let active := wrapInt64 (s.activeConnections - 1)
      some ({ s with activeConnections := active, unclosed := s.unclosed.erase c }, .active active)
    else none

/-! ## What a step can do -/

/-- `Step s a s' e` — the outcomes of a step. -/
inductive Step [DecidableEq τ] (s : PeakCounters τ) :
    PeakAction τ → PeakCounters τ → PeakEvent → Prop
  | fetchAdd {t} (call : s.calls t = .idle) (room : s.activeConnections + 1 < 2 ^ 63) :
      Step s (.fetchAdd t)
        ({ s with
          activeConnections := wrapInt64 (s.activeConnections + 1), counted := s.counted + 1,
          unclosed := s.counted :: s.unclosed }.setCall t (.counted (s.activeConnections + 1)))
        (.active (wrapInt64 (s.activeConnections + 1)))
  | loadPeak {t current} (call : s.calls t = .counted current) :
      Step s (.loadPeak t) (s.setCall t (enterLoop current s.peakConnections)) .quiet
  | exchanged {t current} (call : s.calls t = .looping current s.peakConnections) :
      Step s (.compareExchange t false)
        ({ s with peakConnections := Metrics.toUInt64 current }.setCall t .idle) .quiet
  | failed {t spurious current peak} (call : s.calls t = .looping current peak) :
      Step s (.compareExchange t spurious)
        (s.setCall t (enterLoop current s.peakConnections)) .quiet
  | close {c} (unclosed : c ∈ s.unclosed) :
      Step s (.close c)
        { s with
          activeConnections := wrapInt64 (s.activeConnections - 1), unclosed := s.unclosed.erase c }
        (.active (wrapInt64 (s.activeConnections - 1)))

variable [DecidableEq τ]

/-- **Every step has one of these outcomes.** -/
theorem step_inv {s s' : PeakCounters τ} {a : PeakAction τ} {e : PeakEvent}
    (h : s.step a = some (s', e)) : Step s a s' e := by
  cases a with
  | fetchAdd t =>
    simp only [step] at h
    split at h
    · rename_i hcall
      split at h
      · rename_i hroom
        cases h
        exact .fetchAdd hcall hroom
      · cases h
    · cases h
  | loadPeak t =>
    simp only [step] at h
    split at h
    · rename_i hcall
      cases h
      exact .loadPeak hcall
    · cases h
  | compareExchange t spurious =>
    simp only [step] at h
    split at h
    · rename_i current peak hcall
      split at h
      · rename_i hsame
        obtain ⟨rfl, rfl⟩ := hsame
        cases h
        exact .exchanged hcall
      · cases h
        exact .failed hcall
    · cases h
  | close c =>
    simp only [step] at h
    split at h
    · rename_i hunclosed
      cases h
      exact .close hunclosed
    · cases h

end PeakCounters

/-- Any number of threads that open and close connections. -/
def peakMachine (τ : Type*) [DecidableEq τ] :
    Machine (PeakCounters τ) (PeakAction τ) PeakEvent where
  init := .make
  step := PeakCounters.step

namespace PeakCounters

variable {τ : Type*}

/-! ## Specification: the largest value so far -/

/-- The values that `active_connections_` has been given, in order. -/
def activeValues (es : List (PeakAction τ × PeakEvent)) : List Int :=
  es.filterMap fun e => e.2.value?

/-- The largest value that `active_connections_` has had; it starts as 0. -/
def largest (es : List (PeakAction τ × PeakEvent)) : Int := (activeValues es).foldl max 0

theorem activeValues_snoc (es : List (PeakAction τ × PeakEvent)) (a : PeakAction τ) (e : PeakEvent) :
    activeValues (es ++ [(a, e)]) = activeValues es ++ e.value?.toList :=
  Machine.filterMap_snoc _ es (a, e)

theorem largest_snoc_active (es : List (PeakAction τ × PeakEvent)) (a : PeakAction τ) (v : Int) :
    largest (es ++ [(a, .active v)]) = max (largest es) v := by
  rw [largest, activeValues_snoc]
  show (activeValues es ++ [v]).foldl max 0 = _
  rw [List.foldl_append, ← largest]
  rfl

theorem largest_snoc_quiet (es : List (PeakAction τ × PeakEvent)) (a : PeakAction τ) :
    largest (es ++ [(a, .quiet)]) = largest es := by
  rw [largest, activeValues_snoc]
  show (activeValues es ++ []).foldl max 0 = _
  rw [List.append_nil, largest]

variable [DecidableEq τ]

/-- The values are those of the counter: the last of them is what it holds. -/
theorem activeConnections_eq {es : List (PeakAction τ × PeakEvent)} {s : PeakCounters τ}
    (run : (peakMachine τ).Run es s) : s.activeConnections = (activeValues es).getLastD 0 := by
  refine run.invariant rfl fun {es s a s' e} _ ih hstep => ?_
  rw [activeValues_snoc]
  cases step_inv hstep with
  | fetchAdd => exact List.getLastD_concat.symm
  | loadPeak => exact ih.trans (congrArg (List.getLastD · 0) (List.append_nil _).symm)
  | exchanged => exact ih.trans (congrArg (List.getLastD · 0) (List.append_nil _).symm)
  | failed => exact ih.trans (congrArg (List.getLastD · 0) (List.append_nil _).symm)
  | close => exact List.getLastD_concat.symm

/-! ## Bridge: what every call has in hand -/

/-- `Tracked es s` — the count is that of the unclosed connections, and the peak is behind the
    largest count by values only that some call has in hand. -/
structure Tracked (es : List (PeakAction τ × PeakEvent)) (s : PeakCounters τ) : Prop where
  active : s.activeConnections = s.unclosed.length
  active_lt : s.activeConnections < 2 ^ 63
  active_le : s.activeConnections ≤ largest es
  calls : ∀ t, (s.calls t).Sound
  tracks : SharedMax.Tracks (largest es) (s.peakConnections : Int) fun t => (s.calls t).pending

omit [DecidableEq τ] in
theorem tracked_init : Tracked [] (make : PeakCounters τ) where
  active := rfl
  active_lt := Int.pow_pos (by omega)
  active_le := le_refl 0
  calls t := trivial
  tracks := SharedMax.tracks_init 0

/-- What a call that moves does to the values in hand. -/
theorem pending_setCall (s : PeakCounters τ) (t : τ) (call : Opening) :
    (fun u => ((s.setCall t call).calls u).pending) =
      Function.update (fun u => (s.calls u).pending) t call.pending :=
  Function.comp_update Opening.pending s.calls t call

/-- The call that moves is sound behind its step, and the others are as before. -/
theorem sound_setCall {s : PeakCounters τ} {t : τ} {call : Opening} (h : ∀ u, (s.calls u).Sound)
    (hcall : call.Sound) (u : τ) : ((s.setCall t call).calls u).Sound := by
  show (Function.update s.calls t call u).Sound
  by_cases hu : u = t
  · subst hu
    rwa [Function.update_self]
  · rw [Function.update_of_ne hu]
    exact h u

/-- **A call counts its connection.** -/
theorem Tracked.fetchAdd {es : List (PeakAction τ × PeakEvent)} {s : PeakCounters τ}
    (h : Tracked es s) {t : τ} (hcall : s.calls t = .idle)
    (hroom : s.activeConnections + 1 < 2 ^ 63) :
    Tracked (es ++ [(.fetchAdd t, .active (s.activeConnections + 1))])
      ({ s with
        activeConnections := s.activeConnections + 1, counted := s.counted + 1,
        unclosed := s.counted :: s.unclosed }.setCall t (.counted (s.activeConnections + 1))) where
  active := by
    show s.activeConnections + 1 = ((s.unclosed.length + 1 : Nat) : Int)
    rw [h.active]
    rfl
  active_lt := hroom
  active_le := by
    rw [largest_snoc_active]
    exact le_max_right _ _
  calls := by
    have hnonneg : 0 ≤ s.activeConnections + 1 := by
      rw [h.active]
      omega
    exact sound_setCall h.calls ⟨hnonneg, hroom⟩
  tracks := by
    rw [largest_snoc_active, pending_setCall]
    have hnone : (s.calls t).pending = none := by rw [hcall, Opening.pending]
    exact h.tracks.offer hnone (s.activeConnections + 1)

/-- **A call compares** its value with a peak that it has loaded: it goes on with the value in hand,
    or leaves it to a peak that has reached it. -/
theorem Tracked.compare {es : List (PeakAction τ × PeakEvent)} {s : PeakCounters τ}
    (h : Tracked es s) {t : τ} {current : Int} (hpending : (s.calls t).pending = some current)
    (hrange : InInt64 current) (a : PeakAction τ) :
    Tracked (es ++ [(a, .quiet)]) (s.setCall t (enterLoop current s.peakConnections)) where
  active := h.active
  active_lt := h.active_lt
  active_le := (largest_snoc_quiet es a).symm ▸ h.active_le
  calls := sound_setCall h.calls (sound_enterLoop hrange)
  tracks := by
    rw [largest_snoc_quiet, pending_setCall]
    rcases pending_enterLoop hrange s.peakConnections with ⟨hlt, hsome⟩ | ⟨hle, hnone⟩
    · rw [hsome, ← hpending, Function.update_eq_self t fun u => (s.calls u).pending]
      exact h.tracks
    · rw [hnone]
      refine h.tracks.drop fun x hx => ?_
      rw [hpending] at hx
      cases hx
      exact hle

/-- **A compare-exchange succeeds**: the peak is as it was loaded, and the value in hand is above. -/
theorem Tracked.exchange {es : List (PeakAction τ × PeakEvent)} {s : PeakCounters τ}
    (h : Tracked es s) {t : τ} {current : Int}
    (hcall : s.calls t = .looping current s.peakConnections) (a : PeakAction τ) :
    Tracked (es ++ [(a, .quiet)])
      ({ s with peakConnections := Metrics.toUInt64 current }.setCall t .idle) where
  active := h.active
  active_lt := h.active_lt
  active_le := (largest_snoc_quiet es a).symm ▸ h.active_le
  calls := sound_setCall h.calls trivial
  tracks := by
    have hsound := h.calls t
    rw [hcall] at hsound
    obtain ⟨hrange, habove⟩ := hsound
    rw [largest_snoc_quiet, pending_setCall]
    show SharedMax.Tracks _ (Metrics.toUInt64 current : Int) _
    rw [toUInt64_of_inInt64 hrange]
    have hpending : (s.calls t).pending = some current := by rw [hcall, Opening.pending]
    exact h.tracks.raise hpending (Int.le_of_lt habove)

omit [DecidableEq τ] in
/-- **A connection is closed**: the count goes down, and is no new maximum. -/
theorem Tracked.close {es : List (PeakAction τ × PeakEvent)} {s : PeakCounters τ}
    (h : Tracked es s) {c : Nat} (hc : c ∈ s.unclosed) :
    Tracked (es ++ [(.close c, .active (s.activeConnections - 1))])
      { s with activeConnections := s.activeConnections - 1, unclosed := s.unclosed.erase c } where
  active := by
    show s.activeConnections - 1 = ((s.unclosed.erase c).length : Int)
    have hpos := List.length_pos_of_mem hc
    rw [h.active, List.length_erase_of_mem hc]
    omega
  active_lt := (Int.sub_lt_self _ Int.one_pos).trans h.active_lt
  active_le := by
    rw [largest_snoc_active]
    exact le_max_right _ _
  calls := h.calls
  tracks := by
    have hle := h.active_le
    rw [largest_snoc_active, max_eq_left (by omega)]
    exact h.tracks

/-- **One step.** -/
theorem Step.tracked {es : List (PeakAction τ × PeakEvent)} {s s' : PeakCounters τ}
    {a : PeakAction τ} {e : PeakEvent} (step : Step s a s' e) (h : Tracked es s) :
    Tracked (es ++ [(a, e)]) s' := by
  have hactive := h.active
  cases step with
  | fetchAdd hcall hroom =>
    rw [wrapInt64_of_lt (by omega) hroom]
    exact h.fetchAdd hcall hroom
  | @loadPeak t current hcall =>
    have hsound := h.calls t
    rw [hcall] at hsound
    exact h.compare (by rw [hcall, Opening.pending]) hsound _
  | exchanged hcall => exact h.exchange hcall _
  | @failed t spurious current peak hcall =>
    have hsound := h.calls t
    rw [hcall] at hsound
    exact h.compare (by rw [hcall, Opening.pending]) hsound.1 _
  | close hc =>
    have hlt := h.active_lt
    rw [wrapInt64_of_lt (by omega) (by omega)]
    exact h.close hc

/-- **A whole run.** -/
theorem tracked_of_run {es : List (PeakAction τ × PeakEvent)} {s : PeakCounters τ}
    (run : (peakMachine τ).Run es s) : Tracked es s :=
  run.invariant tracked_init fun _ ih hstep => (step_inv hstep).tracked ih

/-- No step takes the peak back. -/
theorem Step.peak_mono {s s' : PeakCounters τ} {a : PeakAction τ} {e : PeakEvent}
    (step : Step s a s' e) (h : ∀ t, (s.calls t).Sound) : s.peakConnections ≤ s'.peakConnections := by
  cases step with
  | fetchAdd => exact le_refl _
  | loadPeak => exact le_refl _
  | @exchanged t current hcall =>
    have hsound := h t
    rw [hcall] at hsound
    obtain ⟨hrange, habove⟩ := hsound
    have hcast := toUInt64_of_inInt64 hrange
    show s.peakConnections ≤ Metrics.toUInt64 current
    omega
  | failed => exact le_refl _
  | close => exact le_refl _

/-! ## The peak is the largest count -/

/-- **The peak is the true maximum** — in every run of any number of threads it does not exceed the
    largest value that `active_connections_` has had, no later state has a smaller one, and with no
    call of `connection_opened` in progress it is that value. -/
theorem peak_is_maximum {es : List (PeakAction τ × PeakEvent)} {s : PeakCounters τ}
    (run : (peakMachine τ).Run es s) :
    (s.peakConnections : Int) ≤ largest es ∧
      (∀ es' s', (peakMachine τ).Run (es ++ es') s' → s.peakConnections ≤ s'.peakConnections) ∧
      ((∀ t, s.calls t = .idle) → (s.peakConnections : Int) = largest es) := by
  have htracked := tracked_of_run run
  refine ⟨htracked.tracks.peak_le, fun es' s' later => ?_, fun hidle => ?_⟩
  · refine run.stable (P := fun r => s.peakConnections ≤ r.peakConnections) ?_ later (le_refl _)
    intro es r a r' e hrun hstep hle
    exact hle.trans ((step_inv hstep).peak_mono (tracked_of_run hrun).calls)
  · refine htracked.tracks.eq_of_rest fun t => ?_
    show (s.calls t).pending = none
    rw [hidle t, Opening.pending]

/-- Two threads count their connections, the second raises the peak first and the first, whose
    exchange fails spuriously, then finds its value below; two closes follow. -/
def racingSchedule : List (PeakAction Bool) :=
  [.fetchAdd false, .loadPeak false, .fetchAdd true, .compareExchange false true, .loadPeak true,
    .compareExchange true false, .close 1, .compareExchange false false, .close 0]

/-- The theorem on that run: the peak is 2, and no connection is open. -/
theorem peak_is_maximum_race :
    ∃ (es : List (PeakAction Bool × PeakEvent)) (s : PeakCounters Bool),
      (peakMachine Bool).Run es s ∧ s.activeConnections = 0 ∧ (2 : Int) = largest es ∧
        ∀ es' s', (peakMachine Bool).Run (es ++ es') s' → 2 ≤ s'.peakConnections := by
  obtain ⟨es, s, run, hidle, hactive, hpeak⟩ := Machine.exists_run (M := peakMachine Bool)
    racingSchedule
    (fun _ s => (∀ t, s.calls t = .idle) ∧ s.activeConnections = 0 ∧ s.peakConnections = 2)
    (by decide +kernel)
  have hmax := peak_is_maximum run
  rw [hpeak] at hmax
  exact ⟨es, s, run, hactive, hmax.2.2 hidle, hmax.2.1⟩

/-! ## A call that nothing interleaves with -/

/-- A call counts its connection and loads the peak. -/
theorem exec_entered {s : PeakCounters τ} {t : τ} (hcall : s.calls t = .idle)
    (hnonneg : 0 ≤ s.activeConnections) (hroom : s.activeConnections + 1 < 2 ^ 63) :
    ∃ es s', (peakMachine τ).exec s [.fetchAdd t, .loadPeak t] = some (es, s') ∧
      s'.calls t = enterLoop (s.activeConnections + 1) s.peakConnections ∧
      s'.activeConnections = s.activeConnections + 1 ∧ s'.peakConnections = s.peakConnections := by
  have hwrap := wrapInt64_of_lt (by omega) hroom
  simp only [Machine.exec, peakMachine, step, hcall, if_pos hroom, hwrap, setCall,
    Function.update_self]
  exact ⟨_, _, rfl, Function.update_self .., rfl, rfl⟩

/-- **What one undisturbed call does** is `Metrics::connection_opened` in one step. -/
theorem connectionOpened_of_undisturbed {s : PeakCounters τ} {t : τ} {m : Metrics}
    (hcall : s.calls t = .idle) (hnonneg : 0 ≤ s.activeConnections)
    (hroom : s.activeConnections + 1 < 2 ^ 63) (hactive : m.activeConnections = s.activeConnections)
    (hpeak : m.peakConnections = s.peakConnections) :
    ∃ is es s', (peakMachine τ).exec s is = some (es, s') ∧ s'.calls t = .idle ∧
      s'.activeConnections = m.connectionOpened.activeConnections ∧
      s'.peakConnections = m.connectionOpened.peakConnections := by
  obtain ⟨es, s₁, hexec, hcall₁, hactive₁, hpeak₁⟩ := exec_entered hcall hnonneg hroom
  rw [Metrics.connectionOpened, hactive, hpeak]
  by_cases hgt : Metrics.toUInt64 (s.activeConnections + 1) > s.peakConnections
  · rw [enterLoop, if_pos hgt] at hcall₁
    have hstep : (peakMachine τ).exec s₁ [.compareExchange t false] =
        some ([(.compareExchange t false, .quiet)],
          { s₁ with peakConnections := Metrics.toUInt64 (s.activeConnections + 1) }.setCall t
            .idle) := by
      simp [Machine.exec, peakMachine, step, hcall₁, hpeak₁]
    refine ⟨_, _, _, Machine.exec_append hexec hstep, Function.update_self .., hactive₁, ?_⟩
    exact (if_pos hgt).symm
  · rw [enterLoop, if_neg hgt] at hcall₁
    exact ⟨_, es, s₁, hexec, hcall₁, hactive₁, hpeak₁.trans (if_neg hgt).symm⟩

end PeakCounters

end HttpServer
