import PamDesktop.Gateway.Requests
import PamDesktop.Protocol.Bootstrap
import PamDesktop.Foundations.Samples

/-!
# The performance gate

The gateway keeps the last durations of commands and frames, and holds their 95th percentiles, the
time to the first command and the memory against the budget of the application.
`performance_gate` says what it takes to pass.
-/

namespace PamDesktop.Gateway

open Foundations Protocol Samples

/-! ## Measuring -/

/-- `PERFORMANCE_SAMPLE_LIMIT`. -/
def performanceSampleLimit : Nat := 2048

/-- What of `GatewayMetrics` the gate is about. -/
structure PerformanceMetrics where
  firstCommandMilliseconds : Nat := 0
  commandMicroseconds : List Nat := []
  frameMicroseconds : List Nat := []

/-- What is measured: a command that is started so long after the gateway, one that comes to its
end, and a frame that a window reports under the configuration in force. -/
inductive Measurement where
  | started (elapsedMilliseconds : Nat)
  | completed (elapsedNanoseconds : Nat)
  | frame (bootstrap : Bootstrap) (headers : Headers) (windowId : String) (microseconds : Nat)

/-- The checks of `performance_frame`. -/
def frameAccepted (bridge : Bridge) (bootstrap : Bootstrap) (headers : Headers) (windowId : String)
    (microseconds : Nat) : Bool :=
  authorized bridge headers && bootstrap.windows.contains windowId &&
    (1 ≤ microseconds && microseconds ≤ 1000000)

/-- One measurement. -/
def PerformanceMetrics.measure (bridge : Bridge) (metrics : PerformanceMetrics) :
    Measurement → PerformanceMetrics
  | .started elapsed =>
      -- `compare_exchange`: only the first command sets it, to one more than its milliseconds.
      if metrics.firstCommandMilliseconds = 0 then
        { metrics with firstCommandMilliseconds := min (elapsed + 1) (2 ^ 64 - 1) }
      else metrics
  | .completed elapsed =>
      { metrics with
        commandMicroseconds :=
          record performanceSampleLimit metrics.commandMicroseconds
            (min elapsed (2 ^ 64 - 1) / 1000) }
  | .frame bootstrap headers windowId microseconds =>
      if frameAccepted bridge bootstrap headers windowId microseconds then
        { metrics with
          frameMicroseconds :=
            record performanceSampleLimit metrics.frameMicroseconds microseconds }
      else metrics

/-- `GatewayMetrics::percentile`. -/
def percentile (samples : List Nat) (percentile : Nat) : Option Nat :=
  if samples = [] then none
  else rank samples (((samples.length - 1) * percentile + 99) / 100)

/-! ## The budget -/

/-- `performance_violations`. -/
def performanceViolations (budget : PerformanceBudgetConfig) (startupSnapshotHit : Bool)
    (startupMilliseconds : Option Nat) (residentMemoryBytes : Nat)
    (ipcP95Microseconds frameP95Microseconds : Option Nat) : List String :=
  let startupBudget :=
    if startupSnapshotHit then budget.warmStartMilliseconds else budget.coldStartMilliseconds
  (if startupMilliseconds.any fun value => startupBudget < value then
      [if startupSnapshotHit then "warm-start" else "cold-start"] else []) ++
    (if budget.idleMemoryMegabytes * (1024 * 1024) < residentMemoryBytes then
      ["resident-memory"] else []) ++
    (if ipcP95Microseconds.any fun value => budget.ipcP95Microseconds < value then
      ["ipc-p95"] else []) ++
    (if frameP95Microseconds.any fun value => budget.frameP95Microseconds < value then
      ["frame-p95"] else [])

/-- What `diagnostics` says of the performance. -/
structure PerformanceReport where
  startupMilliseconds : Option Nat
  ipcP95Microseconds : Option Nat
  frameP95Microseconds : Option Nat
  performanceComplete : Bool
  performancePassed : Bool
  performanceViolations : List String

/-- `diagnostics`. -/
def PerformanceMetrics.report (metrics : PerformanceMetrics) (budget : PerformanceBudgetConfig)
    (startupSnapshotHit : Bool) (residentMemoryBytes : Nat) : PerformanceReport :=
  let startupMilliseconds :=
    if metrics.firstCommandMilliseconds = 0 then none
    else some (metrics.firstCommandMilliseconds - 1)
  let ipcP95Microseconds := percentile metrics.commandMicroseconds 95
  let frameP95Microseconds := percentile metrics.frameMicroseconds 95
  let violations := performanceViolations budget startupSnapshotHit startupMilliseconds
    residentMemoryBytes ipcP95Microseconds frameP95Microseconds
  let complete := startupMilliseconds.isSome && ipcP95Microseconds.isSome &&
    frameP95Microseconds.isSome
  { startupMilliseconds, ipcP95Microseconds, frameP95Microseconds
    performanceComplete := complete
    performancePassed := complete && violations.isEmpty
    performanceViolations := violations }

/-! ## What was measured -/

/-- How long after the gateway the first command was started. -/
def firstStart (measurements : List Measurement) : Option Nat :=
  measurements.findSome? fun
    | .started elapsed => some elapsed
    | _ => none

/-- The durations of the commands. -/
def commandDurations (measurements : List Measurement) : List Nat :=
  measurements.filterMap fun
    | .completed elapsed => some (min elapsed (2 ^ 64 - 1) / 1000)
    | _ => none

/-- The durations of the frames that are accepted. -/
def frameDurations (bridge : Bridge) (measurements : List Measurement) : List Nat :=
  measurements.filterMap fun
    | .frame bootstrap headers windowId microseconds =>
        if frameAccepted bridge bootstrap headers windowId microseconds then some microseconds
        else none
    | _ => none

/-- The milliseconds to the first command, as they are read back. -/
def startupMilliseconds (elapsed : Nat) : Nat := min (elapsed + 1) (2 ^ 64 - 1) - 1

variable {bridge : Bridge}

/-- The metrics after a run of measurements. -/
theorem measure_all (measurements : List Measurement) :
    measurements.foldl (PerformanceMetrics.measure bridge) {} =
      { firstCommandMilliseconds :=
          ((firstStart measurements).map fun elapsed => startupMilliseconds elapsed + 1).getD 0
        commandMicroseconds := (commandDurations measurements).rtake performanceSampleLimit
        frameMicroseconds :=
          (frameDurations bridge measurements).rtake performanceSampleLimit } := by
  have hlimit : 0 < performanceSampleLimit := by
    unfold performanceSampleLimit
    omega
  induction measurements using List.reverseRecOn with
  | nil => simp [firstStart, commandDurations, frameDurations]
  | append_singleton measurements last ih =>
      rw [List.foldl_append, ih]
      unfold firstStart commandDurations frameDurations
      cases last with
      | started elapsed =>
          simp only [List.foldl_cons, List.foldl_nil, PerformanceMetrics.measure,
            List.findSome?_append, List.filterMap_append]
          cases hstart : firstStart measurements with
          | none =>
              unfold firstStart at hstart
              simp [hstart]
              unfold startupMilliseconds
              omega
          | some first =>
              unfold firstStart at hstart
              simp [hstart]
      | completed elapsed =>
          simp [PerformanceMetrics.measure, ← record_rtake hlimit]
      | frame bootstrap headers windowId microseconds =>
          simp only [List.foldl_cons, List.foldl_nil, PerformanceMetrics.measure,
            List.findSome?_append, List.filterMap_append]
          by_cases haccepted : frameAccepted bridge bootstrap headers windowId microseconds = true
          · simp [haccepted, ← record_rtake hlimit]
          · simp [haccepted]

/-- The 95th percentile is above a bound where one sample in twenty is. -/
theorem percentile_exceeds_iff (samples : List Nat) (bound : Nat) :
    (percentile samples 95).any (fun value => decide (bound < value)) = true ↔
      samples ≠ [] ∧ samples.length ≤ 20 * samples.countP fun value => decide (bound < value) := by
  unfold percentile
  by_cases hempty : samples = []
  · simp [hempty]
  · rw [if_neg hempty, Option.any_eq_true]
    have hpositive : 0 < samples.length := List.length_pos_iff.mpr hempty
    have hexceeds := exceeds_iff samples bound (((samples.length - 1) * 95 + 99) / 100)
    simp only [decide_eq_true_eq, hexceeds, ne_eq, hempty, not_false_eq_true, true_and]
    omega

theorem percentile_isSome (samples : List Nat) :
    (percentile samples 95).isSome = true ↔ samples ≠ [] := by
  unfold percentile
  by_cases hempty : samples = []
  · simp [hempty]
  · have hpositive : 0 < samples.length := List.length_pos_iff.mpr hempty
    have hlength := (List.mergeSort_perm samples fun left right => decide (left ≤ right)).length_eq
    rw [if_neg hempty, rank, List.getElem?_eq_getElem (by omega)]
    simp [hempty]

/-- A percentile that is there and not above a bound. -/
theorem percentile_within_iff (samples : List Nat) (bound : Nat) :
    ((percentile samples 95).isSome = true ∧
        ¬ (percentile samples 95).any (fun value => decide (bound < value)) = true) ↔
      20 * samples.countP (fun value => decide (bound < value)) < samples.length := by
  rw [percentile_isSome, percentile_exceeds_iff, not_and]
  constructor
  · rintro ⟨hsamples, hwithin⟩
    exact not_le.mp (hwithin hsamples)
  · intro hfew
    have hpositive : 0 < samples.length := by omega
    exact ⟨List.length_pos_iff.mp hpositive, fun _ => not_le.mpr hfew⟩

section Violations

variable {budget : PerformanceBudgetConfig} {startupSnapshotHit : Bool}
  {startup ipc frame : Option Nat} {residentMemoryBytes : Nat}

theorem violations_nil_iff :
    performanceViolations budget startupSnapshotHit startup residentMemoryBytes ipc frame = [] ↔
      ¬ startup.any (fun value => decide ((if startupSnapshotHit then budget.warmStartMilliseconds
        else budget.coldStartMilliseconds) < value)) = true ∧
      residentMemoryBytes ≤ budget.idleMemoryMegabytes * (1024 * 1024) ∧
      ¬ ipc.any (fun value => decide (budget.ipcP95Microseconds < value)) = true ∧
      ¬ frame.any (fun value => decide (budget.frameP95Microseconds < value)) = true := by
  unfold performanceViolations
  simp only [List.append_eq_nil_iff, ite_eq_right_iff, List.cons_ne_nil, imp_false, not_lt,
    and_assoc]

theorem ipc_mem_violations :
    "ipc-p95" ∈
        performanceViolations budget startupSnapshotHit startup residentMemoryBytes ipc frame ↔
      ipc.any (fun value => decide (budget.ipcP95Microseconds < value)) = true := by
  unfold performanceViolations
  cases startupSnapshotHit <;> simp

theorem frame_mem_violations :
    "frame-p95" ∈
        performanceViolations budget startupSnapshotHit startup residentMemoryBytes ipc frame ↔
      frame.any (fun value => decide (budget.frameP95Microseconds < value)) = true := by
  unfold performanceViolations
  cases startupSnapshotHit <;> simp

end Violations

/-- The gate after any measurements: it is passed where a command has been started early enough,
the memory is small enough, and of the last commands and of the last frames there are some, and less
than one in twenty is over its budget; a violation of a percentile means that one in twenty is. -/
theorem performance_gate (bridge : Bridge) (measurements : List Measurement)
    (budget : PerformanceBudgetConfig) (startupSnapshotHit : Bool) (residentMemoryBytes : Nat) :
    let report := (measurements.foldl (PerformanceMetrics.measure bridge) {}).report
      budget startupSnapshotHit residentMemoryBytes
    let commands := (commandDurations measurements).rtake performanceSampleLimit
    let frames := (frameDurations bridge measurements).rtake performanceSampleLimit
    let slowCommands := commands.countP fun value => decide (budget.ipcP95Microseconds < value)
    let slowFrames := frames.countP fun value => decide (budget.frameP95Microseconds < value)
    (report.performancePassed = true ↔
      (∃ elapsed, firstStart measurements = some elapsed ∧ startupMilliseconds elapsed ≤
        if startupSnapshotHit then budget.warmStartMilliseconds
        else budget.coldStartMilliseconds) ∧
      residentMemoryBytes ≤ budget.idleMemoryMegabytes * (1024 * 1024) ∧
      20 * slowCommands < commands.length ∧ 20 * slowFrames < frames.length) ∧
    ("ipc-p95" ∈ report.performanceViolations ↔
      commands ≠ [] ∧ commands.length ≤ 20 * slowCommands) ∧
    ("frame-p95" ∈ report.performanceViolations ↔
      frames ≠ [] ∧ frames.length ≤ 20 * slowFrames) := by
  dsimp only
  rw [measure_all]
  generalize (commandDurations measurements).rtake performanceSampleLimit = commands
  generalize (frameDurations bridge measurements).rtake performanceSampleLimit = frames
  refine ⟨?_, ipc_mem_violations.trans (percentile_exceeds_iff commands _),
    frame_mem_violations.trans (percentile_exceeds_iff frames _)⟩
  simp only [PerformanceMetrics.report, Bool.and_eq_true, List.isEmpty_iff, violations_nil_iff]
  rw [← percentile_within_iff commands, ← percentile_within_iff frames]
  cases firstStart measurements with
  | none => simp
  | some elapsed =>
      simp
      tauto

end PamDesktop.Gateway
