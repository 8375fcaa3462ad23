import LzuMirror.Core.State

/-!
# Schedules and retries

Schedule evaluation and the retry decision (`crates/lmt-core/src/schedule.rs`).

Reading a duration (`humantime`) and finding the next occurrence of a cron
expression (`croner` with `chrono-tz`) are library calls; `Calendar` is what the
code sees of them. Times are `i64` milliseconds: the model computes over the
integers and states each overflow check of the source.
-/

namespace LzuMirror

/-- `i64::MAX`. -/
def i64Max : ℤ := 9223372036854775807

/-- `u64::MAX`. -/
def u64Max : ℕ := 18446744073709551615

/-- `ScheduleConfig`. -/
inductive ScheduleConfig where
  | interval (interval : String)
  | cron (cron timezone : String)
  deriving DecidableEq, Repr

/-- The duration and cron libraries. -/
structure Calendar where
  /-- `humantime::parse_duration`: whole seconds and the sub-second nanoseconds. -/
  parseDuration : String → Except String (ℕ × ℕ)
  /-- The next occurrence of a cron expression in a timezone, strictly after an instant. -/
  nextOccurrence : String → String → ℤ → Except String ℤ

/-- `MIN_INTERVAL_SECONDS`. -/
def minIntervalSeconds : ℕ := 60

/-- `MAX_INTERVAL_SECONDS`. -/
def maxIntervalSeconds : ℕ := 365 * 24 * 60 * 60

/-- `parse_interval`. -/
def parseInterval (calendar : Calendar) (value : String) : Except String ℕ := do
  let (seconds, nanos) ← calendar.parseDuration value
  if nanos ≠ 0 then
    throw "interval must use whole seconds"
  if ¬(minIntervalSeconds ≤ seconds ∧ seconds ≤ maxIntervalSeconds) then
    throw "interval must be between 1m and 365d"
  return seconds

/-- `ScheduleConfig::next_after_ms`. -/
def ScheduleConfig.nextAfterMs (calendar : Calendar) (schedule : ScheduleConfig) (afterMs : ℤ) :
    Except String ℤ :=
  match schedule with
  | .interval value => do
      let millis := (← parseInterval calendar value) * 1000
      if i64Max < afterMs + millis then
        throw "interval timestamp overflow"
      return afterMs + millis
  | .cron expression timezone => calendar.nextOccurrence expression timezone afterMs

/-- The mutable columns of a schedule row. -/
structure ScheduleRuntime where
  nextDueAtMs : Option ℤ
  lastEvaluatedAtMs : Option ℤ
  catchUpPending : Bool
  catchUpSinceMs : Option ℤ
  deriving DecidableEq, Repr

/-- The result of evaluating one due schedule. -/
structure DueEvaluation where
  runtime : ScheduleRuntime
  becameDue : Bool
  skippedWhileActive : Bool
  deriving DecidableEq, Repr

/-- `activate_schedule`. -/
def activateSchedule (calendar : Calendar) (schedule : ScheduleConfig) (nowMs : ℤ) :
    Except String ScheduleRuntime := do
  let nextDue ← schedule.nextAfterMs calendar nowMs
  return {
    nextDueAtMs := some nextDue
    lastEvaluatedAtMs := some nowMs
    catchUpPending := false
    catchUpSinceMs := none }

/-- `evaluate_schedule_due`. -/
def evaluateScheduleDue (calendar : Calendar) (schedule : ScheduleConfig)
    (runtime : ScheduleRuntime) (nowMs : ℤ) (hasActiveRun : Bool) :
    Except String DueEvaluation :=
  match runtime.nextDueAtMs with
  | none => .ok ⟨runtime, false, false⟩
  | some dueAt =>
      if nowMs < dueAt then .ok ⟨runtime, false, false⟩
      else do
        let marked :=
          if hasActiveRun then
            { runtime with
              lastEvaluatedAtMs := some nowMs
              catchUpPending := false
              catchUpSinceMs := none }
          else
            { runtime with
              lastEvaluatedAtMs := some nowMs
              catchUpPending := true
              catchUpSinceMs := some <|
                match runtime.catchUpSinceMs with
                | none => dueAt
                | some existing => min existing dueAt }
        let nextDue ←
          match schedule with
          | .interval _ => pure none
          | .cron _ _ => some <$> schedule.nextAfterMs calendar nowMs
        return ⟨{ marked with nextDueAtMs := nextDue }, !hasActiveRun, hasActiveRun⟩

/-- `rearm_interval`. -/
def rearmInterval (calendar : Calendar) (schedule : ScheduleConfig) (terminalAtMs : ℤ) :
    Except String (Option ℤ) :=
  match schedule with
  | .interval _ => some <$> schedule.nextAfterMs calendar terminalAtMs
  | .cron _ _ => .ok none

/-- `RetryContext`. -/
structure RetryContext where
  outcome : AttemptState
  attemptNo : ℕ
  maxAttempts : ℕ
  retryDelaySeconds : ℕ
  cancelRequested : Bool
  mirrorEligible : Bool
  ownerUnchanged : Bool
  serverNowMs : ℤ
  deriving DecidableEq, Repr

/-- `RetryDecision`. -/
inductive RetryDecision where
  | schedule (retryDueAtMs : ℤ)
  | final (state : RunState)
  deriving DecidableEq, Repr

/-- The outcomes that a run may retry after. -/
def AttemptState.retryable : AttemptState → Bool
  | .failed | .timedOut | .interrupted => true
  | _ => false

/-- The run state a final attempt outcome leaves. -/
def AttemptState.finalRunState : AttemptState → RunState
  | .succeeded => .succeeded
  | .timedOut => .timedOut
  | .cancelled => .cancelled
  | .queued | .accepted | .running | .failed | .interrupted | .rejected => .failed

/-- The retry deadline, with the saturating conversions of the source. -/
def RetryContext.deadline (context : RetryContext) : ℤ :=
  let delayMs := min ((min (context.retryDelaySeconds * 1000) u64Max : ℕ) : ℤ) i64Max
  min (context.serverNowMs + delayMs) i64Max

/-- `decide_retry`. -/
def decideRetry (context : RetryContext) : RetryDecision :=
  if context.outcome.retryable && decide (context.attemptNo < context.maxAttempts) &&
      !context.cancelRequested && context.mirrorEligible && context.ownerUnchanged then
    .schedule context.deadline
  else
    .final context.outcome.finalRunState

theorem AttemptState.finalRunState_isTerminal (state : AttemptState) :
    state.finalRunState.isTerminal := by
  cases state <;> rfl

/-- A final decision always ends the run. -/
theorem decideRetry_final {context : RetryContext} {state : RunState}
    (decided : decideRetry context = .final state) : state.isTerminal := by
  unfold decideRetry at decided
  split at decided
  · cases decided
  · cases decided
    exact context.outcome.finalRunState_isTerminal

/-- A retry is only granted below the attempt limit, uncancelled and on an eligible mirror. -/
theorem decideRetry_schedule {context : RetryContext} {due : ℤ}
    (decided : decideRetry context = .schedule due) :
    context.outcome.retryable ∧ context.attemptNo < context.maxAttempts ∧
      context.cancelRequested = false ∧ context.mirrorEligible ∧ context.ownerUnchanged := by
  unfold decideRetry at decided
  split at decided
  next granted => simpa [and_assoc] using granted
  next => cases decided

end LzuMirror
