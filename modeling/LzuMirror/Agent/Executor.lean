import LzuMirror.Agent.Publication

/-!
# Executing an accepted attempt

`apps/lmt-agent/src/executor.rs`: the process of an attempt is started, watched
and ended, and its result is written to the spool. The executor works on the
copy of the record it was started with and reads the file again only to pick up
a cancellation; whatever else the file says is overwritten by its writes.
-/

namespace LzuMirror

/-- `matches!(outcome, Outcome::Process(_))`. -/
def Outcome.isProcess : Outcome → Bool
  | .process _ => true
  | .timedOut | .shutdown | .cancelled => false

namespace Agent

/-- `if let Ok(latest) = read(path) { record.cancel_requested |= latest.cancel_requested }`. -/
def mergeCancellation : Agent Unit := do
  match ← perform .readSpool with
  | .error _ => pure ()
  | .ok latest =>
      let record ← copy
      setCopy { record with
        cancelRequested := record.cancelRequested || latest.cancelRequested }

/-- `record.terminal(.., now())`. -/
def terminalNow (state : AttemptState) (exitCode : Option ℤ) (kind : Option FailureKind)
    (message : Option String) : Agent Unit := do
  let time ← now
  setCopy ((← copy).terminal state exitCode kind message time)

/-- `let _ = write(path, record).await`. -/
def writeCopy : Agent Unit := do
  discard (attempt (write (← copy)))

/-- The result of an attempt whose process never ran. -/
def recordFailure (kind : FailureKind) (error : String) : Agent Unit := do
  if (← copy).cancelRequested then
    terminalNow .cancelled none none none
    writeCopy
  else
    terminalNow .failed none (some kind) (some error)
    writeCopy

/-- The critical section of both failures below. -/
def persistFailure (kind : FailureKind) (error : String) : Agent Unit :=
  locked .acceptance do
    mergeCancellation
    recordFailure kind error

def persistPreparationFailure (error : String) : Agent Unit :=
  persistFailure .invalidResult error

def persistSpawnFailure (error : String) : Agent Unit := persistFailure .process error

/-- The atomic arm of `finalize`. -/
def finalizeAtomic (status : ExitStatus) : Agent Unit := do
  match ← attempt commit with
  | .ok _ => pure ()
  | .error error =>
      if (← copy).phase? = some .executing then
        terminalNow .failed status.code (some .invalidResult) (some error)
        writeCopy
      else pure ()

/-- The `match` of `finalize`. -/
def finalizeOutcome (outcome : Outcome) : Agent Unit := do
  let record ← copy
  if record.cancelRequested then terminalNow .cancelled none none none
  else
    match outcome with
    | .process (.ok status) =>
        if status.success && record.publication.isSome then finalizeAtomic status
        else if status.success then terminalNow .succeeded status.code none none
        else
          terminalNow .failed status.code (some .process) (some "process exited non-zero")
    | .process (.error error) =>
        terminalNow .interrupted none (some .interrupted) (some error)
    | .shutdown => terminalNow .interrupted none (some .interrupted) (some "agent shutdown")
    | .timedOut => terminalNow .timedOut none (some .timeout) (some "attempt timed out")
    | .cancelled => terminalNow .cancelled none none none

/-- `finalize`: the copy is written once more, whatever the outcome was. -/
def finalize (outcome : Outcome) : Agent Unit := do
  finalizeOutcome outcome
  writeCopy

/-- The critical section at the end of `execute`. -/
def finishExecution (outcome : Outcome) : Agent Unit :=
  locked .acceptance do
    mergeCancellation
    finalize outcome

/-- The copy once the process runs. -/
def runningRecord (record : SpoolRecord) (time : String) : SpoolRecord :=
  { record with
    state := .running
    sequence := record.sequence + 1
    startedAt := some time }

/-- The record of a process that has started. -/
def markRunning : Agent Unit := do
  let time ← now
  setCopy (runningRecord (← copy) time)
  locked .acceptance do
    mergeCancellation
    writeCopy

/-- `execute` from the start of the process. -/
def superviseProcess (spec : ProcessRunSpec) : Agent Unit := do
  perform .startCapture
  markRunning
  let outcome ← perform (.awaitOutcome spec.timeoutSeconds)
  perform (.closeProcessGroup outcome.isProcess)
  perform .awaitCapture
  finishExecution outcome

/-- `execute` with the candidate in place. -/
def startProcess (spec : ProcessRunSpec) : Agent Unit := do
  match ← perform .setChildSubreaper with
  | .error error => persistSpawnFailure error
  | .ok _ =>
      match ← perform (.spawnProcess spec) with
      | .error error => persistSpawnFailure error
      | .ok _ => superviseProcess spec

/-- `if record.publication.is_some()` before `prepare_candidate`. -/
def prepareIfAtomic : Agent Unit := do
  if (← copy).publication.isSome then prepareCandidate else pure ()

/-- `execute`. -/
def execute : Agent Unit := do
  match (← copy).spec with
  | none => pure ()
  | some spec =>
      match ← attempt prepareIfAtomic with
      | .error error => persistPreparationFailure error
      | .ok _ => startProcess spec

end Agent

end LzuMirror
