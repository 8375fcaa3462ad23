import LzuMirror.Agent.Executor

/-!
# The tasks of the agent

The methods of `Agent` in `apps/lmt-agent/src/lib.rs` that read and write the
spool, for one attempt: `accept_with_identity` and `cancel` carry out the
actions of a poll response, `recover` runs once after a start, `reconcile_all`
is one visit of the background loop to the attempt's spool file, and
`reconcile` reports the record to the server.

`reconcile_all` reads the record before it waits for the acceptance lock, and
`reconcile` retires the file without holding any lock.
-/

namespace LzuMirror

/-- What the modelled functions read of the agent's configuration. -/
structure AgentConfig where
  instanceId : String
  mirrorRoot : String
  publicationRoot : Option String
  publicationMaxPrivateGenerations : Option ℕ
  publicationReserveBytes : Option ℕ
  maxConcurrentRuns : ℕ
  processEnabled : Bool
  deriving DecidableEq, Repr

/-- `path_within`. -/
def pathWithin (root value : String) : Bool :=
  Path.isAbsolute value.toList && Path.isAbsolute root.toList &&
    Path.startsWith value.toList root.toList &&
    !(Path.components value.toList).contains .parentDir

/-- `path_below`. -/
def pathBelow (root value : String) : Bool :=
  decide (PathBuf.ofText value ≠ PathBuf.ofText root) && pathWithin root value

/-- `safe_spec`. -/
def safeSpec (config : AgentConfig) (spec : ProcessRunSpec) : Bool :=
  if spec.runner ≠ "process" ∨ spec.mirrorRoot ≠ config.mirrorRoot then false
  else
    match spec.publication, config.publicationRoot with
    | none, _ =>
        pathBelow config.mirrorRoot spec.targetDir &&
          spec.cwd.all (pathWithin config.mirrorRoot)
    | some _, none => false
    | some publication, some publicationRoot =>
        decide (publication.publicationRoot = publicationRoot) &&
          decide (spec.targetDir = publication.candidateDir) &&
          pathBelow config.mirrorRoot publication.publishedDir &&
          [publication.candidateDir, publication.basisDir, publication.exchangeDir,
            publication.gcDir].all (pathBelow publicationRoot) &&
          spec.cwd.all fun cwd =>
            pathWithin publicationRoot cwd || pathWithin config.mirrorRoot cwd

namespace Service

open Agent

variable (config : AgentConfig)

/-- The event `reconcile` sends for a record: the first one is always `Accepted`. -/
def eventFor (record : SpoolRecord) : EventRequest :=
  let reportAccepted := record.acknowledgedSequence = 0 ∧ record.sequence > 1
  { eventSequence := if reportAccepted then 1 else record.sequence
    state := if reportAccepted then .accepted else record.state
    agentInstanceId := config.instanceId
    acceptedAt := record.acceptedAt
    startedAt := record.startedAt
    finishedAt := record.finishedAt
    exitCode := record.exitCode
    failureKind := record.failureKind
    failureMessage := record.failureMessage }

/-- A change of the latest record under the acceptance lock, which becomes the copy. -/
def updateLatest (change : SpoolRecord → SpoolRecord) : Agent Unit :=
  locked .acceptance do
    let latest ← ofExcept (← Agent.perform .readSpool)
    write (change latest)
    setCopy (change latest)

/-- The event part of `reconcile`. -/
def reconcileEvent : Agent Unit := do
  let record ← copy
  if record.acknowledgedSequence < record.sequence then
    let event := eventFor config record
    if ← ofExcept (← Agent.perform (.postEvent event)) then
      updateLatest fun latest =>
        { latest with
          acknowledgedSequence := max latest.acknowledgedSequence event.eventSequence }
    else pure ()
  else pure ()

/-- The bytes of the next log chunk; an empty chunk is not read. -/
def nextChunk (offset length : ℕ) : Agent (List UInt8) := do
  if length = 0 then pure [] else ofExcept (← Agent.perform (.readLog offset length))

/-- The log part of `reconcile`. -/
def reconcileLog : Agent Unit := do
  let storedBytes := (← ofExcept (← Agent.perform .logLength)).getD 0
  let record ← copy
  if record.logOffset > storedBytes then
    fail "acknowledged log offset exceeds local spool length"
  else if record.logOffset < storedBytes ∨
      (record.state.isTerminal ∧ !record.logCompleteAcknowledged) then
    let remaining := min (storedBytes - record.logOffset) 65536
    let bytes ← nextChunk record.logOffset remaining
    let finalChunk := record.state.isTerminal &&
      decide (record.logOffset + remaining = storedBytes)
    match ← ofExcept (← Agent.perform (.putLog record.logOffset bytes finalChunk)) with
    | none => pure ()
    | some header =>
        updateLatest fun latest =>
          { latest with
            logOffset := max latest.logOffset (header.getD record.logOffset)
            logCompleteAcknowledged := latest.logCompleteAcknowledged || finalChunk }
  else pure ()

/-- `retire(path).await?` for a record that is ready for it. -/
def retireIfReady : Agent Unit := do
  if (← copy).readyForCleanup then ofExcept (← Agent.perform .retireSpool) else pure ()

/-- `Agent::reconcile`. -/
def reconcile : Agent Unit := do
  reconcileEvent config
  reconcileLog
  retireIfReady

/-- The record that blocks the admission of an attempt, if any. -/
def admissionBlock (mirror : String) (atomic : Bool) : List SpoolRecord → Option String
  | [] => none
  | record :: rest =>
      match record.publication with
      | none => admissionBlock mirror atomic rest
      | some publication =>
          if publication.mirror ≠ mirror then admissionBlock mirror atomic rest
          else if publication.phase = .abandonedFenced then
            some ("Mirror " ++ mirror ++ " has a durable local writer fence")
          else if atomic && publication.phase.requiresNamespaceRecovery then
            some ("Mirror " ++ mirror ++ " has unresolved publication recovery")
          else admissionBlock mirror atomic rest

/-- The bounds of an atomic attempt. -/
def checkBounds (publication : Option AtomicPublicationSpec) :
    AgentProgram (Except String Unit) :=
  match publication with
  | none => pure (.ok ())
  | some publication =>
      match config.publicationMaxPrivateGenerations, config.publicationReserveBytes with
      | none, _ => pure (.error "Atomic publication generation bound is not configured")
      | some _, none => pure (.error "Atomic publication free-space reserve is not configured")
      | some generations, some bytes => perform (.gcAndCheckLocked publication generations bytes)

/-- The part of `publication_admission` under the mirror lock. -/
def admitLocked (mirror : String) (publication : Option AtomicPublicationSpec) :
    AgentProgram (Except String Unit) := do
  match ← perform .spoolRecords with
  | .error error => pure (.error error)
  | .ok records =>
      match admissionBlock mirror publication.isSome records with
      | some message => pure (.error message)
      | none => checkBounds config publication

/-- `publication_admission`: on success the mirror whose lock the caller now holds. -/
def publicationAdmission (executionIdentity : Option ExecutionIdentity) (spec : ProcessRunSpec) :
    AgentProgram (Except String (Option String)) :=
  let mirror := (executionIdentity.map (·.mirror)) <|> (spec.publication.map (·.mirror))
  let mismatch := executionIdentity.isSome && spec.publication.isSome &&
    decide (executionIdentity.map (·.mirror) ≠ spec.publication.map (·.mirror))
  if mismatch then
    pure (.error "execution identity does not match Atomic publication Mirror")
  else
    match mirror with
    | none => pure (.ok none)
    | some mirror =>
        if !validName mirror then pure (.error ("invalid mirror name: \"" ++ mirror ++ "\""))
        else do
          perform (.acquire (.mirror mirror) none)
          match ← admitLocked config mirror spec.publication with
          | .ok _ => pure (.ok (some mirror))
          | .error error =>
              perform (.release (.mirror mirror))
              pure (.error error)

/-- Why an attempt is rejected locally, or the mirror lock its admission holds. -/
def admission (executionIdentity : Option ExecutionIdentity) (spec : ProcessRunSpec) :
    AgentProgram (Except String (Option String)) :=
  if !config.processEnabled || !safeSpec config spec then
    pure (.error "local policy rejected spec")
  else do
    match ← publicationAdmission config executionIdentity spec with
    | .ok guard => pure (.ok guard)
    | .error error => pure (.error ("publication admission blocked: " ++ error))

/-- `drop(publication_guard)`. -/
def releaseGuard : Option String → AgentProgram Unit
  | none => pure ()
  | some mirror => perform (.release (.mirror mirror))

/-- The branch of `accept_with_identity` for a local rejection. -/
def rejectLocally (accepted : SpoolRecord) (message : String) : AgentProgram Unit := do
  let time ← perform .now
  let record := accepted.terminal .rejected none (some .rejected) (some message) time
  match ← perform (.writeSpool record) with
  | .error _ =>
      perform (.release .active)
      perform (.release .acceptance)
  | .ok _ =>
      perform (.release .acceptance)
      discard ((reconcile config).run record)
      perform (.release .active)

/-- The branch of `accept_with_identity` that starts the execution. -/
def startExecution (record : SpoolRecord) (guard : Option String) : AgentProgram Unit := do
  match ← perform (.writeSpool record) with
  | .error _ =>
      releaseGuard guard
      perform (.release .active)
      perform (.release .acceptance)
  | .ok _ =>
      perform .activeInsert
      perform (.release .active)
      releaseGuard guard
      perform (.spawnTask record)
      perform (.release .acceptance)

/-- `active.contains_key(&key) || active.len() >= max_concurrent_runs`. -/
def activeOrFull : AgentProgram Bool := do
  let present : Bool ← perform .activeContains
  if present then pure true
  else
    let length : ℕ ← perform .activeLength
    pure (decide (length ≥ config.maxConcurrentRuns))

/-- `accept_with_identity` for an attempt without a readable record. -/
def acceptFresh (runId : String) (attempt : ℕ) (specHash : String)
    (executionIdentity : Option ExecutionIdentity) (spec : ProcessRunSpec) :
    AgentProgram Unit := do
  perform (.acquire .active none)
  if ← activeOrFull config then
    perform (.release .active)
    perform (.release .acceptance)
  else
    match ← admission config executionIdentity spec with
    | .error message =>
        let time ← perform .now
        rejectLocally config
          (.acceptedWithIdentity runId attempt specHash executionIdentity spec time) message
    | .ok guard =>
        let time ← perform .now
        startExecution
          (.acceptedWithIdentity runId attempt specHash executionIdentity spec time) guard

/-- `Agent::accept_with_identity`. -/
def acceptWithIdentity (runId : String) (attempt : ℕ) (specHash : String)
    (executionIdentity : Option ExecutionIdentity) (spec : ProcessRunSpec) :
    AgentProgram Unit := do
  perform (.acquire .acceptance none)
  match ← perform .readSpool with
  | .error _ => acceptFresh config runId attempt specHash executionIdentity spec
  | .ok existing =>
      perform (.release .acceptance)
      if existing.specHash ≠ specHash ∨ existing.executionIdentity ≠ executionIdentity then
        pure ()
      else discard ((reconcile config).run existing)

/-- The end of the task `accept_with_identity` spawns. -/
def finishAccepted (record : SpoolRecord) : AgentProgram Unit := do
  discard ((reconcile config).run record)
  perform (.acquire .active none)
  perform .activeRemove
  perform (.release .active)

/-- The task `accept_with_identity` spawns. -/
def runAccepted (record : SpoolRecord) : AgentProgram Unit := do
  let (_, record) ← (reconcile config).run record
  let (_, record) ← execute.run record
  finishAccepted config record

/-- What is left of that task once the candidate is prepared. -/
def runPrepared (spec : ProcessRunSpec) (record : SpoolRecord) : AgentProgram Unit := do
  let (_, record) ← (startProcess spec).run record
  finishAccepted config record

/-- `cancel` of a record that has not ended. -/
def requestCancellation (record : SpoolRecord) : AgentProgram Unit := do
  match ← perform (.writeSpool { record with cancelRequested := true }) with
  | .error _ => perform (.release .acceptance)
  | .ok _ =>
      perform (.acquire .active none)
      let present : Bool ← perform .activeContains
      perform (.release .active)
      perform (.release .acceptance)
      if present then perform .sendCancel else pure ()

/-- `cancel` of a record that has ended; a new tombstone is written first. -/
def reportEnded (record : SpoolRecord) : AgentProgram Unit := do
  let present : Bool ← perform .spoolExists
  if present then
    perform (.release .acceptance)
    discard ((reconcile config).run record)
  else
    match ← perform (.writeSpool record) with
    | .error _ => perform (.release .acceptance)
    | .ok _ =>
        perform (.release .acceptance)
        discard ((reconcile config).run record)

/-- `cancel` with the record it found or made. -/
def cancelRecord (record : SpoolRecord) (specHash : String) : AgentProgram Unit :=
  if record.specHash ≠ specHash then perform (.release .acceptance)
  else if record.state.isTerminal then reportEnded config record
  else requestCancellation record

/-- `Agent::cancel`. -/
def cancel (runId : String) (attempt : ℕ) (specHash : String) : AgentProgram Unit := do
  perform (.acquire .acceptance none)
  match ← perform .readSpool with
  | .ok record => cancelRecord config record specHash
  | .error _ =>
      let present : Bool ← perform .spoolExists
      if present then perform (.release .acceptance)
      else
        let time ← perform .now
        cancelRecord config (.cancellationTombstone runId attempt specHash time) specHash

/-- The result of an attempt that a restart interrupted. -/
def normalizeInterrupted (record : SpoolRecord) : AgentProgram SpoolRecord := do
  if record.state.isTerminal then pure record
  else
    let time ← perform .now
    let ended :=
      if record.cancelRequested then record.terminal .cancelled none none none time
      else
        record.terminal .interrupted none (some .interrupted)
          (some "agent restarted without terminal result") time
    discard (perform (.writeSpool ended))
    pure ended

/-- The publication branch of `Agent::recover`. -/
def recoverPublication (record : SpoolRecord) : AgentProgram Unit := do
  perform (.acquire .acceptance none)
  let (_, record) ← recoverBeforeControlPlane.run record
  perform (.release .acceptance)
  if record.state.isTerminal then discard ((reconcile config).run record) else pure ()

/-- `Agent::recover`: what a restart does with the spool file. -/
def recover : AgentProgram Unit := do
  match ← perform .readSpool with
  | .error _ => pure ()
  | .ok record =>
      if record.requiresPublicationRecovery then recoverPublication config record
      else
        let record ← normalizeInterrupted record
        discard ((reconcile config).run record)

/-- The recovery in `reconcile_all`, of the copy that was read before the lock. -/
def recoverInBackground (record : SpoolRecord) : AgentProgram SpoolRecord := do
  perform (.acquire .acceptance (some record))
  let synchronized : Bool ← perform .synchronized
  let (_, recovered) ←
    (if synchronized then Agent.recover else recoverBeforeControlPlane).run record
  perform (.release .acceptance)
  pure recovered

/-- `Agent::reconcile_all`. -/
def reconcileAll : AgentProgram Unit := do
  match ← perform .readSpool with
  | .error _ => pure ()
  | .ok record =>
      if record.requiresPublicationRecovery then
        let recovered ← recoverInBackground record
        discard ((reconcile config).run recovered)
      else discard ((reconcile config).run record)

end Service

end LzuMirror
