import LzuMirror.Store.Apply

/-!
# Runs and attempts in the store

The transactions of `crates/lmt-store/src/lib.rs` that create, dispatch, cancel
and report runs: `evaluate_due_schedules`, `create_manual_run`, `poll_action`,
`request_cancellation`, `apply_event`, `observe_node` and `replace_agent_binding`.

Each operation is a function from the database to an error, which rolls the
transaction back, or to its result and the committed database. The callbacks of
the source stay parameters here; `Store.Services` supplies the server's own.
The identifier of a new run (`RunId::new`) is an argument.
-/

namespace LzuMirror

/-- `ORDER BY` on a nullable column: SQLite sorts `NULL` first. -/
def compareNullsFirst : Option ℤ → Option ℤ → Ordering
  | none, none => .eq
  | none, some _ => .lt
  | some _, none => .gt
  | some left, some right => compare left right

/-! ## Schedule ticks -/

/-- `ScheduleTickSource`. -/
structure ScheduleTickSource where
  mirrorName : String
  configToml : String
  runtime : ScheduleRuntime
  hasActiveRun : Bool
  deriving DecidableEq, Repr

/-- The schedule row of a managed, enabled mirror that is due at `now`. -/
def Database.tickSource? (db : Database) (now : ℤ) (row : ScheduleRow) :
    Option ScheduleTickSource := do
  let (mirror, generation) ← db.currentGeneration row.mirrorName
  let due ← row.runtime.nextDueAtMs
  if mirror.managed && mirror.enabled && decide (due ≤ now) then
    some {
      mirrorName := mirror.name
      configToml := generation.configToml
      runtime := row.runtime
      hasActiveRun := db.hasActiveRun mirror.name }
  else none

/-- The due rows in the order `next_due_at_ms, name`. -/
def Database.tickSources (db : Database) (now : ℤ) : List ScheduleTickSource :=
  (db.schedules.rows.filterMap (db.tickSource? now)).insertionSort fun left right =>
    (compareNullsFirst left.runtime.nextDueAtMs right.runtime.nextDueAtMs).then
      (compare left.mirrorName right.mirrorName) ≠ .gt

/-- The update loop of `evaluate_due_schedules`. -/
def Database.evaluateSources (evaluate : ScheduleTickSource → Except StoreError ScheduleRuntime)
    (db : Database) : List ScheduleTickSource → Except StoreError Database
  | [] => .ok db
  | source :: rest => do
      let runtime ← evaluate source
      Database.evaluateSources evaluate
        { db with
          schedules := db.schedules.update (fun row => row.mirrorName = source.mirrorName)
            (fun row => { row with runtime }) }
        rest

/-- `Store::evaluate_due_schedules`. -/
def Database.evaluateDueSchedules (db : Database) (now : ℤ)
    (evaluate : ScheduleTickSource → Except StoreError ScheduleRuntime) :
    Except StoreError (ℕ × Database) := do
  let sources := db.tickSources now
  let after ← db.evaluateSources evaluate sources
  return (sources.length, after)

/-! ## Manual runs -/

/-- `RunPolicySnapshot`. -/
structure RunPolicySnapshot where
  maxAttempts : ℕ
  retryDelayMs : ℕ
  deriving DecidableEq, Repr

/-- A run that was just created. -/
def RunRow.created (id mirrorName : String) (generation : ℕ) (ownerNode : String)
    (trigger : RunTrigger) (now : ℤ) (policy : RunPolicySnapshot)
    (manualRequestId : Option String) (scheduledForAtMs : Option ℤ) : RunRow where
  id := id
  mirrorName := mirrorName
  mirrorGeneration := generation
  ownerNode := ownerNode
  trigger := trigger
  state := .pending
  createdAtMs := now
  startedAtMs := none
  finishedAtMs := none
  maxAttempts := policy.maxAttempts
  retryDelayMs := policy.retryDelayMs
  attemptCount := 0
  finalExitCode := none
  failureKind := none
  failureMessage := none
  cancelRequestedAtMs := none
  manualRequestId := manualRequestId
  scheduledForAtMs := scheduledForAtMs
  retryDueAtMs := none

/-- `UPDATE mirror_schedule_state SET catch_up_pending=0,catch_up_since_ms=NULL`. -/
def Database.clearDueMarker (db : Database) (mirror : String) : Database :=
  { db with
    schedules := db.schedules.update (fun row => row.mirrorName = mirror)
      (fun row => { row with
        runtime := { row.runtime with catchUpPending := false, catchUpSinceMs := none } }) }

/-- `Store::create_manual_run`. -/
def Database.createManualRun (db : Database) (mirror requestId : String) (now : ℤ)
    (newRunId : String) (policy : String → Except StoreError RunPolicySnapshot) :
    Except StoreError (RunRow × Database) :=
  match db.runs.rows.find? fun run => run.manualRequestId = some requestId with
  | some existing =>
      if existing.mirrorName = mirror then .ok (existing, db) else .error .requestConflict
  | none =>
      match db.currentGeneration mirror with
      | none => .error .mirrorNotFound
      | some (row, generation) =>
          if row.managed = false ∨ row.enabled = false then .error .mirrorIneligible
          else
            match db.runs.rows.find? fun run =>
                decide (run.mirrorName = mirror) && run.state.isActive with
            | some run => .error (.mirrorBusy run.id)
            | none => do
                let policy ← policy generation.configToml
                let run := RunRow.created newRunId mirror row.currentGeneration row.ownerNode
                  .manual now policy (some requestId) none
                let db ← db.insertRun run
                return (run, db.clearDueMarker mirror)

/-! ## Polling -/

/-- `PollAction`. -/
inductive PollAction where
  | startAttempt (runId : String) (attemptNo : ℕ) (mirrorName specHash : String)
      (spec : ProcessRunSpec)
  | cancelAttempt (runId : String) (attemptNo : ℕ) (specHash : String)
  deriving DecidableEq, Repr

/-- `DispatchSource`. -/
structure DispatchSource where
  runId : String
  attemptNo : ℕ
  mirrorName : String
  mirrorGeneration : ℕ
  configToml : String
  deriving DecidableEq, Repr

/-- `CompiledDispatch`. -/
structure CompiledDispatch where
  spec : ProcessRunSpec
  specHash : String
  policy : RunPolicySnapshot
  deriving DecidableEq, Repr

/-- The run and attempt number that a poll may dispatch next. -/
structure DispatchCandidate where
  runId : String
  mirrorName : String
  generation : ℕ
  attemptNo : ℕ
  deriving DecidableEq, Repr

/-- The run of an attempt satisfies a predicate (`JOIN runs r ON r.id=a.run_id`). -/
def Database.runOf (db : Database) (attempt : AttemptRow) (matching : RunRow → Bool) : Bool :=
  (db.runs.find? attempt.runId).any matching

/-- The mirror of a run satisfies a predicate (`JOIN mirrors m ON m.name=r.mirror_name`). -/
def Database.mirrorOf (db : Database) (run : RunRow) (matching : MirrorRow → Bool) : Bool :=
  (db.mirrors.find? run.mirrorName).any matching

/-- `find_cancellation`. -/
def Database.findCancellation (db : Database) (node : String) : Option PollAction :=
  let requestedAt (attempt : AttemptRow) :=
    (db.runs.find? attempt.runId).bind (·.cancelRequestedAtMs)
  (db.attempts.first
    (fun left right => (compareNullsFirst (requestedAt left) (requestedAt right)).then
      (compare left.runId right.runId) == .lt)
    fun attempt =>
      db.runOf attempt (fun run => decide (run.ownerNode = node) && run.state.isActive &&
        run.cancelRequestedAtMs.isSome && decide (attempt.attemptNo = run.attemptCount)) &&
      decide (0 < attempt.dispatchCount) && !attempt.state.isTerminal).map
    fun attempt => .cancelAttempt attempt.runId attempt.attemptNo attempt.specHash

/-- The redelivery query of `poll_action`. -/
def Database.findRedelivery (db : Database) (node : String) : Option AttemptRow :=
  db.attempts.first
    (fun left right => (compareNullsFirst left.lastDispatchAtMs right.lastDispatchAtMs).then
      ((compare left.runId right.runId).then (compare left.attemptNo right.attemptNo)) == .lt)
    fun attempt =>
      db.runOf attempt (fun run => decide (run.ownerNode = node) && run.state.isActive) &&
      decide (attempt.state = AttemptState.queued) && decide (0 < attempt.dispatchCount)

/-- `mark_redelivery`. -/
def Database.markRedelivery (db : Database) (key : String × ℕ) (now : ℤ) : Database :=
  { db with
    attempts := db.attempts.update (fun attempt => attempt.key = key)
      (fun attempt => { attempt with
        dispatchCount := attempt.dispatchCount + 1
        lastDispatchAtMs := some now }) }

/-- `node_has_capacity`: an unknown node counts as free. -/
def Database.nodeHasCapacity (db : Database) (node : String) : Bool :=
  match db.nodes.find? node with
  | none => true
  | some row => decide (row.activeRuns < row.maxConcurrentRuns)

/-- The query for the first attempt of a manual run. -/
def Database.findManual (db : Database) (node : String) : Option RunRow :=
  db.runs.first (fun left right => decide (left.createdAtMs < right.createdAtMs)) fun run =>
    decide (run.ownerNode = node) && decide (run.state = RunState.pending) &&
    decide (run.trigger = RunTrigger.manual) &&
    db.mirrorOf run (fun mirror => mirror.managed && mirror.enabled) &&
    !db.attempts.any fun attempt => decide (attempt.runId = run.id)

/-- The query for a retry whose deadline has passed. -/
def Database.findRetry (db : Database) (node : String) (now : ℤ) : Option RunRow :=
  db.runs.first
    (fun left right => (compareNullsFirst left.retryDueAtMs right.retryDueAtMs).then
      (compare left.createdAtMs right.createdAtMs) == .lt)
    fun run =>
      decide (run.ownerNode = node) && decide (run.state = RunState.running) &&
      run.retryDueAtMs.any (fun due => decide (due ≤ now)) && run.cancelRequestedAtMs.isNone &&
      db.mirrorOf run (fun mirror =>
        mirror.managed && mirror.enabled && decide (mirror.ownerNode = run.ownerNode)) &&
      decide (run.attemptCount < run.maxAttempts)

/-- The query of `materialize_scheduled_candidate`. -/
def Database.findDue (db : Database) (node : String) : Option ScheduleRow :=
  db.schedules.first
    (fun left right =>
      (compareNullsFirst left.runtime.catchUpSinceMs right.runtime.catchUpSinceMs).then
        (compare left.mirrorName right.mirrorName) == .lt)
    fun row =>
      (db.mirrors.find? row.mirrorName).any (fun mirror =>
        decide (mirror.ownerNode = node) && mirror.managed && mirror.enabled) &&
      row.runtime.catchUpPending && row.runtime.catchUpSinceMs.isSome &&
      !db.hasActiveRun row.mirrorName

/-- `materialize_scheduled_candidate`. -/
def Database.materializeScheduledCandidate (db : Database) (node : String) (now : ℤ)
    (newRunId : String) : Except StoreError (Option (DispatchCandidate × Database)) :=
  match db.findDue node with
  | none => .ok none
  | some row =>
      match db.mirrors.find? row.mirrorName with
      | none => .ok none
      | some mirror => do
          let run := RunRow.created newRunId mirror.name mirror.currentGeneration
            mirror.ownerNode .scheduled now ⟨1, 0⟩ none row.runtime.catchUpSinceMs
          let staged ← db.insertRun run
          return some (⟨newRunId, mirror.name, mirror.currentGeneration, 1⟩,
            staged.clearDueMarker mirror.name)

/-- The candidate selection of `poll_action`: manual runs, then retries, then due markers. -/
def Database.selectCandidate (db : Database) (node : String) (now : ℤ) (newRunId : String) :
    Except StoreError (Option (DispatchCandidate × Database)) :=
  match db.findManual node with
  | some run => .ok (some (⟨run.id, run.mirrorName, run.mirrorGeneration, 1⟩, db))
  | none =>
      match db.findRetry node now with
      | some run =>
          .ok (some (⟨run.id, run.mirrorName, run.mirrorGeneration, run.attemptCount + 1⟩, db))
      | none => db.materializeScheduledCandidate node now newRunId

/-- The row that `persist_dispatch` inserts. -/
def AttemptRow.dispatched (source : DispatchSource) (compiled : CompiledDispatch) (now : ℤ) :
    AttemptRow where
  runId := source.runId
  attemptNo := source.attemptNo
  state := .queued
  specHash := compiled.specHash
  spec := compiled.spec
  createdAtMs := now
  acceptedAtMs := none
  startedAtMs := none
  finishedAtMs := none
  agentInstanceId := none
  exitCode := none
  failureKind := none
  failureMessage := none
  lastEventSequence := 0
  dispatchCount := 1
  lastDispatchAtMs := some now

/-- `persist_dispatch`. -/
def Database.persistDispatch (db : Database) (source : DispatchSource)
    (compiled : CompiledDispatch) (now : ℤ) : Except StoreError (Option PollAction × Database) := do
  let db := { db with
    runs := db.runs.update
      (fun run => decide (run.id = source.runId) && decide (run.trigger = RunTrigger.scheduled))
      (fun run => { run with
        maxAttempts := compiled.policy.maxAttempts
        retryDelayMs := compiled.policy.retryDelayMs }) }
  let db ← db.insertAttempt (.dispatched source compiled now)
  let db := { db with
    runs := db.runs.update (fun run => run.id = source.runId)
      (fun run => { run with attemptCount := source.attemptNo, retryDueAtMs := none }) }
  return (some (.startAttempt source.runId source.attemptNo source.mirrorName compiled.specHash
    compiled.spec), db)

/-- Compiling a candidate in the transaction that selected it and persisting the dispatch. -/
def Database.dispatch (db staged : Database) (candidate : DispatchCandidate) (now : ℤ)
    (compile : DispatchSource → Except StoreError (Option CompiledDispatch)) :
    Except StoreError (Option PollAction × Database) :=
  match staged.generations.find? (candidate.mirrorName, candidate.generation) with
  | none => .error .database
  | some generation =>
      let source : DispatchSource := {
        runId := candidate.runId
        attemptNo := candidate.attemptNo
        mirrorName := candidate.mirrorName
        mirrorGeneration := candidate.generation
        configToml := generation.configToml }
      match compile source with
      | .error error => .error error
      -- `unavailable_dispatch` rolls back a materialised run as well
      | .ok none => .ok (none, db)
      | .ok (some compiled) => staged.persistDispatch source compiled now

/-- `Store::poll_action`. -/
def Database.pollAction (db : Database) (node : String) (now : ℤ) (newRunId : String)
    (compile : DispatchSource → Except StoreError (Option CompiledDispatch)) :
    Except StoreError (Option PollAction × Database) :=
  match db.findCancellation node with
  | some action => .ok (some action, db)
  | none =>
      match db.findRedelivery node with
      | some attempt =>
          match db.runs.find? attempt.runId with
          | none => .error .database
          | some run =>
              .ok (some (.startAttempt attempt.runId attempt.attemptNo run.mirrorName
                attempt.specHash attempt.spec), db.markRedelivery attempt.key now)
      | none =>
          if db.nodeHasCapacity node = false then .ok (none, db)
          else
            match db.selectCandidate node now newRunId with
            | .error error => .error error
            | .ok none => .ok (none, db)
            | .ok (some (candidate, staged)) => db.dispatch staged candidate now compile

/-! ## Cancellation -/

/-- `CancellationApplyResult`. -/
structure CancellationApplyResult where
  run : RunRow
  newlyRequested : Bool
  deriving DecidableEq, Repr

/-- The run's latest attempt was dispatched and has not ended. -/
def Database.activeDispatched (db : Database) (run : RunRow) : Bool :=
  db.attempts.any fun attempt =>
    decide (attempt.runId = run.id) && decide (attempt.attemptNo = run.attemptCount) &&
    decide (0 < attempt.dispatchCount) && !attempt.state.isTerminal

/-- The configuration text that a cancelled run re-arms its interval from. -/
def Database.rearmSource (db : Database) (run : RunRow) : Option String := do
  let (mirror, generation) ← db.currentGeneration run.mirrorName
  if mirror.managed && mirror.enabled && decide (mirror.ownerNode = run.ownerNode) then
    some generation.configToml
  else none

/-- The two forms of `UPDATE mirror_schedule_state` that arm the next interval. -/
def Database.rearmSchedule (db : Database) (mirror : String) (nextDue now : ℤ) : Database :=
  { db with
    schedules := db.schedules.update (fun row => row.mirrorName = mirror)
      (fun row => { row with
        runtime := {
          nextDueAtMs := some nextDue
          lastEvaluatedAtMs := some now
          catchUpPending := false
          catchUpSinceMs := none } }) }

/-- Ending a run that no agent is working on. -/
def Database.cancelUndispatched (db : Database) (runId : String) (now : ℤ) : Database :=
  { db with
    attempts := db.attempts.update
      (fun attempt => decide (attempt.runId = runId) && decide (attempt.dispatchCount = 0) &&
        !attempt.state.isTerminal)
      (fun attempt => { attempt with
        state := .cancelled
        finishedAtMs := attempt.finishedAtMs <|> some now })
    runs := db.runs.update (fun run => run.id = runId)
      (fun run => { run with
        state := .cancelled
        finishedAtMs := some now
        retryDueAtMs := none
        finalExitCode := none
        failureKind := none
        failureMessage := none }) }

/-- `UPDATE runs SET cancel_requested_at_ms=COALESCE(cancel_requested_at_ms,?)`. -/
def Database.recordCancellation (db : Database) (runId : String) (now : ℤ) : Database :=
  { db with
    runs := db.runs.update (fun run => run.id = runId)
      (fun run => { run with cancelRequestedAtMs := run.cancelRequestedAtMs <|> some now }) }

/-- The database after a cancellation was recorded: without a working agent the run ends. -/
def Database.settleCancellation (requested : Database) (run : RunRow) (now : ℤ)
    (rearm : String → Except StoreError (Option ℤ)) : Except StoreError Database :=
  if requested.activeDispatched run then .ok requested
  else do
    let nextDue ←
      match requested.rearmSource run with
      | none => .ok none
      | some configToml => rearm configToml
    let cancelled := requested.cancelUndispatched run.id now
    return match nextDue with
      | none => cancelled
      | some nextDue => cancelled.rearmSchedule run.mirrorName nextDue now

/-- `Store::request_cancellation`. -/
def Database.requestCancellation (db : Database) (runId : String) (now : ℤ)
    (rearm : String → Except StoreError (Option ℤ)) :
    Except StoreError (CancellationApplyResult × Database) :=
  match db.runs.find? runId with
  | none => .error .attemptNotFound
  | some run =>
      if run.state.isTerminal then .ok (⟨run, false⟩, db)
      else do
        let after ← (db.recordCancellation runId now).settleCancellation run now rearm
        match after.runs.find? runId with
        | none => throw .database
        | some result => return (⟨result, run.cancelRequestedAtMs.isNone⟩, after)

/-! ## Attempt events -/

/-- `TerminalDecisionSource`. -/
structure TerminalDecisionSource where
  outcome : AttemptState
  attemptNo : ℕ
  maxAttempts : ℕ
  retryDelayMs : ℕ
  cancelRequested : Bool
  mirrorEligible : Bool
  ownerUnchanged : Bool
  mirrorName : String
  currentConfigToml : String
  deriving DecidableEq, Repr

/-- `TerminalDecision`. -/
structure TerminalDecision where
  retry : RetryDecision
  intervalNextDueAtMs : Option ℤ
  deriving DecidableEq, Repr

/-- `AttemptEventApplyResult`. -/
structure AttemptEventApplyResult where
  acceptedEventSequence : ℕ
  newlyApplied : Bool
  retryScheduled : Bool
  deriving DecidableEq, Repr

/-- `terminal_source`. -/
def Database.terminalSource (db : Database) (runId : String) (attemptNo : ℕ)
    (outcome : AttemptState) : Except StoreError TerminalDecisionSource :=
  match db.runs.find? runId with
  | none => .error .database
  | some run =>
      match db.currentGeneration run.mirrorName with
      | none => .error .database
      | some (mirror, generation) =>
          .ok {
            outcome
            attemptNo
            maxAttempts := run.maxAttempts
            retryDelayMs := run.retryDelayMs
            cancelRequested := run.cancelRequestedAtMs.isSome
            mirrorEligible := mirror.managed && mirror.enabled
            ownerUnchanged := decide (mirror.ownerNode = run.ownerNode)
            mirrorName := mirror.name
            currentConfigToml := generation.configToml }

/-- The `UPDATE attempts` of `apply_event`: times are kept once set, the result is replaced. -/
def AttemptRow.record (event : AttemptEvent) (attempt : AttemptRow) : AttemptRow :=
  { attempt with
    state := event.state
    lastEventSequence := event.eventSequence
    agentInstanceId := some event.agentInstanceId
    acceptedAtMs := attempt.acceptedAtMs <|> event.acceptedAtMs
    startedAtMs := attempt.startedAtMs <|> event.startedAtMs
    finishedAtMs := attempt.finishedAtMs <|> event.finishedAtMs
    exitCode := event.exitCode
    failureKind := event.failureKind.map FailureKind.str
    failureMessage := event.failureMessage }

/-- The attempts after an event. -/
def Database.recordEvent (db : Database) (key : String × ℕ) (event : AttemptEvent) : Database :=
  { db with
    attempts := db.attempts.update (fun attempt => attempt.key = key) (AttemptRow.record event) }

/-- The first report of execution moves a pending run to running. -/
def Database.startRun (db : Database) (runId : String) (startedAtMs : ℤ) : Database :=
  { db with
    runs := db.runs.update
      (fun run => decide (run.id = runId) && decide (run.state = RunState.pending))
      (fun run => { run with
        state := .running
        startedAtMs := run.startedAtMs <|> some startedAtMs }) }

/-- The run waits for a retry. -/
def Database.scheduleRetry (db : Database) (runId : String) (startedAtMs : Option ℤ)
    (retryDueAtMs : ℤ) : Database :=
  { db with
    runs := db.runs.update (fun run => decide (run.id = runId) && run.state.isActive)
      (fun run => { run with
        state := .running
        startedAtMs := run.startedAtMs <|> startedAtMs
        retryDueAtMs := some retryDueAtMs
        finishedAtMs := none
        finalExitCode := none
        failureKind := none
        failureMessage := none }) }

/-- The run ends with the result of the event. -/
def Database.finishRun (db : Database) (runId : String) (state : RunState)
    (startedAtMs : Option ℤ) (finishedAtMs : ℤ) (event : AttemptEvent) : Database :=
  { db with
    runs := db.runs.update (fun run => decide (run.id = runId) && run.state.isActive)
      (fun run => { run with
        state
        startedAtMs := run.startedAtMs <|> startedAtMs
        finishedAtMs := some finishedAtMs
        retryDueAtMs := none
        finalExitCode := event.exitCode
        failureKind := event.failureKind.map FailureKind.str
        failureMessage := event.failureMessage }) }

/-- What a terminal event does to the run, given the decision. -/
def Database.applyDecision (db : Database) (runId mirror : String) (event : AttemptEvent)
    (projection : AttemptProjection) (decision : TerminalDecision) (now : ℤ) : Database :=
  match decision.retry with
  | .schedule retryDueAtMs => db.scheduleRetry runId projection.runStartedAtMs retryDueAtMs
  | .final state =>
      let finished := db.finishRun runId state projection.runStartedAtMs
        (projection.runFinishedAtMs.getD now) event
      match decision.intervalNextDueAtMs with
      | none => finished
      | some nextDue => finished.rearmSchedule mirror nextDue now

/-- Whether a decision announces a retry. -/
def TerminalDecision.schedulesRetry (decision : TerminalDecision) : Bool :=
  match decision.retry with
  | .schedule _ => true
  | .final _ => false

/-- The run bookkeeping of `apply_event` after the attempt row has been written. -/
def Database.applyProjection (db : Database) (runId : String) (attemptNo : ℕ)
    (event : AttemptEvent) (projection : AttemptProjection) (now : ℤ)
    (decideTerminal : TerminalDecisionSource → ℤ → Except StoreError TerminalDecision) :
    Except StoreError (Bool × Database) :=
  match projection.runState with
  | none => .ok (false, db)
  | some .running => .ok (false, db.startRun runId (projection.runStartedAtMs.getD now))
  | some _ => do
      let source ← db.terminalSource runId attemptNo event.state
      let decision ← decideTerminal source now
      return (decision.schedulesRetry,
        db.applyDecision runId source.mirrorName event projection decision now)

/-- `Store::apply_event`. -/
def Database.applyEvent (db : Database) (runId : String) (attemptNo : ℕ) (event : AttemptEvent)
    (now : ℤ)
    (decideTerminal : TerminalDecisionSource → ℤ → Except StoreError TerminalDecision) :
    Except StoreError (AttemptEventApplyResult × Database) :=
  match db.attempts.find? (runId, attemptNo) with
  | none => .error .attemptNotFound
  | some attempt =>
      if event.eventSequence ≤ attempt.lastEventSequence then
        .ok (⟨attempt.lastEventSequence, false, false⟩, db)
      else
        match projectAttemptEvent attempt.state event with
        | .error error => .error (.illegalTransition error.source error.target)
        | .ok projection =>
            -- the sequence is bound to an SQLite integer
            if i64Max < event.eventSequence then .error .database
            else do
              let (retryScheduled, after) ←
                (db.recordEvent (runId, attemptNo) event).applyProjection runId attemptNo event
                  projection now decideTerminal
              return (⟨event.eventSequence, true, retryScheduled⟩, after)

/-! ## Node observations -/

/-- `NodeObservation`, as far as it is read back. -/
structure NodeObservation where
  node : String
  agentInstanceId : String
  agentBootId : String
  activeRuns : ℕ
  maxConcurrentRuns : ℕ
  observedAtMs : ℤ
  deriving DecidableEq, Repr

/-- `Store::observe_node`. -/
def Database.observeNode (db : Database) (observation : NodeObservation) :
    Except StoreError (Unit × Database) :=
  match db.nodes.find? observation.node with
  | none => .error .database
  | some row =>
      let observed := { db with
        nodes := db.nodes.update (fun row => row.name = observation.node)
          (fun row => { row with
            agentInstanceId := some observation.agentInstanceId
            boundAgentId := row.boundAgentId <|> some observation.agentInstanceId
            agentBootId := some observation.agentBootId
            lastSeenAtMs := some observation.observedAtMs
            activeRuns := observation.activeRuns
            maxConcurrentRuns := observation.maxConcurrentRuns }) }
      match row.boundAgentId with
      | some bound =>
          if bound = observation.agentInstanceId then .ok ((), observed)
          else .error (.agentBindingConflict bound observation.agentInstanceId)
      | none => .ok ((), observed)

/-- `potentially_executing` of `replace_agent_binding`. -/
def Database.potentiallyExecuting (db : Database) (node : String) : Bool :=
  db.attempts.any fun attempt =>
    db.runOf attempt (fun run => decide (run.ownerNode = node) && run.state.isActive) &&
    decide (0 < attempt.dispatchCount) && !attempt.state.isTerminal

/-- `Store::replace_agent_binding`. -/
def Database.replaceAgentBinding (db : Database) (node agentId : String)
    (acknowledgeExecutionRisk : Bool) : Except StoreError (Unit × Database) :=
  match db.nodes.find? node with
  | none => .error .attemptNotFound
  | some _ =>
      if db.potentiallyExecuting node && !acknowledgeExecutionRisk then
        .error .bindingReplacementUnsafe
      else
        .ok ((), { db with
          nodes := db.nodes.update (fun row => row.name = node)
            (fun row => { row with
              boundAgentId := some agentId
              agentInstanceId := none
              agentBootId := none }) })

end LzuMirror
