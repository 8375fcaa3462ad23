import LzuMirror.Store.Schema
import Mathlib.Data.List.Sort

/-!
# Planning and applying configuration

`plan_with_connection`, `enforce_quiescent_high_impact_changes`,
`reconcile_schedule` and `Store::apply` of `crates/lmt-store/src/lib.rs`.

A plan compares the bundle with every row of `mirrors`, managed or not; a row
outlives its removal, so a mirror that comes back is planned as an update. The
changes of one plan concern different mirrors and are applied in name order.
-/

namespace LzuMirror

/-- `ChangeKind`. -/
inductive ChangeKind where
  | create
  | update
  | remove
  | move
  deriving DecidableEq, Repr

/-- `PublicationChange`. -/
inductive PublicationChange where
  | directToAtomic
  | atomicToDirect
  deriving DecidableEq, Repr

/-- `ConfigChange`. -/
structure ConfigChange where
  kind : ChangeKind
  mirror : String
  fromGeneration : Option ℕ
  toGeneration : Option ℕ
  fromNode : Option String
  toNode : Option String
  publicationChange : Option PublicationChange
  deriving DecidableEq, Repr

/-- `ConfigPlan`. -/
structure ConfigPlan where
  baseRevision : ℕ
  bundleHash : String
  changes : List ConfigChange
  deriving DecidableEq, Repr

section Plan

variable (vendor : Vendor)

/-- `publication_change`. -/
def publicationChange (currentToml : String) (next : MirrorDocument) :
    Except StoreError (Option PublicationChange) :=
  match vendor.parseDocument currentToml with
  | .error message => .error (.invalidConfig message)
  | .ok current =>
      .ok <| match current.publicationMode, next.publicationMode with
        | .direct, .atomic => some .directToAtomic
        | .atomic, .direct => some .atomicToDirect
        | _, _ => none

variable {vendor}

/-- One step of the first loop of `plan_with_connection`: an existing row against the bundle. -/
def plannedChange (bundle : CanonicalBundle vendor) (row : MirrorRow)
    (generation : GenerationRow) : Except StoreError (Option ConfigChange) :=
  if validName row.name = false then
    .error (.invalidConfig ("invalid mirror name: " ++ row.name.quote))
  else
    match bundle.get? row.name with
    | none =>
        .ok <| if row.managed then
            some {
              kind := .remove
              mirror := row.name
              fromGeneration := some row.currentGeneration
              toGeneration := none
              fromNode := some row.ownerNode
              toNode := none
              publicationChange := none }
          else none
    | some next =>
        if row.managed = false ∨ next.configHash ≠ generation.configHash ∨
            next.ownerNode.value ≠ row.ownerNode then do
          let publicationChange ← publicationChange vendor generation.configToml next.document
          return some {
            kind :=
              if row.managed ∧ next.ownerNode.value ≠ row.ownerNode then .move else .update
            mirror := row.name
            fromGeneration := some row.currentGeneration
            toGeneration := some (row.currentGeneration + 1)
            fromNode := some row.ownerNode
            toNode := some next.ownerNode.value
            publicationChange }
        else .ok none

/-- The first loop of `plan_with_connection`. -/
def plannedChanges (bundle : CanonicalBundle vendor) :
    List (MirrorRow × GenerationRow) → Except StoreError (List ConfigChange)
  | [] => .ok []
  | (row, generation) :: rest => do
      let change ← plannedChange bundle row generation
      let others ← plannedChanges bundle rest
      return change.toList ++ others

/-- The second loop of `plan_with_connection`: bundle entries without a row. -/
def createdChanges (bundle : CanonicalBundle vendor) (current : List (MirrorRow × GenerationRow)) :
    List ConfigChange :=
  bundle.mirrors.filterMap fun (name, mirror) =>
    if current.any fun entry => decide (entry.1.name = name.value) then none
    else some {
      kind := .create
      mirror := name.value
      fromGeneration := none
      toGeneration := some 1
      fromNode := none
      toNode := some mirror.ownerNode.value
      publicationChange := none }

/-- The `mirrors` rows joined with their current generation. -/
def Database.currentMirrors (db : Database) : List (MirrorRow × GenerationRow) :=
  db.mirrors.rows.filterMap fun row =>
    (db.generations.find? (row.name, row.currentGeneration)).map fun generation =>
      (row, generation)

/-- `plan_with_connection`. -/
def planWithConnection (db : Database) (bundle : CanonicalBundle vendor) :
    Except StoreError ConfigPlan := do
  let changed ← plannedChanges bundle db.currentMirrors
  let changes := changed ++ createdChanges bundle db.currentMirrors
  return {
    baseRevision := db.revision
    bundleHash := bundle.bundleHash
    changes := changes.insertionSort fun left right => left.mirror ≤ right.mirror }

end Plan

/-- `ORDER BY created_at_ms, id`. -/
def RunRow.createdBefore (left right : RunRow) : Bool :=
  (compare left.createdAtMs right.createdAtMs).then (compare left.id right.id) == .lt

/-- `enforce_quiescent_high_impact_changes`. -/
def enforceQuiescentHighImpactChanges (db : Database) :
    List ConfigChange → Except StoreError Unit
  | [] => .ok ()
  | change :: rest =>
      if change.kind ≠ .move ∧ change.publicationChange = none then
        enforceQuiescentHighImpactChanges db rest
      else
        match db.runs.first RunRow.createdBefore fun run =>
            decide (run.mirrorName = change.mirror) && run.state.isActive with
        | some run => .error (.mirrorBusy run.id)
        | none => enforceQuiescentHighImpactChanges db rest

/-- `cancel_undispatched_pending`. -/
def cancelUndispatchedPending (db : Database) (mirror : String) (now : ℤ) : Database :=
  let db := { db with
    attempts := db.attempts.update
      (fun attempt =>
        db.runs.any (fun run => decide (run.id = attempt.runId) &&
          decide (run.mirrorName = mirror) && decide (run.state = RunState.pending)) &&
        decide (attempt.dispatchCount = 0) && decide (attempt.state = AttemptState.queued))
      (fun attempt => { attempt with state := .cancelled, finishedAtMs := some now }) }
  { db with
    runs := db.runs.update
      (fun run => decide (run.mirrorName = mirror) && decide (run.state = RunState.pending) &&
        !db.attempts.any fun attempt =>
          decide (attempt.runId = run.id) && decide (0 < attempt.dispatchCount))
      (fun run => { run with
        state := .cancelled
        finishedAtMs := some now
        failureKind := some "configuration_removed"
        failureMessage := some "configuration disabled or removed before dispatch" }) }

/-- The run that `finalize_ineligible_retries` makes of a waiting run and its last attempt. -/
def finalizedRetry (now : ℤ) (attempt : AttemptRow) (run : RunRow) : RunRow :=
  { run with
    state := if attempt.state = .timedOut then .timedOut else .failed
    finishedAtMs := some now
    retryDueAtMs := none
    finalExitCode := attempt.exitCode
    failureKind := attempt.failureKind
    failureMessage := attempt.failureMessage }

/--
`finalize_ineligible_retries`. The source selects the waiting runs with their
last attempts and updates them one by one; each run is selected at most once.
-/
def finalizeIneligibleRetries (db : Database) (mirror : String) (now : ℤ) : Database :=
  { db with
    runs := db.runs.update
      (fun run => decide (run.mirrorName = mirror) && decide (run.state = RunState.running) &&
        run.retryDueAtMs.isSome)
      (fun run =>
        match db.attempts.find? (run.id, run.attemptCount) with
        | none => run
        | some attempt => finalizedRetry now attempt run)
      (by intro run; split <;> rfl) }

section Apply

variable (vendor : Vendor)

/-- The condition under which `reconcile_schedule` starts the schedule afresh. -/
def resetsSchedule (change : ConfigChange) (ownerNode : String) (previous : Option MirrorRow)
    (existingHash : Option String) (scheduleHash : String) : Bool :=
  decide (change.kind = .create ∨ change.kind = .move) ||
    (match previous with
      | none => true
      | some row => !row.managed || !row.enabled || decide (row.ownerNode ≠ ownerNode)) ||
    decide (existingHash ≠ some scheduleHash)

/-- `reconcile_schedule`. -/
def reconcileSchedule (db : Database) (change : ConfigChange) (document : MirrorDocument)
    (ownerNode : String) (previous : Option MirrorRow) (now : ℤ) : Except StoreError Database :=
  match document.schedule.filter fun _ => document.mirror.enabled with
  | none =>
      .ok { db with schedules := db.schedules.delete fun row => row.mirrorName = change.mirror }
  | some schedule =>
      let scheduleHash := vendor.scheduleHash schedule
      let existingHash := (db.schedules.find? change.mirror).bind (·.scheduleHash)
      if resetsSchedule change ownerNode previous existingHash scheduleHash then
        match activateSchedule vendor.toCalendar schedule now with
        | .error message => .error (.invalidConfig message)
        | .ok runtime =>
            .ok { db with
              schedules := db.schedules.put {
                mirrorName := change.mirror
                scheduleHash := some scheduleHash
                runtime := { runtime with catchUpPending := false, catchUpSinceMs := none } } }
      else .ok db

/-- The `Remove` arm of `Store::apply`. -/
def applyRemove (db : Database) (mirror : String) (now : ℤ) : Database :=
  let db := { db with
    mirrors := db.mirrors.update (fun row => row.name = mirror)
      (fun row => { row with managed := false, removedAtMs := some now }) }
  let db := cancelUndispatchedPending db mirror now
  let db := finalizeIneligibleRetries db mirror now
  { db with schedules := db.schedules.delete fun row => row.mirrorName = mirror }

/-- The run bookkeeping of the other arm: a disabled or moved mirror loses its waiting runs. -/
def settleRuns (db : Database) (change : ConfigChange) (enabled : Bool) (now : ℤ) : Database :=
  if enabled = false then
    finalizeIneligibleRetries (cancelUndispatchedPending db change.mirror now) change.mirror now
  else if change.kind = .move then finalizeIneligibleRetries db change.mirror now
  else db

/-- The `Create | Update | Move` arm of `Store::apply`. -/
def applyUpsert (db : Database) (change : ConfigChange) (mirror : CanonicalMirror)
    (generation revision : ℕ) (now : ℤ) : Except StoreError Database := do
  let previous := db.mirrors.find? change.mirror
  let enabled := mirror.document.mirror.enabled
  let db := { db with
    mirrors := db.mirrors.put {
      name := change.mirror
      managed := true
      enabled
      ownerNode := mirror.ownerNode.value
      currentGeneration := generation
      removedAtMs := none } }
  let db := settleRuns db change enabled now
  match db.generations.insert? {
      mirrorName := change.mirror
      generation
      configRevision := revision
      ownerNode := mirror.ownerNode.value
      configHash := mirror.configHash
      configToml := mirror.canonicalToml
      createdAtMs := now } with
  | none => .error .database
  | some generations =>
      reconcileSchedule vendor { db with generations } change mirror.document
        mirror.ownerNode.value previous now

variable {vendor}

/-- One iteration of the change loop of `Store::apply`. -/
def applyChange (bundle : CanonicalBundle vendor) (revision : ℕ) (now : ℤ) (db : Database)
    (change : ConfigChange) : Except StoreError Database :=
  match change.kind with
  | .remove => .ok (applyRemove db change.mirror now)
  | .create | .update | .move =>
      match bundle.get? change.mirror, change.toGeneration with
      | some mirror, some generation =>
          applyUpsert vendor db change mirror generation revision now
      | _, _ => .error (.worker "panicked")

/-- `Store::apply`. -/
def Database.apply (db : Database) (bundle : CanonicalBundle vendor) (baseRevision : ℕ) (now : ℤ) :
    Except StoreError (ConfigPlan × Database) := do
  let plan ← planWithConnection db bundle
  if plan.baseRevision ≠ baseRevision then
    throw (.revisionConflict plan.baseRevision)
  enforceQuiescentHighImpactChanges db plan.changes
  let revision := db.revision + 1
  let applied ← plan.changes.foldlM (applyChange bundle revision now) { db with revision }
  return ({ plan with baseRevision := revision }, applied)

end Apply

end LzuMirror
