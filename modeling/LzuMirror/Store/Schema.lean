import LzuMirror.Core.Config
import LzuMirror.Lib.Table

/-!
# The schema of the central store

The rows of `crates/lmt-store/migrations` that the control-plane operations read
and write, and the database made of them. Primary keys are kept by `Table`; the
two unique indexes on `runs` are checked by `Database.insertRun`.

Enumerations stand for their column texts. `attempts.spec_json` is kept as the
specification it encodes, and `config_revisions` as its highest revision, the
only part of it that is read back.
-/

namespace LzuMirror

/-- `RunTrigger`. -/
inductive RunTrigger where
  | manual
  | scheduled
  deriving DecidableEq, Repr

/-- A row of `mirrors`. -/
structure MirrorRow where
  name : String
  managed : Bool
  enabled : Bool
  ownerNode : String
  currentGeneration : ℕ
  removedAtMs : Option ℤ
  deriving DecidableEq, Repr

/-- A row of `mirror_generations`. -/
structure GenerationRow where
  mirrorName : String
  generation : ℕ
  configRevision : ℕ
  ownerNode : String
  configHash : String
  configToml : String
  createdAtMs : ℤ
  deriving DecidableEq, Repr

/-- A row of `mirror_schedule_state`. -/
structure ScheduleRow where
  mirrorName : String
  scheduleHash : Option String
  runtime : ScheduleRuntime
  deriving DecidableEq, Repr

/-- A row of `nodes`. -/
structure NodeRow where
  name : String
  agentInstanceId : Option String
  boundAgentId : Option String
  agentBootId : Option String
  lastSeenAtMs : Option ℤ
  activeRuns : ℕ
  maxConcurrentRuns : ℕ
  deriving DecidableEq, Repr

/-- A row of `runs`. -/
structure RunRow where
  id : String
  mirrorName : String
  mirrorGeneration : ℕ
  ownerNode : String
  trigger : RunTrigger
  state : RunState
  createdAtMs : ℤ
  startedAtMs : Option ℤ
  finishedAtMs : Option ℤ
  maxAttempts : ℕ
  retryDelayMs : ℕ
  attemptCount : ℕ
  finalExitCode : Option ℤ
  failureKind : Option String
  failureMessage : Option String
  cancelRequestedAtMs : Option ℤ
  manualRequestId : Option String
  scheduledForAtMs : Option ℤ
  retryDueAtMs : Option ℤ
  deriving DecidableEq, Repr

/-- A row of `attempts`. -/
structure AttemptRow where
  runId : String
  attemptNo : ℕ
  state : AttemptState
  specHash : String
  spec : ProcessRunSpec
  createdAtMs : ℤ
  acceptedAtMs : Option ℤ
  startedAtMs : Option ℤ
  finishedAtMs : Option ℤ
  agentInstanceId : Option String
  exitCode : Option ℤ
  failureKind : Option String
  failureMessage : Option String
  lastEventSequence : ℕ
  dispatchCount : ℕ
  lastDispatchAtMs : Option ℤ
  deriving DecidableEq, Repr

/-- `PRIMARY KEY(mirror_name, generation)`. -/
def GenerationRow.key (row : GenerationRow) : String × ℕ := (row.mirrorName, row.generation)

/-- `PRIMARY KEY(run_id, attempt_no)`: the execution key of the attempt. -/
def AttemptRow.key (row : AttemptRow) : String × ℕ := (row.runId, row.attemptNo)

/-- The central database. -/
structure Database where
  revision : ℕ
  mirrors : Table MirrorRow.name
  generations : Table GenerationRow.key
  schedules : Table ScheduleRow.mirrorName
  nodes : Table NodeRow.name
  runs : Table RunRow.id
  attempts : Table AttemptRow.key

/-- The database right after the migrations. -/
def Database.empty : Database :=
  ⟨0, Table.empty, Table.empty, Table.empty, Table.empty, Table.empty, Table.empty⟩

/-- `StoreError`. -/
inductive StoreError where
  | database
  | worker (message : String)
  | invalidConfig (message : String)
  | revisionConflict (current : ℕ)
  | mirrorNotFound
  | mirrorIneligible
  | mirrorBusy (runId : String)
  | requestConflict
  | attemptNotFound
  | agentBindingConflict (boundAgentId presentedAgentId : String)
  | bindingReplacementUnsafe
  | illegalTransition (source target : AttemptState)
  | credentialNotFound
  deriving DecidableEq, Repr

namespace Database

/-- `EXISTS(SELECT 1 FROM runs WHERE mirror_name=? AND state IN('pending','running'))`. -/
def hasActiveRun (db : Database) (mirror : String) : Bool :=
  db.runs.any fun run => decide (run.mirrorName = mirror) && run.state.isActive

/-- The row of `mirrors` joined with its current generation. -/
def currentGeneration (db : Database) (mirror : String) : Option (MirrorRow × GenerationRow) := do
  let row ← db.mirrors.find? mirror
  let generation ← db.generations.find? (row.name, row.currentGeneration)
  return (row, generation)

/--
`INSERT INTO runs`. It fails on a used id, on a used `manual_request_id`, and on
the partial index `one_active_run_per_mirror`.
-/
def insertRun (db : Database) (run : RunRow) : Except StoreError Database :=
  if run.state.isActive && db.hasActiveRun run.mirrorName then .error .database
  else if run.manualRequestId.isSome &&
      db.runs.any (fun other => decide (other.manualRequestId = run.manualRequestId)) then
    .error .database
  else
    match db.runs.insert? run with
    | none => .error .database
    | some runs => .ok { db with runs }

/-- `INSERT INTO attempts`. -/
def insertAttempt (db : Database) (attempt : AttemptRow) : Except StoreError Database :=
  match db.attempts.insert? attempt with
  | none => .error .database
  | some attempts => .ok { db with attempts }

theorem hasActiveRun_eq_true {db : Database} {mirror : String} :
    db.hasActiveRun mirror = true ↔
      ∃ run ∈ db.runs, run.mirrorName = mirror ∧ run.state.isActive = true := by
  simp [hasActiveRun]

theorem hasActiveRun_eq_false {db : Database} {mirror : String} :
    db.hasActiveRun mirror = false ↔
      ∀ run ∈ db.runs, run.mirrorName = mirror → run.state.isActive = false := by
  simp [hasActiveRun]

theorem currentGeneration_eq_some {db : Database} {mirror : String} {row : MirrorRow}
    {generation : GenerationRow} :
    db.currentGeneration mirror = some (row, generation) ↔
      row ∈ db.mirrors ∧ row.name = mirror ∧ generation ∈ db.generations ∧
        generation.mirrorName = mirror ∧ generation.generation = row.currentGeneration := by
  simp only [currentGeneration, Option.bind_eq_bind, Option.bind_eq_some_iff,
    Table.find?_eq_some_iff, Option.pure_def, Option.some.injEq, Prod.mk.injEq]
  constructor
  · rintro ⟨_, ⟨rowMem, named⟩, _, ⟨generationMem, keyed⟩, rfl, rfl⟩
    obtain ⟨mirrorKey, generationKey⟩ := Prod.mk.inj keyed
    exact ⟨rowMem, named, generationMem, mirrorKey.trans named, generationKey⟩
  · rintro ⟨rowMem, rfl, generationMem, mirrorKey, generationKey⟩
    exact ⟨row, ⟨rowMem, rfl⟩, generation, ⟨generationMem, Prod.ext mirrorKey generationKey⟩,
      rfl, rfl⟩

/-- What a successful insertion into `runs` knew and did. -/
theorem insertRun_eq_ok {db after : Database} {run : RunRow}
    (inserted : db.insertRun run = .ok after) :
    (run.state.isActive = true → db.hasActiveRun run.mirrorName = false) ∧
      (∀ other ∈ db.runs, other.id ≠ run.id) ∧
      ∃ runs, after = { db with runs } ∧ ∀ other, other ∈ runs ↔ other ∈ db.runs ∨ other = run := by
  unfold insertRun at inserted
  split at inserted
  · cases inserted
  next notBusy =>
    split at inserted
    · cases inserted
    · split at inserted
      · cases inserted
      next runs stored =>
        cases inserted
        have ⟨fresh, members⟩ := Table.insert?_eq_some stored
        refine ⟨?_, fresh, runs, rfl, members⟩
        intro active
        simpa [active] using notBusy

/-- What a successful insertion into `attempts` knew and did. -/
theorem insertAttempt_eq_ok {db after : Database} {attempt : AttemptRow}
    (inserted : db.insertAttempt attempt = .ok after) :
    (∀ other ∈ db.attempts, other.key ≠ attempt.key) ∧
      ∃ attempts, after = { db with attempts } ∧
        ∀ other, other ∈ attempts ↔ other ∈ db.attempts ∨ other = attempt := by
  unfold insertAttempt at inserted
  split at inserted
  · cases inserted
  next attempts stored =>
    cases inserted
    have ⟨fresh, members⟩ := Table.insert?_eq_some stored
    exact ⟨fresh, attempts, rfl, members⟩

end Database

end LzuMirror
