import LzuMirror.Store.Binding
import LzuMirror.Store.Intervals
import LzuMirror.Store.Numbering

/-!
# Normalisation of a restored database

`normalize_restored_database` (`crates/lmt-store/src/lib.rs`) ends whatever the
snapshot was working on, so that nothing of it is dispatched again. It leaves
the schedules alone. An interval whose firing was in the hands of a run at the
time of the backup is not re-armed: the end of the run that would have done so
is the one that the normalisation itself writes.
-/

namespace LzuMirror

/-- A row of `node_credentials`. -/
structure CredentialRow where
  nodeName : String
  credentialId : String
  tokenHash : String
  createdAtMs : ℤ
  revokedAtMs : Option ℤ
  label : Option String
  lastUsedAtMs : Option ℤ
  deriving DecidableEq, Repr

def CredentialRow.key (row : CredentialRow) : String × String := (row.nodeName, row.credentialId)

/-- A backup of the control plane: the store and the credentials kept beside it. -/
structure Snapshot where
  database : Database
  credentials : Table CredentialRow.key

namespace Database

/-- `UPDATE attempts … WHERE state IN('queued','accepted','running')`. -/
def interruptAttempts (db : Database) (restoredAtMs : ℤ) : Database :=
  { db with
    attempts := db.attempts.update
      (fun attempt => decide (attempt.state ∈ [AttemptState.queued, .accepted, .running]))
      (fun attempt => { attempt with
        state := .interrupted
        finishedAtMs := some restoredAtMs
        exitCode := none
        failureKind := some FailureKind.interrupted.str
        failureMessage := some "interrupted by offline control-plane restore" }) }

/-- An attempt of the run has been dispatched. -/
def wasDispatched (db : Database) (run : RunRow) : Bool :=
  db.attempts.any fun attempt =>
    decide (attempt.runId = run.id) && decide (attempt.dispatchCount > 0)

/-- `UPDATE runs … WHERE state='pending' AND NOT EXISTS(…)`. -/
def cancelUndispatchedRuns (db : Database) (restoredAtMs : ℤ) : Database :=
  { db with
    runs := db.runs.update
      (fun run => decide (run.state = RunState.pending) && !db.wasDispatched run)
      (fun run => { run with
        state := .cancelled
        finishedAtMs := some restoredAtMs
        retryDueAtMs := none
        finalExitCode := none
        failureKind := none
        failureMessage := some "cancelled by offline control-plane restore before dispatch" }) }

/-- `UPDATE runs … WHERE state IN('pending','running')`. -/
def interruptRuns (db : Database) (restoredAtMs : ℤ) : Database :=
  { db with
    runs := db.runs.update
      (fun run => decide (run.state ∈ [RunState.pending, .running]))
      (fun run => { run with
        state := .failed
        finishedAtMs := some restoredAtMs
        retryDueAtMs := none
        finalExitCode := none
        failureKind := some FailureKind.interrupted.str
        failureMessage := some "interrupted by offline control-plane restore" }) }

/-- `UPDATE nodes SET active_runs=0,agent_instance_id=NULL,agent_boot_id=NULL`. -/
def resetNodes (db : Database) : Database :=
  { db with
    nodes := db.nodes.update (fun _ => true)
      (fun node => { node with activeRuns := 0, agentInstanceId := none, agentBootId := none }) }

/-- `normalize_restored_database`, on a snapshot with the current schema. -/
def normalizeRestored (db : Database) (restoredAtMs : ℤ) : Database :=
  (((db.interruptAttempts restoredAtMs).cancelUndispatchedRuns restoredAtMs).interruptRuns
    restoredAtMs).resetNodes

end Database

def Snapshot.normalizeRestored (snapshot : Snapshot) (restoredAtMs : ℤ) : Snapshot :=
  { snapshot with database := snapshot.database.normalizeRestored restoredAtMs }

def PollAction.runId : PollAction → String
  | .startAttempt runId _ _ _ _ => runId
  | .cancelAttempt runId _ _ => runId

/-- The due time or the due marker of every interval is set. -/
def Database.IntervalsPending (vendor : Vendor) (db : Database) : Prop :=
  ∀ mirror, db.Timed vendor mirror →
    ∃ schedule ∈ db.schedules, schedule.mirrorName = mirror ∧ schedule.isPending = true

/-- What a restored control plane has to be, compared with its snapshot. -/
structure Snapshot.Normalised (vendor : Vendor) (before after : Snapshot) : Prop where
  runsEnded : ∀ run ∈ after.database.runs, run.state.isActive = false
  attemptsEnded : ∀ attempt ∈ after.database.attempts, attempt.state.isTerminal = true
  noRetry : ∀ run ∈ after.database.runs, run.retryDueAtMs = none
  runs : Table.Rowwise
    (fun old new => new.id = old.id ∧ (old.state.isActive = false → new = old))
    before.database.runs after.database.runs
  attempts : Table.Rowwise
    (fun old new => new.key = old.key ∧ (old.state.isTerminal = true → new = old))
    before.database.attempts after.database.attempts
  revision : after.database.revision = before.database.revision
  mirrors : after.database.mirrors = before.database.mirrors
  generations : after.database.generations = before.database.generations
  credentials : after.credentials = before.credentials
  -- no poll answers with a run of the snapshot, at once or after any further transactions
  silent : ∀ later, Relation.ReflTransGen (StoreStep fun _ (_ : StoreOp vendor) => True)
    after.database later → ∀ node now newRunId compile action next,
      later.pollAction node now newRunId compile = .ok (some action, next) →
        ∀ run ∈ before.database.runs, action.runId ≠ run.id
  intervals : after.database.IntervalsPending vendor

section Silence

variable {vendor : Vendor} {db after : Database}

/-- A poll does not answer with a run that has ended. -/
theorem Database.Polls.runId_ne {node : String} {now : ℤ} {action : PollAction} {run : RunRow}
    {compile : DispatchSource → Except StoreError (Option CompiledDispatch)}
    (polls : db.Polls node now compile (some action) after) (mem : run ∈ db.runs)
    (ended : run.state.isActive = false) : action.runId ≠ run.id := by
  have inactive : ∀ other ∈ db.runs, other.state.isActive = true → other.id ≠ run.id := by
    intro other otherMem active same
    rw [Table.eq_of_key_eq otherMem mem same, ended] at active
    cases active
  generalize answered : some action = answer at polls
  cases polls with
  | nothing => cases answered
  | cancel _ runMem owned active =>
      cases answered
      exact owned ▸ inactive _ runMem active
  | redeliver _ _ runMem owned active =>
      cases answered
      exact owned ▸ inactive _ runMem active
  | dispatch selects _ _ _ persists =>
      rcases Database.persistDispatch_eq_ok persists with ⟨_, started, _⟩
      rw [started] at answered
      cases answered
      cases selects with
      | manual runMem pending => exact inactive _ runMem (by rw [pending]; rfl)
      | retry runMem running => exact inactive _ runMem (by rw [running]; rfl)
      | scheduled inserts =>
          rcases inserts.inserted with ⟨middle, inserted, _⟩
          exact ((Database.insertRun_eq_ok inserted).2.1 run mem).symm

/-- A run that has ended stays so. -/
theorem steps_ended {allowed : Database → StoreOp vendor → Prop} {run : RunRow}
    (steps : Relation.ReflTransGen (StoreStep allowed) db after) (mem : run ∈ db.runs)
    (ended : run.state.isActive = false) :
    ∃ later ∈ after.runs, later.id = run.id ∧ later.state.isActive = false := by
  induction steps with
  | refl => exact ⟨run, mem, rfl, ended⟩
  | tail _ step ih =>
      rcases step with ⟨operation, _, rfl⟩
      rcases ih with ⟨middle, middleMem, same, middleEnded⟩
      rcases (operation.persists _).runs middle middleMem with ⟨later, laterMem, follows⟩
      refine ⟨later, laterMem, follows.id.trans same, ?_⟩
      cases active : later.state.isActive with
      | false => rfl
      | true => rw [follows.active active] at middleEnded; cases middleEnded

end Silence

theorem RunState.isActive_eq (state : RunState) :
    decide (state ∈ [RunState.pending, .running]) = state.isActive := by
  cases state <;> rfl

theorem AttemptState.isTerminal_eq (state : AttemptState) :
    decide (state ∈ [AttemptState.queued, .accepted, .running]) = !state.isTerminal := by
  cases state <;> rfl

section Normalisation

variable {vendor : Vendor} {db : Database} {restoredAtMs : ℤ}

/-- What the two updates of `runs` make of a row. -/
theorem normalizeRestored_runs (db : Database) (restoredAtMs : ℤ) :
    Table.Rowwise
      (fun old new => new.id = old.id ∧ new.state.isActive = false ∧
        (old.state.isActive = true → new.retryDueAtMs = none) ∧
        (old.state.isActive = false → new = old))
      db.runs (db.normalizeRestored restoredAtMs).runs := by
  have cancelled : Table.Rowwise
      (fun old new => new.id = old.id ∧ (new = old ∨ old.state.isActive = true ∧
        new.state.isActive = false ∧ new.retryDueAtMs = none))
      db.runs ((db.interruptAttempts restoredAtMs).cancelUndispatchedRuns restoredAtMs).runs := by
    apply Table.rowwise_of_map rfl
    intro run _
    split
    next matched =>
      simp only [Bool.and_eq_true, decide_eq_true_eq] at matched
      exact ⟨rfl, .inr ⟨by rw [matched.1]; rfl, rfl, rfl⟩⟩
    next => exact ⟨rfl, .inl rfl⟩
  have interrupted : Table.Rowwise
      (fun old new => new.id = old.id ∧ new.state.isActive = false ∧
        (old.state.isActive = true → new.retryDueAtMs = none) ∧
        (old.state.isActive = false → new = old))
      ((db.interruptAttempts restoredAtMs).cancelUndispatchedRuns restoredAtMs).runs
      (db.normalizeRestored restoredAtMs).runs := by
    apply Table.rowwise_of_map rfl
    intro run _
    split
    next matched =>
      simp only [RunState.isActive_eq] at matched
      exact ⟨rfl, rfl, fun _ => rfl, fun ended => by simp [ended] at matched⟩
    next ended =>
      simp only [RunState.isActive_eq, Bool.not_eq_true] at ended
      exact ⟨rfl, ended, fun active => by simp [ended] at active, fun _ => rfl⟩
  apply (cancelled.comp interrupted).imp
  rintro old new ⟨middle, ⟨same, cases⟩, laterSame, ended, unscheduled, kept⟩
  refine ⟨laterSame.trans same, ended, ?_, ?_⟩
  · intro active
    rcases cases with rfl | ⟨_, middleEnded, none⟩
    · exact unscheduled active
    · rw [kept middleEnded]
      exact none
  · intro oldEnded
    rcases cases with rfl | ⟨active, _, _⟩
    · exact kept oldEnded
    · simp [oldEnded] at active

theorem normalizeRestored_attempts (db : Database) (restoredAtMs : ℤ) :
    Table.Rowwise
      (fun old new => new.key = old.key ∧ new.state.isTerminal = true ∧
        (old.state.isTerminal = true → new = old))
      db.attempts (db.normalizeRestored restoredAtMs).attempts := by
  apply Table.rowwise_of_map rfl
  intro attempt _
  split
  next matched =>
    simp only [AttemptState.isTerminal_eq] at matched
    exact ⟨rfl, rfl, fun ended => by simp [ended] at matched⟩
  next ended =>
    simp only [AttemptState.isTerminal_eq, Bool.not_eq_true, Bool.not_eq_false'] at ended
    exact ⟨rfl, ended, fun _ => rfl⟩

/-- The schedules are left alone, and so is what they are read against. -/
theorem intervalsPending_normalizeRestored :
    (db.normalizeRestored restoredAtMs).IntervalsPending vendor ↔ db.IntervalsPending vendor := by
  have timed : ∀ mirror, (db.normalizeRestored restoredAtMs).Timed vendor mirror ↔
      db.Timed vendor mirror := fun mirror => ⟨(·.congr rfl rfl), (·.congr rfl rfl)⟩
  simp only [Database.IntervalsPending, timed]
  rfl

/--
For every snapshot that the online operations can leave, the normalisation does
all it has to do if and only if no interval of the snapshot had been fired and
was waiting to be re-armed by a run.
-/
theorem normalised_iff_intervals_pending {snapshot : Snapshot}
    (reachable : Reachable vendor snapshot.database) (restoredAtMs : ℤ) :
    snapshot.Normalised vendor (snapshot.normalizeRestored restoredAtMs) ↔
      snapshot.database.IntervalsPending vendor := by
  constructor
  · intro normalised
    exact intervalsPending_normalizeRestored.mp normalised.intervals
  · intro pending
    have runs := normalizeRestored_runs snapshot.database restoredAtMs
    have attempts := normalizeRestored_attempts snapshot.database restoredAtMs
    refine {
      runsEnded := ?_
      attemptsEnded := ?_
      noRetry := ?_
      runs := runs.imp fun _ _ row => ⟨row.1, row.2.2.2⟩
      attempts := attempts.imp fun _ _ row => ⟨row.1, row.2.2⟩
      revision := rfl
      mirrors := rfl
      generations := rfl
      credentials := rfl
      silent := ?_
      intervals := intervalsPending_normalizeRestored.mpr pending }
    · intro run mem
      rcases runs.origin mem with ⟨_, _, _, ended, _⟩
      exact ended
    · intro attempt mem
      rcases attempts.origin mem with ⟨_, _, _, ended, _⟩
      exact ended
    · intro run mem
      rcases runs.origin mem with ⟨old, oldMem, _, _, unscheduled, kept⟩
      cases active : old.state.isActive with
      | true => exact unscheduled active
      | false =>
          -- only a running run waits for a retry
          rw [kept active]
          have waiting := (ReachableBy.budgeted reachable).numbered.waiting old oldMem
          cases due : old.retryDueAtMs with
          | none => rfl
          | some time =>
              rw [waiting (by rw [due]; rfl)] at active
              cases active
    · intro later steps node now newRunId compile action next polled run mem
      rcases runs.successor mem with ⟨restored, restoredMem, same, ended, _⟩
      rcases steps_ended steps restoredMem ended with ⟨last, lastMem, lastSame, lastEnded⟩
      rw [← same, ← lastSame]
      exact (Database.pollAction_eq_ok polled).runId_ne lastMem lastEnded

end Normalisation

/-- A manual run is at work while its mirror waits for the next due time. -/
def Sample.manualAtWork : Snapshot where
  database := StoreOp.runAll .empty
    [.apply (gammaBundle nodeA) 0 1000,
      .createManualRun "gamma" "request-1" 2000 "run-1",
      .pollAction "node-a" atomicAgent 3000 "run-2"]
  credentials := Table.empty

theorem normalised_manualAtWork :
    Sample.manualAtWork.database.runs.any (fun run => run.state.isActive) = true ∧
    Sample.manualAtWork.Normalised Sample.timedVendor
      (Sample.manualAtWork.normalizeRestored 9000) := by
  refine ⟨by decide +kernel, (normalised_iff_intervals_pending (Reachable.runAll _) 9000).mpr ?_⟩
  intro mirror timed
  rcases timed with ⟨row, generation, document, text, current, _⟩
  rcases Database.currentGeneration_eq_some.mp current with ⟨rowMem, named, _⟩
  have pending : ∀ row ∈ Sample.manualAtWork.database.mirrors.rows,
      Sample.manualAtWork.database.schedules.any (fun schedule =>
        decide (schedule.mirrorName = row.name) && schedule.isPending) = true := by
    decide +kernel
  simpa [Table.any_eq_true, named] using pending row rowMem

/-- The interval has fired and its run is at work. -/
def Sample.scheduledAtWork : Snapshot where
  database := StoreOp.runAll .empty
    [.apply (gammaBundle nodeA) 0 1000,
      .evaluateDueSchedules 3601000,
      .pollAction "node-a" atomicAgent 3602000 "run-1"]
  credentials := Table.empty

/-- The restored control plane never runs the mirror again. -/
theorem restored_interval_is_lost :
    ¬∀ (snapshot : Snapshot) (restoredAtMs : ℤ), Reachable Sample.timedVendor snapshot.database →
      snapshot.Normalised Sample.timedVendor (snapshot.normalizeRestored restoredAtMs) := by
  intro claimed
  have normalised := claimed Sample.scheduledAtWork 9000 (Reachable.runAll _)
  have timed : (Sample.scheduledAtWork.normalizeRestored 9000).database.Timed Sample.timedVendor
      "gamma" := Database.timed_iff.mpr (by decide +kernel)
  rcases normalised.intervals "gamma" timed with ⟨schedule, mem, _, pending⟩
  have idle : ∀ schedule ∈
      (Sample.scheduledAtWork.normalizeRestored 9000).database.schedules.rows,
        schedule.isPending = false := by decide +kernel
  simp [idle schedule mem] at pending

end LzuMirror
