import LzuMirror.Agent.Irrevocable
import LzuMirror.Agent.Lifetimes

/-!
# What successive records keep

Two relations between the records of an attempt, over every run of the executor,
`reconcile_all`, `cancel`, redelivered commands, crashes and restarts.

An attempt gets one result, provided the executor's commit does not undo its own
preparation: the restoration then ends the attempt, `commit_ready` fails on a
record that has ended, and `finalize` takes the error for a commit that never
started and ends the attempt again.

What the server has acknowledged stays acknowledged, provided the executor is
not overtaken: it merges the cancellation flag into its copy before it writes
it, but not the acknowledgements others have recorded meanwhile.
-/

namespace LzuMirror

namespace Ledger

/-- As long as the file is not retired, all later records follow an earlier one. -/
def Succeed (follows : SpoolRecord → SpoolRecord → Prop) (entries : List LedgerEntry) : Prop :=
  ∀ later entry earlier old, entries = later ++ entry :: earlier → entry.record = some old →
    (∀ next ∈ later, next.record ≠ none) →
      ∀ next ∈ later, ∀ new, next.record = some new → follows old new

theorem Chained.succeed {follows : SpoolRecord → SpoolRecord → Prop} {entries : List LedgerEntry}
    (trans : ∀ first second third, follows first second → follows second third →
      follows first third) (chained : Chained follows entries) : Succeed follows entries := by
  intro later entry earlier old split isOld kept
  induction later generalizing entries with
  | nil =>
      intro next listed
      cases listed
  | cons last rest ih =>
      subst split
      have keptRest : ∀ next ∈ rest, next.record ≠ none :=
        fun next listed => kept next (List.mem_cons_of_mem _ listed)
      have followsRest := ih chained.1 rfl keptRest
      intro next listed new isNew
      rcases List.mem_cons.mp listed with rfl | earlierListed
      · cases rest with
        | nil => exact chained.2 old new isOld isNew
        | cons middle others =>
            -- the record in between is the one that was overwritten
            rcases Option.ne_none_iff_exists'.mp (keptRest middle List.mem_cons_self) with
              ⟨between, isBetween⟩
            have first := followsRest middle List.mem_cons_self between isBetween
            exact trans old between new first (chained.2 between new isBetween isNew)
      · exact followsRest next earlierListed new isNew

theorem Succeed.overwrites {follows : SpoolRecord → SpoolRecord → Prop}
    {entries : List LedgerEntry} {old new : SpoolRecord} (succeeds : Succeed follows entries)
    (isOld : stored entries.tail = some old) (isNew : stored entries = some new) :
    follows old new := by
  cases entries with
  | nil => cases isNew
  | cons last rest =>
      cases rest with
      | nil => cases isOld
      | cons entry earlier =>
          have kept : ∀ next ∈ [last], next.record ≠ none := by
            rintro next listed missing
            cases List.mem_singleton.mp listed
            rw [stored, missing] at isNew
            cases isNew
          exact succeeds [last] entry earlier old rfl isOld kept last (List.mem_singleton.mpr rfl)
            new isNew

/-! ## One result -/

/-- The result of a record that has ended is the result of the other one. -/
def SameResult (old new : SpoolRecord) : Prop :=
  old.state.isTerminal = true →
    new.state = old.state ∧ new.sequence = old.sequence ∧ new.exitCode = old.exitCode ∧
      new.failureKind = old.failureKind ∧ new.failureMessage = old.failureMessage ∧
        new.finishedAt = old.finishedAt

/-- The executor's commit does not undo its own preparation, and recovery is up to date. -/
def settling : Terms where
  writes ledger task record := task = .executor → record.state.isTerminal = true →
    undoing (written ledger.entries) = false
  enters ledger record := ledger.spool = some record

theorem sameResult_tracking : Tracking settling True SameResult where
  refl _ _ := ⟨rfl, rfl, rfl, rfl, rfl, rfl⟩
  trans first second third left right ended := by
    rcases left ended with ⟨state, sequence, exitCode, kind, message, finishedAt⟩
    have middle := right (by rw [state]; exact ended)
    exact ⟨middle.1.trans state, middle.2.1.trans sequence, middle.2.2.1.trans exitCode,
      middle.2.2.2.1.trans kind, middle.2.2.2.2.1.trans message,
      middle.2.2.2.2.2.trans finishedAt⟩
  reports _ _ _ _ _ _ _ _ := ⟨rfl, rfl, rfl, rfl, rfl, rfl⟩
  flags _ _ _ := ⟨rfl, rfl, rfl, rfl, rfl, rfl⟩
  publishes _ _ _ := ⟨rfl, rfl, rfl, rfl, rfl, rfl⟩
  ends record _ _ _ _ _ live ended := by
    rw [live trivial] at ended
    cases ended
  starts _ _ pristine _ _ ended := by
    rw [pristine.2.1] at ended
    cases ended
  permits _ _ _ _ _ _ := .inl trivial
  sound _ _ _ permitted ended := permitted rfl ended
  enters _ _ current := current

/-! ## The acknowledgements -/

/-- Nothing the server has acknowledged is forgotten. -/
def Acknowledges (old new : SpoolRecord) : Prop :=
  old.sequence ≤ new.sequence ∧ old.acknowledgedSequence ≤ new.acknowledgedSequence ∧
    old.logOffset ≤ new.logOffset ∧
      (old.logCompleteAcknowledged = true → new.logCompleteAcknowledged = true)

/-- A record with a new state or a new publication state. -/
def advances (ledger : Ledger) (record : SpoolRecord) : Bool :=
  ledger.spool.any fun old =>
    !(decide (old.sequence = record.sequence) && decide (old.publication = record.publication))

/-- The executor is not overtaken when it writes its copy, and recovery is up to date. -/
def abreast : Terms where
  writes ledger task record := task = .executor → ledger.advances record = true →
    overtaken ledger.entries = false
  enters ledger record := ledger.spool = some record

theorem acknowledges_tracking : Tracking abreast False Acknowledges where
  refl _ := ⟨le_rfl, le_rfl, le_rfl, fun complete => complete⟩
  trans _ _ _ left right := ⟨left.1.trans right.1, left.2.1.trans right.2.1,
    left.2.2.1.trans right.2.2.1, fun complete => right.2.2.2 (left.2.2.2 complete)⟩
  reports _ _ _ _ later further complete := ⟨le_rfl, later, further, complete⟩
  flags _ _ := ⟨le_rfl, le_rfl, le_rfl, fun complete => complete⟩
  publishes _ _ := ⟨le_rfl, le_rfl, le_rfl, fun complete => complete⟩
  ends _ _ _ _ _ _ _ := ⟨Nat.le_succ _, le_rfl, le_rfl, fun complete => complete⟩
  starts old new _ later same := by
    rcases sameAcknowledgements_iff.mp (same.resolve_left id) with ⟨sequence, offset, complete⟩
    exact ⟨later, sequence.le, offset.le, fun isComplete => complete ▸ isComplete⟩
  permits ledger old new permitted isStored moved := by
    refine .inr (permitted rfl ?_)
    rw [advances, isStored]
    rcases moved with moved | moved <;> simp [moved]
  sound _ _ impossible := impossible.elim
  enters _ _ current := current

end Ledger

/-! ## Courses of events -/

namespace Ledger

section Answer

variable (allowed : Ledger → AgentTask → SpoolRecord → Bool)
  (replies : Ledger → (operation : AgentOp) → operation.Reply)

/-- One possible course of events, in which a write that is not allowed blocks the task. -/
def answer (task : AgentTask) (ledger : Ledger) :
    (operation : AgentOp) → Option (operation.Reply × Ledger)
  | .readSpool =>
      match ledger.spool with
      | some record => some (.ok record, ledger)
      | none => some (.error "no such file", ledger)
  | .spoolExists => some (ledger.spool.isSome, ledger)
  | .writeSpool record =>
      if allowed ledger task record then some (.ok (), ledger.add task (some record)) else none
  | .retireSpool =>
      if ledger.spool ≠ none then some (.ok (), ledger.add task none)
      else some (.error "no such file", ledger)
  | .acquire .acceptance copy =>
      if copy.all (fun record => decide (ledger.spool = some record)) && ledger.holder = none then
        some ((), { ledger with holder := some task })
      else none
  | .release .acceptance => some ((), { ledger with holder := none })
  | operation => some (replies ledger operation, ledger)

variable {allowed replies} {terms : Terms}

theorem step_answer
    (writes : ∀ ledger task record, allowed ledger task record = true →
      terms.writes ledger task record)
    (enters : ∀ (ledger : Ledger) record, ledger.spool = some record →
      terms.enters ledger record) (task : AgentTask) (before : Ledger) (operation : AgentOp)
    (reply : operation.Reply) (after : Ledger)
    (answered : answer allowed replies task before operation = some (reply, after)) :
    Step terms task before operation reply after := by
  cases operation with
  | readSpool =>
      rw [answer] at answered
      split at answered
      next record isStored =>
        cases answered
        exact ⟨rfl, .inl ⟨record, isStored, rfl⟩⟩
      next missing =>
        cases answered
        exact ⟨rfl, .inr ⟨missing, _, rfl⟩⟩
  | spoolExists =>
      cases answered
      exact ⟨rfl, rfl⟩
  | writeSpool record =>
      rw [answer, Option.ite_none_right_eq_some] at answered
      rcases answered with ⟨isAllowed, made⟩
      cases made
      exact ⟨writes _ _ _ isAllowed, rfl, rfl⟩
  | retireSpool =>
      rw [answer] at answered
      split at answered
      next present =>
        cases answered
        exact .inl ⟨present, rfl, rfl⟩
      next =>
        cases answered
        exact .inr ⟨⟨_, rfl⟩, .inl rfl⟩
  | acquire lock copy =>
      cases lock with
      | acceptance =>
          rw [answer, Option.ite_none_right_eq_some, Bool.and_eq_true, decide_eq_true_eq]
            at answered
          rcases answered with ⟨⟨current, free⟩, made⟩
          cases made
          refine ⟨?_, free, rfl⟩
          rintro record rfl
          exact enters _ _ (of_decide_eq_true current)
      | active | mirror =>
          cases answered
          rfl
  | release lock =>
      cases lock with
      | acceptance | active | mirror =>
          cases answered
          rfl
  | _ =>
      cases answered
      rfl

end Answer

end Ledger

namespace LedgerPool

open Ledger

variable {config : AgentConfig} {runId : String} {attempt : ℕ} {record : SpoolRecord}
  {pool last : LedgerPool} {up : Bool}

/-- A spool record gets its result once. -/
theorem result_once (begun : pool.Begun config record)
    (lived : LedgerPool.Lives config runId attempt settling pool last up) :
    Succeed SameResult last.state.entries :=
  (begun.secure sameResult_tracking lived).valid.chained.succeed sameResult_tracking.trans

/-- No acknowledgement is lost. -/
theorem acknowledgements_kept (begun : pool.Begun config record)
    (lived : LedgerPool.Lives config runId attempt abreast pool last up) :
    Succeed Acknowledges last.state.entries :=
  (begun.secure acknowledges_tracking lived).valid.chained.succeed acknowledges_tracking.trans

end LedgerPool

namespace Sample

open Ledger

/-- The sample disk, as long as nothing is moved; the candidate appears with the process. -/
def found (ledger : Ledger) (path : PathBuf) : Option FileIdentity :=
  let absent := ledger.spool.any fun record => decide (record.state = .accepted)
  if absent && (path = demo.candidatePath || path = .ofText "/p/demo/attempts/R-1/basis") then none
  else disk.fs path

/-- The process fails, or the disk is full when it has succeeded. -/
def replies (full : Bool) (ledger : Ledger) : (operation : AgentOp) → operation.Reply
  | .identityIfExists path => .ok (found ledger path)
  | .awaitOutcome _ => .process (.ok ⟨some (if full then 0 else 23)⟩)
  | .createDirAll path =>
      if full && path = demo.gcPath then .error "no space left on device" else .ok ()
  | .createDir _ | .symlink _ _ | .renameNoreplace _ _ | .exchangePaths _ _ => .ok ()
  | operation => (disk.answer fresh operation).1

/-- The attempt was just accepted. -/
def begun : LedgerPool where
  tasks
    | .executor => Service.runAccepted config accepted
    | .reconciler | .poller => .pure ()
  state := ⟨[⟨.executor, some accepted⟩], none⟩

/-- The next operations of one task on the ledger. -/
def follow (allowed : Ledger → AgentTask → SpoolRecord → Bool) (full : Bool) (task : AgentTask)
    (operations : ℕ) (pool : LedgerPool) : LedgerPool :=
  (Pool.runTask (Ledger.answer allowed (replies full)) task operations pool).getD pool

theorem begins : begun.Begun config accepted where
  entries := rfl
  pristine := ⟨rfl, rfl, rfl⟩
  unfenced := by decide
  free := rfl
  executor := rfl
  idle := by
    rintro (_ | _ | _) other
    · exact absurd rfl other
    · rfl
    · rfl

theorem lives_follow {terms : Terms} {allowed : Ledger → AgentTask → SpoolRecord → Bool}
    {current : LedgerPool} (full : Bool) (task : AgentTask) (operations : ℕ)
    (writes : ∀ ledger task record, allowed ledger task record = true →
      terms.writes ledger task record)
    (enters : ∀ (ledger : Ledger) record, ledger.spool = some record →
      terms.enters ledger record)
    (lived : LedgerPool.Lives config "R" 1 terms begun current true) :
    LedgerPool.Lives config "R" 1 terms begun (follow allowed full task operations current)
      true := by
  unfold follow
  cases ran : Pool.runTask (Ledger.answer allowed (replies full)) task operations current with
  | none => exact lived
  | some after =>
      have moves := @Pool.move_runTask _ _ _ _ _ _ (Ledger.Attends config "R" 1) _
        (Ledger.step_answer writes enters) _ _ _ _ ran
      rw [Option.getD_some]
      clear ran
      induction moves with
      | refl => exact lived
      | tail _ moved ih => exact .move ih moved

/-- Without a condition on the executor. -/
def unrestricted : Terms where
  writes _ _ _ := True
  enters ledger record := ledger.spool = some record

def always : Ledger → AgentTask → SpoolRecord → Bool := fun _ _ _ => true

/-- Nothing that undoes a preparation of the same commit. -/
def settles (ledger : Ledger) (task : AgentTask) (record : SpoolRecord) : Bool :=
  !(decide (task = .executor) && record.state.isTerminal &&
    Ledger.undoing (written ledger.entries))

/-- Nothing overtaken. -/
def isAbreast (ledger : Ledger) (task : AgentTask) (record : SpoolRecord) : Bool :=
  !(decide (task = .executor) && ledger.advances record && Ledger.overtaken ledger.entries)

/-- The process fails, and the attempt is reported and retired. -/
def reported (allowed : Ledger → AgentTask → SpoolRecord → Bool) : LedgerPool :=
  follow allowed false .executor 200 begun

/-- The commit turns around on a full disk. -/
def turned : LedgerPool := follow always true .executor 52 begun

/-- While the process runs, `reconcile_all` reports that it does. -/
def acknowledged : LedgerPool :=
  let started := follow always false .executor 26 begun
  follow always false .reconciler 20
    ⟨Function.update started.tasks .reconciler (Service.reconcileAll config), started.state⟩

/-- The process ends, and the executor writes its copy. -/
def forgotten : LedgerPool := follow always false .executor 8 acknowledged

end Sample

namespace LedgerPool

open Ledger

/-- An attempt whose process fails gets its result, which is then reported and retired. -/
theorem result_once_reported :
    (Sample.reported Sample.settles).state.entries.length = 7 ∧
      Succeed SameResult (Sample.reported Sample.settles).state.entries := by
  have writes : ∀ ledger task record, Sample.settles ledger task record = true →
      settling.writes ledger task record := by
    intro ledger task record settles executor ended
    simpa [Sample.settles, executor, ended] using settles
  have lived : LedgerPool.Lives Sample.config "R" 1 settling Sample.begun
      (Sample.reported Sample.settles) true :=
    Sample.lives_follow false .executor 200 writes (fun _ _ current => current) .start
  exact ⟨by decide +kernel, result_once Sample.begins lived⟩

/-- On a full disk the attempt ends with one result and then with another one. -/
theorem turned_commit_ends_twice :
    Sample.begun.Begun Sample.config Sample.accepted ∧
      LedgerPool.Lives Sample.config "R" 1 Sample.unrestricted Sample.begun Sample.turned true ∧
        ¬Succeed SameResult Sample.turned.state.entries := by
  refine ⟨Sample.begins, ?_, fun succeeds => ?_⟩
  · exact Sample.lives_follow true .executor 52 (fun _ _ _ _ => trivial)
      (fun _ _ current => current) .start
  have before : (stored Sample.turned.state.entries.tail).map
      (fun record => (record.state.isTerminal, record.sequence)) = some (true, 3) := by
    decide +kernel
  have after : (stored Sample.turned.state.entries).map (·.sequence) = some 4 := by
    decide +kernel
  rcases Option.map_eq_some_iff.mp before with ⟨old, isOld, was⟩
  rcases Option.map_eq_some_iff.mp after with ⟨new, isNew, became⟩
  rw [Prod.mk.injEq] at was
  have same := (succeeds.overwrites isOld isNew was.1).2.1
  rw [became, was.2] at same
  cases same

/-- The acknowledgements of an attempt whose process fails are kept until it is retired. -/
theorem acknowledgements_kept_reported :
    (Sample.reported Sample.isAbreast).state.entries.length = 7 ∧
      Succeed Acknowledges (Sample.reported Sample.isAbreast).state.entries := by
  have writes : ∀ ledger task record, Sample.isAbreast ledger task record = true →
      abreast.writes ledger task record := by
    intro ledger task record isAbreast executor advances
    simpa [Sample.isAbreast, executor, advances] using isAbreast
  have lived : LedgerPool.Lives Sample.config "R" 1 abreast Sample.begun
      (Sample.reported Sample.isAbreast) true :=
    Sample.lives_follow false .executor 200 writes (fun _ _ current => current) .start
  exact ⟨by decide +kernel, acknowledgements_kept Sample.begins lived⟩

/-- The executor's copy forgets what was acknowledged while the process ran. -/
theorem overtaken_copy_forgets_acknowledgement :
    Sample.begun.Begun Sample.config Sample.accepted ∧
      LedgerPool.Lives Sample.config "R" 1 Sample.unrestricted Sample.begun Sample.forgotten
        true ∧ ¬Succeed Acknowledges Sample.forgotten.state.entries := by
  refine ⟨Sample.begins, ?_, fun succeeds => ?_⟩
  · have follows : ∀ (task : AgentTask) (operations : ℕ) (current : LedgerPool),
        LedgerPool.Lives Sample.config "R" 1 Sample.unrestricted Sample.begun current true →
          LedgerPool.Lives Sample.config "R" 1 Sample.unrestricted Sample.begun
            (Sample.follow Sample.always false task operations current) true := by
      intro task operations current
      exact Sample.lives_follow false task operations (fun _ _ _ _ => trivial)
        (fun _ _ current => current)
    have started := follows .executor 26 Sample.begun .start
    have acknowledged : LedgerPool.Lives Sample.config "R" 1 Sample.unrestricted Sample.begun
        Sample.acknowledged true :=
      follows .reconciler 20 _ (.move started (.start (by rfl) .reconcileAll))
    exact follows .executor 8 _ acknowledged
  have before : (stored Sample.forgotten.state.entries.tail).map (·.acknowledgedSequence) =
      some 2 := by decide +kernel
  have after : (stored Sample.forgotten.state.entries).map (·.acknowledgedSequence) =
      some 1 := by decide +kernel
  rcases Option.map_eq_some_iff.mp before with ⟨old, isOld, was⟩
  rcases Option.map_eq_some_iff.mp after with ⟨new, isNew, became⟩
  have kept := (succeeds.overwrites isOld isNew).2.1
  rw [was, became] at kept
  exact absurd kept (by decide)

end LedgerPool

end LzuMirror
