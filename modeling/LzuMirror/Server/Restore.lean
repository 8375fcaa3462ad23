import LzuMirror.Lib.Program
import LzuMirror.Store.Normalization

/-!
# Offline restore

`restore_with_installer` (`apps/lmt-server/src/main.rs`) as a program of file
operations. A database is a main file with its `-wal` and `-shm` files; what it
holds is the image of the main file with the committed transactions of the log.
Any operation may fail, and a run may be cut off anywhere by a crash.

The old main file is renamed away before the new one is renamed in its place.
Between the two renames the configured path is absent, and the rollback covers
only the failures of the second part: the synchronisation of the directory right
after the first rename returns early.
-/

namespace LzuMirror

namespace Restore

/-- Which of the two databases a file belongs to. -/
inductive Lineage where
  | previous
  | restored
  deriving DecidableEq, Repr

structure MainFile where
  lineage : Lineage
  image : Snapshot

/-- A write-ahead log with the committed transactions that the main file does not have yet. -/
structure WalFile where
  lineage : Lineage
  frames : List (Snapshot → Snapshot)

/-- A main file and its sidecars. -/
structure FileSet where
  main : Option MainFile
  wal : Option WalFile
  shm : Option Lineage

def FileSet.frames (files : FileSet) : List (Snapshot → Snapshot) :=
  (files.wal.map WalFile.frames).getD []

/-- What a connection to the database reads. -/
def FileSet.content (files : FileSet) : Option Snapshot :=
  files.main.map fun main => files.frames.foldl (fun snapshot commit => commit snapshot) main.image

/-- The names in the directory of the database; `archived` and `failed` are made up for the run. -/
inductive Place where
  | database
  | temporary
  | archived
  | failed
  deriving DecidableEq, Repr

inductive Sidecar where
  | wal
  | shm
  deriving DecidableEq, Repr

abbrev Directory := Place → FileSet

def FileSet.remove (files : FileSet) : Sidecar → FileSet
  | .wal => { files with wal := none }
  | .shm => { files with shm := none }

/-- `rename` of a main file. -/
def Directory.move (files : Directory) (source target : Place) (main : MainFile) : Directory :=
  Function.update (Function.update files source { files source with main := none }) target
    { files target with main := some main }

/-- The operations that answer `Ok(())` or an error. -/
inductive FileAction where
  | verifyFile
  | createDirAll
  | copy
  | verifyPath
  | normalize (restoredAtMs : ℤ)
  | syncFile (place : Place)
  | removeIfPresent (place : Place) (sidecar : Sidecar)
  | removeTemporary
  | checkpoint
  | rename (source target : Place)
  | syncParent
  deriving DecidableEq, Repr

inductive RestoreOp where
  | exists (place : Place)
  | now
  | act (action : FileAction)
  deriving DecidableEq, Repr

abbrev RestoreOp.Reply : RestoreOp → Type
  | .exists _ => Bool
  | .now => Except String ℤ
  | .act _ => Except String Unit

abbrev RestoreM := ExceptT String (Program RestoreOp RestoreOp.Reply)

def act (action : FileAction) : RestoreM Unit :=
  ExceptT.mk (.request (RestoreOp.act action))

/-- `Path::exists`, which is false when the file cannot be examined. -/
def pathExists (place : Place) : RestoreM Bool :=
  ExceptT.lift (.request (RestoreOp.exists place))

def now : RestoreM ℤ :=
  ExceptT.mk (.request RestoreOp.now)

/-- `checkpoint_current_database`. -/
def checkpointCurrentDatabase : RestoreM Unit := do
  if ← pathExists .database then
    act .checkpoint
    act (.syncFile .database)
    act .syncParent

/-- The verified, normalised copy of the backup. -/
def stage : RestoreM Unit := do
  act .verifyFile
  act .createDirAll
  act .copy
  act .verifyPath
  let restoredAtMs ← now
  act (.normalize restoredAtMs)
  act (.syncFile .temporary)
  act (.removeIfPresent .temporary .wal)
  act (.removeIfPresent .temporary .shm)

def archive : RestoreM Bool := do
  let hadDatabase ← pathExists .database
  if hadDatabase then
    act (.rename .database .archived)
    act .syncParent
  return hadDatabase

/-- The closure whose failure is rolled back; `installer` is the rename of `restore`. -/
def install : RestoreM Unit := do
  act (.removeIfPresent .database .wal)
  act (.removeIfPresent .database .shm)
  act (.rename .temporary .database)
  act .syncParent

def setAside : RestoreM Unit := do
  if ← pathExists .database then
    act (.rename .database .failed)

def rollBack (hadDatabase : Bool) (error : String) : RestoreM (Option Place) := do
  setAside
  if hadDatabase then
    act (.rename .archived .database)
  act .syncParent
  let _ ← ExceptT.lift (act .removeTemporary).run
  throw error

/-- The exchange of the database for the staged one. -/
def swap : RestoreM (Option Place) := do
  checkpointCurrentDatabase
  let hadDatabase ← archive
  match ← ExceptT.lift install.run with
  | .error error => rollBack hadDatabase error
  | .ok _ => return if hadDatabase then some .archived else none

/-- `restore_with_installer`; it returns the archive of the previous database. -/
def restoreWithInstaller : RestoreM (Option Place) := do
  stage
  swap

/-! ## Running the program -/

/-- What a successful action does; `backup` is what the source of the restore holds. -/
def FileAction.Effect (backup : Snapshot) (before after : Directory) : FileAction → Prop
  | .copy => after = Function.update before .temporary
      { before .temporary with main := some ⟨.restored, backup⟩ }
  | .normalize restoredAtMs => ∃ main wal shm, (before .temporary).main = some main ∧
      (∀ log, wal = some log → log.frames = []) ∧
      after = Function.update before .temporary
        ⟨some { main with image := main.image.normalizeRestored restoredAtMs }, wal, shm⟩
  | .removeIfPresent place sidecar =>
      after = Function.update before place ((before place).remove sidecar)
  | .removeTemporary => after = Function.update before .temporary
      { before .temporary with main := none }
  -- a checkpoint folds the log into the main file and truncates it
  | .checkpoint => ∃ main image wal shm, (before .database).main = some main ∧
      (before .database).content = some image ∧
      (∀ log, wal = some log → log.lineage = main.lineage ∧ log.frames = []) ∧
      (∀ lineage, shm = some lineage → lineage = main.lineage) ∧
      after = Function.update before .database ⟨some { main with image }, wal, shm⟩
  | .rename source target => ∃ main, (before source).main = some main ∧
      after = before.move source target main
  | .verifyFile | .createDirAll | .verifyPath | .syncFile _ | .syncParent => after = before

/-- What a failing action may leave. -/
def FileAction.Torn (before after : Directory) : FileAction → Prop
  | .copy | .normalize _ => ∃ files, after = Function.update before .temporary files
  -- a checkpoint that is cut short has moved some of the log; nothing is lost
  | .checkpoint => ∃ main image wal shm, (before .database).main = some main ∧
      (∀ log, wal = some log → log.lineage = main.lineage) ∧
      (∀ lineage, shm = some lineage → lineage = main.lineage) ∧
      (FileSet.mk (some { main with image }) wal shm).content = (before .database).content ∧
      after = Function.update before .database ⟨some { main with image }, wal, shm⟩
  | .verifyFile | .createDirAll | .verifyPath | .syncFile _ | .syncParent | .removeIfPresent _ _
  | .removeTemporary | .rename _ _ => after = before

/-- The directory, and the operations performed so far, latest first, with their success. -/
structure RestoreState where
  files : Directory
  trace : List (RestoreOp × Bool)

def RestoreState.failures (state : RestoreState) : ℕ :=
  state.trace.countP fun entry => !entry.2

/-- The effect of an operation on the files, and whether it succeeded. -/
def Performs (backup : Snapshot) (before after : Directory) :
    (operation : RestoreOp) → operation.Reply → Bool → Prop
  | .exists place, seen, succeeded => after = before ∧
      (if succeeded then seen = (before place).main.isSome else seen = false)
  | .now, reply, succeeded => after = before ∧ succeeded = reply.isOk
  | .act action, .ok _, succeeded => action.Effect backup before after ∧ succeeded = true
  | .act action, .error _, succeeded => action.Torn before after ∧ succeeded = false

/-- Runs with at most one failure. -/
def Step (backup : Snapshot) : Program.Semantics RestoreOp RestoreOp.Reply RestoreState :=
  fun before operation reply after => ∃ succeeded,
    Performs backup before.files after.files operation reply succeeded ∧
      after.trace = (operation, succeeded) :: before.trace ∧ after.failures ≤ 1

/-- Whether an operation has renamed the main file away, or one to its place. -/
def exposes : RestoreOp × Bool → Option Bool
  | (.act (.rename source target), true) =>
      if target = .database then some false
      else if source = .database then some true
      else none
  | _ => none

/-- The main file was renamed away, and none has been renamed to the path since. -/
def exposed : List (RestoreOp × Bool) → Bool
  | [] => false
  | entry :: rest => (exposes entry).getD (exposed rest)

/-- A complete database of one lineage, with no sidecar of the other. -/
structure FileSet.Holds (files : FileSet) (lineage : Lineage) (snapshot : Snapshot) : Prop where
  main : ∃ main, files.main = some main ∧ main.lineage = lineage
  wal : ∀ wal, files.wal = some wal → wal.lineage = lineage
  shm : ∀ shm, files.shm = some shm → shm = lineage
  content : files.content = some snapshot

/-- The path holds the old database or the normalised backup. -/
def Intact (previous backup : Snapshot) (files : FileSet) : Prop :=
  files.Holds .previous previous ∨
    ∃ restoredAtMs, files.Holds .restored (backup.normalizeRestored restoredAtMs)

/-- All or nothing, wherever the run is cut off; an error means nothing. -/
def AllOrNothing (previous backup : Snapshot)
    (rest : Program RestoreOp RestoreOp.Reply (Except String (Option Place)))
    (state : RestoreState) : Prop :=
  Intact previous backup (state.files .database) ∧
    ∀ error, rest = .pure (.error error) → (state.files .database).Holds .previous previous

/-! ## Rules -/

/-- The path is intact unless it is exposed, and then it is absent. -/
def Covered (previous backup : Snapshot) (state : RestoreState) : Prop :=
  if exposed state.trace then (state.files .database).main = none
  else Intact previous backup (state.files .database)

/-- Every state of the run is covered, and its end satisfies the postcondition. -/
abbrev Runs (previous backup : Snapshot) {α : Type} (program : RestoreM α)
    (post : Except String α → RestoreState → Prop) (state : RestoreState) : Prop :=
  program.run.Safe (Step backup) Eq (fun _ _ => True) (Covered previous backup) post state

def RestoreState.after (state : RestoreState) (operation : RestoreOp) (succeeded : Bool)
    (files : Directory) : RestoreState :=
  ⟨files, (operation, succeeded) :: state.trace⟩

section Rules

variable {previous backup : Snapshot} {state : RestoreState}

theorem failures_after {operation : RestoreOp} {succeeded : Bool} {files : Directory} :
    (state.after operation succeeded files).failures =
      state.failures + if succeeded then 0 else 1 := by
  cases succeeded <;> simp [RestoreState.after, RestoreState.failures]

theorem runs_act {action : FileAction} {post : Except String Unit → RestoreState → Prop}
    (effect : ∀ files, action.Effect backup state.files files →
      Covered previous backup (state.after (.act action) true files) ∧
        post (.ok ()) (state.after (.act action) true files))
    (torn : ∀ error files, state.failures = 0 → action.Torn state.files files →
      Covered previous backup (state.after (.act action) false files) ∧
        post (.error error) (state.after (.act action) false files)) :
    Runs previous backup (act action) post state := by
  rintro before reply ⟨files, trace⟩ rfl _ ⟨succeeded, performs, rfl, single⟩
  rcases reply with error | _
  · rcases performs with ⟨cut, rfl⟩
    change (state.after (.act action) false files).failures ≤ 1 at single
    rw [failures_after] at single
    have held := torn error files (by simpa using single) cut
    exact ⟨⟨trivial, held.1⟩, held.2⟩
  · rcases performs with ⟨done, rfl⟩
    have held := effect files done
    exact ⟨⟨trivial, held.1⟩, held.2⟩

theorem runs_pathExists {place : Place} {post : Except String Bool → RestoreState → Prop}
    (seen : Covered previous backup (state.after (.exists place) true state.files) ∧
      post (.ok (state.files place).main.isSome) (state.after (.exists place) true state.files))
    (unseen : state.failures = 0 →
      Covered previous backup (state.after (.exists place) false state.files) ∧
        post (.ok false) (state.after (.exists place) false state.files)) :
    Runs previous backup (pathExists place) post state := by
  rintro before reply ⟨files, trace⟩ rfl _ ⟨succeeded, ⟨rfl, isSeen⟩, rfl, single⟩
  cases succeeded with
  | true =>
      cases isSeen
      exact ⟨⟨trivial, seen.1⟩, seen.2⟩
  | false =>
      cases isSeen
      change (state.after (.exists place) false state.files).failures ≤ 1 at single
      rw [failures_after] at single
      have held := unseen (by simpa using single)
      exact ⟨⟨trivial, held.1⟩, held.2⟩

end Rules

/-! ## The parts of the program -/

/-- The actions that leave the old database alone. -/
def FileAction.isQuiet : FileAction → Bool
  | .rename _ _ | .checkpoint => false
  | .removeIfPresent place _ => decide (place = .temporary)
  | _ => true

/-- The old database is in its place. -/
structure InPlace (previous : Snapshot) (state : RestoreState) : Prop where
  unexposed : exposed state.trace = false
  holds : (state.files .database).Holds .previous previous

/-- The temporary file is the normalised backup. -/
def Staged (backup : Snapshot) (state : RestoreState) : Prop :=
  ∃ restoredAtMs, (state.files .temporary).main =
    some ⟨.restored, backup.normalizeRestored restoredAtMs⟩

section Parts

variable {previous backup : Snapshot} {state : RestoreState}

theorem InPlace.covered (inPlace : InPlace previous state) : Covered previous backup state := by
  unfold Covered
  rw [inPlace.unexposed]
  exact .inl inPlace.holds

theorem FileAction.Effect.database {action : FileAction} {before after : Directory}
    (effect : action.Effect backup before after) (quiet : action.isQuiet = true) :
    after .database = before .database := by
  cases action with
  | rename | checkpoint => cases quiet
  | verifyFile | createDirAll | verifyPath | syncFile | syncParent => rw [effect]
  | copy | removeTemporary => rw [effect]; rfl
  | normalize =>
      rcases effect with ⟨main, wal, shm, _, _, rfl⟩
      rfl
  | removeIfPresent place =>
      rw [show place = .temporary from of_decide_eq_true quiet] at effect
      rw [effect]
      rfl

theorem FileAction.Torn.database {action : FileAction} {before after : Directory}
    (torn : action.Torn before after) (quiet : action.isQuiet = true) :
    after .database = before .database := by
  cases action with
  | rename | checkpoint => cases quiet
  | verifyFile | createDirAll | verifyPath | syncFile | syncParent | removeIfPresent
  | removeTemporary => rw [torn]
  | copy | normalize =>
      rcases torn with ⟨files, rfl⟩
      rfl

theorem exposes_quiet {action : FileAction} (quiet : action.isQuiet = true) (succeeded : Bool) :
    exposes (.act action, succeeded) = none := by
  cases action with
  | rename | checkpoint => cases quiet
  | _ => rfl

theorem InPlace.after {action : FileAction} {succeeded : Bool} {files : Directory}
    (inPlace : InPlace previous state) (quiet : action.isQuiet = true)
    (database : files .database = state.files .database) :
    InPlace previous (state.after (.act action) succeeded files) where
  unexposed := by
    rw [RestoreState.after, exposed, exposes_quiet quiet]
    exact inPlace.unexposed
  holds := by
    change (files .database).Holds .previous previous
    rw [database]
    exact inPlace.holds

/-- A quiet action while the old database is in its place. -/
theorem InPlace.runs_act {action : FileAction} (inPlace : InPlace previous state)
    (quiet : action.isQuiet = true) {post : Except String Unit → RestoreState → Prop}
    (succeeds : ∀ later, action.Effect backup state.files later.files →
      InPlace previous later → post (.ok ()) later)
    (fails : ∀ error later, InPlace previous later → post (.error error) later) :
    Runs previous backup (act action) post state := by
  apply Restore.runs_act
  · intro files effect
    have later : InPlace previous (state.after (.act action) true files) :=
      inPlace.after quiet (effect.database quiet)
    exact ⟨later.covered, succeeds _ effect later⟩
  · intro error files _ torn
    have later : InPlace previous (state.after (.act action) false files) :=
      inPlace.after quiet (torn.database quiet)
    exact ⟨later.covered, fails error _ later⟩

theorem InPlace.runs_now {post : Except String ℤ → RestoreState → Prop}
    (inPlace : InPlace previous state)
    (succeeds : ∀ restoredAtMs later, later.files = state.files → InPlace previous later →
      post (.ok restoredAtMs) later)
    (fails : ∀ error later, InPlace previous later → post (.error error) later) :
    Runs previous backup now post state := by
  rintro before reply ⟨files, trace⟩ rfl _ ⟨succeeded, ⟨rfl, _⟩, rfl, _⟩
  have later : InPlace previous ⟨state.files, (.now, succeeded) :: state.trace⟩ :=
    ⟨inPlace.unexposed, inPlace.holds⟩
  refine ⟨⟨trivial, later.covered⟩, ?_⟩
  rcases reply with error | restoredAtMs
  · exact fails error _ later
  · exact succeeds restoredAtMs _ rfl later

theorem stage_runs (inPlace : InPlace previous state) :
    Runs previous backup stage (fun result later => InPlace previous later ∧
      (result = .ok () → Staged backup later)) state := by
  have failing : ∀ (error : String) later, InPlace previous later →
      InPlace previous later ∧ ((.error error : Except String Unit) = .ok () →
        Staged backup later) :=
    fun error later held => ⟨held, fun returned => by cases returned⟩
  unfold stage
  refine Program.safe_exceptBind.mpr (inPlace.runs_act rfl (fun _ _ verified => ?_) failing)
  refine Program.safe_exceptBind.mpr (verified.runs_act rfl (fun _ _ created => ?_) failing)
  refine Program.safe_exceptBind.mpr (created.runs_act rfl (fun first copies copied => ?_) failing)
  have hasBackup : (first.files .temporary).main = some ⟨.restored, backup⟩ := by
    rw [show first.files = _ from copies]
    rfl
  refine Program.safe_exceptBind.mpr (copied.runs_act rfl (fun _ same reverified => ?_) failing)
  rw [← same] at hasBackup
  refine Program.safe_exceptBind.mpr (reverified.runs_now (fun restoredAtMs _ same held => ?_)
    failing)
  rw [← same] at hasBackup
  refine Program.safe_exceptBind.mpr (held.runs_act rfl (fun second normalizes normalized => ?_)
    failing)
  have staged : (second.files .temporary).main =
      some ⟨.restored, backup.normalizeRestored restoredAtMs⟩ := by
    rcases normalizes with ⟨main, wal, shm, present, _, after⟩
    rw [after, show main = ⟨.restored, backup⟩ from Option.some.inj (present.symm.trans hasBackup)]
    rfl
  refine Program.safe_exceptBind.mpr (normalized.runs_act rfl (fun _ same synced => ?_) failing)
  rw [← same] at staged
  refine Program.safe_exceptBind.mpr (synced.runs_act rfl (fun third removes removed => ?_) failing)
  have kept : (third.files .temporary).main =
      some ⟨.restored, backup.normalizeRestored restoredAtMs⟩ := by
    rw [show third.files = _ from removes]
    exact staged
  refine removed.runs_act rfl (fun last removes held => ⟨held, fun _ => ⟨restoredAtMs, ?_⟩⟩) failing
  rw [show last.files = _ from removes]
  exact kept

theorem FileSet.Holds.content_eq {files : FileSet} {lineage : Lineage} {snapshot image : Snapshot}
    (holds : files.Holds lineage snapshot) (read : files.content = some image) :
    image = snapshot :=
  Option.some.inj (read.symm.trans holds.content)

/-- A checkpoint, finished or not, keeps the database complete. -/
theorem InPlace.checkpoint {succeeded : Bool} {files : Directory} {main : MainFile}
    {image : Snapshot} {wal : Option WalFile} {shm : Option Lineage}
    (inPlace : InPlace previous state) (present : (state.files .database).main = some main)
    (logged : ∀ log, wal = some log → log.lineage = main.lineage)
    (shared : ∀ lineage, shm = some lineage → lineage = main.lineage)
    (content : (FileSet.mk (some { main with image }) wal shm).content = some previous)
    (after : files = Function.update state.files .database ⟨some { main with image }, wal, shm⟩) :
    InPlace previous (state.after (.act .checkpoint) succeeded files) := by
  rcases inPlace.holds.main with ⟨_, found, lineage⟩
  rw [show main = _ from Option.some.inj (present.symm.trans found)] at *
  refine ⟨inPlace.unexposed, ?_⟩
  change (files .database).Holds .previous previous
  rw [after, Function.update_self]
  exact ⟨⟨_, rfl, lineage⟩, fun log stored => (logged log stored).trans lineage,
    fun shm stored => (shared shm stored).trans lineage, content⟩

/-- The old database is ready to be archived. -/
structure Ready (previous backup : Snapshot) (state : RestoreState) : Prop extends
    InPlace previous state where
  staged : Staged backup state
  folded : state.failures = 0 → (state.files .database).frames = []

theorem checkpointCurrentDatabase_runs (inPlace : InPlace previous state)
    (staged : Staged backup state) :
    Runs previous backup checkpointCurrentDatabase (fun result later => InPlace previous later ∧
      (result = .ok () → Ready previous backup later)) state := by
  have failing : ∀ (error : String) later, InPlace previous later →
      InPlace previous later ∧ ((.error error : Except String Unit) = .ok () →
        Ready previous backup later) :=
    fun error later held => ⟨held, fun returned => by cases returned⟩
  unfold checkpointCurrentDatabase
  apply Program.safe_exceptBind.mpr
  rcases inPlace.holds.main with ⟨main, present, _⟩
  apply runs_pathExists
  · have seen : InPlace previous (state.after (.exists .database) true state.files) :=
      ⟨inPlace.unexposed, inPlace.holds⟩
    refine ⟨seen.covered, ?_⟩
    rw [present]
    apply Program.safe_exceptBind.mpr
    apply runs_act
    · rintro files ⟨found, image, wal, shm, isMain, read, logged, shared, after⟩
      have same := inPlace.holds.content_eq read
      have empty : (FileSet.mk (some { found with image }) wal shm).frames = [] := by
        cases wal with
        | none => rfl
        | some log => exact (logged log rfl).2
      have content : (FileSet.mk (some { found with image }) wal shm).content = some previous := by
        rw [FileSet.content, empty, same]
        rfl
      have folded := @InPlace.checkpoint previous _ true files found image wal shm seen isMain
        (fun log stored => (logged log stored).1) shared content after
      refine ⟨folded.covered, ?_⟩
      apply Program.safe_exceptBind.mpr
      refine folded.runs_act rfl (fun second same synced => ?_) failing
      refine synced.runs_act rfl (fun third again held => ⟨held, fun _ => ?_⟩) failing
      have unchanged : third.files = files := again.trans same
      refine ⟨held, ?_, fun _ => ?_⟩
      · rw [Staged, unchanged, after]
        exact staged
      · rw [unchanged, after, Function.update_self]
        exact empty
    · rintro error files _ ⟨found, image, wal, shm, isMain, logged, shared, content, after⟩
      have cut := @InPlace.checkpoint previous _ false files found image wal shm seen isMain
        logged shared (content.trans inPlace.holds.content) after
      exact ⟨cut.covered, failing error _ cut⟩
  · intro clean
    have unseen : InPlace previous (state.after (.exists .database) false state.files) :=
      ⟨inPlace.unexposed, inPlace.holds⟩
    refine ⟨unseen.covered, unseen, fun _ => ⟨unseen, staged, fun unfailed => ?_⟩⟩
    rw [failures_after] at unfailed
    simp at unfailed

/-- The directory was not synchronised after the old database had been renamed away. -/
structure Stranded (state : RestoreState) : Prop where
  absent : (state.files .database).main = none
  unsynced : ∃ earlier, state.trace = (.act .syncParent, false) :: earlier ∧ exposed earlier = true

/-- The old database has been archived. -/
structure Archived (previous : Snapshot) (state : RestoreState) : Prop where
  exposed : exposed state.trace = true
  absent : (state.files .database).main = none
  archived : ∃ main, (state.files .archived).main = some main ∧ main.lineage = .previous ∧
    (state.failures = 0 → main.image = previous)

/-- What `install` starts from; without the archive the old database was overlooked. -/
structure Pending (previous backup : Snapshot) (hadDatabase : Bool) (state : RestoreState) :
    Prop where
  staged : Staged backup state
  wal : ∀ wal, (state.files .database).wal = some wal → wal.lineage = .previous
  shm : ∀ shm, (state.files .database).shm = some shm → shm = .previous
  folded : state.failures = 0 ∨ hadDatabase = false → (state.files .database).frames = []
  archived : hadDatabase = true → Archived previous state
  overlooked : hadDatabase = false → InPlace previous state ∧ state.failures = 1

theorem Archived.covered (archived : Archived previous state) :
    Covered previous backup state := by
  unfold Covered
  rw [archived.exposed]
  exact archived.absent

theorem Pending.covered {hadDatabase : Bool} (pending : Pending previous backup hadDatabase state) :
    Covered previous backup state := by
  cases hadDatabase with
  | true => exact (pending.archived rfl).covered
  | false => exact (pending.overlooked rfl).1.covered

/-- Synchronising the directory changes nothing. -/
theorem Pending.synced {hadDatabase : Bool} (pending : Pending previous backup hadDatabase state) :
    Pending previous backup hadDatabase (state.after (.act .syncParent) true state.files) where
  staged := pending.staged
  wal := pending.wal
  shm := pending.shm
  folded := by
    rw [failures_after]
    exact pending.folded
  archived := by
    intro had
    have archived := pending.archived had
    refine ⟨archived.exposed, archived.absent, ?_⟩
    rw [failures_after]
    exact archived.archived
  overlooked := by
    intro lost
    have overlooked := pending.overlooked lost
    refine ⟨⟨overlooked.1.unexposed, overlooked.1.holds⟩, ?_⟩
    rw [failures_after]
    exact overlooked.2

/-- Without frames the main file is the whole database. -/
theorem FileSet.Holds.image_eq {files : FileSet} {lineage : Lineage} {snapshot : Snapshot}
    {main : MainFile} (holds : files.Holds lineage snapshot) (present : files.main = some main)
    (folded : files.frames = []) : main.image = snapshot := by
  apply holds.content_eq
  rw [FileSet.content, present, folded]
  rfl

theorem archive_runs (ready : Ready previous backup state) :
    Runs previous backup archive (fun result later => match result with
      | .ok hadDatabase => Pending previous backup hadDatabase later
      | .error _ => InPlace previous later ∨ Stranded later) state := by
  unfold archive
  apply Program.safe_exceptBind.mpr
  rcases ready.holds.main with ⟨main, present, lineage⟩
  apply runs_pathExists
  · have seen : InPlace previous (state.after (.exists .database) true state.files) :=
      ⟨ready.unexposed, ready.holds⟩
    refine ⟨seen.covered, ?_⟩
    rw [present]
    apply Program.safe_exceptBind.mpr
    apply runs_act
    · rintro files ⟨found, isMain, after⟩
      obtain rfl : found = main := Option.some.inj (isMain.symm.trans present)
      have moved : Pending previous backup true
          ((state.after (.exists .database) true state.files).after
            (.act (.rename .database .archived)) true files) := by
        refine ⟨?_, ?_, ?_, ?_, fun _ => ⟨rfl, ?_, found, ?_, lineage, ?_⟩, fun lost => by cases lost⟩
        · rw [Staged, RestoreState.after, after]
          exact ready.staged
        · rw [RestoreState.after, after]
          exact ready.holds.wal
        · rw [RestoreState.after, after]
          exact ready.holds.shm
        · rintro (unfailed | overlooked)
          · rw [failures_after, failures_after] at unfailed
            rw [RestoreState.after, after]
            exact ready.folded unfailed
          · cases overlooked
        · rw [RestoreState.after, after]
          rfl
        · rw [RestoreState.after, after]
          rfl
        · intro unfailed
          rw [failures_after, failures_after] at unfailed
          exact ready.holds.image_eq present (ready.folded unfailed)
      refine ⟨moved.covered, ?_⟩
      apply Program.safe_exceptBind.mpr
      apply runs_act
      · rintro synced rfl
        exact ⟨moved.covered, moved.synced⟩
      · rintro error same _ rfl
        exact ⟨moved.covered, .inr ⟨(moved.archived rfl).absent, _, rfl, rfl⟩⟩
    · rintro error same _ rfl
      exact ⟨seen.covered, .inl ⟨seen.unexposed, seen.holds⟩⟩
  · intro clean
    have unseen : InPlace previous (state.after (.exists .database) false state.files) :=
      ⟨ready.unexposed, ready.holds⟩
    refine ⟨unseen.covered, ready.staged, ready.holds.wal, ready.holds.shm, ?_, ?_, ?_⟩
    · exact fun _ => ready.folded clean
    · exact fun archived => by cases archived
    · refine fun _ => ⟨unseen, ?_⟩
      rw [failures_after, clean]
      rfl

/-- The restored database is in its place. -/
structure Installed (backup : Snapshot) (state : RestoreState) : Prop where
  unexposed : exposed state.trace = false
  holds : ∃ restoredAtMs, (state.files .database).Holds .restored
    (backup.normalizeRestored restoredAtMs)

/-- A failed installation; the archive can be put back as it is. -/
structure Reverting (previous backup : Snapshot) (state : RestoreState) : Prop where
  failed : state.failures = 1
  covered : Covered previous backup state
  wal : ∀ wal, (state.files .database).wal = some wal → wal.lineage = .previous
  shm : ∀ shm, (state.files .database).shm = some shm → shm = .previous
  folded : (state.files .database).frames = []
  archived : (state.files .archived).main = some ⟨.previous, previous⟩

theorem Installed.covered (installed : Installed backup state) :
    Covered previous backup state := by
  unfold Covered
  rw [installed.unexposed]
  exact .inr installed.holds

theorem FileSet.frames_remove {files : FileSet} (folded : files.frames = []) (sidecar : Sidecar) :
    (files.remove sidecar).frames = [] := by
  cases sidecar with
  | wal => rfl
  | shm => exact folded

/-- Removing a sidecar before the new database is installed. -/
theorem Pending.remove {hadDatabase : Bool} {sidecar : Sidecar} {files : Directory}
    (pending : Pending previous backup hadDatabase state)
    (removes : files = Function.update state.files .database
      ((state.files .database).remove sidecar)) :
    Pending previous backup hadDatabase
      (state.after (.act (.removeIfPresent .database sidecar)) true files) := by
  have database : files .database = (state.files .database).remove sidecar := by
    rw [removes, Function.update_self]
  have main : (files .database).main = (state.files .database).main := by
    rw [database]
    cases sidecar <;> rfl
  have wal : ∀ wal, (files .database).wal = some wal → wal.lineage = .previous := by
    rw [database]
    cases sidecar with
    | wal => exact fun wal stored => by cases stored
    | shm => exact pending.wal
  have shm : ∀ shm, (files .database).shm = some shm → shm = .previous := by
    rw [database]
    cases sidecar with
    | wal => exact pending.shm
    | shm => exact fun shm stored => by cases stored
  refine ⟨?_, wal, shm, ?_, ?_, ?_⟩
  · rw [Staged, RestoreState.after, removes]
    exact pending.staged
  · intro clean
    change (files .database).frames = []
    rw [database]
    rw [failures_after] at clean
    exact FileSet.frames_remove (pending.folded clean) sidecar
  · intro had
    have archived := pending.archived had
    refine ⟨archived.exposed, main.trans archived.absent, ?_⟩
    rw [failures_after, RestoreState.after, removes]
    exact archived.archived
  · intro lost
    rcases pending.overlooked lost with ⟨inPlace, failed⟩
    have folded := pending.folded (.inr lost)
    rcases inPlace.holds.main with ⟨found, present, lineage⟩
    refine ⟨⟨inPlace.unexposed, ⟨found, main.trans present, lineage⟩, wal, shm, ?_⟩, ?_⟩
    · change (files .database).content = some previous
      rw [FileSet.content, database, FileSet.frames_remove folded, ← database, main, present,
        ← inPlace.holds.image_eq present folded]
      rfl
    · rw [failures_after]
      exact failed

/-- The first failure after the archive was made. -/
theorem Pending.reverting {hadDatabase : Bool}
    (pending : Pending previous backup hadDatabase state) (action : FileAction)
    (clean : state.failures = 0) :
    hadDatabase = true ∧
      Reverting previous backup (state.after (.act action) false state.files) := by
  cases hadDatabase with
  | false =>
      have failed := (pending.overlooked rfl).2
      rw [clean] at failed
      cases failed
  | true =>
      have place := pending.archived rfl
      rcases place.archived with ⟨main, present, lineage, image⟩
      refine ⟨rfl, ?_, ?_, pending.wal, pending.shm, pending.folded (.inl clean), ?_⟩
      · rw [failures_after, clean]
        rfl
      · have unmoved : exposed (state.after (.act action) false state.files).trace =
            exposed state.trace := by
          cases action <;> rfl
        unfold Covered
        rw [unmoved, place.exposed]
        exact place.absent
      · change (state.files .archived).main = some ⟨.previous, previous⟩
        rw [present, ← lineage, ← image clean]

theorem install_runs {hadDatabase : Bool}
    (pending : Pending previous backup hadDatabase state) :
    Runs previous backup install (fun result later => match result with
      | .ok _ => Installed backup later
      | .error _ => hadDatabase = true ∧ Reverting previous backup later) state := by
  unfold install
  apply Program.safe_exceptBind.mpr
  apply runs_act
  · intro first removes
    have unlogged := pending.remove removes
    refine ⟨unlogged.covered, ?_⟩
    apply Program.safe_exceptBind.mpr
    apply runs_act
    · intro second removesToo
      have bare := unlogged.remove removesToo
      have sidecars : (second .database).wal = none ∧ (second .database).shm = none := by
        rw [show second = _ from removesToo, Function.update_self]
        exact ⟨by rw [RestoreState.after, show first = _ from removes]; rfl, rfl⟩
      refine ⟨bare.covered, ?_⟩
      apply Program.safe_exceptBind.mpr
      apply runs_act
      · rintro third ⟨main, isMain, moves⟩
        rcases bare.staged with ⟨restoredAtMs, staged⟩
        obtain rfl := Option.some.inj (isMain.symm.trans staged)
        have database : third .database =
            ⟨some ⟨.restored, backup.normalizeRestored restoredAtMs⟩, none, none⟩ := by
          rw [moves, Directory.move, Function.update_self]
          change FileSet.mk _ (second .database).wal (second .database).shm = _
          rw [sidecars.1, sidecars.2]
        have holds : (third .database).Holds .restored
            (backup.normalizeRestored restoredAtMs) := by
          rw [database]
          refine ⟨⟨_, rfl, rfl⟩, ?_, ?_, rfl⟩
          · exact fun _ stored => by cases stored
          · exact fun _ stored => by cases stored
        have installed : Installed backup
            ((state.after (.act (.removeIfPresent .database .wal)) true first).after
              (.act (.removeIfPresent .database .shm)) true second |>.after
                (.act (.rename .temporary .database)) true third) :=
          ⟨rfl, restoredAtMs, holds⟩
        refine ⟨installed.covered, ?_⟩
        apply runs_act
        · rintro synced rfl
          exact ⟨installed.covered, rfl, restoredAtMs, holds⟩
        · rintro error third clean rfl
          rw [failures_after] at clean
          have ⟨had, reverting⟩ := bare.reverting .syncParent clean
          refine ⟨installed.covered, had, ?_, installed.covered, ?_, ?_, ?_, ?_⟩
          · rw [failures_after, failures_after, clean]
            rfl
          · change ∀ wal, (third .database).wal = some wal → _
            rw [database]
            exact fun _ stored => by cases stored
          · change ∀ shm, (third .database).shm = some shm → _
            rw [database]
            exact fun _ stored => by cases stored
          · change (third .database).frames = []
            rw [database]
            rfl
          · change (third .archived).main = _
            rw [moves]
            exact reverting.archived
      · rintro error same clean rfl
        have reverting := bare.reverting (.rename .temporary .database) clean
        exact ⟨reverting.2.covered, reverting⟩
    · rintro error same clean rfl
      have reverting := unlogged.reverting (.removeIfPresent .database .shm) clean
      exact ⟨reverting.2.covered, reverting⟩
  · rintro error same clean rfl
    have reverting := pending.reverting (.removeIfPresent .database .wal) clean
    exact ⟨reverting.2.covered, reverting⟩

theorem setAside_runs (reverting : Reverting previous backup state) :
    Runs previous backup setAside (fun result later => result = .ok () ∧
      exposed later.trace = true ∧ (later.files .database).main = none ∧
        Reverting previous backup later) state := by
  unfold setAside
  apply Program.safe_exceptBind.mpr
  apply runs_pathExists
  · have seen : Reverting previous backup
        (state.after (.exists .database) true state.files) :=
      ⟨by rw [failures_after]; exact reverting.failed, reverting.covered, reverting.wal,
        reverting.shm, reverting.folded, reverting.archived⟩
    refine ⟨seen.covered, ?_⟩
    cases main : (state.files .database).main with
    | none =>
        have covered := reverting.covered
        have isExposed : exposed state.trace = true := by
          by_contra unexposed
          rw [Covered, if_neg unexposed] at covered
          rcases covered with holds | ⟨_, holds⟩
          · rcases holds.main with ⟨_, present, _⟩
            simp [main] at present
          · rcases holds.main with ⟨_, present, _⟩
            simp [main] at present
        exact ⟨rfl, isExposed, main, seen⟩
    | some restored =>
        apply runs_act
        · rintro files ⟨found, _, moves⟩
          have absent : (files .database).main = none := by
            rw [moves]
            rfl
          have wal : (files .database).wal = (state.files .database).wal := by
            rw [moves]
            rfl
          have shm : (files .database).shm = (state.files .database).shm := by
            rw [moves]
            rfl
          refine ⟨absent, rfl, rfl, absent, ?_, absent, ?_, ?_, ?_, ?_⟩
          · rw [failures_after]
            exact seen.failed
          · change ∀ log, (files .database).wal = some log → _
            rw [wal]
            exact reverting.wal
          · change ∀ lineage, (files .database).shm = some lineage → _
            rw [shm]
            exact reverting.shm
          · change (files .database).frames = []
            rw [FileSet.frames, wal]
            exact reverting.folded
          · change (files .archived).main = _
            rw [moves]
            exact reverting.archived
        · intro error files clean
          rw [seen.failed] at clean
          cases clean
  · intro clean
    rw [reverting.failed] at clean
    cases clean

theorem rollBack_runs (reverting : Reverting previous backup state) (error : String) :
    Runs previous backup (rollBack true error) (fun result later =>
      (∃ error, result = .error error) ∧ InPlace previous later) state := by
  unfold rollBack
  apply Program.safe_exceptBind.mpr
  apply (setAside_runs reverting).imp
  rintro result first ⟨rfl, isExposed, absent, aside⟩
  apply Program.safe_exceptBind.mpr
  apply runs_act
  · rintro files ⟨main, isMain, moves⟩
    obtain rfl := Option.some.inj (isMain.symm.trans aside.archived)
    have database : files .database =
        { first.files .database with main := some ⟨.previous, previous⟩ } := by
      rw [moves, Directory.move, Function.update_self]
    have back : InPlace previous (first.after (.act (.rename .archived .database)) true files) := by
      refine ⟨rfl, ?_⟩
      change (files .database).Holds .previous previous
      rw [database]
      refine ⟨⟨_, rfl, rfl⟩, aside.wal, aside.shm, ?_⟩
      change some ((first.files .database).frames.foldl _ previous) = _
      rw [aside.folded]
      rfl
    refine ⟨back.covered, ?_⟩
    apply Program.safe_exceptBind.mpr
    refine back.runs_act rfl (fun second _ synced => ?_) fun error later held => ⟨⟨error, rfl⟩, held⟩
    apply Program.safe_exceptBind.mpr
    apply Program.safe_exceptLift.mpr
    exact synced.runs_act rfl (fun _ _ removed => ⟨⟨error, rfl⟩, removed⟩)
      fun _ _ kept => ⟨⟨error, rfl⟩, kept⟩
  · intro error files clean
    rw [aside.failed] at clean
    cases clean

end Parts

/-! ## Every run -/

section Runs

variable {previous backup : Snapshot} {start : Directory}

theorem swap_runs {state : RestoreState} (inPlace : InPlace previous state)
    (staged : Staged backup state) :
    Runs previous backup swap (fun result later => match result with
      | .ok _ => Installed backup later
      | .error _ => InPlace previous later ∨ Stranded later) state := by
  unfold swap
  apply Program.safe_exceptBind.mpr
  apply (checkpointCurrentDatabase_runs inPlace staged).imp
  rintro (error | _) first ⟨unfolded, ready⟩
  · exact .inl unfolded
  apply Program.safe_exceptBind.mpr
  apply (archive_runs (ready rfl)).imp
  rintro (error | hadDatabase) second archived
  · exact archived
  apply Program.safe_exceptBind.mpr
  apply Program.safe_exceptLift.mpr
  apply (install_runs archived).imp
  rintro (error | _) third outcome
  · rcases outcome with ⟨rfl, reverting⟩
    apply (rollBack_runs reverting error).imp
    rintro result last ⟨⟨error, rfl⟩, back⟩
    exact .inl back
  · exact outcome

theorem restoreWithInstaller_runs {state : RestoreState} (inPlace : InPlace previous state) :
    Runs previous backup restoreWithInstaller (fun result later => match result with
      | .ok _ => Installed backup later
      | .error _ => InPlace previous later ∨ Stranded later) state := by
  unfold restoreWithInstaller
  apply Program.safe_exceptBind.mpr
  apply (stage_runs inPlace).imp
  rintro (error | _) first ⟨held, staged⟩
  · exact .inl held
  · exact swap_runs held (staged rfl)

theorem Covered.intact_iff {state : RestoreState} (covered : Covered previous backup state) :
    Intact previous backup (state.files .database) ↔ exposed state.trace = false := by
  unfold Covered at covered
  cases isExposed : exposed state.trace with
  | false =>
      rw [isExposed] at covered
      exact iff_of_true covered rfl
  | true =>
      rw [isExposed] at covered
      refine iff_of_false ?_ (by simp)
      rintro (holds | ⟨_, holds⟩)
      · rcases holds.main with ⟨_, present, _⟩
        simp [show _ = none from covered] at present
      · rcases holds.main with ⟨_, present, _⟩
        simp [show _ = none from covered] at present

/--
Take any run with at most one failing operation, cut off anywhere. The restore is
all or nothing if and only if the run was not cut off while the path was
exposed. A run that returns is cut off there exactly when the synchronisation of
the directory failed right after the old database had been renamed away.
-/
theorem all_or_nothing_iff_unexposed (held : (start .database).Holds .previous previous)
    {rest : Program RestoreOp RestoreOp.Reply (Except String (Option Place))}
    {state : RestoreState}
    (reached : Program.Reaches (Step backup) (restoreWithInstaller.run, ⟨start, []⟩)
      (rest, state)) :
    (AllOrNothing previous backup rest state ↔ exposed state.trace = false) ∧
      ∀ result, rest = .pure result → (exposed state.trace = true ↔ ∃ earlier,
        state.trace = (.act .syncParent, false) :: earlier ∧ exposed earlier = true) := by
  have inPlace : InPlace previous ⟨start, []⟩ := ⟨rfl, held⟩
  have ⟨safe, covered⟩ := Program.Safe.of_reaches (fun _ => rfl)
    (@restoreWithInstaller_runs previous backup _ inPlace) inPlace.covered reached
  constructor
  · rw [AllOrNothing, covered.intact_iff, and_iff_left_iff_imp]
    rintro unexposed error rfl
    rcases safe with back | stranded
    · exact back.holds
    · rcases stranded.unsynced with ⟨earlier, traced, isExposed⟩
      rw [traced] at unexposed
      exact absurd (isExposed.symm.trans unexposed) (by simp)
  · rintro result rfl
    constructor
    · intro isExposed
      rcases result with error | archived
      · rcases safe with back | stranded
        · rw [back.unexposed] at isExposed
          cases isExposed
        · exact stranded.unsynced
      · rw [Installed.unexposed safe] at isExposed
        cases isExposed
    · rintro ⟨earlier, traced, isExposed⟩
      rw [traced]
      exact isExposed

end Runs

/-- A run that ends up in a configuration of the given kind. -/
def CanReach (backup : Snapshot) {α : Type}
    (holds : Program RestoreOp RestoreOp.Reply α → RestoreState → Prop)
    (program : Program RestoreOp RestoreOp.Reply α) (state : RestoreState) : Prop :=
  ∃ rest last, Program.Reaches (Step backup) (program, state) (rest, last) ∧ holds rest last

section CanReach

variable {α : Type} {backup : Snapshot} {files after : Directory} {trace : List (RestoreOp × Bool)}
  {holds : Program RestoreOp RestoreOp.Reply α → RestoreState → Prop}

theorem CanReach.perform {operation : RestoreOp} {reply : operation.Reply}
    {next : operation.Reply → Program RestoreOp RestoreOp.Reply α} {before state : RestoreState}
    (performed : Step backup before operation reply state)
    (later : CanReach backup holds (next reply) state) :
    CanReach backup holds (.perform operation next) before := by
  rcases later with ⟨rest, last, reached, held⟩
  exact ⟨rest, last, .head (.perform performed) reached, held⟩

theorem CanReach.ok {action : FileAction}
    {next : Except String Unit → Program RestoreOp RestoreOp.Reply α}
    (effect : action.Effect backup files after)
    (single : (RestoreState.mk after ((.act action, true) :: trace)).failures ≤ 1)
    (later : CanReach backup holds (next (.ok ())) ⟨after, (.act action, true) :: trace⟩) :
    CanReach backup holds (.perform (.act action) next) ⟨files, trace⟩ := by
  have performed : Step backup ⟨files, trace⟩ (.act action) (.ok ())
      ⟨after, (.act action, true) :: trace⟩ := ⟨true, ⟨effect, rfl⟩, rfl, single⟩
  exact .perform performed later

theorem CanReach.error {action : FileAction} {error : String}
    {next : Except String Unit → Program RestoreOp RestoreOp.Reply α}
    (torn : action.Torn files after)
    (single : (RestoreState.mk after ((.act action, false) :: trace)).failures ≤ 1)
    (later : CanReach backup holds (next (.error error)) ⟨after, (.act action, false) :: trace⟩) :
    CanReach backup holds (.perform (.act action) next) ⟨files, trace⟩ := by
  have performed : Step backup ⟨files, trace⟩ (.act action) (.error error)
      ⟨after, (.act action, false) :: trace⟩ := ⟨false, ⟨torn, rfl⟩, rfl, single⟩
  exact .perform performed later

theorem CanReach.seen {place : Place} {next : Bool → Program RestoreOp RestoreOp.Reply α}
    (single : (RestoreState.mk files ((.exists place, true) :: trace)).failures ≤ 1)
    (later : CanReach backup holds (next (files place).main.isSome)
      ⟨files, (.exists place, true) :: trace⟩) :
    CanReach backup holds (.perform (.exists place) next) ⟨files, trace⟩ := by
  have performed : Step backup ⟨files, trace⟩ (.exists place) (files place).main.isSome
      ⟨files, (.exists place, true) :: trace⟩ := ⟨true, ⟨rfl, rfl⟩, rfl, single⟩
  exact .perform performed later

theorem CanReach.now {restoredAtMs : ℤ}
    {next : Except String ℤ → Program RestoreOp RestoreOp.Reply α}
    (single : (RestoreState.mk files ((.now, true) :: trace)).failures ≤ 1)
    (later : CanReach backup holds (next (.ok restoredAtMs)) ⟨files, (.now, true) :: trace⟩) :
    CanReach backup holds (.perform .now next) ⟨files, trace⟩ := by
  have performed : Step backup ⟨files, trace⟩ .now (.ok restoredAtMs)
      ⟨files, (.now, true) :: trace⟩ := ⟨true, ⟨rfl, rfl⟩, rfl, single⟩
  exact .perform performed later

end CanReach

namespace Sample

def backup : Snapshot := ⟨.empty, Table.empty⟩

/-- A committed transaction that is still in the log. -/
def commit (snapshot : Snapshot) : Snapshot :=
  { snapshot with database := snapshot.database.registerNode "node-a" }

def start : Directory
  | .database => ⟨some ⟨.previous, backup⟩, some ⟨.previous, [commit]⟩, some .previous⟩
  | _ => ⟨none, none, none⟩

theorem start_holds : (start .database).Holds .previous (commit backup) where
  main := ⟨_, rfl, rfl⟩
  wal := by
    rintro _ ⟨⟩
    rfl
  shm := by
    rintro _ ⟨⟩
    rfl
  content := rfl

/-- The backup is staged without a failure. -/
def staged : RestoreState where
  files := Function.update start .temporary
    ⟨some ⟨.restored, backup.normalizeRestored 9000⟩, none, none⟩
  trace := [.act (.removeIfPresent .temporary .shm), .act (.removeIfPresent .temporary .wal),
    .act (.syncFile .temporary), .act (.normalize 9000), .now, .act .verifyPath, .act .copy,
    .act .createDirAll, .act .verifyFile].map fun operation => (operation, true)

theorem canReach_staged
    {holds : Program RestoreOp RestoreOp.Reply (Except String (Option Place)) → RestoreState → Prop}
    (later : CanReach backup holds swap.run staged) :
    CanReach backup holds restoreWithInstaller.run ⟨start, []⟩ := by
  refine CanReach.ok rfl (by decide) ?_
  refine CanReach.ok rfl (by decide) ?_
  refine CanReach.ok rfl (by decide) ?_
  refine CanReach.ok rfl (by decide) ?_
  refine @CanReach.now _ _ _ _ _ 9000 _ (by decide) ?_
  refine CanReach.ok ⟨_, none, none, rfl, by simp, rfl⟩ (by decide) ?_
  refine CanReach.ok rfl (by decide) ?_
  refine CanReach.ok rfl (by decide) ?_
  refine CanReach.ok rfl (by decide) ?_
  convert later using 2
  · rfl
  · funext place
    cases place <;> rfl
  · rfl

end Sample

/-- A restore without a failure. -/
theorem all_or_nothing_completed :
    CanReach Sample.backup (fun rest state => rest = .pure (.ok (some .archived)) ∧
      AllOrNothing (Sample.commit Sample.backup) Sample.backup rest state)
      restoreWithInstaller.run ⟨Sample.start, []⟩ := by
  have reached : CanReach Sample.backup
      (fun rest state => rest = .pure (.ok (some .archived)) ∧ exposed state.trace = false)
      restoreWithInstaller.run ⟨Sample.start, []⟩ := by
    apply Sample.canReach_staged
    refine CanReach.seen (by decide) ?_
    refine CanReach.ok ⟨_, _, none, none, rfl, rfl, by simp, by simp, rfl⟩ (by decide) ?_
    refine CanReach.ok rfl (by decide) ?_
    refine CanReach.ok rfl (by decide) ?_
    refine CanReach.seen (by decide) ?_
    refine CanReach.ok ⟨_, rfl, rfl⟩ (by decide) ?_
    refine CanReach.ok rfl (by decide) ?_
    refine CanReach.ok rfl (by decide) ?_
    refine CanReach.ok rfl (by decide) ?_
    refine CanReach.ok ⟨_, rfl, rfl⟩ (by decide) ?_
    refine CanReach.ok rfl (by decide) ?_
    exact ⟨_, _, .refl, rfl, rfl⟩
  rcases reached with ⟨rest, state, reached, returned, unexposed⟩
  exact ⟨rest, state, reached, returned,
    (all_or_nothing_iff_unexposed Sample.start_holds reached).1.mpr unexposed⟩

/-- The directory is not synchronised after the old database was renamed away. -/
theorem unsynced_archive_loses_the_database :
    ¬∀ (previous backup : Snapshot) (start : Directory) rest state,
      (start .database).Holds .previous previous →
        Program.Reaches (Step backup) (restoreWithInstaller.run, ⟨start, []⟩) (rest, state) →
          AllOrNothing previous backup rest state := by
  intro claimed
  have reached : CanReach Sample.backup
      (fun rest state => (∃ error, rest = .pure (.error error)) ∧ (state.files .database).main = none)
      restoreWithInstaller.run ⟨Sample.start, []⟩ := by
    apply Sample.canReach_staged
    refine CanReach.seen (by decide) ?_
    refine CanReach.ok ⟨_, _, none, none, rfl, rfl, by simp, by simp, rfl⟩ (by decide) ?_
    refine CanReach.ok rfl (by decide) ?_
    refine CanReach.ok rfl (by decide) ?_
    refine CanReach.seen (by decide) ?_
    refine CanReach.ok ⟨_, rfl, rfl⟩ (by decide) ?_
    refine @CanReach.error _ _ _ _ _ _ _ "fsync" _ rfl (by decide) ?_
    exact ⟨_, _, .refl, ⟨_, rfl⟩, rfl⟩
  rcases reached with ⟨rest, state, reached, _, absent⟩
  rcases (claimed _ _ _ _ _ Sample.start_holds reached).1 with holds | ⟨_, holds⟩
  · rcases holds.main with ⟨_, present, _⟩
    simp [absent] at present
  · rcases holds.main with ⟨_, present, _⟩
    simp [absent] at present

end Restore

end LzuMirror
