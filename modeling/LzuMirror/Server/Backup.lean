import LzuMirror.Lib.Directory
import LzuMirror.Lib.Interleaving
import Mathlib.Data.List.Sort
import Mathlib.Data.String.Basic

/-!
# Backups of the server

`create`, `list` and `verify` of `apps/lmt-server/src/backup.rs`. A backup is a copy
of the database and a manifest that describes it; both are written to temporary files,
synced and renamed, and the manifest comes last.

Any number of `create` calls run at a time: a request that is given up leaves its call
running. Every operation may fail, a call may be cut off after any of its operations,
and the power may fail, which leaves of the directory what `Directory.Lost` allows.
-/

namespace LzuMirror

/-- `BackupManifest`. -/
structure BackupManifest where
  id : String
  createdAt : String
  lmtVersion : String
  schemaVersion : ℕ
  configRevision : ℕ
  databaseSize : ℕ
  sha256 : String
  deriving DecidableEq, Repr

/-- The files of a backup. -/
inductive BackupFile where
  | database
  | databaseTmp
  | manifest
  | manifestTmp
  deriving DecidableEq, Repr

/-- A file in the backup directory. -/
structure BackupPath where
  id : String
  file : BackupFile
  deriving DecidableEq, Repr

/-- What a file has in it: the text of a manifest, or other bytes. -/
inductive BackupContent where
  | bytes (bytes : List UInt8)
  | manifest (manifest : BackupManifest)
  deriving DecidableEq, Repr

/-- The digest and the length of a file, the integrity check of a database, and the release. -/
structure BackupFormat where
  sha256 : BackupContent → String
  size : BackupContent → ℕ
  integrityMetadata : BackupContent → Except String (ℕ × ℕ)
  version : String

/-! ## `create` -/

/-- `validate_id`. -/
def validateId (id : String) : Bool :=
  decide (id.utf8ByteSize = 26) && id.toList.all Char.isAlphanum

/-- The operations of `create`; `finished` is its return. -/
inductive BackupOp where
  | createDirAll
  | newId
  | copyDatabase (id : String)
  | integrityMetadata (path : BackupPath)
  | checksum (path : BackupPath)
  | syncFile (path : BackupPath)
  | rename (source destination : BackupPath)
  | syncDirectory
  | now
  | createNew (path : BackupPath)
  | writeManifest (path : BackupPath) (manifest : BackupManifest)
  | finished (manifest : BackupManifest)

abbrev BackupOp.Reply : BackupOp → Type
  | .newId => String
  | .integrityMetadata _ => Except String (ℕ × ℕ)
  | .checksum _ => Except String (String × ℕ)
  | .now => Except String String
  | .finished _ => Unit
  | .createDirAll | .copyDatabase _ | .syncFile _ | .rename _ _ | .syncDirectory | .createNew _
  | .writeManifest _ _ => Except String Unit

abbrev BackupM := ExceptT String (Program BackupOp BackupOp.Reply)

namespace Backup

def createDirAll : BackupM Unit := ExceptT.mk (Program.request BackupOp.createDirAll)

def newId : BackupM String := ExceptT.lift (Program.request BackupOp.newId)

/-- `Backup::run_to_completion` into a new file. -/
def copyDatabase (id : String) : BackupM Unit :=
  ExceptT.mk (Program.request (BackupOp.copyDatabase id))

def integrityMetadata (path : BackupPath) : BackupM (ℕ × ℕ) :=
  ExceptT.mk (Program.request (BackupOp.integrityMetadata path))

def checksum (path : BackupPath) : BackupM (String × ℕ) :=
  ExceptT.mk (Program.request (BackupOp.checksum path))

def syncFile (path : BackupPath) : BackupM Unit :=
  ExceptT.mk (Program.request (BackupOp.syncFile path))

def rename (source destination : BackupPath) : BackupM Unit :=
  ExceptT.mk (Program.request (BackupOp.rename source destination))

def syncDirectory : BackupM Unit := ExceptT.mk (Program.request BackupOp.syncDirectory)

def now : BackupM String := ExceptT.mk (Program.request BackupOp.now)

def createNew (path : BackupPath) : BackupM Unit :=
  ExceptT.mk (Program.request (BackupOp.createNew path))

def writeManifest (path : BackupPath) (manifest : BackupManifest) : BackupM Unit :=
  ExceptT.mk (Program.request (BackupOp.writeManifest path manifest))

/-- `publish_manifest`. -/
def publishManifest (manifest : BackupManifest) : BackupM Unit := do
  createNew ⟨manifest.id, .manifestTmp⟩
  writeManifest ⟨manifest.id, .manifestTmp⟩ manifest
  syncFile ⟨manifest.id, .manifestTmp⟩
  rename ⟨manifest.id, .manifestTmp⟩ ⟨manifest.id, .manifest⟩
  syncDirectory

/-- The manifest of a copy. -/
def describe (version id : String) (metadata : ℕ × ℕ) (digest : String × ℕ)
    (createdAt : String) : BackupManifest where
  id
  createdAt
  lmtVersion := version
  schemaVersion := metadata.1
  configRevision := metadata.2
  databaseSize := digest.2
  sha256 := digest.1

/-- `create`. -/
def create (version : String) : BackupM BackupManifest := do
  createDirAll
  let id ← newId
  copyDatabase id
  let metadata ← integrityMetadata ⟨id, .databaseTmp⟩
  let digest ← checksum ⟨id, .databaseTmp⟩
  syncFile ⟨id, .databaseTmp⟩
  rename ⟨id, .databaseTmp⟩ ⟨id, .database⟩
  syncDirectory
  let createdAt ← now
  publishManifest (describe version id metadata digest createdAt)
  return describe version id metadata digest createdAt

/-- A call of `create` and its return. -/
def creation (version : String) : Program BackupOp BackupOp.Reply Unit := do
  match ← (create version).run with
  | .ok manifest => Program.request (BackupOp.finished manifest)
  | .error _ => pure ()

end Backup

/-! ## The directory -/

/-- The backup directory, who drew which id, and the manifests that were returned. -/
structure BackupState where
  directory : Directory BackupPath BackupContent
  drawn : String → Option ℕ
  finished : List BackupManifest

namespace BackupState

def init : BackupState := ⟨.empty, fun _ => none, []⟩

/-- The file that is seen at a path. -/
def file (state : BackupState) (path : BackupPath) : Option BackupContent :=
  (state.directory.entries path).map (·.content)

/-- A change of the directory that may fail, with or without effect. -/
def Attempts (before : BackupState) (possible : Prop)
    (effect : Directory BackupPath BackupContent) (reply : Except String Unit)
    (after : BackupState) : Prop :=
  reply = .ok () ∧ possible ∧ after = { before with directory := effect } ∨
    (∃ error, reply = .error error) ∧
      (after = before ∨ after = { before with directory := effect })

section Steps

variable (format : BackupFormat)

/-- What an operation of a task may do. -/
def Step (task : ℕ) : Program.Semantics BackupOp BackupOp.Reply BackupState
  | before, .createDirAll, _, after => after = before
  | before, .newId, id, after =>
      before.drawn id = none ∧ validateId id = true ∧
        after = { before with drawn := Function.update before.drawn id (some task) }
  | before, .copyDatabase id, reply, after =>
      ∃ copied, before.Attempts True (before.directory.store ⟨id, .databaseTmp⟩ copied) reply after
  | before, .integrityMetadata path, reply, after =>
      after = before ∧ ∀ metadata, reply = .ok metadata → ∃ copied, before.file path = some copied ∧
        format.integrityMetadata copied = .ok metadata
  | before, .checksum path, reply, after =>
      after = before ∧ ∀ digest, reply = .ok digest → ∃ copied, before.file path = some copied ∧
        digest = (format.sha256 copied, format.size copied)
  | before, .syncFile path, reply, after =>
      before.Attempts (before.file path ≠ none) (before.directory.syncFile path) reply after
  | before, .rename source destination, reply, after =>
      before.Attempts (before.file source ≠ none) (before.directory.rename source destination)
        reply after
  | before, .syncDirectory, reply, after => before.Attempts True before.directory.sync reply after
  | before, .now, _, after => after = before
  | before, .createNew path, reply, after =>
      before.Attempts (before.file path = none) (before.directory.store path (.bytes [])) reply
        after
  -- a failed write leaves any part of the text
  | before, .writeManifest path manifest, reply, after =>
      ∃ copied, (reply = .ok () → copied = BackupContent.manifest manifest) ∧
        before.Attempts True (before.directory.store path copied) reply after
  | before, .finished manifest, _, after =>
      after = { before with finished := manifest :: before.finished }

end Steps

/-- `verify` of an id, for the files as they are. -/
def verify (format : BackupFormat) (state : BackupState) (id : String) :
    Except String BackupManifest :=
  if !validateId id then .error "backup_invalid: invalid backup ID"
  else
    match state.file ⟨id, .manifest⟩ with
    | none => .error "backup_invalid: open manifest"
    | some (.bytes _) => .error "backup_invalid: parse manifest"
    | some (.manifest manifest) =>
        if manifest.id ≠ id then .error "backup_invalid: manifest ID mismatch"
        else
          match state.file ⟨id, .database⟩ with
          | none => .error "backup_invalid: checksum backup"
          | some copied =>
              if format.sha256 copied ≠ manifest.sha256 ∨
                  format.size copied ≠ manifest.databaseSize then
                .error "backup_invalid: checksum or size mismatch"
              else do
                let metadata ← format.integrityMetadata copied
                if metadata ≠ (manifest.schemaVersion, manifest.configRevision) then
                  .error "backup_invalid: manifest metadata mismatch"
                else return manifest

/-- What `list` makes of a file: a manifest that can be read, whose database is there. -/
def listed (state : BackupState) (path : BackupPath) :
    Option BackupManifest :=
  if path.file = .manifest then
    match state.file path with
    | some (.manifest manifest) =>
        if (state.file ⟨manifest.id, .database⟩).isSome then some manifest else none
    | some (.bytes _) | none => none
  else none

/-- The order of `list`: the latest first. -/
def Newer (left right : BackupManifest) : Prop :=
  right.createdAt < left.createdAt ∨ right.createdAt = left.createdAt ∧ right.id ≤ left.id

instance : DecidableRel Newer := fun _ _ => inferInstanceAs (Decidable (_ ∨ _))

/-- `list`, for the files in the order in which they are read. -/
def list (state : BackupState) (paths : List BackupPath) : List BackupManifest :=
  (paths.filterMap state.listed).insertionSort Newer

end BackupState

/-- The calls of `create` and the directory. -/
abbrev BackupPool := Pool ℕ BackupOp BackupOp.Reply BackupState

/-- The runs of the server, through losses of power. -/
inductive BackupPool.Runs (format : BackupFormat) : BackupPool → Prop where
  | start : Runs format ⟨fun _ => .pure (), .init⟩
  | move {pool after : BackupPool} (ran : Runs format pool)
      (moved : Pool.Move (BackupState.Step format)
        (fun _ program => program = Backup.creation format.version) pool after) :
      Runs format after
  | stop {pool : BackupPool} (ran : Runs format pool) (task : ℕ) :
      Runs format ⟨Function.update pool.tasks task (.pure ()), pool.state⟩
  | powerLoss {pool : BackupPool} {directory : Directory BackupPath BackupContent}
      (ran : Runs format pool) (lost : pool.state.directory.Lost directory) :
      Runs format ⟨fun _ => .pure (), { pool.state with directory }⟩

/-! ## What the calls keep -/

/-- The manifest describes the copy. -/
structure BackupManifest.Describes (format : BackupFormat) (manifest : BackupManifest)
    (copied : BackupContent) : Prop where
  digest : format.sha256 copied = manifest.sha256
  size : format.size copied = manifest.databaseSize
  metadata : format.integrityMetadata copied = .ok (manifest.schemaVersion, manifest.configRevision)

namespace BackupState

section Sound

variable (format : BackupFormat)

/-- What the manifest of an id may show: nothing, or the description of a copy that is durable. -/
def Published (directory : Directory BackupPath BackupContent) (id : String)
    (entry : Option (StoredFile BackupContent)) : Prop :=
  entry = none ∨ ∃ manifest copied, entry = some ⟨BackupContent.manifest manifest, true⟩ ∧
    manifest.id = id ∧ validateId id = true ∧ directory.Durable ⟨id, .database⟩ copied ∧
      manifest.Describes format copied

/-- The invariant of the directory. -/
structure Sound (state : BackupState) : Prop where
  fresh : ∀ id file, state.drawn id = none →
    state.directory.Certain ⟨id, file⟩ fun entry => entry = none
  valid : ∀ id, state.drawn id ≠ none → validateId id = true
  published : ∀ id, state.directory.Certain ⟨id, .manifest⟩ (Published format state.directory id)
  finished : ∀ manifest ∈ state.finished,
    state.directory.Durable ⟨manifest.id, .manifest⟩ (.manifest manifest)

end Sound

/-- What a task may assume of the others: they leave its ids alone. -/
def Rely (task : ℕ) (before after : BackupState) : Prop :=
  ∀ id, before.drawn id = some task → after.drawn id = some task ∧
    ∀ file, Directory.Leaves ⟨id, file⟩ before.directory after.directory

/-- What a task promises: it leaves the other ids alone. -/
def Guarantee (task : ℕ) (before after : BackupState) : Prop :=
  ∀ id, before.drawn id ≠ some task →
    (before.drawn id ≠ none → after.drawn id = before.drawn id) ∧
      ∀ file, Directory.Leaves ⟨id, file⟩ before.directory after.directory

section Sound

variable {format : BackupFormat} {before after : BackupState} {id : String} {task : ℕ}

theorem Published.leaves {directory later : Directory BackupPath BackupContent}
    {entry : Option (StoredFile BackupContent)} (published : Published format directory id entry)
    (leaves : Directory.Leaves ⟨id, .database⟩ directory later) :
    Published format later id entry := by
  rcases published with none | ⟨manifest, copied, shown, named, valid, durable, describes⟩
  · exact .inl none
  · exact .inr ⟨manifest, copied, shown, named, valid, leaves.certain durable, describes⟩

/-- The files of one id change. -/
theorem Sound.change (sound : before.Sound format) (mine : before.drawn id = some task)
    {directory : Directory BackupPath BackupContent}
    (leaves : ∀ other file, other ≠ id →
      Directory.Leaves ⟨other, file⟩ before.directory directory)
    (published : directory.Certain ⟨id, .manifest⟩ (Published format directory id))
    (finished : ∀ manifest ∈ before.finished, manifest.id = id →
      directory.Durable ⟨id, .manifest⟩ (.manifest manifest)) :
    { before with directory }.Sound format where
  fresh other file undrawn := by
    have apart : other ≠ id := by
      rintro rfl
      simp [mine] at undrawn
    exact (leaves other file apart).certain (sound.fresh other file undrawn)
  valid := sound.valid
  published other := by
    by_cases same : other = id
    · exact same ▸ published
    · have certain := (leaves other .manifest same).certain (sound.published other)
      exact certain.imp fun entry shown => shown.leaves (leaves other .database same)
  finished manifest member := by
    by_cases same : manifest.id = id
    · exact same ▸ finished manifest member same
    · exact (leaves _ _ same).certain (sound.finished manifest member)

theorem guarantee_change (mine : before.drawn id = some task)
    {directory : Directory BackupPath BackupContent}
    (leaves : ∀ other file, other ≠ id →
      Directory.Leaves ⟨other, file⟩ before.directory directory) :
    Guarantee task before { before with directory } := by
  intro other foreign
  refine ⟨fun _ => rfl, fun file => leaves other file ?_⟩
  rintro rfl
  exact foreign mine

end Sound

/-! ## The stages of a call -/

/-- The files of one id, as its task knows them. -/
structure Stage (task : ℕ) (id : String) (known : Directory BackupPath BackupContent → Prop)
    (state : BackupState) : Prop where
  mine : state.drawn id = some task
  known : known state.directory

/-- It depends on the files of the id only. -/
def Private (id : String) (known : Directory BackupPath BackupContent → Prop) : Prop :=
  ∀ before after, (∀ file, Directory.Leaves ⟨id, file⟩ before after) → known before → known after

/-- There is no manifest yet. -/
def Unpublished (id : String) (directory : Directory BackupPath BackupContent) : Prop :=
  directory.Certain ⟨id, .manifest⟩ fun entry => entry = none

/-- A file has this content. -/
def Seen (path : BackupPath) (copied : BackupContent)
    (directory : Directory BackupPath BackupContent) : Prop :=
  (directory.entries path).map (·.content) = some copied

/-- A file has this content and was synced. -/
def Has (path : BackupPath) (copied : BackupContent)
    (directory : Directory BackupPath BackupContent) : Prop :=
  directory.entries path = some ⟨copied, true⟩

section Stages

variable {format : BackupFormat} {task : ℕ} {id : String} {before after : BackupState}
  {known next : Directory BackupPath BackupContent → Prop}

theorem Private.and (first : Private id known) (second : Private id next) :
    Private id fun directory => known directory ∧ next directory :=
  fun before after leaves both =>
    ⟨first before after leaves both.1, second before after leaves both.2⟩

theorem private_unpublished : Private id (Unpublished id) :=
  fun _ _ leaves unpublished => (leaves .manifest).certain unpublished

theorem private_seen {file : BackupFile} {copied : BackupContent} :
    Private id (Seen ⟨id, file⟩ copied) := by
  intro before after leaves seen
  simpa only [Seen, (leaves file).entries] using seen

theorem private_has {file : BackupFile} {copied : BackupContent} :
    Private id (Has ⟨id, file⟩ copied) :=
  fun _ _ leaves has => (leaves file).entries.trans has

theorem private_durable {file : BackupFile} {copied : BackupContent} :
    Private id fun directory => directory.Durable ⟨id, file⟩ copied :=
  fun _ _ leaves durable => (leaves file).certain durable

theorem Stage.stable (stage : Stage task id known before) (isPrivate : Private id known)
    (relied : Rely task before after) : Stage task id known after where
  mine := (relied id stage.mine).1
  known := isPrivate _ _ (relied id stage.mine).2 stage.known

/-- A postcondition of the operations that succeed. -/
def OnOk {α : Type} (post : α → BackupState → Prop) : Except String α → BackupState → Prop
  | .ok value, after => post value after
  | .error _, _ => True

/-- A change of the files of the id that may fail. -/
theorem Stage.attempts (stage : Stage task id known before) (sound : before.Sound format)
    {possible : Prop} {effect : Directory BackupPath BackupContent} {reply : Except String Unit}
    (attempted : before.Attempts possible effect reply after)
    (leaves : ∀ other file, other ≠ id → Directory.Leaves ⟨other, file⟩ before.directory effect)
    (published : effect.Certain ⟨id, .manifest⟩ (Published format effect id))
    (finished : ∀ manifest ∈ before.finished, manifest.id = id →
      effect.Durable ⟨id, .manifest⟩ (.manifest manifest))
    (reached : possible → next effect) :
    (Guarantee task before after ∧ after.Sound format) ∧
      OnOk (fun _ => Stage task id next) reply after := by
  have changed := sound.change stage.mine leaves published finished
  have promised := guarantee_change stage.mine leaves
  rcases attempted with ⟨rfl, isPossible, rfl⟩ | ⟨⟨error, rfl⟩, rfl | rfl⟩
  · exact ⟨⟨promised, changed⟩, stage.mine, reached isPossible⟩
  · exact ⟨⟨fun _ _ => ⟨fun _ => rfl, fun _ => .refl _⟩, sound⟩, trivial⟩
  · exact ⟨⟨promised, changed⟩, trivial⟩

/-- A change before the manifest is there. -/
theorem Stage.prepares (stage : Stage task id known before) (sound : before.Sound format)
    {possible : Prop} {effect : Directory BackupPath BackupContent} {reply : Except String Unit}
    (attempted : before.Attempts possible effect reply after)
    (leaves : ∀ other file, other ≠ id → Directory.Leaves ⟨other, file⟩ before.directory effect)
    (unpublished : Unpublished id before.directory) (still : Unpublished id effect)
    (reached : possible → next effect) :
    (Guarantee task before after ∧ after.Sound format) ∧
      OnOk (fun _ => Stage task id fun directory => Unpublished id directory ∧ next directory)
        reply after := by
  refine stage.attempts sound attempted leaves (still.imp fun _ none => .inl none) ?_
    fun isPossible => ⟨still, reached isPossible⟩
  rintro manifest member rfl
  have entry := (sound.finished manifest member).entry
  rw [unpublished.now] at entry
  cases entry

end Stages

section Rules

variable {format : BackupFormat} {task : ℕ} {id : String} {state : BackupState} {α β : Type}
  {known : Directory BackupPath BackupContent → Prop}

/-- Every step keeps the guarantee, and the end satisfies the postcondition. -/
def Holds (format : BackupFormat) (task : ℕ) (program : BackupM α)
    (post : Except String α → BackupState → Prop) (state : BackupState) : Prop :=
  program.run.Safe (Step format task) (Rely task) (Guarantee task) (Sound format) post state

theorem holds_bind {program : BackupM α} {next : α → BackupM β} {middle : α → BackupState → Prop}
    {post : β → BackupState → Prop} (first : Holds format task program (OnOk middle) state)
    (rest : ∀ value after, middle value after →
      Holds format task (next value) (OnOk post) after) :
    Holds format task (program >>= next) (OnOk post) state := by
  refine Program.safe_exceptBind.mpr (Program.Safe.imp first ?_)
  rintro (error | value) after held
  · trivial
  · exact rest value after held

/-- The rule for one operation on the files of the id. -/
theorem safe_request {operation : BackupOp} {post : operation.Reply → BackupState → Prop}
    (stage : Stage task id known state) (isPrivate : Private id known)
    (steps : ∀ before reply after, Stage task id known before → before.Sound format →
      Step format task before operation reply after →
        (Guarantee task before after ∧ after.Sound format) ∧ post reply after) :
    (Program.request operation).Safe (Step format task) (Rely task) (Guarantee task)
      (Sound format) post state :=
  fun before reply after relied sound performed =>
    steps before reply after (stage.stable isPrivate relied) sound performed

theorem guarantee_refl (state : BackupState) : Guarantee task state state :=
  fun _ _ => ⟨fun _ => rfl, fun _ => .refl _⟩

theorem apart_of_id {first second : String} {file other : BackupFile} (apart : first ≠ second) :
    (⟨first, file⟩ : BackupPath) ≠ ⟨second, other⟩ := by
  rintro ⟨⟩
  exact apart rfl

theorem apart_of_file {first second : String} {file other : BackupFile} (apart : file ≠ other) :
    (⟨first, file⟩ : BackupPath) ≠ ⟨second, other⟩ := by
  rintro ⟨⟩
  exact apart rfl

/-! ### The copy -/

section Copy

variable {copied : BackupContent}

theorem holds_createDirAll :
    Holds format task Backup.createDirAll (OnOk fun _ _ => True) state := by
  rintro before (error | _) after - sound rfl
  · exact ⟨⟨guarantee_refl _, sound⟩, trivial⟩
  · exact ⟨⟨guarantee_refl _, sound⟩, trivial⟩

theorem holds_newId {post : String → BackupState → Prop}
    (held : ∀ id after, Stage task id (Unpublished id) after → post id after) :
    Holds format task Backup.newId (OnOk post) state := by
  refine Program.safe_exceptLift.mpr ?_
  rintro before id after - sound ⟨undrawn, valid, rfl⟩
  have mine : Function.update before.drawn id (some task) id = some task := by simp
  refine ⟨⟨fun other foreign => ⟨fun drawn => ?_, fun _ => .refl _⟩, ?_⟩, ?_⟩
  · refine Function.update_of_ne ?_ _ _
    rintro rfl
    exact drawn undrawn
  · refine ⟨fun other file unowned => ?_, fun other drawn => ?_, sound.published, sound.finished⟩
    · by_cases same : other = id
      · exact sound.fresh other file (same ▸ undrawn)
      · exact sound.fresh other file (by simpa [Function.update_of_ne same] using unowned)
    · by_cases same : other = id
      · exact same ▸ valid
      · exact sound.valid other (by simpa [Function.update_of_ne same] using drawn)
  · exact held id _ ⟨mine, sound.fresh id .manifest undrawn⟩

theorem holds_copyDatabase (stage : Stage task id (Unpublished id) state) :
    Holds format task (Backup.copyDatabase id)
      (OnOk fun _ after => ∃ copied, Stage task id
        (fun directory => Unpublished id directory ∧ Seen ⟨id, .databaseTmp⟩ copied directory)
          after) state := by
  refine safe_request stage private_unpublished ?_
  rintro before reply after stage sound ⟨copied, attempted⟩
  have still : Unpublished id (before.directory.store ⟨id, .databaseTmp⟩ copied) :=
    (Directory.leaves_store (apart_of_file (by simp))).certain stage.known
  have seen : Seen ⟨id, .databaseTmp⟩ copied
      (before.directory.store ⟨id, .databaseTmp⟩ copied) := by
    simp [Seen]
  have prepared := stage.prepares sound attempted
    (fun other file apart => Directory.leaves_store (apart_of_id apart)) stage.known still
    fun _ => seen
  refine ⟨prepared.1, ?_⟩
  rcases reply with error | _
  · trivial
  · exact ⟨copied, prepared.2⟩

/-- The file that is read is the one that was written. -/
theorem file_of_seen {path : BackupPath} (seen : Seen path copied state.directory)
    {read : BackupContent} (found : state.file path = some read) : read = copied :=
  Option.some.inj (found.symm.trans seen)

theorem holds_integrityMetadata {file : BackupFile}
    (stage : Stage task id
      (fun directory => Unpublished id directory ∧ Seen ⟨id, file⟩ copied directory) state) :
    Holds format task (Backup.integrityMetadata ⟨id, file⟩)
      (OnOk fun metadata after => format.integrityMetadata copied = .ok metadata ∧ Stage task id
        (fun directory => Unpublished id directory ∧ Seen ⟨id, file⟩ copied directory) after)
      state := by
  refine safe_request stage (private_unpublished.and private_seen) ?_
  rintro before reply after stage sound ⟨rfl, answers⟩
  refine ⟨⟨guarantee_refl _, sound⟩, ?_⟩
  rcases reply with error | metadata
  · trivial
  · rcases answers metadata rfl with ⟨read, found, checked⟩
    exact ⟨file_of_seen stage.known.2 found ▸ checked, stage⟩

theorem holds_checksum {file : BackupFile}
    (stage : Stage task id
      (fun directory => Unpublished id directory ∧ Seen ⟨id, file⟩ copied directory) state) :
    Holds format task (Backup.checksum ⟨id, file⟩)
      (OnOk fun digest after => digest = (format.sha256 copied, format.size copied) ∧ Stage task id
        (fun directory => Unpublished id directory ∧ Seen ⟨id, file⟩ copied directory) after)
      state := by
  refine safe_request stage (private_unpublished.and private_seen) ?_
  rintro before reply after stage sound ⟨rfl, answers⟩
  refine ⟨⟨guarantee_refl _, sound⟩, ?_⟩
  rcases reply with error | digest
  · trivial
  · rcases answers digest rfl with ⟨read, found, computed⟩
    exact ⟨file_of_seen stage.known.2 found ▸ computed, stage⟩

theorem holds_now (stage : Stage task id known state) (isPrivate : Private id known) :
    Holds format task Backup.now (OnOk fun _ after => Stage task id known after) state := by
  refine safe_request stage isPrivate ?_
  rintro before reply after stage sound rfl
  refine ⟨⟨guarantee_refl _, sound⟩, ?_⟩
  rcases reply with error | time
  · trivial
  · exact stage

/-- A file is synced, and what is known of the others stays. -/
theorem holds_syncFile {file : BackupFile} (temporary : file ≠ .manifest)
    (isPrivate : Private id known)
    (keeps : ∀ directory : Directory BackupPath BackupContent, known directory →
      known (directory.syncFile ⟨id, file⟩))
    (stage : Stage task id (fun directory => Unpublished id directory ∧ known directory ∧
      Seen ⟨id, file⟩ copied directory) state) :
    Holds format task (Backup.syncFile ⟨id, file⟩)
      (OnOk fun _ after => Stage task id (fun directory => Unpublished id directory ∧
        known directory ∧ Has ⟨id, file⟩ copied directory) after) state := by
  refine safe_request stage (private_unpublished.and (isPrivate.and private_seen)) ?_
  intro before reply after stage sound attempted
  rcases stage.known with ⟨unpublished, holds, seen⟩
  have still : Unpublished id (before.directory.syncFile ⟨id, file⟩) :=
    (Directory.leaves_syncFile (apart_of_file (Ne.symm temporary))).certain unpublished
  refine stage.prepares sound attempted
    (fun other file apart => Directory.leaves_syncFile (apart_of_id apart)) unpublished still
    fun _ => ⟨keeps _ holds, ?_⟩
  rcases Option.map_eq_some_iff.mp seen with ⟨stored, entry, rfl⟩
  simp [Has, entry]

theorem holds_renameDatabase
    (stage : Stage task id (fun directory => Unpublished id directory ∧
      Has ⟨id, .databaseTmp⟩ copied directory) state) :
    Holds format task (Backup.rename ⟨id, .databaseTmp⟩ ⟨id, .database⟩)
      (OnOk fun _ after => Stage task id (fun directory => Unpublished id directory ∧
        Has ⟨id, .database⟩ copied directory) after) state := by
  refine safe_request stage (private_unpublished.and private_has) ?_
  intro before reply after stage sound attempted
  rcases stage.known with ⟨unpublished, has⟩
  refine stage.prepares sound attempted
    (fun other file apart => Directory.leaves_rename (apart_of_id apart) (apart_of_id apart))
    unpublished ?_ fun _ => ?_
  · exact (Directory.leaves_rename (apart_of_file (by simp)) (apart_of_file (by simp))).certain
      unpublished
  · exact (Directory.rename_entries (apart_of_file (by simp))).trans has

theorem holds_syncDatabase
    (stage : Stage task id (fun directory => Unpublished id directory ∧
      Has ⟨id, .database⟩ copied directory) state) :
    Holds format task Backup.syncDirectory
      (OnOk fun _ after => Stage task id (fun directory => Unpublished id directory ∧
        directory.Durable ⟨id, .database⟩ copied) after) state := by
  refine safe_request stage (private_unpublished.and private_has) ?_
  intro before reply after stage sound attempted
  rcases stage.known with ⟨unpublished, has⟩
  exact stage.prepares sound attempted (fun _ _ _ => Directory.leaves_sync) unpublished
    unpublished.sync fun _ => Directory.durable_sync.mpr has

end Copy

/-! ### The manifest -/

section Manifest

variable {copied : BackupContent} {manifest : BackupManifest}

/-- The temporary file of the manifest gets a content. -/
theorem Stage.stores {before after : BackupState}
    (stage : Stage task id (fun directory => Unpublished id directory ∧
      directory.Durable ⟨id, .database⟩ copied) before) (sound : before.Sound format)
    {possible : Prop} {content : BackupContent} {reply : Except String Unit}
    (attempted : before.Attempts possible (before.directory.store ⟨id, .manifestTmp⟩ content) reply
      after) :
    (Guarantee task before after ∧ after.Sound format) ∧
      OnOk (fun _ => Stage task id fun directory => Unpublished id directory ∧
        directory.Durable ⟨id, .database⟩ copied ∧ Seen ⟨id, .manifestTmp⟩ content directory)
          reply after := by
  rcases stage.known with ⟨unpublished, durable⟩
  refine stage.prepares sound attempted
    (fun other file apart => Directory.leaves_store (apart_of_id apart)) unpublished ?_ fun _ => ?_
  · exact (Directory.leaves_store (apart_of_file (by simp))).certain unpublished
  · exact ⟨(Directory.leaves_store (apart_of_file (by simp))).certain durable, by simp [Seen]⟩

theorem holds_createNew
    (stage : Stage task id (fun directory => Unpublished id directory ∧
      directory.Durable ⟨id, .database⟩ copied) state) :
    Holds format task (Backup.createNew ⟨id, .manifestTmp⟩)
      (OnOk fun _ after => Stage task id (fun directory => Unpublished id directory ∧
        directory.Durable ⟨id, .database⟩ copied) after) state := by
  refine safe_request stage (private_unpublished.and private_durable) ?_
  intro before reply after stage sound attempted
  have stored := stage.stores sound attempted
  refine ⟨stored.1, ?_⟩
  rcases reply with error | _
  · trivial
  · exact ⟨stored.2.mine, stored.2.known.1, stored.2.known.2.1⟩

theorem holds_writeManifest
    (stage : Stage task id (fun directory => Unpublished id directory ∧
      directory.Durable ⟨id, .database⟩ copied) state) :
    Holds format task (Backup.writeManifest ⟨id, .manifestTmp⟩ manifest)
      (OnOk fun _ after => Stage task id (fun directory => Unpublished id directory ∧
        directory.Durable ⟨id, .database⟩ copied ∧
          Seen ⟨id, .manifestTmp⟩ (.manifest manifest) directory) after) state := by
  refine safe_request stage (private_unpublished.and private_durable) ?_
  rintro before reply after stage sound ⟨content, complete, attempted⟩
  have stored := stage.stores sound attempted
  refine ⟨stored.1, ?_⟩
  rcases reply with error | _
  · trivial
  · exact complete rfl ▸ stored.2

/-- The manifest appears, and what it describes is durable. -/
theorem holds_renameManifest (named : manifest.id = id)
    (describes : manifest.Describes format copied)
    (stage : Stage task id (fun directory => Unpublished id directory ∧
      directory.Durable ⟨id, .database⟩ copied ∧
        Has ⟨id, .manifestTmp⟩ (.manifest manifest) directory) state) :
    Holds format task (Backup.rename ⟨id, .manifestTmp⟩ ⟨id, .manifest⟩)
      (OnOk fun _ after => Stage task id
        (fun directory => Has ⟨id, .manifest⟩ (.manifest manifest) directory) after) state := by
  refine safe_request stage (private_unpublished.and (private_durable.and private_has)) ?_
  intro before reply after stage sound attempted
  rcases stage.known with ⟨unpublished, durable, has⟩
  have renamed : Has ⟨id, .manifest⟩ (.manifest manifest)
      (before.directory.rename ⟨id, .manifestTmp⟩ ⟨id, .manifest⟩) :=
    (Directory.rename_entries (apart_of_file (by simp))).trans has
  have still : (before.directory.rename ⟨id, .manifestTmp⟩ ⟨id, .manifest⟩).Durable
      ⟨id, .database⟩ copied :=
    (Directory.leaves_rename (apart_of_file (by simp)) (apart_of_file (by simp))).certain durable
  have valid := sound.valid id (by simp [stage.mine])
  refine stage.attempts sound attempted
    (fun other file apart => Directory.leaves_rename (apart_of_id apart) (apart_of_id apart))
    ?_ ?_ fun _ => renamed
  · refine Directory.Certain.change (unpublished.imp fun _ none => .inl none) ?_
    exact .inr ⟨manifest, copied, renamed, named, valid, still, describes⟩
  · rintro other member rfl
    have entry := (sound.finished other member).entry
    rw [unpublished.now] at entry
    cases entry

theorem holds_syncManifest
    (stage : Stage task id
      (fun directory => Has ⟨id, .manifest⟩ (.manifest manifest) directory) state) :
    Holds format task Backup.syncDirectory
      (OnOk fun _ after => Stage task id
        (fun directory => directory.Durable ⟨id, .manifest⟩ (.manifest manifest)) after)
      state := by
  refine safe_request stage private_has ?_
  intro before reply after stage sound attempted
  refine stage.attempts sound attempted (fun _ _ _ => Directory.leaves_sync) ?_ ?_ fun _ => ?_
  · exact (sound.published id).sync.imp fun _ published =>
      published.leaves Directory.leaves_sync
  · rintro other member rfl
    exact (sound.finished other member).sync
  · exact Directory.durable_sync.mpr stage.known

/-- `publish_manifest` of the description of a durable copy. -/
theorem holds_publishManifest (named : manifest.id = id)
    (describes : manifest.Describes format copied)
    (stage : Stage task id (fun directory => Unpublished id directory ∧
      directory.Durable ⟨id, .database⟩ copied) state) :
    Holds format task (Backup.publishManifest manifest)
      (OnOk fun _ after => Stage task id
        (fun directory => directory.Durable ⟨id, .manifest⟩ (.manifest manifest)) after)
      state := by
  subst named
  refine holds_bind (holds_createNew stage) fun _ _ stage => ?_
  refine holds_bind (holds_writeManifest stage) fun _ _ stage => ?_
  refine holds_bind (holds_syncFile (by simp) private_durable ?_ stage) fun _ _ stage => ?_
  · intro directory durable
    exact (Directory.leaves_syncFile (apart_of_file (by simp))).certain durable
  refine holds_bind (holds_renameManifest rfl describes stage) fun _ _ stage => ?_
  exact holds_syncManifest stage

end Manifest

/-- `create` returns the manifest of a backup that is durable. -/
theorem holds_create : Holds format task (Backup.create format.version)
    (OnOk fun manifest after => Stage task manifest.id
      (fun directory => directory.Durable ⟨manifest.id, .manifest⟩ (.manifest manifest)) after)
    state := by
  refine holds_bind holds_createDirAll fun _ _ _ => ?_
  refine holds_bind (holds_newId fun _ _ stage => stage) fun id _ stage => ?_
  refine holds_bind (holds_copyDatabase stage) ?_
  rintro _ _ ⟨copied, stage⟩
  refine holds_bind (holds_integrityMetadata stage) ?_
  rintro metadata _ ⟨checked, stage⟩
  refine holds_bind (holds_checksum stage) ?_
  rintro _ _ ⟨rfl, stage⟩
  have known : Stage task id (fun directory => Unpublished id directory ∧ True ∧
      Seen ⟨id, .databaseTmp⟩ copied directory) _ :=
    ⟨stage.mine, stage.known.1, trivial, stage.known.2⟩
  refine holds_bind (holds_syncFile (by simp) (fun _ _ _ _ => trivial) (fun _ _ => trivial) known)
    fun _ _ stage => ?_
  have synced : Stage task id (fun directory => Unpublished id directory ∧
      Has ⟨id, .databaseTmp⟩ copied directory) _ :=
    ⟨stage.mine, stage.known.1, stage.known.2.2⟩
  refine holds_bind (holds_renameDatabase synced) fun _ _ stage => ?_
  refine holds_bind (holds_syncDatabase stage) fun _ _ stage => ?_
  refine holds_bind (holds_now stage (private_unpublished.and private_durable))
    fun createdAt _ stage => ?_
  have describes : (Backup.describe format.version id metadata
      (format.sha256 copied, format.size copied) createdAt).Describes format copied :=
    ⟨rfl, rfl, checked⟩
  refine holds_bind (holds_publishManifest rfl describes stage) fun _ _ stage => ?_
  exact stage

theorem creation_safe : (Backup.creation format.version).Safe (Step format task) (Rely task)
    (Guarantee task) (Sound format) (fun _ _ => True) state := by
  refine Program.safe_bind.mpr (Program.Safe.imp holds_create ?_)
  rintro (error | manifest) after stage
  · trivial
  rintro before ⟨⟩ last relied sound rfl
  have durable := (stage.stable private_durable relied).known
  refine ⟨⟨fun _ _ => ⟨fun _ => rfl, fun _ => .refl _⟩, ?_⟩, trivial⟩
  refine ⟨sound.fresh, sound.valid, sound.published, fun other member => ?_⟩
  rcases List.mem_cons.mp member with rfl | earlier
  · exact durable
  · exact sound.finished other earlier

end Rules

/-! ## The runs -/

theorem Sound.lost {format : BackupFormat} {state : BackupState}
    {directory : Directory BackupPath BackupContent} (sound : state.Sound format)
    (lost : state.directory.Lost directory) : { state with directory }.Sound format where
  fresh id file undrawn := by
    refine (sound.fresh id file undrawn).lost lost ?_
    rintro _ _ rfl survives
    cases survives
    rfl
  valid := sound.valid
  published id := by
    refine (sound.published id).lost lost ?_
    rintro _ left (rfl | ⟨manifest, copied, rfl, named, valid, durable, describes⟩) survives
    · cases survives
      exact .inl rfl
    · cases survives
      exact .inr ⟨manifest, copied, rfl, named, valid, durable.lost lost, describes⟩
  finished manifest member := (sound.finished manifest member).lost lost

end BackupState

namespace BackupPool

open BackupState

variable {format : BackupFormat} {pool : BackupPool}

theorem sound_init : BackupState.init.Sound format where
  fresh id file _ := by simp [Directory.Certain, Directory.Shows, init, Directory.empty]
  valid := by simp [init]
  published id := by
    simp [Directory.Certain, Directory.Shows, init, Directory.empty, Published]
  finished := by simp [init]

theorem Runs.secure (ran : pool.Runs format) :
    pool.Secure (Step format) Rely Guarantee (Sound format) fun _ _ => True := by
  induction ran with
  | start => exact ⟨sound_init, fun _ => trivial⟩
  | move _ moved secure =>
      refine secure.move ?_ ?_ ?_ ?_ ?_ moved
      · exact fun task state id mine => ⟨mine, fun _ => .refl _⟩
      · intro task first second third left right id mine
        have middle := left id mine
        have last := right id middle.1
        exact ⟨last.1, fun file => (middle.2 file).trans (last.2 file)⟩
      · exact fun _ _ _ _ _ => trivial
      · intro actor task before after apart _ guaranteed id mine
        have foreign : before.drawn id ≠ some actor := by
          rw [mine]
          exact fun same => apart (Option.some.inj same).symm
        have kept := guaranteed id foreign
        exact ⟨(kept.1 (by simp [mine])).trans mine, kept.2⟩
      · rintro task _ state rfl _ _
        exact creation_safe
  | @stop pool _ task secure =>
      refine ⟨secure.valid, fun other => ?_⟩
      by_cases same : other = task
      · subst same
        simp [Program.Safe]
      · simpa only [Function.update_of_ne same] using secure.safe other
  | powerLoss _ lost secure => exact ⟨secure.valid.lost lost, fun _ => trivial⟩

end BackupPool

namespace BackupState

variable {format : BackupFormat} {state : BackupState}

/-- What the manifest and the database of an id say is what `verify` checks. -/
theorem verify_of_entries {manifest : BackupManifest} {copied : BackupContent}
    (valid : validateId manifest.id = true)
    (shown : state.file ⟨manifest.id, .manifest⟩ = some (.manifest manifest))
    (present : state.file ⟨manifest.id, .database⟩ = some copied)
    (describes : manifest.Describes format copied) :
    state.verify format manifest.id = .ok manifest := by
  simp [verify, valid, shown, present, describes.digest, describes.size,
    describes.metadata, bind, Except.bind, pure, Except.pure]

/-- Every manifest that can be seen is the one of its id, and it verifies. -/
theorem Sound.verify (sound : state.Sound format) {id : String} {text : BackupContent}
    (shown : state.file ⟨id, .manifest⟩ = some text) :
    ∃ manifest, manifest.id = id ∧ text = .manifest manifest ∧
      (state.file ⟨id, .database⟩).isSome = true ∧ state.verify format id = .ok manifest := by
  rcases (sound.published id).now with
    none | ⟨manifest, copied, entry, rfl, valid, durable, describes⟩
  · simp [file, none] at shown
  · have written : state.file ⟨manifest.id, .manifest⟩ = some (.manifest manifest) := by
      simp [file, entry]
    have present : state.file ⟨manifest.id, .database⟩ = some copied := by
      simp [file, durable.entry]
    exact ⟨manifest, rfl, Option.some.inj (shown.symm.trans written), by simp [present],
      verify_of_entries valid written present describes⟩

theorem mem_list {manifest : BackupManifest} {paths : List BackupPath} :
    manifest ∈ state.list paths ↔ ∃ path ∈ paths, state.listed path = some manifest := by
  rw [list, List.mem_insertionSort, List.mem_filterMap]

/-- What `list` makes of a manifest that can be seen. -/
theorem Sound.listed_eq (sound : state.Sound format) {id : String} {text : BackupContent}
    (shown : state.file ⟨id, .manifest⟩ = some text) :
    ∃ manifest, manifest.id = id ∧ text = .manifest manifest ∧
      state.listed ⟨id, .manifest⟩ = some manifest ∧ state.verify format id = .ok manifest := by
  rcases sound.verify shown with ⟨manifest, rfl, rfl, present, verified⟩
  exact ⟨manifest, rfl, rfl, by simp [listed, shown, present], verified⟩

theorem Sound.verify_of_listed (sound : state.Sound format) {path : BackupPath}
    {manifest : BackupManifest} (isListed : state.listed path = some manifest) :
    state.verify format manifest.id = .ok manifest := by
  rcases path with ⟨id, file⟩
  cases file with
  | manifest =>
      cases shown : state.file ⟨id, .manifest⟩ with
      | none => simp [listed, shown] at isListed
      | some text =>
          rcases sound.listed_eq shown with ⟨found, rfl, _, same, verified⟩
          rw [isListed] at same
          cases same
          exact verified
  | database | databaseTmp | manifestTmp => simp [listed] at isListed

end BackupState

/-! ## A run -/

namespace BackupState

section Answer

variable (format : BackupFormat) (id : String) (copied : BackupContent)

/-- One possible course of events: every operation that is possible succeeds. -/
def answer (task : ℕ) (before : BackupState) :
    (operation : BackupOp) → Option (operation.Reply × BackupState)
  | .createDirAll => some (.ok (), before)
  | .newId =>
      if before.drawn id = none ∧ validateId id = true then
        some (id, { before with drawn := Function.update before.drawn id (some task) })
      else none
  | .copyDatabase id =>
      some (.ok (), { before with directory := before.directory.store ⟨id, .databaseTmp⟩ copied })
  | .integrityMetadata path =>
      (before.file path).map fun content => (format.integrityMetadata content, before)
  | .checksum path => (before.file path).map fun content =>
      (.ok (format.sha256 content, format.size content), before)
  | .syncFile path =>
      if before.file path ≠ none then
        some (.ok (), { before with directory := before.directory.syncFile path })
      else none
  | .rename source destination =>
      if before.file source ≠ none then
        some (.ok (), { before with directory := before.directory.rename source destination })
      else none
  | .syncDirectory => some (.ok (), { before with directory := before.directory.sync })
  | .now => some (.ok "2026-09-03T00:00:00Z", before)
  | .createNew path =>
      if before.file path = none then
        some (.ok (), { before with directory := before.directory.store path (.bytes []) })
      else none
  | .writeManifest path manifest =>
      some (.ok (), { before with directory := before.directory.store path (.manifest manifest) })
  | .finished manifest => some ((), { before with finished := manifest :: before.finished })

theorem step_answer (task : ℕ) (before : BackupState) (operation : BackupOp)
    (reply : operation.Reply) (after : BackupState)
    (answered : before.answer format id copied task operation = some (reply, after)) :
    Step format task before operation reply after := by
  cases operation with
  | createDirAll | now | finished manifest =>
      cases answered
      rfl
  | newId =>
      rw [answer, Option.ite_none_right_eq_some] at answered
      rcases answered with ⟨⟨undrawn, valid⟩, made⟩
      cases made
      exact ⟨undrawn, valid, rfl⟩
  | copyDatabase id =>
      cases answered
      exact ⟨copied, .inl ⟨rfl, trivial, rfl⟩⟩
  | integrityMetadata path =>
      rcases Option.map_eq_some_iff.mp answered with ⟨content, found, made⟩
      cases made
      exact ⟨rfl, fun metadata checked => ⟨content, found, checked⟩⟩
  | checksum path =>
      rcases Option.map_eq_some_iff.mp answered with ⟨content, found, made⟩
      cases made
      refine ⟨rfl, fun digest computed => ⟨content, found, ?_⟩⟩
      cases computed
      rfl
  | syncFile path | rename source destination | createNew path =>
      rw [answer, Option.ite_none_right_eq_some] at answered
      rcases answered with ⟨possible, made⟩
      cases made
      exact .inl ⟨rfl, possible, rfl⟩
  | syncDirectory =>
      cases answered
      exact .inl ⟨rfl, trivial, rfl⟩
  | writeManifest path manifest =>
      cases answered
      exact ⟨_, fun _ => rfl, .inl ⟨rfl, trivial, rfl⟩⟩

end Answer

end BackupState

/--
Every backup that is listed verifies, and every backup whose `create` has returned is
listed and verifies, in every run of any number of calls, failures and losses of power.
-/
theorem backups_verify {format : BackupFormat} {pool : BackupPool} (ran : pool.Runs format) :
    (∀ paths, ∀ manifest ∈ pool.state.list paths,
        pool.state.verify format manifest.id = .ok manifest) ∧
      ∀ manifest ∈ pool.state.finished,
        pool.state.verify format manifest.id = .ok manifest ∧
          ∀ paths, ⟨manifest.id, .manifest⟩ ∈ paths → manifest ∈ pool.state.list paths := by
  have sound := ran.secure.valid
  refine ⟨fun paths manifest member => ?_, fun manifest member => ?_⟩
  · rcases BackupState.mem_list.mp member with ⟨path, _, isListed⟩
    exact sound.verify_of_listed isListed
  · have shown : pool.state.file ⟨manifest.id, .manifest⟩ = some (.manifest manifest) := by
      simp [BackupState.file, (sound.finished manifest member).entry]
    rcases sound.listed_eq shown with ⟨found, _, same, isListed, verified⟩
    cases same
    exact ⟨verified, fun paths present => BackupState.mem_list.mpr ⟨_, present, isListed⟩⟩

namespace Sample

/-- A copy of a database. -/
def databaseCopy : BackupContent :=
  .bytes [83, 81, 76, 105, 116, 101, 32, 102, 111, 114, 109, 97, 116, 32, 51, 0]

def backupFormat : BackupFormat where
  sha256 content :=
    if content = databaseCopy then
      "3f8434aff012ffcb594ad7527d6042841ce94f499887f86ab828f84a9a275f91"
    else ""
  size
    | .bytes bytes => bytes.length
    | .manifest _ => 0
  integrityMetadata content :=
    if content = databaseCopy then .ok (9, 3) else .error "file is not a database"
  version := "0.1.0"

def backupId : String := "01J8ZQ4N7V3K5T9XWBRC2D6FGH"

/-- A call of `create` begins. -/
def backupBegun : BackupPool :=
  ⟨Function.update (fun _ => .pure ()) 0 (Backup.creation backupFormat.version), .init⟩

/-- It has returned. -/
def backups : BackupPool :=
  (Pool.runTask (BackupState.answer backupFormat backupId databaseCopy) 0 40 backupBegun).getD
    backupBegun

def backupManifest : BackupManifest where
  id := backupId
  createdAt := "2026-09-03T00:00:00Z"
  lmtVersion := "0.1.0"
  schemaVersion := 9
  configRevision := 3
  databaseSize := 16
  sha256 := "3f8434aff012ffcb594ad7527d6042841ce94f499887f86ab828f84a9a275f91"

theorem runs_backups : backups.Runs backupFormat := by
  have begun : backupBegun.Runs backupFormat := .move .start (.start rfl rfl)
  unfold backups
  cases ran : Pool.runTask (BackupState.answer backupFormat backupId databaseCopy) 0 40
    backupBegun with
  | none => exact begun
  | some after =>
      have moves := @Pool.move_runTask _ _ _ _ _ _ (fun _ program =>
        program = Backup.creation backupFormat.version) _
        (BackupState.step_answer backupFormat backupId databaseCopy) _ _ _ _ ran
      rw [Option.getD_some]
      clear ran
      induction moves with
      | refl => exact begun
      | tail _ moved ih => exact ih.move moved

end Sample

theorem backups_verify_created :
    Sample.backupManifest ∈ Sample.backups.state.finished ∧
      Sample.backups.state.verify Sample.backupFormat Sample.backupId =
        .ok Sample.backupManifest :=
  ⟨by decide +kernel,
    ((backups_verify Sample.runs_backups).2 Sample.backupManifest (by decide +kernel)).1⟩

end LzuMirror
