import LzuMirror.Agent.Publication
import Mathlib.Logic.Function.Basic

/-!
# The disk under an attempt

What the operations do to the files of one attempt: its spool file and the
directories at paths. `Disk.Step` is the semantics of a single task. With
`faults` an operation may also fail, and a failed write or rename may or may
not have taken effect; without it, it fails only when the file system has to
refuse it. Operations that do not touch the disk are answered arbitrarily.

A disk keeps the history of its changes, latest first, each with the record
that was durable when it happened. Paths of nested directories do not occur
among the paths that are renamed, so a rename only moves one entry.

The second part has the rules by which specifications of `Agent` computations
are proved, one for each way to build a computation and one for each operation.
-/

namespace LzuMirror

/-- A change of the disk. -/
inductive DiskChange where
  | wrote (record : SpoolRecord)
  | retired
  | renamed (source destination : PathBuf)
  | exchanged (left right : PathBuf)
  | synced (directory : PathBuf)
  deriving DecidableEq

/-- A change with the record that was durable before it. -/
structure DiskEvent where
  change : DiskChange
  durable : Option SpoolRecord
  deriving DecidableEq

structure Disk where
  spool : Option SpoolRecord
  fs : PathBuf → Option FileIdentity
  history : List DiskEvent

namespace Disk

/-- The disk after a change, with the change on record. -/
def log (disk : Disk) (change : DiskChange) : List DiskEvent :=
  ⟨change, disk.spool⟩ :: disk.history

def write (disk : Disk) (record : SpoolRecord) : Disk :=
  { disk with spool := some record, history := disk.log (.wrote record) }

def retire (disk : Disk) : Disk :=
  { disk with spool := none, history := disk.log .retired }

/-- `renameat2` with `RENAME_NOREPLACE`. -/
def rename (disk : Disk) (source destination : PathBuf) : Disk :=
  { disk with
    fs := Function.update (Function.update disk.fs destination (disk.fs source)) source none
    history := disk.log (.renamed source destination) }

/-- `renameat2` with `RENAME_EXCHANGE`. -/
def exchange (disk : Disk) (left right : PathBuf) : Disk :=
  { disk with
    fs := Function.update (Function.update disk.fs left (disk.fs right)) right (disk.fs left)
    history := disk.log (.exchanged left right) }

def sync (disk : Disk) (directory : PathBuf) : Disk :=
  { disk with history := disk.log (.synced directory) }

/-- Several directories synced one after another. -/
def syncs (disk : Disk) (directories : List PathBuf) : Disk := directories.foldl sync disk

/-- A new directory entry; `fresh` says which identity each path gets when it is created. -/
def create (fresh : PathBuf → FileIdentity) (disk : Disk) (path : PathBuf) : Disk :=
  { disk with fs := Function.update disk.fs path (some (fresh path)) }

/-- The missing directories of a path. -/
def createAll (fresh : PathBuf → FileIdentity) (disk : Disk) (path : PathBuf) : Disk :=
  { disk with fs := fun place =>
      if (disk.fs place).isNone && place.isPrefixOf path then some (fresh place)
      else disk.fs place }

end Disk

/-- A reply that carries an error. -/
def Failed {α : Type} (reply : Except String α) : Prop := ∃ message, reply = .error message

/-- An operation that takes effect when it is possible and is refused when it is not. -/
def Disk.Attempts (faults possible : Prop) (disk effect : Disk) (reply : Except String Unit)
    (after : Disk) : Prop :=
  (possible ∧ reply = .ok () ∧ after = effect) ∨ (¬possible ∧ Failed reply ∧ after = disk) ∨
    (faults ∧ Failed reply ∧ (after = disk ∨ possible ∧ after = effect))

/-- What an operation of a single task may do. -/
def Disk.Step (fresh : PathBuf → FileIdentity) (faults : Prop) :
    Program.Semantics AgentOp AgentOp.Reply Disk
  | disk, .readSpool, reply, after =>
      after = disk ∧ ((∃ record, disk.spool = some record ∧ reply = .ok record) ∨
        (disk.spool = none ∨ faults) ∧ Failed reply)
  | disk, .spoolExists, reply, after => after = disk ∧ reply = disk.spool.isSome
  | disk, .writeSpool record, reply, after =>
      disk.Attempts faults True (disk.write record) reply after
  | disk, .retireSpool, reply, after =>
      disk.Attempts faults (disk.spool ≠ none) disk.retire reply after
  | disk, .identityIfExists path, reply, after =>
      after = disk ∧ (reply = .ok (disk.fs path) ∨ faults ∧ Failed reply)
  | disk, .createDirAll path, reply, after =>
      disk.Attempts faults True (disk.createAll fresh path) reply after
  | disk, .createDir path, reply, after =>
      disk.Attempts faults (disk.fs path = none) (disk.create fresh path) reply after
  | disk, .symlink _ link, reply, after =>
      disk.Attempts faults (disk.fs link = none) (disk.create fresh link) reply after
  | disk, .renameNoreplace source destination, reply, after =>
      disk.Attempts faults (disk.fs source ≠ none ∧ disk.fs destination = none)
        (disk.rename source destination) reply after
  | disk, .exchangePaths left right, reply, after =>
      disk.Attempts faults (disk.fs left ≠ none ∧ disk.fs right ≠ none)
        (disk.exchange left right) reply after
  | disk, .fsyncDirectory path, reply, after =>
      disk.Attempts faults True (disk.sync path) reply after
  | disk, _, _, after => after = disk

/-- The answer to an operation that takes effect when it is possible. -/
def Disk.attempt (possible : Prop) [Decidable possible] (disk effect : Disk) :
    Except String Unit × Disk :=
  if possible then (.ok (), effect) else (.error "refused", disk)

/-- One possible course of events: no faults, and everything outside the disk goes well. -/
def Disk.answer (fresh : PathBuf → FileIdentity) (disk : Disk) :
    (operation : AgentOp) → operation.Reply × Disk
  | .readSpool =>
      match disk.spool with
      | some record => (.ok record, disk)
      | none => (.error "no such file", disk)
  | .spoolExists => (disk.spool.isSome, disk)
  | .writeSpool record => (.ok (), disk.write record)
  | .retireSpool => disk.attempt (disk.spool ≠ none) disk.retire
  | .identityIfExists path => (.ok (disk.fs path), disk)
  | .createDirAll path => (.ok (), disk.createAll fresh path)
  | .createDir path => disk.attempt (disk.fs path = none) (disk.create fresh path)
  | .symlink _ link => disk.attempt (disk.fs link = none) (disk.create fresh link)
  | .renameNoreplace source destination =>
      disk.attempt (disk.fs source ≠ none ∧ disk.fs destination = none)
        (disk.rename source destination)
  | .exchangePaths left right =>
      disk.attempt (disk.fs left ≠ none ∧ disk.fs right ≠ none) (disk.exchange left right)
  | .fsyncDirectory path => (.ok (), disk.sync path)
  | .validatePrivateDirectory _ | .validatePublishedTarget _ | .gcAndCheckLocked _ _ _
  | .setChildSubreaper | .spawnProcess _ => (.ok (), disk)
  | .acquire _ _ | .release _ | .activeInsert | .activeRemove | .sendCancel | .startCapture
  | .closeProcessGroup _ | .awaitCapture | .spawnTask _ => ((), disk)
  | .now => ("2026-09-03T00:00:00Z", disk)
  | .synchronized => (true, disk)
  | .activeContains => (false, disk)
  | .activeLength => ((0 : ℕ), disk)
  | .postEvent _ => (.ok true, disk)
  | .logLength => (.ok none, disk)
  | .readLog _ _ => (.ok [], disk)
  | .putLog _ _ _ => (.ok (some none), disk)
  | .spoolRecords => (.ok [], disk)
  | .awaitOutcome _ => (.process (.ok ⟨some 0⟩), disk)

theorem Disk.attempts_attempt {faults possible : Prop} [Decidable possible]
    (disk effect : Disk) :
    disk.Attempts faults possible effect (disk.attempt possible effect).1
      (disk.attempt possible effect).2 := by
  unfold Disk.attempt
  split
  next isPossible => exact .inl ⟨isPossible, rfl, rfl⟩
  next impossible => exact .inr (.inl ⟨impossible, ⟨_, rfl⟩, rfl⟩)

theorem Disk.step_answer (fresh : PathBuf → FileIdentity) (faults : Prop) (disk : Disk)
    (operation : AgentOp) :
    Disk.Step fresh faults disk operation (disk.answer fresh operation).1
      (disk.answer fresh operation).2 := by
  cases operation with
  | readSpool =>
      unfold Disk.answer
      cases stored : disk.spool with
      | none => exact ⟨rfl, .inr ⟨.inl stored, _, rfl⟩⟩
      | some record => exact ⟨rfl, .inl ⟨record, stored, rfl⟩⟩
  | spoolExists => exact ⟨rfl, rfl⟩
  | identityIfExists path => exact ⟨rfl, .inl rfl⟩
  | writeSpool record => exact .inl ⟨trivial, rfl, rfl⟩
  | createDirAll path => exact .inl ⟨trivial, rfl, rfl⟩
  | fsyncDirectory path => exact .inl ⟨trivial, rfl, rfl⟩
  | retireSpool => exact disk.attempts_attempt disk.retire
  | createDir path => exact disk.attempts_attempt _
  | symlink target link => exact disk.attempts_attempt _
  | renameNoreplace source destination => exact disk.attempts_attempt _
  | exchangePaths left right => exact disk.attempts_attempt _
  | _ => rfl

/-- The change an operation makes when it takes effect, as far as the history shows it. -/
def AgentOp.change? : AgentOp → Option DiskChange
  | .writeSpool record => some (.wrote record)
  | .retireSpool => some .retired
  | .renameNoreplace source destination => some (.renamed source destination)
  | .exchangePaths left right => some (.exchanged left right)
  | .fsyncDirectory path => some (.synced path)
  | _ => none

theorem AgentOp.eq_writeSpool_of_change? {operation : AgentOp} {record : SpoolRecord}
    (made : operation.change? = some (.wrote record)) : operation = .writeSpool record := by
  cases operation <;> simp_all [change?]

/-- The spool file after a change. -/
def DiskChange.spoolAfter (change : DiskChange) (spool : Option SpoolRecord) :
    Option SpoolRecord :=
  match change with
  | .wrote record => some record
  | .retired => none
  | .renamed _ _ | .exchanged _ _ | .synced _ => spool

/-- Without faults an operation leaves the spool and the history alone, or makes its change. -/
theorem Disk.Step.effect {fresh : PathBuf → FileIdentity} {before after : Disk}
    {operation : AgentOp} {reply : operation.Reply}
    (performed : Disk.Step fresh False before operation reply after) :
    (after.spool = before.spool ∧ after.history = before.history ∧
        ∀ record, operation ≠ .writeSpool record) ∨
      ∃ change, operation.change? = some change ∧ after.history = before.log change ∧
        after.spool = change.spoolAfter before.spool := by
  have attempted : ∀ {possible : Prop} {effect : Disk} {answer : Except String Unit},
      before.Attempts False possible effect answer after → after = before ∨ after = effect := by
    rintro possible effect answer (⟨_, _, rfl⟩ | ⟨_, _, rfl⟩ | ⟨faulty, _⟩)
    · exact .inr rfl
    · exact .inl rfl
    · exact faulty.elim
  cases operation with
  | readSpool | spoolExists | identityIfExists =>
      cases performed.1
      exact .inl ⟨rfl, rfl, by simp⟩
  | writeSpool record =>
      rcases performed with ⟨_, _, rfl⟩ | ⟨impossible, _⟩ | ⟨faulty, _⟩
      · exact .inr ⟨_, rfl, rfl, rfl⟩
      · exact absurd trivial impossible
      · exact faulty.elim
  | createDirAll | createDir | symlink =>
      rcases attempted performed with rfl | rfl <;> exact .inl ⟨rfl, rfl, by simp⟩
  | retireSpool | renameNoreplace | exchangePaths | fsyncDirectory =>
      rcases attempted performed with rfl | rfl
      · exact .inl ⟨rfl, rfl, by simp⟩
      · exact .inr ⟨_, rfl, rfl, rfl⟩
  | _ =>
      cases performed
      exact .inl ⟨rfl, rfl, by simp⟩

/-- The circumstances a specification is about. -/
structure Setting (σ : Type) where
  step : Program.Semantics AgentOp AgentOp.Reply σ
  rely : σ → σ → Prop
  guarantee : σ → σ → Prop
  invariant : σ → Prop

namespace Agent

section Rules

variable {σ α β : Type} (setting : Setting σ)

/-- The specification of a computation started with a copy of the record in a state. -/
def Holds (computation : Agent α) (post : Except String α → SpoolRecord → σ → Prop)
    (record : SpoolRecord) (state : σ) : Prop :=
  (computation record).Safe setting.step setting.rely setting.guarantee setting.invariant
    (fun out after => post out.1 out.2 after) state

/-- What is required after the first part of a sequence. -/
def Then (next : α → Agent β) (post : Except String β → SpoolRecord → σ → Prop) :
    Except String α → SpoolRecord → σ → Prop
  | .ok value => Holds setting (next value) post
  | .error message => post (.error message)

variable {setting} {post : Except String α → SpoolRecord → σ → Prop} {record : SpoolRecord}
  {state : σ}

theorem Holds.imp {post' : Except String α → SpoolRecord → σ → Prop} {computation : Agent α}
    (holds : Holds setting computation post record state)
    (implied : ∀ result copy after, post result copy after → post' result copy after) :
    Holds setting computation post' record state :=
  Program.Safe.imp holds fun out after => implied out.1 out.2 after

@[simp]
theorem holds_pure {value : α} :
    Holds setting (pure value) post record state ↔ post (.ok value) record state :=
  Iff.rfl

@[simp]
theorem holds_fail {message : String} :
    Holds setting (fail message) post record state ↔ post (.error message) record state :=
  Iff.rfl

@[simp]
theorem holds_copy {post : Except String SpoolRecord → SpoolRecord → σ → Prop} :
    Holds setting copy post record state ↔ post (.ok record) record state :=
  Iff.rfl

@[simp]
theorem holds_setCopy {post : Except String Unit → SpoolRecord → σ → Prop}
    {next : SpoolRecord} :
    Holds setting (setCopy next) post record state ↔ post (.ok ()) next state :=
  Iff.rfl

@[simp]
theorem holds_ofExcept {value : Except String α} :
    Holds setting (ofExcept value) post record state ↔ post value record state := by
  cases value <;> exact Iff.rfl

@[simp]
theorem holds_bind {computation : Agent α} {next : α → Agent β}
    {post : Except String β → SpoolRecord → σ → Prop} :
    Holds setting (computation >>= next) post record state ↔
      Holds setting computation (Then setting next post) record state := by
  refine Program.safe_bind.trans ?_
  constructor <;> refine fun safe => Program.Safe.imp safe ?_
  · rintro ⟨_ | value, copy⟩ after holds <;> exact holds
  · rintro ⟨_ | value, copy⟩ after holds <;> exact holds

@[simp]
theorem then_ok {next : α → Agent β} {post : Except String β → SpoolRecord → σ → Prop}
    {value : α} :
    Then setting next post (.ok value) record state ↔
      Holds setting (next value) post record state :=
  Iff.rfl

@[simp]
theorem then_error {next : α → Agent β} {post : Except String β → SpoolRecord → σ → Prop}
    {message : String} :
    Then setting next post (.error message) record state ↔ post (.error message) record state :=
  Iff.rfl

@[simp]
theorem holds_context_some {value : α} {message : String} :
    Holds setting (context (some value) message) post record state ↔
      post (.ok value) record state :=
  Iff.rfl

@[simp]
theorem holds_attempt {computation : Agent α}
    {post : Except String (Except String α) → SpoolRecord → σ → Prop} :
    Holds setting (attempt computation) post record state ↔
      Holds setting computation (fun result => post (.ok result)) record state :=
  Program.safe_bind

theorem holds_withContext {computation : Agent α} {message : String}
    (holds : Holds setting computation (fun result copy after =>
      match result with
      | .ok value => post (.ok value) copy after
      | .error _ => post (.error message) copy after) record state) :
    Holds setting (withContext computation message) post record state := by
  refine holds_bind.mpr (holds_attempt.mpr (holds.imp ?_))
  rintro (error | value) copy after holds <;> exact holds

theorem holds_discard {computation : Agent α}
    {post : Except String Unit → SpoolRecord → σ → Prop}
    (holds : Holds setting computation (fun result => post (result.map fun _ => ())) record
      state) :
    Holds setting (discard computation) post record state := by
  refine holds_bind.mpr (holds.imp ?_)
  rintro (error | value) copy after holds <;> exact holds

theorem holds_perform {operation : AgentOp}
    {post : Except String operation.Reply → SpoolRecord → σ → Prop}
    (holds : ∀ before reply after, setting.rely state before → setting.invariant before →
      setting.step before operation reply after →
        (setting.guarantee before after ∧ setting.invariant after) ∧
          post (.ok reply) record after) :
    Holds setting (perform operation) post record state :=
  holds

end Rules

end Agent

/-- A task that runs alone on a disk and keeps an invariant. -/
def sequential (fresh : PathBuf → FileIdentity) (faults : Prop) (invariant : Disk → Prop) :
    Setting Disk where
  step := Disk.Step fresh faults
  rely := Eq
  guarantee _ _ := True
  invariant

namespace Agent

section Operations

variable {α : Type} {fresh : PathBuf → FileIdentity} {faults : Prop} {invariant : Disk → Prop}
  {record : SpoolRecord} {disk : Disk}

/-- An operation that is possible succeeds, or fails with or without its effect. -/
theorem holds_attempted {operation : AgentOp} {possible : Prop} {effect : Disk}
    (reply : operation.Reply = Except String Unit)
    (step : ∀ answer after, Disk.Step fresh faults disk operation answer after →
      disk.Attempts faults possible effect (cast reply answer) after)
    {post : Except String Unit → SpoolRecord → Disk → Prop} (isPossible : possible)
    (kept : invariant effect) (ok : post (.ok ()) record effect)
    (error : faults → ∀ message, post (.error message) record disk ∧
      post (.error message) record effect) :
    Holds (sequential fresh faults invariant)
      (do ofExcept (cast reply (← perform operation))) post record disk := by
  refine holds_bind.mpr (holds_perform ?_)
  rintro _ answer after rfl valid performed
  rw [then_ok, holds_ofExcept]
  rcases step answer after performed with ⟨_, answered, rfl⟩ | ⟨impossible, _⟩ |
      ⟨faulty, ⟨message, answered⟩, rfl | ⟨_, rfl⟩⟩
  · exact ⟨⟨trivial, kept⟩, answered ▸ ok⟩
  · exact absurd isPossible impossible
  · exact ⟨⟨trivial, valid⟩, answered ▸ (error faulty message).1⟩
  · exact ⟨⟨trivial, kept⟩, answered ▸ (error faulty message).2⟩

theorem holds_write {next : SpoolRecord} {post : Except String Unit → SpoolRecord → Disk → Prop}
    (kept : invariant (disk.write next)) (ok : post (.ok ()) record (disk.write next))
    (error : faults → ∀ message, post (.error message) record disk ∧
      post (.error message) record (disk.write next)) :
    Holds (sequential fresh faults invariant) (write next) post record disk :=
  @holds_attempted fresh faults invariant record disk (.writeSpool next) True _ rfl
    (fun _ _ performed => performed) post trivial kept ok error

theorem holds_createDirAll {path : PathBuf}
    {post : Except String Unit → SpoolRecord → Disk → Prop}
    (kept : invariant (disk.createAll fresh path))
    (ok : post (.ok ()) record (disk.createAll fresh path))
    (error : faults → ∀ message, post (.error message) record disk ∧
      post (.error message) record (disk.createAll fresh path)) :
    Holds (sequential fresh faults invariant) (createDirAll path) post record disk :=
  @holds_attempted fresh faults invariant record disk (.createDirAll path) True _ rfl
    (fun _ _ performed => performed) post trivial kept ok error

theorem holds_fsyncDirectory {path : PathBuf}
    {post : Except String Unit → SpoolRecord → Disk → Prop}
    (kept : invariant (disk.sync path)) (ok : post (.ok ()) record (disk.sync path))
    (error : faults → ∀ message, post (.error message) record disk ∧
      post (.error message) record (disk.sync path)) :
    Holds (sequential fresh faults invariant) (fsyncDirectory path) post record disk :=
  @holds_attempted fresh faults invariant record disk (.fsyncDirectory path) True _ rfl
    (fun _ _ performed => performed) post trivial kept ok error

theorem holds_renameNoreplace {source destination : PathBuf}
    {post : Except String Unit → SpoolRecord → Disk → Prop}
    (possible : disk.fs source ≠ none ∧ disk.fs destination = none)
    (kept : invariant (disk.rename source destination))
    (ok : post (.ok ()) record (disk.rename source destination))
    (error : faults → ∀ message, post (.error message) record disk ∧
      post (.error message) record (disk.rename source destination)) :
    Holds (sequential fresh faults invariant) (renameNoreplace source destination) post record
      disk :=
  @holds_attempted fresh faults invariant record disk (.renameNoreplace source destination) _ _
    rfl (fun _ _ performed => performed) post possible kept ok error

theorem holds_exchangePaths {left right : PathBuf}
    {post : Except String Unit → SpoolRecord → Disk → Prop}
    (possible : disk.fs left ≠ none ∧ disk.fs right ≠ none)
    (kept : invariant (disk.exchange left right))
    (ok : post (.ok ()) record (disk.exchange left right))
    (error : faults → ∀ message, post (.error message) record disk ∧
      post (.error message) record (disk.exchange left right)) :
    Holds (sequential fresh faults invariant) (exchangePaths left right) post record disk :=
  @holds_attempted fresh faults invariant record disk (.exchangePaths left right) _ _ rfl
    (fun _ _ performed => performed) post possible kept ok error

theorem holds_identityIfExists {path : PathBuf}
    {post : Except String (Option FileIdentity) → SpoolRecord → Disk → Prop}
    (ok : post (.ok (disk.fs path)) record disk)
    (error : faults → ∀ message, post (.error message) record disk) :
    Holds (sequential fresh faults invariant) (identityIfExists path) post record disk := by
  refine holds_bind.mpr (holds_perform ?_)
  rintro _ answer after rfl valid ⟨rfl, rfl | ⟨faulty, message, rfl⟩⟩
  · exact ⟨⟨trivial, valid⟩, ok⟩
  · exact ⟨⟨trivial, valid⟩, error faulty message⟩

/-- An operation outside the disk may answer anything. -/
theorem holds_unrelated {operation : AgentOp}
    {post : Except String operation.Reply → SpoolRecord → Disk → Prop}
    (unrelated : ∀ answer after, Disk.Step fresh faults disk operation answer after →
      after = disk)
    (holds : ∀ answer, post (.ok answer) record disk) :
    Holds (sequential fresh faults invariant) (perform operation) post record disk := by
  refine holds_perform ?_
  rintro _ answer after rfl valid performed
  cases unrelated answer after performed
  exact ⟨⟨trivial, valid⟩, holds answer⟩

theorem holds_now {post : Except String String → SpoolRecord → Disk → Prop}
    (holds : ∀ text, post (.ok text) record disk) :
    Holds (sequential fresh faults invariant) now post record disk :=
  holds_unrelated (fun _ _ performed => performed) holds

theorem holds_locked {lock : AgentLock} {computation : Agent α}
    {post : Except String α → SpoolRecord → Disk → Prop}
    (holds : Holds (sequential fresh faults invariant) computation post record disk) :
    Holds (sequential fresh faults invariant) (locked lock computation) post record disk := by
  unfold locked
  refine holds_bind.mpr (holds_unrelated (fun _ _ performed => performed) fun _ => ?_)
  refine holds_bind.mpr (holds_attempt.mpr (holds.imp ?_))
  intro result copy after holds
  refine holds_bind.mpr (holds_unrelated (fun _ _ performed => performed) fun _ => ?_)
  exact holds_ofExcept.mpr holds

/-- Syncing directories only adds to the history. -/
theorem holds_syncAll {paths : List PathBuf}
    {post : Except String Unit → SpoolRecord → Disk → Prop}
    (kept : ∀ directories, invariant (disk.syncs directories))
    (ok : post (.ok ()) record (disk.syncs paths))
    (error : faults → ∀ message directories,
      post (.error message) record (disk.syncs directories)) :
    Holds (sequential fresh faults invariant) (syncAll paths) post record disk := by
  induction paths generalizing disk with
  | nil => exact ok
  | cons path rest ih =>
      refine holds_bind.mpr (holds_fsyncDirectory (kept [path]) ?_ ?_)
      · exact ih (fun directories => kept (path :: directories)) ok
          (fun faulty message directories => error faulty message (path :: directories))
      · exact fun faulty message => ⟨error faulty message [], error faulty message [path]⟩

theorem holds_syncNamespace {paths : List PathBuf}
    {post : Except String Unit → SpoolRecord → Disk → Prop}
    (kept : ∀ directories, invariant (disk.syncs directories))
    (ok : ∀ directories, (∀ path ∈ paths, path ∈ directories) →
      post (.ok ()) record (disk.syncs directories))
    (error : faults → ∀ message directories,
      post (.error message) record (disk.syncs directories)) :
    Holds (sequential fresh faults invariant) (syncNamespace paths) post record disk := by
  refine holds_syncAll kept (ok _ ?_) error
  intro path listed
  rw [List.mem_dedup]
  exact (List.perm_insertionSort _ paths).mem_iff.mpr listed

end Operations

end Agent

namespace Disk

section Simp

variable (disk : Disk)

@[simp]
theorem syncs_spool (directories : List PathBuf) :
    (disk.syncs directories).spool = disk.spool := by
  induction directories generalizing disk with
  | nil => rfl
  | cons path rest ih => exact ih (disk.sync path)

@[simp]
theorem syncs_fs (directories : List PathBuf) : (disk.syncs directories).fs = disk.fs := by
  induction directories generalizing disk with
  | nil => rfl
  | cons path rest ih => exact ih (disk.sync path)

theorem syncs_history (directories : List PathBuf) :
    (disk.syncs directories).history =
      (directories.reverse.map fun directory => ⟨.synced directory, disk.spool⟩) ++
        disk.history := by
  induction directories generalizing disk with
  | nil => rfl
  | cons path rest ih =>
      refine (ih (disk.sync path)).trans ?_
      simp [sync, log]

end Simp

end Disk

end LzuMirror
