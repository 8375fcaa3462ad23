import LzuMirror.Agent.Spool
import LzuMirror.Lib.Program
import Mathlib.Data.List.Dedup
import Mathlib.Data.List.Sort
import Mathlib.Data.String.Basic

/-!
# What the agent does to its surroundings

The agent's tasks are programs over the operations of `AgentOp`: one operation
per system call, lock operation, request to the server or access to shared
memory, so that an interleaving or a crash can stand between any two of them.
The operations are about one attempt: its spool file, its log and its entry in
the map of active runs. Nothing in this module says what an operation does.

`Agent` is the monad of the functions that take `record: &mut SpoolRecord` and
return `anyhow::Result`: they keep the caller's copy of the record and may stop
with a message. An error leaves the copy as it was when the error was raised.
-/

namespace LzuMirror

/-- A path, compared by its components as `PathBuf` is. -/
abbrev PathBuf := List Component

namespace PathBuf

/-- `Path::new`. -/
def ofText (text : String) : PathBuf := Path.components text.toList

/-- `Path::parent`. -/
def parent (path : PathBuf) : Option PathBuf :=
  match path.getLast? with
  | none | some .rootDir => none
  | some (.curDir) | some (.parentDir) | some (.normal _) => some path.dropLast

/-- The texts of the components below the root. -/
def names (path : PathBuf) : List String :=
  path.filterMap fun component =>
    match component with
    | .rootDir => none
    | .curDir => some "."
    | .parentDir => some ".."
    | .normal name => some (String.ofList name)

/-- `Path::display`, for a path written without redundant separators. -/
def display (path : PathBuf) : String :=
  (if path.head? = some .rootDir then "/" else "") ++ "/".intercalate path.names

/-- The order of components: the root, `.`, `..`, then names by code point. -/
def componentLe : Component → Component → Bool
  | .rootDir, _ => true
  | _, .rootDir => false
  | .curDir, _ => true
  | _, .curDir => false
  | .parentDir, _ => true
  | _, .parentDir => false
  | .normal first, .normal second => decide (first ≤ second)

/-- The order of paths. -/
def le : PathBuf → PathBuf → Bool
  | [], _ => true
  | _ :: _, [] => false
  | first :: firstRest, second :: secondRest =>
      if first = second then le firstRest secondRest else componentLe first second

end PathBuf

/-- The locks the agent's tasks share. -/
inductive AgentLock where
  | acceptance
  | active
  | mirror (name : String)
  deriving DecidableEq, Repr

/-- `ExitStatus`: the code is absent when a signal ended the process. -/
structure ExitStatus where
  code : Option ℤ
  deriving DecidableEq, Repr

/-- `ExitStatus::success`. -/
def ExitStatus.success (status : ExitStatus) : Bool := status.code = some 0

/-- How an execution ended: the winner of the `select!` in `execute`. -/
inductive Outcome where
  | process (result : Except String ExitStatus)
  | timedOut
  | shutdown
  | cancelled

/--
One interaction of the agent with its surroundings. `acquire` carries the copy
of the spool record with which a caller that has already read it waits for the
lock; it is read by statements about schedules only.
-/
inductive AgentOp where
  | readSpool
  | spoolExists
  | writeSpool (record : SpoolRecord)
  | retireSpool
  | acquire (lock : AgentLock) (copy : Option SpoolRecord)
  | release (lock : AgentLock)
  | identityIfExists (path : PathBuf)
  | validatePrivateDirectory (path : PathBuf)
  | validatePublishedTarget (path : PathBuf)
  | createDirAll (path : PathBuf)
  | createDir (path : PathBuf)
  | symlink (target link : PathBuf)
  | renameNoreplace (source destination : PathBuf)
  | exchangePaths (left right : PathBuf)
  | fsyncDirectory (path : PathBuf)
  | now
  | synchronized
  | postEvent (event : EventRequest)
  | logLength
  | readLog (offset length : ℕ)
  | putLog (offset : ℕ) (bytes : List UInt8) (complete : Bool)
  | activeLength
  | activeContains
  | activeInsert
  | activeRemove
  | sendCancel
  | spoolRecords
  | gcAndCheckLocked (publication : AtomicPublicationSpec)
      (maxPrivateGenerations reserveBytes : ℕ)
  | setChildSubreaper
  | spawnProcess (spec : ProcessRunSpec)
  | startCapture
  | awaitOutcome (timeoutSeconds : ℕ)
  | closeProcessGroup (exited : Bool)
  | awaitCapture
  | spawnTask (record : SpoolRecord)

/-- What each operation answers. -/
def AgentOp.Reply : AgentOp → Type
  | .readSpool => Except String SpoolRecord
  | .spoolExists | .synchronized | .activeContains => Bool
  | .activeLength => ℕ
  | .identityIfExists _ => Except String (Option FileIdentity)
  | .now => String
  | .postEvent _ => Except String Bool
  | .logLength => Except String (Option ℕ)
  | .readLog _ _ => Except String (List UInt8)
  | .putLog _ _ _ => Except String (Option (Option ℕ))
  | .spoolRecords => Except String (List SpoolRecord)
  | .awaitOutcome _ => Outcome
  | .writeSpool _ | .retireSpool | .validatePrivateDirectory _ | .validatePublishedTarget _
  | .createDirAll _ | .createDir _ | .symlink _ _ | .renameNoreplace _ _ | .exchangePaths _ _
  | .fsyncDirectory _ | .gcAndCheckLocked _ _ _ | .setChildSubreaper | .spawnProcess _ =>
      Except String Unit
  | .acquire _ _ | .release _ | .activeInsert | .activeRemove | .sendCancel | .startCapture
  | .closeProcessGroup _ | .awaitCapture | .spawnTask _ => Unit

/-- A task of the agent. -/
abbrev AgentProgram := Program AgentOp AgentOp.Reply

/-- A computation on the caller's copy of the record that may fail with a message. -/
def Agent (α : Type) : Type := SpoolRecord → AgentProgram (Except String α × SpoolRecord)

namespace Agent

variable {α β : Type}

/-- Failures skip the continuation and keep the copy they happened with. -/
def andThen (next : α → Agent β) :
    Except String α × SpoolRecord → AgentProgram (Except String β × SpoolRecord)
  | (.ok value, record) => next value record
  | (.error message, record) => .pure (.error message, record)

instance : Monad Agent where
  pure value := fun record => .pure (.ok value, record)
  bind computation next := fun record => (computation record).bind (andThen next)

/-- `bail!` and `return Err`. -/
def fail (message : String) : Agent α := fun record => .pure (.error message, record)

/-- The caller's copy. -/
def copy : Agent SpoolRecord := fun record => .pure (.ok record, record)

/-- `*record = next`. -/
def setCopy (next : SpoolRecord) : Agent Unit := fun _ => .pure (.ok (), next)

/-- An operation that cannot fail. -/
def perform (operation : AgentOp) : Agent operation.Reply :=
  fun record => .perform operation fun reply => .pure (.ok reply, record)

/-- The `?` operator. -/
def ofExcept : Except String α → Agent α
  | .ok value => pure value
  | .error message => fail message

/-- `Option::context(message)?`. -/
def context (value : Option α) (message : String) : Agent α :=
  match value with
  | some value => pure value
  | none => fail message

/-- The result of a computation as a value: the `match` or `if let Err` on it. -/
def attempt (computation : Agent α) : Agent (Except String α) :=
  fun record => (computation record).bind fun (result, after) => .pure (.ok result, after)

/-- `Result::context(message)`: `to_string` then shows the outermost message only. -/
def withContext (computation : Agent α) (message : String) : Agent α := do
  match ← attempt computation with
  | .ok value => pure value
  | .error _ => fail message

/-- A computation under a guard, which every exit drops. -/
def locked (lock : AgentLock) (computation : Agent α) : Agent α := do
  perform (.acquire lock none)
  let result ← attempt computation
  perform (.release lock)
  ofExcept result

def now : Agent String := perform .now

/-- `spool::write`. -/
def write (record : SpoolRecord) : Agent Unit := do
  ofExcept (← perform (.writeSpool record))

/-- `publication_fs::identity_if_exists`. -/
def identityIfExists (path : PathBuf) : Agent (Option FileIdentity) := do
  ofExcept (← perform (.identityIfExists path))

/-- `publication_fs::identity`: the stat of a missing path is an error. -/
def identity (path : PathBuf) : Agent FileIdentity := do
  context (← identityIfExists path) ("stat " ++ path.display)

def renameNoreplace (source destination : PathBuf) : Agent Unit := do
  ofExcept (← perform (.renameNoreplace source destination))

def exchangePaths (left right : PathBuf) : Agent Unit := do
  ofExcept (← perform (.exchangePaths left right))

def fsyncDirectory (path : PathBuf) : Agent Unit := do
  ofExcept (← perform (.fsyncDirectory path))

def createDirAll (path : PathBuf) : Agent Unit := do
  ofExcept (← perform (.createDirAll path))

def createDir (path : PathBuf) : Agent Unit := do
  ofExcept (← perform (.createDir path))

/-- `parent(path)?`. -/
def parent (path : PathBuf) : Agent PathBuf :=
  context path.parent ("path " ++ path.display ++ " has no parent")

/-- The loop of `sync_namespace`. -/
def syncAll : List PathBuf → Agent Unit
  | [] => pure ()
  | path :: rest => do
      fsyncDirectory path
      syncAll rest

/-- `sync_namespace`: every directory once, in path order. -/
def syncNamespace (paths : List PathBuf) : Agent Unit :=
  syncAll (paths.insertionSort fun first second => PathBuf.le first second = true).dedup

/-- A computation of the caller's copy, run on its own. -/
def run (computation : Agent α) (record : SpoolRecord) :
    AgentProgram (Except String α × SpoolRecord) :=
  computation record

end Agent

/-- One operation of a task that holds no record. -/
def perform (operation : AgentOp) : AgentProgram operation.Reply := Program.request operation

end LzuMirror
