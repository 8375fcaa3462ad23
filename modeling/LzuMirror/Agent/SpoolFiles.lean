import LzuMirror.Agent.Evidence
import LzuMirror.Lib.Observation

/-!
# The files of the spool directory

Below the record of an attempt are files (`apps/lmt-agent/src/spool.rs`):
`write` fills a temporary file and renames it over the state file, `retire`
renames the state file away before it removes the log. A crash leaves the
directory in one of the stages of such a call.

`recover` and `reconcile_all` (`apps/lmt-agent/src/lib.rs`) list the directory
and visit its files one after another. They do not choose the same files:
`reconcile_all` takes the state files, `recover` takes every file that is not a
retired one.
-/

namespace LzuMirror

/-- The extensions of the files the agent makes for an execution key. -/
inductive SpoolExtension where
  | json
  | tmp
  | log
  | retired
  deriving DecidableEq, Repr

/-- A file of the spool directory; the stem is the execution key. -/
structure SpoolPath where
  stem : String
  extension : SpoolExtension
  deriving DecidableEq, Repr

namespace SpoolPath

/-- `Path::with_extension`. -/
def withExtension (path : SpoolPath) (extension : SpoolExtension) : SpoolPath :=
  { path with extension }

/-- `log_path`. -/
def logPath (path : SpoolPath) : SpoolPath := path.withExtension .log

end SpoolPath

/-- The contents of a file; `toVec` is `serde_json::to_vec`. -/
def StateFile.bytes (toVec : SpoolRecord → List UInt8) : StateFile → List UInt8
  | .record written => toVec written
  | .unreadable content => content

/-- The files of the spool directory. -/
abbrev SpoolFiles := SpoolPath → Option StateFile

/-- How far `spool::write` has come. -/
inductive WriteStage where
  | begun
  -- the temporary file exists and has this many bytes, or all of them
  | filling (length : ℕ)
  | renamed
  deriving DecidableEq, Repr

/-- How far `spool::retire` has come. The two removals are not ordered by a synchronisation. -/
inductive RetireStage where
  | begun
  | renamed (logRemoved retiredRemoved : Bool)
  deriving DecidableEq, Repr

namespace SpoolFiles

variable (toVec : SpoolRecord → List UInt8)

def create (files : SpoolFiles) (path : SpoolPath) (file : StateFile) : SpoolFiles :=
  Function.update files path (some file)

def remove (files : SpoolFiles) (path : SpoolPath) : SpoolFiles :=
  Function.update files path none

def rename (files : SpoolFiles) (source destination : SpoolPath) : SpoolFiles :=
  Function.update (files.remove source) destination (files source)

/-- A file with the first bytes of a record: the whole text is a record, no shorter text is. -/
def filled (record : SpoolRecord) (length : ℕ) : StateFile :=
  if length < (toVec record).length then .unreadable ((toVec record).take length)
  else .record record

/-- `spool::write`, stage by stage. -/
def writing (files : SpoolFiles) (path : SpoolPath) (record : SpoolRecord) :
    WriteStage → SpoolFiles
  | .begun => files
  | .filling length => files.create (path.withExtension .tmp) (filled toVec record length)
  | .renamed =>
      (files.create (path.withExtension .tmp) (.record record)).rename
        (path.withExtension .tmp) path

/-- `spool::retire`, stage by stage. -/
def retiring (files : SpoolFiles) (path : SpoolPath) : RetireStage → SpoolFiles
  | .begun => files
  | .renamed logRemoved retiredRemoved =>
      let renamed := files.rename path (path.withExtension .retired)
      let cleared := if logRemoved then renamed.remove path.logPath else renamed
      if retiredRemoved then cleared.remove (path.withExtension .retired) else cleared

/-- An answer of `read_dir`: every file once, in some order. -/
def Lists (files : SpoolFiles) (paths : List SpoolPath) : Prop :=
  paths.Nodup ∧ ∀ path, path ∈ paths ↔ (files path).isSome = true

end SpoolFiles

/-- The operations of a visit to the directory; those on one record go to the path it was read from. -/
inductive SpoolOp where
  | readDir
  | removeFile (path : SpoolPath)
  | at (path : SpoolPath) (operation : AgentOp)

def SpoolOp.Reply : SpoolOp → Type
  | .readDir => Except String (List SpoolPath)
  | .removeFile _ => Except String Unit
  | .at _ operation => operation.Reply

/-- A visit to the spool directory. -/
abbrev SpoolProgram := Program SpoolOp SpoolOp.Reply

/--
What an operation may do. A failed write has left a part of the temporary file
or the record in its place: the rename of a complete temporary file does not
fail.
-/
def SpoolFiles.Step (toVec : SpoolRecord → List UInt8) :
    Program.Semantics SpoolOp SpoolOp.Reply SpoolFiles
  | files, .readDir, reply, after =>
      after = files ∧ (Failed reply ∨ ∃ paths, reply = .ok paths ∧ files.Lists paths)
  | files, .removeFile path, reply, after =>
      reply = .ok () ∧ (files path).isSome = true ∧ after = files.remove path ∨
        Failed reply ∧ after = files
  | files, .at path .readSpool, reply, after =>
      after = files ∧ ((∃ record, files path = some (.record record) ∧ reply = .ok record) ∨
        Failed reply)
  | files, .at path .spoolExists, reply, after => after = files ∧ reply = (files path).isSome
  | files, .at path (.writeSpool record), reply, after =>
      after = files.writing toVec path record .renamed ∨
        Failed reply ∧ (after = files ∨
          ∃ length < (toVec record).length, after = files.writing toVec path record (.filling length))
  | files, .at path .retireSpool, reply, after =>
      (files path).isSome = true ∧ after = files.retiring path (.renamed true true) ∨
        Failed reply ∧ (after = files ∨
          (files path).isSome = true ∧ ∃ stage, after = files.retiring path stage)
  | files, .at path .logLength, reply, after =>
      after = files ∧ (Failed reply ∨
        reply = .ok ((files path.logPath).map fun file => (file.bytes toVec).length))
  | files, .at path (.readLog offset length), reply, after =>
      after = files ∧ (Failed reply ∨ ∃ file, files path.logPath = some file ∧
        offset + length ≤ (file.bytes toVec).length ∧
        reply = .ok (((file.bytes toVec).drop offset).take length))
  | files, .at _ _, _, after => after = files

/-- Something done for a record, with the answer to it. -/
structure SpoolEvent where
  path : SpoolPath
  operation : AgentOp
  reply : operation.Reply

/--
What is seen of a visit: all that is done for the records it has read. Looking
through the directory is not seen, nor is the removal of retired files.
-/
def SpoolOp.observe : (operation : SpoolOp) → operation.Reply → List SpoolEvent
  | .readDir, _ => []
  | .removeFile _, _ => []
  | .at _ .readSpool, .error _ => []
  | .at path operation, reply => [⟨path, operation, reply⟩]

/-- What a program does for the record at a path. -/
def AgentProgram.at {α : Type} (program : AgentProgram α) (path : SpoolPath) : SpoolProgram α :=
  program.relabel (.at path) fun _ reply => reply

namespace SpoolVisit

variable (config : AgentConfig)

/-- The body of the loop of `Agent::recover`. -/
def recoverFile (path : SpoolPath) : SpoolProgram Unit :=
  if path.extension = .retired then do
    discard (Program.request (SpoolOp.removeFile path.logPath))
    discard (Program.request (SpoolOp.removeFile path))
  else AgentProgram.at (Service.recover config) path

/-- The loop over the files of the directory. -/
def each (visit : SpoolPath → SpoolProgram Unit) : List SpoolPath → SpoolProgram Unit
  | [] => pure ()
  | path :: rest => do
      visit path
      each visit rest

/-- The listing, which an error ends. -/
def overFiles (select : SpoolPath → Bool) (visit : SpoolPath → SpoolProgram Unit) :
    SpoolProgram Unit := do
  let listed : Except String (List SpoolPath) ← Program.request SpoolOp.readDir
  match listed with
  | .error _ => pure ()
  | .ok paths => each visit (paths.filter select)

/-- `Agent::recover`. -/
def recover : SpoolProgram Unit := overFiles (fun _ => true) (recoverFile config)

/-- `Agent::reconcile_all`. -/
def reconcileAll : SpoolProgram Unit :=
  overFiles (fun path => path.extension == .json) (AgentProgram.at (Service.reconcileAll config))

/-- The background loop, for a number of rounds. -/
def rounds : ℕ → SpoolProgram Unit
  | 0 => pure ()
  | count + 1 => do
      reconcileAll config
      rounds count

/-- A start of the agent: `recover`, then rounds of `reconcile_all`. -/
def restart (count : ℕ) : SpoolProgram Unit := do
  recover config
  rounds config count

end SpoolVisit

end LzuMirror
