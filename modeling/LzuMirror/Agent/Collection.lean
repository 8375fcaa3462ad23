import LzuMirror.Agent.Isolation
import LzuMirror.Lib.Fallible
import LzuMirror.Lib.PathTree

/-!
# Collecting private generations

`gc_and_check_locked`, `protected_paths` and `owned_generation_entries` of
`apps/lmt-agent/src/publication.rs`, on the directories as they are under the
lock of the mirror. A path stands for one place: the directories of the layout
are no links, and a link below them is an entry like any other.

What a spool record names is protected both ways: an entry is kept if it lies
below a recorded path or a recorded path lies below it. Everything that can
reject the layout comes before the first removal.
-/

namespace LzuMirror

/-- What stands at a path. -/
inductive FileKind where
  | directory
  | file
  | symlink (dangling : Bool)
  deriving DecidableEq

/-- The directories an agent works in. -/
abbrev FileTree := PathTree Component FileKind

namespace FileTree

/-- `Path::exists`. -/
def existsAt (tree : FileTree) (path : PathBuf) : Bool :=
  match tree.kindAt path with
  | none | some (.symlink true) => false
  | some .directory | some .file | some (.symlink false) => true

/-- The entries of a directory that is there. -/
def listing (tree : FileTree) (directory : PathBuf) : List (PathNode Component FileKind) :=
  if tree.kindAt directory = some .directory then tree.entries directory else []

end FileTree

/-- A file of the spool directory and what reading it as a record gives. -/
structure SpoolFile where
  name : String
  record : Except String SpoolRecord

/-- A name with the extension of the records. -/
def SpoolFile.isRecord (file : SpoolFile) : Bool :=
  Path.extension file.name.toList = some "json".toList

/-- Where the file system fails. -/
structure IoFaults where
  /-- Reading a directory. -/
  list : PathBuf → Option String
  /-- The type of an entry, and a name of it that is UTF-8. -/
  entry : PathBuf → Option String
  /-- The metadata of a path. -/
  metadata : PathBuf → Option String
  /-- Removing a directory; some of what is below it may be gone then. -/
  remove : PathBuf → Option (String × (PathBuf → Bool))
  fsync : PathBuf → Option String

/-- Nothing fails. -/
def IoFaults.none : IoFaults where
  list := fun _ => .none
  entry := fun _ => .none
  metadata := fun _ => .none
  remove := fun _ => .none
  fsync := fun _ => .none

namespace AtomicPublicationSpec

/-- The private directory of the mirror. -/
def privateDir (publication : AtomicPublicationSpec) : PathBuf :=
  .ofText (joinText publication.publicationRoot publication.mirror)

def attempts (publication : AtomicPublicationSpec) : PathBuf :=
  .ofText (joinText (joinText publication.publicationRoot publication.mirror) "attempts")

def gc (publication : AtomicPublicationSpec) : PathBuf := .ofText publication.gcDir

def exchange (publication : AtomicPublicationSpec) : PathBuf := .ofText publication.exchangeDir

end AtomicPublicationSpec

section Protected

/-- The paths a publication state protects. -/
def PublicationState.protectedPaths (state : PublicationState) : List PathBuf :=
  [state.candidate, state.basis] ++ (state.rotatedPreviousPath.map PathBuf.ofText).toList

/-- The paths a record protects if it is of the mirror. -/
def SpoolRecord.protectedPaths (record : SpoolRecord) (mirror : String) : List PathBuf :=
  match record.publication with
  | none => []
  | some state => if state.mirror = mirror then state.protectedPaths else []

/-- `protected_paths`, for the files that the spool directory has. -/
def protectedPaths (spoolDir mirror : String) : List SpoolFile → Except String (List PathBuf)
  | [] => .ok []
  | file :: rest =>
      if file.isRecord = false then protectedPaths spoolDir mirror rest
      else
        match file.record with
        | .error _ =>
            .error ("cannot construct GC protected set from " ++ joinText spoolDir file.name)
        | .ok record => (protectedPaths spoolDir mirror rest).map (record.protectedPaths mirror ++ ·)

end Protected

section Scan

/-- `OwnedGenerationEntry`. -/
structure OwnedGenerationEntry where
  cleanupPath : PathBuf
  containsGeneration : Bool
  deriving DecidableEq

/-- `str::rsplit_once('-')`. -/
def rsplitOnceDash (text : List Char) : Option (List Char × List Char) :=
  if '-' ∈ text then
    some ((text.reverse.dropWhile (· ≠ '-')).tail.reverse,
      (text.reverse.takeWhile (· ≠ '-')).reverse)
  else none

/-- `str::parse::<u32>`. -/
def parseU32 (text : List Char) : Option ℕ :=
  let digits := match text with
    | '+' :: rest => rest
    | other => other
  if digits ≠ [] ∧ digits.all Char.isDigit ∧ Nat.ofDigitChars 10 digits 0 < 2 ^ 32 then
    some (Nat.ofDigitChars 10 digits 0)
  else none

/-- What names the attempt in the name of an entry. -/
def generationIdentity (gc : Bool) (name : List Char) : List Char :=
  if gc = false then name
  else if "previous-".toList.isPrefixOf name then name.drop "previous-".length
  else []

/-- The name of an entry. -/
def entryName (path : PathBuf) : List Char :=
  match path.getLast? with
  | some component => component.text
  | none => []

/-- The names that the code gives to entries; `canonicalUlid` says which texts `Ulid` reads and
prints back. -/
def recognizedName (canonicalUlid : List Char → Bool) (gc : Bool) (name : List Char) : Bool :=
  match rsplitOnceDash (generationIdentity gc name) with
  | none => false
  | some (runId, attempt) => canonicalUlid runId && (parseU32 attempt).any fun attempt => 0 < attempt

/-- The directory of a generation below the directory of an attempt. -/
def generationRoot (path : PathBuf) : PathBuf := path ++ [.normal "root".toList]

/-- One entry of `owned_generation_entries`. -/
def ownedGenerationEntry (canonicalUlid : List Char → Bool) (faults : IoFaults) (tree : FileTree)
    (gc : Bool) (node : PathNode Component FileKind) : Except String OwnedGenerationEntry :=
  match faults.entry node.path with
  | some error => .error error
  | none =>
      if recognizedName canonicalUlid gc (entryName node.path) = false ∨ node.kind ≠ .directory then
        .error ("unrecognized private publication entry " ++ PathBuf.display node.path)
      else if gc = true then .ok ⟨node.path, true⟩
      else
        match faults.metadata (generationRoot node.path) with
        | some error => .error error
        | none =>
            match tree.kindAt (generationRoot node.path) with
            | some .directory => .ok ⟨node.path, true⟩
            | some _ =>
                .error ("Atomic Attempt generation root is not a directory at " ++
                  PathBuf.display node.path)
            | none => .ok ⟨node.path, false⟩

/-- `owned_generation_entries`. -/
def ownedGenerationEntries (canonicalUlid : List Char → Bool) (faults : IoFaults)
    (tree : FileTree) (root : PathBuf) (gc : Bool) : Except String (List OwnedGenerationEntry) :=
  match faults.list root with
  | some error => .error error
  | none =>
      match tree.kindAt root with
      | none => .ok []
      | some .directory =>
          ((tree.entries root).mapM (ownedGenerationEntry canonicalUlid faults tree gc)).map
            fun owned => owned.mergeSort fun left right => left.cleanupPath.le right.cleanupPath
      | some _ => .error "Not a directory"

end Scan

section Removal

/-- `remove_dir_all`. -/
def removeDirAll (faults : IoFaults) (path : PathBuf) (tree : FileTree) :
    Except String Unit × FileTree :=
  match faults.remove path with
  | none => (.ok (), tree.prune path)
  | some (error, gone) =>
      (.error error, tree.delete fun node => path.isPrefixOf node.path && gone node.path)

/-- The loop over the garbage. -/
def removeGarbage (faults : IoFaults) : List PathBuf → FileTree → Except String Unit × FileTree
  | [], tree => (.ok (), tree)
  | path :: rest, tree =>
      match removeDirAll faults path tree with
      | (.ok (), tree) => removeGarbage faults rest tree
      | (.error _, tree) =>
          (.error ("remove unprotected publication generation " ++ path.display), tree)

/-- The loop over the two directories. -/
def fsyncDirectories (faults : IoFaults) (tree : FileTree) :
    List PathBuf → Except String Unit
  | [] => .ok ()
  | directory :: rest =>
      if tree.existsAt directory then
        match faults.fsync directory with
        | some error => .error error
        | none => fsyncDirectories faults tree rest
      else fsyncDirectories faults tree rest

end Removal

section Admission

/-- `AdmissionReport`. -/
structure AdmissionReport where
  removedGenerations : ℕ
  remainingPrivateGenerations : ℕ
  publicationFreeBytes : ℕ
  deriving DecidableEq

/-- What the scans find. -/
structure GenerationScan where
  protectedPaths : List PathBuf
  entries : List OwnedGenerationEntry

namespace GenerationScan

/-- Whether a recorded path keeps an entry. -/
def keeps (scan : GenerationScan) (path : PathBuf) : Bool :=
  scan.protectedPaths.any fun recorded => path.isPrefixOf recorded || recorded.isPrefixOf path

def garbage (scan : GenerationScan) : List PathBuf :=
  (scan.entries.filter fun entry => !scan.keeps entry.cleanupPath).map (·.cleanupPath)

end GenerationScan

variable (canonicalUlid : List Char → Bool) (faults : IoFaults)

/-- `gc_and_check_locked` up to the first removal. -/
def scanGenerations (publication : AtomicPublicationSpec) (spoolDir : String)
    (spool : List SpoolFile) (tree : FileTree) : Except String GenerationScan :=
  if publication.gc.parent ≠ some publication.privateDir ∨
      publication.exchange.parent ≠ some publication.privateDir then
    .error "Atomic private layout does not match the configured Mirror namespace"
  else
    match faults.list (.ofText spoolDir) with
    | some error => .error error
    | none => do
        let protectedPaths ← protectedPaths spoolDir publication.mirror spool
        let attempts ← ownedGenerationEntries canonicalUlid faults tree publication.attempts false
        let gc ← ownedGenerationEntries canonicalUlid faults tree publication.gc true
        return { protectedPaths, entries := attempts ++ gc }

/-- `u32::MAX`. -/
def u32Max : ℕ := 2 ^ 32 - 1

/-- The generations that are counted after the removals. -/
def remainingGenerations (publication : AtomicPublicationSpec) (scan : GenerationScan)
    (tree : FileTree) : ℕ :=
  let counted := scan.entries.countP fun entry =>
    entry.containsGeneration && !scan.garbage.contains entry.cleanupPath
  let remaining := if counted ≤ u32Max then counted else u32Max
  if tree.existsAt publication.exchange then min (remaining + 1) u32Max else remaining

/-- `gc_and_check_locked` after the removals. `statvfs` gives the available blocks and their
size. -/
def checkAdmission (publication : AtomicPublicationSpec) (scan : GenerationScan)
    (maxPrivateGenerations : UInt32) (reserveBytes : ℕ) (statvfs : Except String (ℕ × ℕ))
    (tree : FileTree) : Except String AdmissionReport := do
  fsyncDirectories faults tree [publication.attempts, publication.gc]
  let remaining := remainingGenerations publication scan tree
  if maxPrivateGenerations.toNat ≤ remaining then
    .error ("private generation bound reached for Mirror " ++ publication.mirror ++ ": " ++
      toString remaining ++ " >= " ++ toString maxPrivateGenerations.toNat)
  else
    let (blocks, size) ← statvfs
    if u64Max < blocks * size then
      .error "publication available-byte count overflowed u64"
    else if blocks * size < reserveBytes then
      .error ("publication free-space reserve not met for Mirror " ++ publication.mirror ++ ": " ++
        toString (blocks * size) ++ " < " ++ toString reserveBytes)
    else
      return {
        removedGenerations := min scan.garbage.length u32Max
        remainingPrivateGenerations := remaining
        publicationFreeBytes := blocks * size }

/-- `gc_and_check_locked`. -/
def gcAndCheckLocked (publication : AtomicPublicationSpec) (spoolDir : String)
    (spool : List SpoolFile) (maxPrivateGenerations : UInt32) (reserveBytes : ℕ)
    (statvfs : Except String (ℕ × ℕ)) (tree : FileTree) :
    Except String AdmissionReport × FileTree :=
  match scanGenerations canonicalUlid faults publication spoolDir spool tree with
  | .error error => (.error error, tree)
  | .ok scan =>
      match removeGarbage faults scan.garbage tree with
      | (.error error, tree) => (.error error, tree)
      | (.ok (), tree) =>
          (checkAdmission faults publication scan maxPrivateGenerations reserveBytes statvfs tree,
            tree)

end Admission

end LzuMirror
