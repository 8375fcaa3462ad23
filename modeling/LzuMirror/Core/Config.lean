import LzuMirror.Core.Path
import LzuMirror.Core.Schedule
import LzuMirror.Lib.Replacement

/-!
# Mirror documents and compiled run specifications

The configuration types of `crates/lmt-core/src/config.rs`, the overlap check of
a bundle and `compile_process_run_spec`.

TOML, JSON and hashing are library calls; `Vendor` is what the code sees of
them. A `CanonicalBundle` is what `canonicalize_bundle` returns: the mirrors in
name order, every target a safe relative path, no two targets on one node
overlapping, every canonical text parsing back to its document, and every
configuration hash the hash of that text.
-/

namespace LzuMirror

/-- `valid_name`: the identifiers that are safe in paths and in the API. -/
def validName (value : String) : Bool :=
  match value.toList with
  | [] => false
  | first :: rest =>
      decide ((first :: rest).length ≤ 63) && first.isAlphanum &&
        (first :: rest).all fun character =>
          character.isAlphanum || character = '-' || character = '_' || character = '.'

/-- `MirrorName`. -/
structure MirrorName where
  value : String
  valid : validName value = true
  deriving DecidableEq

/-- `NodeName`. -/
structure NodeName where
  value : String
  valid : validName value = true
  deriving DecidableEq

/-- `PublicationMode`. -/
inductive PublicationMode where
  | direct
  | atomic
  deriving DecidableEq, Repr

/-- `SyncConfig`. -/
inductive SyncConfig where
  | command (program : String) (args : List String) (cwd : Option String)
  | rsync (source : String) (args : List String)
  deriving DecidableEq, Repr

/-- `RunPolicy`. -/
structure RunPolicy where
  timeoutSeconds : ℕ
  maxAttempts : ℕ
  retryDelaySeconds : ℕ
  deriving DecidableEq, Repr

/-- `MirrorConfig`. -/
structure MirrorConfig where
  name : MirrorName
  enabled : Bool
  description : String
  target : String
  deriving DecidableEq

/-- `MirrorDocument`. The runner section has one possible value and is left out. -/
structure MirrorDocument where
  mirror : MirrorConfig
  schedule : Option ScheduleConfig
  sync : SyncConfig
  publication : Option PublicationMode
  run : RunPolicy
  deriving DecidableEq

/-- `MirrorDocument::publication_mode`. -/
def MirrorDocument.publicationMode (document : MirrorDocument) : PublicationMode :=
  document.publication.getD .direct

/-- The libraries the control plane stores configuration and specifications with. -/
structure Vendor extends Calendar where
  /-- `toml::from_str::<MirrorDocument>`. -/
  parseDocument : String → Except String MirrorDocument
  /-- `ScheduleConfig::semantic_hash`: SHA-256 of the schedule's TOML text. -/
  scheduleHash : ScheduleConfig → String
  /-- SHA-256 of the JSON text of a specification. -/
  specHash : ProcessRunSpec → String
  /-- SHA-256 of a text. -/
  textHash : String → String

/-- `CanonicalMirror`. -/
structure CanonicalMirror where
  ownerNode : NodeName
  document : MirrorDocument
  canonicalToml : String
  configHash : String

/-- The target check of `validate_document`: a non-empty path of normal components. -/
def safeTarget (target : String) : Bool :=
  decide (target ≠ "") && !Path.isAbsolute target.toList &&
    (Path.components target.toList).all fun component =>
      match component with
      | .normal _ => true
      | .rootDir | .curDir | .parentDir => false

/-- `ConfigError`. -/
inductive ConfigError where
  | invalidPath (path : String)
  | invalidToml (path message : String)
  | duplicateMirror (name : MirrorName)
  | nameMismatch (stem : String) (name : MirrorName)
  | unsafeTarget (target : String)
  | emptyProgram
  | invalidTimeout
  | invalidMaxAttempts
  | invalidRetryDelay
  | emptyRsyncSource
  | invalidSchedule (message : String)
  | unsupportedPlaceholder (placeholder : String)
  | missingPublicationRoot
  | targetOverlap (node : NodeName) (first second : MirrorName)
  | atomicRsyncOption (option reason : String)
  deriving DecidableEq

/-- The overlap test of two targets. -/
def targetsOverlap (first second : String) : Bool :=
  Path.startsWith first.toList second.toList || Path.startsWith second.toList first.toList

/-- `target_overlap_errors`: every pair of mirrors on one node with overlapping targets. -/
def targetOverlapErrors : List (MirrorName × CanonicalMirror) → List ConfigError
  | [] => []
  | (firstName, first) :: rest =>
      (rest.filterMap fun (secondName, second) =>
        if first.ownerNode ≠ second.ownerNode then none
        else if targetsOverlap first.document.mirror.target second.document.mirror.target then
          some (.targetOverlap first.ownerNode firstName secondName)
        else none) ++ targetOverlapErrors rest

/-- `CanonicalBundle`: the mirrors in name order with the checks that built it. -/
structure CanonicalBundle (vendor : Vendor) where
  mirrors : List (MirrorName × CanonicalMirror)
  bundleHash : String
  ordered : mirrors.Pairwise fun first second => first.1.value < second.1.value
  named : ∀ entry ∈ mirrors, entry.2.document.mirror.name = entry.1
  targetsSafe : ∀ entry ∈ mirrors, safeTarget entry.2.document.mirror.target = true
  policiesBounded : ∀ entry ∈ mirrors,
    1 ≤ entry.2.document.run.maxAttempts ∧ entry.2.document.run.maxAttempts ≤ 10 ∧
      entry.2.document.run.retryDelaySeconds ≤ 86400
  targetsDisjoint : targetOverlapErrors mirrors = []
  parses : ∀ entry ∈ mirrors,
    vendor.parseDocument entry.2.canonicalToml = .ok entry.2.document
  hashed : ∀ entry ∈ mirrors, entry.2.configHash = vendor.textHash entry.2.canonicalToml

/-- `bundle.mirrors.get`. -/
def CanonicalBundle.get? {vendor : Vendor} (bundle : CanonicalBundle vendor) (name : String) :
    Option CanonicalMirror :=
  (bundle.mirrors.find? fun entry => entry.1.value = name).map Prod.snd

/-- The bundle without mirrors. -/
def CanonicalBundle.empty (vendor : Vendor) : CanonicalBundle vendor where
  mirrors := []
  bundleHash := vendor.textHash ""
  ordered := by simp
  named := by simp
  targetsSafe := by simp
  policiesBounded := by simp
  targetsDisjoint := rfl
  parses := by simp
  hashed := by simp

/-- `value.replace(placeholder, text)`. -/
def replaceText (value placeholder text : String) : String :=
  String.ofList (replaceAll placeholder.toList text.toList 0 value.toList)

/-- `Path::join` on texts. -/
def joinText (base rest : String) : String :=
  String.ofList (Path.join base.toList rest.toList)

/-- `RunSpecContext`. -/
structure RunSpecContext where
  mirrorName : MirrorName
  runId : String
  attemptNo : ℕ
  nodeName : NodeName
  mirrorRoot : String
  publicationRoot : Option String

/-- The `resolve` closure of `compile_process_run_spec`: seven chained replacements. -/
def resolvePlaceholders (context : RunSpecContext) (targetDir publishedDir value : String) :
    String :=
  let value := replaceText value "\x7bmirror_name\x7d" context.mirrorName.value
  let value := replaceText value "\x7brun_id\x7d" context.runId
  let value := replaceText value "\x7battempt\x7d" (toString context.attemptNo)
  let value := replaceText value "\x7bnode_name\x7d" context.nodeName.value
  let value := replaceText value "\x7bmirror_root\x7d" context.mirrorRoot
  let value := replaceText value "\x7btarget_dir\x7d" targetDir
  replaceText value "\x7bpublished_dir\x7d" publishedDir

/-- The private layout of an atomic attempt. -/
def atomicPublicationSpec (context : RunSpecContext) (publicationRoot publishedDir : String) :
    AtomicPublicationSpec :=
  let mirrorPrivate := joinText publicationRoot context.mirrorName.value
  let attemptPrivate := joinText (joinText mirrorPrivate "attempts")
    (context.runId ++ "-" ++ toString context.attemptNo)
  { mirror := context.mirrorName.value
    publicationRoot
    publishedDir
    candidateDir := joinText attemptPrivate "root"
    basisDir := joinText attemptPrivate "basis"
    exchangeDir := joinText mirrorPrivate "exchange"
    gcDir := joinText mirrorPrivate "gc" }

/-- `str::trim_end_matches('/')`. -/
def trimEndSlashes (value : String) : String :=
  String.ofList (value.toList.reverse.dropWhile (· = '/')).reverse

/-- The publication section of a compiled specification. -/
def compilePublication (document : MirrorDocument) (context : RunSpecContext)
    (publishedDir : String) : Except ConfigError (Option AtomicPublicationSpec) :=
  match document.publicationMode, context.publicationRoot with
  | .direct, _ => .ok none
  | .atomic, none => .error .missingPublicationRoot
  | .atomic, some publicationRoot =>
      .ok (some (atomicPublicationSpec context publicationRoot publishedDir))

/-- The specification for a given publication section. -/
def processRunSpec (document : MirrorDocument) (context : RunSpecContext) (publishedDir : String)
    (publication : Option AtomicPublicationSpec) : ProcessRunSpec :=
  let targetDir := (publication.map (·.candidateDir)).getD publishedDir
  let resolve := resolvePlaceholders context targetDir publishedDir
  let (program, args, cwd) :=
    match document.sync with
    | .command program args cwd => (resolve program, args.map resolve, cwd.map resolve)
    | .rsync source args =>
        let linkDest := match publication with
          | none => []
          | some publication => ["--link-dest=" ++ publication.basisDir]
        ("rsync", args ++ linkDest ++ ["--", source, trimEndSlashes targetDir ++ "/"], none)
  { runner := "process"
    program, args, cwd
    timeoutSeconds := document.run.timeoutSeconds
    mirrorRoot := context.mirrorRoot
    targetDir, publication }

/-- `compile_process_run_spec`. -/
def compileProcessRunSpec (document : MirrorDocument) (context : RunSpecContext) :
    Except ConfigError ProcessRunSpec :=
  let publishedDir := joinText context.mirrorRoot document.mirror.target
  (compilePublication document context publishedDir).map
    (processRunSpec document context publishedDir)

/-- A compiled specification names the mirror root it was compiled for. -/
theorem compileProcessRunSpec_mirrorRoot {document : MirrorDocument} {context : RunSpecContext}
    {spec : ProcessRunSpec} (compiled : compileProcessRunSpec document context = .ok spec) :
    spec.mirrorRoot = context.mirrorRoot := by
  unfold compileProcessRunSpec at compiled
  simp only at compiled
  cases section_ : compilePublication document context
      (joinText context.mirrorRoot document.mirror.target) with
  | error reason =>
      rw [section_] at compiled
      cases compiled
  | ok publication =>
      rw [section_] at compiled
      cases compiled
      rfl

/-- The mirrors of one bundle with one owner have targets none of which contains another. -/
theorem targetsOverlap_of_mem {mirrors : List (MirrorName × CanonicalMirror)}
    (disjoint : targetOverlapErrors mirrors = [])
    (ordered : mirrors.Pairwise fun first second => first.1.value < second.1.value)
    {first second : MirrorName × CanonicalMirror} (firstMem : first ∈ mirrors)
    (secondMem : second ∈ mirrors) (different : first.1 ≠ second.1)
    (sameOwner : first.2.ownerNode = second.2.ownerNode) :
    targetsOverlap first.2.document.mirror.target second.2.document.mirror.target = false := by
  induction mirrors with
  | nil => cases firstMem
  | cons head rest ih =>
      obtain ⟨headName, headMirror⟩ := head
      rw [targetOverlapErrors, List.append_eq_nil_iff, List.filterMap_eq_nil_iff] at disjoint
      obtain ⟨headDisjoint, restDisjoint⟩ := disjoint
      -- a pair with the head is a pair the head was compared with; the test is symmetric
      have headPair : ∀ entry ∈ rest, headMirror.ownerNode = entry.2.ownerNode →
          targetsOverlap headMirror.document.mirror.target entry.2.document.mirror.target =
            false := by
        intro entry entryMem owner
        have compared := headDisjoint entry entryMem
        simpa [owner] using compared
      rcases List.mem_cons.mp firstMem with rfl | firstRest
      · rcases List.mem_cons.mp secondMem with rfl | secondRest
        · exact absurd rfl different
        · exact headPair second secondRest sameOwner
      · rcases List.mem_cons.mp secondMem with rfl | secondRest
        · have reversed := headPair first firstRest sameOwner.symm
          unfold targetsOverlap at reversed ⊢
          rwa [Bool.or_comm]
        · exact ih restDisjoint ordered.tail firstRest secondRest

/-- A safe target is a plain relative path. -/
theorem leading_of_safeTarget {target : String} (safe : safeTarget target = true) :
    Path.leading target.toList = [] := by
  simp only [safeTarget, Bool.and_eq_true, Bool.not_eq_true', List.all_eq_true] at safe
  obtain ⟨⟨_, relative⟩, normal⟩ := safe
  unfold Path.leading
  simp only [relative, Bool.false_eq_true, if_false]
  split
  next current =>
    have curDir : Component.curDir ∈ Path.components target.toList := by
      simp [Path.components, Path.leading, relative, current]
    exact absurd (normal _ curDir) (by simp)
  next => rfl

namespace Sample

def nodeA : NodeName := ⟨"node-a", by decide⟩

def nodeB : NodeName := ⟨"node-b", by decide⟩

end Sample

end LzuMirror
