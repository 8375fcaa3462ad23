import LzuMirror.Agent.Service
import LzuMirror.Core.Compilation
import LzuMirror.Lib.Overlap
import LzuMirror.Store.Services

/-!
# Where a compiled attempt may write

`compile_process_run_spec` joins names onto two roots and hands the results on
as texts; `safe_spec` reads the texts again. Here the texts are compared as
component lists: `CompiledFor.safeSpec` says that the agent admits what the
server compiles from the roots the agent reports, and directories of different
mirrors and of different attempts do not overlap.

The private directories of one mirror and the published directory of another
lie below different roots. `preflight` only tests one of the two ways in which
one root can lie inside the other.
-/

namespace LzuMirror

/-- The context the server compiles an attempt of a mirror in. -/
def attemptContext (entry : MirrorName × CanonicalMirror) (mirrorRoot : String)
    (publicationRoot : Option String) (runId : String) (attemptNo : ℕ) : RunSpecContext where
  mirrorName := entry.1
  runId
  attemptNo
  nodeName := entry.2.ownerNode
  mirrorRoot
  publicationRoot

/-- The test `preflight` makes of the position of the canonical roots. -/
def preflightPlacement (mirrorRoot publicationRoot : String) : Bool :=
  !(decide (PathBuf.ofText publicationRoot = PathBuf.ofText mirrorRoot) ||
    Path.startsWith publicationRoot.toList mirrorRoot.toList)

/-- The directory a run is published as. -/
def ProcessRunSpec.publishedDir (spec : ProcessRunSpec) : String :=
  (spec.publication.map (·.publishedDir)).getD spec.targetDir

/-- The private directories of an atomic attempt. -/
def AtomicPublicationSpec.privateDirs (publication : AtomicPublicationSpec) : List String :=
  [publication.candidateDir, publication.basisDir, publication.exchangeDir, publication.gcDir]

/-- The private directories of an attempt below the private directory of its mirror. -/
def privatePaths (runId : String) (attemptNo : ℕ) : List PathBuf :=
  let attempt := Component.normal (runId ++ "-" ++ toString attemptNo).toList
  [[.normal "attempts".toList, attempt, .normal "root".toList],
    [.normal "attempts".toList, attempt, .normal "basis".toList],
    [.normal "exchange".toList], [.normal "gc".toList]]

section Compiled

variable {document : MirrorDocument} {context : RunSpecContext} {spec : ProcessRunSpec}
  {publication : AtomicPublicationSpec}

/-- Whatever the publication mode is, the result appears below the mirror root. -/
theorem compiled_publishedDir (compiled : compileProcessRunSpec document context = .ok spec) :
    spec.publishedDir = joinText context.mirrorRoot document.mirror.target := by
  cases atomic : spec.publication with
  | some publication =>
      rcases compiled_publication compiled atomic with ⟨publicationRoot, _, rfl⟩
      simp [ProcessRunSpec.publishedDir, atomic, atomicPublicationSpec]
  | none =>
      rcases compiled_eq compiled with ⟨section_, _, rfl⟩
      rw [processRunSpec_publication] at atomic
      simp [ProcessRunSpec.publishedDir, atomic]

/-- The components of the private directories. -/
theorem privateDirs_ofText (ulid : ulidText context.runId = true)
    (publicationRoot published : String) :
    (atomicPublicationSpec context publicationRoot published).privateDirs.map PathBuf.ofText =
      (privatePaths context.runId context.attemptNo).map fun path =>
        PathBuf.ofText publicationRoot ++ .normal context.mirrorName.value.toList :: path := by
  have mirror := context.mirrorName.plain
  have attempt := attempt_plain ulid context.attemptNo
  have attempts : Path.Plain "attempts".toList := ⟨by decide, by decide, by decide, by decide⟩
  have root : Path.Plain "root".toList := ⟨by decide, by decide, by decide, by decide⟩
  have basis : Path.Plain "basis".toList := ⟨by decide, by decide, by decide, by decide⟩
  have exchange : Path.Plain "exchange".toList := ⟨by decide, by decide, by decide, by decide⟩
  have gc : Path.Plain "gc".toList := ⟨by decide, by decide, by decide, by decide⟩
  simp only [atomicPublicationSpec, AtomicPublicationSpec.privateDirs, privatePaths, joinText,
    PathBuf.ofText, String.toList_ofList, List.map_cons, List.map_nil, mirror.components_join,
    attempt.components_join, attempts.components_join, root.components_join,
    basis.components_join, exchange.components_join, gc.components_join, List.append_assoc,
    List.cons_append, List.nil_append]

/-- The components of the published directory. -/
theorem published_ofText {target : String} (safe : safeTarget target = true) (root : String) :
    PathBuf.ofText (joinText root target) = PathBuf.ofText root ++ PathBuf.ofText target := by
  simp only [PathBuf.ofText, joinText, String.toList_ofList,
    Path.components_join (leading_of_safeTarget safe)]

end Compiled

section Admission

/-- An absolute root without `..` components. -/
structure PlainRoot (root : String) : Prop where
  absolute : Path.isAbsolute root.toList = true
  noParentDir : Component.parentDir ∉ PathBuf.ofText root

theorem pathBelow_of_components {root value : String} {rest : PathBuf} (plain : PlainRoot root)
    (below : PathBuf.ofText value = PathBuf.ofText root ++ rest) (nonempty : rest ≠ [])
    (noParentDir : Component.parentDir ∉ rest) : pathBelow root value = true := by
  have different : PathBuf.ofText value ≠ PathBuf.ofText root := by
    simp [below, nonempty]
  have absolute : Path.isAbsolute value.toList = true := by
    have rootFirst := Path.isAbsolute_iff.mp plain.absolute
    rw [Path.isAbsolute_iff]
    change (PathBuf.ofText root).head? = _ at rootFirst
    change (PathBuf.ofText value).head? = _
    rw [below, List.head?_append, rootFirst]
    rfl
  have starts : Path.startsWith value.toList root.toList = true := by
    change (PathBuf.ofText root).isPrefixOf (PathBuf.ofText value) = true
    rw [below, List.isPrefixOf_iff_prefix]
    exact List.prefix_append _ _
  have normal : Component.parentDir ∉ Path.components value.toList := by
    change Component.parentDir ∉ PathBuf.ofText value
    simp [below, plain.noParentDir, noParentDir]
  simp [pathBelow, pathWithin, different, absolute, plain.absolute, starts, normal]

theorem ofText_of_safeTarget {target : String} (safe : safeTarget target = true) :
    PathBuf.ofText target ≠ [] ∧ Component.parentDir ∉ PathBuf.ofText target := by
  simp only [safeTarget, Bool.and_eq_true, decide_eq_true_eq, List.all_eq_true] at safe
  rcases safe with ⟨⟨nonempty, _⟩, normal⟩
  constructor
  · exact Path.components_ne_nil fun empty => nonempty (String.toList_eq_nil_iff.mp empty)
  · intro parent
    exact absurd (normal .parentDir parent) (by simp)

/-- A document that leaves the working directory to the runner. -/
def MirrorDocument.WithoutCwd (document : MirrorDocument) : Prop :=
  ∀ program args cwd, document.sync = .command program args cwd → cwd = none

theorem processRunSpec_cwd {document : MirrorDocument} (noCwd : document.WithoutCwd)
    (context : RunSpecContext) (published : String) (section_ : Option AtomicPublicationSpec) :
    (processRunSpec document context published section_).cwd = none := by
  cases sync : document.sync with
  | rsync source args => simp [processRunSpec, sync]
  | command program args cwd =>
      simp [processRunSpec, sync, noCwd program args cwd sync]

/-- The server's specification of an attempt on an agent. -/
structure CompiledFor (config : AgentConfig) (entry : MirrorName × CanonicalMirror)
    (runId : String) (attemptNo : ℕ) (spec : ProcessRunSpec) : Prop where
  ulid : ulidText runId = true
  compiled : compileProcessRunSpec entry.2.document
    (attemptContext entry config.mirrorRoot config.publicationRoot runId attemptNo) = .ok spec

variable {config : AgentConfig} {entry : MirrorName × CanonicalMirror} {runId : String}
  {attemptNo : ℕ} {spec : ProcessRunSpec}

theorem CompiledFor.publishedDir (made : CompiledFor config entry runId attemptNo spec)
    (safe : safeTarget entry.2.document.mirror.target = true) :
    PathBuf.ofText spec.publishedDir =
      PathBuf.ofText config.mirrorRoot ++ PathBuf.ofText entry.2.document.mirror.target := by
  rw [compiled_publishedDir made.compiled]
  exact published_ofText safe config.mirrorRoot

theorem CompiledFor.privateDir (made : CompiledFor config entry runId attemptNo spec)
    {publication : AtomicPublicationSpec} (atomic : spec.publication = some publication) :
    ∃ publicationRoot, config.publicationRoot = some publicationRoot ∧
      publication.publicationRoot = publicationRoot ∧
      publication.privateDirs.map PathBuf.ofText =
        (privatePaths runId attemptNo).map fun path =>
          PathBuf.ofText publicationRoot ++ .normal entry.1.value.toList :: path := by
  rcases compiled_publication made.compiled atomic with ⟨publicationRoot, configured, rfl⟩
  exact ⟨publicationRoot, configured, rfl, privateDirs_ofText made.ulid publicationRoot _⟩

/-- The agent admits what the server compiles from the roots it reports. -/
theorem CompiledFor.safeSpec (made : CompiledFor config entry runId attemptNo spec)
    (safe : safeTarget entry.2.document.mirror.target = true)
    (noCwd : entry.2.document.WithoutCwd) (mirrorRoot : PlainRoot config.mirrorRoot)
    (publicationRoots : ∀ root, config.publicationRoot = some root → PlainRoot root) :
    safeSpec config spec = true := by
  have published : pathBelow config.mirrorRoot spec.publishedDir = true :=
    pathBelow_of_components mirrorRoot (made.publishedDir safe) (ofText_of_safeTarget safe).1
      (ofText_of_safeTarget safe).2
  have root : spec.mirrorRoot = config.mirrorRoot :=
    compileProcessRunSpec_mirrorRoot made.compiled
  rcases compiled_eq made.compiled with ⟨section_, sectionOk, specEq⟩
  have runner : spec.runner = "process" := by simp [specEq]
  have cwd : spec.cwd = none := specEq ▸ processRunSpec_cwd noCwd _ _ _
  cases atomic : spec.publication with
  | none =>
      have target : spec.publishedDir = spec.targetDir := by
        simp [ProcessRunSpec.publishedDir, atomic]
      simp [LzuMirror.safeSpec, runner, root, cwd, atomic, ← target, published]
  | some publication =>
      rcases made.privateDir atomic with ⟨publicationRoot, configured, named, directories⟩
      have target : spec.targetDir = publication.candidateDir := by
        have sections : section_ = some publication := by simpa [specEq] using atomic
        simp [specEq, sections]
      have publishedBelow : pathBelow config.mirrorRoot publication.publishedDir = true := by
        simpa [ProcessRunSpec.publishedDir, atomic] using published
      have privateBelow : ∀ directory ∈ publication.privateDirs,
          pathBelow publicationRoot directory = true := by
        intro directory member
        have located := List.mem_map_of_mem (f := PathBuf.ofText) member
        rw [directories] at located
        rcases List.mem_map.mp located with ⟨path, pathMem, spelled⟩
        apply pathBelow_of_components (publicationRoots publicationRoot configured) spelled.symm
        · simp
        · simp only [privatePaths, List.mem_cons, List.not_mem_nil, or_false] at pathMem
          rcases pathMem with rfl | rfl | rfl | rfl <;> simp
      simp only [AtomicPublicationSpec.privateDirs, List.forall_mem_cons] at privateBelow
      rcases privateBelow with ⟨candidate, basis, exchange, gc, _⟩
      simp [LzuMirror.safeSpec, runner, root, cwd, atomic, configured, named, target,
        publishedBelow, candidate, basis, exchange, gc]

end Admission

/-! ## An atomic mirror on an agent with two roots -/

namespace Sample

/-- An agent with two roots. -/
def rootedConfig (mirrorRoot publicationRoot : String) : AgentConfig where
  instanceId := "agent-1"
  mirrorRoot
  publicationRoot := some publicationRoot
  publicationMaxPrivateGenerations := some 4
  publicationReserveBytes := some 10737418240
  maxConcurrentRuns := 1
  processEnabled := true

/-- The mirror `gamma` of its bundle on a node. -/
def gammaOn (node : NodeName) : MirrorName × CanonicalMirror :=
  (gamma, {
    ownerNode := node
    document := timedDocument
    canonicalToml := gammaToml
    configHash := timedVendor.textHash gammaToml })

def someRun : String := "01ARZ3NDEKTSV4RRFFQ69G5FAV"

/-- What `gamma` compiles to. -/
def gammaSpec (mirrorRoot publicationRoot : String) : ProcessRunSpec :=
  let context := attemptContext (gammaOn nodeA) mirrorRoot (some publicationRoot) someRun 1
  let published := joinText mirrorRoot "pool"
  processRunSpec timedDocument context published
    (some (atomicPublicationSpec context publicationRoot published))

theorem gamma_compiledFor (mirrorRoot publicationRoot : String) :
    CompiledFor (rootedConfig mirrorRoot publicationRoot) (gammaOn nodeA) someRun 1
      (gammaSpec mirrorRoot publicationRoot) :=
  ⟨by decide, rfl⟩

theorem gammaOn_mem : gammaOn nodeA ∈ (gammaBundle nodeA).mirrors := by
  simp [gammaBundle, gammaOn]

end Sample

section Separation

open Sample

variable {config : AgentConfig} {first second : MirrorName × CanonicalMirror}
  {firstRun secondRun : String} {firstNo secondNo : ℕ} {firstSpec secondSpec : ProcessRunSpec}
  {firstPublication secondPublication : AtomicPublicationSpec}

theorem targetsOverlap_iff {left right : String} :
    targetsOverlap left right = true ↔ Overlap (PathBuf.ofText left) (PathBuf.ofText right) := by
  simp only [targetsOverlap, Path.startsWith, Bool.or_eq_true, List.isPrefixOf_iff_prefix,
    PathBuf.ofText, Overlap]
  exact Or.comm

/-- Two mirrors of one node are published apart from each other. -/
theorem published_apart {vendor : Vendor} (bundle : CanonicalBundle vendor)
    (firstMem : first ∈ bundle.mirrors) (secondMem : second ∈ bundle.mirrors)
    (different : first.1 ≠ second.1) (oneNode : first.2.ownerNode = second.2.ownerNode)
    (firstMade : CompiledFor config first firstRun firstNo firstSpec)
    (secondMade : CompiledFor config second secondRun secondNo secondSpec) :
    ¬Overlap (PathBuf.ofText firstSpec.publishedDir) (PathBuf.ofText secondSpec.publishedDir) := by
  have targets := targetsOverlap_of_mem bundle.targetsDisjoint bundle.ordered firstMem secondMem
    different oneNode
  rw [firstMade.publishedDir (bundle.targetsSafe first firstMem),
    secondMade.publishedDir (bundle.targetsSafe second secondMem), Overlap.append_left,
    ← targetsOverlap_iff, targets]
  simp

/-- The private directories of an attempt are made of its mirror's name and its own. -/
theorem CompiledFor.mem_privateDirs (made : CompiledFor config first firstRun firstNo firstSpec)
    (atomic : firstSpec.publication = some firstPublication) {directory : String}
    (member : directory ∈ firstPublication.privateDirs) :
    ∃ publicationRoot, config.publicationRoot = some publicationRoot ∧
      ∃ path ∈ privatePaths firstRun firstNo, PathBuf.ofText directory =
        PathBuf.ofText publicationRoot ++ .normal first.1.value.toList :: path := by
  rcases made.privateDir atomic with ⟨publicationRoot, configured, _, directories⟩
  have located := List.mem_map_of_mem (f := PathBuf.ofText) member
  rw [directories] at located
  rcases List.mem_map.mp located with ⟨path, pathMem, spelled⟩
  exact ⟨publicationRoot, configured, path, pathMem, spelled.symm⟩

/-- Two mirrors have no private directory in common. -/
theorem private_apart (different : first.1 ≠ second.1)
    (firstMade : CompiledFor config first firstRun firstNo firstSpec)
    (secondMade : CompiledFor config second secondRun secondNo secondSpec)
    (firstAtomic : firstSpec.publication = some firstPublication)
    (secondAtomic : secondSpec.publication = some secondPublication)
    {left right : String} (leftMem : left ∈ firstPublication.privateDirs)
    (rightMem : right ∈ secondPublication.privateDirs) :
    ¬Overlap (PathBuf.ofText left) (PathBuf.ofText right) := by
  rcases firstMade.mem_privateDirs firstAtomic leftMem with
    ⟨publicationRoot, configured, leftPath, _, leftEq⟩
  rcases secondMade.mem_privateDirs secondAtomic rightMem with
    ⟨otherRoot, otherConfigured, rightPath, _, rightEq⟩
  have oneRoot : otherRoot = publicationRoot :=
    Option.some.inj (otherConfigured.symm.trans configured)
  rw [leftEq, rightEq, oneRoot, Overlap.append_left, Overlap.cons]
  rintro ⟨named, _⟩
  apply different
  have texts : first.1.value = second.1.value := String.toList_inj.mp (by simpa using named)
  cases firstName : first.1
  cases secondName : second.1
  simp_all

/-- The directories of one attempt carry its name. -/
theorem CompiledFor.mem_attemptDirs (made : CompiledFor config first firstRun firstNo firstSpec)
    (atomic : firstSpec.publication = some firstPublication) {directory : String}
    (member : directory ∈ [firstPublication.candidateDir, firstPublication.basisDir]) :
    ∃ publicationRoot, config.publicationRoot = some publicationRoot ∧
      ∃ leaf, PathBuf.ofText directory = PathBuf.ofText publicationRoot ++
        [.normal first.1.value.toList, .normal "attempts".toList,
          .normal (firstRun ++ "-" ++ toString firstNo).toList, leaf] := by
  rcases made.privateDir atomic with ⟨publicationRoot, configured, _, directories⟩
  simp only [AtomicPublicationSpec.privateDirs, privatePaths, List.map_cons, List.map_nil,
    List.cons.injEq] at directories
  rcases directories with ⟨candidate, basis, _⟩
  simp only [List.mem_cons, List.not_mem_nil, or_false] at member
  rcases member with rfl | rfl
  · exact ⟨publicationRoot, configured, _, candidate⟩
  · exact ⟨publicationRoot, configured, _, basis⟩

/-- Two attempts of one mirror have no candidate and no basis directory in common. -/
theorem attempts_apart (different : (firstRun, firstNo) ≠ (secondRun, secondNo))
    (firstMade : CompiledFor config first firstRun firstNo firstSpec)
    (secondMade : CompiledFor config first secondRun secondNo secondSpec)
    (firstAtomic : firstSpec.publication = some firstPublication)
    (secondAtomic : secondSpec.publication = some secondPublication) {left right : String}
    (leftMem : left ∈ [firstPublication.candidateDir, firstPublication.basisDir])
    (rightMem : right ∈ [secondPublication.candidateDir, secondPublication.basisDir]) :
    ¬Overlap (PathBuf.ofText left) (PathBuf.ofText right) := by
  rcases firstMade.mem_attemptDirs firstAtomic leftMem with
    ⟨publicationRoot, configured, leftLeaf, leftEq⟩
  rcases secondMade.mem_attemptDirs secondAtomic rightMem with
    ⟨otherRoot, otherConfigured, rightLeaf, rightEq⟩
  have oneRoot : otherRoot = publicationRoot :=
    Option.some.inj (otherConfigured.symm.trans configured)
  rw [leftEq, rightEq, oneRoot, Overlap.append_left]
  simp only [Overlap.cons, true_and, Component.normal.injEq]
  rintro ⟨named, _⟩
  rcases attempt_injective firstMade.ulid secondMade.ulid named with ⟨rfl, rfl⟩
  exact different rfl

/-- What the server compiles passes the agent's own policy, mirrors are kept apart, and so are
the attempts of one mirror. -/
theorem compiled_specs_safe_and_isolated {vendor : Vendor} (bundle : CanonicalBundle vendor)
    (config : AgentConfig) :
    (PlainRoot config.mirrorRoot →
      (∀ root, config.publicationRoot = some root → PlainRoot root) →
      ∀ entry ∈ bundle.mirrors, entry.2.document.WithoutCwd →
      ∀ runId attemptNo spec, CompiledFor config entry runId attemptNo spec →
        safeSpec config spec = true) ∧
    (∀ first ∈ bundle.mirrors, ∀ second ∈ bundle.mirrors, first.1 ≠ second.1 →
      first.2.ownerNode = second.2.ownerNode →
      ∀ firstRun firstNo firstSpec, CompiledFor config first firstRun firstNo firstSpec →
      ∀ secondRun secondNo secondSpec, CompiledFor config second secondRun secondNo secondSpec →
        ¬Overlap (PathBuf.ofText firstSpec.publishedDir)
            (PathBuf.ofText secondSpec.publishedDir) ∧
          ∀ firstPublication secondPublication,
            firstSpec.publication = some firstPublication →
            secondSpec.publication = some secondPublication →
            ∀ left ∈ firstPublication.privateDirs, ∀ right ∈ secondPublication.privateDirs,
              ¬Overlap (PathBuf.ofText left) (PathBuf.ofText right)) ∧
    (∀ entry ∈ bundle.mirrors, ∀ firstRun firstNo secondRun secondNo,
      (firstRun, firstNo) ≠ (secondRun, secondNo) →
      ∀ firstSpec, CompiledFor config entry firstRun firstNo firstSpec →
      ∀ secondSpec, CompiledFor config entry secondRun secondNo secondSpec →
      ∀ firstPublication secondPublication,
        firstSpec.publication = some firstPublication →
        secondSpec.publication = some secondPublication →
        ∀ left ∈ [firstPublication.candidateDir, firstPublication.basisDir],
          ∀ right ∈ [secondPublication.candidateDir, secondPublication.basisDir],
            ¬Overlap (PathBuf.ofText left) (PathBuf.ofText right)) := by
  refine ⟨?_, ?_, ?_⟩
  · intro mirrorRoot publicationRoots entry entryMem noCwd runId attemptNo spec made
    exact made.safeSpec (bundle.targetsSafe entry entryMem) noCwd mirrorRoot publicationRoots
  · intro first firstMem second secondMem different oneNode firstRun firstNo firstSpec firstMade
      secondRun secondNo secondSpec secondMade
    constructor
    · exact published_apart bundle firstMem secondMem different oneNode firstMade secondMade
    · intro firstPublication secondPublication firstAtomic secondAtomic left leftMem right rightMem
      exact private_apart different firstMade secondMade firstAtomic secondAtomic leftMem rightMem
  · intro entry _ firstRun firstNo secondRun secondNo different firstSpec firstMade secondSpec
      secondMade firstPublication secondPublication firstAtomic secondAtomic left leftMem right
      rightMem
    exact attempts_apart different firstMade secondMade firstAtomic secondAtomic leftMem rightMem

theorem gamma_compiled_is_safe :
    safeSpec (rootedConfig "/srv/mirrors" "/srv/publication")
      (gammaSpec "/srv/mirrors" "/srv/publication") = true := by
  have admitted := (compiled_specs_safe_and_isolated (gammaBundle nodeA)
    (rootedConfig "/srv/mirrors" "/srv/publication")).1
  apply admitted ⟨by decide, by decide⟩ _ (gammaOn nodeA) gammaOn_mem _ someRun 1
  · exact gamma_compiledFor _ _
  · rintro root configured
    cases configured
    exact ⟨by decide, by decide⟩
  · intro program args cwd sync
    cases sync
    rfl

end Separation

section Placement

open Sample

variable {config : AgentConfig} {first second : MirrorName × CanonicalMirror}
  {firstRun secondRun : String} {firstNo secondNo : ℕ} {firstSpec secondSpec : ProcessRunSpec}
  {publication : AtomicPublicationSpec}

/-- The preflight keeps the publication root out of the mirror root. -/
theorem not_mirrorRoot_prefix {mirrorRoot publicationRoot : String}
    (placed : preflightPlacement mirrorRoot publicationRoot = true) :
    ¬PathBuf.ofText mirrorRoot <+: PathBuf.ofText publicationRoot := by
  simp only [preflightPlacement, Path.startsWith, Bool.not_eq_true', Bool.or_eq_false_iff] at placed
  intro inside
  have starts := List.isPrefixOf_iff_prefix.mpr inside
  exact Bool.false_ne_true (placed.2.symm.trans starts)

/-- The private directories of a mirror and the published directory of another are apart unless
the mirror root lies in the private directory of the former. -/
theorem private_published_apart_iff {vendor : Vendor} (bundle : CanonicalBundle vendor)
    {publicationRoot : String} (configured : config.publicationRoot = some publicationRoot)
    (placed : preflightPlacement config.mirrorRoot publicationRoot = true)
    (secondMem : second ∈ bundle.mirrors)
    (firstMade : CompiledFor config first firstRun firstNo firstSpec)
    (secondMade : CompiledFor config second secondRun secondNo secondSpec)
    (atomic : firstSpec.publication = some publication) :
    (∀ directory ∈ publication.privateDirs,
        ¬Overlap (PathBuf.ofText directory) (PathBuf.ofText secondSpec.publishedDir)) ↔
      ∀ below : PathBuf, PathBuf.ofText config.mirrorRoot =
          PathBuf.ofText publicationRoot ++ .normal first.1.value.toList :: below →
        ∀ path ∈ privatePaths firstRun firstNo,
          ¬Overlap path (below ++ PathBuf.ofText second.2.document.mirror.target) := by
  have outside := not_mirrorRoot_prefix placed
  rcases firstMade.privateDir atomic with ⟨root, rootConfigured, _, directories⟩
  have oneRoot : root = publicationRoot := Option.some.inj (rootConfigured.symm.trans configured)
  subst oneRoot
  have located : (∀ directory ∈ publication.privateDirs,
        ¬Overlap (PathBuf.ofText directory) (PathBuf.ofText secondSpec.publishedDir)) ↔
      ∀ place ∈ publication.privateDirs.map PathBuf.ofText,
        ¬Overlap place (PathBuf.ofText secondSpec.publishedDir) := by
    simp only [List.forall_mem_map]
  rw [located, directories, List.forall_mem_map,
    secondMade.publishedDir (bundle.targetsSafe second secondMem)]
  constructor
  · intro apart below nested path pathMem overlap
    apply apart path pathMem
    rw [Overlap.append_iff outside]
    exact ⟨_, nested, by simpa using overlap⟩
  · intro clear path pathMem overlap
    rcases (Overlap.append_iff outside).mp overlap with ⟨between, nested, inner⟩
    rcases between with _ | ⟨name, below⟩
    · exact outside ⟨[], by simp [nested]⟩
    · rw [List.cons_append, Overlap.cons] at inner
      rcases inner with ⟨rfl, inner⟩
      exact clear below nested path pathMem inner

theorem sibling_roots_keep_gamma_apart :
    ¬Overlap (PathBuf.ofText (atomicPublicationSpec (attemptContext (gammaOn nodeA) "/srv/mirrors"
        (some "/srv/publication") someRun 1) "/srv/publication"
        (joinText "/srv/mirrors" "pool")).gcDir)
      (PathBuf.ofText (gammaSpec "/srv/mirrors" "/srv/publication").publishedDir) := by
  have made := gamma_compiledFor "/srv/mirrors" "/srv/publication"
  apply (private_published_apart_iff (gammaBundle nodeA) rfl (by decide) gammaOn_mem made made
    rfl).mpr
  · intro below nested
    have inside : PathBuf.ofText "/srv/publication" <+: PathBuf.ofText "/srv/mirrors" :=
      ⟨_, nested.symm⟩
    exact absurd inside (by decide)
  · simp [AtomicPublicationSpec.privateDirs]

/-- A mirror root below the publication root passes the preflight, and a mirror that is called
like the directory between them publishes into its own private tree. -/
theorem mirror_root_inside_private_tree :
    preflightPlacement "/srv/gamma/gc" "/srv" = true ∧
      gammaOn nodeA ∈ (gammaBundle nodeA).mirrors ∧
      CompiledFor (rootedConfig "/srv/gamma/gc" "/srv") (gammaOn nodeA) someRun 1
        (gammaSpec "/srv/gamma/gc" "/srv") ∧
      ∃ publication, (gammaSpec "/srv/gamma/gc" "/srv").publication = some publication ∧
        ∃ directory ∈ publication.privateDirs, Overlap (PathBuf.ofText directory)
          (PathBuf.ofText (gammaSpec "/srv/gamma/gc" "/srv").publishedDir) :=
  ⟨by decide, gammaOn_mem, gamma_compiledFor _ _, _, rfl, "/srv/gamma/gc", by decide, by decide⟩

end Placement

end LzuMirror
