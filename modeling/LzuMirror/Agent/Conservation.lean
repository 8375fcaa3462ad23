import LzuMirror.Agent.Contracts

/-!
# No generation is lost

Runs of the publication functions of one attempt, one call after another. Every
call starts from the record on disk; a call may be cut off after any of its
operations, so that a crash can be anywhere, and with `faults` any operation may
fail. Between two calls the record may be rewritten in the fields publication
does not use: acknowledgements, log offsets and the cancellation flag.

The invariant of the namespace holds in every state of such a run, and
`Namespace.Conserved` is what it means for the directories, for the order of the
changes and for a recorded success.
-/

namespace LzuMirror

/-- The entry points of a publication. -/
inductive PublicationCall where
  | commit
  | recover
  | recoverBeforeControlPlane
  deriving DecidableEq, Repr

/-- The computation of a call. -/
def PublicationCall.computation : PublicationCall → Agent Unit
  | .commit => discard Agent.commit
  | .recover => Agent.recover
  | .recoverBeforeControlPlane => Agent.recoverBeforeControlPlane

/-- A rewrite of the record that is not about its publication or its state. -/
structure SpoolRecord.Annotates (record next : SpoolRecord) : Prop where
  runId : next.runId = record.runId
  attempt : next.attempt = record.attempt
  state : next.state = record.state
  publication : next.publication = record.publication

/-- The runs of one attempt's publication, up to any operation of any call. -/
inductive Disk.Reached (fresh : PathBuf → FileIdentity) (faults : Prop) (start : Disk) :
    Disk → Prop where
  | start : Reached fresh faults start start
  | call {disk after : Disk} {record : SpoolRecord}
      {rest : AgentProgram (Except String Unit × SpoolRecord)} (call : PublicationCall)
      (reached : Reached fresh faults start disk) (durable : disk.spool = some record)
      (ran : Program.Reaches (Disk.Step fresh faults) (call.computation record, disk)
        (rest, after)) :
      Reached fresh faults start after
  | rewrite {disk : Disk} {record next : SpoolRecord}
      (reached : Reached fresh faults start disk) (durable : disk.spool = some record)
      (annotates : record.Annotates next) :
      Reached fresh faults start (disk.write next)

namespace Namespace

open Agent

/-- Nothing has been published yet: an executing attempt over a namespace at rest. -/
structure Initial (ns : Namespace) (record : SpoolRecord) (disk : Disk) : Prop where
  durable : disk.spool = some record
  tracks : ∃ state, ns.Tracks record state ∧ state.phase = .executing
  unsuccessful : record.state ≠ .succeeded
  shows : ns.Shows disk.fs .atRest
  history : disk.history = []

/-- What holds of the disk at every step of a run. -/
structure Conserved (ns : Namespace) (disk : Disk) : Prop where
  /-- Each directory stands at exactly one of the four paths. -/
  generations : ∀ identity, identity = ns.candidate ∨ ns.published = some identity ∨
    ns.previous = some identity → ∃! path, path ∈ ns.paths ∧ disk.fs path = some identity
  /-- Nothing is moved unless the durable phase announced it. -/
  writeAhead : ∀ later event earlier, disk.history = later ++ event :: earlier →
    event.change.moves → Prepared earlier ∧ ∃ phase, event.phase? = some phase ∧ phase.isMoving
  /-- The published path is touched by the visibility rename only, under `ReadyToCommit`. -/
  publishedBy : ∀ event ∈ disk.history, event.change.touches ns.publishedPath →
    event.phase? = some .readyToCommit ∧ ns.IsVisibilityRename event.change
  publishedOnce : (disk.history.countP fun event => event.change.touches ns.publishedPath) ≤ 1
  publishedHolds : disk.fs ns.publishedPath =
    if disk.history.countP (fun event => event.change.touches ns.publishedPath) = 0 then
      ns.published
    else some ns.candidate
  /-- A success is recorded only for a visible and synced candidate. -/
  succeeded : ∀ record, disk.spool = some record → record.state = .succeeded →
    disk.fs ns.publishedPath = some ns.candidate ∧ ns.SyncedAfterMove disk.history

/-- A publication may be under way for every attempt that has not succeeded. -/
abbrev Unsuccessful (state : AttemptState) : Prop := state ≠ .succeeded

variable {ns : Namespace} {unfinished : AttemptState → Prop} {trouble : Prop}
  {fresh : PathBuf → FileIdentity} {faults : Prop} {record : SpoolRecord} {start disk : Disk}

theorem Initial.invariant (initial : ns.Initial record disk) : ns.Invariant unfinished trouble disk := by
  rcases initial.tracks with ⟨state, tracks, phase⟩
  refine ⟨record, state, .atRest, initial.durable, ?_, ?_, initial.shows, ?_⟩
  · exact {
      tracks
      permitted := by simp [phase, PublicationPhase.permits]
      identifies := fun moving => absurd phase moving
      unfinished := fun moving => absurd phase moving
      pending := fun _ => initial.unsuccessful
      succeeded := by simp [phase]
      intent := by simp [phase]
      troubled := by simp [phase] }
  · rw [initial.history]
    exact {
      prepared := fun moving => absurd phase moving
      restored := by simp [Prepared]
      synced := by simp [phase] }
  · rw [initial.history]
    exact ⟨by simp, by simp, by simp, by simp⟩

/-- A rewrite in the other fields keeps the invariant. -/
theorem Invariant.rewrite {next : SpoolRecord} (invariant : ns.Invariant unfinished trouble disk)
    (durable : disk.spool = some record) (annotates : record.Annotates next) :
    ns.Invariant unfinished trouble (disk.write next) := by
  rcases invariant.started durable with ⟨state, layout, started⟩
  refine ⟨next, state, layout, rfl, ?_, ?_, started.shows, started.chronicle.unmoved rfl⟩
  · have consistent := started.consistent
    have tracks := consistent.tracks
    exact {
      tracks := {
        tracks with
        publication := annotates.publication.trans tracks.publication
        rotatedText := by
          rw [annotates.runId, annotates.attempt]
          exact tracks.rotatedText }
      permitted := consistent.permitted
      identifies := consistent.identifies
      unfinished := annotates.state ▸ consistent.unfinished
      pending := annotates.state ▸ consistent.pending
      succeeded := annotates.state ▸ consistent.succeeded
      intent := consistent.intent
      troubled := consistent.troubled }
  · have recorded := started.recorded
    refine {
      prepared := fun moving => (recorded.prepared moving).cons
      restored := ?_
      synced := fun committed => (recorded.synced committed).cons }
    rintro executing ⟨event, listed, prepares⟩
    rcases List.mem_cons.mp listed with rfl | listed
    · -- the rewrite itself is no announcement, since it keeps the executing phase
      simp [DiskChange.prepares, SpoolRecord.phase?, annotates.publication,
        started.consistent.tracks.publication, executing] at prepares
    · rw [annotates.state]
      exact recorded.restored executing ⟨event, listed, prepares⟩

/-- Every call keeps the invariant, whatever fails and wherever it is cut off. -/
theorem Invariant.call {after : Disk} {rest : AgentProgram (Except String Unit × SpoolRecord)}
    (invariant : ns.Invariant Unsuccessful True disk) (durable : disk.spool = some record)
    (call : PublicationCall)
    (ran : Program.Reaches (Disk.Step fresh faults) (call.computation record, disk)
      (rest, after)) :
    ns.Invariant Unsuccessful True after := by
  rcases invariant.started durable with ⟨state, layout, started⟩
  have holds : Holds (ns.alone Unsuccessful True fresh faults) call.computation
      (fun _ _ _ => True) record disk := by
    cases call with
    | commit =>
        exact holds_discard (commit_holds started started.consistent.pending (fun _ => trivial)
          fun _ => trivial)
    | recover =>
        exact (recover_holds started (fun _ => trivial) fun _ => trivial).imp
          fun _ _ _ _ => trivial
    | recoverBeforeControlPlane =>
        exact (recoverBeforeControlPlane_holds started fun _ => trivial).imp
          fun _ _ _ _ => trivial
  exact (Program.Safe.of_reaches (fun _ => rfl) holds invariant ran).2

/-- The invariant holds at every step of a run. -/
theorem Invariant.reached (initial : ns.Initial record start)
    (reached : Disk.Reached fresh faults start disk) : ns.Invariant Unsuccessful True disk := by
  induction reached with
  | start => exact initial.invariant
  | call call _ durable ran ih => exact ih.call durable call ran
  | rewrite _ durable annotates ih => exact ih.rewrite durable annotates

/-- In each arrangement each directory stands at exactly one of the paths. -/
theorem Shows.generations {fs : PathBuf → Option FileIdentity} {layout : Layout}
    (shows : ns.Shows fs layout) {identity : FileIdentity}
    (generation : identity = ns.candidate ∨ ns.published = some identity ∨
      ns.previous = some identity) :
    ∃! path, path ∈ ns.paths ∧ fs path = some identity := by
  have unique : ∀ place ∈ ns.paths, fs place = some identity →
      (∀ path ∈ ns.paths, path ≠ place → fs path ≠ some identity) →
      ∃! path, path ∈ ns.paths ∧ fs path = some identity := by
    intro place listed found other
    refine ⟨place, ⟨listed, found⟩, ?_⟩
    rintro path ⟨isPath, alsoFound⟩
    by_contra different
    exact other path isPath different alsoFound
  -- the arrangement says where the directory is; elsewhere stand the other two
  rcases generation with rfl | isPublished | isPrevious
  · have published := ns.candidateNew.1
    have previous := ns.candidateNew.2
    cases layout with
    | atRest =>
        refine unique ns.candidatePath (by simp [paths]) shows.1 ?_
        simp [paths, shows.2.1, shows.2.2.1, shows.2.2.2, published, previous]
    | rotated =>
        refine unique ns.candidatePath (by simp [paths]) shows.1 ?_
        simp [paths, shows.2.1, shows.2.2.1, shows.2.2.2, published, previous]
    | staged =>
        refine unique ns.exchangePath (by simp [paths]) shows.2.1 ?_
        simp [paths, shows.1, shows.2.2.1, shows.2.2.2, published, previous]
    | visible =>
        refine unique ns.publishedPath (by simp [paths]) shows.2.2.1 ?_
        simp [paths, shows.1, shows.2.1, shows.2.2.2, published, previous]
  · have candidate : ns.candidate ≠ identity := by
      rintro rfl
      exact ns.candidateNew.1 isPublished
    have previous := ns.generationsDiffer identity isPublished
    cases layout with
    | atRest =>
        refine unique ns.publishedPath (by simp [paths]) (shows.2.2.1.trans isPublished) ?_
        simp [paths, shows.1, shows.2.1, shows.2.2.2, candidate, previous]
    | rotated =>
        refine unique ns.publishedPath (by simp [paths]) (shows.2.2.1.trans isPublished) ?_
        simp [paths, shows.1, shows.2.1, shows.2.2.2, candidate, previous]
    | staged =>
        refine unique ns.publishedPath (by simp [paths]) (shows.2.2.1.trans isPublished) ?_
        simp [paths, shows.1, shows.2.1, shows.2.2.2, candidate, previous]
    | visible =>
        refine unique ns.exchangePath (by simp [paths]) (shows.2.1.trans isPublished) ?_
        simp [paths, shows.1, shows.2.2.1, shows.2.2.2, candidate, previous]
  · have candidate : ns.candidate ≠ identity := by
      rintro rfl
      exact ns.candidateNew.2 isPrevious
    have published : ns.published ≠ some identity :=
      fun isPublished => ns.generationsDiffer identity isPublished isPrevious
    cases layout with
    | atRest =>
        refine unique ns.exchangePath (by simp [paths]) (shows.2.1.trans isPrevious) ?_
        simp [paths, shows.1, shows.2.2.1, shows.2.2.2, candidate, published]
    | rotated =>
        refine unique ns.rotatedPath (by simp [paths]) (shows.2.2.2.trans isPrevious) ?_
        simp [paths, shows.1, shows.2.1, shows.2.2.1, candidate, published]
    | staged =>
        refine unique ns.rotatedPath (by simp [paths]) (shows.2.2.2.trans isPrevious) ?_
        simp [paths, shows.1, shows.2.1, shows.2.2.1, candidate, published]
    | visible =>
        refine unique ns.rotatedPath (by simp [paths]) (shows.2.2.2.trans isPrevious) ?_
        simp [paths, shows.1, shows.2.1, shows.2.2.1, candidate, published]

theorem Shows.publishedHolds {fs : PathBuf → Option FileIdentity} {layout : Layout}
    (shows : ns.Shows fs layout) :
    fs ns.publishedPath = if layout = .visible then some ns.candidate else ns.published := by
  cases layout <;> simp [shows.2.2.1]

/-- The invariant says that nothing is lost and that every change came in order. -/
theorem Invariant.conserved (invariant : ns.Invariant Unsuccessful True disk) : ns.Conserved disk := by
  rcases invariant with ⟨record, state, layout, durable, consistent, recorded, shows, chronicle⟩
  refine {
    generations := fun _ => shows.generations
    writeAhead := ?_
    publishedBy := chronicle.published
    publishedOnce := ?_
    publishedHolds := ?_
    succeeded := ?_ }
  · intro later event earlier split moves
    refine ⟨chronicle.prepared later event earlier split moves, chronicle.ahead event ?_ moves⟩
    simp [split]
  · rw [chronicle.once]
    split <;> omega
  · rw [chronicle.once, shows.publishedHolds]
    by_cases visible : layout = .visible <;> simp [visible]
  · intro stored isStored succeeded
    rw [durable, Option.some.injEq] at isStored
    subst isStored
    -- only a committed publication is recorded as a success
    have committed : state.phase = .committedPendingReport := by
      by_contra open_
      by_cases executing : state.phase = .executing
      · exact consistent.pending executing succeeded
      · exact consistent.unfinished executing open_ succeeded
    have permitted := consistent.permitted
    have visible : layout = .visible := by
      simpa [committed, PublicationPhase.permits] using permitted
    subst visible
    exact ⟨shows.2.2.1, recorded.synced committed⟩

end Namespace

namespace Sample

/-- The specification of an atomic attempt of the mirror `demo`. -/
def atomicSpec : ProcessRunSpec where
  runner := "process"
  program := "rsync"
  args := []
  cwd := none
  timeoutSeconds := 60
  mirrorRoot := "/m"
  targetDir := "/p/demo/attempts/R-1/root"
  publication := some {
    mirror := "demo"
    publicationRoot := "/p"
    publishedDir := "/m/demo"
    candidateDir := "/p/demo/attempts/R-1/root"
    basisDir := "/p/demo/attempts/R-1/basis"
    exchangeDir := "/p/demo/exchange"
    gcDir := "/p/demo/gc" }

/-- The record of that attempt once its process runs. -/
def running : SpoolRecord :=
  { SpoolRecord.acceptedWithIdentity "R" 1 "hash" none atomicSpec "2026-09-03T00:00:00Z" with
    state := .running
    sequence := 2 }

/-- A mirror that was published twice before: generations 1 and 2, with candidate 3. -/
def demo : Namespace where
  candidatePath := .ofText "/p/demo/attempts/R-1/root"
  exchangePath := .ofText "/p/demo/exchange"
  publishedPath := .ofText "/m/demo"
  gcPath := .ofText "/p/demo/gc"
  rotatedText := "/p/demo/gc/previous-R-1"
  candidate := ⟨1, 3⟩
  published := some ⟨1, 2⟩
  previous := some ⟨1, 1⟩
  pathsDiffer := by decide +kernel
  gcApart := by decide +kernel
  parents := by decide +kernel
  candidateNew := by decide
  generationsDiffer := by
    rintro identity isPublished isPrevious
    exact absurd (isPublished.trans isPrevious.symm) (by decide)
  previousStable := by decide

/-- Any new directory. -/
def fresh (_ : PathBuf) : FileIdentity := ⟨1, 99⟩

/-- The disk before the publication. -/
def disk : Disk where
  spool := some running
  fs path :=
    if path = demo.candidatePath then some demo.candidate
    else if path = demo.exchangePath then demo.previous
    else if path = demo.publishedPath then demo.published
    else if path = demo.rotatedPath then none
    else some ⟨1, 7⟩
  history := []

theorem initial : demo.Initial running disk where
  durable := rfl
  tracks := by
    refine ⟨.ofSpec (atomicSpec.publication.get rfl), ⟨rfl, rfl, rfl, rfl, rfl, ?_⟩, rfl⟩
    decide +kernel
  unsuccessful := by decide
  shows := by
    refine ⟨?_, ?_, ?_, ?_⟩ <;> decide +kernel
  history := rfl

/-- The disk when `commit` is cut off after some of its operations. -/
def cutOff (operations : ℕ) : Disk :=
  (Program.advance (Disk.answer fresh) operations
    (PublicationCall.commit.computation running, disk)).2

theorem reached_cutOff (faults : Prop) (operations : ℕ) :
    Disk.Reached fresh faults disk (cutOff operations) :=
  .call .commit .start rfl (Program.reaches_advance (Disk.step_answer fresh faults) _ _)

end Sample

namespace Namespace

variable {ns : Namespace} {fresh : PathBuf → FileIdentity} {record : SpoolRecord}
  {start disk : Disk}

/--
Namespace conservation and write-ahead order. In every state of every run of
`commit`, `recover` and `recover_before_control_plane`, with a crash or a fault
at any operation, the three directories stand at exactly one of the four paths
each, moves follow their announcement, the published path changes at most once
and a recorded success is visible and synced.
-/
theorem namespace_conserved (initial : ns.Initial record start)
    (reached : Disk.Reached fresh True start disk) : ns.Conserved disk :=
  (Invariant.reached initial reached).conserved

/-- A `commit` cut off right after the visibility rename. -/
theorem namespace_conserved_visible :
    (Sample.cutOff 25).fs Sample.demo.publishedPath = some Sample.demo.candidate ∧
      Sample.demo.Conserved (Sample.cutOff 25) :=
  ⟨by decide +kernel, namespace_conserved Sample.initial (Sample.reached_cutOff True 25)⟩

end Namespace

end LzuMirror
