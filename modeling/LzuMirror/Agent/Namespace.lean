import LzuMirror.Agent.Disk

/-!
# The namespace of one publication

A publication moves three directories between four paths: the candidate, the
published generation and the stable previous generation. `Layout` names the
four arrangements that occur, and `PublicationPhase.permits` says with which
durable phases each of them may be found. `Namespace.Invariant` ties the disk
to the durable record: the record describes the namespace, the arrangement is
one its phase permits, and the history obeys the write-ahead order.

`Namespace.Working` is the situation in which the publication functions work:
the caller's copy is the durable record. It is kept by every move that leads to
an arrangement the phase permits.
-/

namespace LzuMirror

/-- The paths and directories of a publication, as they are before it starts. -/
structure Namespace where
  candidatePath : PathBuf
  exchangePath : PathBuf
  publishedPath : PathBuf
  gcPath : PathBuf
  rotatedText : String
  candidate : FileIdentity
  published : Option FileIdentity
  previous : Option FileIdentity
  pathsDiffer : [candidatePath, exchangePath, publishedPath, .ofText rotatedText].Nodup
  gcApart : ∀ path ∈ [candidatePath, exchangePath, publishedPath, .ofText rotatedText],
    ¬path.isPrefixOf gcPath
  parents : candidatePath.parent ≠ none ∧ exchangePath.parent ≠ none ∧
    publishedPath.parent ≠ none
  candidateNew : published ≠ some candidate ∧ previous ≠ some candidate
  generationsDiffer : ∀ identity, published = some identity → previous ≠ some identity
  previousStable : previous ≠ none → published ≠ none

/-- Where the three directories are. -/
inductive Layout where
  /-- Nothing has moved. -/
  | atRest
  /-- The previous generation has left the exchange slot. -/
  | rotated
  /-- The candidate stands in the exchange slot. -/
  | staged
  /-- The candidate is published and the old generation stands in the slot. -/
  | visible
  deriving DecidableEq, Repr

/-- The arrangements a durable phase may be found with. -/
def PublicationPhase.permits : PublicationPhase → Layout → Bool
  | .executing, layout => layout = .atRest
  | .preparingExchange, layout | .preVisibilityRecovery, layout => layout ≠ .visible
  | .readyToCommit, layout => layout = .staged ∨ layout = .visible
  | .visiblePendingDurability, layout | .committedPendingReport, layout => layout = .visible
  | .abandonedFenced, _ => false

/-- The states in which an attempt ends whose publication is undone. -/
def AttemptState.Undoes (result : AttemptState) : Prop := result = .failed ∨ result = .cancelled

/-- The phases in which directories are moved. -/
def PublicationPhase.isMoving : PublicationPhase → Bool
  | .preparingExchange | .readyToCommit | .preVisibilityRecovery => true
  | _ => false

namespace DiskChange

/-- A change of the namespace, as opposed to one of the spool or a sync. -/
def moves : DiskChange → Bool
  | .renamed _ _ | .exchanged _ _ => true
  | .wrote _ | .retired | .synced _ => false

/-- The announcement of a publication. -/
def prepares : DiskChange → Bool
  | .wrote record => record.phase? = some .preparingExchange
  | .renamed _ _ | .exchanged _ _ | .retired | .synced _ => false

/-- A move from or to a path. -/
def touches (path : PathBuf) : DiskChange → Bool
  | .renamed source destination => source = path ∨ destination = path
  | .exchanged left right => left = path ∨ right = path
  | .wrote _ | .retired | .synced _ => false

end DiskChange

/-- The phase that was durable when an event happened. -/
def DiskEvent.phase? (event : DiskEvent) : Option PublicationPhase :=
  event.durable.bind (·.phase?)

/-- Some record in phase `PreparingExchange` has been written. -/
def Prepared (history : List DiskEvent) : Prop :=
  ∃ event ∈ history, event.change.prepares

instance (history : List DiskEvent) : Decidable (Prepared history) :=
  inferInstanceAs (Decidable (∃ event ∈ history, event.change.prepares))

theorem Prepared.cons {history : List DiskEvent} {event : DiskEvent} (prepared : Prepared history) :
    Prepared (event :: history) := by
  rcases prepared with ⟨written, listed, prepares⟩
  exact ⟨written, List.mem_cons_of_mem event listed, prepares⟩

theorem Prepared.append {history later : List DiskEvent} (prepared : Prepared history) :
    Prepared (later ++ history) := by
  rcases prepared with ⟨written, listed, prepares⟩
  exact ⟨written, List.mem_append_right later listed, prepares⟩

namespace Namespace

variable (ns : Namespace)

def rotatedPath : PathBuf := .ofText ns.rotatedText

/-- The four paths. -/
def paths : List PathBuf := [ns.candidatePath, ns.exchangePath, ns.publishedPath, ns.rotatedPath]

/-- What stands at the four paths in an arrangement. -/
def Shows (fs : PathBuf → Option FileIdentity) : Layout → Prop
  | .atRest => fs ns.candidatePath = some ns.candidate ∧ fs ns.exchangePath = ns.previous ∧
      fs ns.publishedPath = ns.published ∧ fs ns.rotatedPath = none
  | .rotated => fs ns.candidatePath = some ns.candidate ∧ fs ns.exchangePath = none ∧
      fs ns.publishedPath = ns.published ∧ fs ns.rotatedPath = ns.previous
  | .staged => fs ns.candidatePath = none ∧ fs ns.exchangePath = some ns.candidate ∧
      fs ns.publishedPath = ns.published ∧ fs ns.rotatedPath = ns.previous
  | .visible => fs ns.candidatePath = none ∧ fs ns.exchangePath = ns.published ∧
      fs ns.publishedPath = some ns.candidate ∧ fs ns.rotatedPath = ns.previous

/-- The publication state names the paths of the namespace. -/
structure Tracks (record : SpoolRecord) (state : PublicationState) : Prop where
  publication : record.publication = some state
  candidatePath : state.candidate = ns.candidatePath
  exchangePath : state.exchange = ns.exchangePath
  publishedPath : state.published = ns.publishedPath
  gcPath : state.gc = ns.gcPath
  rotatedText : LzuMirror.rotatedPath state.gcDir record.runId record.attempt = ns.rotatedText

/-- The publication state holds the identities of the namespace. -/
structure Identifies (state : PublicationState) : Prop where
  candidate : state.candidateIdentity = some ns.candidate
  published : state.publishedIdentity = ns.published
  previous : state.stablePreviousIdentity = ns.previous
  rotated : state.rotatedPreviousPath = ns.previous.map fun _ => ns.rotatedText

/-- The parents of the published path and of the exchange slot were synced after the move. -/
def SyncedAfterMove (history : List DiskEvent) : Prop :=
  ∃ later move earlier, history = later ++ move :: earlier ∧
    move.change.touches ns.publishedPath ∧
    ∀ directory, ns.publishedPath.parent = some directory ∨
      ns.exchangePath.parent = some directory →
        ∃ event ∈ later, event.change = .synced directory

/-- The rename that makes the candidate visible. -/
def IsVisibilityRename (change : DiskChange) : Prop :=
  change = .exchanged ns.exchangePath ns.publishedPath ∨
    change = .renamed ns.exchangePath ns.publishedPath

/-- The order of the changes made so far. -/
structure Chronicle (layout : Layout) (history : List DiskEvent) : Prop where
  ahead : ∀ event ∈ history, event.change.moves →
    ∃ phase, event.phase? = some phase ∧ phase.isMoving
  prepared : ∀ later event earlier, history = later ++ event :: earlier →
    event.change.moves → Prepared earlier
  published : ∀ event ∈ history, event.change.touches ns.publishedPath →
    event.phase? = some .readyToCommit ∧ ns.IsVisibilityRename event.change
  once : (history.countP fun event => event.change.touches ns.publishedPath) =
    if layout = .visible then 1 else 0

variable (unfinished : AttemptState → Prop) (trouble : Prop)

/--
A durable record that fits the arrangement on disk. `unfinished` holds of the
attempt states with which a publication may be under way, and `trouble` when a
publication may be undone or stay pending.
-/
structure Durable (record : SpoolRecord) (state : PublicationState) (layout : Layout) : Prop where
  tracks : ns.Tracks record state
  permitted : state.phase.permits layout
  identifies : state.phase ≠ .executing → ns.Identifies state
  unfinished : state.phase ≠ .executing → state.phase ≠ .committedPendingReport →
    unfinished record.state
  pending : state.phase = .executing → record.state ≠ .succeeded
  succeeded : state.phase = .committedPendingReport → record.state = .succeeded
  intent : state.phase = .preVisibilityRecovery →
    (state.preVisibilityTerminalState.getD .failed).Undoes
  troubled : state.phase = .preVisibilityRecovery ∨ state.phase = .visiblePendingDurability →
    trouble

/-- What the durable record says about the history. -/
structure Recorded (record : SpoolRecord) (state : PublicationState)
    (history : List DiskEvent) : Prop where
  prepared : state.phase ≠ .executing → Prepared history
  restored : state.phase = .executing → Prepared history → record.state.Undoes
  synced : state.phase = .committedPendingReport → ns.SyncedAfterMove history

/-- The disk of a publication, at rest or under way. -/
def Invariant (disk : Disk) : Prop :=
  ∃ record state layout, disk.spool = some record ∧ ns.Durable unfinished trouble record state layout ∧
    ns.Recorded record state disk.history ∧ ns.Shows disk.fs layout ∧
    ns.Chronicle layout disk.history

/-- The caller's copy has what a publication under way needs. -/
structure Pending (record : SpoolRecord) (state : PublicationState) (layout : Layout)
    (disk : Disk) : Prop where
  tracks : ns.Tracks record state
  identifies : ns.Identifies state
  unfinished : unfinished record.state
  prepared : Prepared disk.history
  shows : ns.Shows disk.fs layout
  chronicle : ns.Chronicle layout disk.history

/-- The caller's copy is the durable record of a publication under way. -/
structure Working (record : SpoolRecord) (state : PublicationState) (layout : Layout)
    (disk : Disk) : Prop extends ns.Pending unfinished record state layout disk where
  durable : disk.spool = some record
  permitted : state.phase.permits layout
  moving : state.phase ≠ .executing ∧ state.phase ≠ .committedPendingReport
  intent : state.phase = .preVisibilityRecovery →
    (state.preVisibilityTerminalState.getD .failed).Undoes
  troubled : state.phase = .preVisibilityRecovery ∨ state.phase = .visiblePendingDurability →
    trouble

section Paths

theorem candidate_ne_exchange : ns.candidatePath ≠ ns.exchangePath := by
  have differ := ns.pathsDiffer
  simp only [List.nodup_cons, List.mem_cons, not_or] at differ
  exact differ.1.1

theorem candidate_ne_published : ns.candidatePath ≠ ns.publishedPath := by
  have differ := ns.pathsDiffer
  simp only [List.nodup_cons, List.mem_cons, not_or] at differ
  exact differ.1.2.1

theorem candidate_ne_rotated : ns.candidatePath ≠ ns.rotatedPath := by
  have differ := ns.pathsDiffer
  simp only [List.nodup_cons, List.mem_cons, not_or] at differ
  exact differ.1.2.2.1

theorem exchange_ne_published : ns.exchangePath ≠ ns.publishedPath := by
  have differ := ns.pathsDiffer
  simp only [List.nodup_cons, List.mem_cons, not_or] at differ
  exact differ.2.1.1

theorem exchange_ne_rotated : ns.exchangePath ≠ ns.rotatedPath := by
  have differ := ns.pathsDiffer
  simp only [List.nodup_cons, List.mem_cons, not_or] at differ
  exact differ.2.1.2.1

theorem published_ne_rotated : ns.publishedPath ≠ ns.rotatedPath := by
  have differ := ns.pathsDiffer
  simp only [List.nodup_cons, List.mem_cons, not_or] at differ
  exact differ.2.2.1.1

end Paths

section Moves

variable {ns} {disk : Disk}

/-- Without a previous generation the first two arrangements are the same. -/
theorem Shows.atRest_iff_rotated {fs : PathBuf → Option FileIdentity}
    (first : ns.previous = none) : ns.Shows fs .atRest ↔ ns.Shows fs .rotated := by
  simp only [Shows, first]

theorem Shows.rotate (shows : ns.Shows disk.fs .atRest) :
    ns.Shows (disk.rename ns.exchangePath ns.rotatedPath).fs .rotated := by
  rcases shows with ⟨candidate, exchange, published, _⟩
  simp [Shows, Disk.rename, ns.candidate_ne_exchange,
    ns.candidate_ne_rotated, ns.exchange_ne_published.symm, ns.published_ne_rotated,
    ns.exchange_ne_rotated.symm, candidate, exchange, published]

theorem Shows.stage (shows : ns.Shows disk.fs .rotated) :
    ns.Shows (disk.rename ns.candidatePath ns.exchangePath).fs .staged := by
  rcases shows with ⟨candidate, _, published, rotated⟩
  simp [Shows, Disk.rename, ns.candidate_ne_exchange.symm,
    ns.candidate_ne_published.symm, ns.candidate_ne_rotated.symm,
    ns.exchange_ne_published.symm, ns.exchange_ne_rotated.symm, candidate, published, rotated]

theorem Shows.unstage (shows : ns.Shows disk.fs .staged) :
    ns.Shows (disk.rename ns.exchangePath ns.candidatePath).fs .rotated := by
  rcases shows with ⟨_, exchange, published, rotated⟩
  simp [Shows, Disk.rename, ns.candidate_ne_exchange,
    ns.candidate_ne_published.symm, ns.candidate_ne_rotated.symm,
    ns.exchange_ne_published.symm, ns.exchange_ne_rotated.symm, exchange, published, rotated]

theorem Shows.unrotate (shows : ns.Shows disk.fs .rotated) :
    ns.Shows (disk.rename ns.rotatedPath ns.exchangePath).fs .atRest := by
  rcases shows with ⟨candidate, _, published, rotated⟩
  simp [Shows, Disk.rename, ns.candidate_ne_exchange,
    ns.candidate_ne_rotated, ns.exchange_ne_published.symm, ns.published_ne_rotated,
    ns.exchange_ne_rotated, candidate, published, rotated]

theorem Shows.publish (shows : ns.Shows disk.fs .staged) :
    ns.Shows (disk.exchange ns.exchangePath ns.publishedPath).fs .visible := by
  rcases shows with ⟨candidate, exchange, published, rotated⟩
  simp [Shows, Disk.exchange, ns.candidate_ne_exchange,
    ns.candidate_ne_published, ns.exchange_ne_published, ns.exchange_ne_rotated.symm,
    ns.published_ne_rotated.symm, candidate, exchange, published, rotated]

theorem Shows.publishFirst (first : ns.published = none) (shows : ns.Shows disk.fs .staged) :
    ns.Shows (disk.rename ns.exchangePath ns.publishedPath).fs .visible := by
  rcases shows with ⟨candidate, exchange, _, rotated⟩
  simp [Shows, Disk.rename, ns.candidate_ne_exchange,
    ns.candidate_ne_published, ns.exchange_ne_published.symm, ns.exchange_ne_rotated.symm,
    ns.published_ne_rotated.symm, candidate, exchange, rotated, first]

/-- Creating the garbage directory does not change any of the four paths. -/
theorem Shows.createAll {fresh : PathBuf → FileIdentity} {layout : Layout}
    (shows : ns.Shows disk.fs layout) :
    ns.Shows (disk.createAll fresh ns.gcPath).fs layout := by
  have kept : ∀ path ∈ ns.paths, (disk.createAll fresh ns.gcPath).fs path = disk.fs path := by
    intro path listed
    have apart := ns.gcApart path listed
    simp only [Bool.not_eq_true] at apart
    simp only [Disk.createAll, apart, Bool.and_false, Bool.false_eq_true, if_false]
  have candidate := kept ns.candidatePath (by simp [paths])
  have exchange := kept ns.exchangePath (by simp [paths])
  have published := kept ns.publishedPath (by simp [paths])
  have rotated := kept ns.rotatedPath (by simp [paths])
  cases layout <;> simpa only [Shows, candidate, exchange, published, rotated] using shows

end Moves

section History

variable {ns} {layout : Layout} {history : List DiskEvent}

/-- An event that moves nothing leaves the order of the moves. -/
theorem Chronicle.unmoved (chronicle : ns.Chronicle layout history) {event : DiskEvent}
    (still : event.change.moves = false) : ns.Chronicle layout (event :: history) where
  ahead := by
    intro entry listed moves
    rcases List.mem_cons.mp listed with rfl | listed
    · simp [still] at moves
    · exact chronicle.ahead entry listed moves
  prepared := by
    intro later entry earlier split moves
    cases later with
    | nil =>
        rcases List.cons_eq_cons.mp split with ⟨rfl, rfl⟩
        simp [still] at moves
    | cons head later =>
        exact chronicle.prepared later entry earlier (List.cons_eq_cons.mp split).2 moves
  published := by
    intro entry listed touches
    rcases List.mem_cons.mp listed with rfl | listed
    · revert still touches
      cases entry.change <;> simp [DiskChange.moves, DiskChange.touches]
    · exact chronicle.published entry listed touches
  once := by
    have untouched : event.change.touches ns.publishedPath = false := by
      revert still
      cases event.change <;> simp [DiskChange.moves, DiskChange.touches]
    simpa [List.countP_cons, untouched] using chronicle.once

/-- A move under a moving phase; it touches the published path exactly when it publishes. -/
theorem Chronicle.moved (chronicle : ns.Chronicle layout history) (prepared : Prepared history)
    {event : DiskEvent} {phase : PublicationPhase} {next : Layout}
    (durable : event.phase? = some phase) (moving : phase.isMoving)
    (before : layout ≠ .visible)
    (touches : event.change.touches ns.publishedPath = decide (next = .visible))
    (publishes : next = .visible →
      phase = .readyToCommit ∧ ns.IsVisibilityRename event.change) :
    ns.Chronicle next (event :: history) where
  ahead := by
    intro entry listed moves
    rcases List.mem_cons.mp listed with rfl | listed
    · exact ⟨phase, durable, moving⟩
    · exact chronicle.ahead entry listed moves
  prepared := by
    intro later entry earlier split moves
    cases later with
    | nil =>
        rcases List.cons_eq_cons.mp split with ⟨_, rfl⟩
        exact prepared
    | cons head later =>
        exact chronicle.prepared later entry earlier (List.cons_eq_cons.mp split).2 moves
  published := by
    intro entry listed touched
    rcases List.mem_cons.mp listed with rfl | listed
    · rw [touches, decide_eq_true_eq] at touched
      rw [durable, (publishes touched).1]
      exact ⟨rfl, (publishes touched).2⟩
    · exact chronicle.published entry listed touched
  once := by
    have once := chronicle.once
    simp only [before, if_false] at once
    simp [List.countP_cons, once, touches]

end History

section Working

variable {ns} {unfinished : AttemptState → Prop} {trouble : Prop} {record : SpoolRecord}
  {state : PublicationState} {layout : Layout} {disk : Disk}

/-- The record of a publication under way is consistent with the disk. -/
theorem Working.invariant (working : ns.Working unfinished trouble record state layout disk) :
    ns.Invariant unfinished trouble disk := by
  refine ⟨record, state, layout, working.durable, ?_, ?_, working.shows, working.chronicle⟩
  · exact {
      tracks := working.tracks
      permitted := working.permitted
      identifies := fun _ => working.identifies
      unfinished := fun _ _ => working.unfinished
      pending := fun executing => absurd executing working.moving.1
      succeeded := fun committed => absurd committed working.moving.2
      intent := working.intent
      troubled := working.troubled }
  · exact {
      prepared := fun _ => working.prepared
      restored := fun executing => absurd executing working.moving.1
      synced := fun committed => absurd committed working.moving.2 }

/-- A write of a record that fits the arrangement. -/
theorem Pending.written (pending : ns.Pending unfinished record state layout disk)
    {next : SpoolRecord} {nextState : PublicationState} (tracks : ns.Tracks next nextState)
    (identifies : ns.Identifies nextState) (isUnfinished : unfinished next.state)
    (permitted : nextState.phase.permits layout)
    (moving : nextState.phase ≠ .executing ∧ nextState.phase ≠ .committedPendingReport)
    (intent : nextState.phase = .preVisibilityRecovery →
      (nextState.preVisibilityTerminalState.getD .failed).Undoes)
    (troubled : nextState.phase = .preVisibilityRecovery ∨
      nextState.phase = .visiblePendingDurability → trouble) :
    ns.Working unfinished trouble next nextState layout (disk.write next) where
  tracks
  identifies
  unfinished := isUnfinished
  prepared := pending.prepared.cons
  shows := pending.shows
  chronicle := pending.chronicle.unmoved rfl
  durable := rfl
  permitted
  moving
  intent
  troubled

/-- A move to an arrangement that the phase permits. -/
theorem Working.moved (working : ns.Working unfinished trouble record state layout disk)
    {change : DiskChange} {fs : PathBuf → Option FileIdentity} {next : Layout}
    (shows : ns.Shows fs next) (permitted : state.phase.permits next)
    (moving : state.phase.isMoving) (before : layout ≠ .visible)
    (touches : change.touches ns.publishedPath = decide (next = .visible))
    (publishes : next = .visible →
      state.phase = .readyToCommit ∧ ns.IsVisibilityRename change) :
    ns.Working unfinished trouble record state next ⟨disk.spool, fs, disk.log change⟩ where
  tracks := working.tracks
  identifies := working.identifies
  unfinished := working.unfinished
  prepared := working.prepared.cons
  shows
  chronicle := working.chronicle.moved working.prepared
    (by simp [DiskEvent.phase?, working.durable, SpoolRecord.phase?, working.tracks.publication])
    moving before touches publishes
  durable := working.durable
  permitted
  moving := working.moving
  intent := working.intent
  troubled := working.troubled

theorem Chronicle.syncs (chronicle : ns.Chronicle layout disk.history)
    (directories : List PathBuf) : ns.Chronicle layout (disk.syncs directories).history := by
  induction directories generalizing disk with
  | nil => exact chronicle
  | cons path rest ih => exact @ih (disk.sync path) (chronicle.unmoved rfl)

theorem Pending.syncs (pending : ns.Pending unfinished record state layout disk)
    (directories : List PathBuf) :
    ns.Pending unfinished record state layout (disk.syncs directories) where
  tracks := pending.tracks
  identifies := pending.identifies
  unfinished := pending.unfinished
  prepared := by
    rw [Disk.syncs_history]
    exact pending.prepared.append
  shows := by
    rw [Disk.syncs_fs]
    exact pending.shows
  chronicle := pending.chronicle.syncs directories

theorem Working.syncs (working : ns.Working unfinished trouble record state layout disk)
    (directories : List PathBuf) :
    ns.Working unfinished trouble record state layout (disk.syncs directories) where
  toPending := working.toPending.syncs directories
  durable := by
    rw [Disk.syncs_spool]
    exact working.durable
  permitted := working.permitted
  moving := working.moving
  intent := working.intent
  troubled := working.troubled

theorem Working.createAll {fresh : PathBuf → FileIdentity}
    (working : ns.Working unfinished trouble record state layout disk) :
    ns.Working unfinished trouble record state layout (disk.createAll fresh ns.gcPath) where
  tracks := working.tracks
  identifies := working.identifies
  unfinished := working.unfinished
  prepared := working.prepared
  shows := working.shows.createAll
  chronicle := working.chronicle
  durable := working.durable
  permitted := working.permitted
  moving := working.moving
  intent := working.intent
  troubled := working.troubled

/-- The publication state may change in its other fields. -/
theorem Tracks.withPublication (tracks : ns.Tracks record state) {next : PublicationState}
    (candidateDir : next.candidateDir = state.candidateDir)
    (exchangeDir : next.exchangeDir = state.exchangeDir)
    (publishedDir : next.publishedDir = state.publishedDir) (gcDir : next.gcDir = state.gcDir) :
    ns.Tracks (record.withPublication next) next where
  publication := rfl
  candidatePath := by
    rw [← tracks.candidatePath, PublicationState.candidate, candidateDir]
    rfl
  exchangePath := by
    rw [← tracks.exchangePath, PublicationState.exchange, exchangeDir]
    rfl
  publishedPath := by
    rw [← tracks.publishedPath, PublicationState.published, publishedDir]
    rfl
  gcPath := by
    rw [← tracks.gcPath, PublicationState.gc, gcDir]
    rfl
  rotatedText := by
    rw [gcDir]
    exact tracks.rotatedText

end Working

end Namespace

end LzuMirror
