import LzuMirror.Agent.Supervision

/-!
# Tasks that heed a cancellation

A cancellation is durable when a record with the flag is written; it comes in
time when the published path has not been touched before. From then on no task
may touch the path or write a record without the flag. `Heeds` is the invariant
that all tasks keep, whatever the file system answers: it speaks about the
history of the disk and about the durable flag only, so the footprints of the
publication functions are all that is needed of them.

A task that works on a copy minds a cancellation when the copy has the flag or
nothing has been cancelled in time.
-/

namespace LzuMirror

/-- A record with the cancellation flag is written. -/
def DiskChange.cancels : DiskChange → Bool
  | .wrote record => record.cancelRequested
  | .renamed _ _ | .exchanged _ _ | .retired | .synced _ => false

namespace Namespace

open Agent

variable (ns : Namespace)

/-- The attempt was cancelled durably before its published path was touched. -/
def Cancelled (history : List DiskEvent) : Prop :=
  ∃ later event earlier, history = later ++ event :: earlier ∧ event.change.cancels = true ∧
    ∀ entry ∈ earlier, entry.change.touches ns.publishedPath = false

/--
After a cancellation in time the published path is not touched and every record
that is written has the flag.
-/
def CancellationWins (history : List DiskEvent) : Prop :=
  ∀ later event earlier, history = later ++ event :: earlier → event.change.cancels = true →
    (∀ entry ∈ earlier, entry.change.touches ns.publishedPath = false) →
      ∀ entry ∈ later, entry.change.touches ns.publishedPath = false ∧
        ∀ record, entry.change = .wrote record → record.cancelRequested = true

/-- A record that was written: a tombstone, or one of the attempt in its namespace. -/
def Named (record : SpoolRecord) : Prop := record.publication = none ∨ ns.Owns record record

/-- What all tasks keep. -/
structure Heeds (disk : Disk) : Prop where
  named : ∀ record, Wrote record disk.history → ns.Named record
  stored : ∀ record, disk.spool = some record → Wrote record disk.history
  present : Untouched disk.history → disk.spool ≠ none
  flagged : ns.Cancelled disk.history → ∀ record, disk.spool = some record →
    record.cancelRequested = true
  wins : ns.CancellationWins disk.history

/-- A copy with the flag, or nothing to mind. -/
def Minds (record : SpoolRecord) (disk : Disk) : Prop :=
  ns.Cancelled disk.history → record.cancelRequested = true

variable {ns} {record : SpoolRecord} {event : DiskEvent} {history : List DiskEvent}

theorem cancelled_cons_iff :
    ns.Cancelled (event :: history) ↔ ns.Cancelled history ∨ event.change.cancels = true ∧
      ∀ entry ∈ history, entry.change.touches ns.publishedPath = false := by
  constructor
  · rintro ⟨later, cause, earlier, split, cancels, untouched⟩
    cases later with
    | nil =>
        rcases List.cons_eq_cons.mp split with ⟨rfl, rfl⟩
        exact .inr ⟨cancels, untouched⟩
    | cons head later =>
        exact .inl ⟨later, cause, earlier, (List.cons_eq_cons.mp split).2, cancels, untouched⟩
  · rintro (⟨later, cause, earlier, rfl, cancels, untouched⟩ | ⟨cancels, untouched⟩)
    · exact ⟨event :: later, cause, earlier, rfl, cancels, untouched⟩
    · exact ⟨[], event, history, rfl, cancels, untouched⟩

theorem CancellationWins.cons (wins : ns.CancellationWins history)
    (respects : ns.Cancelled history → event.change.touches ns.publishedPath = false ∧
      ∀ record, event.change = .wrote record → record.cancelRequested = true) :
    ns.CancellationWins (event :: history) := by
  intro later cause earlier split cancels untouched entry listed
  cases later with
  | nil => cases listed
  | cons head later =>
      rcases List.cons_eq_cons.mp split with ⟨rfl, rfl⟩
      rcases List.mem_cons.mp listed with rfl | listed
      · exact respects ⟨later, cause, earlier, rfl, cancels, untouched⟩
      · exact wins later cause earlier rfl cancels untouched entry listed

theorem Owns.self {origin : SpoolRecord} (owns : ns.Owns origin record) :
    ns.Owns record record := by
  rcases owns.publication with ⟨state, stored, names⟩
  have rotatedText := names.rotatedText
  rw [← owns.runId, ← owns.attempt] at rotatedText
  exact ⟨rfl, rfl, rfl, rfl, state, stored, { names with rotatedText }⟩

/-- Names depend on the run and the attempt only. -/
theorem Named.congr {next : SpoolRecord} (named : ns.Named record)
    (runId : next.runId = record.runId) (attempt : next.attempt = record.attempt)
    (publication : next.publication = record.publication) : ns.Named next := by
  rcases named with missing | owns
  · exact .inl (publication.trans missing)
  · rcases owns.publication with ⟨state, stored, names⟩
    have rotatedText := names.rotatedText
    rw [← runId, ← attempt] at rotatedText
    exact .inr ⟨rfl, rfl, rfl, rfl, state, publication.trans stored, { names with rotatedText }⟩

section Changes

variable {disk after : Disk}

/-- Writing a copy that minds the cancellation. -/
theorem Heeds.write (heeds : ns.Heeds disk) (named : ns.Named record)
    (minds : ns.Minds record disk) : ns.Heeds (disk.write record) where
  named next wrote := by
    rcases wrote_write_iff.mp wrote with rfl | earlier
    · exact named
    · exact heeds.named next earlier
  stored next durable := by
    cases durable
    exact wrote_write_iff.mpr (.inl rfl)
  present _ := Option.some_ne_none record
  flagged cancelled next durable := by
    cases durable
    rcases cancelled_cons_iff.mp cancelled with earlier | ⟨cancels, _⟩
    · exact minds earlier
    · exact cancels
  wins := by
    refine heeds.wins.cons fun cancelled => ⟨rfl, ?_⟩
    rintro next ⟨⟩
    exact minds cancelled

theorem Minds.write (minds : ns.Minds record disk) : ns.Minds record (disk.write record) := by
  intro cancelled
  rcases cancelled_cons_iff.mp cancelled with earlier | ⟨cancels, _⟩
  · exact minds earlier
  · exact cancels

/-- A change that neither writes nor retires, and touches the published path only when it may. -/
theorem Heeds.change (heeds : ns.Heeds disk) {change : DiskChange}
    (same : disk.SameRecords after) (logged : after.history = disk.log change)
    (unwritten : ∀ record, change ≠ .wrote record)
    (respects : ns.Cancelled disk.history → change.touches ns.publishedPath = false) :
    ns.Heeds after ∧ (ns.Cancelled after.history ↔ ns.Cancelled disk.history) := by
  have uncancelling : change.cancels = false := by
    cases change with
    | wrote record => exact absurd rfl (unwritten record)
    | _ => rfl
  have cancelled : ns.Cancelled after.history ↔ ns.Cancelled disk.history := by
    rw [logged, Disk.log, cancelled_cons_iff]
    simp [uncancelling]
  refine ⟨⟨?_, ?_, ?_, ?_, ?_⟩, cancelled⟩
  · exact fun record wrote => heeds.named record ((same.wrote record).mp wrote)
  · intro record durable
    exact (same.wrote record).mpr (heeds.stored record (same.spool ▸ durable))
  · intro untouched
    rw [same.spool]
    exact heeds.present (same.untouched_iff.mp untouched)
  · rw [cancelled, same.spool]
    exact heeds.flagged
  · rw [logged]
    exact heeds.wins.cons fun earlier =>
      ⟨respects earlier, fun record wrote => absurd wrote (unwritten record)⟩

/-- The file was retired by a task that had it reported. -/
theorem Heeds.retired (heeds : ns.Heeds disk) (retires : disk.Retires after) :
    ns.Heeds after ∧ (ns.Cancelled after.history ↔ ns.Cancelled disk.history) := by
  rcases retires.history with ⟨events, history, retired⟩
  have kept : ∀ events : List DiskEvent, (∀ event ∈ events, event.change = .retired) →
      (ns.Cancelled (events ++ disk.history) ↔ ns.Cancelled disk.history) ∧
        ns.CancellationWins (events ++ disk.history) := by
    intro events retired
    induction events with
    | nil => exact ⟨Iff.rfl, heeds.wins⟩
    | cons event rest ih =>
        have change := retired event List.mem_cons_self
        rcases ih fun entry listed => retired entry (List.mem_cons_of_mem _ listed) with
          ⟨cancelled, wins⟩
        rw [List.cons_append, cancelled_cons_iff, change, cancelled]
        refine ⟨by simp [DiskChange.cancels], wins.cons fun _ => ?_⟩
        rw [change]
        exact ⟨rfl, by rintro _ ⟨⟩⟩
  rcases kept events retired with ⟨cancelled, wins⟩
  rw [← history] at cancelled wins
  refine ⟨⟨?_, ?_, ?_, ?_, wins⟩, cancelled⟩
  · exact fun record wrote => heeds.named record (retires.wrote_iff.mp wrote)
  · intro record durable
    rcases retires.spool with same | ⟨gone, _⟩
    · exact retires.wrote_iff.mpr (heeds.stored record (same ▸ durable))
    · rw [gone] at durable
      cases durable
  · intro untouched
    have early := retires.untouched_iff.mp untouched
    rw [retires.still early.not_reported]
    exact heeds.present early
  · intro isCancelled record durable
    rcases retires.spool with same | ⟨gone, _⟩
    · exact heeds.flagged (cancelled.mp isCancelled) record (same ▸ durable)
    · rw [gone] at durable
      cases durable

theorem Minds.retired (minds : ns.Minds record disk) (heeds : ns.Heeds disk)
    (retires : disk.Retires after) : ns.Minds record after :=
  fun cancelled => minds ((heeds.retired retires).2.mp cancelled)

/-- The durable record has the flag when there is anything to mind. -/
theorem Heeds.minds (heeds : ns.Heeds disk) (durable : disk.spool = some record) :
    ns.Minds record disk :=
  fun cancelled => heeds.flagged cancelled record durable

end Changes

/-- All tasks may reconcile under the invariant. -/
theorem heeding_discipline (ns : Namespace) :
    Discipline (fun world => ns.Heeds world.disk) ns.Heeds where
  intro _ heeds := heeds
  elim _ heeds _ := heeds
  wrote _ record heeds durable := heeds.stored record durable
  locks _ _ _ _ heeds := heeds
  retire _ heeds reported := (heeds.retired (.retire reported)).1
  retires _ _ heeds retires := (heeds.retired retires).1
  rewrite before after latest sequence offset complete heeds durable retires _ := by
    refine (heeds.retired retires).1.write ?_ ?_
    · exact (heeds.named latest (heeds.stored latest durable)).congr rfl rfl rfl
    · exact (heeds.minds durable).retired heeds retires

section Careful

variable {fresh : PathBuf → FileIdentity} {condition : Disk → SpoolRecord → Prop}
  {task : AgentTask} {origin : SpoolRecord}

/-- A task that holds the lock with a copy that minds the cancellation. -/
structure Minding (ns : Namespace) (task : AgentTask) (origin : SpoolRecord) (world : World) :
    Prop where
  held : world.holder = some task
  heeds : ns.Heeds world.disk
  minds : ns.Minds origin world.disk
  seen : Seen origin world.disk.history
  staged : task ≠ .executor → ¬Untouched world.disk.history

theorem Minding.stable {before after : World} (minding : ns.Minding task origin before)
    (relied : TaskRely task before after) : ns.Minding task origin after := by
  rcases relied.holding minding.held with ⟨still, retires⟩
  exact ⟨still, (minding.heeds.retired retires).1, minding.minds.retired minding.heeds retires,
    minding.seen.mono relied.grows, fun other untouched => minding.staged other (retires.untouched_iff.mp untouched)⟩

/-- What one careful operation does. -/
theorem Minding.step {before after : World} {operation : AgentOp} {reply : operation.Reply}
    (minding : ns.Minding task origin before) (careful : ns.Careful origin operation)
    (performed : World.Step fresh condition task before operation reply after) :
    (TaskGuarantee task before after ∧ ns.Heeds after.disk) ∧ ns.Minding task origin after := by
  have held : after.holder = some task := by
    rw [performed.holder ?_ ?_]
    · exact minding.held
    · rintro copy rfl
      exact careful rfl
    · rintro rfl
      exact careful rfl
  have grows := performed.disk.grows
  have staged : task ≠ .executor → ¬Untouched after.disk.history :=
    fun other untouched => minding.staged other (untouched.anti grows)
  have guaranteed : TaskGuarantee task before after :=
    .holding minding.held held grows fun other untouched =>
      absurd untouched (minding.staged other)
  have rest : ns.Heeds after.disk ∧ ns.Minds origin after.disk := by
    by_cases writes : ∃ next, operation = .writeSpool next
    · rcases writes with ⟨next, rfl⟩
      have written : after.disk = before.disk.write next := by
        rcases performed.disk with ⟨_, _, effect⟩ | ⟨impossible, _⟩ | ⟨faulty, _⟩
        · exact effect
        · exact absurd trivial impossible
        · exact faulty.elim
      have owns : ns.Owns origin next := careful
      have minds : ns.Minds next before.disk :=
        fun cancelled => owns.cancelRequested.trans (minding.minds cancelled)
      rw [written]
      refine ⟨minding.heeds.write (.inr owns.self) minds, fun cancelled => ?_⟩
      rw [← owns.cancelRequested]
      exact minds.write cancelled
    · have retains : operation ≠ .retireSpool := by
        rintro rfl
        exact careful
      have same : before.disk.SameRecords after.disk :=
        .of_step performed.disk (fun next isWrite => writes ⟨next, isWrite⟩) retains
      rcases performed.disk.effect with ⟨_, history, _⟩ | ⟨change, made, history, _⟩
      · have records := same.spool
        refine ⟨?_, by rw [Minds, history]; exact minding.minds⟩
        rcases minding.heeds with ⟨named, stored, present, flagged, wins⟩
        constructor <;> simpa only [history, records]
      · have respects : ns.Cancelled before.disk.history →
            change.touches ns.publishedPath = false := by
          intro cancelled
          have flagged := minding.minds cancelled
          cases operation with
          | writeSpool next => exact absurd ⟨next, rfl⟩ writes
          | retireSpool => exact absurd rfl retains
          | renameNoreplace source destination =>
              cases made
              have apart := careful flagged
              simp [DiskChange.touches, apart.1, apart.2]
          | exchangePaths left right =>
              rw [careful] at flagged
              cases flagged
          | fsyncDirectory path =>
              cases made
              rfl
          | _ => cases made
        have unwritten : ∀ record, change ≠ .wrote record := by
          rintro record rfl
          exact writes ⟨record, AgentOp.eq_writeSpool_of_change? made⟩
        rcases minding.heeds.change same history unwritten respects with ⟨heeds, cancelled⟩
        exact ⟨heeds, fun isCancelled => minding.minds (cancelled.mp isCancelled)⟩
  exact ⟨⟨guaranteed, rest.1⟩, held, rest.1, rest.2, minding.seen.mono grows, staged⟩

/-- A program with a careful footprint heeds the cancellation. -/
theorem Minding.safe {α : Type} {program : AgentProgram α} {post : α → Prop} {world : World}
    (minding : ns.Minding task origin world)
    (every : program.Every (ns.Careful origin) post) :
    TaskSafe fresh condition (fun world => ns.Heeds world.disk) task program
      (fun value after => post value ∧ ns.Minding task origin after) world := by
  refine Program.Every.safe ?_ ?_ every minding
  · exact fun _ _ minds relied => minds.stable relied
  · exact fun _ _ _ _ minds careful performed => minds.step careful performed

theorem Minding.holds {α : Type} {computation : Agent α} {result : α → Prop} {world : World}
    (minding : ns.Minding task origin world) (owns : ns.Owns origin origin)
    (keeps : ns.Keeps origin computation result) :
    Holds (taskSetting fresh condition (fun world => ns.Heeds world.disk) task) computation
      (fun _ copy after => ns.Owns origin copy ∧ ns.Minding task origin after) origin world :=
  Program.Safe.imp (minding.safe (keeps origin owns)) fun _ _ holds => ⟨holds.1.1, holds.2⟩

/-- The same for a computation that cannot fail. -/
theorem Minding.holds_infallible {α : Type} {computation : Agent α} {result : α → Prop}
    {world : World} (minding : ns.Minding task origin world) (owns : ns.Owns origin origin)
    (keeps : ns.Keeps origin computation result) (infallible : Infallible computation) :
    Holds (taskSetting fresh condition (fun world => ns.Heeds world.disk) task) computation
      (fun outcome copy after => (∃ value, outcome = .ok value) ∧ ns.Owns origin copy ∧
        ns.Minding task origin after) origin world :=
  Program.Safe.imp (minding.safe ((keeps origin owns).and (infallible origin)))
    fun _ _ holds => ⟨holds.1.2, holds.1.1.1, holds.2⟩

/-- The copy is written at the end of a careful section. -/
theorem Minding.writeCopy_holds {world : World} (minding : ns.Minding task origin world)
    (owns : ns.Owns origin record) :
    Holds (taskSetting fresh condition (fun world => ns.Heeds world.disk) task) writeCopy
      (fun result copy after => (result = .ok () ∧ copy = record) ∧
        ns.Minding task origin after ∧ Wrote record after.disk.history ∧
        (record.IsPristine → Untouched world.disk.history → Untouched after.disk.history))
      record world := by
  have minds : ns.Minds record world.disk :=
    fun cancelled => owns.cancelRequested.trans (minding.minds cancelled)
  refine LzuMirror.writeCopy_holds minding.held
    (fun other untouched => absurd untouched (minding.staged other)) ?_
  intro disk locks retires still
  have heeds := (minding.heeds.retired retires).1
  have mindsDisk := minds.retired minding.heeds retires
  have written := heeds.write (.inr owns.self) mindsDisk
  refine ⟨written, ⟨rfl, rfl⟩, ⟨still, written, ?_, ?_, ?_⟩, wrote_write_iff.mpr (.inl rfl), ?_⟩
  · intro cancelled
    rw [← owns.cancelRequested]
    exact mindsDisk.write cancelled
  · exact minding.seen.mono (retires.grows.trans (List.suffix_cons _ _))
  · intro other untouched
    exact minding.staged other
      (retires.untouched_iff.mp (untouched_write_iff.mp untouched).2)
  · intro pristine untouched
    exact untouched_write_iff.mpr ⟨pristine, retires.untouched_iff.mpr untouched⟩

theorem Minding.closes {world : World} {outcome : Except String Unit}
    (ended : (∃ value, outcome = .ok value) ∧ ns.Owns origin record ∧
      ns.Minding task origin world) :
    Then (taskSetting fresh condition (fun world => ns.Heeds world.disk) task)
      (fun _ => writeCopy)
      (fun _ copy after => after.holder = some task ∧ ns.Heeds after.disk ∧
        Seen copy after.disk.history) outcome record world := by
  rcases ended with ⟨⟨_, rfl⟩, owns, minding⟩
  refine then_ok.mpr ((minding.writeCopy_holds owns).imp ?_)
  rintro _ _ after ⟨⟨_, rfl⟩, final, wrote, _⟩
  exact ⟨final.held, final.heeds, wrote.seen⟩

end Careful

section Executor

variable {fresh : PathBuf → FileIdentity} {condition : Disk → SpoolRecord → Prop}

/-- A copy with which the executor works in the first stage. -/
def Heedful (ns : Namespace) (record : SpoolRecord) : Prop :=
  record.IsPristine ∧ ns.Owns record record

/-- Merging the flag of the file makes the executor mind the cancellation. -/
theorem Heedful.merged {merged : SpoolRecord} {world : World} (heedful : ns.Heedful record)
    (held : world.holder = some .executor) (heeds : ns.Heeds world.disk)
    (untouched : Untouched world.disk.history) (merges : Merged record world.disk merged) :
    ns.Heedful merged ∧ ns.Minding .executor merged world := by
  rcases merges with ⟨latest, durable, rfl⟩ | ⟨missing, _⟩
  · refine ⟨⟨heedful.1, ?_⟩, held, heeds, ?_,
      @SpoolRecord.IsPristine.seen (record.merge latest) _ heedful.1, fun other => absurd rfl other⟩
    · rcases heedful.2.publication with ⟨state, stored, names⟩
      exact ⟨rfl, rfl, rfl, rfl, state, stored, { names with }⟩
    · intro cancelled
      simp [SpoolRecord.merge, heeds.flagged cancelled latest durable]
  · exact absurd missing (heeds.present untouched)

theorem heeding_supervision (ns : Namespace) :
    Supervision fresh condition (fun world => ns.Heeds world.disk) ns.Heeds ns.Heedful where
  discipline := heeding_discipline ns
  running record time heedful := by
    rcases heedful.2.publication with ⟨state, stored, names⟩
    exact ⟨⟨heedful.1.1, rfl, heedful.1.2.2⟩, rfl, rfl, rfl, rfl, state, stored,
      { names with }⟩
  marks record merged world heedful held heeds untouched merges := by
    rcases heedful.merged held heeds untouched merges with ⟨usable, minding⟩
    refine (minding.writeCopy_holds usable.2).imp ?_
    rintro _ copy after ⟨⟨rfl, rfl⟩, later, _, pristine⟩
    exact ⟨later.held, later.heeds, rfl, usable, pristine usable.1 untouched⟩
  fails kind error record merged world heedful held heeds untouched merges := by
    rcases heedful.merged held heeds untouched merges with ⟨usable, minding⟩
    have ends : ∀ {result : AttemptState} {kind : Option FailureKind} {message : Option String},
        Holds (taskSetting fresh condition (fun world => ns.Heeds world.disk) .executor)
          (do
            terminalNow result none kind message
            writeCopy)
          (fun _ copy after => after.holder = some .executor ∧ ns.Heeds after.disk ∧
            Seen copy after.disk.history) merged world := by
      intro result kind message
      exact holds_bind.mpr ((minding.holds_infallible usable.2
        ((ns.permits merged).terminalNow trivial) infallible_terminalNow).imp fun _ _ _ => Minding.closes)
    refine holds_bind.mpr (holds_copy.mpr (then_ok.mpr ?_))
    split
    · exact ends
    · exact ends
  finishes outcome record merged world heedful held heeds untouched merges := by
    rcases heedful.merged held heeds untouched merges with ⟨usable, minding⟩
    exact holds_bind.mpr ((minding.holds_infallible usable.2
      ((ns.permits merged).finalizeOutcome trivial trivial)
        (infallible_finalizeOutcome outcome)).imp fun _ _ _ => Minding.closes)

end Executor

section Reconciler

variable {fresh : PathBuf → FileIdentity} {world : World}

/-- `reconcile_all`, as long as the copy it is granted the lock for minds the cancellation. -/
theorem reconcileAll_heeding {config : AgentConfig}
    (waiting : world.holder ≠ some .reconciler) :
    TaskSafe fresh (fun disk copy => ns.Minds copy disk) (fun world => ns.Heeds world.disk)
      .reconciler (Service.reconcileAll config)
      (fun _ after => after.holder ≠ some .reconciler) world := by
  refine @reconcileAll_safe _ _ _ _ _ _ (heeding_discipline ns) _
    (fun copy disk => ns.Minds copy disk ∧ ns.Heeds disk)
    (fun _ _ heeds _ minds => ⟨minds, heeds⟩) ?_ ?_ waiting
  · rintro read before after ⟨minds, heeds⟩ retires
    exact ⟨minds.retired heeds retires, (heeds.retired retires).1⟩
  intro synchronized read held wrote required holds heeds minds
  have owns : ns.Owns read read := by
    refine (heeds.named read wrote).resolve_left fun missing => ?_
    simp [SpoolRecord.requiresPublicationRecovery, missing] at required
  have staged : ¬Untouched held.disk.history := by
    intro untouched
    rw [(untouched read wrote).1] at required
    cases required
  have minding : ns.Minding .reconciler read held :=
    ⟨holds, heeds, minds.1, wrote.seen, fun _ => staged⟩
  have recovers : Holds (taskSetting fresh (fun disk copy => ns.Minds copy disk)
      (fun world => ns.Heeds world.disk) .reconciler)
      (if synchronized then recover else recoverBeforeControlPlane)
      (fun _ copy after => ns.Owns read copy ∧ ns.Minding .reconciler read after) read held := by
    cases synchronized with
    | true => exact minding.holds owns (ns.permits read).recover
    | false => exact minding.holds owns (ns.permits read).recoverBeforeControlPlane
  refine recovers.imp ?_
  rintro _ copy after ⟨ownsCopy, later⟩
  refine ⟨later.held, later.heeds, fun _ => later.staged (by simp), fun complete => ?_⟩
  exact later.seen.complete (ownsCopy.complete ▸ complete)

end Reconciler

end Namespace

end LzuMirror
