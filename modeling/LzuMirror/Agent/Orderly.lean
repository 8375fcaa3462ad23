import LzuMirror.Agent.Contracts
import LzuMirror.Agent.Supervision

/-!
# The tasks of a publication

The executor and the background reconciliation of one attempt, without faults
and cancellations. While nobody holds the acceptance lock the disk is `Calm`:
either nothing has moved and every written record is in phase `Executing`, or
the publication is complete. In between the executor alone works on the
namespace, and its `commit` is the one of `LzuMirror.Agent.Contracts`, carried over
to the shared world by its footprint.

`reconcile_all` works on a copy that it read before it was granted the lock.
A copy in phase `ReadyToCommit` or `CommittedPendingReport` does no harm when
the publication is complete by then: the candidate is found at the published path.
-/

namespace LzuMirror

namespace Namespace

open Agent

variable (ns : Namespace)

/-- A record that is written while no cancellation and no fault occurs. -/
structure Believable (record : SpoolRecord) (state : PublicationState) : Prop where
  stored : record.publication = some state
  names : ns.Names record state
  uncancelled : record.cancelRequested = false
  phase : state.phase = .executing ∨ state.phase = .preparingExchange ∨
    state.phase = .readyToCommit ∨ state.phase = .committedPendingReport
  identifies : state.phase ≠ .executing → ns.Identifies state
  succeeded : state.phase = .committedPendingReport → record.state = .succeeded

/-- What holds of the spool file at all times. -/
structure Grounded (disk : Disk) : Prop where
  believable : ∀ record, Wrote record disk.history → ∃ state, ns.Believable record state
  stored : ∀ record, disk.spool = some record → Wrote record disk.history
  present : Untouched disk.history → disk.spool ≠ none

/-- Nothing has moved. -/
structure AtRest (disk : Disk) : Prop where
  shows : ns.Shows disk.fs .atRest
  chronicle : ns.Chronicle .atRest disk.history
  executing : ∀ record, Wrote record disk.history → record.phase? = some .executing

/-- The publication is complete. -/
structure Finished (disk : Disk) : Prop where
  shows : ns.Shows disk.fs .visible
  chronicle : ns.Chronicle .visible disk.history
  committed : ∀ record, disk.spool = some record →
    record.phase? = some .committedPendingReport
  touched : ¬Untouched disk.history

/-- The disk while nobody holds the acceptance lock. -/
def Calm (disk : Disk) : Prop := ns.Grounded disk ∧ (ns.AtRest disk ∨ ns.Finished disk)

/-- The attempt states with which a publication is under way. -/
def Unended (state : AttemptState) : Prop := state.isTerminal = false

/-- The executor is publishing. -/
structure Publishing (world : World) : Prop where
  held : world.holder = some .executor
  unreported : ¬Reported world.disk.history
  grounded : ns.Grounded world.disk

/-- The invariant of the two tasks. -/
def Orderly (world : World) : Prop :=
  ns.Calm world.disk ∨ ns.Publishing world ∧ ns.Invariant Unended False world.disk

variable {ns} {record : SpoolRecord} {state : PublicationState} {before after : Disk}

theorem Believable.phase? (believable : ns.Believable record state) :
    record.phase? = some state.phase := by
  simp [SpoolRecord.phase?, believable.stored]

theorem Believable.owns (believable : ns.Believable record state) : ns.Owns record record :=
  ⟨rfl, rfl, rfl, rfl, state, believable.stored, believable.names⟩

theorem Believable.reported (believable : ns.Believable record state) (sequence offset : ℕ)
    (complete : Bool) : ns.Believable (record.reported sequence offset complete) state where
  stored := believable.stored
  names := { believable.names with }
  uncancelled := believable.uncancelled
  phase := believable.phase
  identifies := believable.identifies
  succeeded := believable.succeeded

section Retiring

variable (retires : before.Retires after)

include retires

theorem Chronicle.retired {layout : Layout} (chronicle : ns.Chronicle layout before.history) :
    ns.Chronicle layout after.history := by
  rcases retires.history with ⟨events, history, retired⟩
  rw [history]
  clear history
  induction events with
  | nil => exact chronicle
  | cons event rest ih =>
      refine (ih fun entry listed => retired entry (List.mem_cons_of_mem _ listed)).unmoved ?_
      rw [retired event List.mem_cons_self]
      rfl

theorem Grounded.retired (grounded : ns.Grounded before) : ns.Grounded after where
  believable record wrote := grounded.believable record (retires.wrote_iff.mp wrote)
  stored record durable := by
    rcases retires.spool with same | ⟨gone, _⟩
    · rw [same] at durable
      exact retires.wrote_iff.mpr (grounded.stored record durable)
    · rw [gone] at durable
      cases durable
  present untouched := by
    have early := retires.untouched_iff.mp untouched
    rw [retires.still early.not_reported]
    exact grounded.present early

theorem AtRest.retired (atRest : ns.AtRest before) : ns.AtRest after where
  shows := by
    rw [retires.fs]
    exact atRest.shows
  chronicle := atRest.chronicle.retired retires
  executing record wrote := atRest.executing record (retires.wrote_iff.mp wrote)

theorem Finished.retired (finished : ns.Finished before) : ns.Finished after where
  shows := by
    rw [retires.fs]
    exact finished.shows
  chronicle := finished.chronicle.retired retires
  committed record durable := by
    rcases retires.spool with same | ⟨gone, _⟩
    · exact finished.committed record (same ▸ durable)
    · rw [gone] at durable
      cases durable
  touched untouched := finished.touched (retires.untouched_iff.mp untouched)

theorem Calm.retired (calm : ns.Calm before) : ns.Calm after :=
  ⟨calm.1.retired retires, calm.2.imp (AtRest.retired retires) (Finished.retired retires)⟩

end Retiring

section Writing

variable {disk : Disk} {next : SpoolRecord}

theorem Grounded.written (grounded : ns.Grounded disk) (believable : ns.Believable next state) :
    ns.Grounded (disk.write next) where
  believable record wrote := by
    rcases wrote_write_iff.mp wrote with rfl | earlier
    · exact ⟨state, believable⟩
    · exact grounded.believable record earlier
  stored record durable := by
    cases durable
    exact wrote_write_iff.mpr (.inl rfl)
  present _ := Option.some_ne_none next

theorem AtRest.written (atRest : ns.AtRest disk) (phase : next.phase? = some .executing) :
    ns.AtRest (disk.write next) where
  shows := atRest.shows
  chronicle := atRest.chronicle.unmoved rfl
  executing record wrote := by
    rcases wrote_write_iff.mp wrote with rfl | earlier
    · exact phase
    · exact atRest.executing record earlier

theorem Finished.written (finished : ns.Finished disk)
    (phase : next.phase? = some .committedPendingReport) : ns.Finished (disk.write next) where
  shows := finished.shows
  chronicle := finished.chronicle.unmoved rfl
  committed record durable := by
    cases durable
    exact phase
  touched untouched := finished.touched (untouched_write_iff.mp untouched).2

end Writing

/-- A calm disk that is still in the first stage is at rest. -/
theorem Calm.atRest {disk : Disk} (calm : ns.Calm disk) (untouched : Untouched disk.history) :
    ns.AtRest disk :=
  calm.2.resolve_right fun finished => finished.touched untouched

/-- Both tasks may reconcile under the invariant. -/
theorem orderly_discipline (ns : Namespace) : Discipline ns.Orderly ns.Calm where
  intro _ calm := .inl calm
  elim world orderly free := by
    rcases orderly with calm | ⟨publishing, _⟩
    · exact calm
    · rw [publishing.held] at free
      cases free
  wrote world record orderly durable := by
    rcases orderly with calm | ⟨publishing, _⟩
    · exact calm.1.stored record durable
    · exact publishing.grounded.stored record durable
  locks world lock holder other orderly := by
    refine orderly.imp id fun ⟨publishing, invariant⟩ => ⟨?_, invariant⟩
    exact ⟨(Function.update_of_ne other.symm _ _).trans publishing.held, publishing.unreported,
      publishing.grounded⟩
  retire world orderly reported := by
    rcases orderly with calm | ⟨publishing, _⟩
    · exact .inl (calm.retired (.retire reported))
    · exact absurd reported publishing.unreported
  retires _ _ calm retires := calm.retired retires
  rewrite before after latest sequence offset complete calm durable retires _ := by
    rcases calm.1.believable latest (calm.1.stored latest durable) with ⟨state, believable⟩
    have later := calm.retired retires
    have rewritten := believable.reported sequence offset complete
    refine ⟨later.1.written rewritten, ?_⟩
    rcases calm.2 with atRest | finished
    · refine .inl ((atRest.retired retires).written ?_)
      exact atRest.executing latest (calm.1.stored latest durable)
    · exact .inr ((finished.retired retires).written (finished.committed latest durable))

section Executor

variable {fresh : PathBuf → FileIdentity} {condition : Disk → SpoolRecord → Prop}
  {world : World}

/-- A copy with which the executor works in the first stage. -/
def Usable (ns : Namespace) (record : SpoolRecord) : Prop :=
  (∃ state, ns.Believable record state ∧ state.phase = .executing) ∧ Unended record.state ∧
    record.logCompleteAcknowledged = false

theorem Usable.pristine (usable : ns.Usable record) : record.IsPristine := by
  rcases usable with ⟨⟨state, believable, phase⟩, unended, incomplete⟩
  refine ⟨?_, unended, incomplete⟩
  simp [SpoolRecord.requiresPublicationRecovery, believable.stored, phase,
    PublicationPhase.requiresNamespaceRecovery]

/-- Without cancellations there is nothing to merge. -/
theorem Usable.merged {disk : Disk} {merged : SpoolRecord} (usable : ns.Usable record)
    (grounded : ns.Grounded disk) (merges : Merged record disk merged) : merged = record := by
  rcases merges with ⟨latest, durable, rfl⟩ | ⟨_, rfl⟩
  · rcases grounded.believable latest (grounded.stored latest durable) with ⟨_, believable⟩
    rcases usable.1 with ⟨_, own, _⟩
    simp [SpoolRecord.merge, believable.uncancelled]
  · rfl

theorem Believable.ended (believable : ns.Believable record state)
    (phase : state.phase = .executing) (result : AttemptState) (exitCode : Option ℤ)
    (kind : Option FailureKind) (message : Option String) (now : String) :
    ns.Believable (record.terminal result exitCode kind message now) state where
  stored := believable.stored
  names := { believable.names with }
  uncancelled := believable.uncancelled
  phase := believable.phase
  identifies := believable.identifies
  succeeded committed := by simp [phase] at committed

/-- The disk and the copy when the executor is about to write its result. -/
def Concluded (ns : Namespace) (copy : SpoolRecord) (world : World) : Prop :=
  world.holder = some .executor ∧ ns.Grounded world.disk ∧
    ∃ state, ns.Believable copy state ∧
      (state.phase = .executing ∧ ns.AtRest world.disk ∨
        state.phase = .committedPendingReport ∧ ns.Finished world.disk)

/-- How the executor's write of its copy ends. -/
structure Entered (ns : Namespace) (record : SpoolRecord) (world : World)
    (result : Except String Unit) (copy : SpoolRecord) (after : World) : Prop where
  ok : result = .ok ()
  same : copy = record
  concluded : ns.Concluded record after
  calm : ns.Calm after.disk
  wrote : Wrote record after.disk.history
  untouched : Untouched world.disk.history → record.IsPristine → Untouched after.disk.history

/-- The result is written and the disk is calm again. -/
theorem Concluded.writeCopy_holds (concluded : ns.Concluded record world) :
    Holds (taskSetting fresh condition ns.Orderly .executor) writeCopy
      (ns.Entered record world) record world := by
  rcases concluded with ⟨held, grounded, state, believable, settled⟩
  refine LzuMirror.writeCopy_holds held (fun other => absurd rfl other) ?_
  intro disk locks retires still
  have written := (grounded.retired retires).written believable
  have phases : state.phase = .executing ∧ ns.AtRest (disk.write record) ∨
      state.phase = .committedPendingReport ∧ ns.Finished (disk.write record) := by
    rcases settled with ⟨phase, atRest⟩ | ⟨phase, finished⟩
    · exact .inl ⟨phase, (atRest.retired retires).written (phase ▸ believable.phase?)⟩
    · exact .inr ⟨phase, (finished.retired retires).written (phase ▸ believable.phase?)⟩
  have calm : ns.Calm (disk.write record) := ⟨written, phases.imp And.right And.right⟩
  refine ⟨.inl calm, rfl, rfl, ⟨still, written, state, believable, phases⟩, calm,
    wrote_write_iff.mpr (.inl rfl), fun untouched pristine => ?_⟩
  exact untouched_write_iff.mpr ⟨pristine, retires.untouched_iff.mpr untouched⟩

theorem Entered.closed {result : Except String Unit} {copy : SpoolRecord} {after : World}
    (entered : ns.Entered record world result copy after) :
    after.holder = some .executor ∧ ns.Calm after.disk ∧ Seen copy after.disk.history :=
  ⟨entered.concluded.1, entered.calm, entered.same ▸ entered.wrote.seen⟩

theorem terminalNow_concluded (held : world.holder = some .executor) (calm : ns.Calm world.disk)
    (untouched : Untouched world.disk.history) (usable : ns.Usable record)
    {result : AttemptState} {exitCode : Option ℤ} {kind : Option FailureKind}
    {message : Option String} :
    Holds (taskSetting fresh condition ns.Orderly .executor)
      (terminalNow result exitCode kind message)
      (fun outcome copy after => outcome = .ok () ∧ ns.Concluded copy after) record world := by
  rcases usable.1 with ⟨state, believable, phase⟩
  refine terminalNow_holds held fun time after retires still => ⟨rfl, still, ?_, state, ?_, ?_⟩
  · exact calm.1.retired retires
  · exact believable.ended phase result exitCode kind message time
  · exact .inl ⟨phase, (calm.atRest untouched).retired retires⟩

/-- A calm disk in the first stage is the beginning of a publication. -/
theorem Calm.invariant {disk : Disk} (calm : ns.Calm disk)
    (untouched : Untouched disk.history) : ns.Invariant Unended False disk := by
  have atRest := calm.atRest untouched
  rcases Option.ne_none_iff_exists'.mp (calm.1.present untouched) with ⟨stored, durable⟩
  have wrote := calm.1.stored stored durable
  rcases calm.1.believable stored wrote with ⟨state, believable⟩
  have phase : state.phase = .executing := by
    have executing := atRest.executing stored wrote
    rw [believable.phase?, Option.some.injEq] at executing
    exact executing
  refine ⟨stored, state, .atRest, durable, ?_, ?_, atRest.shows, atRest.chronicle⟩
  · exact {
      tracks := believable.owns.tracks believable.stored
      permitted := by simp [phase, PublicationPhase.permits]
      identifies := believable.identifies
      unfinished := fun moving => absurd phase moving
      pending := fun _ succeeded => by
        have open_ := (untouched stored wrote).2.1
        rw [succeeded] at open_
        cases open_
      succeeded := by simp [phase]
      intent := by simp [phase]
      troubled := by simp [phase] }
  · exact {
      prepared := fun moving => absurd phase moving
      restored := by
        rintro _ ⟨event, listed, prepares⟩
        -- a record that announces a publication would not be in phase `Executing`
        cases change : event.change with
        | wrote record =>
            have executing := atRest.executing record ⟨event, listed, change⟩
            simp [change, DiskChange.prepares, executing] at prepares
        | _ => simp [change, DiskChange.prepares] at prepares
      synced := by simp [phase] }

/-- What one careful operation of the executor does while it publishes. -/
theorem Publishing.step {before after : World} {operation : AgentOp}
    {reply : operation.Reply} (publishing : ns.Publishing before)
    (careful : ns.Careful record operation) (incomplete : record.logCompleteAcknowledged = false)
    (uncancelled : record.cancelRequested = false)
    (performed : World.Step fresh condition .executor before operation reply after)
    (valid : ns.Invariant Unended False after.disk) : ns.Publishing after := by
  have held : after.holder = some .executor := by
    rw [performed.holder ?_ ?_]
    · exact publishing.held
    · rintro copy rfl
      exact careful rfl
    · rintro rfl
      exact careful rfl
  by_cases writes : ∃ next, operation = .writeSpool next
  · rcases writes with ⟨next, rfl⟩
    have written : after.disk = before.disk.write next := by
      rcases performed.disk with ⟨_, _, effect⟩ | ⟨impossible, _⟩ | ⟨faulty, _⟩
      · exact effect
      · exact absurd trivial impossible
      · exact faulty.elim
    rcases valid with ⟨stored, state, layout, durable, consistent, _⟩
    have owns : ns.Owns record next := careful
    rw [written] at durable
    cases durable
    -- the invariant says which phases can be written, the footprint the rest
    have believable : ns.Believable next state := {
      stored := consistent.tracks.publication
      names := by
        have names := owns.names consistent.tracks.publication
        have rotatedText := names.rotatedText
        rw [← owns.runId, ← owns.attempt] at rotatedText
        exact { names with rotatedText }
      uncancelled := owns.cancelRequested.trans uncancelled
      phase := by
        have permitted := consistent.permitted
        have troubled := consistent.troubled
        revert permitted troubled
        cases state.phase <;> simp [PublicationPhase.permits]
      identifies := consistent.identifies
      succeeded := consistent.succeeded }
    refine ⟨held, ?_, written ▸ publishing.grounded.written believable⟩
    rw [written]
    rintro ⟨reported, wrote, complete⟩
    rcases wrote_write_iff.mp wrote with rfl | earlier
    · rw [owns.complete, incomplete] at complete
      cases complete
    · exact publishing.unreported ⟨reported, earlier, complete⟩
  · have same : before.disk.SameRecords after.disk :=
      .of_step performed.disk (fun next isWrite => writes ⟨next, isWrite⟩) (by
        rintro rfl
        exact careful)
    refine ⟨held, mt same.reported_iff.mp publishing.unreported, ?_⟩
    exact {
      believable := fun next wrote => publishing.grounded.believable next
        ((same.wrote next).mp wrote)
      stored := fun next durable => (same.wrote next).mpr
        (publishing.grounded.stored next (same.spool ▸ durable))
      present := fun untouched => by
        rw [same.spool]
        exact publishing.grounded.present (same.untouched_iff.mp untouched) }

/-- The executor's `commit`, disturbed by the other tasks. -/
theorem commit_orderly (held : world.holder = some .executor) (calm : ns.Calm world.disk)
    (untouched : Untouched world.disk.history) (usable : ns.Usable record) :
    Holds (taskSetting fresh condition ns.Orderly .executor) commit
      (fun result copy after =>
        Ends (fun _ copy disk => ns.Complete copy disk)
          (fun copy disk => copy = record ∧ disk = world.disk) result copy after.disk ∧
        ns.Invariant Unended False after.disk ∧ ns.Publishing after) record world := by
  rcases usable.1 with ⟨state, believable, phase⟩
  have atRest := calm.atRest untouched
  have resting : ns.Resting record state world.disk :=
    ⟨believable.owns.tracks believable.stored, phase, atRest.shows, atRest.chronicle⟩
  have cancelled : record.cancelRequested = true → False := by
    simp [believable.uncancelled]
  have alone := @commit_holds_resting ns Unended False fresh False _ _ _ resting usable.2.1 id
    cancelled
  have publishing : ns.Publishing world := ⟨held, untouched.not_reported, calm.1⟩
  refine Program.Safe.imp (@Program.Safe.within _ _ _ _ _ _ _ World.disk ns.Publishing
    (ns.Careful record) (ns.Invariant Unended False) (TaskRely .executor)
    (TaskGuarantee .executor) ns.Orderly _ _ ?_ ?_ _ _ alone ((ns.permits record).commit record believable.owns)
    (calm.invariant untouched) publishing) ?_
  · intro before after publishing relied
    rcases relied.holding publishing.held with ⟨still, retires⟩
    have same := retires.still publishing.unreported
    exact ⟨same, still, same ▸ publishing.unreported, same ▸ publishing.grounded⟩
  · intro before operation reply after publishing careful _ performed
    refine ⟨performed.disk, fun valid => ?_⟩
    have later := publishing.step careful usable.2.2 believable.uncancelled performed valid
    refine ⟨later, ?_, .inr ⟨later, valid⟩⟩
    exact .holding publishing.held later.held performed.disk.grows fun other => absurd rfl other
  · rintro ⟨result, copy⟩ after ⟨⟨ends, _⟩, valid, later⟩
    refine ⟨?_, valid, later⟩
    rcases result with _ | outcome
    · rcases ends with faulty | same
      · exact faulty.elim
      · exact same
    · rcases ends with ⟨next, ⟨_, complete, _⟩ | ⟨_, faulty | flagged, _⟩⟩
      · exact complete
      · exact faulty.elim
      · exact absurd flagged (by simp [believable.uncancelled])

/-- A complete publication leaves the disk finished. -/
theorem Publishing.concluded (publishing : ns.Publishing world)
    (valid : ns.Invariant Unended False world.disk) (complete : ns.Complete record world.disk) :
    ns.Concluded record world := by
  rcases valid.started complete.durable with ⟨state, layout, started⟩
  have wrote := publishing.grounded.stored record complete.durable
  rcases publishing.grounded.believable record wrote with ⟨_, believable⟩
  have phase := complete.phase
  rw [believable.phase?, Option.some.injEq] at phase
  have permitted := started.consistent.permitted
  have same := started.phase
  rw [complete.phase, Option.some.injEq] at same
  rw [← same] at permitted
  have visible : layout = .visible := by simpa [PublicationPhase.permits] using permitted
  subst visible
  refine ⟨publishing.held, publishing.grounded, _, believable, .inr ⟨phase, ?_⟩⟩
  refine ⟨complete.shows, started.chronicle, ?_, ?_⟩
  · intro stored durable
    rw [complete.durable, Option.some.injEq] at durable
    exact durable ▸ complete.phase
  · intro untouched
    have pristine := (untouched record wrote).1
    simp [SpoolRecord.requiresPublicationRecovery, believable.stored, phase,
      PublicationPhase.requiresNamespaceRecovery] at pristine

section FirstStage

variable (held : world.holder = some .executor) (calm : ns.Calm world.disk)
  (untouched : Untouched world.disk.history) (usable : ns.Usable record)

include held calm untouched usable

theorem finalizeAtomic_concluded {status : ExitStatus} :
    Holds (taskSetting fresh condition ns.Orderly .executor) (finalizeAtomic status)
      (fun outcome copy after => outcome = .ok () ∧ ns.Concluded copy after) record world := by
  refine holds_bind.mpr (holds_attempt.mpr ((commit_orderly held calm untouched usable).imp ?_))
  rintro (error | outcome) copy after ⟨ends, valid, publishing⟩
  · -- the commit was refused before its first write
    rcases ends with ⟨rfl, same⟩
    rcases usable.1 with ⟨state, believable, phase⟩
    refine then_ok.mpr (holds_bind.mpr (holds_copy.mpr (then_ok.mpr ?_)))
    rw [if_pos (phase ▸ believable.phase?)]
    refine holds_bind.mpr ((terminalNow_concluded publishing.held (same ▸ calm)
      (same ▸ untouched) usable).imp ?_)
    rintro _ ended last ⟨rfl, concluded⟩
    refine then_ok.mpr (concluded.writeCopy_holds.imp fun _ _ _ entered => ⟨entered.ok, ?_⟩)
    exact entered.same ▸ entered.concluded
  · exact then_ok.mpr ⟨rfl, publishing.concluded valid ends⟩

theorem finalizeOutcome_concluded {outcome : Outcome} :
    Holds (taskSetting fresh condition ns.Orderly .executor) (finalizeOutcome outcome)
      (fun result copy after => result = .ok () ∧ ns.Concluded copy after) record world := by
  rcases usable.1 with ⟨state, believable, phase⟩
  refine holds_bind.mpr (holds_copy.mpr (then_ok.mpr ?_))
  rw [if_neg (by simp [believable.uncancelled])]
  have ends : ∀ {result : AttemptState} {exitCode : Option ℤ} {kind : Option FailureKind}
      {message : Option String}, Holds (taskSetting fresh condition ns.Orderly .executor)
        (terminalNow result exitCode kind message)
        (fun result copy after => result = .ok () ∧ ns.Concluded copy after) record world :=
    terminalNow_concluded held calm untouched usable
  cases outcome with
  | process result =>
      cases result with
      | error error => exact ends
      | ok status =>
          dsimp only
          split
          · exact finalizeAtomic_concluded held calm untouched usable
          split
          · exact ends
          · exact ends
  | timedOut => exact ends
  | shutdown => exact ends
  | cancelled => exact ends

end FirstStage

/-- The executor keeps the invariant. -/
theorem orderly_supervision (ns : Namespace) :
    Supervision fresh condition ns.Orderly ns.Calm ns.Usable where
  discipline := orderly_discipline ns
  running record time usable := by
    rcases usable with ⟨⟨state, believable, phase⟩, _, incomplete⟩
    refine ⟨⟨state, ?_, phase⟩, rfl, incomplete⟩
    exact {
      stored := believable.stored
      names := { believable.names with }
      uncancelled := believable.uncancelled
      phase := believable.phase
      identifies := believable.identifies
      succeeded := fun committed => by simp [phase] at committed }
  marks record merged world usable held calm untouched merges := by
    cases usable.merged calm.1 merges
    rcases usable.1 with ⟨state, believable, phase⟩
    have concluded : ns.Concluded record world :=
      ⟨held, calm.1, state, believable, .inl ⟨phase, calm.atRest untouched⟩⟩
    refine concluded.writeCopy_holds.imp fun _ copy after entered =>
      ⟨entered.concluded.1, entered.calm, entered.ok, entered.same ▸ usable, ?_⟩
    exact entered.untouched untouched usable.pristine
  fails kind error record merged world usable held calm untouched merges := by
    cases usable.merged calm.1 merges
    rcases usable.1 with ⟨state, believable, phase⟩
    refine holds_bind.mpr (holds_copy.mpr (then_ok.mpr ?_))
    rw [if_neg (by simp [believable.uncancelled])]
    refine holds_bind.mpr ((terminalNow_concluded held calm untouched usable).imp ?_)
    rintro _ ended last ⟨rfl, concluded⟩
    exact then_ok.mpr (concluded.writeCopy_holds.imp fun _ _ _ => Entered.closed)
  finishes outcome record merged world usable held calm untouched merges := by
    cases usable.merged calm.1 merges
    refine holds_bind.mpr ((finalizeOutcome_concluded held calm untouched usable).imp ?_)
    rintro _ ended last ⟨rfl, concluded⟩
    exact then_ok.mpr (concluded.writeCopy_holds.imp fun _ _ _ => Entered.closed)

end Executor

section Reconciler

variable {fresh : PathBuf → FileIdentity} {condition : Disk → SpoolRecord → Prop}
  {task : AgentTask} {world : World}

/-- A task other than the executor holds the lock after the publication. -/
def Completed (ns : Namespace) (task : AgentTask) (holder : Option AgentTask) (disk : Disk) :
    Prop :=
  holder = some task ∧ ns.Grounded disk ∧ ns.Finished disk

theorem Completed.stable {before after : World}
    (completed : ns.Completed task before.holder before.disk)
    (relied : TaskRely task before after) : ns.Completed task after.holder after.disk := by
  rcases relied.holding completed.1 with ⟨still, retires⟩
  exact ⟨still, completed.2.1.retired retires, completed.2.2.retired retires⟩

/-- What a task leaves behind when it has recovered its copy. -/
def Recovered (ns : Namespace) (task : AgentTask) (copy : SpoolRecord)
    (holder : Option AgentTask) (disk : Disk) : Prop :=
  ns.Completed task holder disk ∧ Wrote copy disk.history

theorem Recovered.stable {before after : World}
    (recovered : ns.Recovered task record before.holder before.disk)
    (relied : TaskRely task before after) :
    ns.Recovered task record after.holder after.disk :=
  ⟨recovered.1.stable relied, recovered.2.mono relied.grows⟩

theorem identityIfExists_completed (completed : ns.Completed task world.holder world.disk)
    {path : PathBuf} :
    Holds (taskSetting fresh condition ns.Orderly task) (identityIfExists path)
      (fun result copy after => result = .ok (after.disk.fs path) ∧ copy = record ∧
        ns.Completed task after.holder after.disk) record world := by
  refine holds_bind.mpr (holds_perform ?_)
  rintro before reply after relied valid ⟨⟨sameDisk, answered⟩, sameLocks⟩
  cases World.ext sameDisk sameLocks
  rcases answered with rfl | ⟨faulty, _⟩
  · exact ⟨⟨.refl task before, valid⟩, rfl, rfl, completed.stable relied⟩
  · exact faulty.elim

theorem syncAll_completed (completed : ns.Completed task world.holder world.disk)
    {paths : List PathBuf} :
    Holds (taskSetting fresh condition ns.Orderly task) (syncAll paths)
      (fun result copy after => result = .ok () ∧ copy = record ∧
        ns.Completed task after.holder after.disk) record world := by
  induction paths generalizing world with
  | nil => exact ⟨rfl, rfl, completed⟩
  | cons path rest ih =>
      refine holds_bind.mpr (holds_bind.mpr (holds_perform ?_))
      rintro before reply ⟨disk, locks⟩ relied valid ⟨attempted, sameLocks⟩
      rcases completed.stable relied with ⟨held, grounded, finished⟩
      rcases attempted with ⟨_, rfl, effect⟩ | ⟨impossible, _⟩ | ⟨faulty, _⟩
      · cases effect
        cases sameLocks
        have same : before.disk.SameRecords (before.disk.sync path) :=
          ⟨rfl, fun _ => by simp [Disk.sync, Disk.log, wrote_cons_iff]⟩
        have synced : ns.Completed task before.holder (before.disk.sync path) := by
          refine ⟨held, ⟨?_, ?_, ?_⟩, finished.shows, finished.chronicle.unmoved rfl,
            finished.committed, mt same.untouched_iff.mp finished.touched⟩
          · exact fun next wrote => grounded.believable next ((same.wrote next).mp wrote)
          · exact fun next durable => (same.wrote next).mpr (grounded.stored next durable)
          · exact fun untouched => grounded.present (same.untouched_iff.mp untouched)
        refine ⟨⟨.holding held held (List.suffix_cons _ _) fun _ => same.untouched_iff.mpr, ?_⟩,
          ih synced⟩
        exact .inl ⟨synced.2.1, .inr synced.2.2⟩
      · exact absurd trivial impossible
      · exact faulty.elim

/-- The record of a completed publication. -/
theorem Believable.committed (believable : ns.Believable record state)
    (identifies : ns.Identifies state) (time : String) :
    ns.Believable ((record.withPublication (inPhase state .committedPendingReport)).terminal
      .succeeded (some 0) none none time) (inPhase state .committedPendingReport) where
  stored := rfl
  names := { @Names.replaced _ _ _ believable.names (inPhase state .committedPendingReport)
    rfl rfl rfl rfl believable.names.rotated with }
  uncancelled := believable.uncancelled
  phase := .inr (.inr (.inr rfl))
  identifies _ := ⟨identifies.candidate, identifies.published, identifies.previous,
    identifies.rotated⟩
  succeeded _ := rfl

/-- `finish_visible` on a copy that is out of date repeats what the executor has written. -/
theorem finishVisible_completed (completed : ns.Completed task world.holder world.disk)
    (believable : ns.Believable record state) (identifies : ns.Identifies state) :
    Holds (taskSetting fresh condition ns.Orderly task) finishVisible
      (fun _ copy after => ns.Recovered task copy after.holder after.disk) record world := by
  refine holds_bind.mpr (holds_bind.mpr (holds_copy.mpr (then_ok.mpr ?_)))
  rw [believable.stored]
  refine holds_context_some.mpr (then_ok.mpr ?_)
  rw [identifies.candidate, believable.names.publishedPath, believable.names.exchangePath]
  refine holds_bind.mpr (holds_context_some.mpr (then_ok.mpr ?_))
  refine holds_bind.mpr ((identityIfExists_completed completed).imp ?_)
  rintro _ _ seen ⟨rfl, rfl, completedSeen⟩
  rw [then_ok, completedSeen.2.2.shows.2.2.1, if_neg (by simp)]
  rcases Option.ne_none_iff_exists'.mp ns.parents.2.1 with ⟨exchangeParent, hasExchange⟩
  rcases Option.ne_none_iff_exists'.mp ns.parents.2.2 with ⟨publishedParent, hasPublished⟩
  simp only [parent, hasExchange, hasPublished]
  refine holds_bind.mpr (holds_context_some.mpr (then_ok.mpr ?_))
  refine holds_bind.mpr (holds_context_some.mpr (then_ok.mpr ?_))
  refine holds_bind.mpr (holds_attempt.mpr ((syncAll_completed completedSeen).imp ?_))
  rintro _ _ synced ⟨rfl, rfl, completedSynced⟩
  refine then_ok.mpr (holds_bind.mpr (holds_copy.mpr (then_ok.mpr (holds_bind.mpr ?_))))
  refine holds_outsideOp (orderly_discipline ns)
    (isOutside_of_disk fun _ _ _ _ _ _ performed => performed) (fun _ _ => Completed.stable)
    completedSynced fun time last completedLast => then_ok.mpr ?_
  have written := believable.committed identifies time
  have phase := written.phase?
  refine holds_bind.mpr (holds_withContext (holds_write_holding completedLast.1 ?_ ?_))
  · exact fun _ untouched => absurd untouched completedLast.2.2.touched
  · intro disk locks retires still
    have grounded := (completedLast.2.1.retired retires).written written
    have finished := (completedLast.2.2.retired retires).written phase
    exact ⟨.inl ⟨grounded, .inr finished⟩, ⟨still, grounded, finished⟩,
      wrote_write_iff.mpr (.inl rfl)⟩

/-- `recover_ready` sees the candidate at the published path. -/
theorem recoverReady_completed (completed : ns.Completed task world.holder world.disk)
    (believable : ns.Believable record state) (identifies : ns.Identifies state) :
    Holds (taskSetting fresh condition ns.Orderly task) recoverReady
      (fun _ copy after => ns.Recovered task copy after.holder after.disk) record world := by
  refine holds_bind.mpr (holds_bind.mpr (holds_copy.mpr (then_ok.mpr ?_)))
  rw [believable.stored]
  refine holds_context_some.mpr (then_ok.mpr ?_)
  rw [identifies.candidate, believable.names.publishedPath, believable.names.exchangePath]
  refine holds_bind.mpr (holds_context_some.mpr (then_ok.mpr ?_))
  refine holds_bind.mpr ((identityIfExists_completed completed).imp ?_)
  rintro _ _ seen ⟨rfl, rfl, completedSeen⟩
  refine then_ok.mpr (holds_bind.mpr ((identityIfExists_completed completedSeen).imp ?_))
  rintro _ _ last ⟨rfl, rfl, completedLast⟩
  rw [then_ok, completedSeen.2.2.shows.2.2.1, if_pos rfl]
  exact finishVisible_completed completedLast believable identifies

/-- The mirror lock is taken inside the acceptance lock. -/
theorem locked_completed {mirror : String} {computation : Agent Unit}
    (before : ns.Recovered task record world.holder world.disk)
    (holds : ∀ inside : World, ns.Recovered task record inside.holder inside.disk →
      Holds (taskSetting fresh condition ns.Orderly task) computation
        (fun _ copy after => ns.Recovered task copy after.holder after.disk) record inside) :
    Holds (taskSetting fresh condition ns.Orderly task) (locked (.mirror mirror) computation)
      (fun _ copy after => ns.Recovered task copy after.holder after.disk) record world := by
  refine holds_bind.mpr (holds_outsideOp (orderly_discipline ns) (isOutside_acquire (by simp))
    (fun _ _ => Recovered.stable) before fun _ inside entered => ?_)
  refine then_ok.mpr (holds_bind.mpr (holds_attempt.mpr ((holds inside entered).imp ?_)))
  intro result copy after recovered
  refine then_ok.mpr (holds_bind.mpr (holds_outsideOp (orderly_discipline ns)
    (isOutside_release (by simp)) (fun _ _ => Recovered.stable) recovered fun _ _ released => ?_))
  exact then_ok.mpr (holds_ofExcept.mpr released)

/-- Both recoveries of a copy that was read before the lock was granted. -/
theorem recovery_completed {synchronized : Bool}
    (completed : ns.Completed task world.holder world.disk)
    (wrote : Wrote record world.disk.history)
    (required : record.requiresPublicationRecovery = true)
    (current : record.phase? ≠ some .preparingExchange) :
    Holds (taskSetting fresh condition ns.Orderly task)
      (if synchronized then recover else recoverBeforeControlPlane)
      (fun _ copy after => ns.Recovered task copy after.holder after.disk) record world := by
  rcases completed.2.1.believable record wrote with ⟨state, believable⟩
  have phase : state.phase = .readyToCommit ∨ state.phase = .committedPendingReport := by
    rw [believable.phase?, ne_eq, Option.some.injEq] at current
    rcases believable.phase with executing | preparing | ready | committed
    · simp [SpoolRecord.requiresPublicationRecovery, believable.stored, executing,
        PublicationPhase.requiresNamespaceRecovery] at required
    · exact absurd preparing current
    · exact .inl ready
    · exact .inr committed
  have named : ∀ {computation : PublicationState → Agent Unit} {missing : String},
      Holds (taskSetting fresh condition ns.Orderly task) (computation state)
        (fun _ copy after => ns.Recovered task copy after.holder after.disk) record world →
      Holds (taskSetting fresh condition ns.Orderly task)
        (publicationState missing >>= computation)
        (fun _ copy after => ns.Recovered task copy after.holder after.disk) record world := by
    intro computation missing holds
    refine holds_bind.mpr (holds_bind.mpr (holds_copy.mpr (then_ok.mpr ?_)))
    rw [believable.stored]
    exact holds_context_some.mpr holds
  have succeeded := believable.succeeded
  cases synchronized with
  | true =>
      refine named (locked_completed ⟨completed, wrote⟩ fun inside entered => ?_)
      refine holds_bind.mpr (holds_copy.mpr (then_ok.mpr ?_))
      simp only [believable.stored]
      rcases phase with phase | phase
      · simp only [phase]
        exact recoverReady_completed entered.1 believable (believable.identifies (by simp [phase]))
      · simp only [phase]
        refine holds_bind.mpr (holds_copy.mpr (then_ok.mpr ?_))
        rw [if_pos (succeeded phase)]
        exact entered
  | false =>
      refine named (locked_completed ⟨completed, wrote⟩ fun inside entered => ?_)
      refine holds_bind.mpr (holds_copy.mpr (then_ok.mpr ?_))
      simp only [believable.stored]
      rcases phase with phase | phase
      · simp only [phase]
        exact entered
      · simp only [phase]
        refine holds_bind.mpr (holds_copy.mpr (then_ok.mpr ?_))
        rw [if_pos (succeeded phase)]
        exact entered

end Reconciler

end Namespace

end LzuMirror
