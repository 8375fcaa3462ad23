import LzuMirror.Agent.Footprint
import LzuMirror.Agent.Service

/-!
# What the tasks of the agent keep

The methods of `LzuMirror.Agent.Service` read the spool file and hear the server
again and again, so what they write depends on the answers. `Reports` is what a
bound on the record needs for `reconcile` to stay within it, given what is known
of the answers; `Serves` is what it needs for the other methods. The first stands
on its own: there are records that only `reconcile` leaves as they are.
-/

namespace LzuMirror

namespace Agent

variable {α β : Type} {kept : SpoolRecord → Prop}
  {given : (operation : AgentOp) → operation.Reply → Prop} {allowed : AgentOp → Prop}

/-- The copy stays within bounds as long as the replies are what is given. -/
def KeepsGiven (kept : SpoolRecord → Prop) (given : (operation : AgentOp) → operation.Reply → Prop)
    (allowed : AgentOp → Prop) (computation : Agent α) : Prop :=
  ∀ record, kept record →
    (computation.run record).EveryGiven given allowed fun out => kept out.2

section Rules

theorem Keeps.toGiven {computation : Agent α} {result : α → Prop}
    (keeps : Keeps kept allowed computation result) :
    KeepsGiven kept given allowed computation :=
  fun record holds => (keeps record holds).toGiven.imp fun _ ends => ends.1

theorem keepsGiven_pure {value : α} : KeepsGiven kept given allowed (pure value) :=
  fun _ holds => holds

theorem keepsGiven_fail {message : String} :
    KeepsGiven kept given allowed (fail message : Agent α) :=
  fun _ holds => holds

theorem keepsGiven_ofExcept {value : Except String α} :
    KeepsGiven kept given allowed (ofExcept value) := by
  cases value with
  | error message => exact keepsGiven_fail
  | ok content => exact keepsGiven_pure

theorem keepsGiven_unwrap {value : Except String α} {next : α → Agent β}
    (rest : ∀ content, value = .ok content → KeepsGiven kept given allowed (next content)) :
    KeepsGiven kept given allowed (ofExcept value >>= next) := by
  cases value with
  | error message => exact keepsGiven_fail
  | ok content => exact rest content rfl

theorem keepsGiven_setCopy {next : SpoolRecord} (holds : kept next) :
    KeepsGiven kept given allowed (setCopy next) :=
  fun _ _ => holds

theorem keepsGiven_bind {first : Agent α} {next : α → Agent β}
    (keeps : KeepsGiven kept given allowed first)
    (rest : ∀ value, KeepsGiven kept given allowed (next value)) :
    KeepsGiven kept given allowed (first >>= next) := by
  intro record holds
  refine Program.everyGiven_bind.mpr ((keeps record holds).imp ?_)
  rintro ⟨message | value, after⟩ stays
  · exact stays
  · exact rest value after stays

theorem keepsGiven_copy {next : SpoolRecord → Agent β}
    (rest : ∀ record, kept record → KeepsGiven kept given allowed (next record)) :
    KeepsGiven kept given allowed (copy >>= next) :=
  fun record holds => rest record holds record holds

theorem keepsGiven_perform {operation : AgentOp} {next : operation.Reply → Agent β}
    (permitted : allowed operation)
    (rest : ∀ reply, given operation reply → KeepsGiven kept given allowed (next reply)) :
    KeepsGiven kept given allowed (perform operation >>= next) :=
  fun record holds => ⟨permitted, fun reply told => rest reply told record holds⟩

theorem keepsGiven_attempt {computation : Agent α}
    (keeps : KeepsGiven kept given allowed computation) :
    KeepsGiven kept given allowed (attempt computation) := by
  intro record holds
  exact Program.everyGiven_bind.mpr ((keeps record holds).imp fun _ stays => stays)

theorem keepsGiven_locked {lock : AgentLock} {computation : Agent α}
    (acquires : allowed (.acquire lock none)) (releases : allowed (.release lock))
    (keeps : KeepsGiven kept given allowed computation) :
    KeepsGiven kept given allowed (locked lock computation) := by
  refine keepsGiven_perform acquires fun _ _ => ?_
  refine keepsGiven_bind (keepsGiven_attempt keeps) fun _ => ?_
  exact keepsGiven_perform releases fun _ _ => keepsGiven_ofExcept

theorem keepsGiven_ite {condition : Prop} [Decidable condition] {first second : Agent α}
    (met : condition → KeepsGiven kept given allowed first)
    (unmet : ¬condition → KeepsGiven kept given allowed second) :
    KeepsGiven kept given allowed (if condition then first else second) := by
  split
  next holds => exact met holds
  next fails => exact unmet fails

end Rules

/-! ## Reports to the server -/

/-- The operations of `reconcile` that change neither the file nor the server's attempt. -/
def isReport : AgentOp → Bool
  | .acquire .acceptance none | .release .acceptance | .readSpool | .logLength | .readLog _ _
  | .putLog _ _ _ => true
  | _ => false

/-- A bound that `reconcile` stays within. -/
structure Reports (kept : SpoolRecord → Prop)
    (given : (operation : AgentOp) → operation.Reply → Prop) (allowed : AgentOp → Prop) :
    Prop where
  reports : ∀ operation, isReport operation = true → allowed operation
  finds : ∀ {record}, given .readSpool (.ok record) → kept record
  writes : ∀ {record}, kept record → allowed (.writeSpool record)
  posts : ∀ {record} config, kept record → allowed (.postEvent (Service.eventFor config record))
  hears : ∀ {record latest} config, kept record →
    given (.postEvent (Service.eventFor config record)) (.ok true) → kept latest →
      kept { latest with
        acknowledgedSequence :=
          max latest.acknowledgedSequence (Service.eventFor config record).eventSequence }
  logs : ∀ {latest offset complete}, kept latest →
    kept { latest with logOffset := offset, logCompleteAcknowledged := complete }
  retires : ∀ {record}, kept record → record.readyForCleanup = true → allowed .retireSpool

namespace Reports

variable {config : AgentConfig} (reports : Reports kept given allowed)

include reports

/-- The record that is read. -/
theorem read {next : SpoolRecord → Agent α}
    (rest : ∀ latest, kept latest → KeepsGiven kept given allowed (next latest)) :
    KeepsGiven kept given allowed (do
      let latest ← ofExcept (← perform .readSpool)
      next latest) := by
  refine keepsGiven_perform (reports.reports _ rfl) fun reply told => keepsGiven_unwrap ?_
  rintro latest rfl
  exact rest latest (reports.finds told)

theorem write {next : SpoolRecord} (holds : kept next) :
    KeepsGiven kept given allowed (write next) :=
  keepsGiven_perform (reports.writes holds) fun _ _ => keepsGiven_ofExcept

theorem updateLatest {change : SpoolRecord → SpoolRecord}
    (changes : ∀ latest, kept latest → kept (change latest)) :
    KeepsGiven kept given allowed (Service.updateLatest change) := by
  refine keepsGiven_locked (reports.reports _ rfl) (reports.reports _ rfl) ?_
  refine reports.read fun latest stays => ?_
  exact keepsGiven_bind (reports.write (changes latest stays)) fun _ =>
    keepsGiven_setCopy (changes latest stays)

theorem reconcileEvent : KeepsGiven kept given allowed (Service.reconcileEvent config) := by
  refine keepsGiven_copy fun record holds => keepsGiven_ite (fun _ => ?_) fun _ => keepsGiven_pure
  refine keepsGiven_perform (reports.posts config holds) fun reply told => keepsGiven_unwrap ?_
  rintro (_ | _) rfl
  · exact keepsGiven_pure
  · exact reports.updateLatest fun latest stays => reports.hears config holds told stays

theorem nextChunk {offset length : ℕ} :
    KeepsGiven kept given allowed (Service.nextChunk offset length) := by
  refine keepsGiven_ite (fun _ => keepsGiven_pure) fun _ => ?_
  exact keepsGiven_perform (reports.reports _ rfl) fun _ _ => keepsGiven_ofExcept

theorem reconcileLog : KeepsGiven kept given allowed Service.reconcileLog := by
  refine keepsGiven_perform (reports.reports _ rfl) fun _ _ => keepsGiven_unwrap fun _ _ => ?_
  refine keepsGiven_copy fun record holds => keepsGiven_ite (fun _ => keepsGiven_fail) fun _ => ?_
  refine keepsGiven_ite (fun _ => ?_) fun _ => keepsGiven_pure
  refine keepsGiven_bind reports.nextChunk fun bytes => ?_
  refine keepsGiven_perform (reports.reports _ rfl) fun _ _ => keepsGiven_unwrap ?_
  rintro (_ | header) _
  · exact keepsGiven_pure
  · exact reports.updateLatest fun latest stays => reports.logs stays

theorem retireIfReady : KeepsGiven kept given allowed Service.retireIfReady := by
  refine keepsGiven_copy fun record holds => keepsGiven_ite (fun ready => ?_) fun _ =>
    keepsGiven_pure
  exact keepsGiven_perform (reports.retires holds ready) fun _ _ => keepsGiven_ofExcept

theorem reconcile : KeepsGiven kept given allowed (Service.reconcile config) :=
  keepsGiven_bind reports.reconcileEvent fun _ =>
    keepsGiven_bind reports.reconcileLog fun _ => reports.retireIfReady

/-- `let _ = self.reconcile(..)`. -/
theorem reported {record : SpoolRecord} (holds : kept record) :
    Program.EveryGiven given allowed (fun _ => True)
      (discard ((Service.reconcile config).run record)) :=
  Program.everyGiven_bind.mpr ((reports.reconcile record holds).imp fun _ _ => trivial)

end Reports

/-! ## The tasks -/

/-- What the tasks do next to reading, writing and reporting the record. -/
def isErrand : AgentOp → Bool
  | .acquire _ _ | .release _ | .spoolExists | .now | .synchronized | .activeContains
  | .activeLength | .activeInsert | .activeRemove | .sendCancel | .spoolRecords
  | .gcAndCheckLocked _ _ _ | .setChildSubreaper | .startCapture | .awaitOutcome _
  | .closeProcessGroup _ | .awaitCapture => true
  | _ => false

section Errands

variable {config : AgentConfig} (errands : ∀ operation, isErrand operation = true → allowed operation)

include errands

theorem errands_activeOrFull :
    Program.EveryGiven given allowed (fun _ => True) (Service.activeOrFull config) := by
  refine ⟨errands _ rfl, ?_⟩
  rintro (_ | _) _
  · exact ⟨errands _ rfl, fun _ _ => trivial⟩
  · trivial

theorem errands_checkBounds {publication : Option AtomicPublicationSpec} :
    Program.EveryGiven given allowed (fun _ => True) (Service.checkBounds config publication) := by
  unfold Service.checkBounds
  split
  · trivial
  · split
    · trivial
    · trivial
    · exact ⟨errands _ rfl, fun _ _ => trivial⟩

theorem errands_admitLocked {mirror : String} {publication : Option AtomicPublicationSpec} :
    Program.EveryGiven given allowed (fun _ => True)
      (Service.admitLocked config mirror publication) := by
  have scanned : Program.EveryGiven given allowed (fun _ => True)
      (LzuMirror.perform AgentOp.spoolRecords) :=
    ⟨errands _ rfl, fun _ _ => trivial⟩
  refine Program.everyGiven_bind.mpr (scanned.imp ?_)
  rintro (error | records) _
  · trivial
  dsimp only
  split
  · trivial
  · exact errands_checkBounds errands

theorem errands_publicationAdmission {executionIdentity : Option ExecutionIdentity}
    {spec : ProcessRunSpec} :
    Program.EveryGiven given allowed (fun _ => True)
      (Service.publicationAdmission config executionIdentity spec) := by
  unfold Service.publicationAdmission
  dsimp only
  split
  · trivial
  split
  · trivial
  split
  · trivial
  refine ⟨errands _ rfl, fun _ _ => Program.everyGiven_bind.mpr
    (Program.everyGiven_bind.mpr ((errands_admitLocked errands).imp ?_))⟩
  rintro (error | _) _
  · exact ⟨errands _ rfl, fun _ _ => trivial⟩
  · trivial

theorem errands_admission {executionIdentity : Option ExecutionIdentity} {spec : ProcessRunSpec} :
    Program.EveryGiven given allowed (fun _ => True)
      (Service.admission config executionIdentity spec) := by
  refine Program.everyGiven_ite (fun _ => trivial) fun _ => ?_
  refine Program.everyGiven_bind.mpr ((errands_publicationAdmission errands).imp ?_)
  rintro (error | guard) _ <;> trivial

theorem errands_releaseGuard {guard : Option String} :
    Program.EveryGiven given allowed (fun _ => True) (Service.releaseGuard guard) := by
  rcases guard with _ | mirror
  · trivial
  · exact ⟨errands _ rfl, fun _ _ => trivial⟩

end Errands

/-- A bound that the tasks stay within. -/
structure Serves (kept : SpoolRecord → Prop)
    (given : (operation : AgentOp) → operation.Reply → Prop) (allowed : AgentOp → Prop)
    (names : PublicationState → Prop) (ends : AttemptState → Prop) : Prop
    extends Executes kept allowed names ends, Reports kept given allowed where
  errands : ∀ operation, isErrand operation = true → allowed operation
  rejects : ends .rejected
  runs : ∀ {record time}, kept record → kept (runningRecord record time)
  tombstones : ∀ {runId attempt specHash time},
    kept (.cancellationTombstone runId attempt specHash time)

namespace Serves

variable {names : PublicationState → Prop} {ends : AttemptState → Prop} {config : AgentConfig}
  {record : SpoolRecord} (serves : Serves kept given allowed names ends)

include serves

theorem rejectLocally (holds : kept record) {message : String} :
    Program.EveryGiven given allowed (fun _ => True)
      (Service.rejectLocally config record message) := by
  refine ⟨serves.errands _ rfl, fun time _ => ?_⟩
  have rejected := @serves.concludes record .rejected none (some .rejected) (some message) time
    holds serves.rejects
  refine ⟨serves.toExecutes.writes rejected, ?_⟩
  rintro (error | _) _
  · exact ⟨serves.errands _ rfl, fun _ _ => ⟨serves.errands _ rfl, fun _ _ => trivial⟩⟩
  · refine ⟨serves.errands _ rfl, fun _ _ => ?_⟩
    refine Program.everyGiven_bind.mpr (Program.everyGiven_bind.mpr ?_)
    exact (serves.reported rejected).imp fun _ _ => ⟨serves.errands _ rfl, fun _ _ => trivial⟩

theorem reportEnded (holds : kept record) :
    Program.EveryGiven given allowed (fun _ => True) (Service.reportEnded config record) := by
  refine ⟨serves.errands _ rfl, ?_⟩
  rintro (_ | _) _
  · refine ⟨serves.toExecutes.writes holds, ?_⟩
    rintro (error | _) _
    · exact ⟨serves.errands _ rfl, fun _ _ => trivial⟩
    · exact ⟨serves.errands _ rfl, fun _ _ => serves.reported holds⟩
  · exact ⟨serves.errands _ rfl, fun _ _ => serves.reported holds⟩

theorem requestCancellation (holds : kept record) :
    Program.EveryGiven given allowed (fun _ => True) (Service.requestCancellation record) := by
  refine ⟨serves.toExecutes.writes (serves.merges holds), ?_⟩
  rintro (error | _) _
  · exact ⟨serves.errands _ rfl, fun _ _ => trivial⟩
  · refine ⟨serves.errands _ rfl, fun _ _ => ⟨serves.errands _ rfl, fun present _ => ?_⟩⟩
    refine ⟨serves.errands _ rfl, fun _ _ => ⟨serves.errands _ rfl, fun _ _ => ?_⟩⟩
    rcases present with _ | _
    · trivial
    · exact ⟨serves.errands _ rfl, fun _ _ => trivial⟩

theorem cancelRecord (holds : kept record) {specHash : String} :
    Program.EveryGiven given allowed (fun _ => True)
      (Service.cancelRecord config record specHash) := by
  unfold Service.cancelRecord
  refine Program.everyGiven_ite (fun _ => ⟨serves.errands _ rfl, fun _ _ => trivial⟩) fun _ => ?_
  exact Program.everyGiven_ite (fun _ => serves.reportEnded holds) fun _ =>
    serves.requestCancellation holds

theorem cancel {runId specHash : String} {attempt : ℕ} :
    Program.EveryGiven given allowed (fun _ => True)
      (Service.cancel config runId attempt specHash) := by
  refine ⟨serves.errands _ rfl, fun _ _ => ⟨serves.reads, ?_⟩⟩
  rintro (error | record) told
  · refine ⟨serves.errands _ rfl, ?_⟩
    rintro (_ | _) _
    · exact ⟨serves.errands _ rfl, fun _ _ => serves.cancelRecord serves.tombstones⟩
    · exact ⟨serves.errands _ rfl, fun _ _ => trivial⟩
  · exact serves.cancelRecord (serves.finds told)

theorem normalizeInterrupted (holds : kept record) :
    Program.EveryGiven given allowed kept (Service.normalizeInterrupted record) := by
  refine Program.everyGiven_ite (fun _ => holds) fun _ => ⟨serves.errands _ rfl, fun time _ => ?_⟩
  have ended : kept (if record.cancelRequested then record.terminal .cancelled none none none time
      else record.terminal .interrupted none (some .interrupted)
        (some "agent restarted without terminal result") time) := by
    split
    · exact serves.concludes holds serves.cancels
    · exact serves.concludes holds serves.interrupts
  exact ⟨serves.toExecutes.writes ended, fun _ _ => ended⟩

theorem recover : Program.EveryGiven given allowed (fun _ => True) (Service.recover config) := by
  refine ⟨serves.reads, ?_⟩
  rintro (error | record) told
  · trivial
  have holds := serves.finds told
  refine Program.everyGiven_ite (fun _ => ?_) fun _ => ?_
  · have recovers : KeepsGiven kept given allowed recoverBeforeControlPlane :=
      serves.toPermits.recoverBeforeControlPlane.toGiven
    refine Program.everyGiven_bind.mpr ⟨serves.errands _ rfl, fun _ _ =>
      Program.everyGiven_bind.mpr ((recovers record holds).imp fun recovered stays => ?_)⟩
    refine ⟨serves.errands _ rfl, fun _ _ => ?_⟩
    exact Program.everyGiven_ite (fun _ => serves.reported stays) fun _ => trivial
  · exact Program.everyGiven_bind.mpr ((serves.normalizeInterrupted holds).imp fun _ stays =>
      serves.reported stays)

theorem reconcileAll :
    Program.EveryGiven given allowed (fun _ => True) (Service.reconcileAll config) := by
  refine ⟨serves.reads, ?_⟩
  rintro (error | record) told
  · trivial
  have holds := serves.finds told
  refine Program.everyGiven_ite (fun _ => ?_) fun _ => serves.reported holds
  refine Program.everyGiven_bind.mpr ⟨serves.errands _ rfl, fun _ _ =>
    ⟨serves.errands _ rfl, fun (synchronized : Bool) _ => ?_⟩⟩
  have recovers : Keeps kept allowed
      (if synchronized then Agent.recover else recoverBeforeControlPlane) fun _ => True := by
    split
    · exact serves.toPermits.recover
    · exact serves.toPermits.recoverBeforeControlPlane
  refine Program.everyGiven_bind.mpr (Program.everyGiven_bind.mpr ?_)
  refine (recovers.toGiven record holds).imp fun recovered stays => ?_
  exact ⟨serves.errands _ rfl, fun _ _ => serves.reported stays⟩

/-! ## The executor -/

theorem superviseProcess {spec : ProcessRunSpec} :
    Keeps kept allowed (superviseProcess spec) fun _ => True := by
  have marks : Keeps kept allowed markRunning fun _ => True := by
    refine keeps_bind (keeps_perform (serves.errands _ rfl)) fun _ _ => ?_
    refine keeps_bind keeps_copy fun _ holds => ?_
    refine keeps_bind (keeps_setCopy (serves.runs holds)) fun _ _ => ?_
    exact keeps_locked serves.acquires serves.releases
      (keeps_bind serves.mergeCancellation fun _ _ => serves.toPermits.writeCopy)
  refine keeps_bind (keeps_perform (serves.errands _ rfl)) fun _ _ => ?_
  refine keeps_bind marks fun _ _ => ?_
  refine keeps_bind (keeps_perform (serves.errands _ rfl)) fun outcome _ => ?_
  refine keeps_bind (keeps_perform (serves.errands _ rfl)) fun _ _ => ?_
  exact keeps_bind (keeps_perform (serves.errands _ rfl)) fun _ _ => serves.finishExecution

theorem startProcess {spec : ProcessRunSpec} (spawns : allowed (.spawnProcess spec)) :
    Keeps kept allowed (startProcess spec) fun _ => True := by
  refine keeps_bind (keeps_perform (serves.errands _ rfl)) ?_
  rintro (error | _) _
  · exact serves.persistFailure
  refine keeps_bind (keeps_perform spawns) ?_
  rintro (error | _) _
  · exact serves.persistFailure
  · exact serves.superviseProcess

theorem execute (spawns : ∀ spec, allowed (.spawnProcess spec)) :
    Keeps kept allowed execute fun _ => True := by
  refine keeps_bind keeps_copy fun record _ => ?_
  split
  · exact keeps_pure trivial
  next spec _ =>
    refine keeps_bind (keeps_attempt serves.prepareIfAtomic) ?_
    rintro (error | _) _
    · exact serves.persistFailure
    · exact serves.startProcess (spawns spec)

theorem finishAccepted (holds : kept record) :
    Program.EveryGiven given allowed (fun _ => True) (Service.finishAccepted config record) := by
  refine Program.everyGiven_bind.mpr ((serves.reported holds).imp fun _ _ => ?_)
  refine ⟨serves.errands _ rfl, fun _ _ => ⟨serves.errands _ rfl, fun _ _ => ?_⟩⟩
  exact ⟨serves.errands _ rfl, fun _ _ => trivial⟩

theorem runAccepted (spawns : ∀ spec, allowed (.spawnProcess spec)) (holds : kept record) :
    Program.EveryGiven given allowed (fun _ => True) (Service.runAccepted config record) := by
  refine Program.everyGiven_bind.mpr ((serves.reconcile record holds).imp fun first stays => ?_)
  refine Program.everyGiven_bind.mpr
    (((serves.execute spawns).toGiven first.2 stays).imp fun last ends => ?_)
  exact serves.finishAccepted ends

/-! ## Acceptance -/

theorem startExecution (spawns : allowed (.spawnTask record)) (holds : kept record)
    {guard : Option String} :
    Program.EveryGiven given allowed (fun _ => True) (Service.startExecution record guard) := by
  refine ⟨serves.toExecutes.writes holds, ?_⟩
  rintro (error | _) _
  · refine Program.everyGiven_bind.mpr (Program.everyGiven_bind.mpr
      ((errands_releaseGuard serves.errands).imp fun _ _ => ?_))
    exact ⟨serves.errands _ rfl, fun _ _ => ⟨serves.errands _ rfl, fun _ _ => trivial⟩⟩
  · refine ⟨serves.errands _ rfl, fun _ _ => ⟨serves.errands _ rfl, fun _ _ => ?_⟩⟩
    refine Program.everyGiven_bind.mpr (Program.everyGiven_bind.mpr
      ((errands_releaseGuard serves.errands).imp fun _ _ => ?_))
    exact ⟨spawns, fun _ _ => ⟨serves.errands _ rfl, fun _ _ => trivial⟩⟩

/-- An attempt without a readable record. -/
theorem acceptFresh {runId specHash : String} {attempt : ℕ}
    {executionIdentity : Option ExecutionIdentity} {spec : ProcessRunSpec}
    (accepts : ∀ time, kept (.acceptedWithIdentity runId attempt specHash executionIdentity spec
      time))
    (spawns : ∀ time, allowed (.spawnTask
      (.acceptedWithIdentity runId attempt specHash executionIdentity spec time))) :
    Program.EveryGiven given allowed (fun _ => True)
      (Service.acceptFresh config runId attempt specHash executionIdentity spec) := by
  refine ⟨serves.errands _ rfl, fun _ _ => Program.everyGiven_bind.mpr
    (Program.everyGiven_bind.mpr ((errands_activeOrFull serves.errands).imp ?_))⟩
  rintro (_ | _) _
  · refine Program.everyGiven_bind.mpr ((errands_admission serves.errands).imp ?_)
    rintro (error | guard) _
    · exact ⟨serves.errands _ rfl, fun time _ => serves.rejectLocally (accepts time)⟩
    · exact ⟨serves.errands _ rfl, fun time _ =>
        serves.startExecution (spawns time) (accepts time)⟩
  · exact ⟨serves.errands _ rfl, fun _ _ => ⟨serves.errands _ rfl, fun _ _ => trivial⟩⟩

/-- An attempt whose record was read. -/
theorem acceptExisting {existing : SpoolRecord} (holds : kept existing) {specHash : String}
    {executionIdentity : Option ExecutionIdentity} :
    Program.EveryGiven given allowed (fun _ => True) (do
      LzuMirror.perform (.release .acceptance)
      if existing.specHash ≠ specHash ∨ existing.executionIdentity ≠ executionIdentity then
        pure ()
      else discard ((Service.reconcile config).run existing)) :=
  ⟨serves.errands _ rfl, fun _ _ => Program.everyGiven_ite (fun _ => trivial) fun _ =>
    serves.reported holds⟩

theorem acceptWithIdentity {runId specHash : String} {attempt : ℕ}
    {executionIdentity : Option ExecutionIdentity} {spec : ProcessRunSpec}
    (accepts : ∀ time, kept (.acceptedWithIdentity runId attempt specHash executionIdentity spec
      time))
    (spawns : ∀ time, allowed (.spawnTask
      (.acceptedWithIdentity runId attempt specHash executionIdentity spec time))) :
    Program.EveryGiven given allowed (fun _ => True)
      (Service.acceptWithIdentity config runId attempt specHash executionIdentity spec) := by
  refine ⟨serves.errands _ rfl, fun _ _ => ⟨serves.reads, ?_⟩⟩
  rintro (message | existing) told
  · exact serves.acceptFresh accepts spawns
  · exact serves.acceptExisting (serves.finds told)

end Serves

end Agent

end LzuMirror
