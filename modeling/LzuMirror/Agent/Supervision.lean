import LzuMirror.Agent.Footprint
import LzuMirror.Agent.Tasks

/-!
# The executor among the other tasks

Rules for the critical sections of the tasks. The executor works in two stages:
as long as it has not ended the attempt, every record that was written is
pristine and the spool file stays; the section in which it ends the attempt
leaves a quiet disk behind. `Supervision` says what an invariant has to allow
for that, and `runPrepared_safe` is the executor under such an invariant.
-/

namespace LzuMirror

open Agent

/-- An operation that changes neither the disk nor the holder of the acceptance lock. -/
def AgentOp.IsOutside (operation : AgentOp) : Prop :=
  ∀ (fresh : PathBuf → FileIdentity) (condition : Disk → SpoolRecord → Prop) (task : AgentTask)
    (before : World) (reply : operation.Reply) (after : World),
    World.Step fresh condition task before operation reply after →
      after = before ∨ ∃ lock holder, lock ≠ .acceptance ∧
        after = ⟨before.disk, Function.update before.locks lock holder⟩

/-- `record.cancel_requested |= latest.cancel_requested`. -/
def SpoolRecord.merge (record latest : SpoolRecord) : SpoolRecord :=
  { record with cancelRequested := record.cancelRequested || latest.cancelRequested }

/-- What `mergeCancellation` makes of a copy. -/
def Merged (record : SpoolRecord) (disk : Disk) (copy : SpoolRecord) : Prop :=
  (∃ latest, disk.spool = some latest ∧ copy = record.merge latest) ∨
    disk.spool = none ∧ copy = record

section Rules

variable {fresh : PathBuf → FileIdentity} {condition : Disk → SpoolRecord → Prop}
  {invariant : World → Prop} {quiet : Disk → Prop} {task : AgentTask} {record : SpoolRecord}
  {state : World}

theorem isOutside_of_disk {operation : AgentOp}
    (outside : ∀ fresh condition task before reply after,
      World.Step fresh condition task before operation reply after →
        after.disk = before.disk ∧ after.locks = before.locks) : operation.IsOutside :=
  fun fresh condition task before reply after performed =>
    .inl (World.ext (outside fresh condition task before reply after performed).1
      (outside fresh condition task before reply after performed).2)

theorem isOutside_acquire {lock : AgentLock} (other : lock ≠ .acceptance) :
    (AgentOp.acquire lock none).IsOutside := by
  rintro fresh condition task before reply after ⟨_, _, rfl⟩
  exact .inr ⟨lock, some task, other, rfl⟩

theorem isOutside_release {lock : AgentLock} (other : lock ≠ .acceptance) :
    (AgentOp.release lock).IsOutside := by
  rintro fresh condition task before reply after rfl
  exact .inr ⟨lock, none, other, rfl⟩

theorem AgentOp.IsOutside.step (discipline : Discipline invariant quiet) {operation : AgentOp}
    (outside : operation.IsOutside) {before after : World} {reply : operation.Reply}
    (valid : invariant before)
    (performed : World.Step fresh condition task before operation reply after) :
    (TaskGuarantee task before after ∧ invariant after) ∧ after.disk = before.disk ∧
      after.holder = before.holder := by
  rcases outside _ _ _ _ _ _ performed with rfl | ⟨lock, holder, other, rfl⟩
  · exact ⟨⟨.refl task _, valid⟩, rfl, rfl⟩
  · have same : Function.update before.locks lock holder .acceptance = before.holder :=
      Function.update_of_ne other.symm _ _
    refine ⟨⟨.locks fun _ _ => by rw [same], discipline.locks before lock holder other valid⟩,
      rfl, same⟩

/-- An operation outside keeps what the other tasks cannot change. -/
theorem safe_outside (discipline : Discipline invariant quiet) {operation : AgentOp}
    {assertion : Option AgentTask → Disk → Prop} {post : operation.Reply → World → Prop}
    (outside : operation.IsOutside)
    (stable : ∀ before after : World, assertion before.holder before.disk →
      TaskRely task before after → assertion after.holder after.disk)
    (holds : assertion state.holder state.disk)
    (next : ∀ reply after, assertion after.holder after.disk → post reply after) :
    TaskSafe fresh condition invariant task (perform operation) post state := by
  intro before reply after relied valid performed
  rcases outside.step discipline valid performed with ⟨kept, disk, holder⟩
  refine ⟨kept, next reply after ?_⟩
  rw [disk, holder]
  exact stable state before holds relied

theorem holds_outsideOp (discipline : Discipline invariant quiet) {operation : AgentOp}
    {assertion : Option AgentTask → Disk → Prop}
    {post : Except String operation.Reply → SpoolRecord → World → Prop}
    (outside : operation.IsOutside)
    (stable : ∀ before after : World, assertion before.holder before.disk →
      TaskRely task before after → assertion after.holder after.disk)
    (holds : assertion state.holder state.disk)
    (next : ∀ reply after, assertion after.holder after.disk → post (.ok reply) record after) :
    Holds (taskSetting fresh condition invariant task) (Agent.perform operation) post record
      state :=
  safe_outside discipline outside stable holds next

theorem mergeCancellation_holds (held : state.holder = some task)
    {post : Except String Unit → SpoolRecord → World → Prop}
    (next : ∀ (copy : SpoolRecord) (after : World), state.disk.Retires after.disk →
      after.holder = some task → Merged record after.disk copy → post (.ok ()) copy after) :
    Holds (taskSetting fresh condition invariant task) mergeCancellation post record state := by
  refine holds_bind.mpr (holds_readSpool_holding held fun read retires still => ⟨?_, ?_⟩)
  · intro latest stored
    exact next _ read retires still (.inl ⟨latest, stored, rfl⟩)
  · intro missing _
    exact next record read retires still (.inr ⟨missing, rfl⟩)

theorem writeCopy_holds (held : state.holder = some task)
    {post : Except String Unit → SpoolRecord → World → Prop}
    (pristine : task ≠ .executor → Untouched state.disk.history → record.IsPristine)
    (valid : ∀ (disk : Disk) (locks : AgentLock → Option AgentTask), state.disk.Retires disk →
      locks .acceptance = some task →
        invariant ⟨disk.write record, locks⟩ ∧ post (.ok ()) record ⟨disk.write record, locks⟩) :
    Holds (taskSetting fresh condition invariant task) writeCopy post record state := by
  refine holds_bind.mpr (holds_copy.mpr (then_ok.mpr (holds_discard (holds_attempt.mpr ?_))))
  exact holds_write_holding held pristine valid

theorem terminalNow_holds (held : state.holder = some task) {result : AttemptState}
    {exitCode : Option ℤ} {kind : Option FailureKind} {message : Option String}
    {post : Except String Unit → SpoolRecord → World → Prop}
    (next : ∀ time (after : World), state.disk.Retires after.disk → after.holder = some task →
      post (.ok ()) (record.terminal result exitCode kind message time) after) :
    Holds (taskSetting fresh condition invariant task)
      (terminalNow result exitCode kind message) post record state := by
  refine holds_bind.mpr (holds_outside (fun _ _ _ performed => World.ext performed.1 performed.2)
    (fun before after (holds : state.disk.Retires before.disk ∧ before.holder = some task)
      relied => ?_) ⟨.refl _, held⟩ fun time after holds => ?_)
  · rcases relied.holding holds.2 with ⟨still, retires⟩
    exact ⟨holds.1.trans retires, still⟩
  · exact next time after holds.1 holds.2

/-- A critical section that starts by merging the cancellation flag. -/
theorem holds_section (discipline : Discipline invariant quiet) {body : Agent Unit}
    {closed : Except String Unit → SpoolRecord → Disk → Prop}
    (kept : ∀ result copy before after, closed result copy before → before.Retires after →
      closed result copy after)
    (section_ : ∀ (merged : SpoolRecord) (world : World),
      state.disk.history <:+ world.disk.history →
      (task = .executor → Untouched state.disk.history → Untouched world.disk.history) →
      world.holder = some task → quiet world.disk → Merged record world.disk merged →
        Holds (taskSetting fresh condition invariant task) body
          (fun result copy after => after.holder = some task ∧ quiet after.disk ∧
            closed result copy after.disk) merged world) :
    Holds (taskSetting fresh condition invariant task)
      (locked .acceptance do
        mergeCancellation
        body)
      (fun result copy after => after.holder ≠ some task ∧ closed result copy after.disk) record
      state := by
  refine holds_bind.mpr (holds_acquire discipline fun granted relied _ calm => ?_)
  have held : (granted.acquire task .acceptance).holder = some task := by
    simp [World.holder, World.acquire]
  refine then_ok.mpr (holds_bind.mpr (holds_attempt.mpr (holds_bind.mpr
    (mergeCancellation_holds held fun merged world retires still merges => ?_))))
  refine then_ok.mpr ((section_ merged world (relied.grows.trans retires.grows) ?_ still
    (discipline.retires _ _ calm retires) merges).imp ?_)
  · exact fun executor untouched =>
      retires.untouched_iff.mpr (relied.untouched executor untouched)
  · rintro result copy after ⟨stillHeld, calmAfter, closes⟩
    refine then_ok.mpr (holds_bind.mpr
      (holds_release discipline stillHeld calmAfter fun last retired free => ?_))
    refine then_ok.mpr (holds_ofExcept.mpr ⟨?_, kept result copy _ _ closes retired⟩)
    rw [free]
    simp

/-- Reading the spool without the lock: the record may be out of date at once. -/
theorem safe_readSpool (discipline : Discipline invariant quiet)
    {post : Except String SpoolRecord → World → Prop} (waiting : state.holder ≠ some task)
    (missing : ∀ message (after : World), after.holder ≠ some task →
      post (.error message) after)
    (found : ∀ (read : SpoolRecord) (after : World), Wrote read after.disk.history →
      after.holder ≠ some task → post (.ok read) after) :
    TaskSafe fresh condition invariant task (perform .readSpool) post state := by
  rintro before reply after relied valid ⟨⟨sameDisk, answered⟩, sameLocks⟩
  cases World.ext sameDisk sameLocks
  refine ⟨⟨.refl task before, valid⟩, ?_⟩
  rcases answered with ⟨read, stored, rfl⟩ | ⟨_, message, rfl⟩
  · exact found read before (discipline.wrote before read valid stored) (relied.waiting waiting)
  · exact missing message before (relied.waiting waiting)

/-- `reconcile`, run for its effects. -/
theorem reconcile_safe (discipline : Discipline invariant quiet) {config : AgentConfig}
    (knows : Knows task record state) :
    TaskSafe fresh condition invariant task (discard ((Service.reconcile config).run record))
      (fun _ after => after.holder ≠ some task) state :=
  Program.safe_bind.mpr
    (Program.Safe.imp (reconcile_holds discipline knows) fun _ _ known => known.2)

/-- `reconcile`, and the entry in the map of active runs is dropped. -/
theorem finishAccepted_safe (discipline : Discipline invariant quiet) {config : AgentConfig}
    (knows : Knows task record state) :
    TaskSafe fresh condition invariant task (Service.finishAccepted config record)
      (fun _ after => after.holder ≠ some task) state := by
  have waits : ∀ before after : World, before.holder ≠ some task →
      TaskRely task before after → after.holder ≠ some task :=
    fun _ _ waiting relied => relied.waiting waiting
  refine Program.safe_bind.mpr ((reconcile_safe discipline knows).imp fun _ _ reported => ?_)
  refine Program.safe_bind.mpr (@safe_outside _ _ _ _ _ _ discipline _
    (fun holder _ => holder ≠ some task) _ (isOutside_acquire (by simp)) waits reported
    fun _ _ locked => ?_)
  refine Program.safe_bind.mpr (@safe_outside _ _ _ _ _ _ discipline _
    (fun holder _ => holder ≠ some task) _
    (isOutside_of_disk fun _ _ _ _ _ _ performed => performed) waits locked fun _ _ removed => ?_)
  exact @safe_outside _ _ _ _ _ _ discipline _ (fun holder _ => holder ≠ some task) _
    (isOutside_release (by simp)) waits removed fun _ _ released => released

/-- `reconcile_all`, given what the recovery does with a copy that meets the condition. -/
theorem reconcileAll_safe (discipline : Discipline invariant quiet) {config : AgentConfig}
    {allowed : SpoolRecord → Disk → Prop}
    (allows : ∀ read disk, quiet disk → Wrote read disk.history → condition disk read →
      allowed read disk)
    (kept : ∀ read before after, allowed read before → before.Retires after → allowed read after)
    (recovers : ∀ (synchronized : Bool) (read : SpoolRecord) (world : World),
      Wrote read world.disk.history → read.requiresPublicationRecovery = true →
      world.holder = some task → quiet world.disk → allowed read world.disk →
        Holds (taskSetting fresh condition invariant task)
          (if synchronized then Agent.recover else recoverBeforeControlPlane)
          (fun _ copy after => after.holder = some task ∧ quiet after.disk ∧
            Seen copy after.disk.history) read world)
    (waiting : state.holder ≠ some task) :
    TaskSafe fresh condition invariant task (Service.reconcileAll config)
      (fun _ after => after.holder ≠ some task) state := by
  refine Program.safe_bind.mpr (safe_readSpool discipline waiting (fun _ _ waits => waits)
    fun read found wrote waits => ?_)
  dsimp only
  split
  next required =>
    refine Program.safe_bind.mpr (Program.safe_bind.mpr
      (safe_acquire discipline fun granted relied free calm met => ?_))
    have known := wrote.mono relied.grows
    have permitted := allows read _ calm known (met read rfl)
    refine Program.safe_bind.mpr (@safe_outside _ _ _ _ _ _ discipline _
      (fun holder disk => holder = some task ∧ quiet disk ∧ Wrote read disk.history ∧
        allowed read disk) _ (isOutside_of_disk fun _ _ _ _ _ _ performed => performed)
      ?_ ⟨by simp [World.holder, World.acquire], calm, known, permitted⟩ ?_)
    · rintro before after ⟨held, calmBefore, wrote, allowedBefore⟩ disturbed
      rcases disturbed.holding held with ⟨still, retires⟩
      exact ⟨still, discipline.retires _ _ calmBefore retires, wrote.mono retires.grows,
        kept read _ _ allowedBefore retires⟩
    rintro synchronized world ⟨held, calmWorld, wrote, allowedWorld⟩
    refine Program.safe_bind.mpr (Program.Safe.imp
      (recovers synchronized read world wrote required held calmWorld allowedWorld) ?_)
    rintro ⟨_, copy⟩ after ⟨still, calmAfter, seen⟩
    refine Program.safe_bind.mpr (safe_release discipline still calmAfter
      fun last retires freed => ?_)
    exact reconcile_safe discipline ⟨seen.mono retires.grows, by simp [freed]⟩
  next => exact reconcile_safe discipline ⟨wrote.seen, waits⟩

end Rules

section Executor

variable (fresh : PathBuf → FileIdentity) (condition : Disk → SpoolRecord → Prop)
  (invariant : World → Prop) (quiet : Disk → Prop) (usable : SpoolRecord → Prop)

/-- The first stage of the attempt, seen by the executor while it waits. -/
def FirstStage (holder : Option AgentTask) (disk : Disk) : Prop :=
  Untouched disk.history ∧ holder ≠ some .executor

/-- A section of the executor in the first stage, with `usable` a property of its copies. -/
def Ending (body : Agent Unit) (closed : Except String Unit → SpoolRecord → Disk → Prop) :
    Prop :=
  ∀ (record merged : SpoolRecord) (world : World), usable record →
    world.holder = some .executor → quiet world.disk → Untouched world.disk.history →
    Merged record world.disk merged →
      Holds (taskSetting fresh condition invariant .executor) body
        (fun result copy after => after.holder = some .executor ∧ quiet after.disk ∧
          closed result copy after.disk) merged world

/-- What the executor needs of an invariant. -/
structure Supervision : Prop where
  discipline : Discipline invariant quiet
  running : ∀ record time, usable record → usable (runningRecord record time)
  marks : Ending fresh condition invariant quiet usable writeCopy fun result copy disk =>
    result = .ok () ∧ usable copy ∧ Untouched disk.history
  fails : ∀ kind error, Ending fresh condition invariant quiet usable (recordFailure kind error)
    fun _ copy disk => Seen copy disk.history
  finishes : ∀ outcome, Ending fresh condition invariant quiet usable (finalize outcome)
    fun _ copy disk => Seen copy disk.history

variable {fresh condition invariant quiet usable} {record : SpoolRecord} {state : World}

theorem FirstStage.stable {before after : World}
    (stage : FirstStage before.holder before.disk) (relied : TaskRely .executor before after) :
    FirstStage after.holder after.disk :=
  ⟨relied.untouched rfl stage.1, relied.waiting stage.2⟩

variable (supervision : Supervision fresh condition invariant quiet usable)
  (stage : FirstStage state.holder state.disk)

include supervision stage

/-- The operations of the executor between its critical sections. -/
theorem holds_firstStage {operation : AgentOp}
    {post : Except String operation.Reply → SpoolRecord → World → Prop}
    (outside : operation.IsOutside)
    (next : ∀ reply after, FirstStage after.holder after.disk → post (.ok reply) record after) :
    Holds (taskSetting fresh condition invariant .executor) (Agent.perform operation) post record
      state :=
  holds_outsideOp supervision.discipline outside (fun _ _ => FirstStage.stable) stage next

/-- The section that ends the first stage. -/
theorem Ending.holds {body : Agent Unit}
    (ending : Ending fresh condition invariant quiet usable body fun _ copy disk =>
      Seen copy disk.history) (isUsable : usable record) :
    Holds (taskSetting fresh condition invariant .executor)
      (locked .acceptance do
        mergeCancellation
        body)
      (fun _ copy after => Knows .executor copy after) record state := by
  refine (@holds_section _ _ _ _ _ _ _ supervision.discipline body
    (fun _ copy disk => Seen copy disk.history)
    (fun _ _ _ _ seen retires => seen.mono retires.grows) ?_).imp ?_
  · intro merged world _ untouched held calm merges
    exact ending record merged world isUsable held calm (untouched rfl stage.1) merges
  · rintro _ copy after ⟨free, seen⟩
    exact ⟨seen, free⟩

theorem markRunning_holds (isUsable : usable record) :
    Holds (taskSetting fresh condition invariant .executor) markRunning
      (fun result copy after => result = .ok () ∧ FirstStage after.holder after.disk ∧ usable copy)
      record state := by
  refine holds_bind.mpr (holds_firstStage supervision stage
    (isOutside_of_disk fun _ _ _ _ _ _ performed => performed) fun time waiting waits => ?_)
  refine then_ok.mpr (holds_bind.mpr (holds_copy.mpr (then_ok.mpr (holds_bind.mpr
    (holds_setCopy.mpr (then_ok.mpr ?_))))))
  refine (@holds_section _ _ _ _ _ _ _ supervision.discipline writeCopy
    (fun result copy disk => result = .ok () ∧ usable copy ∧ Untouched disk.history)
    (fun _ _ _ _ holds retires =>
      ⟨holds.1, holds.2.1, retires.untouched_iff.mpr holds.2.2⟩) ?_).imp ?_
  · intro merged world _ untouched held calm merges
    exact supervision.marks _ merged world (supervision.running record time isUsable) held calm
      (untouched rfl waits.1) merges
  · rintro _ copy after ⟨free, ok, usableCopy, untouched⟩
    exact ⟨ok, ⟨untouched, free⟩, usableCopy⟩

theorem superviseProcess_holds {spec : ProcessRunSpec} (isUsable : usable record) :
    Holds (taskSetting fresh condition invariant .executor) (superviseProcess spec)
      (fun _ copy after => Knows .executor copy after) record state := by
  refine holds_bind.mpr (holds_firstStage supervision stage
    (isOutside_of_disk fun _ _ _ _ _ _ performed => performed) fun _ captured captures => ?_)
  refine then_ok.mpr (holds_bind.mpr ((markRunning_holds supervision captures isUsable).imp ?_))
  rintro _ copy started ⟨rfl, starts, usableCopy⟩
  refine then_ok.mpr (holds_bind.mpr (holds_firstStage supervision starts
    (isOutside_of_disk fun _ _ _ _ _ _ performed => performed) fun outcome ended ends => ?_))
  refine then_ok.mpr (holds_bind.mpr (holds_firstStage supervision ends
    (isOutside_of_disk fun _ _ _ _ _ _ performed => performed) fun _ closed closes => ?_))
  refine then_ok.mpr (holds_bind.mpr (holds_firstStage supervision closes
    (isOutside_of_disk fun _ _ _ _ _ _ performed => performed) fun _ last captures => ?_))
  exact Ending.holds supervision captures (supervision.finishes outcome) usableCopy

theorem startProcess_holds {spec : ProcessRunSpec} (isUsable : usable record) :
    Holds (taskSetting fresh condition invariant .executor) (startProcess spec)
      (fun _ copy after => Knows .executor copy after) record state := by
  refine holds_bind.mpr (holds_firstStage supervision stage
    (isOutside_of_disk fun _ _ _ _ _ _ performed => performed) fun answer after waits => ?_)
  rcases answer with error | _
  · exact Ending.holds supervision waits (supervision.fails .process error) isUsable
  refine then_ok.mpr (holds_bind.mpr (holds_firstStage supervision waits
    (isOutside_of_disk fun _ _ _ _ _ _ performed => performed) fun answer after spawned => ?_))
  rcases answer with error | _
  · exact Ending.holds supervision spawned (supervision.fails .process error) isUsable
  · exact superviseProcess_holds supervision spawned isUsable

/-- The spawned task, from the preparation of the candidate on. -/
theorem runPrepared_safe {config : AgentConfig} {spec : ProcessRunSpec}
    (isUsable : usable record) :
    TaskSafe fresh condition invariant .executor (Service.runPrepared config spec record)
      (fun _ after => after.holder ≠ some .executor) state := by
  refine Program.safe_bind.mpr (Program.Safe.imp
    (startProcess_holds supervision stage isUsable) ?_)
  rintro ⟨_, copy⟩ after knows
  exact finishAccepted_safe supervision.discipline knows

end Executor

end LzuMirror
