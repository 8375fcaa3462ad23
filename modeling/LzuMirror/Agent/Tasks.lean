import LzuMirror.Agent.Disk
import LzuMirror.Agent.Service
import LzuMirror.Lib.Interleaving

/-!
# The tasks of one agent

The executor, the background reconciliation and the poll loop of one agent
share the disk and the locks. An operation of a task is an operation of the
disk without faults, or a lock operation; a lock is granted only while nobody
holds it. `condition` restricts the runs that are looked at: it is asked
whenever a task that already has a copy of the record is granted the acceptance
lock.

All tasks follow one discipline, `TaskGuarantee`: the spool file is written only
under the acceptance lock, and retired, which happens without it, only after a
complete log was recorded. Only the executor ends the first stage of an attempt,
in which every record that was written is pristine.
-/

namespace LzuMirror

inductive AgentTask where
  | executor
  | reconciler
  | poller
  deriving DecidableEq, Repr

/-- The disk and who holds which lock. -/
@[ext]
structure World where
  disk : Disk
  locks : AgentLock → Option AgentTask

/-- Who holds the acceptance lock. -/
def World.holder (world : World) : Option AgentTask := world.locks .acceptance

def World.acquire (world : World) (task : AgentTask) (lock : AgentLock) : World :=
  { world with locks := Function.update world.locks lock (some task) }

def World.release (world : World) (lock : AgentLock) : World :=
  { world with locks := Function.update world.locks lock none }

/-- What an operation of a task may do. -/
def World.Step (fresh : PathBuf → FileIdentity) (condition : Disk → SpoolRecord → Prop)
    (task : AgentTask) : Program.Semantics AgentOp AgentOp.Reply World
  | before, .acquire lock copy, _, after =>
      (∀ record, copy = some record → condition before.disk record) ∧
        before.locks lock = none ∧ after = before.acquire task lock
  | before, .release lock, _, after => after = before.release lock
  | before, operation, reply, after =>
      Disk.Step fresh False before.disk operation reply after.disk ∧ after.locks = before.locks

/-- One possible course of events, in which a lock that is held blocks the task. -/
def World.answer (fresh : PathBuf → FileIdentity) (met : Disk → SpoolRecord → Bool)
    (task : AgentTask) (world : World) :
    (operation : AgentOp) → Option (operation.Reply × World)
  | .acquire lock copy =>
      if copy.all (met world.disk) && world.locks lock = none then
        some ((), world.acquire task lock)
      else none
  | .release lock => some ((), world.release lock)
  | operation =>
      some ((world.disk.answer fresh operation).1,
        ⟨(world.disk.answer fresh operation).2, world.locks⟩)

theorem World.step_answer {fresh : PathBuf → FileIdentity}
    {condition : Disk → SpoolRecord → Prop} {met : Disk → SpoolRecord → Bool}
    (meets : ∀ disk record, met disk record = true → condition disk record) (task : AgentTask)
    (before : World) (operation : AgentOp) (reply : operation.Reply) (after : World)
    (answered : before.answer fresh met task operation = some (reply, after)) :
    World.Step fresh condition task before operation reply after := by
  have performs := Disk.step_answer fresh False before.disk operation
  cases operation with
  | acquire lock copy =>
      rw [World.answer, Option.ite_none_right_eq_some, Bool.and_eq_true, decide_eq_true_eq]
        at answered
      rcases answered with ⟨⟨allowed, free⟩, made⟩
      cases made
      refine ⟨?_, free, rfl⟩
      rintro record rfl
      exact meets _ _ allowed
  | release lock =>
      cases answered
      rfl
  | _ =>
      cases answered
      exact ⟨performs, rfl⟩

/-- Every operation of a task is one of the disk; lock operations leave the disk alone. -/
theorem World.Step.disk {fresh : PathBuf → FileIdentity} {condition : Disk → SpoolRecord → Prop}
    {task : AgentTask} {before after : World} {operation : AgentOp} {reply : operation.Reply}
    (performed : World.Step fresh condition task before operation reply after) :
    Disk.Step fresh False before.disk operation reply after.disk := by
  cases operation with
  | acquire lock copy =>
      rcases performed with ⟨_, _, rfl⟩
      rfl
  | release lock =>
      cases performed
      rfl
  | _ => exact performed.1

theorem World.Step.holder {fresh : PathBuf → FileIdentity}
    {condition : Disk → SpoolRecord → Prop} {task : AgentTask} {before after : World}
    {operation : AgentOp} {reply : operation.Reply}
    (performed : World.Step fresh condition task before operation reply after)
    (acquires : ∀ copy, operation ≠ .acquire .acceptance copy)
    (releases : operation ≠ .release .acceptance) : after.holder = before.holder := by
  cases operation with
  | acquire lock copy =>
      rcases performed with ⟨_, _, rfl⟩
      refine Function.update_of_ne ?_ _ _
      rintro rfl
      exact acquires copy rfl
  | release lock =>
      cases performed
      refine Function.update_of_ne ?_ _ _
      rintro rfl
      exact releases rfl
  | _ => exact congrFun performed.2 _

/-- A record that was written to the spool. -/
def Wrote (record : SpoolRecord) (history : List DiskEvent) : Prop :=
  ∃ event ∈ history, event.change = .wrote record

/-- A record of the first stage: not published, not ended, not reported. -/
def SpoolRecord.IsPristine (record : SpoolRecord) : Prop :=
  record.requiresPublicationRecovery = false ∧ record.state.isTerminal = false ∧
    record.logCompleteAcknowledged = false

/-- The first stage of an attempt. -/
def Untouched (history : List DiskEvent) : Prop :=
  ∀ record, Wrote record history → record.IsPristine

/-- The acknowledgement of the whole log was recorded. -/
def Reported (history : List DiskEvent) : Prop :=
  ∃ record, Wrote record history ∧ record.logCompleteAcknowledged = true

/-- A change of the record by `reconcile`. -/
def SpoolRecord.reported (record : SpoolRecord) (sequence offset : ℕ) (complete : Bool) :
    SpoolRecord :=
  { record with
    acknowledgedSequence := sequence
    logOffset := offset
    logCompleteAcknowledged := complete }

/-- A copy that is no further than what was written. -/
structure Seen (record : SpoolRecord) (history : List DiskEvent) : Prop where
  ended : record.state.isTerminal = true → ¬Untouched history
  complete : record.logCompleteAcknowledged = true → Reported history

section History

variable {record : SpoolRecord} {history later : List DiskEvent}

theorem Wrote.mono (wrote : Wrote record history) (grows : history <:+ later) :
    Wrote record later := by
  rcases wrote with ⟨event, listed, change⟩
  exact ⟨event, grows.subset listed, change⟩

theorem Reported.mono (reported : Reported history) (grows : history <:+ later) :
    Reported later := by
  rcases reported with ⟨record, wrote, complete⟩
  exact ⟨record, wrote.mono grows, complete⟩

theorem Untouched.anti (untouched : Untouched later) (grows : history <:+ later) :
    Untouched history :=
  fun record wrote => untouched record (wrote.mono grows)

theorem Wrote.seen (wrote : Wrote record history) : Seen record history where
  ended terminal untouched := by
    rw [(untouched record wrote).2.1] at terminal
    cases terminal
  complete isComplete := ⟨record, wrote, isComplete⟩

theorem SpoolRecord.IsPristine.seen (pristine : record.IsPristine) : Seen record history where
  ended terminal := by simp [pristine.2.1] at terminal
  complete isComplete := by simp [pristine.2.2] at isComplete

theorem Seen.mono (seen : Seen record history) (grows : history <:+ later) :
    Seen record later where
  ended terminal untouched := seen.ended terminal (untouched.anti grows)
  complete isComplete := (seen.complete isComplete).mono grows

theorem Untouched.not_reported (untouched : Untouched history) : ¬Reported history := by
  rintro ⟨record, wrote, complete⟩
  rw [(untouched record wrote).2.2] at complete
  cases complete

theorem wrote_cons_iff {event : DiskEvent} :
    Wrote record (event :: history) ↔ event.change = .wrote record ∨ Wrote record history := by
  simp [Wrote]

theorem wrote_write_iff {disk : Disk} {next : SpoolRecord} :
    Wrote record (disk.write next).history ↔ record = next ∨ Wrote record disk.history := by
  simp [Disk.write, Disk.log, wrote_cons_iff, eq_comm]

theorem untouched_write_iff {disk : Disk} {next : SpoolRecord} :
    Untouched (disk.write next).history ↔ next.IsPristine ∧ Untouched disk.history := by
  simp [Untouched, wrote_write_iff, or_imp, forall_and]

end History

/-- The spool file was neither written nor retired. -/
structure Disk.SameRecords (before after : Disk) : Prop where
  spool : after.spool = before.spool
  wrote : ∀ record, Wrote record after.history ↔ Wrote record before.history

namespace Disk.SameRecords

variable {before after : Disk}

theorem untouched_iff (same : before.SameRecords after) :
    Untouched after.history ↔ Untouched before.history := by
  simp only [Untouched, same.wrote]

theorem reported_iff (same : before.SameRecords after) :
    Reported after.history ↔ Reported before.history := by
  simp only [Reported, same.wrote]

theorem of_step {fresh : PathBuf → FileIdentity} {operation : AgentOp} {reply : operation.Reply}
    (performed : Disk.Step fresh False before operation reply after)
    (writes : ∀ record, operation ≠ .writeSpool record) (retires : operation ≠ .retireSpool) :
    before.SameRecords after := by
  rcases performed.effect with ⟨spool, history, _⟩ | ⟨change, made, history, spool⟩
  · exact ⟨spool, fun _ => by rw [history]⟩
  · have other : (∀ record, change ≠ .wrote record) ∧
        change.spoolAfter before.spool = before.spool := by
      cases operation <;> simp_all [AgentOp.change?] <;> subst made <;>
        simp [DiskChange.spoolAfter]
    refine ⟨spool.trans other.2, fun record => ?_⟩
    rw [history, Disk.log, wrote_cons_iff]
    simp [other.1 record]

end Disk.SameRecords

/-- An operation only adds to the history. -/
theorem Disk.Step.grows {fresh : PathBuf → FileIdentity} {before after : Disk}
    {operation : AgentOp} {reply : operation.Reply}
    (performed : Disk.Step fresh False before operation reply after) :
    before.history <:+ after.history := by
  rcases performed.effect with ⟨_, history, _⟩ | ⟨change, _, history, _⟩
  · exact history ▸ List.suffix_rfl
  · exact history ▸ List.suffix_cons _ _

/-- Another task has retired the file, perhaps. -/
structure Disk.Retires (before after : Disk) : Prop where
  fs : after.fs = before.fs
  spool : after.spool = before.spool ∨ after.spool = none ∧ Reported before.history
  history : ∃ events, after.history = events ++ before.history ∧
    ∀ event ∈ events, event.change = .retired
  still : ¬Reported before.history → after = before

namespace Disk.Retires

variable {before after : Disk}

theorem refl (disk : Disk) : disk.Retires disk :=
  ⟨rfl, .inl rfl, ⟨[], rfl, by simp⟩, fun _ => rfl⟩

theorem grows (retires : before.Retires after) : before.history <:+ after.history := by
  rcases retires.history with ⟨events, history, _⟩
  exact ⟨events, history.symm⟩

theorem wrote_iff (retires : before.Retires after) {record : SpoolRecord} :
    Wrote record after.history ↔ Wrote record before.history := by
  constructor
  · rcases retires.history with ⟨events, history, retired⟩
    rintro ⟨event, listed, change⟩
    rw [history] at listed
    rcases List.mem_append.mp listed with listed | listed
    · rw [retired event listed] at change
      cases change
    · exact ⟨event, listed, change⟩
  · exact fun wrote => wrote.mono retires.grows

theorem reported_iff (retires : before.Retires after) :
    Reported after.history ↔ Reported before.history := by
  simp [Reported, retires.wrote_iff]

theorem untouched_iff (retires : before.Retires after) :
    Untouched after.history ↔ Untouched before.history := by
  simp [Untouched, retires.wrote_iff]

theorem trans {last : Disk} (left : before.Retires after) (right : after.Retires last) :
    before.Retires last where
  fs := right.fs.trans left.fs
  spool := by
    rcases right.spool with same | ⟨gone, reported⟩
    · rw [same]
      exact left.spool
    · exact .inr ⟨gone, left.reported_iff.mp reported⟩
  history := by
    rcases left.history with ⟨first, leftHistory, firstRetired⟩
    rcases right.history with ⟨second, rightHistory, secondRetired⟩
    refine ⟨second ++ first, by rw [rightHistory, leftHistory, List.append_assoc], ?_⟩
    intro event listed
    rcases List.mem_append.mp listed with listed | listed
    · exact secondRetired event listed
    · exact firstRetired event listed
  still unreported := by
    rw [right.still (unreported ∘ left.reported_iff.mp), left.still unreported]

theorem retire {disk : Disk} (reported : Reported disk.history) : disk.Retires disk.retire :=
  ⟨rfl, .inr ⟨rfl, reported⟩, ⟨[_], rfl, by simp⟩, fun unreported => absurd reported unreported⟩

end Disk.Retires

/-- What a task may assume of the others. -/
structure TaskRely (task : AgentTask) (before after : World) : Prop where
  grows : before.disk.history <:+ after.disk.history
  holding : before.holder = some task →
    after.holder = some task ∧ before.disk.Retires after.disk
  waiting : before.holder ≠ some task → after.holder ≠ some task
  untouched : task = .executor → Untouched before.disk.history → Untouched after.disk.history

/-- What a task promises. -/
structure TaskGuarantee (task : AgentTask) (before after : World) : Prop where
  grows : before.disk.history <:+ after.disk.history
  excluded : ∀ other, other ≠ task → before.holder = some other →
    after.holder = some other ∧ before.disk.Retires after.disk
  own : ∀ other, other ≠ task → before.holder ≠ some other → after.holder ≠ some other
  untouched : task ≠ .executor → Untouched before.disk.history → Untouched after.disk.history

theorem TaskRely.refl (task : AgentTask) (world : World) : TaskRely task world world :=
  ⟨List.suffix_rfl, fun holding => ⟨holding, .refl _⟩, fun waiting => waiting,
    fun _ untouched => untouched⟩

theorem TaskRely.trans {task : AgentTask} {first second third : World}
    (left : TaskRely task first second) (right : TaskRely task second third) :
    TaskRely task first third where
  grows := left.grows.trans right.grows
  holding holding := by
    rcases left.holding holding with ⟨still, retires⟩
    rcases right.holding still with ⟨last, retiresLast⟩
    exact ⟨last, retires.trans retiresLast⟩
  waiting waiting := right.waiting (left.waiting waiting)
  untouched executor untouched := right.untouched executor (left.untouched executor untouched)

theorem TaskGuarantee.rely {actor task : AgentTask} {before after : World}
    (different : actor ≠ task) (guaranteed : TaskGuarantee actor before after) :
    TaskRely task before after where
  grows := guaranteed.grows
  holding := guaranteed.excluded task different.symm
  waiting := guaranteed.own task different.symm
  untouched executor := guaranteed.untouched (executor ▸ different)

theorem TaskGuarantee.refl (task : AgentTask) (world : World) : TaskGuarantee task world world :=
  ⟨List.suffix_rfl, fun _ _ held => ⟨held, .refl _⟩, fun _ _ free => free,
    fun _ untouched => untouched⟩

/-- A task that holds the acceptance lock may change the disk. -/
theorem TaskGuarantee.holding {task : AgentTask} {before after : World}
    (held : before.holder = some task) (still : after.holder = some task)
    (grows : before.disk.history <:+ after.disk.history)
    (untouched : task ≠ .executor → Untouched before.disk.history →
      Untouched after.disk.history) :
    TaskGuarantee task before after where
  grows
  excluded other different heldByOther := by
    rw [held, Option.some.injEq] at heldByOther
    exact absurd heldByOther.symm different
  own other different _ := by
    rw [still, ne_eq, Option.some.injEq]
    exact different.symm
  untouched

/-- Lock operations leave the disk alone. -/
theorem TaskGuarantee.locks {task : AgentTask} {before : World}
    {locks : AgentLock → Option AgentTask}
    (own : ∀ other, other ≠ task →
      (before.holder = some other ↔ locks .acceptance = some other)) :
    TaskGuarantee task before ⟨before.disk, locks⟩ where
  grows := List.suffix_rfl
  excluded other different held := ⟨(own other different).mp held, .refl _⟩
  own other different free held := free ((own other different).mpr held)
  untouched _ untouched := untouched

/-- A task in its surroundings. -/
def taskSetting (fresh : PathBuf → FileIdentity) (condition : Disk → SpoolRecord → Prop)
    (invariant : World → Prop) (task : AgentTask) : Setting World where
  step := World.Step fresh condition task
  rely := TaskRely task
  guarantee := TaskGuarantee task
  invariant

/-- The safety of a task in its surroundings. -/
abbrev TaskSafe (fresh : PathBuf → FileIdentity) (condition : Disk → SpoolRecord → Prop)
    (invariant : World → Prop) (task : AgentTask) {α : Type} (program : AgentProgram α)
    (post : α → World → Prop) (state : World) : Prop :=
  program.Safe (World.Step fresh condition task) (TaskRely task) (TaskGuarantee task) invariant
    post state

/--
An invariant with which every task may reconcile. `quiet` is what the disk looks
like while nobody holds the acceptance lock.
-/
structure Discipline (invariant : World → Prop) (quiet : Disk → Prop) : Prop where
  intro : ∀ world : World, quiet world.disk → invariant world
  elim : ∀ world : World, invariant world → world.holder = none → quiet world.disk
  wrote : ∀ (world : World) (record : SpoolRecord), invariant world →
    world.disk.spool = some record → Wrote record world.disk.history
  locks : ∀ (world : World) (lock : AgentLock) (holder : Option AgentTask),
    lock ≠ .acceptance → invariant world →
      invariant ⟨world.disk, Function.update world.locks lock holder⟩
  retire : ∀ world : World, invariant world → Reported world.disk.history →
    invariant ⟨world.disk.retire, world.locks⟩
  retires : ∀ before after : Disk, quiet before → before.Retires after → quiet after
  rewrite : ∀ (before after : Disk) (latest : SpoolRecord) (sequence offset : ℕ)
    (complete : Bool), quiet before → before.spool = some latest → before.Retires after →
      (complete = true → latest.logCompleteAcknowledged = true ∨ ¬Untouched before.history) →
        quiet (after.write (latest.reported sequence offset complete))

section Rules

open Agent

variable {fresh : PathBuf → FileIdentity} {condition : Disk → SpoolRecord → Prop}
  {invariant : World → Prop} {quiet : Disk → Prop} {task : AgentTask} {record : SpoolRecord}
  {state : World}

/-- An operation outside the disk and the locks keeps what the others cannot change. -/
theorem holds_outside {operation : AgentOp} {assertion : World → Prop}
    {post : Except String operation.Reply → SpoolRecord → World → Prop}
    (outside : ∀ before reply after,
      World.Step fresh condition task before operation reply after → after = before)
    (stable : ∀ before after, assertion before → TaskRely task before after → assertion after)
    (holds : assertion state)
    (next : ∀ reply after, assertion after → post (.ok reply) record after) :
    Holds (taskSetting fresh condition invariant task) (Agent.perform operation) post record
      state := by
  refine holds_perform ?_
  intro before reply after relied valid performed
  cases outside before reply after performed
  exact ⟨⟨.refl task before, valid⟩, next reply before (stable _ _ holds relied)⟩

/-- The acceptance lock is granted on a quiet disk. -/
theorem safe_acquire {copy : Option SpoolRecord} {post : Unit → World → Prop}
    (discipline : Discipline invariant quiet)
    (next : ∀ before : World, TaskRely task state before → before.holder = none →
      quiet before.disk → (∀ record, copy = some record → condition before.disk record) →
        post () (before.acquire task .acceptance)) :
    TaskSafe fresh condition invariant task (perform (.acquire .acceptance copy)) post state := by
  rintro before reply after relied valid ⟨met, free, rfl⟩
  have calm := discipline.elim before valid free
  refine ⟨⟨.locks ?_, discipline.intro _ calm⟩, next before relied free calm met⟩
  intro other different
  simp [World.holder, free, different.symm]

/-- The acceptance lock is released on a quiet disk. -/
theorem safe_release {post : Unit → World → Prop} (discipline : Discipline invariant quiet)
    (held : state.holder = some task) (calm : quiet state.disk)
    (next : ∀ after : World, state.disk.Retires after.disk → after.holder = none →
      post () after) :
    TaskSafe fresh condition invariant task (perform (.release .acceptance)) post state := by
  rintro before reply after relied valid rfl
  rcases relied.holding held with ⟨still, retires⟩
  have calmBefore := discipline.retires _ _ calm retires
  refine ⟨⟨.locks ?_, discipline.intro _ calmBefore⟩, next _ retires ?_⟩
  · intro other different
    have notOther : before.holder ≠ some other := by
      rw [still, ne_eq, Option.some.injEq]
      exact different.symm
    simp [notOther]
  · simp [World.holder, World.release]

theorem holds_acquire {post : Except String Unit → SpoolRecord → World → Prop}
    (discipline : Discipline invariant quiet)
    (next : ∀ before : World, TaskRely task state before → before.holder = none →
      quiet before.disk → post (.ok ()) record (before.acquire task .acceptance)) :
    Holds (taskSetting fresh condition invariant task)
      (Agent.perform (.acquire .acceptance none)) post record state :=
  @safe_acquire fresh condition _ _ _ _ none _ discipline fun before relied free calm _ =>
    next before relied free calm

theorem holds_release {post : Except String Unit → SpoolRecord → World → Prop}
    (discipline : Discipline invariant quiet) (held : state.holder = some task)
    (calm : quiet state.disk)
    (next : ∀ after : World, state.disk.Retires after.disk → after.holder = none →
      post (.ok ()) record after) :
    Holds (taskSetting fresh condition invariant task)
      (Agent.perform (.release .acceptance)) post record state :=
  @safe_release fresh condition _ _ _ _ _ discipline held calm next

/-- Reading the spool under the lock. -/
theorem safe_readSpool_holding {post : Except String SpoolRecord → World → Prop}
    (held : state.holder = some task)
    (next : ∀ after : World, state.disk.Retires after.disk → after.holder = some task →
      (∀ latest, after.disk.spool = some latest → post (.ok latest) after) ∧
        (after.disk.spool = none → ∀ message, post (.error message) after)) :
    TaskSafe fresh condition invariant task (perform .readSpool) post state := by
  rintro before reply after relied valid ⟨⟨sameDisk, answered⟩, sameLocks⟩
  cases World.ext sameDisk sameLocks
  rcases relied.holding held with ⟨still, retires⟩
  refine ⟨⟨.refl task before, valid⟩, ?_⟩
  rcases answered with ⟨latest, stored, rfl⟩ | ⟨missing | faulty, message, rfl⟩
  · exact (next before retires still).1 latest stored
  · exact (next before retires still).2 missing message
  · exact faulty.elim

theorem holds_readSpool_holding
    {post : Except String (Except String SpoolRecord) → SpoolRecord → World → Prop}
    (held : state.holder = some task)
    (next : ∀ after : World, state.disk.Retires after.disk → after.holder = some task →
      (∀ latest, after.disk.spool = some latest → post (.ok (.ok latest)) record after) ∧
        (after.disk.spool = none → ∀ message, post (.ok (.error message)) record after)) :
    Holds (taskSetting fresh condition invariant task) (Agent.perform .readSpool) post record
      state :=
  @safe_readSpool_holding fresh condition _ _ _ _ held next

/-- A write under the lock. -/
theorem safe_writeSpool_holding {next : SpoolRecord} {post : Except String Unit → World → Prop}
    (held : state.holder = some task)
    (pristine : task ≠ .executor → Untouched state.disk.history → next.IsPristine)
    (valid : ∀ (disk : Disk) (locks : AgentLock → Option AgentTask), state.disk.Retires disk →
      locks .acceptance = some task →
        invariant ⟨disk.write next, locks⟩ ∧ post (.ok ()) ⟨disk.write next, locks⟩) :
    TaskSafe fresh condition invariant task (perform (.writeSpool next)) post state := by
  rintro before reply ⟨disk, locks⟩ relied _ ⟨attempted, sameLocks⟩
  rcases relied.holding held with ⟨still, retires⟩
  rcases attempted with ⟨_, rfl, effect⟩ | ⟨impossible, _⟩ | ⟨faulty, _⟩
  · cases effect
    cases sameLocks
    rcases valid before.disk before.locks retires still with ⟨kept, reached⟩
    refine ⟨⟨.holding still still (List.suffix_cons _ _) ?_, kept⟩, reached⟩
    intro notExecutor untouched
    refine untouched_write_iff.mpr ⟨pristine notExecutor (retires.untouched_iff.mp untouched),
      untouched⟩
  · exact absurd trivial impossible
  · exact faulty.elim

theorem holds_write_holding {next : SpoolRecord}
    {post : Except String Unit → SpoolRecord → World → Prop}
    (held : state.holder = some task)
    (pristine : task ≠ .executor → Untouched state.disk.history → next.IsPristine)
    (valid : ∀ (disk : Disk) (locks : AgentLock → Option AgentTask), state.disk.Retires disk →
      locks .acceptance = some task →
        invariant ⟨disk.write next, locks⟩ ∧ post (.ok ()) record ⟨disk.write next, locks⟩) :
    Holds (taskSetting fresh condition invariant task) (Agent.write next) post record state :=
  holds_bind.mpr (@safe_writeSpool_holding fresh condition _ _ _ _
    (fun reply after => Then (taskSetting fresh condition invariant task) ofExcept post
      (.ok reply) record after) held pristine valid)

/-- What a task that does not hold the lock keeps knowing about its copy. -/
def Knows (task : AgentTask) (record : SpoolRecord) (world : World) : Prop :=
  Seen record world.disk.history ∧ world.holder ≠ some task

theorem Knows.stable {before after : World} (knows : Knows task record before)
    (relied : TaskRely task before after) : Knows task record after :=
  ⟨knows.1.mono relied.grows, relied.waiting knows.2⟩

/-- `reconcile`'s changes of the latest record keep the discipline. -/
theorem updateLatest_holds (discipline : Discipline invariant quiet)
    {change : SpoolRecord → SpoolRecord} (knows : Knows task record state)
    (reports : ∀ latest, ∃ sequence offset complete,
      change latest = latest.reported sequence offset complete ∧
        (complete = true → latest.logCompleteAcknowledged = true ∨
          ¬Untouched state.disk.history)) :
    Holds (taskSetting fresh condition invariant task) (Service.updateLatest change)
      (fun _ copy after => Knows task copy after) record state := by
  unfold Service.updateLatest locked
  refine holds_bind.mpr (holds_acquire discipline fun granted relied free calm => ?_)
  have known := knows.stable relied
  have held : (granted.acquire task .acceptance).holder = some task := by
    simp [World.holder, World.acquire]
  refine then_ok.mpr (holds_bind.mpr (holds_attempt.mpr (holds_bind.mpr
    (holds_readSpool_holding held fun read retires stillHeld => ⟨fun latest stored => ?_, ?_⟩))))
  · refine then_ok.mpr (holds_bind.mpr (holds_ofExcept.mpr (then_ok.mpr ?_)))
    rcases reports latest with ⟨sequence, offset, complete, changed, allowed⟩
    have calmRead := discipline.retires _ _ calm retires
    have seenLatest := discipline.wrote read latest (discipline.intro read calmRead) stored
    have completes : complete = true → latest.logCompleteAcknowledged = true ∨
        ¬Untouched read.disk.history := by
      intro isComplete
      rcases allowed isComplete with already | touched
      · exact .inl already
      · refine .inr fun untouched => touched (untouched.anti ?_)
        exact relied.grows.trans retires.grows
    rw [changed]
    refine holds_bind.mpr (holds_write_holding stillHeld ?_ fun disk locks retired holds => ?_)
    · intro _ untouched
      have pristine := untouched latest seenLatest
      refine ⟨pristine.1, pristine.2.1, ?_⟩
      change complete = false
      by_contra isComplete
      rw [Bool.not_eq_false] at isComplete
      rcases completes isComplete with already | touched
      · rw [pristine.2.2] at already
        cases already
      · exact touched untouched
    · have rewritten := discipline.rewrite read.disk disk latest sequence offset complete calmRead
        stored retired completes
      refine ⟨discipline.intro _ rewritten, then_ok.mpr (holds_setCopy.mpr ?_)⟩
      refine then_ok.mpr (holds_bind.mpr ?_)
      refine holds_release discipline (by exact holds) rewritten fun after final freed => ?_
      refine then_ok.mpr (holds_ofExcept.mpr ⟨?_, by simp [freed]⟩)
      exact ((wrote_write_iff.mpr (.inl rfl)).mono final.grows).seen
  · intro missing message
    refine then_ok.mpr (holds_bind.mpr (holds_ofExcept.mpr (then_error.mpr ?_)))
    refine then_ok.mpr (holds_bind.mpr (holds_release discipline stillHeld
      (discipline.retires _ _ calm retires) fun after final freed => ?_))
    exact then_ok.mpr (holds_ofExcept.mpr
      ⟨(known.1.mono retires.grows).mono final.grows, by simp [freed]⟩)

theorem reconcileEvent_holds (discipline : Discipline invariant quiet) {config : AgentConfig}
    (knows : Knows task record state) :
    Holds (taskSetting fresh condition invariant task) (Service.reconcileEvent config)
      (fun _ copy after => Knows task copy after) record state := by
  unfold Service.reconcileEvent
  refine holds_bind.mpr (holds_copy.mpr (then_ok.mpr ?_))
  split
  · refine holds_bind.mpr (holds_outside (fun _ _ _ performed => World.ext performed.1 performed.2)
      (fun _ _ => Knows.stable) knows fun answer after known => ?_)
    refine then_ok.mpr (holds_bind.mpr (holds_ofExcept.mpr ?_))
    rcases answer with message | accepted
    · exact known
    refine then_ok.mpr ?_
    split
    · refine updateLatest_holds discipline known fun latest => ?_
      exact ⟨_, latest.logOffset, latest.logCompleteAcknowledged, rfl, .inl⟩
    · exact known
  · exact knows

theorem nextChunk_holds {offset length : ℕ} (knows : Knows task record state) :
    Holds (taskSetting fresh condition invariant task) (Service.nextChunk offset length)
      (fun _ copy after => copy = record ∧ Knows task record after) record state := by
  unfold Service.nextChunk
  split
  · exact ⟨rfl, knows⟩
  · refine holds_bind.mpr (holds_outside (fun _ _ _ performed => World.ext performed.1 performed.2)
      (fun _ _ => Knows.stable) knows fun answer after known => ?_)
    exact then_ok.mpr (holds_ofExcept.mpr ⟨rfl, known⟩)

theorem reconcileLog_holds (discipline : Discipline invariant quiet)
    (knows : Knows task record state) :
    Holds (taskSetting fresh condition invariant task) Service.reconcileLog
      (fun _ copy after => Knows task copy after) record state := by
  unfold Service.reconcileLog
  refine holds_bind.mpr (holds_outside (fun _ _ _ performed => World.ext performed.1 performed.2)
    (fun _ _ => Knows.stable) knows fun answer middle known => ?_)
  refine then_ok.mpr (holds_bind.mpr (holds_ofExcept.mpr ?_))
  rcases answer with message | length
  · exact known
  refine then_ok.mpr (holds_bind.mpr (holds_copy.mpr (then_ok.mpr ?_)))
  split
  · exact known
  split
  · refine holds_bind.mpr ((nextChunk_holds known).imp ?_)
    rintro (message | bytes) copy after ⟨rfl, stillKnown⟩
    · exact stillKnown
    refine then_ok.mpr (holds_bind.mpr (holds_outside
      (fun _ _ _ performed => World.ext performed.1 performed.2) (fun _ _ => Knows.stable)
      stillKnown fun answer last lastKnown => ?_))
    refine then_ok.mpr (holds_bind.mpr (holds_ofExcept.mpr ?_))
    rcases answer with message | header
    · exact lastKnown
    rcases header with _ | header
    · exact lastKnown
    refine then_ok.mpr (updateLatest_holds discipline lastKnown fun latest => ?_)
    refine ⟨latest.acknowledgedSequence, _, _, rfl, fun complete => ?_⟩
    -- the log is completed only by a copy that has ended
    rcases Bool.or_eq_true_iff.mp complete with already | final
    · exact .inl already
    · exact .inr (lastKnown.1.ended (Bool.and_eq_true_iff.mp final).1)
  · exact known

theorem retireIfReady_holds (discipline : Discipline invariant quiet)
    (knows : Knows task record state) :
    Holds (taskSetting fresh condition invariant task) Service.retireIfReady
      (fun _ copy after => Knows task copy after) record state := by
  unfold Service.retireIfReady
  refine holds_bind.mpr (holds_copy.mpr (then_ok.mpr ?_))
  split
  next ready =>
    have complete : record.logCompleteAcknowledged = true := by
      simp only [SpoolRecord.readyForCleanup, Bool.and_eq_true] at ready
      exact ready.2
    refine holds_bind.mpr (holds_perform ?_)
    rintro before reply ⟨disk, locks⟩ relied valid ⟨attempted, sameLocks⟩
    have known := knows.stable relied
    have reported : Reported before.disk.history := known.1.complete complete
    cases sameLocks
    rcases attempted with ⟨_, rfl, effect⟩ | ⟨_, ⟨message, rfl⟩, effect⟩ | ⟨faulty, _⟩
    · cases effect
      refine ⟨⟨?_, discipline.retire before valid reported⟩, ?_⟩
      · exact {
          grows := List.suffix_cons _ _
          excluded := fun other _ held => ⟨held, .retire reported⟩
          own := fun other _ free => free
          untouched := fun _ untouched => absurd reported untouched.not_reported }
      · exact then_ok.mpr ⟨known.1.mono (List.suffix_cons _ _), known.2⟩
    · cases effect
      exact ⟨⟨.refl task before, valid⟩, then_ok.mpr known⟩
    · exact faulty.elim
  next => exact knows

/-- `reconcile` keeps the discipline, whatever the server answers. -/
theorem reconcile_holds (discipline : Discipline invariant quiet) {config : AgentConfig}
    (knows : Knows task record state) :
    Holds (taskSetting fresh condition invariant task) (Service.reconcile config)
      (fun _ copy after => Knows task copy after) record state := by
  unfold Service.reconcile
  refine holds_bind.mpr ((reconcileEvent_holds discipline knows).imp ?_)
  rintro (message | _) copy after known
  · exact known
  refine then_ok.mpr (holds_bind.mpr ((reconcileLog_holds discipline known).imp ?_))
  rintro (message | _) copy after stillKnown
  · exact stillKnown
  exact then_ok.mpr (retireIfReady_holds discipline stillKnown)

end Rules

end LzuMirror
