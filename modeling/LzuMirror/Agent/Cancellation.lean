import LzuMirror.Agent.Heeding
import LzuMirror.Agent.Irrevocable

/-!
# A cancellation in time wins

The executor, `cancel`, the background reconciliation and crashes with the
recovery after a restart, interleaved in any way. A cancellation that is durable
before the visibility rename prevents the rename and keeps its flag, provided
`reconcile_all` is never granted the lock for a copy that was read before the
cancellation. Without the proviso the rename happens: the copy does not have
the flag, and nothing is read again under the lock.
-/

namespace LzuMirror

namespace Namespace

open Agent

variable {ns : Namespace} {fresh : PathBuf → FileIdentity}
  {condition : Disk → SpoolRecord → Prop} {config : AgentConfig} {task : AgentTask}
  {record : SpoolRecord} {world : World}

/-- A task that holds the lock with a record it is about to write or to report. -/
structure Bearing (ns : Namespace) (task : AgentTask) (record : SpoolRecord)
    (holder : Option AgentTask) (disk : Disk) : Prop where
  held : holder = some task
  heeds : ns.Heeds disk
  minds : ns.Minds record disk
  named : ns.Named record
  seen : Seen record disk.history

theorem Bearing.stable {before after : World}
    (bearing : ns.Bearing task record before.holder before.disk)
    (relied : TaskRely task before after) :
    ns.Bearing task record after.holder after.disk := by
  rcases relied.holding bearing.held with ⟨still, retires⟩
  exact ⟨still, (bearing.heeds.retired retires).1, bearing.minds.retired bearing.heeds retires,
    bearing.named, bearing.seen.mono relied.grows⟩

section Cancel

/-- The lock is released, and the record is reported. -/
theorem Bearing.report_safe (bearing : ns.Bearing task record world.holder world.disk) :
    TaskSafe fresh condition (fun world => ns.Heeds world.disk) task
      (do
        perform (.release .acceptance)
        discard ((Service.reconcile config).run record))
      (fun _ after => after.holder ≠ some task) world := by
  refine Program.safe_bind.mpr (safe_release (heeding_discipline ns) bearing.held bearing.heeds
    fun after retires freed => ?_)
  exact reconcile_safe (heeding_discipline ns)
    ⟨bearing.seen.mono retires.grows, by simp [freed]⟩

theorem release_heeding (held : world.holder = some task) (heeds : ns.Heeds world.disk) :
    TaskSafe fresh condition (fun world => ns.Heeds world.disk) task
      (perform (.release .acceptance)) (fun _ after => after.holder ≠ some task) world :=
  safe_release (heeding_discipline ns) held heeds fun _ _ freed => by simp [freed]

theorem reportEnded_safe (bearing : ns.Bearing task record world.holder world.disk)
    (ended : record.state.isTerminal = true) :
    TaskSafe fresh condition (fun world => ns.Heeds world.disk) task
      (Service.reportEnded config record) (fun _ after => after.holder ≠ some task) world := by
  refine Program.safe_bind.mpr (safe_outside (heeding_discipline ns)
    (isOutside_of_disk fun _ _ _ _ _ _ performed => ⟨performed.1.1, performed.2⟩)
    (fun _ _ => Bearing.stable) bearing fun present seen bears => ?_)
  split
  · exact bears.report_safe
  refine Program.safe_bind.mpr (safe_writeSpool_holding bears.held ?_ ?_)
  · exact fun _ untouched => absurd untouched (bears.seen.ended ended)
  intro disk locks retires still
  have heeds := (bears.heeds.retired retires).1
  have minds := bears.minds.retired bears.heeds retires
  have written := heeds.write bears.named minds
  refine ⟨written, ?_⟩
  have bearsWritten : ns.Bearing task record (World.holder ⟨disk.write record, locks⟩)
      (disk.write record) :=
    ⟨still, written, minds.write, bears.named, (wrote_write_iff.mpr (.inl rfl)).seen⟩
  exact bearsWritten.report_safe

theorem requestCancellation_safe (held : world.holder = some .poller)
    (heeds : ns.Heeds world.disk) (wrote : Wrote record world.disk.history) :
    TaskSafe fresh condition (fun world => ns.Heeds world.disk) .poller
      (Service.requestCancellation record) (fun _ after => after.holder ≠ some .poller)
      world := by
  have holding : ∀ before after : World,
      before.holder = some .poller ∧ ns.Heeds before.disk → TaskRely .poller before after →
        after.holder = some .poller ∧ ns.Heeds after.disk := by
    rintro before after ⟨heldBefore, heedsBefore⟩ relied
    rcases relied.holding heldBefore with ⟨still, retires⟩
    exact ⟨still, (heedsBefore.retired retires).1⟩
  refine Program.safe_bind.mpr (safe_writeSpool_holding held ?_ ?_)
  · exact fun _ untouched => untouched record wrote
  intro disk locks retires still
  have named : ns.Named { record with cancelRequested := true } :=
    (heeds.named record wrote).congr rfl rfl rfl
  have written := (heeds.retired retires).1.write named fun _ => rfl
  refine ⟨written, ?_⟩
  refine Program.safe_bind.mpr (@safe_outside _ _ _ _ _ _ (heeding_discipline ns) _
    (fun holder disk => holder = some .poller ∧ ns.Heeds disk) _ (isOutside_acquire (by simp))
    holding ⟨still, written⟩ fun _ _ locked => ?_)
  refine Program.safe_bind.mpr (@safe_outside _ _ _ _ _ _ (heeding_discipline ns) _
    (fun holder disk => holder = some .poller ∧ ns.Heeds disk) _
    (isOutside_of_disk fun _ _ _ _ _ _ performed => performed) holding locked
    fun present _ looked => ?_)
  refine Program.safe_bind.mpr (@safe_outside _ _ _ _ _ _ (heeding_discipline ns) _
    (fun holder disk => holder = some .poller ∧ ns.Heeds disk) _ (isOutside_release (by simp))
    holding looked fun _ _ unlocked => ?_)
  refine Program.safe_bind.mpr ((release_heeding unlocked.1 unlocked.2).imp fun _ _ freed => ?_)
  cases present with
  | false => exact freed
  | true =>
      exact @safe_outside _ _ _ _ _ _ (heeding_discipline ns) _
        (fun holder _ => holder ≠ some .poller) _
        (isOutside_of_disk fun _ _ _ _ _ _ performed => performed)
        (fun _ _ waiting relied => relied.waiting waiting) freed fun _ _ sent => sent

theorem cancelRecord_safe {specHash : String}
    (bearing : ns.Bearing .poller record world.holder world.disk)
    (wrote : record.state.isTerminal = false → Wrote record world.disk.history) :
    TaskSafe fresh condition (fun world => ns.Heeds world.disk) .poller
      (Service.cancelRecord config record specHash)
      (fun _ after => after.holder ≠ some .poller) world := by
  by_cases conflict : record.specHash ≠ specHash
  · have chosen : Service.cancelRecord config record specHash =
        perform (.release .acceptance) := if_pos conflict
    rw [chosen]
    exact release_heeding bearing.held bearing.heeds
  by_cases ended : record.state.isTerminal = true
  · have chosen : Service.cancelRecord config record specHash =
        Service.reportEnded config record := (if_neg conflict).trans (if_pos ended)
    rw [chosen]
    exact reportEnded_safe bearing ended
  · have chosen : Service.cancelRecord config record specHash =
        Service.requestCancellation record := (if_neg conflict).trans (if_neg ended)
    rw [chosen]
    exact requestCancellation_safe bearing.held bearing.heeds
      (wrote (Bool.eq_false_iff.mpr ended))

/-- `cancel` heeds earlier cancellations as well. -/
theorem cancel_heeding {runId specHash : String} {attempt : ℕ} :
    TaskSafe fresh condition (fun world => ns.Heeds world.disk) .poller
      (Service.cancel config runId attempt specHash)
      (fun _ after => after.holder ≠ some .poller) world := by
  refine Program.safe_bind.mpr (safe_acquire (heeding_discipline ns)
    fun granted relied free heeds _ => ?_)
  have held : (granted.acquire .poller .acceptance).holder = some .poller := by
    simp [World.holder, World.acquire]
  refine Program.safe_bind.mpr (safe_readSpool_holding held fun read retires still => ⟨?_, ?_⟩)
  · intro latest durable
    have heedsRead : ns.Heeds read.disk := (heeds.retired retires).1
    have wrote := heedsRead.stored latest durable
    exact cancelRecord_safe ⟨still, heedsRead, heedsRead.minds durable,
      heedsRead.named latest wrote, wrote.seen⟩ fun _ => wrote
  · intro missing message
    have heedsRead : ns.Heeds read.disk := (heeds.retired retires).1
    have gone : read.disk.spool = none ∧ ¬Untouched read.disk.history :=
      ⟨missing, fun untouched => heedsRead.present untouched missing⟩
    dsimp only
    have holding : ∀ before after : World,
        (before.holder = some .poller ∧ ns.Heeds before.disk ∧
          ¬Untouched before.disk.history) → TaskRely .poller before after →
        after.holder = some .poller ∧ ns.Heeds after.disk ∧ ¬Untouched after.disk.history := by
      rintro before after ⟨heldBefore, heedsBefore, staged⟩ relied
      rcases relied.holding heldBefore with ⟨stillHeld, retired⟩
      exact ⟨stillHeld, (heedsBefore.retired retired).1, mt retired.untouched_iff.mp staged⟩
    refine Program.safe_bind.mpr (@safe_outside _ _ _ _ _ _ (heeding_discipline ns) _
      (fun holder disk => holder = some .poller ∧ ns.Heeds disk ∧ ¬Untouched disk.history) _
      (isOutside_of_disk fun _ _ _ _ _ _ performed => ⟨performed.1.1, performed.2⟩) holding
      ⟨still, heedsRead, gone.2⟩ fun present _ looked => ?_)
    cases present with
    | true => exact release_heeding looked.1 looked.2.1
    | false => ?_
    refine Program.safe_bind.mpr (@safe_outside _ _ _ _ _ _ (heeding_discipline ns) _
      (fun holder disk => holder = some .poller ∧ ns.Heeds disk ∧ ¬Untouched disk.history) _
      (isOutside_of_disk fun _ _ _ _ _ _ performed => performed) holding looked
      fun time _ timed => ?_)
    refine cancelRecord_safe ⟨timed.1, timed.2.1, fun _ => rfl, .inl rfl, ?_⟩ ?_
    · exact ⟨fun _ => timed.2.2, by rintro ⟨⟩⟩
    · rintro ⟨⟩

end Cancel

section Boot

/-- Safety of a program that runs alone after a restart. -/
abbrev BootSafe (ns : Namespace) (fresh : PathBuf → FileIdentity)
    (condition : Disk → SpoolRecord → Prop) {α : Type} (program : AgentProgram α)
    (post : α → World → Prop) (state : World) : Prop :=
  program.Safe (World.Step fresh condition .reconciler) Eq (fun _ _ => True)
    (fun world => ns.Heeds world.disk) post state

/-- A task that is safe among others is safe alone. -/
theorem bootSafe_of_taskSafe {α : Type} {program : AgentProgram α} {post : α → World → Prop}
    (safe : TaskSafe fresh condition (fun world => ns.Heeds world.disk) .reconciler program post
      world) : ns.BootSafe fresh condition program post world := by
  refine Program.Safe.mono safe ?_ ?_ ?_ ?_
  · rintro before _ rfl
    exact .refl .reconciler before
  · exact fun _ _ _ _ _ performed => performed
  · exact fun _ _ _ _ _ => trivial
  · exact fun _ _ holds => holds

theorem reconcile_boot (seen : Seen record world.disk.history)
    (free : world.holder ≠ some .reconciler) :
    ns.BootSafe fresh condition (discard ((Service.reconcile config).run record))
      (fun _ _ => True) world :=
  (bootSafe_of_taskSafe (reconcile_safe (heeding_discipline ns) ⟨seen, free⟩)).imp
    fun _ _ _ => trivial

theorem reconcileEnded_boot (seen : Seen record world.disk.history)
    (free : world.holder ≠ some .reconciler) :
    ns.BootSafe fresh condition
      (if record.state.isTerminal then discard ((Service.reconcile config).run record)
        else pure ()) (fun _ _ => True) world := by
  split
  · exact reconcile_boot seen free
  · exact trivial

theorem recoverPublication_boot (heeds : ns.Heeds world.disk)
    (durable : world.disk.spool = some record)
    (required : record.requiresPublicationRecovery = true) :
    ns.BootSafe fresh condition (Service.recoverPublication config record) (fun _ _ => True)
      world := by
  have wrote := heeds.stored record durable
  have owns : ns.Owns record record := by
    refine (heeds.named record wrote).resolve_left fun missing => ?_
    simp [SpoolRecord.requiresPublicationRecovery, missing] at required
  refine Program.safe_bind.mpr ?_
  rintro _ _ _ rfl _ ⟨_, _, rfl⟩
  refine ⟨⟨trivial, heeds⟩, ?_⟩
  have minding : ns.Minding .reconciler record (world.acquire .reconciler .acceptance) := by
    refine ⟨?_, heeds, heeds.minds durable, wrote.seen, fun _ untouched => ?_⟩
    · simp [World.holder, World.acquire]
    · rw [(untouched record wrote).1] at required
      cases required
  refine Program.safe_bind.mpr ((bootSafe_of_taskSafe
    (minding.safe ((ns.permits record).recoverBeforeControlPlane record owns))).imp ?_)
  rintro ⟨_, copy⟩ recovered ⟨⟨ownsCopy, _⟩, later⟩
  refine Program.safe_bind.mpr ?_
  rintro _ _ _ rfl _ rfl
  refine ⟨⟨trivial, later.heeds⟩, reconcileEnded_boot ⟨fun _ => ?_, fun complete => ?_⟩ ?_⟩
  · exact later.staged (by simp)
  · exact later.seen.complete (ownsCopy.complete ▸ complete)
  · simp [World.holder, World.release]

theorem normalizeInterrupted_boot (heeds : ns.Heeds world.disk)
    (durable : world.disk.spool = some record) :
    ns.BootSafe fresh condition (Service.normalizeInterrupted record)
      (fun copy after => Wrote copy after.disk.history ∧ after.locks = world.locks) world := by
  have wrote := heeds.stored record durable
  unfold Service.normalizeInterrupted
  split
  · exact ⟨wrote, rfl⟩
  refine Program.safe_bind.mpr ?_
  rintro _ time now rfl _ ⟨sameDisk, sameLocks⟩
  cases World.ext sameDisk sameLocks
  refine ⟨⟨trivial, heeds⟩, ?_⟩
  have ends : ∀ ended : SpoolRecord, ended.runId = record.runId →
      ended.attempt = record.attempt → ended.publication = record.publication →
      ended.cancelRequested = record.cancelRequested →
        ns.BootSafe fresh condition
          (do
            discard (perform (.writeSpool ended))
            pure ended)
          (fun copy after => Wrote copy after.disk.history ∧ after.locks = world.locks)
          world := by
    intro ended runId attempt publication flag
    refine Program.safe_bind.mpr (Program.safe_bind.mpr ?_)
    rintro _ reply ⟨disk, locks⟩ rfl _ ⟨attempted, sameLocks⟩
    rcases attempted with ⟨_, _, effect⟩ | ⟨impossible, _⟩ | ⟨faulty, _⟩
    · cases effect
      cases sameLocks
      have written := heeds.write ((heeds.named record wrote).congr runId attempt publication)
        fun cancelled => flag.trans (heeds.minds durable cancelled)
      exact ⟨⟨trivial, written⟩, wrote_write_iff.mpr (.inl rfl), rfl⟩
    · exact absurd trivial impossible
    · exact faulty.elim
  refine ends _ ?_ ?_ ?_ ?_ <;> split <;> rfl

theorem recoverRecord_boot (heeds : ns.Heeds world.disk) (free : world.holder = none)
    (durable : world.disk.spool = some record) :
    ns.BootSafe fresh condition
      (if record.requiresPublicationRecovery then Service.recoverPublication config record
        else do
          let record ← Service.normalizeInterrupted record
          discard ((Service.reconcile config).run record)) (fun _ _ => True) world := by
  split
  next required => exact recoverPublication_boot heeds durable required
  next =>
    refine Program.safe_bind.mpr ((normalizeInterrupted_boot heeds durable).imp ?_)
    rintro copy normalized ⟨wrote, locks⟩
    refine reconcile_boot wrote.seen ?_
    have stillFree : normalized.holder = none := (congrFun locks _).trans free
    simp [stillFree]

/-- The recovery after a restart heeds a cancellation, up to any point where it is cut off. -/
theorem recover_boot (heeds : ns.Heeds world.disk) (free : world.holder = none) :
    ns.BootSafe fresh condition (Service.recover config) (fun _ _ => True) world := by
  refine Program.safe_bind.mpr ?_
  rintro _ reply after rfl _ ⟨⟨sameDisk, answered⟩, sameLocks⟩
  cases World.ext sameDisk sameLocks
  refine ⟨⟨trivial, heeds⟩, ?_⟩
  rcases answered with ⟨record, durable, rfl⟩ | ⟨_, message, rfl⟩
  · exact recoverRecord_boot heeds free durable
  · exact trivial

end Boot

end Namespace

/-- `reconcile_all` and `cancel` are started again and again. -/
inductive Attends (config : AgentConfig) (runId : String) (attempt : ℕ) :
    AgentTask → AgentProgram Unit → Prop where
  | reconcileAll : Attends config runId attempt .reconciler (Service.reconcileAll config)
  | cancel (specHash : String) :
      Attends config runId attempt .poller (Service.cancel config runId attempt specHash)

/--
The states of an agent during its lifetimes, with whether its tasks run. A crash
loses the tasks and the locks; the agent is up again when `recover` has come to
its end, and may crash again before.
-/
inductive AgentPool.Lives (config : AgentConfig) (runId : String) (attempt : ℕ)
    (fresh : PathBuf → FileIdentity) (condition : Disk → SpoolRecord → Prop)
    (start : AgentPool) : AgentPool → Bool → Prop where
  | start : Lives config runId attempt fresh condition start start true
  | move {pool after : AgentPool} (lived : Lives config runId attempt fresh condition start pool true)
      (moved : Pool.Move (World.Step fresh condition) (Attends config runId attempt) pool after) :
      Lives config runId attempt fresh condition start after true
  | crash {pool : AgentPool} {up : Bool} {rest : AgentProgram Unit} {world : World}
      (lived : Lives config runId attempt fresh condition start pool up)
      (booted : Program.Reaches (World.Step fresh condition .reconciler)
        (Service.recover config, ⟨pool.state.disk, fun _ => none⟩) (rest, world)) :
      Lives config runId attempt fresh condition start
        ⟨fun _ => .pure (), ⟨world.disk, fun _ => none⟩⟩ rest.isDone

namespace Namespace

open Agent

/-- An attempt that has not been cancelled yet, whose process is about to start. -/
structure Underway (ns : Namespace) (config : AgentConfig) (spec : ProcessRunSpec)
    (pool : AgentPool) : Prop where
  heedful : ∀ record, Wrote record pool.state.disk.history →
    ns.Heedful record ∧ record.cancelRequested = false
  stored : ∃ record, pool.state.disk.spool = some record ∧
    Wrote record pool.state.disk.history
  free : ∀ lock, pool.state.locks lock = none
  executor : ∃ record, Wrote record pool.state.disk.history ∧
    pool.tasks .executor = Service.runPrepared config spec record
  idle : ∀ task, task ≠ .executor → pool.tasks task = .pure ()

section Lives

variable {ns : Namespace} {config : AgentConfig} {spec : ProcessRunSpec} {runId : String}
  {attempt : ℕ} {fresh : PathBuf → FileIdentity} {pool last : AgentPool} {up : Bool}

theorem Underway.heeds (underway : ns.Underway config spec pool) :
    ns.Heeds pool.state.disk := by
  rcases underway.stored with ⟨stored, durable, wrote⟩
  have uncancelled : ∀ event ∈ pool.state.disk.history, event.change.cancels = false := by
    intro event listed
    cases change : event.change with
    | wrote record => exact (underway.heedful record ⟨event, listed, change⟩).2
    | _ => rfl
  refine ⟨?_, ?_, fun _ => by simp [durable], ?_, ?_⟩
  · exact fun record written => .inr (underway.heedful record written).1.2
  · intro record isStored
    rw [durable, Option.some.injEq] at isStored
    exact isStored ▸ wrote
  · rintro ⟨later, event, earlier, split, cancels, _⟩
    rw [uncancelled event (by simp [split])] at cancels
    cases cancels
  · intro later event earlier split cancels
    rw [uncancelled event (by simp [split])] at cancels
    cases cancels

/-- All tasks keep the invariant, and a crash finds it. -/
theorem Underway.secure (underway : ns.Underway config spec pool)
    (lived : AgentPool.Lives config runId attempt fresh (fun disk copy => ns.Minds copy disk)
      pool last up) :
    last.Secure (World.Step fresh fun disk copy => ns.Minds copy disk) TaskRely TaskGuarantee
      (fun world => ns.Heeds world.disk) (fun task world => world.holder ≠ some task) := by
  induction lived with
  | start =>
      have free : ∀ task, pool.state.holder ≠ some task := by
        intro task
        rw [World.holder, underway.free]
        simp
      refine ⟨underway.heeds, fun task => ?_⟩
      by_cases executor : task = .executor
      · subst executor
        rcases underway.executor with ⟨record, wrote, program⟩
        rw [program]
        refine runPrepared_safe (heeding_supervision ns) ⟨?_, free .executor⟩
          (underway.heedful record wrote).1
        exact fun written isWritten => (underway.heedful written isWritten).1.1
      · rw [underway.idle task executor]
        exact free task
  | move _ moved ih =>
      refine ih.move TaskRely.refl (fun _ _ _ _ => TaskRely.trans)
        (fun _ _ _ waiting relied => relied.waiting waiting)
        (fun _ _ _ _ different _ => TaskGuarantee.rely different) ?_ moved
      rintro _ _ world (_ | _) _ waiting
      · exact reconcileAll_heeding waiting
      · exact cancel_heeding
  | @crash crashed _ _ restarted _ booted ih =>
      have booting : ns.BootSafe fresh (fun disk copy => ns.Minds copy disk)
          (Service.recover config) (fun _ _ => True) ⟨crashed.state.disk, fun _ => none⟩ :=
        recover_boot ih.valid rfl
      have heeds : ns.Heeds restarted.disk :=
        (Program.Safe.of_reaches (fun _ => rfl) booting ih.valid booted).2
      refine ⟨heeds, fun task => ?_⟩
      exact Option.some_ne_none task |>.symm

/--
A cancellation in time wins. In every state of every run of the executor,
`cancel`, `reconcile_all`, crashes and restarts, in which `reconcile_all` is
never granted the lock for a copy without the flag after a cancellation in time:
once a record with the flag is written before the visibility rename, the
published path is not touched and every later record has the flag.
-/
theorem cancellation_wins (underway : ns.Underway config spec pool)
    (lived : AgentPool.Lives config runId attempt fresh (fun disk copy => ns.Minds copy disk)
      pool last up) : ns.CancellationWins last.state.disk.history :=
  (underway.secure lived).valid.wins

end Lives

end Namespace

namespace Sample

/-- Every lock that is free is granted. -/
def granted : Disk → SpoolRecord → Bool := fun _ _ => true

/-- The agent restarts after a crash, and `recover` comes to its end. -/
def restart (met : Disk → SpoolRecord → Bool) (operations : ℕ) (pool : AgentPool) : AgentPool :=
  go met .reconciler operations
    ⟨Function.update (fun _ => .pure ()) .reconciler (Service.recover config),
      ⟨pool.state.disk, fun _ => none⟩⟩

/-- `cancel` has started. -/
def cancelling (pool : AgentPool) : AgentPool :=
  ⟨Function.update pool.tasks .poller (Service.cancel config "R" 1 "hash"), pool.state⟩

theorem underway : demo.Underway config atomicSpec pool := by
  have owns : demo.Heedful accepted ∧ accepted.cancelRequested = false := by
    refine ⟨⟨⟨rfl, rfl, rfl⟩, rfl, rfl, rfl, rfl, _, rfl, rfl, rfl, rfl, rfl, ?_, ?_⟩, rfl⟩
    · decide +kernel
    · rintro text ⟨⟩
  refine ⟨?_, launched.stored, launched.free, launched.executor, launched.idle⟩
  rintro record ⟨event, listed, change⟩
  cases List.mem_singleton.mp listed
  cases change
  exact owns

/-- A crash finds the exchange staged. -/
def crashed : AgentPool := go granted .executor 34 pool

def upAgain : AgentPool :=
  ⟨fun _ => .pure (), ⟨(restart granted 60 crashed).state.disk, fun _ => none⟩⟩

/-- The reconciler reads the record before `cancel` starts. -/
def overtaken : AgentPool :=
  cancelling (go granted .reconciler 1
    ⟨Function.update upAgain.tasks .reconciler (Service.reconcileAll config), upAgain.state⟩)

/-- `cancel` writes the flag. -/
def flagged : AgentPool := go granted .poller 20 overtaken

/-- The reconciler is granted the lock with the copy it has read. -/
def overruled : AgentPool := go granted .reconciler 20 flagged

section Courses

variable {condition : Disk → SpoolRecord → Prop} {met : Disk → SpoolRecord → Bool}
  {start current : AgentPool} {up : Bool}
  (meets : ∀ disk record, met disk record = true → condition disk record)

include meets

theorem lives_go (task : AgentTask) (operations : ℕ)
    (lived : AgentPool.Lives config "R" 1 fresh condition start current true) :
    AgentPool.Lives config "R" 1 fresh condition start (go met task operations current) true := by
  unfold go
  cases ran : Pool.runTask (World.answer fresh met) task operations current with
  | none => exact lived
  | some after =>
      have moves := @Pool.move_runTask _ _ _ _ _ _ (Attends config "R" 1) _
        (World.step_answer meets) _ _ _ _ ran
      rw [Option.getD_some]
      clear ran
      induction moves with
      | refl => exact lived
      | tail _ moved ih => exact .move ih moved

theorem lives_restart (operations : ℕ)
    (isDone : Program.isDone ((restart met operations current).tasks .reconciler) = true)
    (lived : AgentPool.Lives config "R" 1 fresh condition start current up) :
    AgentPool.Lives config "R" 1 fresh condition start
      ⟨fun _ => .pure (), ⟨(restart met operations current).state.disk, fun _ => none⟩⟩
      true := by
  rw [← isDone]
  refine .crash lived ?_
  unfold restart go
  generalize booting : (⟨Function.update (fun _ => .pure ()) .reconciler
    (Service.recover config), ⟨current.state.disk, fun _ => none⟩⟩ : AgentPool) = boot
  have first : (Service.recover config, (⟨current.state.disk, fun _ => none⟩ : World)) =
      (boot.tasks .reconciler, boot.state) := by
    subst booting
    simp
  rw [first]
  cases ran : Pool.runTask (World.answer fresh met) .reconciler operations boot with
  | none => exact .refl
  | some after => exact Pool.reaches_runTask (World.step_answer meets) ran

end Courses

end Sample

namespace Namespace

/-- A copy that was read before the cancellation publishes after it. -/
theorem stale_copy_overrules_cancellation :
    Sample.demo.Underway Sample.config Sample.atomicSpec Sample.pool ∧
      AgentPool.Lives Sample.config "R" 1 Sample.fresh (fun _ _ => True) Sample.pool
        Sample.overruled true ∧
      ¬Sample.demo.CancellationWins Sample.overruled.state.disk.history := by
  refine ⟨Sample.underway, ?_, fun wins => ?_⟩
  · have meets : ∀ disk record, Sample.granted disk record = true → True :=
      fun _ _ _ => trivial
    have isDone : Program.isDone
        ((Sample.restart Sample.granted 60 Sample.crashed).tasks .reconciler) = true := by
      decide +kernel
    have crashed : AgentPool.Lives Sample.config "R" 1 Sample.fresh (fun _ _ => True)
        Sample.pool Sample.crashed true := Sample.lives_go meets .executor 34 .start
    have up : AgentPool.Lives Sample.config "R" 1 Sample.fresh (fun _ _ => True) Sample.pool
        Sample.upAgain true := Sample.lives_restart meets 60 isDone crashed
    have overtaken : AgentPool.Lives Sample.config "R" 1 Sample.fresh (fun _ _ => True)
        Sample.pool Sample.overtaken true :=
      .move (Sample.lives_go meets .reconciler 1 (.move up (.start rfl .reconcileAll)))
        (.start rfl (.cancel "hash"))
    have flagged : AgentPool.Lives Sample.config "R" 1 Sample.fresh (fun _ _ => True)
        Sample.pool Sample.flagged true := Sample.lives_go meets .poller 20 overtaken
    exact Sample.lives_go meets .reconciler 20 flagged
  · have bound : 5 < Sample.overruled.state.disk.history.length := by decide +kernel
    have split : Sample.overruled.state.disk.history =
        Sample.overruled.state.disk.history.take 5 ++
          Sample.overruled.state.disk.history.get ⟨5, bound⟩ ::
            Sample.overruled.state.disk.history.drop 6 := by
      rw [List.get_eq_getElem, List.getElem_cons_drop, List.take_append_drop]
    have respected := wins _ _ _ split (by decide +kernel +revert) (by decide +kernel)
    have touched : ∃ entry ∈ Sample.overruled.state.disk.history.take 5,
        entry.change.touches Sample.demo.publishedPath = true := by decide +kernel
    rcases touched with ⟨entry, listed, touches⟩
    simp [(respected entry listed).1] at touches

/-- A cancellation while the process runs ends the attempt before the exchange. -/
theorem cancellation_wins_running :
    Sample.demo.CancellationWins
      (Sample.go (fun _ _ => false) .executor 120
        (Sample.go (fun _ _ => false) .poller 20
          (Sample.cancelling Sample.pool))).state.disk.history := by
  have never : ∀ disk record, (fun _ _ => false : Disk → SpoolRecord → Bool) disk record = true →
      Sample.demo.Minds record disk := by simp
  have started : AgentPool.Lives Sample.config "R" 1 Sample.fresh
      (fun disk copy => Sample.demo.Minds copy disk) Sample.pool
      (Sample.cancelling Sample.pool) true := .move .start (.start rfl (.cancel "hash"))
  exact cancellation_wins Sample.underway
    (Sample.lives_go never .executor 120 (Sample.lives_go never .poller 20 started))

end Namespace

end LzuMirror
