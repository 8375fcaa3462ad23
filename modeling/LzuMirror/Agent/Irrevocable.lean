import LzuMirror.Agent.Conservation
import LzuMirror.Agent.Orderly

/-!
# A publication is not undone

Once the candidate stands at the published path the durable record neither falls
back to a phase before the publication nor ends in a failure, provided
`reconcile_all` never acts on a `PreparingExchange` copy that is out of date.
Without the proviso it does: the copy was read while the executor was staging
the candidate, and the lock is granted after the executor has published.
-/

namespace LzuMirror

/-- The tasks of an agent and the world they share. -/
abbrev AgentPool := Pool AgentTask AgentOp AgentOp.Reply World

/-- A record that takes a publication back. -/
def SpoolRecord.Withdraws (record : SpoolRecord) : Prop :=
  record.phase? = some .executing ∨ record.phase? = some .preparingExchange ∨
    record.phase? = some .preVisibilityRecovery ∨ record.state = .failed ∨
    record.state = .cancelled ∨ record.state = .interrupted

/-- A copy in phase `PreparingExchange` is not out of date. -/
def Current (disk : Disk) (copy : SpoolRecord) : Prop :=
  copy.phase? = some .preparingExchange →
    disk.spool.bind (·.phase?) = some .preparingExchange

instance (disk : Disk) (copy : SpoolRecord) : Decidable (Current disk copy) :=
  inferInstanceAs (Decidable (_ → _))

/-- `reconcile_all` is started again and again. -/
inductive Reconciles (config : AgentConfig) : AgentTask → AgentProgram Unit → Prop where
  | reconcileAll : Reconciles config .reconciler (Service.reconcileAll config)

/-- The runs of the executor and the reconciler. -/
def AgentPool.Reaches (config : AgentConfig) (fresh : PathBuf → FileIdentity)
    (condition : Disk → SpoolRecord → Prop) : AgentPool → AgentPool → Prop :=
  Relation.ReflTransGen (Pool.Move (World.Step fresh condition) (Reconciles config))

theorem AgentPool.Reaches.grows {config : AgentConfig} {fresh : PathBuf → FileIdentity}
    {condition : Disk → SpoolRecord → Prop} {pool last : AgentPool}
    (reached : AgentPool.Reaches config fresh condition pool last) :
    pool.state.disk.history <:+ last.state.disk.history := by
  induction reached with
  | refl => exact List.suffix_rfl
  | tail _ move ih =>
      cases move with
      | perform _ performed => exact ih.trans performed.disk.grows
      | start => exact ih

namespace Namespace

open Agent

/-- An attempt whose candidate is prepared and whose process is about to start. -/
structure Launched (ns : Namespace) (config : AgentConfig) (spec : ProcessRunSpec)
    (pool : AgentPool) : Prop where
  usable : ∀ record, Wrote record pool.state.disk.history → ns.Usable record
  stored : ∃ record, pool.state.disk.spool = some record ∧
    Wrote record pool.state.disk.history
  shows : ns.Shows pool.state.disk.fs .atRest
  unmoved : ∀ event ∈ pool.state.disk.history, event.change.moves = false
  free : ∀ lock, pool.state.locks lock = none
  executor : ∃ record, Wrote record pool.state.disk.history ∧
    pool.tasks .executor = Service.runPrepared config spec record
  idle : ∀ task, task ≠ .executor → pool.tasks task = .pure ()

section Runs

variable {ns : Namespace} {config : AgentConfig} {spec : ProcessRunSpec}
  {fresh : PathBuf → FileIdentity} {pool middle last : AgentPool} {record : SpoolRecord}

theorem Launched.calm (launched : ns.Launched config spec pool) : ns.Calm pool.state.disk := by
  rcases launched.stored with ⟨stored, durable, wrote⟩
  refine ⟨⟨?_, ?_, fun _ => by simp [durable]⟩, .inl ⟨launched.shows, ?_, ?_⟩⟩
  · intro record written
    rcases (launched.usable record written).1 with ⟨state, believable, _⟩
    exact ⟨state, believable⟩
  · intro record isStored
    rw [durable, Option.some.injEq] at isStored
    exact isStored ▸ wrote
  · have still : ∀ path, ∀ event ∈ pool.state.disk.history,
        event.change.touches path = false := by
      intro path event listed
      have unmoved := launched.unmoved event listed
      revert unmoved
      cases event.change <;> simp [DiskChange.moves, DiskChange.touches]
    refine ⟨?_, ?_, ?_, ?_⟩
    · intro event listed moves
      simp [launched.unmoved event listed] at moves
    · intro later event earlier split moves
      have listed : event ∈ pool.state.disk.history := by simp [split]
      simp [launched.unmoved event listed] at moves
    · intro event listed touches
      simp [still ns.publishedPath event listed] at touches
    · rw [if_neg (by simp), List.countP_eq_zero]
      intro event listed
      simp [still ns.publishedPath event listed]
  · intro record written
    rcases (launched.usable record written).1 with ⟨state, believable, phase⟩
    rw [believable.phase?, phase]

/-- In a calm state only a copy in phase `PreparingExchange` can be out of date harmfully. -/
theorem Calm.current {disk : Disk} (calm : ns.Calm disk) (current : Current disk record) :
    record.phase? ≠ some .preparingExchange := by
  intro preparing
  have durable := current preparing
  rw [Option.bind_eq_some_iff] at durable
  rcases durable with ⟨stored, isStored, phase⟩
  rcases calm.2 with atRest | finished
  · rw [atRest.executing stored (calm.1.stored stored isStored)] at phase
    cases phase
  · rw [finished.committed stored isStored] at phase
    cases phase

theorem reconcileAll_orderly {world : World} (waiting : world.holder ≠ some .reconciler) :
    TaskSafe fresh Current ns.Orderly .reconciler (Service.reconcileAll config)
      (fun _ after => after.holder ≠ some .reconciler) world := by
  refine @reconcileAll_safe _ _ _ _ _ _ (orderly_discipline ns) _
    (fun copy _ => copy.phase? ≠ some .preparingExchange)
    (fun _ _ calm _ current => calm.current current) (fun _ _ _ holds _ => holds) ?_ waiting
  intro synchronized read held wrote required holds calm current
  have finished : ns.Finished held.disk := by
    refine calm.2.resolve_left fun atRest => ?_
    rcases calm.1.believable read wrote with ⟨state, believable⟩
    have executing := atRest.executing read wrote
    rw [believable.phase?, Option.some.injEq] at executing
    simp [SpoolRecord.requiresPublicationRecovery, believable.stored, executing,
      PublicationPhase.requiresNamespaceRecovery] at required
  refine (recovery_completed ⟨holds, calm.1, finished⟩ wrote required current).imp ?_
  rintro _ copy after ⟨⟨still, grounded, finishedAfter⟩, wroteCopy⟩
  exact ⟨still, ⟨grounded, .inr finishedAfter⟩, wroteCopy.seen⟩

/-- Both tasks keep the invariant, however they are interleaved. -/
theorem Launched.secure (launched : ns.Launched config spec pool)
    (reached : AgentPool.Reaches config fresh Current pool last) :
    last.Secure (World.Step fresh Current) TaskRely TaskGuarantee ns.Orderly
      (fun task world => world.holder ≠ some task) := by
  have free : ∀ task, pool.state.holder ≠ some task := by
    intro task
    rw [World.holder, launched.free]
    simp
  induction reached with
  | refl =>
      refine ⟨.inl launched.calm, fun task => ?_⟩
      by_cases executor : task = .executor
      · subst executor
        rcases launched.executor with ⟨record, wrote, program⟩
        rw [program]
        refine runPrepared_safe (orderly_supervision ns) ⟨?_, free .executor⟩
          (launched.usable record wrote)
        exact fun written isWritten => (launched.usable written isWritten).pristine
      · rw [launched.idle task executor]
        exact free task
  | tail _ move ih =>
      refine ih.move TaskRely.refl (fun _ _ _ _ => TaskRely.trans)
        (fun _ _ _ waiting relied => relied.waiting waiting)
        (fun _ _ _ _ different _ => TaskGuarantee.rely different) ?_ move
      rintro _ _ world ⟨⟩ _ waiting
      exact reconcileAll_orderly waiting

/-- A touched published path and a visible candidate go together. -/
theorem Orderly.touched_iff {world : World} (orderly : ns.Orderly world) :
    world.disk.fs ns.publishedPath = some ns.candidate ↔
      ∃ event ∈ world.disk.history, event.change.touches ns.publishedPath = true := by
  have layouts : ∃ layout, ns.Shows world.disk.fs layout ∧
      ns.Chronicle layout world.disk.history := by
    rcases orderly with ⟨_, atRest | finished⟩ |
        ⟨_, _, _, layout, _, _, _, shows, chronicle⟩
    · exact ⟨.atRest, atRest.shows, atRest.chronicle⟩
    · exact ⟨.visible, finished.shows, finished.chronicle⟩
    · exact ⟨layout, shows, chronicle⟩
  rcases layouts with ⟨layout, shows, chronicle⟩
  rw [shows.publishedHolds, ← List.countP_pos_iff, chronicle.once]
  by_cases visible : layout = .visible <;> simp [visible, ns.candidateNew.1]

/-- While the candidate is visible the durable record does not take it back. -/
theorem Orderly.not_withdraws {world : World} (orderly : ns.Orderly world)
    (visible : world.disk.fs ns.publishedPath = some ns.candidate)
    (durable : world.disk.spool = some record) : ¬record.Withdraws := by
  rcases orderly with ⟨grounded, atRest | finished⟩ | ⟨_, invariant⟩
  · exact absurd (atRest.shows.2.2.1.symm.trans visible) ns.candidateNew.1
  · rcases grounded.believable record (grounded.stored record durable) with ⟨state, believable⟩
    have phase := finished.committed record durable
    have committed := believable.phase?
    rw [phase, Option.some.injEq] at committed
    simp [SpoolRecord.Withdraws, phase, believable.succeeded committed.symm]
  · rcases invariant.started durable with ⟨state, layout, started⟩
    have isVisible : layout = .visible := by
      by_contra before
      have published := started.shows.publishedHolds
      rw [if_neg before, visible] at published
      exact ns.candidateNew.1 published.symm
    subst isVisible
    have consistent := started.consistent
    have permitted := consistent.permitted
    have phase := started.phase
    cases stored : state.phase with
    | readyToCommit =>
        have unended := consistent.unfinished (by simp [stored]) (by simp [stored])
        rw [stored] at phase
        rintro (early | early | early | ended | ended | ended)
        · simp [phase] at early
        · simp [phase] at early
        · simp [phase] at early
        all_goals
          rw [ended] at unended
          cases unended
    | committedPendingReport =>
        simp [SpoolRecord.Withdraws, phase, stored, consistent.succeeded stored]
    | visiblePendingDurability => exact (consistent.troubled (.inr stored)).elim
    | _ => simp [stored, PublicationPhase.permits] at permitted

/--
A publication is not undone. In every run of the executor and of the background
reconciliation, interleaved in any way, in which `reconcile_all` acts on no
`PreparingExchange` copy that is out of date: once the candidate stands at the
published path, the durable record never withdraws it.
-/
theorem publication_irrevocable (launched : ns.Launched config spec pool)
    (reached : AgentPool.Reaches config fresh Current pool middle)
    (visible : middle.state.disk.fs ns.publishedPath = some ns.candidate)
    (later : AgentPool.Reaches config fresh Current middle last)
    (durable : last.state.disk.spool = some record) : ¬record.Withdraws := by
  have orderlyMiddle := (launched.secure reached).valid
  have orderlyLast := (launched.secure (reached.trans later)).valid
  -- the move onto the published path stays on record
  rcases orderlyMiddle.touched_iff.mp visible with ⟨event, listed, touches⟩
  have stillVisible := orderlyLast.touched_iff.mpr
    ⟨event, (AgentPool.Reaches.grows later).subset listed, touches⟩
  exact orderlyLast.not_withdraws stillVisible durable

end Runs

end Namespace

namespace Sample

def config : AgentConfig where
  instanceId := "agent"
  mirrorRoot := "/m"
  publicationRoot := some "/p"
  publicationMaxPrivateGenerations := some 4
  publicationReserveBytes := some 0
  maxConcurrentRuns := 4
  processEnabled := true

/-- The record with which the attempt was accepted. -/
def accepted : SpoolRecord :=
  .acceptedWithIdentity "R" 1 "hash" none atomicSpec "2026-09-03T00:00:00Z"

/-- The executor of the attempt is about to start its process, and the reconciler is idle. -/
def pool : AgentPool where
  tasks
    | .executor => Service.runPrepared config atomicSpec accepted
    | .reconciler | .poller => .pure ()
  state := ⟨⟨some accepted, disk.fs, [⟨.wrote accepted, none⟩]⟩, fun _ => none⟩

theorem launched : demo.Launched config atomicSpec pool := by
  have only : ∀ record, Wrote record pool.state.disk.history → record = accepted := by
    rintro record ⟨event, listed, change⟩
    cases List.mem_singleton.mp listed
    cases change
    rfl
  have wrote : Wrote accepted pool.state.disk.history := ⟨_, List.mem_singleton.mpr rfl, rfl⟩
  refine {
    usable := ?_
    stored := ⟨accepted, rfl, wrote⟩
    shows := by refine ⟨?_, ?_, ?_, ?_⟩ <;> decide +kernel
    unmoved := by simp [pool, DiskChange.moves]
    free := fun _ => rfl
    executor := ⟨accepted, wrote, rfl⟩
    idle := by
      rintro (_ | _ | _) other
      · exact absurd rfl other
      · rfl
      · rfl }
  intro record written
  cases only record written
  refine ⟨⟨.ofSpec (atomicSpec.publication.get rfl), ?_, rfl⟩, rfl, rfl⟩
  exact {
    stored := rfl
    names := by
      refine ⟨rfl, rfl, rfl, rfl, ?_, ?_⟩
      · decide +kernel
      · rintro text ⟨⟩
    uncancelled := rfl
    phase := .inl rfl
    identifies := fun moving => absurd rfl moving
    succeeded := by rintro ⟨⟩ }

/-- The next operations of one task, as long as it is not blocked. -/
def go (met : Disk → SpoolRecord → Bool) (task : AgentTask) (operations : ℕ)
    (pool : AgentPool) : AgentPool :=
  (Pool.runTask (World.answer fresh met) task operations pool).getD pool

theorem reaches_go {condition : Disk → SpoolRecord → Prop} {met : Disk → SpoolRecord → Bool}
    (meets : ∀ disk record, met disk record = true → condition disk record) (task : AgentTask)
    (operations : ℕ) (pool : AgentPool) :
    AgentPool.Reaches config fresh condition pool (go met task operations pool) := by
  unfold go
  cases ran : Pool.runTask (World.answer fresh met) task operations pool with
  | none => exact .refl
  | some after => exact Pool.move_runTask (World.step_answer meets) ran

/-- The reconciler has started. -/
def reconciling : AgentPool :=
  ⟨Function.update pool.tasks .reconciler (Service.reconcileAll config), pool.state⟩

theorem reaches_reconciling {condition : Disk → SpoolRecord → Prop} :
    AgentPool.Reaches config fresh condition pool reconciling :=
  .single (.start rfl .reconcileAll)

/-- The reconciler reads the record while the executor stages the candidate. -/
def staleRead : AgentPool :=
  go (fun _ _ => true) .reconciler 1 (go (fun _ _ => true) .executor 22 reconciling)

/-- The executor publishes and lets go of the lock. -/
def published : AgentPool := go (fun _ _ => true) .executor 24 staleRead

/-- The reconciler is granted the lock with the copy it has read. -/
def withdrawn : AgentPool := go (fun _ _ => true) .reconciler 12 published

/-- The executor alone, right after the visibility rename and at its end. -/
def visible : AgentPool := go (fun disk copy => decide (Current disk copy)) .executor 38 pool

def settled : AgentPool := go (fun disk copy => decide (Current disk copy)) .executor 8 visible

end Sample

namespace Namespace

/-- A copy that was read before the publication takes it back after it. -/
theorem stale_copy_withdraws_publication :
    Sample.demo.Launched Sample.config Sample.atomicSpec Sample.pool ∧
      AgentPool.Reaches Sample.config Sample.fresh (fun _ _ => True) Sample.pool
        Sample.published ∧
      Sample.published.state.disk.fs Sample.demo.publishedPath = some Sample.demo.candidate ∧
      AgentPool.Reaches Sample.config Sample.fresh (fun _ _ => True) Sample.published
        Sample.withdrawn ∧
      ∃ record, Sample.withdrawn.state.disk.spool = some record ∧ record.Withdraws := by
  have phase : Sample.withdrawn.state.disk.spool.bind (·.phase?) =
      some .preVisibilityRecovery := by decide +kernel
  rcases Option.bind_eq_some_iff.mp phase with ⟨record, durable, withdraws⟩
  refine ⟨Sample.launched, ?_, by decide +kernel, ?_, record, durable,
    .inr (.inr (.inl withdraws))⟩
  · refine Sample.reaches_reconciling.trans ((Sample.reaches_go ?_ _ _ _).trans
      ((Sample.reaches_go ?_ _ _ _).trans (Sample.reaches_go ?_ _ _ _)))
    all_goals exact fun _ _ _ => trivial
  · exact Sample.reaches_go (fun _ _ _ => trivial) _ _ _

theorem publication_irrevocable_settled :
    Sample.visible.state.disk.fs Sample.demo.publishedPath = some Sample.demo.candidate ∧
      ∃ record, Sample.settled.state.disk.spool = some record ∧ ¬record.Withdraws := by
  have isVisible : Sample.visible.state.disk.fs Sample.demo.publishedPath =
      some Sample.demo.candidate := by decide +kernel
  have present : Sample.settled.state.disk.spool ≠ none := by decide +kernel
  rcases Option.ne_none_iff_exists'.mp present with ⟨record, durable⟩
  have meets : ∀ disk record, decide (Current disk record) = true → Current disk record :=
    fun _ _ => of_decide_eq_true
  have reached : AgentPool.Reaches Sample.config Sample.fresh Current Sample.pool Sample.visible :=
    Sample.reaches_go meets _ _ _
  have later : AgentPool.Reaches Sample.config Sample.fresh Current Sample.visible
      Sample.settled := Sample.reaches_go meets _ _ _
  exact ⟨isVisible, record, durable,
    publication_irrevocable Sample.launched reached isVisible later durable⟩

end Namespace

end LzuMirror
