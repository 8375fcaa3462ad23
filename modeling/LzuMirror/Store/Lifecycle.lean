import LzuMirror.Store.LiveAttempts
import LzuMirror.Store.Normalization

/-!
# The life cycle of a run

Eight statements update rows of `runs`, some of them guarded by the state and
some by the id only. `RunRow.Evolves` is what any of them may make of a row: one
that has ended stays as it is, one that has left `pending` does not return to
it, and the two columns that belong to a phase of the life cycle are set in that
phase only.

The histories of this module contain the normalisation of a restored database
next to the transactions.
-/

namespace LzuMirror

/-- The columns that belong to a phase of the life cycle. -/
structure RunRow.WellFormed (run : RunRow) : Prop where
  finished : run.finishedAtMs.isSome = true ↔ run.state.isTerminal = true
  waiting : run.retryDueAtMs.isSome = true → run.state = .running

/-- What a statement may make of a run. -/
structure RunRow.Evolves (old new : RunRow) : Prop where
  id : new.id = old.id
  settled : old.state.isTerminal = true → new = old
  begun : old.state ≠ .pending → new.state ≠ .pending
  requested : ∀ time, old.cancelRequestedAtMs = some time → new.cancelRequestedAtMs = some time
  formed : old.WellFormed → new.WellFormed

/-- Runs evolve, and new runs are well formed. -/
structure Database.Evolves (before after : Database) : Prop where
  kept : ∀ run ∈ before.runs, ∃ later ∈ after.runs, run.Evolves later
  origin : ∀ run ∈ after.runs, run.WellFormed ∨ ∃ earlier ∈ before.runs, earlier.Evolves run

/-- A transaction of the control plane, or the normalisation of a restored database. -/
def LifeStep (vendor : Vendor) (before after : Database) : Prop :=
  StoreStep (fun _ (_ : StoreOp vendor) => True) before after ∨
    ∃ restoredAtMs, before.normalizeRestored restoredAtMs = after

/-- The databases that transactions and restores can lead to. -/
abbrev LifeReachable (vendor : Vendor) (db : Database) : Prop :=
  Relation.ReflTransGen (LifeStep vendor) .empty db

/-- The invariant rule for histories with restores. -/
theorem LifeReachable.invariant {vendor : Vendor} {holds : Database → Prop} {db : Database}
    (reachable : LifeReachable vendor db) (initial : holds .empty)
    (kept : ∀ before (operation : StoreOp vendor), holds before → holds (operation.run before))
    (restored : ∀ before restoredAtMs, holds before →
      holds (before.normalizeRestored restoredAtMs)) : holds db := by
  induction reachable with
  | refl => exact initial
  | tail _ step ih =>
      rcases step with ⟨operation, _, rfl⟩ | ⟨restoredAtMs, rfl⟩
      · exact kept _ operation ih
      · exact restored _ restoredAtMs ih

theorem StoreOp.lifeSteps_runAll {vendor : Vendor} (db : Database)
    (operations : List (StoreOp vendor)) :
    Relation.ReflTransGen (LifeStep vendor) db (StoreOp.runAll db operations) := by
  induction operations generalizing db with
  | nil => exact .refl
  | cons operation rest ih => exact (ih _).head (.inl ⟨operation, trivial, rfl⟩)

/-- A restored database has the rows of its snapshot, moved to their ends. -/
theorem normalizeRestored_advances (db : Database) (restoredAtMs : ℤ) :
    db.Advances (db.normalizeRestored restoredAtMs) := by
  have cancelled : (db.interruptAttempts restoredAtMs).Advances
      ((db.interruptAttempts restoredAtMs).cancelUndispatchedRuns restoredAtMs) := by
    apply Database.Advances.of_runs
    apply Table.rowwise_of_map rfl
    intro run _
    split
    · exact ⟨.of_terminal rfl rfl rfl rfl rfl, rfl⟩
    · exact ⟨.refl run, rfl⟩
  have interrupted :
      ((db.interruptAttempts restoredAtMs).cancelUndispatchedRuns restoredAtMs).Advances
        (db.normalizeRestored restoredAtMs) := by
    refine ⟨rfl, rfl, ?_, .refl .refl _⟩
    apply Table.rowwise_of_map rfl
    intro run _
    split
    · exact ⟨.of_terminal rfl rfl rfl rfl rfl, rfl⟩
    · exact ⟨.refl run, rfl⟩
  have stopped : db.Advances (db.interruptAttempts restoredAtMs) := by
    apply Database.Advances.of_attempts
    apply Table.rowwise_of_map rfl
    intro attempt _
    split
    next matched =>
      simp only [AttemptState.isTerminal_eq] at matched
      exact ⟨rfl, rfl, le_rfl, le_rfl, by simp, fun ended => by simp [ended] at matched⟩
    next => exact .refl attempt
  exact (stopped.trans cancelled).trans interrupted

theorem LifeReachable.sound {vendor : Vendor} {db : Database}
    (reachable : LifeReachable vendor db) : db.Sound := by
  apply reachable.invariant .empty
  · intro before operation sound
    exact sound.step operation
  · intro before restoredAtMs sound
    exact sound.advance (normalizeRestored_advances before restoredAtMs)

theorem RunState.isActive_iff {state : RunState} :
    state.isActive = true ↔ state.isTerminal = false := by
  simp [RunState.isActive]

namespace RunRow

variable {old new : RunRow}

theorem WellFormed.unfinished (formed : old.WellFormed) (active : old.state.isActive = true) :
    old.finishedAtMs = none := by
  cases finished : old.finishedAtMs with
  | none => rfl
  | some time =>
      have ended := formed.finished.mp (by rw [finished]; rfl)
      rw [RunState.isActive_iff.mp active] at ended
      cases ended

theorem WellFormed.undue (formed : old.WellFormed) (pending : old.state = .pending) :
    old.retryDueAtMs = none := by
  cases due : old.retryDueAtMs with
  | none => rfl
  | some time =>
      have running := formed.waiting (by rw [due]; rfl)
      rw [pending] at running
      cases running

namespace Evolves

theorem refl (run : RunRow) : run.Evolves run :=
  ⟨rfl, fun _ => rfl, fun begun => begun, fun _ requested => requested, fun formed => formed⟩

theorem trans {first second third : RunRow} (left : first.Evolves second)
    (right : second.Evolves third) : first.Evolves third where
  id := right.id.trans left.id
  settled := by
    intro ended
    have same := left.settled ended
    rw [right.settled (by rw [same]; exact ended), same]
  begun := fun begun => right.begun (left.begun begun)
  requested := fun time requested => right.requested time (left.requested time requested)
  formed := fun formed => right.formed (left.formed formed)

/-- A statement that ends an active run. -/
theorem finish (id : new.id = old.id) (active : old.state.isActive = true)
    (ended : new.state.isTerminal = true) (finished : new.finishedAtMs.isSome = true)
    (requested : ∀ time, old.cancelRequestedAtMs = some time → new.cancelRequestedAtMs = some time)
    (undue : old.WellFormed → new.retryDueAtMs = none) : old.Evolves new where
  id := id
  settled := by
    intro oldEnded
    rw [RunState.isActive_iff.mp active] at oldEnded
    cases oldEnded
  begun := by
    intro _ pending
    rw [pending] at ended
    cases ended
  requested := requested
  formed := by
    intro formed
    constructor
    · simp [finished, ended]
    · simp [undue formed]

/-- A statement that leaves an active run running. -/
theorem proceed (id : new.id = old.id) (active : old.state.isActive = true)
    (running : new.state = .running)
    (requested : new.cancelRequestedAtMs = old.cancelRequestedAtMs)
    (unfinished : old.WellFormed → new.finishedAtMs = none) : old.Evolves new where
  id := id
  settled := by
    intro ended
    rw [RunState.isActive_iff.mp active] at ended
    cases ended
  begun := by simp [running]
  requested := by simp [requested]
  formed := by
    intro formed
    constructor
    · simp [unfinished formed, running, RunState.isTerminal]
    · simp [running]

/-- A statement that leaves the state of an active run alone. -/
theorem keep (id : new.id = old.id) (active : old.state.isActive = true)
    (state : new.state = old.state) (finished : new.finishedAtMs = old.finishedAtMs)
    (requested : ∀ time, old.cancelRequestedAtMs = some time → new.cancelRequestedAtMs = some time)
    (due : new.retryDueAtMs.isSome = true → old.retryDueAtMs.isSome = true) :
    old.Evolves new where
  id := id
  settled := by
    intro ended
    rw [RunState.isActive_iff.mp active] at ended
    cases ended
  begun := by simp [state]
  requested := requested
  formed := by
    intro formed
    constructor
    · rw [finished, state]
      exact formed.finished
    · intro newDue
      rw [state]
      exact formed.waiting (due newDue)

end Evolves

end RunRow

namespace Database.Evolves

variable {db after : Database}

theorem of_rowwise (rowwise : Table.Rowwise RunRow.Evolves db.runs after.runs) :
    db.Evolves after where
  kept := fun _ mem => rowwise.successor mem
  origin := fun _ mem => .inr (rowwise.origin mem)

theorem of_runs_eq (same : after.runs = db.runs) : db.Evolves after := by
  apply of_rowwise
  rw [same]
  exact .refl .refl _

theorem refl (db : Database) : db.Evolves db := of_runs_eq rfl

theorem trans {first second third : Database} (left : first.Evolves second)
    (right : second.Evolves third) : first.Evolves third where
  kept := by
    intro run mem
    rcases left.kept run mem with ⟨middle, middleMem, before⟩
    rcases right.kept middle middleMem with ⟨later, laterMem, after⟩
    exact ⟨later, laterMem, before.trans after⟩
  origin := by
    intro run mem
    rcases right.origin run mem with formed | ⟨middle, middleMem, after⟩
    · exact .inl formed
    · rcases left.origin middle middleMem with formed | ⟨earlier, earlierMem, before⟩
      · exact .inl (after.formed formed)
      · exact .inr ⟨earlier, earlierMem, before.trans after⟩

end Database.Evolves

section Statements

variable {vendor : Vendor} {db after : Database} {now : ℤ}

theorem cancelUndispatchedPending_evolves (db : Database) (mirror : String) (now : ℤ) :
    db.Evolves (cancelUndispatchedPending db mirror now) := by
  apply Database.Evolves.of_rowwise
  apply Table.rowwise_of_map rfl
  intro run _
  split
  next matched =>
    simp only [Bool.and_eq_true, decide_eq_true_eq] at matched
    have pending := matched.1.2
    exact .finish rfl (by rw [pending]; rfl) rfl rfl (by simp) (fun formed => formed.undue pending)
  next => exact .refl run

theorem finalizeIneligibleRetries_evolves (db : Database) (mirror : String) (now : ℤ) :
    db.Evolves (finalizeIneligibleRetries db mirror now) := by
  apply Database.Evolves.of_rowwise
  apply Table.rowwise_of_map rfl
  intro run _
  dsimp only
  split
  next matched =>
    simp only [Bool.and_eq_true, decide_eq_true_eq] at matched
    have running := matched.1.2
    split
    · exact .refl run
    next attempt _ =>
      exact .finish rfl (by rw [running]; rfl) (finalizedRetry_isTerminal now attempt run) rfl
        (by simp [finalizedRetry]) (fun _ => rfl)
  next => exact .refl run

theorem configSteps_evolve {bundle : CanonicalBundle vendor} {changes : List ConfigChange}
    (steps : Relation.ReflTransGen (ConfigStep bundle changes) db after) : db.Evolves after := by
  induction steps with
  | refl => exact .refl db
  | tail _ step ih =>
      apply ih.trans
      cases step with
      | bookkeeping | unmanage | upsert => exact .of_runs_eq rfl
      | cancelPending => exact cancelUndispatchedPending_evolves _ _ _
      | finalizeRetries => exact finalizeIneligibleRetries_evolves _ _ _

theorem Database.Inserts.evolves {run : RunRow} (inserts : db.Inserts run after) :
    db.Evolves after := by
  rcases inserts.runs with ⟨_, _, _, members⟩
  constructor
  · intro old mem
    exact ⟨old, (members old).mpr (.inl mem), .refl old⟩
  · intro new mem
    rcases (members new).mp mem with old | rfl
    · exact .inr ⟨new, old, .refl new⟩
    · left
      constructor
      · simp [inserts.unended, inserts.pending, RunState.isTerminal]
      · simp [inserts.unscheduled]

theorem Database.Selects.evolves {node : String} {candidate : DispatchCandidate}
    (selects : db.Selects node candidate after) :
    db.Evolves after ∧
      ∃ run ∈ after.runs, run.id = candidate.runId ∧ run.state.isActive = true := by
  cases selects with
  | manual mem pending => exact ⟨.refl db, _, mem, rfl, by rw [pending]; rfl⟩
  | retry mem running => exact ⟨.refl db, _, mem, rfl, by rw [running]; rfl⟩
  | scheduled inserts =>
      rcases inserts.runs with ⟨_, _, _, members⟩
      exact ⟨inserts.evolves, _, (members _).mpr (.inr rfl), rfl, by rw [inserts.pending]; rfl⟩

/-- The updates of a dispatch are guarded by the id only; the run they concern is active. -/
theorem Database.Polls.evolves {node : String} {action : Option PollAction}
    {compile : DispatchSource → Except StoreError (Option CompiledDispatch)}
    (polls : db.Polls node now compile action after) : db.Evolves after := by
  cases polls with
  | nothing | cancel => exact .refl db
  | redeliver => exact .of_runs_eq rfl
  | @dispatch candidate generation _ _ staged _ selects _ _ _ persists =>
      rcases selects.evolves with ⟨evolves, run, mem, named, active⟩
      rcases Database.persistDispatch_eq_ok persists with ⟨_, _, _, _, runs, _⟩
      apply evolves.trans
      constructor
      · intro old oldMem
        rcases runs.successor oldMem with ⟨new, newMem, rfl⟩
        exact ⟨_, newMem, dispatched mem named active oldMem⟩
      · intro new newMem
        rcases runs.origin newMem with ⟨old, oldMem, rfl⟩
        exact .inr ⟨old, oldMem, dispatched mem named active oldMem⟩
where
  dispatched {staged : Database} {run old : RunRow} {source : DispatchSource}
      {policy : RunPolicySnapshot} (mem : run ∈ staged.runs) (named : run.id = source.runId)
      (active : run.state.isActive = true) (oldMem : old ∈ staged.runs) :
      old.Evolves (old.dispatchedAs source policy) := by
    unfold RunRow.dispatchedAs
    split
    next own =>
      have same := Table.eq_of_key_eq oldMem mem (own.trans named.symm)
      subst same
      exact .keep rfl active rfl rfl (by simp) (by simp)
    next => exact .refl old

theorem Database.Cancels.evolves {runId : String} {rearm : String → Except StoreError (Option ℤ)}
    (cancels : db.Cancels runId now rearm after) : db.Evolves after := by
  cases cancels with
  | ended => exact .refl db
  | @requested run mem named active =>
      apply Database.Evolves.of_rowwise
      apply Table.rowwise_of_map rfl
      intro old oldMem
      split
      next own =>
        have same := Table.eq_of_key_eq oldMem mem ((of_decide_eq_true own).trans named.symm)
        subst same
        exact .keep rfl active rfl rfl (by simp +contextual) (fun due => due)
      next => exact .refl old
  | @undispatched run _ mem named active =>
      constructor
      · intro old oldMem
        rcases (Database.rowwise_cancelled).successor oldMem with ⟨new, newMem, rfl⟩
        exact ⟨_, newMem, cancelled mem named active oldMem⟩
      · intro new newMem
        rcases (Database.rowwise_cancelled).origin newMem with ⟨old, oldMem, rfl⟩
        exact .inr ⟨old, oldMem, cancelled mem named active oldMem⟩
where
  cancelled {run old : RunRow} (mem : run ∈ db.runs) (named : run.id = runId)
      (active : run.state.isActive = true) (oldMem : old ∈ db.runs) :
      old.Evolves (if old.id = runId then old.cancelledAt now else old) := by
    split
    next own =>
      have same := Table.eq_of_key_eq oldMem mem (own.trans named.symm)
      subst same
      exact .finish rfl active rfl rfl (by simp +contextual [RunRow.cancelledAt]) (fun _ => rfl)
    next => exact .refl old

/-- An active run that an event is about is started, sent to wait, or ended. -/
theorem Database.Projects.evolves {runId : String} {attemptNo : ℕ} {event : AttemptEvent}
    {retryScheduled : Bool}
    (projects : db.Projects runId attemptNo event now (decideTerminal vendor) retryScheduled
      after) : db.Evolves after := by
  cases projects with
  | nothing => exact .refl db
  | start =>
      apply Database.Evolves.of_rowwise
      apply Table.rowwise_of_map rfl
      intro run _
      split
      next matched =>
        simp only [Bool.and_eq_true, decide_eq_true_eq] at matched
        have active : run.state.isActive = true := by rw [matched.2]; rfl
        exact .proceed rfl active rfl rfl (fun formed => formed.unfinished active)
      next => exact .refl run
  | @decided _ source decision _ decides =>
      unfold Database.applyDecision
      cases retry : decision.retry with
      | schedule due =>
          apply Database.Evolves.of_rowwise
          apply Table.rowwise_of_map rfl
          intro run _
          split
          next matched =>
            simp only [Bool.and_eq_true, decide_eq_true_eq] at matched
            exact .proceed rfl matched.2 rfl rfl (fun _ => rfl)
          next => exact .refl run
      | final state =>
          have ended : state.isTerminal = true :=
            decideRetry_final ((decideTerminal_retry decides).symm.trans retry)
          have finished : Table.Rowwise RunRow.Evolves db.runs
              (db.finishRun runId state event.projection.runStartedAtMs
                (event.projection.runFinishedAtMs.getD now) event).runs := by
            apply Table.rowwise_of_map rfl
            intro run _
            split
            next matched =>
              simp only [Bool.and_eq_true, decide_eq_true_eq] at matched
              exact .finish rfl matched.2 ended rfl (by simp) (fun _ => rfl)
            next => exact .refl run
          cases decision.intervalNextDueAtMs <;> exact .of_rowwise finished

theorem Database.Applies.evolves {attempt : AttemptRow} {event : AttemptEvent}
    {result : AttemptEventApplyResult}
    (applies : db.Applies attempt event now (decideTerminal vendor) result after) :
    db.Evolves after := by
  cases applies with
  | known => exact .refl db
  | recorded _ _ projects =>
      have recorded : db.Evolves (db.recordEvent attempt.key event) := .of_runs_eq rfl
      exact recorded.trans projects.evolves

theorem StoreOp.evolves (db : Database) (operation : StoreOp vendor) :
    db.Evolves (operation.run db) := by
  have effect := operation.run_effect db
  generalize operation.run db = after at effect
  cases effect with
  | unchanged => exact .refl db
  | bookkeeping => exact .of_runs_eq rfl
  | configured _ _ _ applied => exact configSteps_evolve (Database.apply_steps applied)
  | created creates => exact creates.inserts.evolves
  | polled polls => exact polls.evolves
  | cancelled cancels => exact cancels.evolves
  | reported _ _ applies => exact applies.evolves

theorem normalizeRestored_evolves (db : Database) (restoredAtMs : ℤ) :
    db.Evolves (db.normalizeRestored restoredAtMs) := by
  have cancelled : (db.interruptAttempts restoredAtMs).Evolves
      ((db.interruptAttempts restoredAtMs).cancelUndispatchedRuns restoredAtMs) := by
    apply Database.Evolves.of_rowwise
    apply Table.rowwise_of_map rfl
    intro run _
    split
    next matched =>
      simp only [Bool.and_eq_true, decide_eq_true_eq] at matched
      exact .finish rfl (by rw [matched.1]; rfl) rfl rfl (by simp) (fun _ => rfl)
    next => exact .refl run
  have interrupted :
      ((db.interruptAttempts restoredAtMs).cancelUndispatchedRuns restoredAtMs).Evolves
        (db.normalizeRestored restoredAtMs) := by
    apply Database.Evolves.of_rowwise
    apply Table.rowwise_of_map rfl
    intro run _
    split
    next matched =>
      simp only [RunState.isActive_eq] at matched
      exact .finish rfl matched rfl rfl (by simp) (fun _ => rfl)
    next => exact .refl run
  have unread : db.Evolves (db.interruptAttempts restoredAtMs) := .of_runs_eq rfl
  exact (unread.trans cancelled).trans interrupted

theorem LifeStep.evolves (step : LifeStep vendor db after) : db.Evolves after := by
  rcases step with ⟨operation, _, rfl⟩ | ⟨restoredAtMs, rfl⟩
  · exact operation.evolves db
  · exact normalizeRestored_evolves db restoredAtMs

theorem lifeSteps_evolve (steps : Relation.ReflTransGen (LifeStep vendor) db after) :
    db.Evolves after := by
  induction steps with
  | refl => exact .refl db
  | tail _ step ih => exact ih.trans step.evolves

end Statements

/--
In every database that transactions and restores lead to, a run has an end time
exactly when it has ended and a retry deadline only while it is running; and
however the history continues, the row of a run that has ended stays what it is
and a running run does not become pending.
-/
theorem run_life_cycle {vendor : Vendor} {db later : Database}
    (reached : LifeReachable vendor db)
    (continued : Relation.ReflTransGen (LifeStep vendor) db later) :
    ∀ run ∈ db.runs,
      (run.finishedAtMs.isSome = true ↔ run.state.isTerminal = true) ∧
      (run.retryDueAtMs.isSome = true → run.state = .running) ∧
      ∃ new ∈ later.runs, new.id = run.id ∧
        (run.state.isTerminal = true → new = run) ∧
        (run.state = .running → new.state ≠ .pending) := by
  intro run mem
  have formed : run.WellFormed := by
    rcases (lifeSteps_evolve reached).origin run mem with formed | ⟨_, none, _⟩
    · exact formed
    · exact absurd none Table.not_mem_empty
  rcases (lifeSteps_evolve continued).kept run mem with ⟨new, newMem, evolves⟩
  refine ⟨formed.finished, formed.waiting, new, newMem, evolves.id, evolves.settled, ?_⟩
  intro running
  apply evolves.begun
  simp [running]

/-- The second attempt of a run succeeds, and the mirror is run again. -/
def Sample.succeeded : List (StoreOp Sample.vendor) :=
  Sample.retried ++
    [.applyEvent "run-1" 2 (report 1 .succeeded) 7000,
      .createManualRun "alpha" "request-2" 8000 "run-2"]

theorem run_life_cycle_restored :
    (StoreOp.runAll .empty Sample.succeeded).runs.any (fun run => run.state.isTerminal) = true ∧
    ∀ run ∈ (StoreOp.runAll .empty Sample.succeeded).runs,
      (run.finishedAtMs.isSome = true ↔ run.state.isTerminal = true) ∧
      (run.retryDueAtMs.isSome = true → run.state = .running) ∧
      ∃ new ∈ ((StoreOp.runAll .empty Sample.succeeded).normalizeRestored 9000).runs,
        new.id = run.id ∧ (run.state.isTerminal = true → new = run) ∧
          (run.state = .running → new.state ≠ .pending) := by
  have reached : LifeReachable Sample.vendor (StoreOp.runAll .empty Sample.succeeded) :=
    StoreOp.lifeSteps_runAll _ _
  exact ⟨by decide +kernel, run_life_cycle reached (.single (.inr ⟨9000, rfl⟩))⟩

end LzuMirror
