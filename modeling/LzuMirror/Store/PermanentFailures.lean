import LzuMirror.Store.Delivery
import LzuMirror.Store.Revocation

/-!
# Failures that should not be retried

An invalid result and an abandoned publication are permanent: the run should end
with them. The retry decision sees the state of the attempt only, not the kind of
its failure, so a failed attempt is retried whenever a retry is left and the mirror
is still eligible. `permanent_failure_ends_run_iff` says when the run ends.
-/

namespace LzuMirror

/-- A failure that a retry cannot repair. -/
def FailureKind.isPermanent : FailureKind → Bool
  | .invalidResult | .publicationDurability => true
  | .process | .timeout | .interrupted | .rejected => false

/-- Another attempt is left, and the mirror is still managed, enabled and on its node. -/
def Database.GrantsRetry (db : Database) (run : RunRow) : Prop :=
  run.attemptCount < run.maxAttempts ∧ run.cancelRequestedAtMs = none ∧
    ∃ row ∈ db.mirrors, row.name = run.mirrorName ∧ row.managed = true ∧ row.enabled = true ∧
      row.ownerNode = run.ownerNode

/-- The run has failed for good, and in no continuation does a poll create an attempt of it. -/
structure Database.FailsForGood (vendor : Vendor) (after : Database) (runId : String)
    (kind : FailureKind) : Prop where
  ended : ∃ run ∈ after.runs, run.id = runId ∧ run.state = .failed ∧
    run.failureKind = some kind.str ∧ run.retryDueAtMs = none
  unattempted : ∀ later, Relation.ReflTransGen (LifeStep vendor) after later →
    ∀ node time newRunId compile action next,
      later.pollAction node time newRunId compile = .ok (action, next) →
        ∀ attempt ∈ next.attempts, attempt.runId = runId →
          ∃ known ∈ later.attempts, known.key = attempt.key

section Decision

variable {vendor : Vendor} {db after : Database} {run : RunRow} {now : ℤ}

/-- Every run of a reachable database is well formed. -/
theorem LifeReachable.wellFormed (reached : LifeReachable vendor db) (mem : run ∈ db.runs) :
    run.WellFormed := by
  rcases (lifeSteps_evolve reached).origin run mem with formed | ⟨earlier, absurdMem, _⟩
  · exact formed
  · exact absurd absurdMem Table.not_mem_empty

/-- What is decided about a failed attempt, in the terms of the database. -/
theorem Database.decides_failed {source : TerminalDecisionSource} {decision : TerminalDecision}
    (mem : run ∈ db.runs)
    (sourced : db.terminalSource run.id run.attemptCount .failed = .ok source)
    (decides : decideTerminal vendor source now = .ok decision) :
    (db.GrantsRetry run ∧ ∃ due, decision.retry = .schedule due) ∨
      ¬db.GrantsRetry run ∧ decision.retry = .final .failed := by
  rw [decideTerminal_retry decides]
  unfold Database.terminalSource at sourced
  rw [Table.find?_of_mem mem] at sourced
  simp only at sourced
  split at sourced
  · cases sourced
  next row generation current =>
    cases sourced
    rcases Database.currentGeneration_eq_some.mp current with ⟨rowMem, named, _⟩
    have grants : db.GrantsRetry run ↔ run.attemptCount < run.maxAttempts ∧
        run.cancelRequestedAtMs = none ∧ row.managed = true ∧ row.enabled = true ∧
          row.ownerNode = run.ownerNode := by
      constructor
      · rintro ⟨left, uncancelled, other, otherMem, otherNamed, eligible⟩
        have same := Table.eq_of_key_eq otherMem rowMem (otherNamed.trans named.symm)
        exact ⟨left, uncancelled, same ▸ eligible⟩
      · rintro ⟨left, uncancelled, eligible⟩
        exact ⟨left, uncancelled, row, rowMem, named, eligible⟩
    by_cases granted : db.GrantsRetry run
    · left
      rcases grants.mp granted with ⟨attemptsLeft, uncancelled, managed, enabled, owner⟩
      refine ⟨granted, _, if_pos ?_⟩
      simp [TerminalDecisionSource.retryContext, AttemptState.retryable, attemptsLeft, uncancelled,
        managed, enabled, owner]
    · right
      refine ⟨granted, if_neg ?_⟩
      intro scheduled
      apply granted
      rw [grants]
      simp only [TerminalDecisionSource.retryContext, Bool.and_eq_true, Bool.not_eq_true',
        Option.isSome_eq_false_iff, Option.isNone_iff_eq_none] at scheduled
      rcases scheduled with ⟨⟨⟨⟨_, left⟩, uncancelled⟩, eligible⟩, owner⟩
      exact ⟨of_decide_eq_true left, uncancelled, eligible.1, eligible.2, of_decide_eq_true owner⟩

/-- A run that has ended is not attempted again. -/
theorem LifeReachable.unattempted {later next : Database} {node newRunId : String} {time : ℤ}
    {compile : DispatchSource → Except StoreError (Option CompiledDispatch)}
    {action : Option PollAction} (reached : LifeReachable vendor after) (mem : run ∈ after.runs)
    (ended : run.state.isTerminal = true)
    (continued : Relation.ReflTransGen (LifeStep vendor) after later)
    (polled : later.pollAction node time newRunId compile = .ok (action, next)) :
    ∀ attempt ∈ next.attempts, attempt.runId = run.id →
      ∃ known ∈ later.attempts, known.key = attempt.key := by
  have stopping : later.Stopping := LifeReachable.stopping (reached.trans continued)
  rcases (lifeSteps_evolve continued).kept run mem with ⟨kept, keptMem, evolves⟩
  have same := evolves.settled ended
  subst same
  exact (stopping.unanswered (Database.pollAction_eq_ok polled) keptMem (.inr ended)).2

end Decision

/--
The first report that the latest attempt of a run failed permanently ends the run
with this failure, for good, exactly when no retry is granted to the active run; a
run that has ended before stays as it is and has to have failed this way.
-/
theorem permanent_failure_ends_run_iff {vendor : Vendor} {db after : Database} {run : RunRow}
    {attempt : AttemptRow} {event : AttemptEvent} {kind : FailureKind} {now : ℤ}
    {result : AttemptEventApplyResult} (reached : LifeReachable vendor db) (runMem : run ∈ db.runs)
    (mem : attempt ∈ db.attempts) (latest : attempt.key = (run.id, run.attemptCount))
    (live : attempt.state.isTerminal = false) (failed : event.state = .failed)
    (failure : event.failureKind = some kind)
    (newer : attempt.lastEventSequence < event.eventSequence)
    (applied : db.applyEvent run.id run.attemptCount event now (decideTerminal vendor) =
      .ok (result, after)) :
    after.FailsForGood vendor run.id kind ↔
      (run.state.isActive = true ∧ ¬db.GrantsRetry run) ∨
        (run.state = .failed ∧ run.failureKind = some kind.str) := by
  have later : LifeReachable vendor after := by
    refine reached.tail (.inl ⟨.applyEvent run.id run.attemptCount event now, trivial, ?_⟩)
    simp only [StoreOp.run, applied, committed]
  rcases Database.applyEvent_eq_ok applied with ⟨found, foundMem, keyed, applies⟩
  have sameAttempt : found = attempt :=
    Table.eq_of_key_eq foundMem mem (keyed.trans latest.symm)
  subst sameAttempt
  rcases Prod.mk.inj keyed with ⟨owner, number⟩
  -- the row of the run after the report
  have decided : ∃ decision : TerminalDecision,
      after.runs.find? run.id = some (run.decided event decision.retry now) ∧
        ((db.GrantsRetry run ∧ ∃ due, decision.retry = .schedule due) ∨
          ¬db.GrantsRetry run ∧ decision.retry = .final .failed) := by
    cases applies with
    | known old => omega
    | recorded _ _ projects =>
        cases projects with
        | nothing queued => rw [failed] at queued; cases queued
        | start started => rw [failed] at started; rcases started with begun | begun <;> cases begun
        | @decided _ source decision sourced decides =>
            refine ⟨decision, ?_, ?_⟩
            · rw [← owner]
              apply Database.applyDecision_find?
              rw [owner]
              exact Table.find?_of_mem runMem
            · rw [owner, number, failed] at sourced
              exact Database.decides_failed runMem sourced decides
  rcases decided with ⟨decision, afterFound, decision_eq⟩
  rcases Table.find?_eq_some_iff.mp afterFound with ⟨afterMem, afterNamed⟩
  -- the run ends for good as soon as it is failed with this kind
  have forGood_iff : after.FailsForGood vendor run.id kind ↔
      (run.decided event decision.retry now).state = .failed ∧
        (run.decided event decision.retry now).failureKind = some kind.str := by
    constructor
    · rintro ⟨⟨ended, endedMem, named, state, kindOf, _⟩, _⟩
      rw [← Table.eq_of_key_eq endedMem afterMem (named.trans afterNamed.symm)]
      exact ⟨state, kindOf⟩
    · rintro ⟨state, kindOf⟩
      have ended : (run.decided event decision.retry now).state.isTerminal = true := by
        rw [state]
        rfl
      refine ⟨⟨_, afterMem, afterNamed, state, kindOf, ?_⟩, ?_⟩
      · cases due : (run.decided event decision.retry now).retryDueAtMs with
        | none => rfl
        | some time =>
            have running := (later.wellFormed afterMem).waiting (by rw [due]; rfl)
            rw [state] at running
            cases running
      · intro final continued node time newRunId compile action next polled
        have silent := later.unattempted afterMem ended continued polled
        rwa [afterNamed] at silent
  rw [forGood_iff]
  by_cases active : run.state.isActive = true
  · have notFailed : run.state ≠ .failed := by
      intro isFailed
      rw [isFailed] at active
      cases active
    simp only [active, true_and, notFailed, false_and, or_false]
    rcases decision_eq with ⟨granted, due, retry⟩ | ⟨refused, retry⟩
    · simp [RunRow.decided, active, retry, granted]
    · simp [RunRow.decided, active, retry, refused, failure]
  · simp only [active, Bool.false_eq_true, false_and, false_or, RunRow.decided, if_false]

/-! The attempt of `Sample.awaited` fails permanently. -/

/-- The report of a permanent failure. -/
def Sample.failure (kind : FailureKind) : AttemptEvent :=
  { Sample.report 2 .failed with failureKind := some kind }

/-- The run of `Sample.awaited`, cancelled while its attempt is at work. -/
def Sample.recalled : List (StoreOp Sample.vendor) :=
  Sample.awaited ++ [.requestCancellation "run-1" 4000]

theorem permanent_failure_ends_run_iff_recalled :
    ∃ result after, (StoreOp.runAll .empty Sample.recalled).applyEvent "run-1" 1
        (Sample.failure .publicationDurability) 5000 (decideTerminal Sample.vendor) =
          .ok (result, after) ∧
      after.FailsForGood Sample.vendor "run-1" .publicationDurability := by
  have reached : LifeReachable Sample.vendor (StoreOp.runAll .empty Sample.recalled) :=
    StoreOp.lifeSteps_runAll _ _
  have atWork : (StoreOp.runAll .empty Sample.recalled).runs.any (fun run =>
      decide (run.id = "run-1") && decide (run.attemptCount = 1) && run.state.isActive &&
        run.cancelRequestedAtMs.isSome) = true := by decide +kernel
  have queued : (StoreOp.runAll .empty Sample.recalled).attempts.any (fun attempt =>
      decide (attempt.key = ("run-1", 1)) && !attempt.state.isTerminal &&
        decide (attempt.lastEventSequence = 0)) = true := by decide +kernel
  have accepts : ((StoreOp.runAll .empty Sample.recalled).applyEvent "run-1" 1
      (Sample.failure .publicationDurability) 5000
      (decideTerminal Sample.vendor)).isOk = true := by decide +kernel
  rcases Table.any_eq_true.mp atWork with ⟨run, runMem, isRun⟩
  rcases Table.any_eq_true.mp queued with ⟨attempt, mem, isAttempt⟩
  simp only [Bool.and_eq_true, decide_eq_true_eq, Bool.not_eq_true'] at isRun isAttempt
  rcases isRun with ⟨⟨⟨named, count⟩, active⟩, requested⟩
  rcases isAttempt with ⟨⟨keyed, live⟩, fresh⟩
  cases applied : (StoreOp.runAll .empty Sample.recalled).applyEvent "run-1" 1
      (Sample.failure .publicationDurability) 5000 (decideTerminal Sample.vendor) with
  | error reason =>
      rw [applied] at accepts
      cases accepts
  | ok outcome =>
      refine ⟨outcome.1, outcome.2, rfl, ?_⟩
      rw [← named, ← count] at applied keyed
      rw [← named]
      refine (permanent_failure_ends_run_iff reached runMem mem keyed live rfl rfl
        (by rw [fresh]; decide) applied).mpr (.inl ⟨active, ?_⟩)
      rintro ⟨_, uncancelled, _⟩
      rw [uncancelled] at requested
      cases requested

/-- An invalid result is retried. -/
theorem invalid_result_is_retried :
    ¬∀ (vendor : Vendor) (db : Database), LifeReachable vendor db → ∀ run ∈ db.runs,
      ∀ attempt ∈ db.attempts, attempt.key = (run.id, run.attemptCount) →
        attempt.state.isTerminal = false → ∀ (event : AttemptEvent) (kind : FailureKind),
          event.state = .failed → event.failureKind = some kind → kind.isPermanent = true →
          attempt.lastEventSequence < event.eventSequence → ∀ now result after,
            db.applyEvent run.id run.attemptCount event now (decideTerminal vendor) =
              .ok (result, after) → after.FailsForGood vendor run.id kind := by
  intro claimed
  have reached : LifeReachable Sample.vendor (StoreOp.runAll .empty Sample.awaited) :=
    StoreOp.lifeSteps_runAll _ _
  rcases Sample.awaited_rows with ⟨attempt, mem, keyed, queued, fresh, run, runMem, owner⟩
  have count : run.attemptCount = 1 := by
    have every : (StoreOp.runAll .empty Sample.awaited).runs.rows.all
        (fun run => decide (run.attemptCount = 1)) = true := by decide +kernel
    exact of_decide_eq_true (List.all_eq_true.mp every run (Table.mem_def.mp runMem))
  have named : run.id = "run-1" := owner.trans (congrArg Prod.fst keyed)
  have waits : ((StoreOp.runAll .empty Sample.awaited).applyEvent "run-1" 1
      (Sample.failure .invalidResult) 5000 (decideTerminal Sample.vendor)).toOption.map
        (fun outcome => (outcome.2.runs.find? "run-1").map (·.state)) =
          some (some .running) := by decide +kernel
  rcases Option.map_eq_some_iff.mp waits with ⟨outcome, applied, state⟩
  have ends := claimed Sample.vendor _ reached run runMem attempt mem
    (by rw [keyed, named, count]) (by rw [queued]; rfl) (Sample.failure .invalidResult)
    .invalidResult rfl rfl rfl (by rw [fresh]; decide) 5000 outcome.1 outcome.2
    (by rw [named, count]; exact eq_ok_of_toOption applied)
  rcases ends.ended with ⟨ended, endedMem, endedNamed, failed, _⟩
  rw [named] at endedNamed
  rw [Table.find?_eq_some_iff.mpr ⟨endedMem, endedNamed⟩, Option.map_some, failed] at state
  cases state

end LzuMirror
