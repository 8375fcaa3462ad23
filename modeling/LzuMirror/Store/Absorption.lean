import LzuMirror.Store.LiveAttempts

/-!
# Reports about attempts that have ended

An attempt that has ended should not be disturbed by later reports. The
transition table relates every state to itself, so a report that repeats the
final state under a newer sequence number passes it: the result columns are
written again, the retry decision is made again and the interval is armed again.
`applyEvent_absorbs_iff` says exactly which reports leave everything as it is.
-/

namespace LzuMirror

/-- What an attempt row records about how the attempt went. -/
structure AttemptOutcome where
  state : AttemptState
  exitCode : Option ℤ
  failureKind : Option String
  failureMessage : Option String
  acceptedAtMs : Option ℤ
  startedAtMs : Option ℤ
  finishedAtMs : Option ℤ
  deriving DecidableEq, Repr

def AttemptRow.outcome (attempt : AttemptRow) : AttemptOutcome where
  state := attempt.state
  exitCode := attempt.exitCode
  failureKind := attempt.failureKind
  failureMessage := attempt.failureMessage
  acceptedAtMs := attempt.acceptedAtMs
  startedAtMs := attempt.startedAtMs
  finishedAtMs := attempt.finishedAtMs

/-- The database after an event, whether it was accepted or refused. -/
def Database.afterEvent (vendor : Vendor) (db : Database) (attempt : AttemptRow)
    (event : AttemptEvent) (now : ℤ) : Database :=
  committed db
    (db.applyEvent attempt.runId attempt.attemptNo event now (decideTerminal vendor))

/-- An event leaves the attempt's outcome and everything around it as it is. -/
structure Database.Absorbs (vendor : Vendor) (db : Database) (attempt : AttemptRow)
    (event : AttemptEvent) (now : ℤ) : Prop where
  outcome : ((db.afterEvent vendor attempt event now).attempts.find? attempt.key).map
    AttemptRow.outcome = some attempt.outcome
  others : ∀ key, key ≠ attempt.key →
    (db.afterEvent vendor attempt event now).attempts.find? key = db.attempts.find? key
  run : (db.afterEvent vendor attempt event now).runs.find? attempt.runId =
    db.runs.find? attempt.runId
  schedule : ∀ run, db.runs.find? attempt.runId = some run →
    (db.afterEvent vendor attempt event now).schedules.find? run.mirrorName =
      db.schedules.find? run.mirrorName
  noRetry : ∀ result after,
    db.applyEvent attempt.runId attempt.attemptNo event now (decideTerminal vendor) =
      .ok (result, after) → result.retryScheduled = false

/-- The event has nothing to add to the outcome columns. -/
def AttemptRow.Repeats (attempt : AttemptRow) (event : AttemptEvent) : Prop :=
  event.exitCode = attempt.exitCode ∧
    event.failureKind.map FailureKind.str = attempt.failureKind ∧
    event.failureMessage = attempt.failureMessage ∧
    (attempt.acceptedAtMs = none → event.acceptedAtMs = none) ∧
    (attempt.startedAtMs = none → event.startedAtMs = none) ∧
    (attempt.finishedAtMs = none → event.finishedAtMs = none)

/-- Deciding about the run again changes nothing: it has ended and no interval is armed anew. -/
def Database.DecidedBefore (db : Database) (attempt : AttemptRow)
    (source : TerminalDecisionSource) (decision : TerminalDecision) (now : ℤ) : Prop :=
  decision.schedulesRetry = false ∧
    (∀ run, db.runs.find? attempt.runId = some run → run.state.isTerminal = true) ∧
    ∀ nextDue, decision.intervalNextDueAtMs = some nextDue →
      ∀ row, db.schedules.find? source.mirrorName = some row →
        row.runtime = ⟨some nextDue, some now, false, none⟩

/--
The event is known already, names another state, cannot be stored or decided, or
repeats what is stored about an attempt whose run was decided before.
-/
def Database.Inert (vendor : Vendor) (db : Database) (attempt : AttemptRow)
    (event : AttemptEvent) (now : ℤ) : Prop :=
  event.eventSequence ≤ attempt.lastEventSequence ∨ event.state ≠ attempt.state ∨
    i64Max < event.eventSequence ∨
    ∀ source, db.terminalSource attempt.runId attempt.attemptNo attempt.state = .ok source →
      ∀ decision, decideTerminal vendor source now = .ok decision →
        attempt.Repeats event ∧ db.DecidedBefore attempt source decision now

section Cases

variable {vendor : Vendor} {db : Database} {attempt : AttemptRow} {event : AttemptEvent} {now : ℤ}

/-- An event that is refused or known already is absorbed. -/
theorem Database.Absorbs.of_unchanged (mem : attempt ∈ db.attempts)
    (unchanged : db.afterEvent vendor attempt event now = db)
    (noRetry : ∀ result after,
      db.applyEvent attempt.runId attempt.attemptNo event now (decideTerminal vendor) =
        .ok (result, after) → result.retryScheduled = false) :
    db.Absorbs vendor attempt event now where
  outcome := by rw [unchanged, Table.find?_of_mem mem]; rfl
  others := by rw [unchanged]; exact fun _ _ => rfl
  run := by rw [unchanged]
  schedule := by rw [unchanged]; exact fun _ _ => rfl
  noRetry := noRetry

theorem Database.Absorbs.of_error {reason : StoreError} (mem : attempt ∈ db.attempts)
    (refused : db.applyEvent attempt.runId attempt.attemptNo event now (decideTerminal vendor) =
      .error reason) : db.Absorbs vendor attempt event now := by
  refine .of_unchanged mem (by rw [Database.afterEvent, refused]; rfl) ?_
  intro result after applied
  rw [refused] at applied
  cases applied

/-- A terminal state accepts only itself. -/
theorem AttemptState.accepts_terminal_iff {current next : AttemptState}
    (terminal : current.isTerminal = true) : current.accepts next = true ↔ next = current := by
  constructor
  · exact AttemptState.accepts_of_isTerminal terminal
  · rintro rfl
    simp [AttemptState.accepts, AttemptState.allows]

/-- Applying a newer report that the attempt has ended, step by step. -/
theorem Database.applyEvent_terminal (mem : attempt ∈ db.attempts)
    (accepted : attempt.state.accepts event.state = true)
    (ended : event.state.isTerminal = true)
    (newer : ¬event.eventSequence ≤ attempt.lastEventSequence)
    (fits : ¬i64Max < event.eventSequence) :
    db.applyEvent attempt.runId attempt.attemptNo event now (decideTerminal vendor) = do
      let source ← db.terminalSource attempt.runId attempt.attemptNo event.state
      let decision ← decideTerminal vendor source now
      return (⟨event.eventSequence, true, decision.schedulesRetry⟩,
        (db.recordEvent attempt.key event).applyDecision attempt.runId source.mirrorName event
          event.projection decision now) := by
  have found : db.attempts.find? (attempt.runId, attempt.attemptNo) = some attempt :=
    Table.find?_of_mem mem
  have sourceKept : (db.recordEvent (attempt.runId, attempt.attemptNo) event).terminalSource
      attempt.runId attempt.attemptNo event.state =
        db.terminalSource attempt.runId attempt.attemptNo event.state := rfl
  unfold Database.applyEvent
  simp only [found, newer, if_false, projectAttemptEvent_eq, accepted, if_true, fits,
    Database.applyProjection_terminal ended, sourceKept, bind_assoc, pure_bind]
  rfl

/-- The event keeps the outcome exactly when it has nothing to add. -/
theorem AttemptRow.outcome_record (same : event.state = attempt.state) :
    (attempt.record event).outcome = attempt.outcome ↔ attempt.Repeats event := by
  have coalesced : ∀ stored new : Option ℤ,
      (stored <|> new) = stored ↔ (stored = none → new = none) := by
    intro stored new
    cases stored <;> simp
  simp only [AttemptRow.outcome, AttemptRow.record, AttemptOutcome.mk.injEq, same, true_and,
    coalesced, AttemptRow.Repeats]

/-- Arming the interval keeps the schedule row exactly when it is armed that way already. -/
theorem Database.rearmSchedule_eq_iff {mirror : String} {nextDue : ℤ} :
    (db.rearmSchedule mirror nextDue now).schedules.find? mirror = db.schedules.find? mirror ↔
      ∀ row, db.schedules.find? mirror = some row →
        row.runtime = ⟨some nextDue, some now, false, none⟩ := by
  have armed : (db.rearmSchedule mirror nextDue now).schedules.find? mirror =
      (db.schedules.find? mirror).map fun row =>
        if decide (row.mirrorName = mirror) then
          { row with runtime := ⟨some nextDue, some now, false, none⟩ } else row :=
    Table.find?_of_map rfl (by intro row; split <;> rfl)
  rw [armed]
  cases found : db.schedules.find? mirror with
  | none => simp
  | some row =>
      rcases Table.find?_eq_some_iff.mp found with ⟨_, named⟩
      simp only [Option.map_some, named, decide_true, if_true, Option.some.injEq, forall_eq']
      constructor
      · intro same
        exact (congrArg ScheduleRow.runtime same).symm
      · intro same
        rw [← same, ← named]

/-- Ending the run keeps its row exactly when it had ended before. -/
theorem Database.finishRun_eq_iff {state : RunState} {startedAtMs : Option ℤ} {finishedAtMs : ℤ}
    (ends : state.isTerminal = true) :
    (db.finishRun attempt.runId state startedAtMs finishedAtMs event).runs.find? attempt.runId =
        db.runs.find? attempt.runId ↔
      ∀ run, db.runs.find? attempt.runId = some run → run.state.isTerminal = true := by
  have finished : (db.finishRun attempt.runId state startedAtMs finishedAtMs event).runs.find?
      attempt.runId = (db.runs.find? attempt.runId).map fun run =>
        if decide (run.id = attempt.runId) && run.state.isActive then
          { run with
            state
            startedAtMs := run.startedAtMs <|> startedAtMs
            finishedAtMs := some finishedAtMs
            retryDueAtMs := none
            finalExitCode := event.exitCode
            failureKind := event.failureKind.map FailureKind.str
            failureMessage := event.failureMessage } else run :=
    Table.find?_of_map rfl (by intro run; split <;> rfl)
  rw [finished]
  cases found : db.runs.find? attempt.runId with
  | none => simp
  | some run =>
      rcases Table.find?_eq_some_iff.mp found with ⟨_, named⟩
      simp only [Option.map_some, named, decide_true, Bool.true_and, Option.some.injEq, forall_eq']
      cases before : run.state.isTerminal with
      | true => simp [RunState.isActive, before]
      | false =>
          simp only [RunState.isActive, before, Bool.not_false, if_true, Bool.false_eq_true,
            iff_false]
          intro same
          have stateKept := congrArg RunRow.state same
          simp only at stateKept
          rw [← stateKept, ends] at before
          cases before

/-- The decision is about the mirror of the attempt's run. -/
theorem Database.terminalSource_mirrorName {source : TerminalDecisionSource} {runId : String}
    {attemptNo : ℕ} {state : AttemptState}
    (sourced : db.terminalSource runId attemptNo state = .ok source) :
    ∃ run, db.runs.find? runId = some run ∧ source.mirrorName = run.mirrorName := by
  unfold Database.terminalSource at sourced
  split at sourced
  · cases sourced
  next run found =>
    split at sourced
    · cases sourced
    next mirror generation current =>
      cases sourced
      exact ⟨run, found, (Database.currentGeneration_eq_some.mp current).2.1⟩

/-- A repeated report is absorbed exactly when deciding again changes nothing. -/
theorem Database.absorbs_repeated_iff {source : TerminalDecisionSource}
    {decision : TerminalDecision} (mem : attempt ∈ db.attempts)
    (same : event.state = attempt.state)
    (sourced : db.terminalSource attempt.runId attempt.attemptNo attempt.state = .ok source)
    (decides : decideTerminal vendor source now = .ok decision)
    (applied : db.applyEvent attempt.runId attempt.attemptNo event now (decideTerminal vendor) =
      .ok (⟨event.eventSequence, true, decision.schedulesRetry⟩,
        (db.recordEvent attempt.key event).applyDecision attempt.runId source.mirrorName event
          event.projection decision now)) :
    db.Absorbs vendor attempt event now ↔
      attempt.Repeats event ∧ db.DecidedBefore attempt source decision now := by
  obtain ⟨run, runFound, mirrorName⟩ := Database.terminalSource_mirrorName sourced
  have after : db.afterEvent vendor attempt event now =
      (db.recordEvent attempt.key event).applyDecision attempt.runId source.mirrorName event
        event.projection decision now := by
    rw [Database.afterEvent, applied]
    rfl
  have recorded : ∀ key, (db.recordEvent attempt.key event).attempts.find? key =
      (db.attempts.find? key).map fun row =>
        if decide (row.key = attempt.key) then row.record event else row :=
    fun key => Table.find?_of_map rfl (by intro row; split <;> rfl)
  cases retry : decision.retry with
  | schedule due =>
      -- a granted retry is announced, and both sides fail
      have announced : decision.schedulesRetry = true := by
        simp [TerminalDecision.schedulesRetry, retry]
      constructor
      · intro absorbs
        have silent : decision.schedulesRetry = false := absorbs.noRetry _ _ applied
        rw [silent] at announced
        cases announced
      · rintro ⟨_, silent, _⟩
        rw [silent] at announced
        cases announced
  | final state =>
      have silent : decision.schedulesRetry = false := by
        simp [TerminalDecision.schedulesRetry, retry]
      have ends : state.isTerminal = true :=
        decideRetry_final ((decideTerminal_retry decides) ▸ retry)
      have attempts : (db.afterEvent vendor attempt event now).attempts =
          (db.recordEvent attempt.key event).attempts := by
        rw [after]
        unfold Database.applyDecision
        simp only [retry]
        split <;> rfl
      have runs : (db.afterEvent vendor attempt event now).runs =
          (db.finishRun attempt.runId state event.projection.runStartedAtMs
            (event.projection.runFinishedAtMs.getD now) event).runs := by
        rw [after]
        unfold Database.applyDecision
        simp only [retry]
        split <;> rfl
      have schedules : (db.afterEvent vendor attempt event now).schedules.find? run.mirrorName =
          db.schedules.find? run.mirrorName ↔
            ∀ nextDue, decision.intervalNextDueAtMs = some nextDue →
              ∀ row, db.schedules.find? source.mirrorName = some row →
                row.runtime = ⟨some nextDue, some now, false, none⟩ := by
        rw [after]
        unfold Database.applyDecision
        simp only [retry]
        split
        next none =>
          simp only [none, reduceCtorEq, false_implies, implies_true, iff_true]
          rfl
        next nextDue armed =>
          simp only [armed, Option.some.injEq, forall_eq', mirrorName]
          exact Database.rearmSchedule_eq_iff
      constructor
      · intro absorbs
        refine ⟨?_, silent, ?_, ?_⟩
        · have kept := absorbs.outcome
          rw [attempts, recorded, Table.find?_of_mem mem] at kept
          simpa [AttemptRow.outcome_record same] using kept
        · have kept := absorbs.run
          rw [runs] at kept
          exact (Database.finishRun_eq_iff ends).mp kept
        · exact schedules.mp (absorbs.schedule run runFound)
      · rintro ⟨repeats, _, ended, armed⟩
        constructor
        · rw [attempts, recorded, Table.find?_of_mem mem]
          simpa [AttemptRow.outcome_record same] using repeats
        · intro key other
          rw [attempts, recorded]
          cases found : db.attempts.find? key with
          | none => rfl
          | some row =>
              rcases Table.find?_eq_some_iff.mp found with ⟨_, keyed⟩
              simp [keyed, other]
        · rw [runs]
          exact (Database.finishRun_eq_iff ends).mpr ended
        · intro found foundRun
          obtain rfl := Option.some.inj (runFound.symm.trans foundRun)
          exact schedules.mpr armed
        · intro result final applies
          rw [applied] at applies
          cases applies
          exact silent

end Cases

/--
An event about an attempt that has ended is absorbed exactly when it is inert:
known already, naming another state, impossible to store or decide, or repeating
what is stored about an attempt whose run was decided before.
-/
theorem applyEvent_absorbs_iff {vendor : Vendor} {db : Database} {attempt : AttemptRow}
    {event : AttemptEvent} {now : ℤ} (mem : attempt ∈ db.attempts)
    (terminal : attempt.state.isTerminal = true) :
    db.Absorbs vendor attempt event now ↔ db.Inert vendor attempt event now := by
  have found : db.attempts.find? (attempt.runId, attempt.attemptNo) = some attempt :=
    Table.find?_of_mem mem
  by_cases known : event.eventSequence ≤ attempt.lastEventSequence
  · have applied : db.applyEvent attempt.runId attempt.attemptNo event now
        (decideTerminal vendor) = .ok (⟨attempt.lastEventSequence, false, false⟩, db) := by
      unfold Database.applyEvent
      simp only [found, known, if_true]
    refine iff_of_true (.of_unchanged mem (by rw [Database.afterEvent, applied]; rfl) ?_)
      (.inl known)
    intro result after applies
    rw [applied] at applies
    cases applies
    rfl
  by_cases same : event.state = attempt.state
  · by_cases large : i64Max < event.eventSequence
    · have accepted := (AttemptState.accepts_terminal_iff terminal).mpr same
      have refused : db.applyEvent attempt.runId attempt.attemptNo event now
          (decideTerminal vendor) = .error .database := by
        unfold Database.applyEvent
        simp only [found, known, if_false, projectAttemptEvent_eq, accepted, if_true, large]
      exact iff_of_true (.of_error mem refused) (.inr (.inr (.inl large)))
    · have accepted := (AttemptState.accepts_terminal_iff terminal).mpr same
      have ended : event.state.isTerminal = true := by
        rw [same]
        exact terminal
      have applied := @Database.applyEvent_terminal vendor db attempt event now mem accepted ended
        known large
      rw [same] at applied
      simp only [Database.Inert, known, same, ne_eq, not_true_eq_false, large, false_or]
      cases sourced : db.terminalSource attempt.runId attempt.attemptNo attempt.state with
      | error reason =>
          rw [sourced] at applied
          exact iff_of_true (.of_error mem applied) (by simp)
      | ok source =>
          rw [sourced] at applied
          simp only [Except.ok.injEq, forall_eq']
          cases decides : decideTerminal vendor source now with
          | error reason =>
              simp only [bind, Except.bind, decides] at applied
              exact iff_of_true (.of_error mem applied) (by simp)
          | ok decision =>
              simp only [bind, Except.bind, decides, pure, Except.pure] at applied
              simp only [Except.ok.injEq, forall_eq']
              exact Database.absorbs_repeated_iff mem same sourced decides applied
  · have illegal : attempt.state.accepts event.state = false := by
      rw [Bool.eq_false_iff, ne_eq, AttemptState.accepts_terminal_iff terminal]
      exact same
    have refused : db.applyEvent attempt.runId attempt.attemptNo event now
        (decideTerminal vendor) = .error (.illegalTransition attempt.state event.state) := by
      unfold Database.applyEvent
      simp [found, known, projectAttemptEvent_eq, illegal]
    exact iff_of_true (.of_error mem refused) (.inr (.inl same))

/-- A report with an old sequence number is absorbed. -/
theorem applyEvent_absorbs_iff_known :
    ∃ attempt ∈ (StoreOp.runAll .empty Sample.retried).attempts,
      attempt.state.isTerminal = true ∧
      ((StoreOp.runAll .empty Sample.retried).Absorbs Sample.vendor attempt
          (Sample.report 2 .failed) 7000 ↔
        (StoreOp.runAll .empty Sample.retried).Inert Sample.vendor attempt
          (Sample.report 2 .failed) 7000) := by
  have ended : (StoreOp.runAll .empty Sample.retried).attempts.any
      (fun attempt => attempt.state.isTerminal) = true := by decide +kernel
  obtain ⟨attempt, mem, terminal⟩ := Table.any_eq_true.mp ended
  exact ⟨attempt, mem, terminal, applyEvent_absorbs_iff mem terminal⟩

/-- The failure of the first attempt, reported once more, schedules another retry. -/
theorem repeated_failure_is_not_absorbed :
    ¬∀ (db : Database) (attempt : AttemptRow), attempt ∈ db.attempts →
      attempt.state.isTerminal = true → ∀ event now, db.Absorbs Sample.vendor attempt event now := by
  intro claimed
  have ended : (StoreOp.runAll .empty Sample.retried).attempts.any (fun attempt =>
      decide (attempt.key = ("run-1", 1)) && attempt.state.isTerminal) = true := by decide +kernel
  obtain ⟨attempt, mem, matched⟩ := Table.any_eq_true.mp ended
  simp only [Bool.and_eq_true, decide_eq_true_eq] at matched
  obtain ⟨keyed, terminal⟩ := matched
  have absorbs := claimed _ attempt mem terminal (Sample.report 3 .failed) 7000
  have announced : ((StoreOp.runAll .empty Sample.retried).applyEvent "run-1" 1
      (Sample.report 3 .failed) 7000 (decideTerminal Sample.vendor)).toOption.map
        (fun outcome => outcome.1.retryScheduled) = some true := by decide +kernel
  obtain ⟨sameRun, sameNo⟩ := Prod.mk.inj keyed
  cases applied : (StoreOp.runAll .empty Sample.retried).applyEvent "run-1" 1
      (Sample.report 3 .failed) 7000 (decideTerminal Sample.vendor) with
  | error reason =>
      rw [applied] at announced
      cases announced
  | ok outcome =>
      rw [applied] at announced
      have silent := absorbs.noRetry outcome.1 outcome.2 (by rw [sameRun, sameNo, applied])
      simp [Except.toOption, silent] at announced

end LzuMirror
