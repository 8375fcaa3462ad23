import LzuMirror.Store.Absorption
import LzuMirror.Store.Lifecycle

/-!
# Delivery of attempt events

An agent reports that it accepted an attempt, perhaps that the process runs, and
how it ended. The network may drop, repeat and reorder these reports; the server
orders them by their sequence numbers and accepts a final report without the
others, so that only two things can happen: the final report comes first, or the
attempt is reported as accepted before.

The attempt row is the same in both cases. The run row may differ in the time it
started: a first report takes the time of acceptance, a final one the time the
process started. `delivery_confluent_iff` says when they agree.
-/

namespace LzuMirror

/-- The times in the first event that are known are those of the second. -/
structure AttemptEvent.KnownBy (earlier later : AttemptEvent) : Prop where
  accepted : earlier.acceptedAtMs = none ∨ earlier.acceptedAtMs = later.acceptedAtMs
  started : earlier.startedAtMs = none ∨ earlier.startedAtMs = later.startedAtMs
  finished : earlier.finishedAtMs = none ∨ earlier.finishedAtMs = later.finishedAtMs

/-- The events of one execution, in increasing order. -/
structure AttemptHistory where
  accepted : AttemptEvent
  running : Option AttemptEvent
  terminal : AttemptEvent
  acceptedState : accepted.state = .accepted
  runningState : ∀ event ∈ running, event.state = .running
  terminalState : terminal.state.isTerminal = true
  ordered : accepted.eventSequence < terminal.eventSequence ∧ ∀ event ∈ running,
    accepted.eventSequence < event.eventSequence ∧ event.eventSequence < terminal.eventSequence
  known : accepted.KnownBy terminal ∧ ∀ event ∈ running, event.KnownBy terminal

/-- What arrives at the server: events of the history, the final one among them. -/
structure AttemptHistory.Delivery (history : AttemptHistory) (events : List AttemptEvent) :
    Prop where
  sent : ∀ event ∈ events,
    event = history.accepted ∨ event ∈ history.running ∨ event = history.terminal
  ended : history.terminal ∈ events

/-- The server applies one event after another, at one time; a rejected one is an error. -/
def Database.deliver (vendor : Vendor) (key : String × ℕ) (now : ℤ) (db : Database)
    (events : List AttemptEvent) : Except StoreError Database :=
  events.foldlM (fun state event =>
    (state.applyEvent key.1 key.2 event now (decideTerminal vendor)).map Prod.snd) db

/-- Whatever arrives, the attempt row and the run row are the same in the end. -/
def AttemptHistory.Confluent (history : AttemptHistory) (vendor : Vendor) (db : Database)
    (attempt : AttemptRow) (now : ℤ) : Prop :=
  ∀ first second, history.Delivery first → history.Delivery second →
    ∀ left right, db.deliver vendor attempt.key now first = .ok left →
      db.deliver vendor attempt.key now second = .ok right →
        left.attempts.find? attempt.key = right.attempts.find? attempt.key ∧
          left.runs.find? attempt.runId = right.runs.find? attempt.runId

/-- The run row after a report that the attempt was accepted or runs. -/
def RunRow.begun (startedAtMs : ℤ) (run : RunRow) : RunRow :=
  if run.state = .pending then
    { run with state := .running, startedAtMs := run.startedAtMs <|> some startedAtMs }
  else run

/-- The run row after a report that the attempt ended. -/
def RunRow.decided (event : AttemptEvent) (retry : RetryDecision) (now : ℤ) (run : RunRow) :
    RunRow :=
  if run.state.isActive then
    match retry with
    | .schedule retryDueAtMs => { run with
        state := .running
        startedAtMs := run.startedAtMs <|> event.projection.runStartedAtMs
        retryDueAtMs := some retryDueAtMs
        finishedAtMs := none
        finalExitCode := none
        failureKind := none
        failureMessage := none }
    | .final state => { run with
        state
        startedAtMs := run.startedAtMs <|> event.projection.runStartedAtMs
        finishedAtMs := some (event.projection.runFinishedAtMs.getD now)
        retryDueAtMs := none
        finalExitCode := event.exitCode
        failureKind := event.failureKind.map FailureKind.str
        failureMessage := event.failureMessage }
  else run

section Rows

variable {vendor : Vendor} {db : Database} {attempt : AttemptRow} {run : RunRow}
  {event : AttemptEvent} {now : ℤ}

/-- Recording an event and then one that knows its times is recording the second. -/
theorem AttemptRow.record_record {earlier later : AttemptEvent} (known : earlier.KnownBy later) :
    (attempt.record earlier).record later = attempt.record later := by
  have coalesced : ∀ stored first second : Option ℤ, first = none ∨ first = second →
      ((stored <|> first) <|> second) = (stored <|> second) := by
    rintro stored first second (rfl | rfl)
    · cases stored <;> rfl
    · cases stored <;> cases first <;> rfl
  simp only [AttemptRow.record, coalesced _ _ _ known.accepted, coalesced _ _ _ known.started,
    coalesced _ _ _ known.finished]

theorem Database.recordEvent_find? (mem : attempt ∈ db.attempts) :
    (db.recordEvent attempt.key event).attempts.find? attempt.key =
      some (attempt.record event) := by
  have recorded : (db.recordEvent attempt.key event).attempts.find? attempt.key =
      (db.attempts.find? attempt.key).map fun row =>
        if decide (row.key = attempt.key) then row.record event else row :=
    Table.find?_of_map rfl (by intro row; split <;> rfl)
  rw [recorded, Table.find?_of_mem mem]
  simp

theorem Database.startRun_find? {time : ℤ} (found : db.runs.find? attempt.runId = some run) :
    (db.startRun attempt.runId time).runs.find? attempt.runId = some (run.begun time) := by
  have started : (db.startRun attempt.runId time).runs.find? attempt.runId =
      (db.runs.find? attempt.runId).map fun row =>
        if decide (row.id = attempt.runId) && decide (row.state = RunState.pending) then
          { row with state := .running, startedAtMs := row.startedAtMs <|> some time } else row :=
    Table.find?_of_map rfl (by intro row; split <;> rfl)
  rcases Table.find?_eq_some_iff.mp found with ⟨_, named⟩
  rw [started, found]
  simp [RunRow.begun, named]

theorem Database.applyDecision_find? {mirror : String} {decision : TerminalDecision}
    (found : db.runs.find? attempt.runId = some run) :
    (db.applyDecision attempt.runId mirror event event.projection decision now).runs.find?
      attempt.runId = some (run.decided event decision.retry now) := by
  rcases Table.find?_eq_some_iff.mp found with ⟨_, named⟩
  cases retry : decision.retry with
  | schedule due =>
      have scheduled : (db.scheduleRetry attempt.runId event.projection.runStartedAtMs
          due).runs.find? attempt.runId = (db.runs.find? attempt.runId).map fun row =>
            if decide (row.id = attempt.runId) && row.state.isActive then { row with
              state := .running
              startedAtMs := row.startedAtMs <|> event.projection.runStartedAtMs
              retryDueAtMs := some due
              finishedAtMs := none
              finalExitCode := none
              failureKind := none
              failureMessage := none } else row :=
        Table.find?_of_map rfl (by intro row; split <;> rfl)
      simp only [applyDecision, retry]
      rw [scheduled, found]
      simp [RunRow.decided, named]
  | final state =>
      have runs : (db.applyDecision attempt.runId mirror event event.projection decision now).runs =
          (db.finishRun attempt.runId state event.projection.runStartedAtMs
            (event.projection.runFinishedAtMs.getD now) event).runs := by
        unfold Database.applyDecision
        simp only [retry]
        split <;> rfl
      have finished : (db.finishRun attempt.runId state event.projection.runStartedAtMs
          (event.projection.runFinishedAtMs.getD now) event).runs.find? attempt.runId =
            (db.runs.find? attempt.runId).map fun row =>
              if decide (row.id = attempt.runId) && row.state.isActive then { row with
                state
                startedAtMs := row.startedAtMs <|> event.projection.runStartedAtMs
                finishedAtMs := some (event.projection.runFinishedAtMs.getD now)
                retryDueAtMs := none
                finalExitCode := event.exitCode
                failureKind := event.failureKind.map FailureKind.str
                failureMessage := event.failureMessage } else row :=
        Table.find?_of_map rfl (by intro row; split <;> rfl)
      rw [runs, finished, found]
      simp [RunRow.decided, named]

theorem Database.applyDecision_attempts {runId mirror : String} {decision : TerminalDecision} :
    (db.applyDecision runId mirror event event.projection decision now).attempts =
      db.attempts := by
  unfold Database.applyDecision
  split
  · rfl
  · simp only
    split <;> rfl

/-- A begun run is no longer pending. -/
theorem RunRow.begun_begun (first second : ℤ) : (run.begun first).begun second = run.begun first := by
  unfold RunRow.begun
  by_cases pending : run.state = .pending
  · simp [pending]
  · simp [pending]

theorem RunRow.begun_eq (time : ℤ) : ∃ status startedAtMs,
    run.begun time = { run with state := status, startedAtMs } := by
  unfold RunRow.begun
  split
  · exact ⟨_, _, rfl⟩
  · exact ⟨run.state, run.startedAtMs, rfl⟩

/-- The decision does not depend on what was reported about the run's start. -/
theorem Database.terminalSource_begun {state : Database} {attemptNo : ℕ} {outcome : AttemptState}
    {runId : String} {current : RunRow} (mirrors : state.mirrors = db.mirrors)
    (generations : state.generations = db.generations) (found : db.runs.find? runId = some run)
    (currentFound : state.runs.find? runId = some current)
    (same : ∃ status startedAtMs, current = { run with state := status, startedAtMs }) :
    state.terminalSource runId attemptNo outcome = db.terminalSource runId attemptNo outcome := by
  rcases same with ⟨status, startedAtMs, rfl⟩
  have generation : state.currentGeneration run.mirrorName = db.currentGeneration run.mirrorName := by
    simp only [Database.currentGeneration, mirrors, generations]
  unfold Database.terminalSource
  simp only [found, currentFound, generation]

theorem AttemptState.accepts_of_begun {current next : AttemptState}
    (begun : current = .accepted ∨ current = .running) (ended : next.isTerminal = true)
    (notRejected : next ≠ .rejected) : current.accepts next = true := by
  rcases begun with rfl | rfl <;> cases next <;> simp_all [accepts, allows, isTerminal]

/-- The two ways to the end differ only where the run was pending without a start time. -/
theorem RunRow.decided_begun_iff {retry : RetryDecision} {time : ℤ} :
    (run.begun time).decided event retry now = run.decided event retry now ↔
      run.state ≠ .pending ∨ run.startedAtMs.isSome = true ∨
        event.projection.runStartedAtMs = some time := by
  by_cases pending : run.state = .pending
  · have active : RunState.pending.isActive = true := rfl
    have runs : RunState.running.isActive = true := rfl
    cases retry with
    | schedule due =>
        cases started : run.startedAtMs <;>
          simp [RunRow.begun, RunRow.decided, pending, active, runs, started, eq_comm]
    | final state =>
        cases started : run.startedAtMs <;>
          simp [RunRow.begun, RunRow.decided, pending, active, runs, started, eq_comm]
  · simp [RunRow.begun, pending]

end Rows

/-! ## Following a delivery -/

/-- Before the final event: the attempt is untouched, or it was reported as begun. -/
structure AttemptHistory.Underway (history : AttemptHistory) (db : Database)
    (attempt : AttemptRow) (run : RunRow) (now : ℤ) (state : Database) (row : AttemptRow)
    (current : RunRow) : Prop where
  found : state.attempts.find? attempt.key = some row
  runFound : state.runs.find? attempt.runId = some current
  mirrors : state.mirrors = db.mirrors
  generations : state.generations = db.generations
  reported : row.record history.terminal = attempt.record history.terminal
  earlier : row.lastEventSequence < history.terminal.eventSequence
  phase : row.state = .queued ∧
      row.lastEventSequence < history.accepted.eventSequence ∧ current = run ∨
    (row.state = .accepted ∨ row.state = .running) ∧
      history.accepted.eventSequence ≤ row.lastEventSequence ∧
      current = run.begun (history.accepted.projection.runStartedAtMs.getD now)

section Delivery

variable {vendor : Vendor} {history : AttemptHistory} {db state next : Database}
  {attempt row : AttemptRow} {run current : RunRow} {now : ℤ}

namespace AttemptHistory.Underway

theorem mem (underway : history.Underway db attempt run now state row current) :
    row ∈ state.attempts ∧ row.key = attempt.key :=
  Table.find?_eq_some_iff.mp underway.found

theorem same (underway : history.Underway db attempt run now state row current) :
    ∃ status startedAtMs, current = { run with state := status, startedAtMs } := by
  rcases underway.phase with ⟨_, _, rfl⟩ | ⟨_, _, rfl⟩
  · exact ⟨current.state, current.startedAtMs, rfl⟩
  · exact run.begun_eq _

/-- A report of the beginning is known, or records that the run has begun. -/
theorem begin {event : AttemptEvent} {result : AttemptEventApplyResult}
    (underway : history.Underway db attempt run now state row current)
    (isStart : event = history.accepted ∨ event ∈ history.running)
    (applied : state.applyEvent attempt.runId attempt.attemptNo event now (decideTerminal vendor) =
      .ok (result, next)) :
    ∃ later begun, history.Underway db attempt run now next later begun ∧
      event.eventSequence ≤ later.lastEventSequence := by
  rcases Database.applyEvent_eq_ok applied with ⟨found, foundMem, keyed, applies⟩
  rcases underway.mem with ⟨rowMem, rowKey⟩
  have sameRow : found = row := Table.eq_of_key_eq foundMem rowMem (keyed.trans rowKey.symm)
  subst sameRow
  have known : event.KnownBy history.terminal := by
    rcases isStart with rfl | mem
    · exact history.known.1
    · exact history.known.2 event mem
  have earlier : event.eventSequence < history.terminal.eventSequence := by
    rcases isStart with rfl | mem
    · exact history.ordered.1
    · exact (history.ordered.2 event mem).2
  have notBefore : history.accepted.eventSequence ≤ event.eventSequence := by
    rcases isStart with rfl | mem
    · exact le_rfl
    · exact (history.ordered.2 event mem).1.le
  have isBegin : event.state = .accepted ∨ event.state = .running := by
    rcases isStart with rfl | mem
    · exact .inl history.acceptedState
    · exact .inr (history.runningState event mem)
  cases applies with
  | known old => exact ⟨found, current, underway, old⟩
  | recorded newer accepted projects =>
      have began : next = (state.recordEvent found.key event).startRun found.runId
          (event.projection.runStartedAtMs.getD now) := by
        cases projects with
        | nothing queued =>
            rw [queued] at isBegin
            rcases isBegin with isBegin | isBegin <;> cases isBegin
        | start => rfl
        | decided terminal =>
            rcases isBegin with isBegin | isBegin <;> rw [isBegin] at terminal <;> cases terminal
      -- only the acceptance is accepted while the attempt is queued
      have begun : current.begun (event.projection.runStartedAtMs.getD now) =
          run.begun (history.accepted.projection.runStartedAtMs.getD now) := by
        rcases underway.phase with ⟨queued, _, rfl⟩ | ⟨_, _, rfl⟩
        · rcases isStart with rfl | mem
          · rfl
          · rw [queued, history.runningState event mem] at accepted
            cases accepted
        · exact RunRow.begun_begun _ _
      rcases Prod.mk.inj keyed with ⟨sameRun, _⟩
      have runFound : (state.recordEvent found.key event).runs.find? found.runId = some current := by
        rw [sameRun]
        exact underway.runFound
      refine ⟨found.record event, current.begun (event.projection.runStartedAtMs.getD now), ?_,
        le_rfl⟩
      rw [began]
      constructor
      · rw [← rowKey]
        exact Database.recordEvent_find? rowMem
      · have started := @Database.startRun_find? (state.recordEvent found.key event) found current
          (event.projection.runStartedAtMs.getD now) runFound
        rwa [sameRun] at started ⊢
      · exact underway.mirrors
      · exact underway.generations
      · rw [AttemptRow.record_record known]
        exact underway.reported
      · exact earlier
      · exact .inr ⟨isBegin, notBefore, begun⟩

/-- The final event is decided about, with the decision of the first state. -/
theorem finish {result : AttemptEventApplyResult}
    (underway : history.Underway db attempt run now state row current)
    (runFound : db.runs.find? attempt.runId = some run)
    (applied : state.applyEvent attempt.runId attempt.attemptNo history.terminal now
      (decideTerminal vendor) = .ok (result, next)) :
    ∃ source decision,
      db.terminalSource attempt.runId attempt.attemptNo history.terminal.state = .ok source ∧
      decideTerminal vendor source now = .ok decision ∧
      ¬i64Max < history.terminal.eventSequence ∧
      (current = run ∨ history.terminal.state ≠ .rejected ∧
        current = run.begun (history.accepted.projection.runStartedAtMs.getD now)) ∧
      next.attempts.find? attempt.key = some (attempt.record history.terminal) ∧
      next.runs.find? attempt.runId =
        some (current.decided history.terminal decision.retry now) := by
  rcases Database.applyEvent_eq_ok applied with ⟨found, foundMem, keyed, applies⟩
  rcases underway.mem with ⟨rowMem, rowKey⟩
  have sameRow : found = row := Table.eq_of_key_eq foundMem rowMem (keyed.trans rowKey.symm)
  subst sameRow
  rcases Prod.mk.inj keyed with ⟨sameRun, sameNo⟩
  have earlier := underway.earlier
  cases applies with
  | known old => omega
  | recorded newer accepted projects fits =>
      have ended := history.terminalState
      cases projects with
      | nothing queued => rw [queued] at ended; cases ended
      | start started => rcases started with isBegin | isBegin <;> rw [isBegin] at ended <;> cases ended
      | @decided _ source decision sourced decides =>
          rw [sameRun] at sourced ⊢
          rw [sameNo] at sourced
          have sameSource := @Database.terminalSource_begun db run state attempt.attemptNo
            history.terminal.state attempt.runId current underway.mirrors underway.generations
            runFound underway.runFound underway.same
          have phase : current = run ∨ history.terminal.state ≠ .rejected ∧
              current = run.begun (history.accepted.projection.runStartedAtMs.getD now) := by
            rcases underway.phase with ⟨_, _, rfl⟩ | ⟨begun, _, isBegun⟩
            · exact .inl rfl
            · right
              refine ⟨?_, isBegun⟩
              intro rejected
              rw [rejected] at accepted
              rcases begun with begun | begun <;> rw [begun] at accepted <;> cases accepted
          refine ⟨source, decision, sameSource.symm.trans sourced, decides, fits, phase, ?_, ?_⟩
          · rw [Database.applyDecision_attempts, ← rowKey, Database.recordEvent_find? rowMem,
              underway.reported]
          · exact Database.applyDecision_find? underway.runFound

end AttemptHistory.Underway

theorem Database.deliver_cons {event : AttemptEvent} {rest : List AttemptEvent}
    {result : AttemptEventApplyResult}
    (applied : state.applyEvent attempt.runId attempt.attemptNo event now (decideTerminal vendor) =
      .ok (result, next)) :
    state.deliver vendor attempt.key now (event :: rest) =
      next.deliver vendor attempt.key now rest := by
  rw [Database.deliver, List.foldlM_cons]
  change (state.applyEvent attempt.runId attempt.attemptNo event now
    (decideTerminal vendor)).map Prod.snd >>= _ = _
  rw [applied]
  rfl

/-- Events that are not newer than the attempt change nothing. -/
theorem Database.deliver_known {events : List AttemptEvent}
    (found : state.attempts.find? attempt.key = some row)
    (old : ∀ event ∈ events, event.eventSequence ≤ row.lastEventSequence)
    (delivered : state.deliver vendor attempt.key now events = .ok next) : next = state := by
  induction events with
  | nil =>
      cases delivered
      rfl
  | cons event rest ih =>
      have first : state.applyEvent attempt.key.1 attempt.key.2 event now (decideTerminal vendor) =
          .ok (⟨row.lastEventSequence, false, false⟩, state) := by
        unfold Database.applyEvent
        simp only [Prod.mk.eta, found, old event List.mem_cons_self, if_true]
      rw [Database.deliver_cons first] at delivered
      exact ih (fun later mem => old later (List.mem_cons_of_mem _ mem)) delivered

/-- What every accepted delivery leaves. -/
theorem AttemptHistory.Underway.result {events : List AttemptEvent}
    (underway : history.Underway db attempt run now state row current)
    (runFound : db.runs.find? attempt.runId = some run) (delivery : history.Delivery events)
    (delivered : state.deliver vendor attempt.key now events = .ok next) :
    ∃ source decision last,
      db.terminalSource attempt.runId attempt.attemptNo history.terminal.state = .ok source ∧
      decideTerminal vendor source now = .ok decision ∧
      ¬i64Max < history.terminal.eventSequence ∧
      (last = run ∨ history.terminal.state ≠ .rejected ∧
        last = run.begun (history.accepted.projection.runStartedAtMs.getD now)) ∧
      next.attempts.find? attempt.key = some (attempt.record history.terminal) ∧
      next.runs.find? attempt.runId = some (last.decided history.terminal decision.retry now) := by
  induction events generalizing state row current with
  | nil => cases delivery.ended
  | cons event rest ih =>
      rw [Database.deliver, List.foldlM_cons] at delivered
      cases applied : state.applyEvent attempt.key.1 attempt.key.2 event now
          (decideTerminal vendor) with
      | error reason => rw [applied] at delivered; cases delivered
      | ok outcome =>
          rw [applied] at delivered
          have later : outcome.2.deliver vendor attempt.key now rest = .ok next := delivered
          have sentLater : ∀ other ∈ rest, other = history.accepted ∨ other ∈ history.running ∨
              other = history.terminal :=
            fun other mem => delivery.sent other (List.mem_cons_of_mem _ mem)
          by_cases final : event = history.terminal
          · subst final
            rcases underway.finish runFound applied with
              ⟨source, decision, sourced, decides, fits, phase, attemptFound, decided⟩
            have kept : next = outcome.2 := by
              refine Database.deliver_known attemptFound ?_ later
              intro other mem
              change other.eventSequence ≤ history.terminal.eventSequence
              rcases sentLater other mem with rfl | running | rfl
              · exact history.ordered.1.le
              · exact (history.ordered.2 other running).2.le
              · exact le_rfl
            rw [kept]
            exact ⟨source, decision, current, sourced, decides, fits, phase, attemptFound, decided⟩
          · have isStart : event = history.accepted ∨ event ∈ history.running := by
              rcases delivery.sent event List.mem_cons_self with isStart | isStart | isFinal
              · exact .inl isStart
              · exact .inr isStart
              · exact absurd isFinal final
            rcases underway.begin isStart applied with ⟨laterRow, begun, laterUnderway, _⟩
            refine ih laterUnderway ⟨sentLater, ?_⟩ later
            rcases List.mem_cons.mp delivery.ended with same | mem
            · exact absurd same.symm final
            · exact mem

/-- A queued attempt without any of the events. -/
theorem AttemptHistory.underway (mem : attempt ∈ db.attempts)
    (runFound : db.runs.find? attempt.runId = some run) (queued : attempt.state = .queued)
    (fresh : attempt.lastEventSequence < history.accepted.eventSequence) :
    history.Underway db attempt run now db attempt run where
  found := Table.find?_of_mem mem
  runFound := runFound
  mirrors := rfl
  generations := rfl
  reported := rfl
  earlier := fresh.trans history.ordered.1
  phase := .inl ⟨queued, fresh, rfl⟩

/-- The final event is accepted if it can be decided about. -/
theorem AttemptHistory.Underway.finishes {source : TerminalDecisionSource}
    {decision : TerminalDecision}
    (underway : history.Underway db attempt run now state row current)
    (runFound : db.runs.find? attempt.runId = some run)
    (accepted : row.state.accepts history.terminal.state = true)
    (sourced : db.terminalSource attempt.runId attempt.attemptNo history.terminal.state =
      .ok source)
    (decides : decideTerminal vendor source now = .ok decision)
    (fits : ¬i64Max < history.terminal.eventSequence) :
    ∃ result final, state.applyEvent attempt.runId attempt.attemptNo history.terminal now
      (decideTerminal vendor) = .ok (result, final) := by
  rcases underway.mem with ⟨rowMem, rowKey⟩
  rcases Prod.mk.inj rowKey with ⟨sameRun, sameNo⟩
  have newer : ¬history.terminal.eventSequence ≤ row.lastEventSequence :=
    Nat.not_le.mpr underway.earlier
  have sameSource := @Database.terminalSource_begun db run state attempt.attemptNo
    history.terminal.state attempt.runId current underway.mirrors underway.generations
    runFound underway.runFound underway.same
  have applied := @Database.applyEvent_terminal vendor state row history.terminal now rowMem
    accepted history.terminalState newer fits
  rw [sameRun, sameNo, sameSource, sourced] at applied
  simp only [bind, Except.bind, decides, pure, Except.pure] at applied
  exact ⟨_, _, applied⟩

/-- The acceptance is accepted while the attempt is queued. -/
theorem AttemptHistory.accepts_accepted (mem : attempt ∈ db.attempts)
    (queued : attempt.state = .queued)
    (fresh : attempt.lastEventSequence < history.accepted.eventSequence)
    (fits : ¬i64Max < history.accepted.eventSequence) :
    ∃ result next, db.applyEvent attempt.runId attempt.attemptNo history.accepted now
      (decideTerminal vendor) = .ok (result, next) := by
  have found : db.attempts.find? (attempt.runId, attempt.attemptNo) = some attempt :=
    Table.find?_of_mem mem
  have accepted : attempt.state.accepts history.accepted.state = true := by
    rw [queued, history.acceptedState]
    rfl
  have began : history.accepted.projection.runState = some .running := by
    simp [AttemptEvent.projection, history.acceptedState]
  have applied : db.applyEvent attempt.runId attempt.attemptNo history.accepted now
      (decideTerminal vendor) = .ok (⟨history.accepted.eventSequence, true, false⟩,
        (db.recordEvent attempt.key history.accepted).startRun attempt.runId
          (history.accepted.projection.runStartedAtMs.getD now)) := by
    unfold Database.applyEvent
    simp only [found, Nat.not_le.mpr fresh, if_false, projectAttemptEvent_eq, accepted, if_true,
      fits, Database.applyProjection, began]
    rfl
  exact ⟨_, _, applied⟩

end Delivery

/--
For every history of one execution and every queued attempt that has seen none
of it: if it can be delivered at all, then all deliveries without a rejected event
lead to the same attempt row and the same run row exactly when the execution was
rejected, the run is not pending or has a start time already, or the start time in
the final event is the acceptance time in the first one.
-/
theorem delivery_confluent_iff {vendor : Vendor} {db after : Database} {attempt : AttemptRow}
    {run : RunRow} {history : AttemptHistory} {now : ℤ} {delivery : List AttemptEvent}
    (mem : attempt ∈ db.attempts) (runMem : run ∈ db.runs) (owner : run.id = attempt.runId)
    (queued : attempt.state = .queued)
    (fresh : attempt.lastEventSequence < history.accepted.eventSequence)
    (delivered : history.Delivery delivery)
    (accepted : db.deliver vendor attempt.key now delivery = .ok after) :
    history.Confluent vendor db attempt now ↔
      history.terminal.state = .rejected ∨ run.state ≠ .pending ∨
        run.startedAtMs.isSome = true ∨
        (history.terminal.startedAtMs <|> history.terminal.acceptedAtMs) =
          some ((history.accepted.acceptedAtMs <|> history.accepted.startedAtMs).getD now) := by
  have runFound : db.runs.find? attempt.runId = some run := by
    rw [← owner]
    exact Table.find?_of_mem runMem
  have underway := @AttemptHistory.underway history db attempt run now mem runFound queued fresh
  rcases underway.result runFound delivered accepted with
    ⟨source, decision, _, sourced, decides, fits, _⟩
  have firstTime : history.accepted.projection.runStartedAtMs =
      (history.accepted.acceptedAtMs <|> history.accepted.startedAtMs) := by
    simp [AttemptEvent.projection, history.acceptedState]
  have finalTime : history.terminal.projection.runStartedAtMs =
      (history.terminal.startedAtMs <|> history.terminal.acceptedAtMs) := by
    have ended := history.terminalState
    unfold AttemptEvent.projection
    rw [if_neg]
    rintro (isBegin | isBegin) <;> rw [isBegin] at ended <;> cases ended
  have agree := @RunRow.decided_begun_iff run history.terminal now decision.retry
    ((history.accepted.acceptedAtMs <|> history.accepted.startedAtMs).getD now)
  rw [finalTime] at agree
  constructor
  · intro confluent
    by_cases rejected : history.terminal.state = .rejected
    · exact .inl rejected
    right
    rw [← agree]
    -- the final event alone, and the acceptance before it
    have alone : attempt.state.accepts history.terminal.state = true := by
      rw [queued]
      simp [AttemptState.accepts, history.terminalState]
    rcases underway.finishes runFound alone sourced decides fits with ⟨_, left, leftApplied⟩
    have acceptedFits : ¬i64Max < history.accepted.eventSequence := by
      have ordered := history.ordered.1
      omega
    rcases @AttemptHistory.accepts_accepted vendor history db attempt now mem queued fresh
      acceptedFits with ⟨_, next, began⟩
    rcases underway.begin (.inl rfl) began with ⟨row, begun, laterUnderway, recorded⟩
    rcases laterUnderway.phase with ⟨_, unrecorded, _⟩ | ⟨rowState, _, isBegun⟩
    · omega
    have followed : row.state.accepts history.terminal.state = true :=
      AttemptState.accepts_of_begun rowState history.terminalState rejected
    rcases laterUnderway.finishes runFound followed sourced decides fits with
      ⟨_, right, rightApplied⟩
    have rows := (confluent [history.terminal] [history.accepted, history.terminal]
      ⟨by simp, by simp⟩ ⟨by simp, by simp⟩ left right
      (Database.deliver_cons leftApplied)
      ((Database.deliver_cons began).trans (Database.deliver_cons rightApplied))).2
    rcases underway.finish runFound leftApplied with
      ⟨leftSource, leftDecision, leftSourced, leftDecides, _, _, _, leftRun⟩
    rcases laterUnderway.finish runFound rightApplied with
      ⟨rightSource, rightDecision, rightSourced, rightDecides, _, _, _, rightRun⟩
    rw [sourced, Except.ok.injEq] at leftSourced rightSourced
    subst leftSourced rightSourced
    rw [decides, Except.ok.injEq] at leftDecides rightDecides
    subst leftDecides rightDecides
    rw [leftRun, rightRun, isBegun, firstTime, Option.some.injEq] at rows
    exact rows.symm
  · intro agrees first second firstDelivery secondDelivery left right leftDelivered rightDelivered
    rcases underway.result runFound firstDelivery leftDelivered with
      ⟨leftSource, leftDecision, leftLast, leftSourced, leftDecides, _, leftPhase, leftFound,
        leftRun⟩
    rcases underway.result runFound secondDelivery rightDelivered with
      ⟨rightSource, rightDecision, rightLast, rightSourced, rightDecides, _, rightPhase, rightFound,
        rightRun⟩
    rw [sourced, Except.ok.injEq] at leftSourced rightSourced
    subst leftSourced rightSourced
    rw [decides, Except.ok.injEq] at leftDecides rightDecides
    subst leftDecides rightDecides
    refine ⟨leftFound.trans rightFound.symm, ?_⟩
    rw [leftRun, rightRun]
    rw [firstTime] at leftPhase rightPhase
    have settles : ∀ last, (last = run ∨ history.terminal.state ≠ .rejected ∧ last = run.begun
        ((history.accepted.acceptedAtMs <|> history.accepted.startedAtMs).getD now)) →
          last.decided history.terminal decision.retry now =
            run.decided history.terminal decision.retry now := by
      rintro last (rfl | ⟨notRejected, rfl⟩)
      · rfl
      · exact agree.mpr (agrees.resolve_left notRejected)
    rw [settles leftLast leftPhase, settles rightLast rightPhase]

/-! A run whose first attempt is dispatched and reports nothing yet. -/

namespace Sample

def awaited : List (StoreOp Sample.vendor) :=
  [.apply (alphaBundle nodeA) 0 1000,
    .createManualRun "alpha" "request-1" 2000 "run-1",
    .pollAction "node-a" agent 3000 "run-2"]

/-- The execution of the attempt, with the time its process started. -/
def execution (startedAtMs : ℤ) : AttemptHistory where
  accepted := { report 1 .accepted with acceptedAtMs := some 4000 }
  running := none
  terminal := { report 3 .succeeded with
    acceptedAtMs := some 4000
    startedAtMs := some startedAtMs
    finishedAtMs := some 5000
    exitCode := some 0 }
  acceptedState := rfl
  runningState := by simp
  terminalState := rfl
  ordered := ⟨by simp [report], by simp⟩
  known := ⟨⟨.inr rfl, .inl rfl, .inl rfl⟩, by simp⟩

/-- The attempt of `awaited`, and its run. -/
theorem awaited_rows :
    ∃ attempt ∈ (StoreOp.runAll .empty awaited).attempts, attempt.key = ("run-1", 1) ∧
      attempt.state = .queued ∧ attempt.lastEventSequence = 0 ∧
      ∃ run ∈ (StoreOp.runAll .empty awaited).runs, run.id = attempt.runId := by
  have queued : (StoreOp.runAll .empty awaited).attempts.any (fun attempt =>
      decide (attempt.key = ("run-1", 1)) && decide (attempt.state = .queued) &&
        decide (attempt.lastEventSequence = 0) &&
        (StoreOp.runAll .empty awaited).runs.any fun run => decide (run.id = attempt.runId)) =
          true := by decide +kernel
  rcases Table.any_eq_true.mp queued with ⟨attempt, mem, matched⟩
  simp only [Bool.and_eq_true, decide_eq_true_eq, Table.any_eq_true] at matched
  exact ⟨attempt, mem, matched.1.1.1, matched.1.1.2, matched.1.2, matched.2⟩

end Sample

theorem delivery_confluent_iff_sample :
    ∃ attempt ∈ (StoreOp.runAll .empty Sample.awaited).attempts, attempt.state = .queued ∧
      (Sample.execution 4000).Confluent Sample.vendor (StoreOp.runAll .empty Sample.awaited)
        attempt 6000 := by
  rcases Sample.awaited_rows with ⟨attempt, mem, keyed, queued, fresh, run, runMem, owner⟩
  have delivers : ((StoreOp.runAll .empty Sample.awaited).deliver Sample.vendor ("run-1", 1) 6000
      [(Sample.execution 4000).terminal]).isOk = true := by decide +kernel
  cases delivered : (StoreOp.runAll .empty Sample.awaited).deliver Sample.vendor ("run-1", 1) 6000
      [(Sample.execution 4000).terminal] with
  | error reason =>
      rw [delivered] at delivers
      cases delivers
  | ok after =>
      refine ⟨attempt, mem, queued, ?_⟩
      rw [← keyed] at delivered
      exact (delivery_confluent_iff mem runMem owner queued (by rw [fresh]; decide)
        ⟨by simp, by simp⟩ delivered).mpr (.inr (.inr (.inr rfl)))

/-- Dropping the acceptance moves the start of the run. -/
theorem dropped_acceptance_moves_start :
    ¬∀ (vendor : Vendor) (db : Database), LifeReachable vendor db →
      ∀ attempt ∈ db.attempts, attempt.state = .queued → ∀ history : AttemptHistory,
        attempt.lastEventSequence < history.accepted.eventSequence → ∀ now,
          history.Confluent vendor db attempt now := by
  intro claimed
  rcases Sample.awaited_rows with ⟨attempt, mem, keyed, queued, fresh, _⟩
  have reached : LifeReachable Sample.vendor (StoreOp.runAll .empty Sample.awaited) :=
    StoreOp.lifeSteps_runAll _ _
  have confluent := claimed Sample.vendor _ reached attempt mem queued (Sample.execution 4500)
    (by rw [fresh]; decide) 6000
  have starts : ((StoreOp.runAll .empty Sample.awaited).deliver Sample.vendor ("run-1", 1) 6000
      [(Sample.execution 4500).terminal]).toOption.map
        (fun state => (state.runs.find? "run-1").map (·.startedAtMs)) =
          some (some (some 4500)) := by decide +kernel
  have accepts : ((StoreOp.runAll .empty Sample.awaited).deliver Sample.vendor ("run-1", 1) 6000
      [(Sample.execution 4500).accepted, (Sample.execution 4500).terminal]).toOption.map
        (fun state => (state.runs.find? "run-1").map (·.startedAtMs)) =
          some (some (some 4000)) := by decide +kernel
  rcases Option.map_eq_some_iff.mp starts with ⟨left, leftDelivered, leftStart⟩
  rcases Option.map_eq_some_iff.mp accepts with ⟨right, rightDelivered, rightStart⟩
  rw [← keyed] at leftDelivered rightDelivered
  have same := (confluent [(Sample.execution 4500).terminal]
    [(Sample.execution 4500).accepted, (Sample.execution 4500).terminal]
    ⟨by simp, by simp⟩ ⟨by simp, by simp⟩ left right
    (eq_ok_of_toOption leftDelivered)
    (eq_ok_of_toOption rightDelivered)).2
  rw [show attempt.runId = "run-1" from congrArg Prod.fst keyed] at same
  rw [same, rightStart] at leftStart
  cases leftStart

end LzuMirror
