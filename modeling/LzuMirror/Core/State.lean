import Mathlib.Data.Int.Notation
import Mathlib.Tactic.Common

/-!
# Run and attempt states

The state enumerations of `lmt-core`, the transition table of attempts and the
projection of an attempt event onto its run (`crates/lmt-core/src/state.rs`).

The attempt states form a three-stage life cycle. `AttemptState.allows` is the
table the server checks an event against; it relates every state to itself, so
that a repeated report is not an error. `projectAttemptEvent` adds the one
exception of the table: a queued attempt may be ended by any terminal snapshot.
-/

namespace LzuMirror

/-- The operator-facing life cycle of a run. -/
inductive RunState where
  | pending
  | running
  | succeeded
  | failed
  | cancelled
  | timedOut
  deriving DecidableEq, Repr

/-- `RunState::is_terminal`. -/
def RunState.isTerminal : RunState → Bool
  | .succeeded | .failed | .cancelled | .timedOut => true
  | .pending | .running => false

/-- The SQL predicate `state IN('pending','running')`. -/
def RunState.isActive (state : RunState) : Bool := !state.isTerminal

/-- The life cycle of one execution attempt. -/
inductive AttemptState where
  | queued
  | accepted
  | running
  | succeeded
  | failed
  | timedOut
  | cancelled
  | interrupted
  | rejected
  deriving DecidableEq, Repr

namespace AttemptState

/-- `AttemptState::is_terminal`. -/
def isTerminal : AttemptState → Bool
  | .succeeded | .failed | .timedOut | .cancelled | .interrupted | .rejected => true
  | .queued | .accepted | .running => false

/-- `AttemptState::allows`: the transition table of attempt events. -/
def allows (current next : AttemptState) : Bool :=
  if current = next then true
  else
    match current with
    | .queued =>
        match next with
        | .accepted | .cancelled | .rejected => true
        | _ => false
    | .accepted =>
        match next with
        | .running | .succeeded | .failed | .timedOut | .cancelled | .interrupted => true
        | _ => false
    | .running =>
        match next with
        | .succeeded | .failed | .timedOut | .cancelled | .interrupted => true
        | _ => false
    | .succeeded | .failed | .timedOut | .cancelled | .interrupted | .rejected => false

end AttemptState

/-- Why an attempt ended without success. -/
inductive FailureKind where
  | process
  | timeout
  | interrupted
  | rejected
  | invalidResult
  | publicationDurability
  deriving DecidableEq, Repr

/-- `failure_kind_str`: the text stored in the `failure_kind` columns. -/
def FailureKind.str : FailureKind → String
  | .process => "process"
  | .timeout => "timeout"
  | .interrupted => "interrupted"
  | .rejected => "rejected"
  | .invalidResult => "invalid_result"
  | .publicationDurability => "publication_durability"

/-- The private namespace an atomic attempt was compiled for. -/
structure AtomicPublicationSpec where
  mirror : String
  publicationRoot : String
  publishedDir : String
  candidateDir : String
  basisDir : String
  exchangeDir : String
  gcDir : String
  deriving DecidableEq, Repr

/-- The immutable process description sent with `StartAttempt`. -/
structure ProcessRunSpec where
  runner : String
  program : String
  args : List String
  cwd : Option String
  timeoutSeconds : ℕ
  mirrorRoot : String
  targetDir : String
  publication : Option AtomicPublicationSpec
  deriving DecidableEq, Repr

/-- One report of the agent about one attempt. Times are milliseconds (`i64`). -/
structure AttemptEvent where
  eventSequence : ℕ
  state : AttemptState
  agentInstanceId : String
  acceptedAtMs : Option ℤ
  startedAtMs : Option ℤ
  finishedAtMs : Option ℤ
  exitCode : Option ℤ
  failureKind : Option FailureKind
  failureMessage : Option String
  deriving DecidableEq, Repr

/-- An event the transition table refuses. -/
structure TransitionError where
  source : AttemptState
  target : AttemptState
  deriving DecidableEq, Repr

/-- What an accepted event says about the run of its attempt. -/
structure AttemptProjection where
  runState : Option RunState
  runStartedAtMs : Option ℤ
  runFinishedAtMs : Option ℤ
  deriving DecidableEq, Repr

/-- The run state named by an attempt state, if any. -/
def AttemptState.runState : AttemptState → Option RunState
  | .succeeded => some .succeeded
  | .timedOut => some .timedOut
  | .cancelled => some .cancelled
  | .failed | .interrupted | .rejected => some .failed
  | .queued | .accepted | .running => none

/-- `project_attempt_event`. -/
def projectAttemptEvent (current : AttemptState) (event : AttemptEvent) :
    Except TransitionError AttemptProjection :=
  let terminalSnapshotSkip := current == .queued && event.state.isTerminal
  if !current.allows event.state && !terminalSnapshotSkip then
    .error ⟨current, event.state⟩
  else if event.state = .accepted ∨ event.state = .running then
    .ok {
      runState := some .running
      runStartedAtMs := event.acceptedAtMs <|> event.startedAtMs
      runFinishedAtMs := none }
  else
    .ok {
      runState := event.state.runState
      runStartedAtMs := event.startedAtMs <|> event.acceptedAtMs
      runFinishedAtMs := event.finishedAtMs }

/-- The events an attempt accepts: the table, or a terminal snapshot of a queued attempt. -/
def AttemptState.accepts (current next : AttemptState) : Bool :=
  current.allows next || (current == .queued && next.isTerminal)

/-- What an accepted event says about the run, whatever the state it is accepted in. -/
def AttemptEvent.projection (event : AttemptEvent) : AttemptProjection :=
  if event.state = .accepted ∨ event.state = .running then
    ⟨some .running, event.acceptedAtMs <|> event.startedAtMs, none⟩
  else
    ⟨event.state.runState, event.startedAtMs <|> event.acceptedAtMs, event.finishedAtMs⟩

/-- The projection fails exactly on the events that are not accepted. -/
theorem projectAttemptEvent_eq (current : AttemptState) (event : AttemptEvent) :
    projectAttemptEvent current event =
      if current.accepts event.state then .ok event.projection
      else .error ⟨current, event.state⟩ := by
  unfold projectAttemptEvent AttemptState.accepts AttemptEvent.projection
  cases current.allows event.state <;> cases current == .queued && event.state.isTerminal <;>
    simp only [Bool.not_true, Bool.not_false, Bool.and_true, Bool.and_false, Bool.or_true,
      Bool.or_false, Bool.false_eq_true, if_true, if_false] <;>
    split <;> rfl

namespace AttemptState

theorem accepts_of_isTerminal {current next : AttemptState} (terminal : current.isTerminal)
    (accepted : current.accepts next) : next = current := by
  cases current <;> cases next <;> simp_all [isTerminal, accepts, allows]

end AttemptState

end LzuMirror
