import LzuMirror.Core.Config

/-!
# The spool record of one attempt

The durable record the agent keeps for every attempt it has accepted
(`apps/lmt-agent/src/spool.rs`), with the publication state of an atomic
attempt inside it. Times are the RFC 3339 texts the agent writes.

A record is a plain value here. Reading, writing and retiring the file that
holds it are operations of `LzuMirror.Agent.Effects`.
-/

namespace LzuMirror

/-- `FileIdentity`: which directory stands at a path, whatever it is called. -/
structure FileIdentity where
  device : ℕ
  inode : ℕ
  deriving DecidableEq, Repr

/-- How far the publication of an atomic attempt has come. -/
inductive PublicationPhase where
  | executing
  | preparingExchange
  | readyToCommit
  | preVisibilityRecovery
  | visiblePendingDurability
  | committedPendingReport
  | abandonedFenced
  deriving DecidableEq, Repr

namespace PublicationPhase

/-- `PublicationPhase::is_protected`. -/
def isProtected (phase : PublicationPhase) : Bool := phase ≠ .executing

/-- `PublicationPhase::requires_namespace_recovery`. -/
def requiresNamespaceRecovery : PublicationPhase → Bool
  | .preparingExchange | .readyToCommit | .preVisibilityRecovery
  | .visiblePendingDurability | .committedPendingReport => true
  | .executing | .abandonedFenced => false

end PublicationPhase

structure PublicationState where
  phase : PublicationPhase
  mirror : String
  publicationRoot : String
  publishedDir : String
  candidateDir : String
  basisDir : String
  exchangeDir : String
  gcDir : String
  candidateIdentity : Option FileIdentity
  publishedIdentity : Option FileIdentity
  stablePreviousIdentity : Option FileIdentity
  exchangeIdentity : Option FileIdentity
  rotatedPreviousPath : Option String
  rotatedPreviousIdentity : Option FileIdentity
  preVisibilityTerminalState : Option AttemptState
  preVisibilityFailureKind : Option FailureKind
  preVisibilityMessage : Option String
  deriving DecidableEq, Repr

/-- The mirror a `StartAttempt` says it is for. -/
structure ExecutionIdentity where
  mirror : String
  deriving DecidableEq, Repr

structure SpoolRecord where
  runId : String
  attempt : ℕ
  specHash : String
  executionIdentity : Option ExecutionIdentity
  spec : Option ProcessRunSpec
  cancelRequested : Bool
  state : AttemptState
  sequence : ℕ
  acknowledgedSequence : ℕ
  acceptedAt : Option String
  startedAt : Option String
  finishedAt : Option String
  exitCode : Option ℤ
  failureKind : Option FailureKind
  failureMessage : Option String
  logOffset : ℕ
  logCompleteAcknowledged : Bool
  publication : Option PublicationState
  deriving DecidableEq, Repr

/-- What the agent reports to the server about an attempt. -/
structure EventRequest where
  eventSequence : ℕ
  state : AttemptState
  agentInstanceId : String
  acceptedAt : Option String
  startedAt : Option String
  finishedAt : Option String
  exitCode : Option ℤ
  failureKind : Option FailureKind
  failureMessage : Option String
  deriving DecidableEq, Repr

/-- The publication state an accepted atomic attempt starts with. -/
def PublicationState.ofSpec (publication : AtomicPublicationSpec) : PublicationState where
  phase := .executing
  mirror := publication.mirror
  publicationRoot := publication.publicationRoot
  publishedDir := publication.publishedDir
  candidateDir := publication.candidateDir
  basisDir := publication.basisDir
  exchangeDir := publication.exchangeDir
  gcDir := publication.gcDir
  candidateIdentity := none
  publishedIdentity := none
  stablePreviousIdentity := none
  exchangeIdentity := none
  rotatedPreviousPath := none
  rotatedPreviousIdentity := none
  preVisibilityTerminalState := none
  preVisibilityFailureKind := none
  preVisibilityMessage := none

namespace SpoolRecord

/-- `SpoolRecord::accepted_with_identity`. -/
def acceptedWithIdentity (runId : String) (attempt : ℕ) (specHash : String)
    (executionIdentity : Option ExecutionIdentity) (spec : ProcessRunSpec) (now : String) :
    SpoolRecord where
  runId
  attempt
  specHash
  executionIdentity
  spec := some spec
  cancelRequested := false
  state := .accepted
  sequence := 1
  acknowledgedSequence := 0
  acceptedAt := some now
  startedAt := none
  finishedAt := none
  exitCode := none
  failureKind := none
  failureMessage := none
  logOffset := 0
  logCompleteAcknowledged := false
  publication := spec.publication.map .ofSpec

/-- `SpoolRecord::cancellation_tombstone`: the record of an attempt that was never accepted. -/
def cancellationTombstone (runId : String) (attempt : ℕ) (specHash now : String) :
    SpoolRecord where
  runId
  attempt
  specHash
  executionIdentity := none
  spec := none
  cancelRequested := true
  state := .cancelled
  sequence := 1
  acknowledgedSequence := 0
  acceptedAt := none
  startedAt := none
  finishedAt := some now
  exitCode := none
  failureKind := none
  failureMessage := none
  logOffset := 0
  logCompleteAcknowledged := false
  publication := none

/-- `SpoolRecord::terminal`. It overwrites whatever result the record had before. -/
def terminal (record : SpoolRecord) (state : AttemptState) (exitCode : Option ℤ)
    (kind : Option FailureKind) (message : Option String) (now : String) : SpoolRecord :=
  { record with
    state
    sequence := record.sequence + 1
    finishedAt := some now
    exitCode
    failureKind := kind
    failureMessage := message }

/-- `SpoolRecord::has_protected_publication_evidence`. -/
def hasProtectedPublicationEvidence (record : SpoolRecord) : Bool :=
  match record.publication with
  | none => false
  | some publication =>
      publication.phase.isProtected &&
        !(publication.phase == .committedPendingReport && record.state == .succeeded &&
          decide (record.sequence ≤ record.acknowledgedSequence) &&
          record.logCompleteAcknowledged)

/-- `SpoolRecord::ready_for_cleanup`. -/
def readyForCleanup (record : SpoolRecord) : Bool :=
  !record.hasProtectedPublicationEvidence && record.state.isTerminal &&
    decide (record.sequence ≤ record.acknowledgedSequence) && record.logCompleteAcknowledged

/-- `SpoolRecord::requires_publication_recovery`. -/
def requiresPublicationRecovery (record : SpoolRecord) : Bool :=
  match record.publication with
  | none => false
  | some publication => publication.phase.requiresNamespaceRecovery

/-- `record.publication.as_ref().map(|state| state.phase)`. -/
def phase? (record : SpoolRecord) : Option PublicationPhase :=
  record.publication.map (·.phase)

/-- A record whose publication state is replaced, with everything else kept. -/
def withPublication (record : SpoolRecord) (publication : PublicationState) : SpoolRecord :=
  { record with publication := some publication }

section Simp

variable (record : SpoolRecord) (publication : PublicationState) (state : AttemptState)
  (exitCode : Option ℤ) (kind : Option FailureKind) (message : Option String) (now : String)

@[simp]
theorem withPublication_publication :
    (record.withPublication publication).publication = some publication := rfl

@[simp]
theorem withPublication_state : (record.withPublication publication).state = record.state := rfl

@[simp]
theorem withPublication_cancelRequested :
    (record.withPublication publication).cancelRequested = record.cancelRequested := rfl

@[simp]
theorem withPublication_sequence :
    (record.withPublication publication).sequence = record.sequence := rfl

@[simp]
theorem withPublication_acknowledgedSequence :
    (record.withPublication publication).acknowledgedSequence = record.acknowledgedSequence := rfl

@[simp]
theorem terminal_publication :
    (record.terminal state exitCode kind message now).publication = record.publication := rfl

@[simp]
theorem terminal_state : (record.terminal state exitCode kind message now).state = state := rfl

@[simp]
theorem terminal_cancelRequested :
    (record.terminal state exitCode kind message now).cancelRequested =
      record.cancelRequested := rfl

@[simp]
theorem terminal_sequence :
    (record.terminal state exitCode kind message now).sequence = record.sequence + 1 := rfl

@[simp]
theorem terminal_acknowledgedSequence :
    (record.terminal state exitCode kind message now).acknowledgedSequence =
      record.acknowledgedSequence := rfl

end Simp

end SpoolRecord

end LzuMirror
