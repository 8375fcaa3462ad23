import LzuMirror.Agent.Effects

/-!
# Publishing an atomic attempt

`apps/lmt-agent/src/publication.rs`, from the preparation of a candidate to the
recovery of an interrupted publication. The functions keep the order of the
source's system calls and spool writes, since that order is what the results
about them are about.

A publication first rotates the stable previous generation out of the exchange
slot, moves the candidate into the slot, and then swaps the slot with the
published path in one rename. Every function decides what is left to do from
the stored identities and from what stands at the paths now. Durations, which
only feed the telemetry, are left out.
-/

namespace LzuMirror

/-- `CommitOutcome`. -/
inductive CommitOutcome where
  | published
  | aborted
  deriving DecidableEq, Repr

namespace PublicationState

def published (state : PublicationState) : PathBuf := .ofText state.publishedDir

def candidate (state : PublicationState) : PathBuf := .ofText state.candidateDir

def basis (state : PublicationState) : PathBuf := .ofText state.basisDir

def exchange (state : PublicationState) : PathBuf := .ofText state.exchangeDir

def gc (state : PublicationState) : PathBuf := .ofText state.gcDir

end PublicationState

/-- `{:?}` of an identity. -/
def FileIdentity.debug (identity : FileIdentity) : String :=
  "FileIdentity \x7b device: " ++ toString identity.device ++ ", inode: " ++
    toString identity.inode ++ " \x7d"

/-- `{:?}` of what was found at two paths. -/
def debugIdentities (first second : Option FileIdentity) : String :=
  let debug : Option FileIdentity → String
    | none => "None"
    | some identity => "Some(" ++ identity.debug ++ ")"
  "(" ++ debug first ++ ", " ++ debug second ++ ")"

/-- The path `persist_preparing` plans for the previous generation. -/
def rotatedPath (gcDir runId : String) (attempt : ℕ) : String :=
  joinText gcDir ("previous-" ++ runId ++ "-" ++ toString attempt)

namespace Agent

/-- The publication state of the caller's copy. -/
def publicationState (missing : String) : Agent PublicationState := do
  context (← copy).publication missing

/-- `fs::create_dir` or a symbolic link for the basis of a fresh candidate. -/
def createBasis (published basis : PathBuf) : Agent Unit := do
  match ← identityIfExists published with
  | some _ =>
      ofExcept (← perform (.validatePublishedTarget published))
      withContext (do ofExcept (← perform (.symlink published basis)))
        "create immutable rsync basis reference"
  | none =>
      withContext (createDir basis) "create empty first-publication basis"
      fsyncDirectory basis

/-- The second path is looked at only when the first is free. -/
def eitherExists (first second : PathBuf) : Agent Bool := do
  if (← identityIfExists first).isSome then pure true
  else pure (← identityIfExists second).isSome

/-- The blocking part of `prepare_candidate`. -/
def prepareCandidateLocked (candidate basis published : PathBuf) : Agent Unit := do
  if ← eitherExists candidate basis then
    fail "fresh Atomic Attempt candidate or basis already exists"
  else
    let directory ← context candidate.parent "candidate has no Attempt directory"
    if basis.parent ≠ some directory then
      fail "candidate and basis do not share one Attempt directory"
    else
      withContext (createDirAll directory) "create Atomic Attempt directory"
      withContext (createDir candidate) "create fresh Atomic candidate"
      createBasis published basis
      fsyncDirectory candidate
      fsyncDirectory directory
      match directory.parent with
      | some parent => fsyncDirectory parent
      | none => pure ()

/-- `prepare_candidate`. -/
def prepareCandidate : Agent Unit := do
  let state ← publicationState "Atomic record has no publication state"
  locked (.mirror state.mirror)
    (prepareCandidateLocked state.candidate state.basis state.published)

/-- The publication state of a publication that was undone. -/
def undoneState (publication : PublicationState) : PublicationState :=
  { publication with
    phase := .executing
    preVisibilityTerminalState := none
    preVisibilityFailureKind := none
    preVisibilityMessage := none }

/-- The terminal part of `restore_then_terminal`. -/
def terminalAfterRestore (state : AttemptState) (failureKind : Option FailureKind)
    (message : String) : Agent Unit := do
  let record ← copy
  let publication ← context record.publication "publication state missing"
  let time ← now
  let terminal := (record.withPublication (undoneState publication)).terminal state none
    failureKind (some message) time
  write terminal
  setCopy terminal

/-- The restoring rename of the stable previous generation. -/
def restorePrevious (publication : PublicationState) : Agent Unit := do
  match publication.stablePreviousIdentity with
  | none => pure ()
  | some previous =>
      let rotated ← context publication.rotatedPreviousPath
        "publication lacks previous rotation path"
      let atExchange ← identityIfExists publication.exchange
      let atRotated ← identityIfExists (.ofText rotated)
      if atExchange = none ∧ atRotated = some previous then
        renameNoreplace (.ofText rotated) publication.exchange
      else if atExchange = some previous then pure ()
      else
        fail ("cannot restore stable previous identity: " ++ debugIdentities atExchange atRotated)

/-- The restoring rename of the candidate. -/
def restoreCandidate (publication : PublicationState) (candidateIdentity : FileIdentity) :
    Agent Unit := do
  if (← identityIfExists publication.exchange) = some candidateIdentity then
    if (← identityIfExists publication.candidate).isSome then
      fail "cannot restore candidate because its private path exists"
    else renameNoreplace publication.exchange publication.candidate
  else pure ()

/-- The publication state that announces the undoing of a publication. -/
def recoveryState (publication : PublicationState) (state : AttemptState)
    (failureKind : Option FailureKind) (message : String) : PublicationState :=
  { publication with
    phase := .preVisibilityRecovery
    preVisibilityTerminalState := some state
    preVisibilityFailureKind := failureKind
    preVisibilityMessage := some message }

/-- The write-ahead part of `restore_then_terminal`. -/
def persistRecoveryIntent (state : AttemptState) (failureKind : Option FailureKind)
    (message : String) : Agent Unit := do
  let record ← copy
  let publication ← context record.publication "publication state missing"
  if publication.phase ≠ .preVisibilityRecovery then
    let recovery := record.withPublication (recoveryState publication state failureKind message)
    withContext (write recovery) "persist pre-visibility recovery intent"
    setCopy recovery
  else pure ()

/-- `restore_then_terminal`. -/
def restoreThenTerminal (state : AttemptState) (failureKind : Option FailureKind)
    (message : String) : Agent Unit := do
  persistRecoveryIntent state failureKind message
  let publication ← publicationState "publication state missing"
  let candidateIdentity ← context publication.candidateIdentity
    "publication lacks candidate identity"
  restoreCandidate publication candidateIdentity
  restorePrevious publication
  let candidateParent ← parent publication.candidate
  let exchangeParent ← parent publication.exchange
  syncNamespace [candidateParent, exchangeParent]
  terminalAfterRestore state failureKind message

/-- `ensure_committed_terminal`. -/
def ensureCommittedTerminal : Agent Unit := do
  let record ← copy
  if record.state = .succeeded then pure ()
  else
    let time ← now
    let committed := record.terminal .succeeded (some 0) none none time
    write committed
    setCopy committed

/-- `publication.phase = phase`. -/
def inPhase (publication : PublicationState) (phase : PublicationPhase) : PublicationState :=
  { publication with phase }

/-- `write(path, &pending).await.is_ok()` in `finish_visible`. -/
def persistPendingDurability : Agent Unit := do
  let record ← copy
  let publication ← context record.publication "publication state missing"
  let pending := record.withPublication (inPhase publication .visiblePendingDurability)
  match ← attempt (write pending) with
  | .ok _ => setCopy pending
  | .error _ => pure ()

/-- `finish_visible`. -/
def finishVisible : Agent Unit := do
  let state ← publicationState "publication state missing"
  let candidate ← context state.candidateIdentity "publication lacks candidate identity"
  if (← identityIfExists state.published) ≠ some candidate then
    fail "candidate identity is not visible at published path; visibility outcome is unresolved"
  else
    let publishedParent ← parent state.published
    let exchangeParent ← parent state.exchange
    match ← attempt (syncNamespace [publishedParent, exchangeParent]) with
    | .error _ =>
        persistPendingDurability
        fail "publication visible but directory durability is pending"
    | .ok _ =>
        let record ← copy
        let time ← now
        let committed := (record.withPublication (inPhase state .committedPendingReport)).terminal
          .succeeded (some 0) none none time
        withContext (write committed) "persist committed_pending_report before success"
        setCopy committed

/-- `verify_ready`. -/
def verifyReady (state : PublicationState) : Agent Unit := do
  let candidate ← context state.candidateIdentity "ready_to_commit lacks candidate identity"
  if (← identityIfExists state.exchange) ≠ some candidate then
    fail "candidate identity is not in fixed exchange slot"
  else if (← identityIfExists state.published) ≠ state.publishedIdentity then
    fail "published identity changed outside LMT"
  else
    match state.stablePreviousIdentity with
    | none => pure ()
    | some previous =>
        let rotated ← context state.rotatedPreviousPath
          "ready_to_commit lacks previous rotation path"
        if (← identityIfExists (.ofText rotated)) ≠ some previous then
          fail "stable previous identity is not at its protected rotation path"
        else pure ()

/-- The single rename that makes the candidate visible. -/
def visibilityRename (state : PublicationState) : Agent Unit :=
  if state.publishedIdentity.isSome then exchangePaths state.exchange state.published
  else renameNoreplace state.exchange state.published

/-- `commit_ready`. -/
def commitReady : Agent CommitOutcome := do
  let record ← copy
  let state ← context record.publication "publication state missing"
  if state.phase ≠ .readyToCommit then fail "visibility commit requires ready_to_commit phase"
  else if record.cancelRequested then
    restoreThenTerminal .cancelled none "cancelled before visibility"
    pure .aborted
  else
    match ← attempt (verifyReady state) with
    | .error error =>
        restoreThenTerminal .failed (some .invalidResult) error
        pure .aborted
    | .ok _ =>
        visibilityRename state
        finishVisible
        pure .published

/-- `recover_ready`. -/
def recoverReady : Agent Unit := do
  let state ← publicationState "publication state missing"
  let candidate ← context state.candidateIdentity "ready_to_commit lacks candidate identity"
  let published ← identityIfExists state.published
  let exchange ← identityIfExists state.exchange
  if published = some candidate then finishVisible
  else if exchange = some candidate ∧ published = state.publishedIdentity then
    discard commitReady
  else
    restoreThenTerminal .failed (some .invalidResult)
      "ready_to_commit identities are inconsistent"

/-- The rotation of the stable previous generation out of the exchange slot. -/
def rotatePrevious (state : PublicationState) (candidateIdentity : FileIdentity) :
    Agent Unit := do
  match state.stablePreviousIdentity with
  | some previous =>
      let rotated ← context state.rotatedPreviousPath
        "preparing_exchange lacks planned previous rotation path"
      let atExchange ← identityIfExists state.exchange
      let atRotated ← identityIfExists (.ofText rotated)
      if atExchange = some previous ∧ atRotated = none then
        renameNoreplace state.exchange (.ofText rotated)
      else if atExchange = none ∧ atRotated = some previous then pure ()
      else if atExchange = some candidateIdentity then pure ()
      else
        fail ("cannot reconstruct stable previous rotation from identities: " ++
          debugIdentities atExchange atRotated)
  | none =>
      match ← identityIfExists state.exchange with
      | some current =>
          if current ≠ candidateIdentity then
            fail "unexpected exchange entry appeared during first publication"
          else pure ()
      | none => pure ()

/-- The move of the candidate into the exchange slot. -/
def stageCandidate (state : PublicationState) (candidateIdentity : FileIdentity) :
    Agent Unit := do
  let atCandidate ← identityIfExists state.candidate
  let atExchange ← identityIfExists state.exchange
  if atCandidate = some candidateIdentity ∧ atExchange = none then
    renameNoreplace state.candidate state.exchange
  else if atCandidate = none ∧ atExchange = some candidateIdentity then pure ()
  else
    fail ("cannot stage candidate into fixed exchange slot from identities: " ++
      debugIdentities atCandidate atExchange)

/-- What stands at the planned rotation path. -/
def observeRotated (publication : PublicationState) : Agent (Option FileIdentity) :=
  match publication.rotatedPreviousPath with
  | some rotated => identityIfExists (.ofText rotated)
  | none => pure none

/-- The publication state `prepare_namespace` writes. -/
def readyState (publication : PublicationState) (candidateIdentity : FileIdentity)
    (rotatedIdentity : Option FileIdentity) : PublicationState :=
  { publication with
    phase := .readyToCommit
    exchangeIdentity := some candidateIdentity
    rotatedPreviousIdentity := rotatedIdentity }

/-- The write at the end of `prepare_namespace`. -/
def persistReady (candidateIdentity : FileIdentity) : Agent Unit := do
  let record ← copy
  let publication ← context record.publication "publication state missing"
  let rotatedIdentity ← observeRotated publication
  let next := record.withPublication (readyState publication candidateIdentity rotatedIdentity)
  withContext (write next) "persist ready_to_commit"
  setCopy next

/-- `prepare_namespace`. -/
def prepareNamespace : Agent Unit := do
  let state ← publicationState "publication state missing"
  if state.phase ≠ .preparingExchange then
    fail "private namespace preparation requires preparing_exchange phase"
  else
    let candidateIdentity ← context state.candidateIdentity
      "preparing_exchange lacks candidate identity"
    withContext (createDirAll state.gc) "create publication GC directory"
    rotatePrevious state candidateIdentity
    stageCandidate state candidateIdentity
    let candidateParent ← parent state.candidate
    let exchangeParent ← parent state.exchange
    syncNamespace [candidateParent, exchangeParent, state.gc]
    persistReady candidateIdentity

/-- The checks of `persist_preparing`, which return the three observed identities. -/
def observeNamespace (state : PublicationState) :
    Agent (FileIdentity × Option FileIdentity × Option FileIdentity) := do
  ofExcept (← perform (.validatePrivateDirectory state.candidate))
  ofExcept (← perform (.validatePublishedTarget state.published))
  let candidateIdentity ← withContext (identity state.candidate)
    "candidate does not exist after sync success"
  let publicParent ← identity (← parent state.published)
  let privateParent ← identity (← parent state.exchange)
  if candidateIdentity.device ≠ publicParent.device ∨
      candidateIdentity.device ≠ privateParent.device then
    fail "candidate, exchange, and published parent are not on one filesystem"
  else
    let publishedIdentity ← identityIfExists state.published
    let stablePrevious ← identityIfExists state.exchange
    if publishedIdentity = none ∧ stablePrevious.isSome then
      fail "published target is absent while a stable previous generation exists"
    else pure (candidateIdentity, publishedIdentity, stablePrevious)

/-- The publication state `persist_preparing` writes. -/
def preparingState (record : SpoolRecord) (current : PublicationState)
    (candidateIdentity : FileIdentity) (publishedIdentity stablePrevious : Option FileIdentity) :
    PublicationState :=
  { current with
    phase := .preparingExchange
    candidateIdentity := some candidateIdentity
    publishedIdentity := publishedIdentity
    stablePreviousIdentity := stablePrevious
    exchangeIdentity := stablePrevious
    rotatedPreviousPath :=
      stablePrevious.map fun _ => rotatedPath current.gcDir record.runId record.attempt
    rotatedPreviousIdentity := none
    preVisibilityTerminalState := none
    preVisibilityFailureKind := none
    preVisibilityMessage := none }

/-- The record `persist_preparing` writes. -/
def preparingRecord (record : SpoolRecord) (current : PublicationState)
    (candidateIdentity : FileIdentity) (publishedIdentity stablePrevious : Option FileIdentity) :
    SpoolRecord :=
  record.withPublication
    (preparingState record current candidateIdentity publishedIdentity stablePrevious)

/-- `persist_preparing`. -/
def persistPreparing : Agent Unit := do
  let record ← copy
  let current ← context record.publication "publication state missing"
  if current.phase ≠ .executing then fail "publication preparation requires executing phase"
  else
    let (candidateIdentity, publishedIdentity, stablePrevious) ← observeNamespace current
    let next := preparingRecord record current candidateIdentity publishedIdentity stablePrevious
    withContext (write next) "persist preparing_exchange"
    setCopy next

/-- `prepare_namespace`, turning around when it fails. -/
def prepareOrRestore : Agent Bool := do
  match ← attempt prepareNamespace with
  | .error error =>
      restoreThenTerminal .failed (some .invalidResult) error
      pure false
  | .ok _ => pure true

/-- `prepare`. -/
def prepare : Agent Unit := do
  persistPreparing
  discard prepareOrRestore

/-- The body of `commit` under the mirror lock. -/
def commitLocked : Agent CommitOutcome := do
  prepare
  commitReady

/-- `commit`. -/
def commit : Agent CommitOutcome := do
  let state ← publicationState "Atomic record has no publication state"
  locked (.mirror state.mirror) commitLocked

/-- The `PreVisibilityRecovery` arm: the stored intent is carried out. -/
def resumeRestore (publication : PublicationState) : Agent Unit :=
  restoreThenTerminal (publication.preVisibilityTerminalState.getD .failed)
    (publication.preVisibilityFailureKind <|> some .invalidResult)
    (publication.preVisibilityMessage.getD
      "publication private namespace recovered after an earlier failure")

/-- The body of `recover` under the mirror lock. -/
def recoverLocked : Agent Unit := do
  let record ← copy
  match record.publication with
  | none => pure ()
  | some publication =>
      match publication.phase with
      | .preparingExchange => do
          if ← prepareOrRestore then discard commitReady else pure ()
      | .readyToCommit => recoverReady
      | .preVisibilityRecovery => resumeRestore publication
      | .visiblePendingDurability => finishVisible
      | .committedPendingReport => ensureCommittedTerminal
      | .executing | .abandonedFenced => pure ()

/-- `recover`. -/
def recover : Agent Unit := do
  let state ← publicationState "publication recovery record has no publication state"
  locked (.mirror state.mirror) recoverLocked

/-- The body of `recover_before_control_plane` under the mirror lock. -/
def recoverBeforeControlPlaneLocked : Agent Unit := do
  let record ← copy
  match record.publication with
  | none => pure ()
  | some publication =>
      match publication.phase with
      | .preparingExchange => discard prepareOrRestore
      | .preVisibilityRecovery => resumeRestore publication
      | .visiblePendingDurability => finishVisible
      | .committedPendingReport => ensureCommittedTerminal
      | .executing | .readyToCommit | .abandonedFenced => pure ()

/-- `recover_before_control_plane`: nothing becomes visible before the first poll. -/
def recoverBeforeControlPlane : Agent Unit := do
  let state ← publicationState "publication recovery record has no publication state"
  locked (.mirror state.mirror) recoverBeforeControlPlaneLocked

end Agent

end LzuMirror
