import LzuMirror.Agent.Executor
import LzuMirror.Agent.Namespace
import LzuMirror.Lib.Interleaving

/-!
# What a computation touches

Bounds on the operations of a computation that hold whatever the operations
answer: which records it writes and which paths it moves. They need no
invariant of the disk, so they hold for a copy that is out of date as well.

`Permits` is what a bound has to allow for the publication functions to stay
within it, `Executes` what it has to allow for the executor. The bound of a
namespace is one: the publication functions never change the cancellation flag
of the copy they are given, never retire the spool file and never ask for the
acceptance lock; with the flag set, they leave the published path alone.
-/

namespace LzuMirror

namespace Agent

variable {α β : Type} {kept : SpoolRecord → Prop} {allowed : AgentOp → Prop}

/-- Every operation is allowed, and the copy and the result stay within bounds. -/
def Keeps (kept : SpoolRecord → Prop) (allowed : AgentOp → Prop) (computation : Agent α)
    (result : α → Prop) : Prop :=
  ∀ record, kept record → (computation record).Every allowed fun out =>
    kept out.2 ∧ ∀ value, out.1 = .ok value → result value

section Rules

variable {computation : Agent α} {result : α → Prop}

theorem Keeps.imp {weaker : α → Prop} (keeps : Keeps kept allowed computation result)
    (implied : ∀ value, result value → weaker value) :
    Keeps kept allowed computation weaker := by
  intro record holds
  refine (keeps record holds).imp ?_
  rintro out ⟨keptCopy, results⟩
  exact ⟨keptCopy, fun value returned => implied value (results value returned)⟩

theorem keeps_pure {value : α} (holds : result value) :
    Keeps kept allowed (pure value) result := by
  intro record keptCopy
  refine ⟨keptCopy, ?_⟩
  rintro _ ⟨⟩
  exact holds

theorem keeps_fail {message : String} : Keeps kept allowed (fail message) result := by
  intro record keptCopy
  refine ⟨keptCopy, ?_⟩
  rintro _ ⟨⟩

theorem keeps_copy : Keeps kept allowed copy kept := by
  intro record keptCopy
  refine ⟨keptCopy, ?_⟩
  rintro _ ⟨⟩
  exact keptCopy

theorem keeps_setCopy {next : SpoolRecord} (holds : kept next) :
    Keeps kept allowed (setCopy next) fun _ => True :=
  fun _ _ => ⟨holds, fun _ _ => trivial⟩

theorem keeps_perform {operation : AgentOp} (holds : allowed operation) :
    Keeps kept allowed (perform operation) fun _ => True :=
  fun _ keptCopy => ⟨holds, fun _ => ⟨keptCopy, fun _ _ => trivial⟩⟩

theorem keeps_context {value : Option α} {message : String}
    (holds : ∀ content, value = some content → result content) :
    Keeps kept allowed (context value message) result := by
  cases value with
  | none => exact keeps_fail
  | some content => exact keeps_pure (holds content rfl)

theorem keeps_ofExcept {value : Except String α}
    (holds : ∀ content, value = .ok content → result content) :
    Keeps kept allowed (ofExcept value) result := by
  cases value with
  | error message => exact keeps_fail
  | ok content => exact keeps_pure (holds content rfl)

theorem keeps_bind {next : α → Agent β} {last : β → Prop}
    (first : Keeps kept allowed computation result)
    (second : ∀ value, result value → Keeps kept allowed (next value) last) :
    Keeps kept allowed (computation >>= next) last := by
  intro record holds
  refine Program.every_bind.mpr ((first record holds).imp ?_)
  rintro ⟨message | value, after⟩ ⟨keptCopy, results⟩
  · refine ⟨keptCopy, ?_⟩
    rintro _ ⟨⟩
  · exact second value (results value rfl) after keptCopy

theorem keeps_attempt (keeps : Keeps kept allowed computation result) :
    Keeps kept allowed (attempt computation) fun outcome =>
      ∀ value, outcome = .ok value → result value := by
  intro record holds
  refine Program.every_bind.mpr ((keeps record holds).imp ?_)
  rintro ⟨outcome, after⟩ ⟨keptCopy, results⟩
  refine ⟨keptCopy, ?_⟩
  rintro _ ⟨⟩
  exact results

theorem keeps_withContext {message : String} (keeps : Keeps kept allowed computation result) :
    Keeps kept allowed (withContext computation message) result := by
  refine keeps_bind (keeps_attempt keeps) ?_
  rintro (error | value) results
  · exact keeps_fail
  · exact keeps_pure (results value rfl)

theorem keeps_discard (keeps : Keeps kept allowed computation result) :
    Keeps kept allowed (discard computation) fun _ => True :=
  keeps_bind keeps fun _ _ => keeps_pure trivial

theorem keeps_locked {lock : AgentLock} (acquires : allowed (.acquire lock none))
    (releases : allowed (.release lock)) (keeps : Keeps kept allowed computation result) :
    Keeps kept allowed (locked lock computation) result := by
  refine keeps_bind (keeps_perform acquires) fun _ _ => ?_
  refine keeps_bind (keeps_attempt keeps) fun outcome results => ?_
  exact keeps_bind (keeps_perform releases) fun _ _ => keeps_ofExcept results

/-- An operation whose error ends the computation. -/
theorem keeps_request {operation : AgentOp} (reply : operation.Reply = Except String α)
    (holds : allowed operation) :
    Keeps kept allowed (do ofExcept (cast reply (← perform operation))) fun _ => True :=
  keeps_bind (keeps_perform holds) fun _ _ => keeps_ofExcept fun _ _ => trivial

end Rules

/-- A computation that never returns an error, as a source function without a result. -/
def Infallible (computation : Agent α) : Prop :=
  ∀ record, (computation record).Every (fun _ => True) fun out => ∃ value, out.1 = .ok value

section Infallible

theorem infallible_pure (value : α) : Infallible (pure value) := fun _ => ⟨value, rfl⟩

theorem infallible_copy : Infallible copy := fun record => ⟨record, rfl⟩

theorem infallible_setCopy (next : SpoolRecord) : Infallible (setCopy next) := fun _ => ⟨(), rfl⟩

theorem infallible_perform (operation : AgentOp) : Infallible (perform operation) :=
  fun _ => ⟨trivial, fun reply => ⟨reply, rfl⟩⟩

theorem infallible_bind {computation : Agent α} {next : α → Agent β}
    (first : Infallible computation) (second : ∀ value, Infallible (next value)) :
    Infallible (computation >>= next) := by
  intro record
  refine Program.every_bind.mpr ((first record).imp ?_)
  rintro ⟨_, after⟩ ⟨value, rfl⟩
  exact second value after

theorem infallible_attempt (computation : Agent α) : Infallible (attempt computation) := by
  intro record
  refine Program.every_bind.mpr ((Program.every_true (computation record)).imp ?_)
  rintro ⟨outcome, after⟩ _
  exact ⟨outcome, rfl⟩

theorem infallible_terminalNow {state : AttemptState} {exitCode : Option ℤ}
    {kind : Option FailureKind} {message : Option String} :
    Infallible (terminalNow state exitCode kind message) :=
  infallible_bind (infallible_perform _) fun _ =>
    infallible_bind infallible_copy fun _ => infallible_setCopy _

theorem infallible_writeCopy : Infallible writeCopy :=
  infallible_bind infallible_copy fun _ =>
    infallible_bind (infallible_attempt _) fun _ => infallible_pure _

theorem infallible_finalizeAtomic (status : ExitStatus) : Infallible (finalizeAtomic status) := by
  refine infallible_bind (infallible_attempt _) fun outcome => ?_
  cases outcome with
  | ok _ => exact infallible_pure _
  | error error =>
      refine infallible_bind infallible_copy fun record => ?_
      split
      · exact infallible_bind infallible_terminalNow fun _ => infallible_writeCopy
      · exact infallible_pure _

theorem infallible_finalizeOutcome (outcome : Outcome) : Infallible (finalizeOutcome outcome) := by
  refine infallible_bind infallible_copy fun record => ?_
  split
  · exact infallible_terminalNow
  split
  · split
    · exact infallible_finalizeAtomic _
    split
    · exact infallible_terminalNow
    · exact infallible_terminalNow
  all_goals exact infallible_terminalNow

end Infallible

/-! ## Bounds for the publication functions -/

/-- Operations that leave the spool file and the generations where they are. -/
def isLook : AgentOp → Bool
  | .acquire (.mirror _) _ | .release (.mirror _) | .identityIfExists _
  | .validatePrivateDirectory _ | .validatePublishedTarget _ | .createDirAll _ | .createDir _
  | .symlink _ _ | .fsyncDirectory _ | .now => true
  | _ => false

/--
A bound that the publication functions stay within: `names` holds of the
publication states of the copy, `ends` of the results it may get.
-/
structure Permits (kept : SpoolRecord → Prop) (allowed : AgentOp → Prop)
    (names : PublicationState → Prop) (ends : AttemptState → Prop) : Prop where
  looks : ∀ operation, isLook operation = true → allowed operation
  writes : ∀ {record}, kept record → allowed (.writeSpool record)
  tracks : ∀ {record state}, kept record → record.publication = some state → names state
  publishes : ∀ {record state}, kept record → names state → kept (record.withPublication state)
  concludes : ∀ {record result exitCode kind message time}, kept record → ends result →
    kept (record.terminal result exitCode kind message time)
  succeeds : ends .succeeded
  fails : ends .failed
  cancels : ends .cancelled
  intends : ∀ {state}, names state → ends (state.preVisibilityTerminalState.getD .failed)
  recovers : ∀ {state result kind message}, names state → ends result →
    names (recoveryState state result kind message)
  undoes : ∀ {state}, names state → names (undoneState state)
  enters : ∀ {state phase}, names state → names (inPhase state phase)
  readies : ∀ {state identity rotated}, names state → names (readyState state identity rotated)
  prepares : ∀ {record state candidate published previous}, kept record →
    record.publication = some state →
      names (preparingState record state candidate published previous)
  stages : ∀ {state}, names state → allowed (.renameNoreplace state.candidate state.exchange)
  unstages : ∀ {state}, names state → allowed (.renameNoreplace state.exchange state.candidate)
  rotates : ∀ {state rotated}, names state → state.rotatedPreviousPath = some rotated →
    allowed (.renameNoreplace state.exchange (.ofText rotated))
  unrotates : ∀ {state rotated}, names state → state.rotatedPreviousPath = some rotated →
    allowed (.renameNoreplace (.ofText rotated) state.exchange)
  exchanges : ∀ {record state}, kept record → record.publication = some state →
    record.cancelRequested = false → allowed (.exchangePaths state.exchange state.published)
  appears : ∀ {record state}, kept record → record.publication = some state →
    record.cancelRequested = false → allowed (.renameNoreplace state.exchange state.published)

namespace Permits

variable {names : PublicationState → Prop} {ends : AttemptState → Prop}
  {record : SpoolRecord} {state : PublicationState} (permits : Permits kept allowed names ends)

include permits

section Reading

theorem identityIfExists {path : PathBuf} :
    Keeps kept allowed (identityIfExists path) fun _ => True :=
  @keeps_request _ _ _ (.identityIfExists path) rfl (permits.looks _ rfl)

theorem now : Keeps kept allowed now fun _ => True := keeps_perform (permits.looks _ rfl)

theorem write (holds : kept record) : Keeps kept allowed (write record) fun _ => True :=
  @keeps_request _ _ _ (.writeSpool record) rfl (permits.writes holds)

omit permits in
theorem parent {path : PathBuf} : Keeps kept allowed (parent path) fun _ => True :=
  keeps_context fun _ _ => trivial

theorem identity {path : PathBuf} : Keeps kept allowed (identity path) fun _ => True :=
  keeps_bind permits.identityIfExists fun _ _ => keeps_context fun _ _ => trivial

theorem publicationState {missing : String} :
    Keeps kept allowed (publicationState missing) names :=
  keeps_bind keeps_copy fun _ holds => keeps_context fun _ stored => permits.tracks holds stored

theorem fsyncDirectory {path : PathBuf} :
    Keeps kept allowed (fsyncDirectory path) fun _ => True :=
  @keeps_request _ _ _ (.fsyncDirectory path) rfl (permits.looks _ rfl)

theorem syncAll {paths : List PathBuf} : Keeps kept allowed (syncAll paths) fun _ => True := by
  induction paths with
  | nil => exact keeps_pure trivial
  | cons path rest ih => exact keeps_bind permits.fsyncDirectory fun _ _ => ih

theorem createDirAll {path : PathBuf} : Keeps kept allowed (createDirAll path) fun _ => True :=
  @keeps_request _ _ _ (.createDirAll path) rfl (permits.looks _ rfl)

theorem createDir {path : PathBuf} : Keeps kept allowed (createDir path) fun _ => True :=
  @keeps_request _ _ _ (.createDir path) rfl (permits.looks _ rfl)

theorem mirrorLocked {mirror : String} {computation : Agent α} {result : α → Prop}
    (keeps : Keeps kept allowed computation result) :
    Keeps kept allowed (locked (.mirror mirror) computation) result :=
  keeps_locked (permits.looks _ rfl) (permits.looks _ rfl) keeps

omit permits in
theorem renameNoreplace {source destination : PathBuf}
    (holds : allowed (.renameNoreplace source destination)) :
    Keeps kept allowed (renameNoreplace source destination) fun _ => True :=
  @keeps_request _ _ _ (.renameNoreplace source destination) rfl holds

end Reading

section Candidate

theorem createBasis {published basis : PathBuf} :
    Keeps kept allowed (createBasis published basis) fun _ => True := by
  refine keeps_bind permits.identityIfExists fun found _ => ?_
  cases found with
  | some _ =>
      refine keeps_bind (keeps_perform (permits.looks _ rfl)) fun _ _ => ?_
      refine keeps_bind (keeps_ofExcept fun _ _ => trivial) fun _ _ => ?_
      exact keeps_withContext
        (@keeps_request _ _ _ (.symlink published basis) rfl (permits.looks _ rfl))
  | none =>
      exact keeps_bind (keeps_withContext permits.createDir) fun _ _ => permits.fsyncDirectory

theorem eitherExists {first second : PathBuf} :
    Keeps kept allowed (eitherExists first second) fun _ => True := by
  refine keeps_bind permits.identityIfExists fun _ _ => ?_
  split
  · exact keeps_pure trivial
  · exact keeps_bind permits.identityIfExists fun _ _ => keeps_pure trivial

theorem prepareCandidateLocked {candidate basis published : PathBuf} :
    Keeps kept allowed (prepareCandidateLocked candidate basis published) fun _ => True := by
  refine keeps_bind permits.eitherExists fun _ _ => ?_
  split
  · exact keeps_fail
  refine keeps_bind (keeps_context fun _ _ => trivial) fun directory _ => ?_
  split
  · exact keeps_fail
  refine keeps_bind (keeps_withContext permits.createDirAll) fun _ _ => ?_
  refine keeps_bind (keeps_withContext permits.createDir) fun _ _ => ?_
  refine keeps_bind permits.createBasis fun _ _ => ?_
  refine keeps_bind permits.fsyncDirectory fun _ _ => ?_
  refine keeps_bind permits.fsyncDirectory fun _ _ => ?_
  split
  · exact permits.fsyncDirectory
  · exact keeps_pure trivial

theorem prepareCandidate : Keeps kept allowed prepareCandidate fun _ => True :=
  keeps_bind permits.publicationState fun _ _ =>
    permits.mirrorLocked permits.prepareCandidateLocked

end Candidate

section Restoring

theorem persistRecoveryIntent {result : AttemptState} {kind : Option FailureKind}
    {message : String} (ending : ends result) :
    Keeps kept allowed (persistRecoveryIntent result kind message) fun _ => True := by
  refine keeps_bind keeps_copy fun record holds => ?_
  refine keeps_bind (keeps_context fun _ stored => permits.tracks holds stored) fun state known => ?_
  split
  · have recovery : kept (record.withPublication (recoveryState state result kind message)) :=
      permits.publishes holds (permits.recovers known ending)
    exact keeps_bind (keeps_withContext (permits.write recovery)) fun _ _ =>
      keeps_setCopy recovery
  · exact keeps_pure trivial

theorem restoreCandidate (known : names state) {identity : FileIdentity} :
    Keeps kept allowed (restoreCandidate state identity) fun _ => True := by
  refine keeps_bind permits.identityIfExists fun _ _ => ?_
  split
  · refine keeps_bind permits.identityIfExists fun _ _ => ?_
    split
    · exact keeps_fail
    · exact renameNoreplace (permits.unstages known)
  · exact keeps_pure trivial

theorem restorePrevious (known : names state) :
    Keeps kept allowed (restorePrevious state) fun _ => True := by
  unfold Agent.restorePrevious
  split
  · exact keeps_pure trivial
  · refine keeps_bind (keeps_context fun _ planned => planned) fun text planned => ?_
    refine keeps_bind permits.identityIfExists fun _ _ => ?_
    refine keeps_bind permits.identityIfExists fun _ _ => ?_
    split
    · exact renameNoreplace (permits.unrotates known planned)
    · split
      · exact keeps_pure trivial
      · exact keeps_fail

theorem terminalAfterRestore {result : AttemptState} {kind : Option FailureKind}
    {message : String} (ending : ends result) :
    Keeps kept allowed (terminalAfterRestore result kind message) fun _ => True := by
  refine keeps_bind keeps_copy fun record holds => ?_
  refine keeps_bind (keeps_context fun _ stored => permits.tracks holds stored) fun state known => ?_
  refine keeps_bind permits.now fun time _ => ?_
  have undone : kept ((record.withPublication (undoneState state)).terminal result none kind
      (some message) time) :=
    permits.concludes (permits.publishes holds (permits.undoes known)) ending
  exact keeps_bind (permits.write undone) fun _ _ => keeps_setCopy undone

theorem restoreThenTerminal {result : AttemptState} {kind : Option FailureKind}
    {message : String} (ending : ends result) :
    Keeps kept allowed (restoreThenTerminal result kind message) fun _ => True := by
  refine keeps_bind (permits.persistRecoveryIntent ending) fun _ _ => ?_
  refine keeps_bind permits.publicationState fun state known => ?_
  refine keeps_bind (keeps_context fun _ _ => trivial) fun identity _ => ?_
  refine keeps_bind (permits.restoreCandidate known) fun _ _ => ?_
  refine keeps_bind (permits.restorePrevious known) fun _ _ => ?_
  refine keeps_bind parent fun _ _ => ?_
  refine keeps_bind parent fun _ _ => ?_
  exact keeps_bind permits.syncAll fun _ _ => permits.terminalAfterRestore ending

theorem resumeRestore (known : names state) :
    Keeps kept allowed (resumeRestore state) fun _ => True :=
  permits.restoreThenTerminal (permits.intends known)

end Restoring

section Committing

theorem ensureCommittedTerminal :
    Keeps kept allowed ensureCommittedTerminal fun _ => True := by
  refine keeps_bind keeps_copy fun record holds => ?_
  split
  · exact keeps_pure trivial
  · refine keeps_bind permits.now fun time _ => ?_
    have committed : kept (record.terminal .succeeded (some 0) none none time) :=
      permits.concludes holds permits.succeeds
    exact keeps_bind (permits.write committed) fun _ _ => keeps_setCopy committed

theorem persistPendingDurability :
    Keeps kept allowed persistPendingDurability fun _ => True := by
  refine keeps_bind keeps_copy fun record holds => ?_
  refine keeps_bind (keeps_context fun _ stored => permits.tracks holds stored) fun state known => ?_
  have pending : kept (record.withPublication (inPhase state .visiblePendingDurability)) :=
    permits.publishes holds (permits.enters known)
  refine keeps_bind (keeps_attempt (permits.write pending)) fun outcome _ => ?_
  cases outcome with
  | ok _ => exact keeps_setCopy pending
  | error _ => exact keeps_pure trivial

theorem finishVisible : Keeps kept allowed finishVisible fun _ => True := by
  refine keeps_bind permits.publicationState fun state known => ?_
  refine keeps_bind (keeps_context fun _ _ => trivial) fun identity _ => ?_
  refine keeps_bind permits.identityIfExists fun _ _ => ?_
  split
  · exact keeps_fail
  refine keeps_bind parent fun _ _ => ?_
  refine keeps_bind parent fun _ _ => ?_
  refine keeps_bind (keeps_attempt permits.syncAll) fun outcome _ => ?_
  cases outcome with
  | error _ => exact keeps_bind permits.persistPendingDurability fun _ _ => keeps_fail
  | ok _ =>
      refine keeps_bind keeps_copy fun record holds => ?_
      refine keeps_bind permits.now fun time _ => ?_
      have committed : kept ((record.withPublication
          (inPhase state .committedPendingReport)).terminal .succeeded (some 0) none none time) :=
        permits.concludes (permits.publishes holds (permits.enters known)) permits.succeeds
      exact keeps_bind (keeps_withContext (permits.write committed)) fun _ _ =>
        keeps_setCopy committed

theorem verifyReady : Keeps kept allowed (verifyReady state) fun _ => True := by
  refine keeps_bind (keeps_context fun _ _ => trivial) fun candidate _ => ?_
  refine keeps_bind permits.identityIfExists fun _ _ => ?_
  split
  · exact keeps_fail
  refine keeps_bind permits.identityIfExists fun _ _ => ?_
  split
  · exact keeps_fail
  split
  · exact keeps_pure trivial
  · refine keeps_bind (keeps_context fun _ _ => trivial) fun rotated _ => ?_
    refine keeps_bind permits.identityIfExists fun _ _ => ?_
    split
    · exact keeps_fail
    · exact keeps_pure trivial

/-- The visibility rename is reached without a cancellation only. -/
theorem visibilityRename (holds : kept record) (stored : record.publication = some state)
    (uncancelled : record.cancelRequested = false) :
    Keeps kept allowed (visibilityRename state) fun _ => True := by
  unfold Agent.visibilityRename
  split
  · exact @keeps_request _ _ _ (.exchangePaths state.exchange state.published) rfl
      (permits.exchanges holds stored uncancelled)
  · exact renameNoreplace (permits.appears holds stored uncancelled)

theorem commitReady : Keeps kept allowed commitReady fun _ => True := by
  refine keeps_bind keeps_copy fun record holds => ?_
  refine keeps_bind (keeps_context fun _ stored => stored) fun state stored => ?_
  split
  · exact keeps_fail
  by_cases cancelled : record.cancelRequested = true
  · rw [if_pos cancelled]
    exact keeps_bind (permits.restoreThenTerminal permits.cancels) fun _ _ => keeps_pure trivial
  · rw [if_neg cancelled]
    refine keeps_bind (keeps_attempt permits.verifyReady) fun outcome _ => ?_
    cases outcome with
    | error _ =>
        exact keeps_bind (permits.restoreThenTerminal permits.fails) fun _ _ => keeps_pure trivial
    | ok _ =>
        have uncancelled := Bool.eq_false_iff.mpr cancelled
        refine keeps_bind (permits.visibilityRename holds stored uncancelled) fun _ _ => ?_
        exact keeps_bind permits.finishVisible fun _ _ => keeps_pure trivial

theorem recoverReady : Keeps kept allowed recoverReady fun _ => True := by
  refine keeps_bind permits.publicationState fun state known => ?_
  refine keeps_bind (keeps_context fun _ _ => trivial) fun candidate _ => ?_
  refine keeps_bind permits.identityIfExists fun _ _ => ?_
  refine keeps_bind permits.identityIfExists fun _ _ => ?_
  split
  · exact permits.finishVisible
  split
  · exact keeps_discard permits.commitReady
  · exact permits.restoreThenTerminal permits.fails

end Committing

section Preparing

theorem rotatePrevious (known : names state) {identity : FileIdentity} :
    Keeps kept allowed (rotatePrevious state identity) fun _ => True := by
  unfold Agent.rotatePrevious
  split
  · refine keeps_bind (keeps_context fun _ planned => planned) fun text planned => ?_
    refine keeps_bind permits.identityIfExists fun _ _ => ?_
    refine keeps_bind permits.identityIfExists fun _ _ => ?_
    split
    · exact renameNoreplace (permits.rotates known planned)
    split
    · exact keeps_pure trivial
    split
    · exact keeps_pure trivial
    · exact keeps_fail
  · refine keeps_bind permits.identityIfExists fun found _ => ?_
    cases found with
    | none => exact keeps_pure trivial
    | some current =>
        dsimp only
        split
        · exact keeps_fail
        · exact keeps_pure trivial

theorem stageCandidate (known : names state) {identity : FileIdentity} :
    Keeps kept allowed (stageCandidate state identity) fun _ => True := by
  refine keeps_bind permits.identityIfExists fun _ _ => ?_
  refine keeps_bind permits.identityIfExists fun _ _ => ?_
  split
  · exact renameNoreplace (permits.stages known)
  split
  · exact keeps_pure trivial
  · exact keeps_fail

theorem observeRotated : Keeps kept allowed (observeRotated state) fun _ => True := by
  unfold Agent.observeRotated
  split
  · exact permits.identityIfExists
  · exact keeps_pure trivial

theorem persistReady {identity : FileIdentity} :
    Keeps kept allowed (persistReady identity) fun _ => True := by
  refine keeps_bind keeps_copy fun record holds => ?_
  refine keeps_bind (keeps_context fun _ stored => permits.tracks holds stored) fun state known => ?_
  refine keeps_bind permits.observeRotated fun rotatedIdentity _ => ?_
  have ready : kept (record.withPublication (readyState state identity rotatedIdentity)) :=
    permits.publishes holds (permits.readies known)
  exact keeps_bind (keeps_withContext (permits.write ready)) fun _ _ => keeps_setCopy ready

theorem prepareNamespace : Keeps kept allowed prepareNamespace fun _ => True := by
  refine keeps_bind permits.publicationState fun state known => ?_
  split
  · exact keeps_fail
  refine keeps_bind (keeps_context fun _ _ => trivial) fun identity _ => ?_
  refine keeps_bind (keeps_withContext permits.createDirAll) fun _ _ => ?_
  refine keeps_bind (permits.rotatePrevious known) fun _ _ => ?_
  refine keeps_bind (permits.stageCandidate known) fun _ _ => ?_
  refine keeps_bind parent fun _ _ => ?_
  refine keeps_bind parent fun _ _ => ?_
  exact keeps_bind permits.syncAll fun _ _ => permits.persistReady

theorem observeNamespace : Keeps kept allowed (observeNamespace state) fun _ => True := by
  refine keeps_bind (keeps_perform (permits.looks _ rfl)) fun _ _ => ?_
  refine keeps_bind (keeps_ofExcept fun _ _ => trivial) fun _ _ => ?_
  refine keeps_bind (keeps_perform (permits.looks _ rfl)) fun _ _ => ?_
  refine keeps_bind (keeps_ofExcept fun _ _ => trivial) fun _ _ => ?_
  refine keeps_bind (keeps_withContext permits.identity) fun _ _ => ?_
  refine keeps_bind parent fun _ _ => ?_
  refine keeps_bind permits.identity fun _ _ => ?_
  refine keeps_bind parent fun _ _ => ?_
  refine keeps_bind permits.identity fun _ _ => ?_
  split
  · exact keeps_fail
  refine keeps_bind permits.identityIfExists fun _ _ => ?_
  refine keeps_bind permits.identityIfExists fun _ _ => ?_
  split
  · exact keeps_fail
  · exact keeps_pure trivial

theorem persistPreparing : Keeps kept allowed persistPreparing fun _ => True := by
  refine keeps_bind keeps_copy fun record holds => ?_
  refine keeps_bind (keeps_context fun _ stored => stored) fun state stored => ?_
  split
  · exact keeps_fail
  refine keeps_bind permits.observeNamespace fun (candidate, published, previous) _ => ?_
  have preparing : kept (preparingRecord record state candidate published previous) :=
    permits.publishes holds (permits.prepares holds stored)
  exact keeps_bind (keeps_withContext (permits.write preparing)) fun _ _ => keeps_setCopy preparing

theorem prepareOrRestore : Keeps kept allowed prepareOrRestore fun _ => True := by
  refine keeps_bind (keeps_attempt permits.prepareNamespace) fun outcome _ => ?_
  cases outcome with
  | error _ =>
      exact keeps_bind (permits.restoreThenTerminal permits.fails) fun _ _ => keeps_pure trivial
  | ok _ => exact keeps_pure trivial

end Preparing

section Calls

theorem prepare : Keeps kept allowed prepare fun _ => True :=
  keeps_bind permits.persistPreparing fun _ _ => keeps_discard permits.prepareOrRestore

theorem commit : Keeps kept allowed commit fun _ => True := by
  refine keeps_bind permits.publicationState fun state _ => permits.mirrorLocked ?_
  exact keeps_bind permits.prepare fun _ _ => permits.commitReady

theorem recover : Keeps kept allowed recover fun _ => True := by
  refine keeps_bind permits.publicationState fun state _ => permits.mirrorLocked ?_
  refine keeps_bind keeps_copy fun record holds => ?_
  split
  · exact keeps_pure trivial
  next stored =>
    split
    · refine keeps_bind permits.prepareOrRestore fun prepared _ => ?_
      split
      · exact keeps_discard permits.commitReady
      · exact keeps_pure trivial
    · exact permits.recoverReady
    · exact permits.resumeRestore (permits.tracks holds stored)
    · exact permits.finishVisible
    · exact permits.ensureCommittedTerminal
    · exact keeps_pure trivial
    · exact keeps_pure trivial

theorem recoverBeforeControlPlane :
    Keeps kept allowed recoverBeforeControlPlane fun _ => True := by
  refine keeps_bind permits.publicationState fun state _ => permits.mirrorLocked ?_
  refine keeps_bind keeps_copy fun record holds => ?_
  split
  · exact keeps_pure trivial
  next stored =>
    split
    · exact keeps_discard permits.prepareOrRestore
    · exact permits.resumeRestore (permits.tracks holds stored)
    · exact permits.finishVisible
    · exact permits.ensureCommittedTerminal
    · exact keeps_pure trivial
    · exact keeps_pure trivial
    · exact keeps_pure trivial

theorem terminalNow {result : AttemptState} {exitCode : Option ℤ}
    {kind : Option FailureKind} {message : Option String} (ending : ends result) :
    Keeps kept allowed (terminalNow result exitCode kind message) fun _ => True := by
  refine keeps_bind permits.now fun time _ => ?_
  exact keeps_bind keeps_copy fun record holds => keeps_setCopy (permits.concludes holds ending)

theorem writeCopy : Keeps kept allowed writeCopy fun _ => True :=
  keeps_bind keeps_copy fun _ holds => keeps_discard (keeps_attempt (permits.write holds))

theorem recordFailure {kind : FailureKind} {error : String} :
    Keeps kept allowed (recordFailure kind error) fun _ => True := by
  refine keeps_bind keeps_copy fun record holds => ?_
  split
  · exact keeps_bind (permits.terminalNow permits.cancels) fun _ _ => permits.writeCopy
  · exact keeps_bind (permits.terminalNow permits.fails) fun _ _ => permits.writeCopy

theorem finalizeAtomic {status : ExitStatus} :
    Keeps kept allowed (finalizeAtomic status) fun _ => True := by
  refine keeps_bind (keeps_attempt permits.commit) fun outcome _ => ?_
  cases outcome with
  | ok _ => exact keeps_pure trivial
  | error error =>
      refine keeps_bind keeps_copy fun record holds => ?_
      split
      · exact keeps_bind (permits.terminalNow permits.fails) fun _ _ => permits.writeCopy
      · exact keeps_pure trivial

theorem finalizeOutcome {outcome : Outcome} (interrupts : ends .interrupted)
    (timesOut : ends .timedOut) :
    Keeps kept allowed (finalizeOutcome outcome) fun _ => True := by
  refine keeps_bind keeps_copy fun record holds => ?_
  split
  · exact permits.terminalNow permits.cancels
  split
  · split
    · exact permits.finalizeAtomic
    split
    · exact permits.terminalNow permits.succeeds
    · exact permits.terminalNow permits.fails
  · exact permits.terminalNow interrupts
  · exact permits.terminalNow interrupts
  · exact permits.terminalNow timesOut
  · exact permits.terminalNow permits.cancels

theorem finalize {outcome : Outcome} (interrupts : ends .interrupted)
    (timesOut : ends .timedOut) :
    Keeps kept allowed (finalize outcome) fun _ => True :=
  keeps_bind (permits.finalizeOutcome interrupts timesOut) fun _ _ => permits.writeCopy

end Calls

end Permits

/-! ## Bounds for the executor -/

/-- A bound that the critical sections of the executor stay within. -/
structure Executes (kept : SpoolRecord → Prop) (allowed : AgentOp → Prop)
    (names : PublicationState → Prop) (ends : AttemptState → Prop) : Prop
    extends Permits kept allowed names ends where
  reads : allowed .readSpool
  acquires : allowed (.acquire .acceptance none)
  releases : allowed (.release .acceptance)
  merges : ∀ {record flag}, kept record → kept { record with cancelRequested := flag }
  interrupts : ends .interrupted
  timesOut : ends .timedOut

namespace Executes

variable {names : PublicationState → Prop} {ends : AttemptState → Prop}
  (executes : Executes kept allowed names ends)

include executes

theorem mergeCancellation : Keeps kept allowed mergeCancellation fun _ => True := by
  refine keeps_bind (keeps_perform executes.reads) fun reply _ => ?_
  split
  · exact keeps_pure trivial
  · exact keeps_bind keeps_copy fun record holds => keeps_setCopy (executes.merges holds)

theorem persistFailure {kind : FailureKind} {error : String} :
    Keeps kept allowed (persistFailure kind error) fun _ => True :=
  keeps_locked executes.acquires executes.releases
    (keeps_bind executes.mergeCancellation fun _ _ => executes.toPermits.recordFailure)

theorem finishExecution {outcome : Outcome} :
    Keeps kept allowed (finishExecution outcome) fun _ => True :=
  keeps_locked executes.acquires executes.releases
    (keeps_bind executes.mergeCancellation fun _ _ =>
      executes.toPermits.finalize executes.interrupts executes.timesOut)

theorem prepareIfAtomic : Keeps kept allowed prepareIfAtomic fun _ => True := by
  refine keeps_bind keeps_copy fun record _ => ?_
  split
  · exact executes.toPermits.prepareCandidate
  · exact keeps_pure trivial

end Executes

end Agent

namespace Namespace

open Agent

variable (ns : Namespace) (origin : SpoolRecord)

/-- A publication state of the attempt of `origin` in this namespace. -/
structure Names (state : PublicationState) : Prop where
  candidatePath : state.candidate = ns.candidatePath
  exchangePath : state.exchange = ns.exchangePath
  publishedPath : state.published = ns.publishedPath
  gcPath : state.gc = ns.gcPath
  rotatedText : LzuMirror.rotatedPath state.gcDir origin.runId origin.attempt = ns.rotatedText
  rotated : ∀ text, state.rotatedPreviousPath = some text → text = ns.rotatedText

/-- A record in this namespace that a publication may have made of `origin`. -/
structure Owns (record : SpoolRecord) : Prop where
  runId : record.runId = origin.runId
  attempt : record.attempt = origin.attempt
  cancelRequested : record.cancelRequested = origin.cancelRequested
  complete : record.logCompleteAcknowledged = origin.logCompleteAcknowledged
  publication : ∃ state, record.publication = some state ∧ ns.Names origin state

/-- The operations of a publication. -/
def Careful : AgentOp → Prop
  | .writeSpool record => ns.Owns origin record
  | .retireSpool => False
  | .acquire lock _ | .release lock => lock ≠ .acceptance
  | .renameNoreplace source destination => origin.cancelRequested = true →
      source ≠ ns.publishedPath ∧ destination ≠ ns.publishedPath
  | .exchangePaths _ _ => origin.cancelRequested = false
  | _ => True

/-- The publication functions are careful and keep what the copy owns. -/
abbrev Keeps {α : Type} (computation : Agent α) (result : α → Prop) : Prop :=
  Agent.Keeps (ns.Owns origin) (ns.Careful origin) computation result

variable {ns origin} {record : SpoolRecord} {state : PublicationState}

theorem Names.replaced (names : ns.Names origin state) {next : PublicationState}
    (candidateDir : next.candidateDir = state.candidateDir)
    (exchangeDir : next.exchangeDir = state.exchangeDir)
    (publishedDir : next.publishedDir = state.publishedDir) (gcDir : next.gcDir = state.gcDir)
    (rotated : ∀ text, next.rotatedPreviousPath = some text → text = ns.rotatedText) :
    ns.Names origin next where
  candidatePath := by
    rw [← names.candidatePath, PublicationState.candidate, candidateDir]
    rfl
  exchangePath := by
    rw [← names.exchangePath, PublicationState.exchange, exchangeDir]
    rfl
  publishedPath := by
    rw [← names.publishedPath, PublicationState.published, publishedDir]
    rfl
  gcPath := by
    rw [← names.gcPath, PublicationState.gc, gcDir]
    rfl
  rotatedText := by
    rw [gcDir]
    exact names.rotatedText
  rotated

theorem Owns.withPublication (owns : ns.Owns origin record) (names : ns.Names origin state) :
    ns.Owns origin (record.withPublication state) :=
  ⟨owns.runId, owns.attempt, owns.cancelRequested, owns.complete, state, rfl, names⟩

theorem Owns.terminal (owns : ns.Owns origin record) (result : AttemptState)
    (exitCode : Option ℤ) (kind : Option FailureKind) (message : Option String)
    (now : String) : ns.Owns origin (record.terminal result exitCode kind message now) :=
  ⟨owns.runId, owns.attempt, owns.cancelRequested, owns.complete, owns.publication⟩

theorem Owns.names (owns : ns.Owns origin record) (stored : record.publication = some state) :
    ns.Names origin state := by
  rcases owns.publication with ⟨owned, found, names⟩
  rw [stored, Option.some.injEq] at found
  exact found ▸ names

theorem Owns.tracks (owns : ns.Owns origin record) (stored : record.publication = some state) :
    ns.Tracks record state := by
  have names := owns.names stored
  have rotatedText := names.rotatedText
  rw [← owns.runId, ← owns.attempt] at rotatedText
  exact ⟨stored, names.candidatePath, names.exchangePath, names.publishedPath, names.gcPath,
    rotatedText⟩

/-- The bound of the publication functions in a namespace. -/
theorem permits (ns : Namespace) (origin : SpoolRecord) :
    Permits (ns.Owns origin) (ns.Careful origin) (ns.Names origin) fun _ => True where
  looks := by
    intro operation look
    cases operation with
    | acquire lock _ | release lock =>
        rintro rfl
        cases look
    | _ => trivial
  writes := id
  tracks := Owns.names
  publishes := Owns.withPublication
  concludes := fun owns _ => owns.terminal ..
  succeeds := trivial
  fails := trivial
  cancels := trivial
  intends := fun _ => trivial
  recovers := fun names _ => names.replaced rfl rfl rfl rfl names.rotated
  undoes := fun names => names.replaced rfl rfl rfl rfl names.rotated
  enters := fun names => names.replaced rfl rfl rfl rfl names.rotated
  readies := fun names => names.replaced rfl rfl rfl rfl names.rotated
  prepares := by
    intro record state candidate published previous owns stored
    have names := owns.names stored
    refine names.replaced rfl rfl rfl rfl ?_
    intro text planned
    -- the planned path is that of the record's own attempt
    rcases Option.map_eq_some_iff.mp planned with ⟨_, _, rfl⟩
    rw [← names.rotatedText, ← owns.runId, ← owns.attempt]
  stages := fun names _ => by
    rw [names.candidatePath, names.exchangePath]
    exact ⟨ns.candidate_ne_published, ns.exchange_ne_published⟩
  unstages := fun names _ => by
    rw [names.candidatePath, names.exchangePath]
    exact ⟨ns.exchange_ne_published, ns.candidate_ne_published⟩
  rotates := fun names planned _ => by
    rw [names.exchangePath, names.rotated _ planned]
    exact ⟨ns.exchange_ne_published, ns.published_ne_rotated.symm⟩
  unrotates := fun names planned _ => by
    rw [names.exchangePath, names.rotated _ planned]
    exact ⟨ns.published_ne_rotated.symm, ns.exchange_ne_published⟩
  exchanges := fun owns _ uncancelled => owns.cancelRequested.symm.trans uncancelled
  appears := fun owns _ uncancelled cancelled => by
    rw [← owns.cancelRequested, uncancelled] at cancelled
    cases cancelled

end Namespace

end LzuMirror
