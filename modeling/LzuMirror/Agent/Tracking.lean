import LzuMirror.Agent.Contracts
import LzuMirror.Agent.Ledger

/-!
# Critical sections on the ledger

A relation between a record and the one that overwrites it is kept by all tasks
when `Tracking` holds: acknowledgements and changes of the publication state are
covered without further ado, results under a condition, and the executor's first
write after the others have had their turn under another.

A section under the acceptance lock is followed with the copy it works on
(`Holding`), from the executor's first write on. Before it, all that is known of
the file is that it says no more than the copy (`Opening`).
-/

namespace LzuMirror

namespace Ledger

open Agent

/-- The result that is about to be written undoes a preparation of the same commit. -/
def undoing : List (AgentTask × SpoolRecord) → Bool
  | (.executor, intent) :: (.executor, preparing) :: _ =>
      decide (intent.phase? = some .preVisibilityRecovery) &&
        decide (preparing.phase? = some .preparingExchange)
  | _ => false

/--
What a relation between successive records needs. With `once`, a result is never
followed by another one; without it, the acknowledgements are kept.
-/
structure Tracking (terms : Terms) (once : Prop) (follows : SpoolRecord → SpoolRecord → Prop) :
    Prop where
  refl : ∀ record, follows record record
  trans : ∀ first second third, follows first second → follows second third →
    follows first third
  reports : ∀ (record : SpoolRecord) (sequence offset : ℕ) (complete : Bool),
    record.acknowledgedSequence ≤ sequence → record.logOffset ≤ offset →
      (record.logCompleteAcknowledged = true → complete = true) →
        follows record (record.reported sequence offset complete)
  flags : ∀ (record : SpoolRecord) (flag : Bool),
    follows record { record with cancelRequested := flag }
  publishes : ∀ (record : SpoolRecord) (publication : PublicationState),
    follows record (record.withPublication publication)
  ends : ∀ (record : SpoolRecord) (state : AttemptState) (exitCode : Option ℤ)
    (kind : Option FailureKind) (message : Option String) (time : String),
    (once → record.state.isTerminal = false) →
      follows record (record.terminal state exitCode kind message time)
  starts : ∀ old new : SpoolRecord, old.IsPristine → old.sequence ≤ new.sequence →
    (once ∨ old.sameAcknowledgements new = true) → follows old new
  permits : ∀ (ledger : Ledger) (old new : SpoolRecord), terms.writes ledger .executor new →
    ledger.spool = some old →
      (old.sequence ≠ new.sequence ∨ old.publication ≠ new.publication) →
        once ∨ overtaken ledger.entries = false
  sound : ∀ (ledger : Ledger) (record : SpoolRecord), once →
    terms.writes ledger .executor record → record.state.isTerminal = true →
      undoing (written ledger.entries) = false
  enters : ∀ (ledger : Ledger) (record : SpoolRecord), terms.enters ledger record →
    ledger.spool = some record

/-! ## Computations that do not touch the file -/

/-- Every operation leaves the ledger alone, and the copy stays as it is. -/
def Aside {α : Type} (computation : Agent α) : Prop :=
  ∀ record, Agent.Keeps (· = record) (fun operation => isAside operation = true) computation
    fun _ => True

section Aside

variable {α β : Type}

theorem aside_pure {value : α} : Aside (pure value) := fun _ => keeps_pure trivial

theorem aside_fail {message : String} : Aside (fail message : Agent α) := fun _ => keeps_fail

theorem aside_context {value : Option α} {message : String} : Aside (context value message) :=
  fun _ => keeps_context fun _ _ => trivial

theorem aside_perform {operation : AgentOp} (aside : isAside operation = true) :
    Aside (Agent.perform operation) :=
  fun _ => keeps_perform aside

theorem aside_ofExcept {value : Except String α} : Aside (ofExcept value) :=
  fun _ => keeps_ofExcept fun _ _ => trivial

theorem aside_bind {first : Agent α} {next : α → Agent β} (aside : Aside first)
    (asideNext : ∀ value, Aside (next value)) : Aside (first >>= next) :=
  fun record => keeps_bind (aside record) fun value _ => asideNext value record

theorem aside_attempt {computation : Agent α} (aside : Aside computation) :
    Aside (attempt computation) :=
  fun record => (keeps_attempt (aside record)).imp fun _ _ => trivial

theorem aside_withContext {computation : Agent α} {message : String}
    (aside : Aside computation) : Aside (withContext computation message) :=
  fun record => keeps_withContext (aside record)

theorem aside_request {operation : AgentOp} (reply : operation.Reply = Except String α)
    (aside : isAside operation = true) :
    Aside (do ofExcept (cast reply (← Agent.perform operation))) :=
  fun _ => keeps_request reply aside

theorem aside_ite {condition : Prop} [Decidable condition] {first second : Agent α}
    (aside : Aside first) (asideSecond : Aside second) :
    Aside (if condition then first else second) := by
  split
  · exact aside
  · exact asideSecond

theorem aside_identityIfExists {path : PathBuf} : Aside (identityIfExists path) :=
  @aside_request _ (.identityIfExists path) rfl rfl

theorem aside_identity {path : PathBuf} : Aside (identity path) :=
  aside_bind aside_identityIfExists fun _ => aside_context

theorem aside_renameNoreplace {source destination : PathBuf} :
    Aside (renameNoreplace source destination) :=
  @aside_request _ (.renameNoreplace source destination) rfl rfl

theorem aside_fsyncDirectory {path : PathBuf} : Aside (fsyncDirectory path) :=
  @aside_request _ (.fsyncDirectory path) rfl rfl

theorem aside_createDir {path : PathBuf} : Aside (createDir path) :=
  @aside_request _ (.createDir path) rfl rfl

theorem aside_createDirAll {path : PathBuf} : Aside (createDirAll path) :=
  @aside_request _ (.createDirAll path) rfl rfl

theorem aside_syncAll {paths : List PathBuf} : Aside (syncAll paths) := by
  induction paths with
  | nil => exact aside_pure
  | cons path rest ih => exact aside_bind aside_fsyncDirectory fun _ => ih

theorem aside_restoreCandidate {publication : PublicationState} {identity : FileIdentity} :
    Aside (restoreCandidate publication identity) := by
  refine aside_bind aside_identityIfExists fun _ => aside_ite ?_ aside_pure
  exact aside_bind aside_identityIfExists fun _ => aside_ite aside_fail aside_renameNoreplace

theorem aside_restorePrevious {publication : PublicationState} :
    Aside (restorePrevious publication) := by
  unfold restorePrevious
  split
  · exact aside_pure
  · refine aside_bind aside_context fun _ => ?_
    refine aside_bind aside_identityIfExists fun _ => ?_
    refine aside_bind aside_identityIfExists fun _ => ?_
    exact aside_ite aside_renameNoreplace (aside_ite aside_pure aside_fail)

theorem aside_verifyReady {publication : PublicationState} : Aside (verifyReady publication) := by
  refine aside_bind aside_context fun _ => ?_
  refine aside_bind aside_identityIfExists fun _ => aside_ite aside_fail ?_
  refine aside_bind aside_identityIfExists fun _ => aside_ite aside_fail ?_
  split
  · exact aside_pure
  · refine aside_bind aside_context fun _ => ?_
    exact aside_bind aside_identityIfExists fun _ => aside_ite aside_fail aside_pure

theorem aside_visibilityRename {publication : PublicationState} :
    Aside (visibilityRename publication) :=
  aside_ite (@aside_request _ (.exchangePaths publication.exchange publication.published) rfl rfl)
    aside_renameNoreplace

theorem aside_rotatePrevious {publication : PublicationState} {identity : FileIdentity} :
    Aside (rotatePrevious publication identity) := by
  unfold rotatePrevious
  split
  · refine aside_bind aside_context fun _ => ?_
    refine aside_bind aside_identityIfExists fun _ => ?_
    refine aside_bind aside_identityIfExists fun _ => ?_
    exact aside_ite aside_renameNoreplace
      (aside_ite aside_pure (aside_ite aside_pure aside_fail))
  · refine aside_bind aside_identityIfExists fun found => ?_
    cases found with
    | none => exact aside_pure
    | some current => exact aside_ite aside_fail aside_pure

theorem aside_stageCandidate {publication : PublicationState} {identity : FileIdentity} :
    Aside (stageCandidate publication identity) := by
  refine aside_bind aside_identityIfExists fun _ => ?_
  refine aside_bind aside_identityIfExists fun _ => ?_
  exact aside_ite aside_renameNoreplace (aside_ite aside_pure aside_fail)

theorem aside_observeRotated {publication : PublicationState} :
    Aside (observeRotated publication) := by
  unfold observeRotated
  split
  · exact aside_identityIfExists
  · exact aside_pure

theorem aside_observeNamespace {publication : PublicationState} :
    Aside (observeNamespace publication) := by
  refine aside_bind (aside_perform rfl) fun _ => ?_
  refine aside_bind aside_ofExcept fun _ => ?_
  refine aside_bind (aside_perform rfl) fun _ => ?_
  refine aside_bind aside_ofExcept fun _ => ?_
  refine aside_bind (aside_withContext aside_identity) fun _ => ?_
  refine aside_bind aside_context fun _ => ?_
  refine aside_bind aside_identity fun _ => ?_
  refine aside_bind aside_context fun _ => ?_
  refine aside_bind aside_identity fun _ => aside_ite aside_fail ?_
  refine aside_bind aside_identityIfExists fun _ => ?_
  refine aside_bind aside_identityIfExists fun _ => ?_
  exact aside_ite aside_fail aside_pure

theorem aside_createBasis {published basis : PathBuf} : Aside (createBasis published basis) := by
  refine aside_bind aside_identityIfExists fun found => ?_
  cases found with
  | none =>
      exact aside_bind (aside_withContext aside_createDir) fun _ => aside_fsyncDirectory
  | some _ =>
      refine aside_bind (aside_perform rfl) fun _ => ?_
      refine aside_bind aside_ofExcept fun _ => aside_withContext ?_
      exact @aside_request _ (.symlink published basis) rfl rfl

theorem aside_prepareCandidateLocked {candidate basis published : PathBuf} :
    Aside (prepareCandidateLocked candidate basis published) := by
  have either : Aside (eitherExists candidate basis) := by
    refine aside_bind aside_identityIfExists fun _ => aside_ite aside_pure ?_
    exact aside_bind aside_identityIfExists fun _ => aside_pure
  refine aside_bind either fun _ => aside_ite aside_fail ?_
  refine aside_bind aside_context fun _ => aside_ite aside_fail ?_
  refine aside_bind (aside_withContext aside_createDirAll) fun _ => ?_
  refine aside_bind (aside_withContext aside_createDir) fun _ => ?_
  refine aside_bind aside_createBasis fun _ => ?_
  refine aside_bind aside_fsyncDirectory fun _ => ?_
  refine aside_bind aside_fsyncDirectory fun _ => ?_
  split
  · exact aside_fsyncDirectory
  · exact aside_pure

theorem aside_prepareIfAtomic : Aside prepareIfAtomic := by
  intro record
  refine keeps_bind keeps_copy fun copied _ => ?_
  split
  · refine keeps_bind (keeps_bind keeps_copy fun _ _ => ?_) fun publication (_ : True) => ?_
    · exact keeps_context fun _ _ => trivial
    · exact keeps_locked rfl rfl (aside_prepareCandidateLocked record)
  · exact keeps_pure trivial

end Aside

/-! ## Under the lock -/

/-- A section whose copy follows the record in the file, after certain writes. -/
structure Holding (follows : SpoolRecord → SpoolRecord → Prop) (task : AgentTask)
    (copy : SpoolRecord) (past : List (AgentTask × SpoolRecord)) (ledger : Ledger) : Prop where
  held : ledger.holder = some task
  written : written ledger.entries = past
  durable : ∀ old, ledger.spool = some old → follows old copy
  consistent : copy.Consistent
  complete : copy.logCompleteAcknowledged = true → Reported ledger.entries
  staged : task ≠ .executor → ¬Untouched ledger.entries

section Holding

variable {terms : Terms} {once : Prop} {follows : SpoolRecord → SpoolRecord → Prop}
  {task : AgentTask} {record : SpoolRecord} {past : List (AgentTask × SpoolRecord)}
  {state : Ledger}

theorem Holding.retired {after : Ledger} (holding : Holding follows task record past state)
    (retires : state.Retires after) (held : after.holder = some task) :
    Holding follows task record past after where
  held
  written := retires.written_eq.trans holding.written
  durable old isStored := holding.durable old (retires.spool isStored)
  consistent := holding.consistent
  complete isComplete := (holding.complete isComplete).mono retires.grows
  staged other untouched := holding.staged other (retires.untouched_iff.mp untouched)

theorem Holding.stable (before after : Ledger) (holding : Holding follows task record past before)
    (relied : Rely task before after) : Holding follows task record past after := by
  rcases relied.holding holding.held with ⟨still, retires⟩
  exact holding.retired retires still

/-- A computation aside keeps the copy and what the others cannot change. -/
theorem Aside.holds {α : Type} {computation : Agent α} {assertion : Ledger → Prop}
    (aside : Aside computation)
    (stable : ∀ before after, assertion before → Rely task before after → assertion after)
    (holds : assertion state) :
    Holds (setting terms follows task) computation
      (fun _ copy after => copy = record ∧ assertion after) record state := by
  refine Program.Safe.imp (safe_every (aside record record rfl) stable holds) ?_
  exact fun _ _ reached => ⟨reached.1.1, reached.2⟩

theorem Aside.andThen {α β : Type} {first : Agent α} {next : α → Agent β}
    {assertion : Ledger → Prop} {post : Except String β → SpoolRecord → Ledger → Prop}
    (aside : Aside first)
    (stable : ∀ before after, assertion before → Rely task before after → assertion after)
    (holds : assertion state)
    (failed : ∀ message after, assertion after → post (.error message) record after)
    (then_ : ∀ value after, assertion after →
      Holds (setting terms follows task) (next value) post record after) :
    Holds (setting terms follows task) (first >>= next) post record state := by
  refine holds_bind.mpr ((aside.holds stable holds).imp ?_)
  rintro (message | value) copy after ⟨rfl, reached⟩
  · exact failed message after reached
  · exact then_ value after reached

/-- The mirror lock around a computation. -/
theorem mirrorLocked_holds {α : Type} {mirror : String} {computation : Agent α}
    {assertion : Ledger → Prop} {post : Except String α → SpoolRecord → Ledger → Prop}
    (stable : ∀ before after, assertion before → Rely task before after → assertion after)
    (stablePost : ∀ result copy before after, post result copy before →
      Rely task before after → post result copy after)
    (holds : assertion state)
    (inside : ∀ after, assertion after →
      Holds (setting terms follows task) computation post record after) :
    Holds (setting terms follows task) (locked (.mirror mirror) computation) post record
      state := by
  refine holds_bind.mpr (holds_aside rfl stable holds fun _ _ entered => ?_)
  refine then_ok.mpr (holds_bind.mpr (holds_attempt.mpr ((inside _ entered).imp ?_)))
  intro result copy after reached
  refine then_ok.mpr (holds_bind.mpr (holds_aside rfl (stablePost result copy) reached ?_))
  exact fun _ _ left => then_ok.mpr (holds_ofExcept.mpr left)

variable (tracking : Tracking terms once follows)

include tracking

/-- Writing a successor of the copy. -/
theorem Holding.safe_write (holding : Holding follows task record past state)
    {next : SpoolRecord} (related : follows record next) (consistent : next.Consistent)
    (complete : next.logCompleteAcknowledged = record.logCompleteAcknowledged) :
    TaskSafe terms follows task (perform (.writeSpool next))
      (fun reply after => reply = .ok () ∧
        Holding follows task next ((task, next) :: past) after ∧
          (once → task = .executor → next.state.isTerminal = true → undoing past = false))
      state := by
  refine safe_writeSpool holding.held consistent fun before retires held valid permitted => ?_
  have stays := holding.retired retires held
  refine ⟨fun old isStored => tracking.trans _ _ _ (stays.durable old isStored) related, ?_, ?_⟩
  · exact fun other untouched => absurd untouched (stays.staged other)
  refine ⟨rfl, ⟨held, ?_, ?_, consistent, ?_, ?_⟩, ?_⟩
  · rw [← stays.written]
    rfl
  · rintro old ⟨⟩
    exact tracking.refl next
  · rw [complete]
    exact fun isComplete => (stays.complete isComplete).mono (List.suffix_cons _ _)
  · exact fun other untouched => stays.staged other (untouched.anti (List.suffix_cons _ _))
  · rintro isOnce rfl ended
    rw [← stays.written]
    exact tracking.sound before next isOnce permitted ended

theorem Holding.write (holding : Holding follows task record past state) {next : SpoolRecord}
    (related : follows record next) (consistent : next.Consistent)
    (complete : next.logCompleteAcknowledged = record.logCompleteAcknowledged) :
    Holds (setting terms follows task) (write next)
      (fun result copy after => result = .ok () ∧ copy = record ∧
        Holding follows task next ((task, next) :: past) after ∧
          (once → task = .executor → next.state.isTerminal = true → undoing past = false))
      record state := by
  refine holds_bind.mpr ?_
  refine Program.safe_bind.mpr ((holding.safe_write tracking related consistent complete).imp ?_)
  rintro _ after ⟨rfl, reached⟩
  exact ⟨rfl, rfl, reached⟩

/-- Writing a successor of the copy, which becomes the copy. -/
theorem Holding.overwrite (holding : Holding follows task record past state)
    {next : SpoolRecord} (related : follows record next) (consistent : next.Consistent)
    (complete : next.logCompleteAcknowledged = record.logCompleteAcknowledged) :
    Holds (setting terms follows task)
      (do
        Agent.write next
        setCopy next)
      (fun result copy after => result = .ok () ∧ copy = next ∧
        Holding follows task next ((task, next) :: past) after ∧
          (once → task = .executor → next.state.isTerminal = true → undoing past = false))
      record state := by
  refine holds_bind.mpr ((holding.write tracking related consistent complete).imp ?_)
  rintro _ _ after ⟨rfl, rfl, reached⟩
  exact ⟨rfl, rfl, reached⟩

theorem Holding.persist (holding : Holding follows task record past state)
    {next : SpoolRecord} {message : String} (related : follows record next)
    (consistent : next.Consistent)
    (complete : next.logCompleteAcknowledged = record.logCompleteAcknowledged) :
    Holds (setting terms follows task)
      (do
        withContext (Agent.write next) message
        setCopy next)
      (fun result copy after => result = .ok () ∧ copy = next ∧
        Holding follows task next ((task, next) :: past) after ∧
          (once → task = .executor → next.state.isTerminal = true → undoing past = false))
      record state := by
  refine holds_bind.mpr (holds_withContext
    ((holding.write tracking related consistent complete).imp ?_))
  rintro _ _ after ⟨rfl, rfl, reached⟩
  exact ⟨rfl, rfl, reached⟩

end Holding

/-! ## The publication functions -/

section Publication

variable {terms : Terms} {once : Prop} {follows : SpoolRecord → SpoolRecord → Prop}
  {task : AgentTask} {record : SpoolRecord} {past : List (AgentTask × SpoolRecord)}
  {state : Ledger} (tracking : Tracking terms once follows)
  (holding : Holding follows task record past state) (live : record.state.isTerminal = false)

/-- The section goes on with a copy that has not ended. -/
def Continues (follows : SpoolRecord → SpoolRecord → Prop) (task : AgentTask)
    (copy : SpoolRecord) (ledger : Ledger) : Prop :=
  copy.state.isTerminal = false ∧ ∃ past, Holding follows task copy past ledger

/-- The section goes on with some copy. -/
def Goes (follows : SpoolRecord → SpoolRecord → Prop) (task : AgentTask)
    (copy : SpoolRecord) (ledger : Ledger) : Prop :=
  ∃ past, Holding follows task copy past ledger

include tracking holding live

theorem persistRecoveryIntent_holds {result : AttemptState} {kind : Option FailureKind}
    {message : String} :
    Holds (setting terms follows task) (persistRecoveryIntent result kind message)
      (Ends
        (fun _ copy after => copy.state.isTerminal = false ∧
          ∃ later, Holding follows task copy later after ∧
            (record.phase? = some .preparingExchange →
              copy.phase? = some .preVisibilityRecovery ∧ later = (task, copy) :: past))
        (Continues follows task)) record state := by
  refine holds_bind.mpr (holds_copy.mpr (then_ok.mpr ?_))
  cases stored : record.publication with
  | none => exact ⟨live, past, holding⟩
  | some publication =>
      refine holds_bind.mpr (holds_context_some.mpr (then_ok.mpr ?_))
      split
      · refine (holding.persist tracking (tracking.publishes record _) (by exact live) rfl).imp ?_
        rintro _ _ after ⟨rfl, rfl, reached, _⟩
        exact ⟨live, _, reached, fun _ => ⟨rfl, rfl⟩⟩
      next announced =>
        refine ⟨live, past, holding, fun preparing => ?_⟩
        rw [SpoolRecord.phase?, stored, Option.map_some, not_not.mp announced] at preparing
        cases preparing

theorem terminalAfterRestore_holds {result : AttemptState} {kind : Option FailureKind}
    {message : String} :
    Holds (setting terms follows task) (terminalAfterRestore result kind message)
      (Ends
        (fun _ copy after => copy.phase? = some .executing ∧ copy.state = result ∧
          Goes follows task copy after ∧
            (once → task = .executor → result.isTerminal = true → undoing past = false))
        (Continues follows task)) record state := by
  refine holds_bind.mpr (holds_copy.mpr (then_ok.mpr ?_))
  cases record.publication with
  | none => exact ⟨live, past, holding⟩
  | some publication =>
      refine holds_bind.mpr (holds_context_some.mpr (then_ok.mpr ?_))
      refine (aside_perform rfl).andThen Holding.stable holding ?_ fun time later reached => ?_
      · exact fun _ after reached => ⟨live, past, reached⟩
      have related := tracking.trans _ _ _ (tracking.publishes record (undoneState publication))
        (tracking.ends _ result none kind (some message) time fun _ => live)
      refine (reached.overwrite tracking related trivial rfl).imp ?_
      rintro _ _ after ⟨rfl, rfl, written, blocked⟩
      exact ⟨rfl, rfl, ⟨_, written⟩, blocked⟩

theorem restoreThenTerminal_holds {result : AttemptState} {kind : Option FailureKind}
    {message : String} :
    Holds (setting terms follows task) (restoreThenTerminal result kind message)
      (Ends
        (fun _ copy after => copy.phase? = some .executing ∧ copy.state = result ∧
          Goes follows task copy after ∧
            (once → task = .executor → result.isTerminal = true →
              record.phase? = some .preparingExchange → past.head? ≠ some (task, record)))
        (Continues follows task)) record state := by
  refine holds_bind.mpr ((persistRecoveryIntent_holds tracking holding live).imp ?_)
  rintro (message | _) copy announced ends
  · exact ends
  rcases ends with ⟨stillLive, later, reached, preparing⟩
  have failed : ∀ (_ : String) after, Holding follows task copy later after →
      Continues follows task copy after := fun _ _ stays => ⟨stillLive, later, stays⟩
  refine then_ok.mpr (holds_bind.mpr (holds_bind.mpr (holds_copy.mpr (then_ok.mpr ?_))))
  cases copy.publication with
  | none => exact ⟨stillLive, later, reached⟩
  | some publication =>
      refine holds_context_some.mpr (then_ok.mpr ?_)
      refine aside_context.andThen Holding.stable reached failed fun identity _ reached => ?_
      refine aside_restoreCandidate.andThen Holding.stable reached failed fun _ _ reached => ?_
      refine aside_restorePrevious.andThen Holding.stable reached failed fun _ _ reached => ?_
      refine aside_context.andThen Holding.stable reached failed fun _ _ reached => ?_
      refine aside_context.andThen Holding.stable reached failed fun _ _ reached => ?_
      refine aside_syncAll.andThen Holding.stable reached failed fun _ _ reached => ?_
      refine (terminalAfterRestore_holds tracking reached stillLive).imp ?_
      rintro (message | _) final after ends
      · exact ends
      rcases ends with ⟨phase, isResult, goes, blocked⟩
      refine ⟨phase, isResult, goes, fun isOnce executor ended isPreparing top => ?_⟩
      -- the two writes of a commit that has turned around
      rcases preparing isPreparing with ⟨intent, rfl⟩
      cases past with
      | nil => cases top
      | cons first rest =>
          cases top
          have undone := blocked isOnce executor ended
          subst executor
          simp [undoing, intent, isPreparing] at undone

theorem finishVisible_holds :
    Holds (setting terms follows task) finishVisible
      (Ends (fun _ => Goes follows task) (Continues follows task)) record state := by
  have failed : ∀ (_ : String) after, Holding follows task record past after →
      Continues follows task record after := fun _ _ stays => ⟨live, past, stays⟩
  refine holds_bind.mpr (holds_bind.mpr (holds_copy.mpr (then_ok.mpr ?_)))
  cases stored : record.publication with
  | none => exact ⟨live, past, holding⟩
  | some publication =>
      refine holds_context_some.mpr (then_ok.mpr ?_)
      refine aside_context.andThen Holding.stable holding failed fun candidate _ holding => ?_
      refine aside_identityIfExists.andThen Holding.stable holding failed fun _ _ holding => ?_
      split
      · exact ⟨live, past, holding⟩
      refine aside_context.andThen Holding.stable holding failed fun _ _ holding => ?_
      refine aside_context.andThen Holding.stable holding failed fun _ _ holding => ?_
      refine (aside_attempt aside_syncAll).andThen Holding.stable holding failed
        fun synced _ holding => ?_
      cases synced with
      | error message =>
          refine holds_bind.mpr (holds_bind.mpr (holds_copy.mpr (then_ok.mpr ?_)))
          rw [stored]
          refine holds_bind.mpr (holds_context_some.mpr (then_ok.mpr ?_))
          refine holds_bind.mpr (holds_attempt.mpr ((holding.write tracking
            (tracking.publishes record _) (by exact live) rfl).imp ?_))
          rintro _ _ after ⟨rfl, rfl, written, _⟩
          exact ⟨live, _, written⟩
      | ok _ =>
          refine holds_bind.mpr (holds_copy.mpr (then_ok.mpr ?_))
          refine (aside_perform rfl).andThen Holding.stable holding failed
            fun time _ holding => ?_
          have related := tracking.trans _ _ _
            (tracking.publishes record (inPhase publication .committedPendingReport))
            (tracking.ends _ .succeeded (some 0) none none time fun _ => live)
          refine (holding.persist tracking related rfl rfl).imp ?_
          rintro _ _ after ⟨rfl, rfl, written, _⟩
          exact ⟨_, written⟩

theorem commitReady_holds :
    Holds (setting terms follows task) commitReady
      (Ends (fun _ => Goes follows task) (Continues follows task)) record state := by
  have failed : ∀ (_ : String) after, Holding follows task record past after →
      Continues follows task record after := fun _ _ stays => ⟨live, past, stays⟩
  refine holds_bind.mpr (holds_copy.mpr (then_ok.mpr ?_))
  have undoes : ∀ {state : Ledger} {result : AttemptState} {kind : Option FailureKind}
      {message : String}, Holding follows task record past state →
      Holds (setting terms follows task)
        (do
          restoreThenTerminal result kind message
          pure CommitOutcome.aborted)
        (Ends (fun _ => Goes follows task) (Continues follows task)) record state := by
    intro state result kind message holding
    refine holds_bind.mpr ((restoreThenTerminal_holds tracking holding live).imp ?_)
    rintro (message | _) copy after ends
    · exact ends
    · exact ends.2.2.1
  refine aside_context.andThen Holding.stable holding failed fun publication _ holding => ?_
  split
  · exact ⟨live, past, holding⟩
  split
  · exact undoes holding
  refine (aside_attempt aside_verifyReady).andThen Holding.stable holding failed
    fun verified _ holding => ?_
  cases verified with
  | error message => exact undoes holding
  | ok _ =>
      refine aside_visibilityRename.andThen Holding.stable holding failed fun _ _ holding => ?_
      refine holds_bind.mpr ((finishVisible_holds tracking holding live).imp ?_)
      rintro (message | _) copy after ends
      · exact ends
      · exact ends

theorem recoverReady_holds :
    Holds (setting terms follows task) recoverReady
      (fun _ => Goes follows task) record state := by
  have failed : ∀ (_ : String) after, Holding follows task record past after →
      Goes follows task record after := fun _ _ stays => ⟨past, stays⟩
  refine holds_bind.mpr (holds_bind.mpr (holds_copy.mpr (then_ok.mpr ?_)))
  cases record.publication with
  | none => exact ⟨past, holding⟩
  | some publication =>
      refine holds_context_some.mpr (then_ok.mpr ?_)
      refine aside_context.andThen Holding.stable holding failed fun candidate _ holding => ?_
      refine aside_identityIfExists.andThen Holding.stable holding failed fun _ _ holding => ?_
      refine aside_identityIfExists.andThen Holding.stable holding failed fun _ _ holding => ?_
      split
      · refine (finishVisible_holds tracking holding live).imp ?_
        rintro (message | _) copy after ends
        · exact ends.2
        · exact ends
      split
      · refine holds_discard ((commitReady_holds tracking holding live).imp ?_)
        rintro (message | _) copy after ends
        · exact ends.2
        · exact ends
      · refine (restoreThenTerminal_holds tracking holding live).imp ?_
        rintro (message | _) copy after ends
        · exact ends.2
        · exact ends.2.2.1

theorem prepareNamespace_holds :
    Holds (setting terms follows task) prepareNamespace
      (Ends (fun _ => Continues follows task)
        (fun copy after => copy = record ∧ Holding follows task record past after))
      record state := by
  have failed : ∀ (_ : String) after, Holding follows task record past after →
      record = record ∧ Holding follows task record past after := fun _ _ stays => ⟨rfl, stays⟩
  refine holds_bind.mpr (holds_bind.mpr (holds_copy.mpr (then_ok.mpr ?_)))
  cases stored : record.publication with
  | none => exact ⟨rfl, holding⟩
  | some publication =>
      refine holds_context_some.mpr (then_ok.mpr ?_)
      split
      · exact ⟨rfl, holding⟩
      refine aside_context.andThen Holding.stable holding failed fun candidate _ holding => ?_
      refine (aside_withContext aside_createDirAll).andThen Holding.stable holding failed
        fun _ _ holding => ?_
      refine aside_rotatePrevious.andThen Holding.stable holding failed fun _ _ holding => ?_
      refine aside_stageCandidate.andThen Holding.stable holding failed fun _ _ holding => ?_
      refine aside_context.andThen Holding.stable holding failed fun _ _ holding => ?_
      refine aside_context.andThen Holding.stable holding failed fun _ _ holding => ?_
      refine aside_syncAll.andThen Holding.stable holding failed fun _ _ holding => ?_
      refine holds_bind.mpr (holds_copy.mpr (then_ok.mpr ?_))
      rw [stored]
      refine holds_bind.mpr (holds_context_some.mpr (then_ok.mpr ?_))
      refine aside_observeRotated.andThen Holding.stable holding failed fun _ _ holding => ?_
      refine (holding.persist tracking (tracking.publishes record _) (by exact live) rfl).imp ?_
      rintro _ _ after ⟨rfl, rfl, written, _⟩
      exact ⟨live, _, written⟩

/-- A preparation that turns around ends the attempt, except in a commit that ends it once. -/
theorem prepareOrRestore_holds :
    Holds (setting terms follows task) prepareOrRestore
      (Ends
        (fun prepared copy after => Goes follows task copy after ∧
          (prepared = true → copy.state.isTerminal = false) ∧
            (prepared = false → copy.phase? = some .executing ∧
              (once → task = .executor → record.phase? = some .preparingExchange →
                past.head? ≠ some (task, record))))
        (Continues follows task)) record state := by
  refine holds_bind.mpr (holds_attempt.mpr ((prepareNamespace_holds tracking holding live).imp ?_))
  rintro (message | _) copy prepared ends
  · rcases ends with ⟨rfl, holding⟩
    refine then_ok.mpr (holds_bind.mpr ((restoreThenTerminal_holds tracking holding live).imp ?_))
    rintro (message | _) final after ends
    · exact ends
    rcases ends with ⟨phase, _, goes, blocked⟩
    exact ⟨goes, by rintro ⟨⟩, fun _ => ⟨phase, fun isOnce executor => blocked isOnce executor rfl⟩⟩
  · exact ⟨ends.2, fun _ => ends.1, by rintro ⟨⟩⟩

end Publication

/-! ## The recovery -/

section Recovery

variable {terms : Terms} {once : Prop} {follows : SpoolRecord → SpoolRecord → Prop}
  {task : AgentTask} {record : SpoolRecord} {past : List (AgentTask × SpoolRecord)}
  {state : Ledger} (tracking : Tracking terms once follows)
  (holding : Holding follows task record past state)

theorem Goes.stable (copy : SpoolRecord) (before after : Ledger)
    (goes : Goes follows task copy before) (relied : Rely task before after) :
    Goes follows task copy after := by
  rcases goes with ⟨past, holding⟩
  exact ⟨past, holding.stable _ _ relied⟩

include tracking holding

theorem resumeRestore_holds {publication : PublicationState}
    (live : record.state.isTerminal = false) :
    Holds (setting terms follows task) (resumeRestore publication)
      (fun _ => Goes follows task) record state := by
  refine (restoreThenTerminal_holds tracking holding live).imp ?_
  rintro (message | _) copy after ends
  · exact ends.2
  · exact ends.2.2.1

theorem recoverLocked_holds :
    Holds (setting terms follows task) recoverLocked (fun _ => Goes follows task) record
      state := by
  refine holds_bind.mpr (holds_copy.mpr (then_ok.mpr ?_))
  cases stored : record.publication with
  | none => exact ⟨past, holding⟩
  | some publication =>
      dsimp only
      have consistent := holding.consistent
      cases phase : publication.phase with
      | executing | abandonedFenced => exact ⟨past, holding⟩
      | preparingExchange =>
          have live := consistent.live stored (by rw [phase]; rfl) (by simp [phase])
          refine holds_bind.mpr ((prepareOrRestore_holds tracking holding live).imp ?_)
          rintro (message | prepared) copy after ends
          · exact ends.2
          rcases ends with ⟨⟨later, reached⟩, unended, _⟩
          cases prepared with
          | false => exact ⟨later, reached⟩
          | true =>
              refine then_ok.mpr (holds_discard
                ((commitReady_holds tracking reached (unended rfl)).imp ?_))
              rintro (message | _) last final ends
              · exact ends.2
              · exact ends
      | readyToCommit =>
          have live := consistent.live stored (by rw [phase]; rfl) (by simp [phase])
          exact recoverReady_holds tracking holding live
      | preVisibilityRecovery =>
          have live := consistent.live stored (by rw [phase]; rfl) (by simp [phase])
          exact resumeRestore_holds tracking holding live
      | visiblePendingDurability =>
          have live := consistent.live stored (by rw [phase]; rfl) (by simp [phase])
          refine (finishVisible_holds tracking holding live).imp ?_
          rintro (message | _) copy after ends
          · exact ends.2
          · exact ends
      | committedPendingReport =>
          have succeeded : record.state = .succeeded := by
            simpa [SpoolRecord.Consistent, SpoolRecord.phase?, stored, phase] using consistent
          refine holds_bind.mpr (holds_copy.mpr (then_ok.mpr ?_))
          rw [if_pos succeeded]
          exact ⟨past, holding⟩

theorem recoverBeforeControlPlaneLocked_holds :
    Holds (setting terms follows task) recoverBeforeControlPlaneLocked
      (fun _ => Goes follows task) record state := by
  refine holds_bind.mpr (holds_copy.mpr (then_ok.mpr ?_))
  cases stored : record.publication with
  | none => exact ⟨past, holding⟩
  | some publication =>
      dsimp only
      have consistent := holding.consistent
      cases phase : publication.phase with
      | executing | abandonedFenced | readyToCommit => exact ⟨past, holding⟩
      | preparingExchange =>
          have live := consistent.live stored (by rw [phase]; rfl) (by simp [phase])
          refine holds_discard ((prepareOrRestore_holds tracking holding live).imp ?_)
          rintro (message | prepared) copy after ends
          · exact ends.2
          · exact ends.1
      | preVisibilityRecovery =>
          have live := consistent.live stored (by rw [phase]; rfl) (by simp [phase])
          exact resumeRestore_holds tracking holding live
      | visiblePendingDurability =>
          have live := consistent.live stored (by rw [phase]; rfl) (by simp [phase])
          refine (finishVisible_holds tracking holding live).imp ?_
          rintro (message | _) copy after ends
          · exact ends.2
          · exact ends
      | committedPendingReport =>
          have succeeded : record.state = .succeeded := by
            simpa [SpoolRecord.Consistent, SpoolRecord.phase?, stored, phase] using consistent
          refine holds_bind.mpr (holds_copy.mpr (then_ok.mpr ?_))
          rw [if_pos succeeded]
          exact ⟨past, holding⟩

omit tracking in
/-- Both recoveries lock the mirror of the copy first. -/
theorem recoverer_holds {body : Agent Unit} {missing : String}
    (inside : ∀ after, Holding follows task record past after →
      Holds (setting terms follows task) body (fun _ => Goes follows task) record after) :
    Holds (setting terms follows task)
      (do
        let publication ← publicationState missing
        locked (.mirror publication.mirror) body)
      (fun _ => Goes follows task) record state := by
  refine holds_bind.mpr (holds_bind.mpr (holds_copy.mpr (then_ok.mpr ?_)))
  cases record.publication with
  | none => exact ⟨past, holding⟩
  | some publication =>
      refine holds_context_some.mpr (then_ok.mpr ?_)
      exact mirrorLocked_holds Holding.stable (fun _ => Goes.stable) holding inside

theorem recover_holds (synchronized : Bool) :
    Holds (setting terms follows task)
      (if synchronized then Agent.recover else recoverBeforeControlPlane)
      (fun _ => Goes follows task) record state := by
  cases synchronized with
  | true => exact recoverer_holds holding fun _ => recoverLocked_holds tracking
  | false =>
      exact recoverer_holds holding fun _ =>
        recoverBeforeControlPlaneLocked_holds tracking

end Recovery

/-! ## The executor -/

/-- The record in the file says no more than the copy, unless the executor was overtaken. -/
def Fits (ledger : Ledger) (copy : SpoolRecord) : Prop :=
  ∃ old, ledger.spool = some old ∧ old.sequence ≤ copy.sequence ∧
    old.publication = copy.publication ∧
      (overtaken ledger.entries = false → old.sameAcknowledgements copy = true)

/-- The first stage of the attempt, seen by the executor with its copy. -/
structure Beginning (copy : SpoolRecord) (ledger : Ledger) : Prop where
  untouched : Untouched ledger.entries
  pristine : copy.IsPristine
  unfenced : copy.phase? ≠ some .abandonedFenced
  fits : ledger.Fits copy

/-- A section of the executor that has not written yet. -/
structure Opening (copy : SpoolRecord) (ledger : Ledger) : Prop extends
    Beginning copy ledger where
  held : ledger.holder = some .executor

/-- The end of a section that has yet to write its copy. -/
def Closing (follows : SpoolRecord → SpoolRecord → Prop) (copy : SpoolRecord)
    (ledger : Ledger) : Prop :=
  Goes follows .executor copy ledger ∨
    copy.Consistent ∧ ∃ base, Opening base ledger ∧ base.sequence < copy.sequence ∧
      base.sameAcknowledgements copy = true

section Executor

variable {terms : Terms} {once : Prop} {follows : SpoolRecord → SpoolRecord → Prop}
  {base record : SpoolRecord} {state : Ledger}

theorem Beginning.relied {before after : Ledger} (beginning : Beginning record before)
    (relied : Rely .executor before after) : Beginning record after := by
  have spares := relied.spares rfl beginning.untouched
  rcases beginning.fits with ⟨old, isStored, earlier, publication, same⟩
  rcases spares.record old isStored with ⟨new, newStored, ⟨_, _, _, _, rfl⟩, kept⟩
  refine ⟨spares.untouched, beginning.pristine, beginning.unfenced, _, newStored, earlier,
    publication, fun fresh => ?_⟩
  rcases kept fresh with ⟨freshBefore, sameOld⟩
  have reversed := sameAcknowledgements_iff.mp sameOld
  rcases sameAcknowledgements_iff.mp (same freshBefore) with ⟨sequence, offset, complete⟩
  exact sameAcknowledgements_iff.mpr ⟨reversed.1.symm.trans sequence,
    reversed.2.1.symm.trans offset, reversed.2.2.symm.trans complete⟩

theorem Beginning.of_entries {before after : Ledger} (beginning : Beginning record before)
    (same : after.entries = before.entries) : Beginning record after := by
  rcases before with ⟨entries, _⟩
  rcases after with ⟨_, _⟩
  cases same
  exact ⟨beginning.untouched, beginning.pristine, beginning.unfenced, beginning.fits⟩

theorem Opening.stable (before after : Ledger) (opening : Opening record before)
    (relied : Rely .executor before after) : Opening record after :=
  ⟨opening.toBeginning.relied relied, (relied.holding opening.held).1⟩

/-- Another copy with the same sequence and the same acknowledgements. -/
theorem Opening.flagged (opening : Opening record state) (flag : Bool) :
    Opening { record with cancelRequested := flag } state :=
  ⟨⟨opening.untouched, opening.pristine, opening.unfenced, opening.fits⟩, opening.held⟩

theorem Closing.stable (copy : SpoolRecord) (before after : Ledger)
    (closing : Closing follows copy before) (relied : Rely .executor before after) :
    Closing follows copy after := by
  rcases closing with goes | ⟨consistent, base, opening, later⟩
  · exact .inl (goes.stable _ _ _ relied)
  · exact .inr ⟨consistent, base, opening.stable _ _ relied, later⟩

theorem Holding.of_wrote {next : SpoolRecord} {ledger after : Ledger}
    (refl : follows next next) (held : after.holder = some .executor)
    (entries : after.entries = ⟨.executor, some next⟩ :: ledger.entries)
    (consistent : next.Consistent) (incomplete : next.logCompleteAcknowledged = false) :
    Holding follows .executor next ((.executor, next) :: Ledger.written ledger.entries)
      after where
  held
  written := by
    rw [entries]
    rfl
  durable old isStored := by
    rw [Ledger.spool, entries] at isStored
    cases isStored
    exact refl
  consistent
  complete isComplete := by simp [incomplete] at isComplete
  staged other := absurd rfl other

variable (tracking : Tracking terms once follows)

include tracking

/-- The first write of a section. -/
theorem Opening.write (opening : Opening base state) {next : SpoolRecord}
    (later : base.sequence ≤ next.sequence)
    (moves : base.sequence < next.sequence ∨ next.requiresPublicationRecovery = true)
    (same : base.sameAcknowledgements next = true) (consistent : next.Consistent) :
    Holds (setting terms follows .executor) (Agent.write next)
      (fun result copy after => result = .ok () ∧ copy = record ∧
        after.holder = some .executor ∧
          after.entries = ⟨.executor, some next⟩ :: state.entries) record state := by
  refine holds_writeSpool opening.held consistent fun before retires held valid permitted => ?_
  have entries := retires.entries_eq opening.untouched.not_reported
  refine ⟨fun old isStored => ?_, fun other => absurd rfl other, rfl, rfl, held, ?_⟩
  · rcases (opening.toBeginning.of_entries entries).fits with
      ⟨durable, isDurable, earlier, publication, acknowledged⟩
    rw [isDurable, Option.some.injEq] at isStored
    subst isStored
    have pristine : durable.IsPristine :=
      opening.untouched durable (entries ▸ wrote_of_stored isDurable)
    refine tracking.starts _ _ pristine (earlier.trans later) ?_
    have moved : durable.sequence ≠ next.sequence ∨ durable.publication ≠ next.publication := by
      rcases moves with increased | moving
      · exact .inl (earlier.trans_lt increased).ne
      · refine .inr fun samePublication => ?_
        have unpublished := pristine.1
        rw [SpoolRecord.requiresPublicationRecovery, samePublication] at unpublished
        rw [SpoolRecord.requiresPublicationRecovery, unpublished] at moving
        cases moving
    refine (tracking.permits before durable next permitted isDurable moved).imp_right ?_
    exact fun fresh => sameAcknowledgements_trans (acknowledged fresh) same
  · change _ :: before.entries = _
    rw [entries]

theorem Opening.write_holding (opening : Opening base state) {next : SpoolRecord}
    (later : base.sequence ≤ next.sequence)
    (moves : base.sequence < next.sequence ∨ next.requiresPublicationRecovery = true)
    (same : base.sameAcknowledgements next = true) (consistent : next.Consistent) :
    Holds (setting terms follows .executor) (Agent.write next)
      (fun result copy after => result = .ok () ∧ copy = record ∧
        Holding follows .executor next ((.executor, next) :: written state.entries) after)
      record state := by
  refine (opening.write tracking later moves same consistent).imp ?_
  rintro _ _ after ⟨rfl, rfl, held, entries⟩
  refine ⟨rfl, rfl, .of_wrote (tracking.refl next) held entries consistent ?_⟩
  rw [← (sameAcknowledgements_iff.mp same).2.2]
  exact opening.pristine.2.2

theorem persistPreparing_holds (opening : Opening record state) :
    Holds (setting terms follows .executor) persistPreparing
      (Ends
        (fun _ copy after => copy.state.isTerminal = false ∧
          copy.phase? = some .preparingExchange ∧ ∃ past, past.head? = some (.executor, copy) ∧
            Holding follows .executor copy past after)
        (fun copy after => copy = record ∧ Opening record after)) record state := by
  have failed : ∀ (_ : String) after, Opening record after →
      record = record ∧ Opening record after := fun _ _ stays => ⟨rfl, stays⟩
  refine holds_bind.mpr (holds_copy.mpr (then_ok.mpr ?_))
  cases record.publication with
  | none => exact ⟨rfl, opening⟩
  | some publication =>
      refine holds_bind.mpr (holds_context_some.mpr (then_ok.mpr ?_))
      split
      · exact ⟨rfl, opening⟩
      refine aside_observeNamespace.andThen Opening.stable opening failed ?_
      rintro ⟨candidate, published, previous⟩ _ opening
      refine holds_bind.mpr (holds_withContext ((@Opening.write_holding _ _ _ record _ _ tracking
        opening (preparingRecord record publication candidate published previous)
        (Nat.le_refl record.sequence) (.inr rfl) (sameAcknowledgements_refl record)
        (by exact opening.pristine.2.1)).imp ?_))
      rintro _ _ after ⟨rfl, rfl, holding⟩
      exact ⟨opening.pristine.2.1, rfl, _, rfl, holding⟩

/-- What the executor's commit leaves behind when it returns an error. -/
def Fails (once : Prop) (follows : SpoolRecord → SpoolRecord → Prop)
    (record copy : SpoolRecord) (ledger : Ledger) : Prop :=
  copy = record ∧ Opening record ledger ∨
    Goes follows .executor copy ledger ∧ (once → copy.state.isTerminal = false)

omit tracking in
theorem Fails.stable (record copy : SpoolRecord) (before after : Ledger)
    (fails : Fails once follows record copy before) (relied : Rely .executor before after) :
    Fails once follows record copy after := by
  rcases fails with ⟨same, opening⟩ | ⟨goes, live⟩
  · exact .inl ⟨same, opening.stable _ _ relied⟩
  · exact .inr ⟨goes.stable _ _ _ relied, live⟩

theorem commitLocked_holds (opening : Opening record state) :
    Holds (setting terms follows .executor) commitLocked
      (Ends (fun _ => Goes follows .executor) (Fails once follows record)) record state := by
  refine holds_bind.mpr (holds_bind.mpr ((persistPreparing_holds tracking opening).imp ?_))
  rintro (message | _) copy after ends
  · exact .inl ends
  rcases ends with ⟨live, phase, past, top, holding⟩
  refine then_ok.mpr (holds_discard ((prepareOrRestore_holds tracking holding live).imp ?_))
  rintro (message | prepared) copy after ends
  · exact .inr ⟨ends.2, fun _ => ends.1⟩
  rcases ends with ⟨⟨later, reached⟩, unended, restored⟩
  refine then_ok.mpr ?_
  cases prepared with
  | true =>
      refine (commitReady_holds tracking reached (unended rfl)).imp ?_
      rintro (message | _) last final ends
      · exact .inr ⟨ends.2, fun _ => ends.1⟩
      · exact ends
  | false =>
      -- the attempt has ended, and the commit goes on regardless
      rcases restored rfl with ⟨executing, blocked⟩
      have kept : Fails once follows record copy after :=
        .inr ⟨⟨later, reached⟩, fun isOnce => absurd top (blocked isOnce rfl phase)⟩
      refine holds_bind.mpr (holds_copy.mpr (then_ok.mpr ?_))
      rw [SpoolRecord.phase?, Option.map_eq_some_iff] at executing
      rcases executing with ⟨publication, stored, executing⟩
      rw [stored]
      refine holds_bind.mpr (holds_context_some.mpr (then_ok.mpr ?_))
      rw [if_pos (by simp [executing])]
      exact kept

theorem commit_holds (opening : Opening record state) :
    Holds (setting terms follows .executor) commit
      (Ends (fun _ => Goes follows .executor) (Fails once follows record)) record state := by
  refine holds_bind.mpr (holds_bind.mpr (holds_copy.mpr (then_ok.mpr ?_)))
  cases record.publication with
  | none => exact .inl ⟨rfl, opening⟩
  | some publication =>
      refine holds_context_some.mpr (then_ok.mpr ?_)
      refine mirrorLocked_holds Opening.stable ?_ opening fun _ => commitLocked_holds tracking
      rintro (message | _) copy
      · exact Fails.stable record copy
      · exact Goes.stable copy

omit tracking in
theorem wrote_of_written {past : List (AgentTask × SpoolRecord)} {task : AgentTask}
    {entries : List LedgerEntry} (wrote : written entries = (task, record) :: past) :
    Wrote record entries := by
  have listed : (task, record) ∈ written entries := wrote ▸ List.mem_cons_self
  rcases List.mem_filterMap.mp listed with ⟨entry, isEntry, made⟩
  rcases Option.map_eq_some_iff.mp made with ⟨found, isRecord, same⟩
  cases same
  exact ⟨entry, isEntry, isRecord⟩

theorem writeCopy_holds (closing : Closing follows record state) :
    Holds (setting terms follows .executor) writeCopy
      (fun result copy after => result = .ok () ∧ copy = record ∧
        Goes follows .executor record after ∧ Wrote record after.entries) record state := by
  refine holds_bind.mpr (holds_copy.mpr (then_ok.mpr (holds_discard (holds_attempt.mpr ?_))))
  rcases closing with ⟨past, holding⟩ | ⟨consistent, base, opening, later, same⟩
  · refine (holding.write tracking (tracking.refl record) holding.consistent rfl).imp ?_
    rintro _ _ after ⟨rfl, rfl, written, _⟩
    exact ⟨rfl, rfl, ⟨_, written⟩, wrote_of_written written.written⟩
  · refine (opening.write_holding tracking later.le (.inl later) same consistent).imp ?_
    rintro _ _ after ⟨rfl, rfl, written⟩
    exact ⟨rfl, rfl, ⟨_, written⟩, wrote_of_written written.written⟩

omit tracking in
theorem terminalNow_opening (opening : Opening record state) {result : AttemptState}
    {exitCode : Option ℤ} {kind : Option FailureKind} {message : Option String} :
    Holds (setting terms follows .executor) (terminalNow result exitCode kind message)
      (fun outcome copy after => outcome = .ok () ∧ Closing follows copy after) record state := by
  refine holds_bind.mpr (holds_aside rfl Opening.stable opening fun time after opening => ?_)
  refine ⟨rfl, .inr ⟨?_, record, opening, Nat.lt_succ_self _, sameAcknowledgements_refl record⟩⟩
  exact SpoolRecord.consistent_of_unpublished opening.pristine.1 rfl

theorem terminalNow_goes (goes : Goes follows .executor record state)
    (live : once → record.state.isTerminal = false) (phase : record.phase? = some .executing)
    {result : AttemptState} {exitCode : Option ℤ} {kind : Option FailureKind}
    {message : Option String} :
    Holds (setting terms follows .executor) (terminalNow result exitCode kind message)
      (fun outcome copy after => outcome = .ok () ∧ Closing follows copy after) record state := by
  refine holds_bind.mpr (holds_aside rfl (Goes.stable record) goes fun time after goes => ?_)
  rcases goes with ⟨past, holding⟩
  have ended := tracking.ends record result exitCode kind message time live
  refine ⟨rfl, .inl ⟨past, { holding with durable := ?_, consistent := ?_ }⟩⟩
  · exact fun old isStored => tracking.trans _ _ _ (holding.durable old isStored) ended
  · rcases Option.map_eq_some_iff.mp phase with ⟨publication, stored, executing⟩
    refine @SpoolRecord.consistent_of_unpublished record _ ?_ rfl
    simp [SpoolRecord.requiresPublicationRecovery, stored, executing,
      PublicationPhase.requiresNamespaceRecovery]

theorem finalizeAtomic_holds (opening : Opening record state) (atomic : record.publication.isSome)
    {status : ExitStatus} :
    Holds (setting terms follows .executor) (finalizeAtomic status)
      (fun outcome copy after => outcome = .ok () ∧ Closing follows copy after) record state := by
  refine holds_bind.mpr (holds_attempt.mpr ((commit_holds tracking opening).imp ?_))
  rintro (message | _) copy after ends
  case ok => exact ⟨rfl, .inl ends⟩
  have writes : ∀ outcome copy after, outcome = .ok () ∧ Closing follows copy after →
      Then (setting terms follows .executor) (fun _ => writeCopy)
        (fun outcome copy after => outcome = .ok () ∧ Closing follows copy after) outcome copy
        after := by
    rintro _ copy after ⟨rfl, closing⟩
    refine then_ok.mpr ((writeCopy_holds tracking closing).imp ?_)
    rintro _ _ last ⟨rfl, rfl, goes, _⟩
    exact ⟨rfl, .inl goes⟩
  refine then_ok.mpr (holds_bind.mpr (holds_copy.mpr (then_ok.mpr ?_)))
  rcases ends with ⟨rfl, opening⟩ | ⟨goes, live⟩
  · split
    · exact holds_bind.mpr ((terminalNow_opening opening).imp writes)
    next elsewhere =>
      -- an executor's copy is in no other phase before the commit
      rcases Option.isSome_iff_exists.mp atomic with ⟨publication, stored⟩
      have unpublished := opening.pristine.1
      have unfenced := opening.unfenced
      rw [SpoolRecord.phase?, stored, Option.map_some, ne_eq, Option.some.injEq] at unfenced
      rw [SpoolRecord.phase?, stored, Option.map_some, Option.some.injEq] at elsewhere
      rw [SpoolRecord.requiresPublicationRecovery, stored] at unpublished
      cases phase : publication.phase <;>
        simp_all [PublicationPhase.requiresNamespaceRecovery]
  · split
    next phase => exact holds_bind.mpr ((terminalNow_goes tracking goes live phase).imp writes)
    next => exact ⟨rfl, .inl goes⟩

theorem finalizeOutcome_holds (opening : Opening record state) (outcome : Outcome) :
    Holds (setting terms follows .executor) (finalizeOutcome outcome)
      (fun result copy after => result = .ok () ∧ Closing follows copy after) record state := by
  refine holds_bind.mpr (holds_copy.mpr (then_ok.mpr ?_))
  split
  · exact terminalNow_opening opening
  split
  · split
    next atomic =>
      exact finalizeAtomic_holds tracking opening (Bool.and_eq_true_iff.mp atomic).2
    split
    · exact terminalNow_opening opening
    · exact terminalNow_opening opening
  all_goals exact terminalNow_opening opening

/-- The executor ends the attempt and leaves its copy in the file. -/
theorem finalize_holds (opening : Opening record state) (outcome : Outcome) :
    Holds (setting terms follows .executor) (finalize outcome)
      (fun _ copy after => after.holder = some .executor ∧ Wrote copy after.entries)
      record state := by
  refine holds_bind.mpr ((finalizeOutcome_holds tracking opening outcome).imp ?_)
  rintro _ copy after ⟨rfl, closing⟩
  refine then_ok.mpr ((writeCopy_holds tracking closing).imp ?_)
  rintro _ _ last ⟨rfl, rfl, ⟨_, holding⟩, wrote⟩
  exact ⟨holding.held, wrote⟩

theorem recordFailure_holds (opening : Opening record state) {kind : FailureKind}
    {error : String} :
    Holds (setting terms follows .executor) (recordFailure kind error)
      (fun _ copy after => after.holder = some .executor ∧ Wrote copy after.entries)
      record state := by
  have writes : ∀ outcome copy after, outcome = .ok () ∧ Closing follows copy after →
      Then (setting terms follows .executor) (fun _ => writeCopy)
        (fun _ copy after => after.holder = some .executor ∧ Wrote copy after.entries) outcome
        copy after := by
    rintro _ copy after ⟨rfl, closing⟩
    refine then_ok.mpr ((writeCopy_holds tracking closing).imp ?_)
    rintro _ _ last ⟨rfl, rfl, ⟨_, holding⟩, wrote⟩
    exact ⟨holding.held, wrote⟩
  refine holds_bind.mpr (holds_copy.mpr (then_ok.mpr ?_))
  split
  · exact holds_bind.mpr ((terminalNow_opening opening).imp writes)
  · exact holds_bind.mpr ((terminalNow_opening opening).imp writes)

end Executor

end Ledger

end LzuMirror
