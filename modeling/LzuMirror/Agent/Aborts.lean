import LzuMirror.Agent.Conservation
import LzuMirror.Agent.Footprint

/-!
# Undoing a publication across crashes

`restore_then_terminal` writes what it is about to do into the record before it
moves anything, so that `recover` and `recover_before_control_plane` can finish
it after a crash. An `Abort` is one such undoing with the result it is to end
in, and `Abort.Durable` are the records the spool file may hold while the agent
carries it out, is stopped anywhere and starts again, any number of times.

The functions are run against an environment that only has to answer writes
truthfully; every other operation may answer anything.
-/

namespace LzuMirror

/-- What the operations of a task do to the durable record. -/
def SpoolStep : Program.Semantics AgentOp AgentOp.Reply SpoolRecord := fun before operation reply after =>
  match operation, reply with
  | .writeSpool record, .ok _ => after = record
  | .writeSpool record, .error _ => after = before ∨ after = record
  | _, _ => after = before

/-- The result part of a record. -/
def SpoolRecord.outcome (record : SpoolRecord) :
    AttemptState × Option FailureKind × Option String × Option ℤ :=
  (record.state, record.failureKind, record.failureMessage, record.exitCode)

/-- A publication that is undone, and the result `restore_then_terminal` is called with. -/
structure Abort where
  record : SpoolRecord
  state : AttemptState
  failureKind : Option FailureKind
  message : String
  unannounced : record.phase? ≠ some .preVisibilityRecovery

namespace Abort

open Agent

variable (abort : Abort)

/-- The call of `restore_then_terminal`. -/
def program : AgentProgram (Except String Unit × SpoolRecord) :=
  restoreThenTerminal abort.state abort.failureKind abort.message abort.record

/-- The records the spool file may hold while nothing interrupts the call. -/
def Uninterrupted (durable : SpoolRecord) : Prop :=
  ∃ rest, Program.Reaches SpoolStep (abort.program, abort.record) (rest, durable)

/-- The records the spool file may hold across crashes: a restarted agent reads the record and
carries out an announced undoing, either before or after its first contact with the server. -/
inductive Durable : SpoolRecord → Prop where
  | first {durable : SpoolRecord} (uninterrupted : abort.Uninterrupted durable) : Durable durable
  | again {before durable : SpoolRecord} {resumed : Agent Unit}
      {rest : AgentProgram (Except String Unit × SpoolRecord)} (interrupted : Durable before)
      (announced : before.phase? = some .preVisibilityRecovery)
      (resumes : resumed = recover ∨ resumed = recoverBeforeControlPlane)
      (reached : Program.Reaches SpoolStep (resumed before, before) (rest, durable)) :
      Durable durable

/-- The undoing has come to its end. -/
def Concluded (durable : SpoolRecord) : Prop :=
  durable ≠ abort.record ∧ durable.phase? ≠ some .preVisibilityRecovery

/-- The record that announces the undoing with its result. -/
def Announces (durable : SpoolRecord) : Prop :=
  ∃ publication, durable.publication = some publication ∧
    publication.phase = .preVisibilityRecovery ∧
    publication.preVisibilityTerminalState = some abort.state ∧
    publication.preVisibilityFailureKind = abort.failureKind ∧
    publication.preVisibilityMessage = some abort.message

/-- The terminal record with the result of the undoing. -/
def Ends (durable : SpoolRecord) : Prop :=
  durable.phase? = some .executing ∧
    durable.outcome = (abort.state, abort.failureKind, some abort.message, none)

/-- The operations of the undoing: it writes the announcement and the result. -/
def Allows (operation : AgentOp) : Prop :=
  ∀ record, operation = .writeSpool record → abort.Announces record ∨ abort.Ends record

variable {abort} {kept : SpoolRecord → Prop}

section Programs

theorem keeps_request_allowed {operation : AgentOp} {α : Type}
    (reply : operation.Reply = Except String α) (silent : ∀ record, operation ≠ .writeSpool record) :
    Keeps kept abort.Allows (do ofExcept (cast reply (← Agent.perform operation))) fun _ => True :=
  keeps_request reply fun record same => absurd same (silent record)

theorem keeps_write {record : SpoolRecord} (written : abort.Announces record ∨ abort.Ends record) :
    Keeps kept abort.Allows (write record) fun _ => True :=
  @keeps_request _ _ _ (.writeSpool record) rfl fun _ same => by
    cases same
    exact written

theorem keeps_identityIfExists {path : PathBuf} :
    Keeps kept abort.Allows (identityIfExists path) fun _ => True :=
  @keeps_request_allowed _ _ (.identityIfExists path) _ rfl fun _ => AgentOp.noConfusion

theorem keeps_renameNoreplace {source destination : PathBuf} :
    Keeps kept abort.Allows (renameNoreplace source destination) fun _ => True :=
  @keeps_request_allowed _ _ (.renameNoreplace source destination) _ rfl fun _ =>
    AgentOp.noConfusion

theorem keeps_syncAll {paths : List PathBuf} :
    Keeps kept abort.Allows (syncAll paths) fun _ => True := by
  induction paths with
  | nil => exact keeps_pure trivial
  | cons path rest ih =>
      exact keeps_bind (@keeps_request_allowed _ _ (.fsyncDirectory path) _ rfl fun _ =>
        AgentOp.noConfusion) fun _ _ => ih

theorem keeps_silent {operation : AgentOp} (silent : ∀ record, operation ≠ .writeSpool record) :
    Keeps kept abort.Allows (Agent.perform operation) fun _ => True :=
  keeps_perform fun record same => absurd same (silent record)

theorem keeps_mirrorLocked {mirror : String} {computation : Agent Unit}
    (keeps : Keeps kept abort.Allows computation fun _ => True) :
    Keeps kept abort.Allows (locked (.mirror mirror) computation) fun _ => True :=
  keeps_locked (fun _ => AgentOp.noConfusion) (fun _ => AgentOp.noConfusion) keeps

variable (abort) in
/-- The announcement of the undoing is written with its result. -/
theorem announces_recoveryState (record : SpoolRecord) (publication : PublicationState) :
    abort.Announces (record.withPublication
      (recoveryState publication abort.state abort.failureKind abort.message)) :=
  ⟨_, rfl, rfl, rfl, rfl, rfl⟩

variable (abort) in
/-- The terminal record is written with the result. -/
theorem ends_terminal (record : SpoolRecord) (publication : PublicationState) (time : String) :
    abort.Ends ((record.withPublication (undoneState publication)).terminal abort.state none
      abort.failureKind (some abort.message) time) :=
  ⟨rfl, rfl⟩

variable (announced : ∀ record, abort.Announces record → kept record)
  (ended : ∀ record, abort.Ends record → kept record)

include announced in
theorem keeps_persistRecoveryIntent :
    Keeps kept abort.Allows
      (persistRecoveryIntent abort.state abort.failureKind abort.message) fun _ => True := by
  apply keeps_bind keeps_copy
  intro record _
  apply keeps_bind (keeps_context fun _ _ => trivial)
  intro publication _
  split
  · have announces := announces_recoveryState abort record publication
    exact keeps_bind (keeps_withContext (keeps_write (.inl announces))) fun _ _ =>
      keeps_setCopy (announced _ announces)
  · exact keeps_pure trivial

theorem keeps_restoreCandidate {publication : PublicationState} {identity : FileIdentity} :
    Keeps kept abort.Allows (restoreCandidate publication identity) fun _ => True := by
  apply keeps_bind keeps_identityIfExists
  intro found _
  split
  · apply keeps_bind keeps_identityIfExists
    intro occupied _
    split
    · exact keeps_fail
    · exact keeps_renameNoreplace
  · exact keeps_pure trivial

theorem keeps_restorePrevious {publication : PublicationState} :
    Keeps kept abort.Allows (restorePrevious publication) fun _ => True := by
  unfold restorePrevious
  split
  · exact keeps_pure trivial
  · apply keeps_bind (keeps_context fun _ _ => trivial)
    intro rotated _
    apply keeps_bind keeps_identityIfExists
    intro atExchange _
    apply keeps_bind keeps_identityIfExists
    intro atRotated _
    split
    · exact keeps_renameNoreplace
    · split
      · exact keeps_pure trivial
      · exact keeps_fail

include ended in
theorem keeps_terminalAfterRestore :
    Keeps kept abort.Allows
      (terminalAfterRestore abort.state abort.failureKind abort.message) fun _ => True := by
  apply keeps_bind keeps_copy
  intro record _
  apply keeps_bind (keeps_context fun _ _ => trivial)
  intro publication _
  apply keeps_bind (keeps_silent fun _ => AgentOp.noConfusion)
  intro time _
  have ends := ends_terminal abort record publication time
  exact keeps_bind (keeps_write (.inr ends)) fun _ _ => keeps_setCopy (ended _ ends)

include announced ended in
/-- Whatever it finds, the undoing announces its result or writes it. -/
theorem keeps_restoreThenTerminal :
    Keeps kept abort.Allows
      (restoreThenTerminal abort.state abort.failureKind abort.message) fun _ => True := by
  apply keeps_bind (keeps_persistRecoveryIntent announced)
  intro _ _
  apply keeps_bind (keeps_bind keeps_copy fun _ _ => keeps_context fun _ _ => trivial)
  intro publication _
  apply keeps_bind (keeps_context fun _ _ => trivial)
  intro identity _
  apply keeps_bind keeps_restoreCandidate
  intro _ _
  apply keeps_bind keeps_restorePrevious
  intro _ _
  apply keeps_bind (keeps_context fun _ _ => trivial)
  intro candidateParent _
  apply keeps_bind (keeps_context fun _ _ => trivial)
  intro exchangeParent _
  exact keeps_bind keeps_syncAll fun _ _ => keeps_terminalAfterRestore ended

include announced ended in
/-- A resumed undoing that announces a failure kind is carried out with its own result. -/
theorem keeps_resumeRestore (kind : abort.failureKind ≠ none) {record : SpoolRecord}
    {publication : PublicationState} (announces : abort.Announces record)
    (stored : record.publication = some publication) :
    Keeps kept abort.Allows (resumeRestore publication) fun _ => True := by
  rcases announces with ⟨announcement, isAnnouncement, -, state, failureKind, message⟩
  cases isAnnouncement.symm.trans stored
  have present : (abort.failureKind <|> some .invalidResult) = abort.failureKind := by
    cases given : abort.failureKind with
    | none => exact absurd given kind
    | some failureKind => rfl
  simp only [resumeRestore, state, failureKind, message, Option.getD_some, present]
  exact keeps_restoreThenTerminal announced ended

end Programs

/-- The records between the announcement of an undoing and its end. -/
def Resumable (durable : SpoolRecord) : Prop := abort.Announces durable ∨ abort.Ends durable

variable {durable : SpoolRecord}

theorem Announces.phase (announces : abort.Announces durable) :
    durable.phase? = some .preVisibilityRecovery := by
  rcases announces with ⟨publication, stored, phase, -⟩
  simp [SpoolRecord.phase?, stored, phase]

section Resuming

variable (kind : abort.failureKind ≠ none)

include kind

theorem keeps_recoverLocked :
    Keeps abort.Resumable abort.Allows recoverLocked fun _ => True := by
  apply keeps_bind keeps_copy
  intro record resumable
  cases stored : record.publication with
  | none => exact keeps_pure trivial
  | some publication =>
      rcases resumable with announces | ⟨phase, -⟩
      · have phase := announces.phase
        simp only [SpoolRecord.phase?, stored, Option.map_some, Option.some.injEq] at phase
        simp only [phase]
        exact keeps_resumeRestore (fun _ => .inl) (fun _ => .inr) kind announces stored
      · simp only [SpoolRecord.phase?, stored, Option.map_some, Option.some.injEq] at phase
        simp only [phase]
        exact keeps_pure trivial

theorem keeps_recoverBeforeControlPlaneLocked :
    Keeps abort.Resumable abort.Allows recoverBeforeControlPlaneLocked fun _ => True := by
  apply keeps_bind keeps_copy
  intro record resumable
  cases stored : record.publication with
  | none => exact keeps_pure trivial
  | some publication =>
      rcases resumable with announces | ⟨phase, -⟩
      · have phase := announces.phase
        simp only [SpoolRecord.phase?, stored, Option.map_some, Option.some.injEq] at phase
        simp only [phase]
        exact keeps_resumeRestore (fun _ => .inl) (fun _ => .inr) kind announces stored
      · simp only [SpoolRecord.phase?, stored, Option.map_some, Option.some.injEq] at phase
        simp only [phase]
        exact keeps_pure trivial

theorem keeps_resumed {resumed : Agent Unit}
    (resumes : resumed = recover ∨ resumed = recoverBeforeControlPlane) :
    Keeps abort.Resumable abort.Allows resumed fun _ => True := by
  rcases resumes with rfl | rfl
  · apply keeps_bind (keeps_bind keeps_copy fun _ _ => keeps_context fun _ _ => trivial)
    intro publication _
    exact keeps_mirrorLocked (keeps_recoverLocked kind)
  · apply keeps_bind (keeps_bind keeps_copy fun _ _ => keeps_context fun _ _ => trivial)
    intro publication _
    exact keeps_mirrorLocked (keeps_recoverBeforeControlPlaneLocked kind)

end Resuming

/-- What is durable stays within a bound that holds of the announcement and of the end. -/
theorem framed_step {frame : SpoolRecord → Prop}
    (bounds : ∀ record, abort.Resumable record → frame record) (before : SpoolRecord) (operation : AgentOp)
    (reply : operation.Reply) (after : SpoolRecord) (framed : frame before) (allowed : abort.Allows operation)
    (stepped : SpoolStep before operation reply after) : frame after := by
  cases operation with
  | writeSpool record =>
      have written := bounds record (allowed record rfl)
      cases reply with
      | ok _ => exact stepped ▸ written
      | error _ =>
          rcases stepped with rfl | rfl
          · exact framed
          · exact written
  | _ => exact stepped ▸ framed

theorem Uninterrupted.bounded (uninterrupted : abort.Uninterrupted durable) :
    durable = abort.record ∨ abort.Resumable durable := by
  rcases uninterrupted with ⟨rest, reached⟩
  have every := @keeps_restoreThenTerminal abort (fun _ => True) (fun _ _ => trivial)
    (fun _ _ => trivial) abort.record trivial
  exact @Program.Every.of_reaches _ _ _ _ _ (fun record => record = abort.record ∨ abort.Resumable record)
    _ _ (framed_step fun _ => Or.inr) _ _ _ _ every (Or.inl rfl) reached

/-- Crashes and restarts included. -/
theorem Durable.bounded (kind : abort.failureKind ≠ none) (reached : abort.Durable durable) :
    durable = abort.record ∨ abort.Resumable durable := by
  induction reached with
  | first uninterrupted => exact uninterrupted.bounded
  | @again before durable resumed rest _ announced resumes reached ih =>
      have resumable : abort.Resumable before := by
        rcases ih with rfl | resumable
        · exact absurd announced abort.unannounced
        · exact resumable
      have every := keeps_resumed kind resumes before resumable
      exact .inr (every.of_reaches (framed_step fun _ => id) resumable reached)

theorem Concluded.outcome (concluded : abort.Concluded durable)
    (bounded : durable = abort.record ∨ abort.Resumable durable) :
    durable.outcome = (abort.state, abort.failureKind, some abort.message, none) := by
  rcases bounded with same | announces | ends
  · exact absurd same concluded.1
  · exact absurd announces.phase concluded.2
  · exact ends.2

/-- An undoing with a failure kind ends in the same result however often it is interrupted. -/
theorem crash_transparent (kind : abort.failureKind ≠ none) {uninterrupted : SpoolRecord}
    (interrupted : abort.Durable durable) (concluded : abort.Concluded durable)
    (undisturbed : abort.Uninterrupted uninterrupted)
    (finished : abort.Concluded uninterrupted) :
    durable.outcome = uninterrupted.outcome := by
  rw [concluded.outcome (interrupted.bounded kind), finished.outcome undisturbed.bounded]

end Abort

namespace Sample

/-- The publication of `running` with its candidate in the exchange slot. -/
def readied : SpoolRecord :=
  running.withPublication
    { PublicationState.ofSpec (atomicSpec.publication.get rfl) with
      phase := .readyToCommit
      candidateIdentity := some demo.candidate
      exchangeIdentity := some demo.candidate }

/-- Its undoing with a result. -/
def undoing (state : AttemptState) (failureKind : Option FailureKind) (message : String) :
    Abort where
  record := readied
  state
  failureKind
  message
  unannounced := by decide

/-- Only the exchange slot is occupied. -/
def slotAnswer (durable : SpoolRecord) : (operation : AgentOp) → operation.Reply × SpoolRecord
  | .writeSpool record => (.ok (), record)
  | .identityIfExists path =>
      (.ok (if path = demo.exchangePath then some demo.candidate else none), durable)
  | .renameNoreplace _ _ => (.ok (), durable)
  | operation => ((disk.answer fresh operation).1, durable)

theorem spoolStep_slotAnswer (durable : SpoolRecord) (operation : AgentOp) :
    SpoolStep durable operation (slotAnswer durable operation).1
      (slotAnswer durable operation).2 := by
  cases operation <;> rfl

/-- The durable record when the undoing is cut off after some of its operations. -/
def undone (abort : Abort) (operations : ℕ) : SpoolRecord :=
  (Program.advance slotAnswer operations (abort.program, abort.record)).2

/-- The durable record once the agent that was cut off has started again. -/
def resumedAfter (abort : Abort) (operations : ℕ) : SpoolRecord :=
  (Program.advance slotAnswer 20
    (Agent.recover (undone abort operations), undone abort operations)).2

theorem uninterrupted_undone (abort : Abort) (operations : ℕ) :
    abort.Uninterrupted (undone abort operations) :=
  ⟨_, Program.reaches_advance spoolStep_slotAnswer operations _⟩

theorem durable_resumedAfter {abort : Abort} {operations : ℕ}
    (announced : (undone abort operations).phase? = some .preVisibilityRecovery) :
    abort.Durable (resumedAfter abort operations) :=
  .again (.first (uninterrupted_undone abort operations)) announced (.inl rfl)
    (Program.reaches_advance spoolStep_slotAnswer 20 _)

end Sample

namespace Abort

open Sample

/-- A failed precondition, with a crash right after the announcement. -/
theorem failed_precondition_survives :
    (resumedAfter (undoing .failed (some .invalidResult) "candidate is gone") 1).outcome =
      (undone (undoing .failed (some .invalidResult) "candidate is gone") 20).outcome :=
  crash_transparent (by decide) (durable_resumedAfter (by decide +kernel))
    ⟨by decide +kernel, by decide +kernel⟩ (uninterrupted_undone _ _)
    ⟨by decide +kernel, by decide +kernel⟩

/-- A cancellation has no failure kind, but it has one after a crash. -/
theorem cancellation_becomes_failure :
    ¬ ∀ (abort : Abort) (durable uninterrupted : SpoolRecord), abort.Durable durable →
      abort.Concluded durable → abort.Uninterrupted uninterrupted →
        abort.Concluded uninterrupted → durable.outcome = uninterrupted.outcome := by
  intro transparent
  have same := transparent (undoing .cancelled none "cancelled before visibility") _ _
    (@durable_resumedAfter _ 1 (by decide +kernel))
    ⟨by decide +kernel, by decide +kernel⟩ (uninterrupted_undone _ 20)
    ⟨by decide +kernel, by decide +kernel⟩
  revert same
  decide +kernel

end Abort

end LzuMirror
