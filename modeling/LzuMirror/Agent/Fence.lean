import LzuMirror.Agent.Conservation
import LzuMirror.Agent.Evidence
import LzuMirror.Agent.Spawning
import LzuMirror.Agent.Tasks

/-!
# The fence of an abandoned publication

`publication::abandon` leaves a record in phase `AbandonedFenced` in the spool
until `clear_fence` retires it: a fence for its mirror. No task of a later agent
may rewrite the record as anything else, move a directory for its attempt or
start an execution for the mirror.

The agent's tasks are run over the state files of all attempts, in any order and
through any restarts. What the executions of other attempts do to their own files
is arbitrary. The fence stands in every run in which a `StartAttempt` for the
fenced key that cannot read its file finds the agent busy; an agent with room for
it takes the file for absent and writes over it.
-/

namespace LzuMirror

namespace Agent

/-! ## Abandoning a publication -/

/-- `validate_exact`. -/
def validateExact (record : SpoolRecord) (mirror runId : String) (attempt : ℕ)
    (specHash : String) : Except String PublicationState :=
  match record.publication with
  | none => .error "publication state missing"
  | some publication =>
      if publication.mirror ≠ mirror ∨ record.runId ≠ runId ∨ record.attempt ≠ attempt ∨
          record.specHash ≠ specHash then
        .error "publication operation identity does not exactly match durable spool evidence"
      else .ok publication

/-- The record that `abandon` writes. -/
def fencedRecord (record : SpoolRecord) (publication : PublicationState) (time : String) :
    SpoolRecord :=
  (record.withPublication (inPhase publication .abandonedFenced)).terminal .failed none
    (some .publicationDurability)
    (some "operator abandoned publication after visibility; local writer fence remains") time

/-- `publication::abandon` with the record it has read. -/
def abandonRecord (record : SpoolRecord) (mirror runId : String) (attempt : ℕ)
    (specHash : String) : AgentProgram (Except String SpoolRecord) :=
  match validateExact record mirror runId attempt specHash with
  | .error error => pure (.error error)
  | .ok publication =>
      if publication.phase ≠ .visiblePendingDurability then
        pure (.error "abandon requires visible_pending_durability")
      else do
        let time ← LzuMirror.perform .now
        let fenced := fencedRecord record publication time
        match ← LzuMirror.perform (.writeSpool fenced) with
        | .error _ => pure (.error "persist abandoned_fenced before terminal report")
        | .ok _ => pure (.ok fenced)

/-- `publication::abandon` under the mirror lock. -/
def abandonLocked (mirror runId : String) (attempt : ℕ) (specHash : String) :
    AgentProgram (Except String SpoolRecord) := do
  match ← LzuMirror.perform .readSpool with
  | .error error => pure (.error error)
  | .ok record => abandonRecord record mirror runId attempt specHash

/-- `publication::abandon`. -/
def abandon (mirror runId : String) (attempt : ℕ) (specHash : String) :
    AgentProgram (Except String SpoolRecord) := do
  LzuMirror.perform (.acquire (.mirror mirror) none)
  let result ← abandonLocked mirror runId attempt specHash
  LzuMirror.perform (.release (.mirror mirror))
  pure result

/-- The event `reconcile_abandoned_terminal` sends. -/
def abandonedEvent (config : AgentConfig) (record : SpoolRecord) : EventRequest :=
  let eventSequence :=
    if record.acknowledgedSequence = 0 ∧ record.sequence > 1 then 1 else record.sequence
  { Service.eventFor config record with
    eventSequence
    state := if eventSequence = 1 then .accepted else record.state }

/-- The loop of `reconcile_abandoned_terminal`, for the sequences the server accepts in turn. -/
def reconcileAbandonedTerminal (config : AgentConfig) : List (Except String ℕ) → Agent Unit
  | [] => pure ()
  | response :: later => do
      let record ← copy
      if record.acknowledgedSequence < record.sequence then
        let event := abandonedEvent config record
        if ← ofExcept (← perform (.postEvent event)) then
          let accepted ← ofExcept response
          if accepted < event.eventSequence then
            fail ("Server acknowledged event sequence " ++ toString accepted ++
              " below sent sequence " ++ toString event.eventSequence)
          else
            let latest ← ofExcept (← perform .readSpool)
            let next := { latest with
              acknowledgedSequence :=
                max latest.acknowledgedSequence (min accepted latest.sequence) }
            write next
            setCopy next
            reconcileAbandonedTerminal config later
        -- the message ends with the status of the response
        else fail "Server rejected terminal reconciliation with HTTP"
      else pure ()

end Agent

/-- The record of an abandoned publication in the spool. -/
structure Fence where
  key : String
  record : SpoolRecord
  publication : PublicationState
  stored : record.publication = some publication
  abandoned : publication.phase = .abandonedFenced
  ended : record.state.isTerminal = true

/-- The mirror that is fenced. -/
def Fence.mirror (fence : Fence) : String := fence.publication.mirror

/-- The record is that of the fence, whatever the server has acknowledged of it. -/
def Fence.Covers (fence : Fence) (record : SpoolRecord) : Prop :=
  ∃ sequence offset complete, record = fence.record.reported sequence offset complete

/-- The execution identity of an attempt, or its publication spec, names the mirror. -/
def NamesMirror (executionIdentity : Option ExecutionIdentity)
    (publication : Option AtomicPublicationSpec) (mirror : String) : Prop :=
  executionIdentity.map (·.mirror) = some mirror ∨ publication.map (·.mirror) = some mirror

theorem Agent.validateExact_eq_ok {record : SpoolRecord} {mirror runId specHash : String}
    {attempt : ℕ} {publication : PublicationState}
    (valid : Agent.validateExact record mirror runId attempt specHash = .ok publication) :
    publication.mirror = mirror := by
  unfold Agent.validateExact at valid
  split at valid
  · cases valid
  · split at valid
    · cases valid
    next same =>
      cases valid
      simp only [ne_eq, not_or, not_not] at same
      exact same.1

/-- Whatever `abandon` writes is a fence for its mirror. -/
theorem Agent.abandon_writes (key mirror runId specHash : String) (attempt : ℕ) :
    (Agent.abandon mirror runId attempt specHash).Every
      (fun operation => ∀ record, operation = .writeSpool record →
        ∃ fence : Fence, fence.key = key ∧ fence.record = record ∧ fence.mirror = mirror)
      fun _ => True := by
  refine ⟨by simp, fun _ => Program.every_bind.mpr ⟨by simp, ?_⟩⟩
  rintro (error | record)
  · exact ⟨by simp, fun _ => trivial⟩
  refine Program.every_bind.mpr (@Program.Every.imp _ _ _ _ (fun _ => True) _ _ ?_
    fun _ _ => ⟨by simp, fun _ => trivial⟩)
  change (Agent.abandonRecord record mirror runId attempt specHash).Every _ _
  unfold Agent.abandonRecord
  cases valid : Agent.validateExact record mirror runId attempt specHash with
  | error error => trivial
  | ok publication =>
      have named : publication.mirror = mirror := Agent.validateExact_eq_ok valid
      dsimp only
      split
      · trivial
      refine ⟨by simp, fun time => ⟨?_, ?_⟩⟩
      · rintro _ ⟨⟩
        exact ⟨⟨key, Agent.fencedRecord record publication time, _, rfl, rfl, rfl⟩, rfl, rfl,
          named⟩
      · rintro (error | _) <;> trivial

/-! ## Runs over the spool -/

/-- The spool, and what was moved or started since the fence was written, for which keys. -/
structure Watch where
  holdings : Holdings
  deeds : List (String × AgentOp)

/-- The operations that are watched. -/
def AgentOp.isDeed : AgentOp → Bool
  | .renameNoreplace _ _ | .exchangePaths _ _ | .spawnTask _ => true
  | _ => false

/-- What an operation for a key may do, among the replies that are permitted. -/
def Watch.Step (permitted : String → (operation : AgentOp) → operation.Reply → Prop)
    (key : String) : Program.Semantics AgentOp AgentOp.Reply Watch :=
  fun before operation reply after =>
    permitted key operation reply ∧
      Holdings.Step key before.holdings operation reply after.holdings ∧
        after.deeds = if operation.isDeed then (key, operation) :: before.deeds else before.deeds

/-- `reset_spool` removes nothing unless every state file is a record without evidence. -/
def Holdings.Resets (before : Holdings) (files : String → Option StateFile) : Prop :=
  files = before.files ∨
    (∀ key file, before.files key = some file →
      ∃ record, file = .record record ∧ record.hasProtectedPublicationEvidence = false) ∧
    ∀ key, files key = before.files key ∨ files key = none

/-- The programs that are started for the attempts, one after another for each task and key. -/
inductive Fence.Attends (fence : Fence) (config : AgentConfig) :
    AgentTask × String → AgentProgram Unit → Prop where
  | accept (runId specHash : String) (attempt : ℕ)
      (executionIdentity : Option ExecutionIdentity) (spec : ProcessRunSpec) :
      Attends fence config (.poller, executionKey runId attempt)
        (Service.acceptWithIdentity config runId attempt specHash executionIdentity spec)
  | cancel (runId specHash : String) (attempt : ℕ) :
      Attends fence config (.poller, executionKey runId attempt)
        (Service.cancel config runId attempt specHash)
  | recover (key : String) : Attends fence config (.reconciler, key) (Service.recover config)
  | reconcileAll (key : String) :
      Attends fence config (.reconciler, key) (Service.reconcileAll config)
  | report {record : SpoolRecord} (covers : fence.Covers record)
      (responses : List (Except String ℕ)) :
      Attends fence config (.reconciler, fence.key)
        (discard ((Agent.reconcileAbandonedTerminal config responses).run record))

/-- The tasks of the agents that follow one another, and the spool they share. -/
abbrev FencePool := Pool (AgentTask × String) AgentOp AgentOp.Reply Watch

/-- The runs since the fence was written. -/
inductive Fence.Lives (fence : Fence) (config : AgentConfig)
    (permitted : String → (operation : AgentOp) → operation.Reply → Prop) (start : FencePool) :
    FencePool → Prop where
  | start : Lives fence config permitted start start
  | move {pool after : FencePool} (lived : Lives fence config permitted start pool)
      (moved : Pool.Move (fun task => Watch.Step permitted task.2) (fence.Attends config) pool
        after) : Lives fence config permitted start after
  -- the executions of the other attempts
  | elsewhere {pool : FencePool} {files : String → Option StateFile} {active : List String}
      (lived : Lives fence config permitted start pool)
      (same : files fence.key = pool.state.holdings.files fence.key) :
      Lives fence config permitted start
        ⟨pool.tasks, ⟨⟨files, active, pool.state.holdings.started⟩, pool.state.deeds⟩⟩
  | restart {pool : FencePool} (lived : Lives fence config permitted start pool) :
      Lives fence config permitted start
        ⟨fun _ => .pure (),
          ⟨⟨pool.state.holdings.files, [], pool.state.holdings.started⟩, pool.state.deeds⟩⟩
  | reset {pool : FencePool} {files : String → Option StateFile}
      (lived : Lives fence config permitted start pool)
      (resets : pool.state.holdings.Resets files) :
      Lives fence config permitted start
        ⟨pool.tasks, ⟨⟨files, pool.state.holdings.active, pool.state.holdings.started⟩,
          pool.state.deeds⟩⟩

/-- The fence has just been written and the agent is down. -/
structure Fence.Begins (fence : Fence) (pool : FencePool) : Prop where
  written : pool.state.holdings.files fence.key = some (.record fence.record)
  idle : ∀ task, pool.tasks task = .pure ()
  fresh : pool.state.deeds = []

/-- What may be done while the fence stands. -/
def Fence.Allows (fence : Fence) (key : String) : AgentOp → Prop
  | .renameNoreplace _ _ | .exchangePaths _ _ => key ≠ fence.key
  | .spawnTask record =>
      ¬NamesMirror record.executionIdentity (record.spec.bind (·.publication)) fence.mirror
  | _ => True

/-- The record is in the spool, and nothing was moved or started against the fence. -/
structure Fence.Stands (fence : Fence) (watch : Watch) : Prop where
  covered : ∃ record, watch.holdings.files fence.key = some (.record record) ∧ fence.Covers record
  heeded : ∀ deed ∈ watch.deeds, fence.Allows deed.1 deed.2

/-- An agent that counts its active runs for the fenced key has no room for it. -/
def Fence.Busy (fence : Fence) (config : AgentConfig) (key : String) :
    (operation : AgentOp) → operation.Reply → Prop
  | .activeLength, (length : ℕ) => key = fence.key → config.maxConcurrentRuns ≤ length
  | _, _ => True

/-! ## What the operations keep -/

/-- What an operation for a key needs to leave the fence standing. -/
def Fence.Respects (fence : Fence) (key : String) : AgentOp → Prop
  | .writeSpool record => key = fence.key → fence.Covers record
  | .retireSpool => key ≠ fence.key
  | operation => fence.Allows key operation

/-- What a reply says while the fence stands. -/
def Fence.Tells (fence : Fence) (key : String) : (operation : AgentOp) → operation.Reply → Prop
  | .readSpool, (reply : Except String SpoolRecord) =>
      key = fence.key → ∀ record, reply = .ok record → fence.Covers record
  | .spoolExists, (present : Bool) => key = fence.key → present = true
  | .spoolRecords, (reply : Except String (List SpoolRecord)) =>
      ∀ records, reply = .ok records → ∃ record ∈ records, fence.Covers record
  | _, _ => True

section Stands

variable {fence : Fence} {config : AgentConfig} {key : String} {record : SpoolRecord}
  {permitted : String → (operation : AgentOp) → operation.Reply → Prop} {before after : Watch}

theorem Fence.Covers.reported (covers : fence.Covers record) (sequence offset : ℕ)
    (complete : Bool) : fence.Covers (record.reported sequence offset complete) := by
  rcases covers with ⟨_, _, _, rfl⟩
  exact ⟨_, _, _, rfl⟩

theorem Fence.Covers.publication (covers : fence.Covers record) :
    record.publication = some fence.publication := by
  rcases covers with ⟨_, _, _, rfl⟩
  exact fence.stored

theorem Fence.Covers.ended (covers : fence.Covers record) : record.state.isTerminal = true := by
  rcases covers with ⟨_, _, _, rfl⟩
  exact fence.ended

theorem Fence.Covers.not_ready (covers : fence.Covers record) : record.readyForCleanup = false := by
  simp [SpoolRecord.readyForCleanup, SpoolRecord.hasProtectedPublicationEvidence,
    covers.publication, fence.abandoned, PublicationPhase.isProtected]

theorem Fence.Covers.at_rest (covers : fence.Covers record) :
    record.requiresPublicationRecovery = false := by
  simp [SpoolRecord.requiresPublicationRecovery, covers.publication, fence.abandoned,
    PublicationPhase.requiresNamespaceRecovery]

/-- A scan that succeeds finds every record. -/
theorem Holdings.Scans.mem {holdings : Holdings} {records : List SpoolRecord}
    (scans : holdings.Scans records) (stored : holdings.files key = some (.record record)) :
    record ∈ records := by
  rcases scans with ⟨keys, listed, read⟩
  have present : key ∈ keys := (listed key).mpr (by rw [stored]; rfl)
  clear listed
  induction read with
  | nil => cases present
  | cons isRead _ ih =>
      rcases List.mem_cons.mp present with rfl | later
      · rw [stored] at isRead
        cases isRead
        exact List.mem_cons_self
      · exact List.mem_cons_of_mem _ (ih later)

/-- The files of other keys play no part. -/
theorem Fence.Stands.of_same {after : Watch} (stands : fence.Stands before)
    (same : after.holdings.files fence.key = before.holdings.files fence.key)
    (heeded : ∀ deed ∈ after.deeds, fence.Allows deed.1 deed.2) : fence.Stands after :=
  ⟨same ▸ stands.covered, heeded⟩

theorem Fence.Stands.reset {files : String → Option StateFile} {active : List String}
    (stands : fence.Stands before) (resets : before.holdings.Resets files) :
    fence.Stands ⟨⟨files, active, before.holdings.started⟩, before.deeds⟩ := by
  rcases resets with rfl | ⟨unprotected, _⟩
  · exact ⟨stands.covered, stands.heeded⟩
  · rcases stands.covered with ⟨record, stored, covers⟩
    rcases unprotected _ _ stored with ⟨_, ⟨⟩, free⟩
    simp [SpoolRecord.hasProtectedPublicationEvidence, covers.publication, fence.abandoned,
      PublicationPhase.isProtected] at free

/-- What was done is allowed, if what is done now is. -/
theorem Fence.Stands.deeds {operation : AgentOp} {reply : operation.Reply}
    (stands : fence.Stands before)
    (performed : Watch.Step permitted key before operation reply after)
    (respects : fence.Respects key operation) :
    ∀ deed ∈ after.deeds, fence.Allows deed.1 deed.2 := by
  rw [performed.2.2]
  split
  next watched =>
    intro deed listed
    rcases List.mem_cons.mp listed with rfl | earlier
    · cases operation <;> first | exact respects | cases watched
    · exact stands.heeded deed earlier
  next => exact stands.heeded

/-- An operation that respects the fence leaves it standing. -/
theorem Fence.Stands.step {operation : AgentOp} {reply : operation.Reply}
    (stands : fence.Stands before)
    (performed : Watch.Step permitted key before operation reply after)
    (respects : fence.Respects key operation) : fence.Stands after := by
  have heeded := stands.deeds performed respects
  rcases performed with ⟨_, changed, _⟩
  cases operation with
  | writeSpool record =>
      rcases changed with written | ⟨_, same⟩
      · by_cases own : key = fence.key
        · refine ⟨⟨record, ?_, respects own⟩, heeded⟩
          rw [written, ← own]
          exact Function.update_self ..
        · refine stands.of_same ?_ heeded
          rw [written]
          exact Function.update_of_ne (Ne.symm own) ..
      · exact stands.of_same (by rw [same]) heeded
  | retireSpool =>
      rcases changed with retired | ⟨_, same⟩
      · refine stands.of_same ?_ heeded
        rw [retired]
        exact Function.update_of_ne (Ne.symm respects) ..
      · exact stands.of_same (by rw [same]) heeded
  | readSpool | spoolExists | spoolRecords | activeContains | activeLength =>
      exact stands.of_same (by rw [changed.1]) heeded
  | _ => exact stands.of_same (by rw [show after.holdings = _ from changed]) heeded

theorem Fence.Stands.tells {operation : AgentOp} {reply : operation.Reply}
    (stands : fence.Stands before)
    (performed : Watch.Step permitted key before operation reply after) :
    fence.Tells key operation reply := by
  rcases performed with ⟨_, changed, _⟩
  rcases stands.covered with ⟨fenced, stored, covers⟩
  cases operation with
  | readSpool =>
      rintro rfl record rfl
      rcases changed.2 with ⟨found, isFound, same⟩ | ⟨_, impossible⟩
      · rw [stored] at isFound
        cases isFound
        cases same
        exact covers
      · cases impossible
  | spoolExists =>
      rintro rfl
      rw [changed.2, stored]
      rfl
  | spoolRecords =>
      rintro records rfl
      rcases changed.2 with ⟨_, impossible⟩ | ⟨_, ⟨⟩, scans⟩
      · cases impossible
      · exact ⟨fenced, scans.mem stored, covers⟩
  | _ => trivial

end Stands

/-! ## What the tasks keep -/

/-- A program for a key that leaves the fence standing. -/
abbrev Fence.Guards (fence : Fence)
    (permitted : String → (operation : AgentOp) → operation.Reply → Prop) (key : String)
    {α : Type} (program : AgentProgram α) (post : α → Prop) : Prop :=
  program.EveryGiven
    (fun operation reply => fence.Tells key operation reply ∧ permitted key operation reply)
    (fence.Respects key) post

/-- A computation on a copy of the fence. -/
abbrev Fence.Tends (fence : Fence)
    (permitted : String → (operation : AgentOp) → operation.Reply → Prop) {α : Type}
    (computation : Agent α) : Prop :=
  Agent.KeepsGiven fence.Covers
    (fun operation reply => fence.Tells fence.key operation reply ∧
      permitted fence.key operation reply) (fence.Respects fence.key) computation

section Tasks

open Agent

variable {fence : Fence} {config : AgentConfig} {key : String} {record : SpoolRecord}
  {permitted : String → (operation : AgentOp) → operation.Reply → Prop}

/-- Another key's program may do anything but start an execution. -/
theorem Fence.guards_elsewhere {α : Type} {program : AgentProgram α} {post : α → Prop}
    (apart : key ≠ fence.key)
    (idle : program.EveryGiven (fun _ _ => True) (fun operation => operation.isSpawn = false)
      post) : fence.Guards permitted key program post := by
  refine idle.weaken (fun _ _ _ => trivial) fun operation unspawned => ?_
  cases operation with
  | writeSpool record => exact fun same => absurd same apart
  | retireSpool | renameNoreplace | exchangePaths => exact apart
  | spawnTask record => cases unspawned
  | _ => trivial

/-- Reports change nothing but the acknowledgements, and the fence is never ready for cleanup. -/
theorem Fence.reports (fence : Fence)
    (permitted : String → (operation : AgentOp) → operation.Reply → Prop) :
    Reports fence.Covers
      (fun operation reply => fence.Tells fence.key operation reply ∧
        permitted fence.key operation reply) (fence.Respects fence.key) where
  reports := by
    intro operation report
    cases operation <;> trivial
  finds := fun told => told.1 rfl _ rfl
  writes := fun covers _ => covers
  posts := fun _ _ => trivial
  hears := fun _ _ _ covers => covers.reported _ _ _
  logs := fun covers => covers.reported _ _ _
  retires := by
    intro record covers ready
    rw [covers.not_ready] at ready
    cases ready

theorem Fence.reconcileAbandonedTerminal_tends (responses : List (Except String ℕ)) :
    fence.Tends permitted (reconcileAbandonedTerminal config responses) := by
  induction responses with
  | nil => exact keepsGiven_pure
  | cons response later ih =>
      refine keepsGiven_copy fun record covers => keepsGiven_ite (fun _ => ?_) fun _ =>
        keepsGiven_pure
      refine keepsGiven_perform (by exact trivial) fun _ _ => keepsGiven_unwrap ?_
      rintro (_ | _) _
      · exact keepsGiven_fail
      refine keepsGiven_unwrap fun accepted _ => keepsGiven_ite (fun _ => keepsGiven_fail) fun _ => ?_
      refine (fence.reports permitted).read fun latest covers => ?_
      have changed := covers.reported (max latest.acknowledgedSequence (min accepted latest.sequence))
        latest.logOffset latest.logCompleteAcknowledged
      refine keepsGiven_bind ((fence.reports permitted).write changed) fun _ => ?_
      exact keepsGiven_bind (keepsGiven_setCopy changed) fun _ => ih

/-- A report of the fence to the server. -/
theorem Fence.guards_report {computation : Agent Unit} (tends : fence.Tends permitted computation)
    (covers : fence.Covers record) :
    fence.Guards permitted fence.key (discard (computation.run record)) fun _ => True :=
  Program.everyGiven_bind.mpr ((tends record covers).imp fun _ _ => trivial)

/-! ## The fenced attempt -/

/-- A `StartAttempt` for the fenced key that cannot read the file finds no room. -/
theorem Fence.acceptWithIdentity_guards (runId : String) (attempt : ℕ) (specHash : String)
    (executionIdentity : Option ExecutionIdentity) (spec : ProcessRunSpec) :
    fence.Guards (fence.Busy config) fence.key
      (Service.acceptWithIdentity config runId attempt specHash executionIdentity spec)
      fun _ => True := by
  refine ⟨trivial, fun _ _ => ⟨trivial, ?_⟩⟩
  rintro (message | existing) ⟨told, _⟩
  · have full : fence.Guards (fence.Busy config) fence.key (Service.activeOrFull config)
        fun value => value = true := by
      refine ⟨trivial, ?_⟩
      rintro (_ | _) _
      · exact ⟨trivial, fun (length : ℕ) told => decide_eq_true (told.2 rfl)⟩
      · exact rfl
    refine ⟨trivial, fun _ _ => Program.everyGiven_bind.mpr
      (Program.everyGiven_bind.mpr (full.imp ?_))⟩
    rintro _ rfl
    exact ⟨trivial, fun _ _ => ⟨trivial, fun _ _ => trivial⟩⟩
  · have covers := told rfl existing rfl
    refine ⟨trivial, fun _ _ => ?_⟩
    exact Program.everyGiven_ite (fun _ => trivial) fun _ =>
      (fence.reports (fence.Busy config)).reported covers

/-- A cancellation finds the file, or finds it ended. -/
theorem Fence.cancel_guards (runId : String) (attempt : ℕ) (specHash : String) :
    fence.Guards permitted fence.key (Service.cancel config runId attempt specHash)
      fun _ => True := by
  refine ⟨trivial, fun _ _ => ⟨trivial, ?_⟩⟩
  rintro (message | record) ⟨told, _⟩
  · refine ⟨trivial, fun present found => ?_⟩
    cases found.1 rfl
    exact ⟨trivial, fun _ _ => trivial⟩
  · have covers := told rfl record rfl
    refine Program.everyGiven_ite (fun _ => ⟨trivial, fun _ _ => trivial⟩) fun _ => ?_
    refine Program.everyGiven_ite (fun _ => ?_) fun live => absurd covers.ended live
    refine ⟨trivial, fun present found => ?_⟩
    cases found.1 rfl
    exact ⟨trivial, fun _ _ => (fence.reports permitted).reported covers⟩

/-- A restart finds the fence ended and at rest. -/
theorem Fence.recover_guards :
    fence.Guards permitted fence.key (Service.recover config) fun _ => True := by
  refine ⟨trivial, ?_⟩
  rintro (message | record) ⟨told, _⟩
  · trivial
  · have covers := told rfl record rfl
    have normal : fence.Guards permitted fence.key (Service.normalizeInterrupted record)
        fun ended => ended = record :=
      Program.everyGiven_ite (fun _ => rfl) fun live => absurd covers.ended live
    refine Program.everyGiven_ite (fun unsettled => ?_) fun _ =>
      Program.everyGiven_bind.mpr (normal.imp ?_)
    · rw [covers.at_rest] at unsettled
      cases unsettled
    · rintro _ rfl
      exact (fence.reports permitted).reported covers

theorem Fence.reconcileAll_guards :
    fence.Guards permitted fence.key (Service.reconcileAll config) fun _ => True := by
  refine ⟨trivial, ?_⟩
  rintro (message | record) ⟨told, _⟩
  · trivial
  · have covers := told rfl record rfl
    refine Program.everyGiven_ite (fun unsettled => ?_) fun _ =>
      (fence.reports permitted).reported covers
    rw [covers.at_rest] at unsettled
    cases unsettled

/-! ## Other attempts -/

/-- A fence among the records blocks its mirror. -/
theorem Fence.admissionBlock_ne_none {records : List SpoolRecord} {atomic : Bool}
    (listed : record ∈ records) (covers : fence.Covers record) :
    Service.admissionBlock fence.mirror atomic records ≠ none := by
  induction records with
  | nil => cases listed
  | cons first rest ih =>
      unfold Service.admissionBlock
      rcases List.mem_cons.mp listed with rfl | later
      · rw [covers.publication]
        simp [Fence.mirror, fence.abandoned]
      · have blocked := ih later
        split
        · exact blocked
        split
        · exact blocked
        split
        · simp
        split
        · simp
        · exact blocked

theorem Fence.checkBounds_guards (publication : Option AtomicPublicationSpec) :
    fence.Guards permitted key (Service.checkBounds config publication) fun _ => True := by
  unfold Service.checkBounds
  split
  · trivial
  · split
    · trivial
    · trivial
    · exact ⟨trivial, fun _ _ => trivial⟩

theorem Fence.admitLocked_guards (mirror : String) (publication : Option AtomicPublicationSpec) :
    fence.Guards permitted key (Service.admitLocked config mirror publication)
      fun answer => answer = .ok () → mirror ≠ fence.mirror := by
  have scanned : fence.Guards permitted key (LzuMirror.perform .spoolRecords)
      (fence.Tells key .spoolRecords) := ⟨trivial, fun _ told => told.1⟩
  refine Program.everyGiven_bind.mpr (scanned.imp ?_)
  rintro (message | records) told
  · rintro ⟨⟩
  rcases told records rfl with ⟨fenced, listed, covers⟩
  dsimp only
  split
  · rintro ⟨⟩
  next unblocked =>
    refine (checkBounds_guards publication).imp fun _ _ _ => ?_
    rintro rfl
    exact admissionBlock_ne_none listed covers unblocked

/-- An attempt that is admitted does not name the mirror of the fence. -/
theorem Fence.publicationAdmission_guards (executionIdentity : Option ExecutionIdentity)
    (spec : ProcessRunSpec) :
    fence.Guards permitted key (Service.publicationAdmission config executionIdentity spec)
      fun answer => ∀ guard, answer = .ok guard →
        ¬NamesMirror executionIdentity spec.publication fence.mirror := by
  unfold Service.publicationAdmission
  dsimp only
  split
  · rintro _ ⟨⟩
  next matched =>
  split
  next unnamed =>
    rintro _ _ (named | named) <;> simp [named] at unnamed
  next mirror named =>
    have same : ∀ other, NamesMirror executionIdentity spec.publication other →
        mirror = other := by
      rintro other (identified | published)
      · simpa [identified, eq_comm] using named
      · rcases executionIdentity with _ | identity
        · simpa [published, eq_comm] using named
        · rcases publication : spec.publication with _ | target
          · simp [publication] at published
          · simp_all
    split
    · rintro _ ⟨⟩
    refine ⟨trivial, fun _ _ => Program.everyGiven_bind.mpr ?_⟩
    refine Program.everyGiven_bind.mpr ((admitLocked_guards mirror spec.publication).imp ?_)
    rintro (error | _) apart
    · refine ⟨trivial, fun _ _ => ?_⟩
      rintro _ ⟨⟩
    · exact fun _ _ names => apart rfl (same _ names)

theorem Fence.admission_guards (executionIdentity : Option ExecutionIdentity)
    (spec : ProcessRunSpec) :
    fence.Guards permitted key (Service.admission config executionIdentity spec)
      fun answer => ∀ guard, answer = .ok guard →
        ¬NamesMirror executionIdentity spec.publication fence.mirror := by
  refine Program.everyGiven_ite (fun _ => by rintro _ ⟨⟩) fun _ => ?_
  refine Program.everyGiven_bind.mpr
    ((publicationAdmission_guards executionIdentity spec).imp ?_)
  rintro (error | guard) apart
  · rintro _ ⟨⟩
  · exact fun _ _ => apart guard rfl

theorem Fence.releaseGuard_guards (guard : Option String) :
    fence.Guards permitted key (Service.releaseGuard guard) fun _ => True := by
  rcases guard with _ | mirror
  · trivial
  · exact ⟨trivial, fun _ _ => trivial⟩

/-- An execution is started for another mirror. -/
theorem Fence.startExecution_guards (apart : key ≠ fence.key)
    (unnamed : ¬NamesMirror record.executionIdentity (record.spec.bind (·.publication))
      fence.mirror) (guard : Option String) :
    fence.Guards permitted key (Service.startExecution record guard) fun _ => True := by
  refine ⟨fun same => absurd same apart, ?_⟩
  rintro (message | _) _
  · refine Program.everyGiven_bind.mpr (Program.everyGiven_bind.mpr
      ((releaseGuard_guards guard).imp fun _ _ => ?_))
    exact ⟨trivial, fun _ _ => ⟨trivial, fun _ _ => trivial⟩⟩
  · refine ⟨trivial, fun _ _ => ⟨trivial, fun _ _ => ?_⟩⟩
    refine Program.everyGiven_bind.mpr (Program.everyGiven_bind.mpr
      ((releaseGuard_guards guard).imp fun _ _ => ?_))
    exact ⟨unnamed, fun _ _ => ⟨trivial, fun _ _ => trivial⟩⟩

theorem Fence.acceptWithIdentity_guards_elsewhere (apart : key ≠ fence.key) (runId : String)
    (attempt : ℕ) (specHash : String) (executionIdentity : Option ExecutionIdentity)
    (spec : ProcessRunSpec) :
    fence.Guards permitted key
      (Service.acceptWithIdentity config runId attempt specHash executionIdentity spec)
      fun _ => True := by
  have idle := @serves_idle (fun operation => operation.isSpawn = false)
    fun _ unspawned => unspawned
  refine ⟨trivial, fun _ _ => ⟨trivial, ?_⟩⟩
  rintro (message | existing) _
  · have counts : fence.Guards permitted key (Service.activeOrFull config) fun _ => True := by
      refine ⟨trivial, ?_⟩
      rintro (_ | _) _
      · exact ⟨trivial, fun _ _ => trivial⟩
      · trivial
    refine ⟨trivial, fun _ _ => Program.everyGiven_bind.mpr
      (Program.everyGiven_bind.mpr (counts.imp ?_))⟩
    rintro (_ | _) _
    · refine Program.everyGiven_bind.mpr ((admission_guards executionIdentity spec).imp ?_)
      rintro (error | guard) unnamed
      · exact ⟨trivial, fun time _ => guards_elsewhere apart (idle.rejectLocally trivial)⟩
      · exact ⟨trivial, fun time _ => startExecution_guards apart (unnamed guard rfl) guard⟩
    · exact ⟨trivial, fun _ _ => ⟨trivial, fun _ _ => trivial⟩⟩
  · refine ⟨trivial, fun _ _ => Program.everyGiven_ite (fun _ => trivial) fun _ => ?_⟩
    exact guards_elsewhere apart (idle.reported trivial)

/-- Every program that is started leaves the fence standing. -/
theorem Fence.Attends.guards {task : AgentTask × String} {program : AgentProgram Unit}
    (attends : fence.Attends config task program) :
    fence.Guards (fence.Busy config) task.2 program fun _ => True := by
  have idle := @serves_idle (fun operation => operation.isSpawn = false)
    fun _ unspawned => unspawned
  cases attends with
  | accept runId specHash attempt executionIdentity spec =>
      by_cases own : executionKey runId attempt = fence.key
      · rw [own]
        exact acceptWithIdentity_guards runId attempt specHash executionIdentity spec
      · exact acceptWithIdentity_guards_elsewhere own runId attempt specHash executionIdentity spec
  | cancel runId specHash attempt =>
      by_cases own : executionKey runId attempt = fence.key
      · rw [own]
        exact cancel_guards runId attempt specHash
      · exact guards_elsewhere own idle.cancel
  | recover key =>
      by_cases own : key = fence.key
      · rw [own]
        exact recover_guards
      · exact guards_elsewhere own idle.recover
  | reconcileAll key =>
      by_cases own : key = fence.key
      · rw [own]
        exact reconcileAll_guards
      · exact guards_elsewhere own idle.reconcileAll
  | report covers responses =>
      exact guards_report (reconcileAbandonedTerminal_tends responses) covers

end Tasks

/-! ## Runs -/

section Runs

variable {fence : Fence} {config : AgentConfig} {start pool : FencePool}

/-- Whatever the tasks have still to do leaves the fence standing. -/
abbrev Fence.Secured (fence : Fence) (config : AgentConfig) (pool : FencePool) : Prop :=
  pool.Secure (fun task => Watch.Step (fence.Busy config) task.2) (fun _ _ _ => True)
    (fun _ _ _ => True) fence.Stands fun _ _ => True

theorem Fence.Begins.stands (begins : fence.Begins pool) : fence.Stands pool.state where
  covered := ⟨fence.record, begins.written, fence.record.acknowledgedSequence,
    fence.record.logOffset, fence.record.logCompleteAcknowledged, rfl⟩
  heeded deed listed := by
    rw [begins.fresh] at listed
    cases listed

theorem Fence.Secured.of_stands {after : FencePool} (secured : fence.Secured config pool)
    (tasks : after.tasks = pool.tasks) (stands : fence.Stands after.state) :
    fence.Secured config after := by
  refine ⟨stands, fun task => ?_⟩
  rw [tasks]
  exact (secured.safe task).stable (fun _ _ _ _ _ => trivial) (fun _ _ _ _ _ => trivial) trivial

theorem Fence.Lives.secured (begins : fence.Begins start)
    (lives : fence.Lives config (fence.Busy config) start pool) : fence.Secured config pool := by
  induction lives with
  | start =>
      refine ⟨begins.stands, fun task => ?_⟩
      rw [begins.idle task]
      trivial
  | move _ moved ih =>
      refine ih.move (fun _ _ => trivial) (fun _ _ _ _ _ _ => trivial) (fun _ _ _ _ _ => trivial)
        (fun _ _ _ _ _ _ _ => trivial) ?_ moved
      intro task program state attends _ _
      exact attends.guards.safe fun before operation reply after stands respects performed =>
        ⟨⟨trivial, stands.step performed respects⟩, stands.tells performed, performed.1⟩
  | elsewhere _ same ih => exact ih.of_stands rfl (ih.valid.of_same same ih.valid.heeded)
  | restart _ ih =>
      exact ⟨ih.valid.of_same rfl ih.valid.heeded, fun _ => trivial⟩
  | reset _ resets ih => exact ih.of_stands rfl (ih.valid.reset resets)

section Moves

variable {permitted : String → (operation : AgentOp) → operation.Reply → Prop}

/-- A task is started and runs while the others wait. -/
theorem Fence.Lives.runs {task : AgentTask × String} {program rest : AgentProgram Unit}
    {after : Watch} (lived : fence.Lives config permitted start pool)
    (idle : pool.tasks task = .pure ()) (attends : fence.Attends config task program)
    (reached : Program.Reaches (Watch.Step permitted task.2) (program, pool.state) (rest, after)) :
    fence.Lives config permitted start ⟨Function.update pool.tasks task rest, after⟩ := by
  let begun : FencePool := ⟨Function.update pool.tasks task program, pool.state⟩
  have running : begun.tasks task = program := Function.update_self ..
  have moves := @Pool.moves_reaches _ _ _ _ _
    (fun task : AgentTask × String => Watch.Step permitted task.2) (fence.Attends config) begun _ _
    _ _ running reached
  rw [show Function.update begun.tasks task rest = Function.update pool.tasks task rest from
    Function.update_idem ..] at moves
  generalize Pool.mk (Function.update pool.tasks task rest) after = last at moves
  induction moves with
  | refl => exact .move lived (.start idle attends)
  | tail _ moved ih => exact .move ih moved

/-- One operation, with the reply it gets. -/
theorem Watch.reaches_reply {α : Type} {key : String} {operation : AgentOp}
    {next : operation.Reply → AgentProgram α} {before final : Watch} {rest : AgentProgram α}
    (reply : operation.Reply) (after : Watch)
    (performed : Watch.Step permitted key before operation reply after)
    (reached : Program.Reaches (Watch.Step permitted key) (next reply, after) (rest, final)) :
    Program.Reaches (Watch.Step permitted key) (.perform operation next, before) (rest, final) :=
  .head (.perform performed) reached

/-- What is done with the files can be watched. -/
theorem Watch.reaches {α : Type} {key : String} {program rest : AgentProgram α}
    {before after : Holdings} (deeds : List (String × AgentOp))
    (reached : Program.Reaches (Holdings.Step key) (program, before) (rest, after)) :
    ∃ later, Program.Reaches (Watch.Step (fun _ _ _ => True) key) (program, ⟨before, deeds⟩)
      (rest, ⟨after, later⟩) := by
  generalize first : (program, before) = configuration at reached
  induction reached using Relation.ReflTransGen.head_induction_on generalizing program before
    deeds with
  | refl =>
      cases first
      exact ⟨deeds, .refl⟩
  | head next _ ih =>
      cases next with
      | @perform operation _ _ _ _ performed =>
          cases first
          rcases ih (if operation.isDeed then (key, operation) :: deeds else deeds) rfl with
            ⟨later, reached⟩
          exact ⟨later, .head (.perform ⟨trivial, performed, rfl⟩) reached⟩

end Moves

end Runs

/--
While no `StartAttempt` for the fenced key finds the state file unreadable, the
key inactive and room for another run, the record of the fence stays in the spool
as it was abandoned, no directory is moved for its attempt and nothing that names
its mirror is started.
-/
theorem fence_stands (fence : Fence) (config : AgentConfig) (start pool : FencePool)
    (begins : fence.Begins start)
    (lives : fence.Lives config (fence.Busy config) start pool) : fence.Stands pool.state :=
  (lives.secured begins).valid

namespace Sample

/-- The publication of `running` once it is visible. -/
def shown : PublicationState :=
  Agent.inPhase
    (.ofSpec {
      mirror := "demo"
      publicationRoot := "/p"
      publishedDir := "/m/demo"
      candidateDir := "/p/demo/attempts/R-1/root"
      basisDir := "/p/demo/attempts/R-1/basis"
      exchangeDir := "/p/demo/exchange"
      gcDir := "/p/demo/gc" })
    .visiblePendingDurability

/-- It is abandoned by the operator. -/
def abandoned : Fence where
  key := executionKey "R" 1
  record := Agent.fencedRecord running shown "2026-09-03T00:00:00Z"
  publication := Agent.inPhase shown .abandonedFenced
  stored := rfl
  abandoned := rfl
  ended := rfl

/-- The fence is the only file of the spool. -/
def fenced : FencePool where
  tasks := fun _ => .pure ()
  state := {
    holdings := {
      files := Function.update (fun _ => none) (executionKey "R" 1)
        (some (.record abandoned.record))
      active := []
      started := [] }
    deeds := [] }

theorem begins_fenced : abandoned.Begins fenced where
  written := by simp only [fenced, abandoned, Function.update_self]
  idle _ := rfl
  fresh := rfl

end Sample

/--
After a restart two other executions run, and a `StartAttempt` for the fenced key
that cannot read the file leaves it alone.
-/
theorem fence_stands_busy :
    ∃ pool : FencePool, pool.state.holdings.active = ["S-1", "S-2"] ∧
      Sample.abandoned.Stands pool.state := by
  let busy : Watch := ⟨⟨Sample.fenced.state.holdings.files, ["S-1", "S-2"], []⟩, []⟩
  have lived : Sample.abandoned.Lives Sample.roomyConfig
      (Sample.abandoned.Busy Sample.roomyConfig) Sample.fenced ⟨fun _ => .pure (), busy⟩ :=
    .elsewhere (.restart .start) rfl
  have absent : executionKey "R" 1 ∉ ["S-1", "S-2"] := by decide
  have unread := @Fence.Lives.runs Sample.abandoned Sample.roomyConfig _ _ _
    (.poller, executionKey "R" 1) _ (.pure ()) busy lived rfl
    (.accept "R" "hash" 1 none Sample.directSpec) ?_
  · exact ⟨_, rfl, fence_stands _ _ _ _ Sample.begins_fenced unread⟩
  · refine Watch.reaches_reply () busy ⟨trivial, rfl, rfl⟩ ?_
    refine Watch.reaches_reply (.error "unreadable") busy ⟨trivial, ⟨rfl, .inr ⟨_, rfl⟩⟩, rfl⟩
      ?_
    refine Watch.reaches_reply () busy ⟨trivial, rfl, rfl⟩ ?_
    refine Watch.reaches_reply false busy ⟨trivial, ⟨rfl, ?_⟩, rfl⟩ ?_
    · exact (decide_eq_false absent).symm
    refine Watch.reaches_reply (2 : ℕ) busy ⟨fun _ => le_refl 2, ⟨rfl, rfl⟩, rfl⟩ ?_
    refine Watch.reaches_reply () busy ⟨trivial, rfl, rfl⟩ ?_
    exact Watch.reaches_reply () busy ⟨trivial, rfl, rfl⟩ .refl

/-- An agent with room for the attempt writes its rejection over the fence. -/
theorem fence_is_overwritten :
    ¬∀ (fence : Fence) (config : AgentConfig) (start pool : FencePool), fence.Begins start →
      fence.Lives config (fun _ _ _ => True) start pool → fence.Stands pool.state := by
  intro claimed
  have absent : executionKey "R" 1 ∉ Sample.fenced.state.holdings.active := List.not_mem_nil
  have free : ¬Sample.roomyConfig.maxConcurrentRuns ≤
      Sample.fenced.state.holdings.active.length := by decide
  rcases @Service.acceptWithIdentity_writes Sample.roomyConfig _ Sample.fenced.state.holdings "R"
    "hash" 1 none Sample.directSpec absent free with ⟨rest, record, answered, reached⟩
  rcases Watch.reaches [] reached with ⟨deeds, watched⟩
  have lived := @Fence.Lives.runs Sample.abandoned Sample.roomyConfig Sample.fenced Sample.fenced
    _ (.poller, executionKey "R" 1) _ rest _ .start rfl
    (.accept "R" "hash" 1 none Sample.directSpec) watched
  rcases (claimed _ _ _ _ Sample.begins_fenced lived).covered with ⟨fenced, stored, covers⟩
  have overwritten : fenced = record := by
    simpa [Holdings.write, Sample.abandoned, eq_comm] using stored
  subst overwritten
  rcases covers with ⟨_, _, _, rfl⟩
  rcases answered with impossible | impossible <;> cases impossible

end LzuMirror
