import LzuMirror.Agent.Fence

/-!
# The maintenance of a visible publication

A publication whose durability is in doubt stays in phase `VisiblePendingDurability`
until the agent or an operator brings it to an end: the recovery at a restart,
`reconcile_all`, `retry_durability`, and `abandon` with `clear_fence`. The process lock
of the spool keeps the commands and the agent apart, so that they follow one another, but
every one of them can be cut off after any operation, any operation may fail, and between
two of them the directories and the other state files may change.

The maintenance refines a small machine: `Disk.Maintains` has the changes of the durable
record that it makes. From it follows that no directory is moved, that the outcome is
either a success or an abandonment, and that the record leaves the spool after that only.
-/

namespace LzuMirror

namespace Agent

/-! ## The commands -/

/-- The body of `publication::retry_durability` with the record it has read. -/
def retryDurabilityLocked (mirror runId : String) (attempt : ℕ) (specHash : String) :
    Agent Unit := do
  let record ← copy
  let state ← ofExcept (validateExact record mirror runId attempt specHash)
  if state.phase ≠ .visiblePendingDurability then
    fail "retry-durability requires visible_pending_durability"
  else finishVisible

/-- `verify_visible_namespace`. -/
def verifyVisibleNamespace (state : PublicationState) : Agent Unit := do
  let candidate ← context state.candidateIdentity "fence lacks candidate identity"
  if (← identityIfExists state.published) ≠ some candidate then
    fail "fenced candidate identity is not at the published path"
  else
    match state.publishedIdentity with
    | some previous =>
        if (← identityIfExists state.exchange) ≠ some previous then
          fail "stable previous identity does not match the exchange slot"
        else pure ()
    | none =>
        if (← identityIfExists state.exchange).isSome then
          fail "first-publication fence has an unexpected exchange generation"
        else pure ()

/-- A record of another attempt that keeps a fence of the mirror from being cleared. -/
def blocksClearing (mirror : String) (other : SpoolRecord) : Bool :=
  other.requiresPublicationRecovery && other.publication.any fun state => state.mirror = mirror

/-- The end of `clear_fence`: the other records are read, then the fence is retired. -/
def retireFence (mirror : String) : Agent Unit := do
  let others ← ofExcept (← perform .spoolRecords)
  match others.find? (blocksClearing mirror) with
  | some other =>
      fail ("fence-clear blocked by recoverable publication Attempt " ++ other.runId)
  | none =>
      withContext (do ofExcept (← perform .retireSpool)) "retire cleared publication fence"

/-- The body of `publication::clear_fence` with the record it has read. -/
def clearFenceLocked (mirror runId : String) (attempt : ℕ) (specHash : String) :
    Agent Unit := do
  let record ← copy
  let state ← ofExcept (validateExact record mirror runId attempt specHash)
  if state.phase ≠ .abandonedFenced then fail "fence-clear requires abandoned_fenced"
  else if record.acknowledgedSequence < record.sequence ∨
      record.logCompleteAcknowledged = false then
    fail "fence-clear requires acknowledged terminal event and complete log"
  else
    verifyVisibleNamespace state
    retireFence mirror

/-- A command of the operator on the record, under the mirror lock. -/
def maintain (mirror : String) (command : Agent Unit) :
    AgentProgram (Except String SpoolRecord) := do
  LzuMirror.perform (.acquire (.mirror mirror) none)
  match ← LzuMirror.perform .readSpool with
  | .error error =>
      LzuMirror.perform (.release (.mirror mirror))
      pure (.error error)
  | .ok record =>
      let (result, after) ← command.run record
      LzuMirror.perform (.release (.mirror mirror))
      pure (result.map fun _ => after)

/-- `publication::retry_durability`. -/
def retryDurability (mirror runId : String) (attempt : ℕ) (specHash : String) :
    AgentProgram (Except String SpoolRecord) :=
  maintain mirror (retryDurabilityLocked mirror runId attempt specHash)

/-- `publication::clear_fence`. -/
def clearFence (mirror runId : String) (attempt : ℕ) (specHash : String) :
    AgentProgram (Except String SpoolRecord) :=
  maintain mirror (clearFenceLocked mirror runId attempt specHash)

/-- `abandon_publication`; a failed reconciliation does not take the abandonment back. -/
def abandonPublication (config : AgentConfig) (mirror runId : String) (attempt : ℕ)
    (specHash : String) (acknowledgedVisibleRisk : Bool) (responses : List (Except String ℕ)) :
    AgentProgram (Except String (Except String Unit)) :=
  if acknowledgedVisibleRisk = false then
    pure (.error "publication abandon requires --acknowledge-visible-publication-risk")
  else do
    match ← abandon mirror runId attempt specHash with
    | .error error => pure (.error error)
    | .ok record =>
        let (reconciliation, _) ← (reconcileAbandonedTerminal config responses).run record
        pure (.ok reconciliation)

end Agent

/-! ## The runs -/

/-- The operations of the maintenance; the other state files are read by `clear_fence`. -/
def Disk.MaintenanceStep (fresh : PathBuf → FileIdentity) (others : List SpoolRecord) :
    Program.Semantics AgentOp AgentOp.Reply Disk
  | before, .spoolRecords, reply, after => after = before ∧ (reply = .ok others ∨ Failed reply)
  | before, operation, reply, after => Disk.Step fresh True before operation reply after

/-- What the agent and the operator start. -/
inductive Maintenance (config : AgentConfig) : AgentProgram Unit → Prop where
  | recover : Maintenance config (Service.recover config)
  | reconcileAll : Maintenance config (Service.reconcileAll config)
  | retry (mirror runId specHash : String) (attempt : ℕ) :
      Maintenance config (discard (Agent.retryDurability mirror runId attempt specHash))
  | abandon (mirror runId specHash : String) (attempt : ℕ) (acknowledgedVisibleRisk : Bool)
      (responses : List (Except String ℕ)) :
      Maintenance config (discard (Agent.abandonPublication config mirror runId attempt specHash
        acknowledgedVisibleRisk responses))
  | clear (mirror runId specHash : String) (attempt : ℕ) :
      Maintenance config (discard (Agent.clearFence mirror runId attempt specHash))

/-- A program under way, the records of the other state files, and the disk. -/
inductive Maintenance.Runs (config : AgentConfig) (fresh : PathBuf → FileIdentity)
    (start : Disk) : AgentProgram Unit → List SpoolRecord → Disk → Prop where
  | start (others : List SpoolRecord) : Runs config fresh start (.pure ()) others start
  -- the program before has ended or was cut off
  | session {program next : AgentProgram Unit} {earlier others : List SpoolRecord} {disk : Disk}
      (ran : Runs config fresh start program earlier disk) (starts : Maintenance config next)
      (fs : PathBuf → Option FileIdentity) :
      Runs config fresh start next others { disk with fs }
  | perform {operation : AgentOp} {next : operation.Reply → AgentProgram Unit}
      {others : List SpoolRecord} {disk after : Disk} {reply : operation.Reply}
      (ran : Runs config fresh start (.perform operation next) others disk)
      (performed : Disk.MaintenanceStep fresh others disk operation reply after) :
      Runs config fresh start (next reply) others after

/-! ## The machine -/

/-- What has become of the publication. -/
inductive Verdict where
  | pending
  | committed
  | abandoned
  deriving DecidableEq, Repr

/-- The phase of the durable record. -/
def Verdict.phase : Verdict → PublicationPhase
  | .pending => .visiblePendingDurability
  | .committed => .committedPendingReport
  | .abandoned => .abandonedFenced

/-- The result of the attempt. -/
def Verdict.Ends (origin record : SpoolRecord) : Verdict → Prop
  | .pending => record.state = origin.state
  | .committed => record.state = .succeeded
  | .abandoned => record.state = .failed ∧ record.failureKind = some .publicationDurability

/-- The record of the publication with this verdict. -/
structure Verdict.Fits (origin : SpoolRecord) (verdict : Verdict) (record : SpoolRecord) :
    Prop where
  runId : record.runId = origin.runId
  attempt : record.attempt = origin.attempt
  specHash : record.specHash = origin.specHash
  publication : record.publication = origin.publication.map fun state =>
    Agent.inPhase state verdict.phase
  ends : verdict.Ends origin record

/-- The namespace that `clear_fence` asks for. -/
structure PublicationState.IsVisible (state : PublicationState)
    (fs : PathBuf → Option FileIdentity) : Prop where
  candidate : state.candidateIdentity ≠ none
  published : fs state.published = state.candidateIdentity
  exchange : fs state.exchange = state.publishedIdentity

/-- The changes of the disk that the maintenance makes. -/
inductive Disk.Maintains (others : List SpoolRecord) (before : Disk) : Disk → Prop where
  | still : Maintains others before before
  | synced (directory : PathBuf) : Maintains others before (before.sync directory)
  | reported {record : SpoolRecord} (durable : before.spool = some record)
      (sequence offset : ℕ) (complete : Bool) :
      Maintains others before (before.write (record.reported sequence offset complete))
  | commits {record : SpoolRecord} {state : PublicationState} (durable : before.spool = some record)
      (stored : record.publication = some state)
      (pending : state.phase = .visiblePendingDurability)
      (known : state.candidateIdentity ≠ none)
      (visible : before.fs state.published = state.candidateIdentity) (time : String) :
      Maintains others before (before.write ((record.withPublication
        (Agent.inPhase state .committedPendingReport)).terminal .succeeded (some 0) none none time))
  | abandons {record : SpoolRecord} {state : PublicationState} (durable : before.spool = some record)
      (stored : record.publication = some state)
      (pending : state.phase = .visiblePendingDurability) (time : String) :
      Maintains others before (before.write (Agent.fencedRecord record state time))
  | retires {record : SpoolRecord} (durable : before.spool = some record)
      (ready : record.readyForCleanup = true) : Maintains others before before.retire
  | clears {record : SpoolRecord} {state : PublicationState} (durable : before.spool = some record)
      (stored : record.publication = some state) (abandoned : state.phase = .abandonedFenced)
      (acknowledged : record.sequence ≤ record.acknowledgedSequence)
      (complete : record.logCompleteAcknowledged = true) (visible : state.IsVisible before.fs)
      (alone : ∀ other ∈ others, Agent.blocksClearing state.mirror other = false) :
      Maintains others before before.retire

/-- What the maintenance has done to a publication since it was left pending. -/
structure Maintained (origin : SpoolRecord) (start : Disk) (verdict : Verdict) (disk : Disk) :
    Prop where
  -- nothing is moved, and nothing is written that another verdict would need
  history : ∃ later, disk.history = later ++ start.history ∧ ∀ event ∈ later,
    event.change.moves = false ∧ ∀ record, event.change = .wrote record →
      ∃ known : Verdict, (known = .pending ∨ known = verdict) ∧ known.Fits origin record
  spool : (∃ record, disk.spool = some record ∧ verdict.Fits origin record) ∨
    disk.spool = none ∧ verdict ≠ .pending

section Machine

variable {origin record : SpoolRecord} {start before after disk : Disk} {verdict : Verdict}
  {state : PublicationState} {others : List SpoolRecord}

theorem Verdict.Fits.inPhase (fits : verdict.Fits origin record)
    (stored : record.publication = some state) :
    ∃ first, origin.publication = some first ∧ state = Agent.inPhase first verdict.phase := by
  have known := fits.publication.symm.trans stored
  rcases Option.map_eq_some_iff.mp known with ⟨first, isFirst, same⟩
  exact ⟨first, isFirst, same.symm⟩

theorem Verdict.Fits.phase (fits : verdict.Fits origin record)
    (stored : record.publication = some state) : state.phase = verdict.phase := by
  rcases fits.inPhase stored with ⟨first, _, rfl⟩
  rfl

theorem Verdict.phase_injective {first second : Verdict} (same : first.phase = second.phase) :
    first = second := by
  cases first <;> cases second <;> first | rfl | cases same

theorem Verdict.Fits.reported (fits : verdict.Fits origin record) (sequence offset : ℕ)
    (complete : Bool) : verdict.Fits origin (record.reported sequence offset complete) where
  runId := fits.runId
  attempt := fits.attempt
  specHash := fits.specHash
  publication := fits.publication
  ends := by
    have ends := fits.ends
    cases verdict <;> exact ends

theorem SpoolRecord.unready_of_pending (stored : record.publication = some state)
    (pending : state.phase = .visiblePendingDurability) : record.readyForCleanup = false := by
  simp [SpoolRecord.readyForCleanup, SpoolRecord.hasProtectedPublicationEvidence, stored, pending,
    PublicationPhase.isProtected]

theorem Verdict.Fits.stored (fits : verdict.Fits origin record)
    (atomic : origin.publication ≠ none) : ∃ state, record.publication = some state := by
  rcases Option.ne_none_iff_exists'.mp atomic with ⟨first, isFirst⟩
  have known := fits.publication
  rw [isFirst] at known
  exact ⟨_, known⟩

/-- A change of the history that moves nothing. -/
theorem Maintained.logs {change : DiskChange} {next : Verdict}
    (maintained : Maintained origin start verdict before)
    (forward : next = verdict ∨ verdict = .pending) (still : change.moves = false)
    (wrote : ∀ record, change = .wrote record → next.Fits origin record) :
    ∃ later, before.log change = later ++ start.history ∧ ∀ event ∈ later,
      event.change.moves = false ∧ ∀ record, event.change = .wrote record →
        ∃ known : Verdict, (known = .pending ∨ known = next) ∧ known.Fits origin record := by
  rcases maintained.history with ⟨later, split, each⟩
  refine ⟨⟨change, before.spool⟩ :: later, by simp [Disk.log, split], ?_⟩
  intro event listed
  rcases List.mem_cons.mp listed with rfl | earlier
  · exact ⟨still, fun record made => ⟨next, .inr rfl, wrote record made⟩⟩
  · refine ⟨(each event earlier).1, fun record made => ?_⟩
    rcases (each event earlier).2 record made with ⟨known, was, fits⟩
    refine ⟨known, ?_, fits⟩
    rcases forward with rfl | rfl
    · exact was
    · exact .inl (by simpa using was)

theorem Maintained.write {next : Verdict} (maintained : Maintained origin start verdict before)
    (forward : next = verdict ∨ verdict = .pending) (fits : next.Fits origin record) :
    Maintained origin start next (before.write record) where
  history := maintained.logs forward rfl (by
    intro written made
    cases made
    exact fits)
  spool := .inl ⟨record, rfl, fits⟩

theorem Maintained.retire (maintained : Maintained origin start verdict before)
    (decided : verdict ≠ .pending) : Maintained origin start verdict before.retire where
  history := maintained.logs (.inl rfl) rfl (by simp)
  spool := .inr ⟨rfl, decided⟩

theorem Maintained.durable (maintained : Maintained origin start verdict before)
    (durable : before.spool = some record) : verdict.Fits origin record := by
  rcases maintained.spool with ⟨known, isKnown, fits⟩ | ⟨gone, _⟩
  · rw [durable] at isKnown
    exact Option.some.inj isKnown ▸ fits
  · simp [durable] at gone

/-- Each change of the machine keeps the verdict or gives one. -/
theorem Maintained.step (maintained : Maintained origin start verdict before)
    (atomic : origin.publication ≠ none) (change : before.Maintains others after) :
    ∃ next, Maintained origin start next after ∧ (next = verdict ∨ verdict = .pending) := by
  cases change with
  | still => exact ⟨verdict, maintained, .inl rfl⟩
  | synced directory =>
      refine ⟨verdict, ⟨maintained.logs (.inl rfl) rfl (by simp), maintained.spool⟩, .inl rfl⟩
  | reported durable sequence offset complete =>
      have fits := (maintained.durable durable).reported sequence offset complete
      exact ⟨verdict, maintained.write (.inl rfl) fits, .inl rfl⟩
  | commits durable stored pending known visible time =>
      have fits := maintained.durable durable
      have was : verdict = .pending := Verdict.phase_injective ((fits.phase stored).symm.trans pending)
      rcases fits.inPhase stored with ⟨first, isFirst, rfl⟩
      refine ⟨.committed, maintained.write (.inr was) ?_, .inr was⟩
      exact ⟨fits.runId, fits.attempt, fits.specHash, by rw [isFirst]; rfl, rfl⟩
  | abandons durable stored pending time =>
      have fits := maintained.durable durable
      have was : verdict = .pending := Verdict.phase_injective ((fits.phase stored).symm.trans pending)
      rcases fits.inPhase stored with ⟨first, isFirst, rfl⟩
      refine ⟨.abandoned, maintained.write (.inr was) ?_, .inr was⟩
      exact ⟨fits.runId, fits.attempt, fits.specHash, by rw [isFirst]; rfl, rfl, rfl⟩
  | @retires record durable ready =>
      refine ⟨verdict, maintained.retire ?_, .inl rfl⟩
      rintro rfl
      rcases (maintained.durable durable).stored atomic with ⟨state, stored⟩
      have pending := (maintained.durable durable).phase stored
      simp [SpoolRecord.unready_of_pending stored pending] at ready
  | clears durable stored abandoned =>
      refine ⟨verdict, maintained.retire ?_, .inl rfl⟩
      rintro rfl
      simp [(maintained.durable durable).phase stored, Verdict.phase] at abandoned

end Machine

/-! ## The commands refine the machine -/

/-- A program of the maintenance that runs by itself. -/
def maintenance (fresh : PathBuf → FileIdentity) (others : List SpoolRecord)
    (origin : SpoolRecord) (start : Disk) : Setting Disk where
  step := Disk.MaintenanceStep fresh others
  rely := Eq
  guarantee := Disk.Maintains others
  invariant disk := ∃ verdict, Maintained origin start verdict disk

/-- The copy is the durable record, or one from before the outcome. -/
def Timely (copy : SpoolRecord) (disk : Disk) : Prop :=
  disk.spool = some copy ∨ copy.readyForCleanup = false

namespace Agent

section Commands

variable {α : Type} {fresh : PathBuf → FileIdentity} {others : List SpoolRecord}
  {origin record : SpoolRecord} {start disk : Disk}
  (atomic : origin.publication ≠ none)

include atomic

/-- An operation whose effect is a change of the machine. -/
theorem maintenance_perform {operation : AgentOp}
    {post : Except String operation.Reply → SpoolRecord → Disk → Prop}
    (performs : ∀ reply after, Disk.MaintenanceStep fresh others disk operation reply after →
      disk.Maintains others after ∧ post (.ok reply) record after) :
    Holds (maintenance fresh others origin start) (perform operation) post record disk := by
  refine holds_perform ?_
  rintro _ reply after rfl ⟨verdict, maintained⟩ performed
  rcases performs reply after performed with ⟨change, holds⟩
  rcases maintained.step atomic change with ⟨next, kept, _⟩
  exact ⟨⟨change, next, kept⟩, holds⟩

/-- An operation that leaves the disk as it is. -/
theorem maintenance_aside {operation : AgentOp}
    {post : Except String operation.Reply → SpoolRecord → Disk → Prop}
    (aside : ∀ reply after, Disk.MaintenanceStep fresh others disk operation reply after →
      after = disk)
    (holds : ∀ reply, Disk.MaintenanceStep fresh others disk operation reply disk →
      post (.ok reply) record disk) :
    Holds (maintenance fresh others origin start) (perform operation) post record disk := by
  refine maintenance_perform atomic fun reply after performed => ?_
  have same := aside reply after performed
  rw [same] at performed ⊢
  exact ⟨.still, holds reply performed⟩

theorem maintenance_locked {lock : AgentLock} {computation : Agent α}
    {post : Except String α → SpoolRecord → Disk → Prop}
    (holds : Holds (maintenance fresh others origin start) computation post record disk) :
    Holds (maintenance fresh others origin start) (locked lock computation) post record disk := by
  refine holds_bind.mpr (maintenance_aside atomic (fun _ _ same => same) fun _ _ => ?_)
  refine then_ok.mpr (holds_bind.mpr (holds_attempt.mpr (holds.imp ?_)))
  intro result copy after holds
  refine then_ok.mpr (holds_bind.mpr (maintenance_aside atomic (fun _ _ same => same) fun _ _ => ?_))
  exact then_ok.mpr (holds_ofExcept.mpr holds)

theorem maintenance_identityIfExists {path : PathBuf}
    {post : Except String (Option FileIdentity) → SpoolRecord → Disk → Prop}
    (ok : post (.ok (disk.fs path)) record disk)
    (error : ∀ message, post (.error message) record disk) :
    Holds (maintenance fresh others origin start) (identityIfExists path) post record disk := by
  refine holds_bind.mpr (maintenance_aside atomic (fun _ _ step => step.1) fun reply step => ?_)
  refine then_ok.mpr (holds_ofExcept.mpr ?_)
  rcases step.2 with rfl | ⟨_, message, rfl⟩
  · exact ok
  · exact error message

/-- A record is written that the machine writes. -/
theorem maintenance_write {next : SpoolRecord}
    {post : Except String Unit → SpoolRecord → Disk → Prop}
    (change : disk.Maintains others (disk.write next)) (ok : post (.ok ()) record (disk.write next))
    (error : ∀ message after, after = disk ∨ after = disk.write next →
      post (.error message) record after) :
    Holds (maintenance fresh others origin start) (write next) post record disk := by
  refine holds_bind.mpr (maintenance_perform atomic ?_)
  rintro reply after (⟨_, rfl, rfl⟩ | ⟨impossible, _⟩ | ⟨_, ⟨message, rfl⟩, rfl | ⟨_, rfl⟩⟩)
  · exact ⟨change, ok⟩
  · exact absurd trivial impossible
  · exact ⟨.still, error message _ (.inl rfl)⟩
  · exact ⟨change, error message _ (.inr rfl)⟩

theorem maintenance_syncAll {paths : List PathBuf}
    {post : Except String Unit → SpoolRecord → Disk → Prop}
    (ok : ∀ after, after.spool = disk.spool → after.fs = disk.fs → post (.ok ()) record after)
    (error : ∀ message after, after.spool = disk.spool → after.fs = disk.fs →
      post (.error message) record after) :
    Holds (maintenance fresh others origin start) (syncAll paths) post record disk := by
  induction paths generalizing disk with
  | nil => exact ok disk rfl rfl
  | cons path rest ih =>
      refine holds_bind.mpr (holds_bind.mpr (maintenance_perform atomic ?_))
      rintro reply after (⟨_, rfl, rfl⟩ | ⟨impossible, _⟩ | ⟨_, ⟨message, rfl⟩, rfl | ⟨_, rfl⟩⟩)
      · exact ⟨.synced path, ih ok error⟩
      · exact absurd trivial impossible
      · exact ⟨.still, error message _ rfl rfl⟩
      · exact ⟨.synced path, error message _ rfl rfl⟩

omit atomic in
theorem holds_parent {σ : Type} {setting : Setting σ} {state : σ} {path : PathBuf}
    {post : Except String PathBuf → SpoolRecord → σ → Prop}
    (ok : ∀ directory, post (.ok directory) record state)
    (error : ∀ message, post (.error message) record state) :
    Holds setting (parent path) post record state := by
  unfold parent
  cases path.parent with
  | none => exact error _
  | some directory => exact ok directory

/-- A record that is pending is written once more. -/
theorem maintenance_persistPendingDurability {state : PublicationState}
    (durable : disk.spool = some record) (stored : record.publication = some state)
    (pending : state.phase = .visiblePendingDurability) :
    Holds (maintenance fresh others origin start) persistPendingDurability
      (fun _ copy after => Timely copy after) record disk := by
  have late : ∀ after, Timely record after := fun _ =>
    .inr (SpoolRecord.unready_of_pending stored pending)
  have same : record.withPublication (inPhase state .visiblePendingDurability) =
      record.reported record.acknowledgedSequence record.logOffset
        record.logCompleteAcknowledged := by
    have state_ : inPhase state .visiblePendingDurability = state := by
      rw [← pending]
      rfl
    rw [state_, SpoolRecord.withPublication, ← stored]
    rfl
  refine holds_bind.mpr (holds_copy.mpr (then_ok.mpr ?_))
  rw [stored]
  refine holds_bind.mpr (holds_context_some.mpr (then_ok.mpr ?_))
  refine holds_bind.mpr (holds_attempt.mpr (maintenance_write atomic ?_ ?_ ?_))
  · rw [same]
    exact .reported durable _ _ _
  · exact .inl rfl
  · exact fun _ after _ => late after

/-- `finish_visible` of a publication that is pending. -/
theorem maintenance_finishVisible {state : PublicationState} (durable : disk.spool = some record)
    (stored : record.publication = some state)
    (pending : state.phase = .visiblePendingDurability) :
    Holds (maintenance fresh others origin start) finishVisible
      (fun _ copy after => Timely copy after) record disk := by
  have late : ∀ after, Timely record after := fun _ =>
    .inr (SpoolRecord.unready_of_pending stored pending)
  unfold finishVisible
  refine holds_bind.mpr (holds_bind.mpr (holds_copy.mpr (then_ok.mpr ?_)))
  rw [stored]
  refine holds_context_some.mpr (then_ok.mpr ?_)
  cases known : state.candidateIdentity with
  | none => exact late disk
  | some candidate =>
  refine holds_bind.mpr (holds_context_some.mpr (then_ok.mpr ?_))
  refine holds_bind.mpr (maintenance_identityIfExists atomic ?_ fun _ => late disk)
  rw [then_ok]
  split
  · exact late disk
  next visible =>
    simp only [ne_eq, not_not] at visible
    refine holds_bind.mpr (holds_parent (fun _ => then_ok.mpr ?_) fun _ => late disk)
    refine holds_bind.mpr (holds_parent (fun _ => then_ok.mpr ?_) fun _ => late disk)
    refine holds_bind.mpr (holds_attempt.mpr (maintenance_syncAll atomic ?_ ?_))
    · intro synced sameSpool sameFs
      have commits : ∀ time, synced.Maintains others (synced.write ((record.withPublication
          (inPhase state .committedPendingReport)).terminal .succeeded (some 0) none none time)) :=
        .commits (sameSpool.trans durable) stored pending (by simp [known])
          (by rw [sameFs, visible, known])
      refine then_ok.mpr (holds_bind.mpr (holds_copy.mpr (then_ok.mpr ?_)))
      refine holds_bind.mpr (maintenance_aside atomic (fun _ _ same => same) fun time _ => ?_)
      refine then_ok.mpr (holds_bind.mpr (holds_withContext ?_))
      exact maintenance_write atomic (commits time) (.inl rfl) fun _ after _ => late after
    · intro _ synced sameSpool _
      refine then_ok.mpr (holds_bind.mpr ((maintenance_persistPendingDurability atomic
        (sameSpool.trans durable) stored pending).imp ?_))
      rintro (message | _) copy after holds
      · exact holds
      · exact holds

/-! ### The agent -/

section Recovery

variable {verdict : Verdict} (durable : disk.spool = some record)
  (fits : verdict.Fits origin record)

include durable fits

omit atomic in
theorem maintenance_ensureCommittedTerminal (committed : verdict = .committed) :
    Holds (maintenance fresh others origin start) ensureCommittedTerminal
      (fun _ copy after => Timely copy after) record disk := by
  refine holds_bind.mpr (holds_copy.mpr (then_ok.mpr ?_))
  have succeeded : record.state = .succeeded := by
    have ends := fits.ends
    rw [committed] at ends
    exact ends
  rw [if_pos succeeded]
  exact .inl durable

/-- A recovery finishes a pending publication and keeps the outcome of another. -/
theorem maintenance_recovery {recovery : PublicationState → Agent Unit}
    (finishes : ∀ state, state.phase = .visiblePendingDurability → recovery state = finishVisible)
    (ensures : ∀ state, state.phase = .committedPendingReport →
      recovery state = ensureCommittedTerminal)
    (leaves : ∀ state, state.phase = .abandonedFenced → recovery state = pure ()) :
    Holds (maintenance fresh others origin start)
      (copy >>= fun record => match record.publication with
        | none => pure ()
        | some publication => recovery publication)
      (fun _ copy after => Timely copy after) record disk := by
  rcases fits.stored atomic with ⟨state, stored⟩
  have phase := fits.phase stored
  refine holds_bind.mpr (holds_copy.mpr (then_ok.mpr ?_))
  rw [stored]
  cases verdict with
  | pending =>
      simp only [finishes state phase]
      exact maintenance_finishVisible atomic durable stored phase
  | committed =>
      simp only [ensures state phase]
      exact maintenance_ensureCommittedTerminal durable fits rfl
  | abandoned =>
      simp only [leaves state phase]
      exact .inl durable

theorem maintenance_recoverLocked :
    Holds (maintenance fresh others origin start) recoverLocked
      (fun _ copy after => Timely copy after) record disk := by
  apply maintenance_recovery atomic durable fits
  · intro state phase
    simp only [phase]
  · intro state phase
    simp only [phase]
  · intro state phase
    simp only [phase]

theorem maintenance_recoverBeforeControlPlaneLocked :
    Holds (maintenance fresh others origin start) recoverBeforeControlPlaneLocked
      (fun _ copy after => Timely copy after) record disk := by
  apply maintenance_recovery atomic durable fits
  · intro state phase
    simp only [phase]
  · intro state phase
    simp only [phase]
  · intro state phase
    simp only [phase]

/-- Either recovery under the mirror lock. -/
theorem maintenance_recovers (synchronized : Bool) :
    Holds (maintenance fresh others origin start)
      (if synchronized then recover else recoverBeforeControlPlane)
      (fun _ copy after => Timely copy after) record disk := by
  have named : ∀ missing, Holds (maintenance fresh others origin start) (publicationState missing)
      (fun result copy after => ∃ state, result = .ok state ∧ copy = record ∧ after = disk) record
        disk := by
    intro missing
    rcases fits.stored atomic with ⟨state, stored⟩
    refine holds_bind.mpr (holds_copy.mpr (then_ok.mpr ?_))
    rw [stored]
    exact ⟨state, rfl, rfl, rfl⟩
  split
  · refine holds_bind.mpr ((named _).imp ?_)
    rintro _ _ _ ⟨state, rfl, rfl, rfl⟩
    exact maintenance_locked atomic (maintenance_recoverLocked atomic durable fits)
  · refine holds_bind.mpr ((named _).imp ?_)
    rintro _ _ _ ⟨state, rfl, rfl, rfl⟩
    exact maintenance_locked atomic (maintenance_recoverBeforeControlPlaneLocked atomic durable fits)

end Recovery

/-- The spool file is read under the acceptance lock, and the change of it is written. -/
theorem maintenance_updateLatest {change : SpoolRecord → SpoolRecord}
    (changes : ∀ latest, ∃ sequence offset complete,
      change latest = latest.reported sequence offset complete) :
    Holds (maintenance fresh others origin start) (Service.updateLatest change)
      (fun result copy after => result = .ok () → Timely copy after) record disk := by
  refine maintenance_locked atomic ?_
  refine holds_bind.mpr (maintenance_aside atomic (fun _ _ step => step.1) fun reply step => ?_)
  refine then_ok.mpr (holds_bind.mpr (holds_ofExcept.mpr ?_))
  rcases step.2 with ⟨latest, durable, rfl⟩ | ⟨_, message, rfl⟩
  · rcases changes latest with ⟨sequence, offset, complete, changed⟩
    refine then_ok.mpr (holds_bind.mpr ?_)
    rw [changed]
    refine maintenance_write atomic (.reported durable _ _ _) (fun _ => .inl rfl) ?_
    intro message after _ impossible
    cases impossible
  · intro impossible
    cases impossible

/-- The record is removed where the machine removes it. -/
theorem maintenance_retire (change : disk.Maintains others disk.retire) :
    Holds (maintenance fresh others origin start) (do ofExcept (← perform .retireSpool))
      (fun _ _ _ => True) record disk := by
  refine holds_bind.mpr (maintenance_perform atomic ?_)
  rintro reply after (⟨_, rfl, rfl⟩ | ⟨_, ⟨message, rfl⟩, rfl⟩ | ⟨_, ⟨message, rfl⟩, rfl | ⟨_, rfl⟩⟩)
  · exact ⟨change, trivial⟩
  · exact ⟨.still, trivial⟩
  · exact ⟨.still, trivial⟩
  · exact ⟨change, trivial⟩

/-- A copy that is ready for it is the durable record. -/
theorem maintenance_retireIfReady (timely : Timely record disk) :
    Holds (maintenance fresh others origin start) Service.retireIfReady (fun _ _ _ => True) record
      disk := by
  refine holds_bind.mpr (holds_copy.mpr (then_ok.mpr ?_))
  split
  next ready =>
    have durable := timely.resolve_right (by simp [ready])
    exact maintenance_retire atomic (.retires durable ready)
  · exact trivial

theorem maintenance_reconcileEvent {config : AgentConfig} (timely : Timely record disk) :
    Holds (maintenance fresh others origin start) (Service.reconcileEvent config)
      (fun result copy after => result = .ok () → Timely copy after) record disk := by
  refine holds_bind.mpr (holds_copy.mpr (then_ok.mpr ?_))
  split
  · refine holds_bind.mpr (maintenance_aside atomic (fun _ _ same => same) fun reply _ => ?_)
    refine then_ok.mpr (holds_bind.mpr (holds_ofExcept.mpr ?_))
    rcases reply with message | _ | _
    · intro impossible
      cases impossible
    · exact fun _ => timely
    · exact maintenance_updateLatest atomic fun latest => ⟨_, _, _, rfl⟩
  · exact fun _ => timely

theorem maintenance_nextChunk {offset length : ℕ}
    {post : Except String (List UInt8) → SpoolRecord → Disk → Prop}
    (holds : ∀ result, post result record disk) :
    Holds (maintenance fresh others origin start) (Service.nextChunk offset length) post record
      disk := by
  unfold Service.nextChunk
  split
  · exact holds _
  · refine holds_bind.mpr (maintenance_aside atomic (fun _ _ same => same) fun reply _ => ?_)
    exact then_ok.mpr (holds_ofExcept.mpr (holds reply))

theorem maintenance_reconcileLog (timely : Timely record disk) :
    Holds (maintenance fresh others origin start) Service.reconcileLog
      (fun result copy after => result = .ok () → Timely copy after) record disk := by
  refine holds_bind.mpr (maintenance_aside atomic (fun _ _ same => same) fun stored _ => ?_)
  refine then_ok.mpr (holds_bind.mpr (holds_ofExcept.mpr ?_))
  rcases stored with message | length
  · intro impossible
    cases impossible
  refine then_ok.mpr (holds_bind.mpr (holds_copy.mpr (then_ok.mpr ?_)))
  split
  · intro impossible
    cases impossible
  split
  · refine holds_bind.mpr (maintenance_nextChunk atomic fun result => ?_)
    rcases result with message | bytes
    · intro impossible
      cases impossible
    refine then_ok.mpr (holds_bind.mpr
      (maintenance_aside atomic (fun _ _ same => same) fun reply _ => ?_))
    refine then_ok.mpr (holds_bind.mpr (holds_ofExcept.mpr ?_))
    rcases reply with message | _ | header
    · intro impossible
      cases impossible
    · exact fun _ => timely
    · exact maintenance_updateLatest atomic fun latest => ⟨_, _, _, rfl⟩
  · exact fun _ => timely

theorem maintenance_reconcile {config : AgentConfig} (timely : Timely record disk) :
    Holds (maintenance fresh others origin start) (Service.reconcile config) (fun _ _ _ => True)
      record disk := by
  refine holds_bind.mpr ((maintenance_reconcileEvent atomic timely).imp ?_)
  rintro (message | _) copy after reported
  · exact trivial
  refine then_ok.mpr (holds_bind.mpr ((maintenance_reconcileLog atomic (reported rfl)).imp ?_))
  rintro (message | _) last final logged
  · exact trivial
  · exact maintenance_retireIfReady atomic (logged rfl)

/-! ### The operator -/

omit atomic in
theorem validateExact_stored {mirror runId specHash : String} {attempt : ℕ}
    {state : PublicationState}
    (valid : validateExact record mirror runId attempt specHash = .ok state) :
    record.publication = some state := by
  unfold validateExact at valid
  split at valid
  · cases valid
  next stored =>
    split at valid
    · cases valid
    · cases valid
      exact stored

theorem maintenance_retryDurability {mirror runId specHash : String} {attempt : ℕ}
    (durable : disk.spool = some record) :
    Holds (maintenance fresh others origin start)
      (retryDurabilityLocked mirror runId attempt specHash) (fun _ _ _ => True) record disk := by
  refine holds_bind.mpr (holds_copy.mpr (then_ok.mpr (holds_bind.mpr (holds_ofExcept.mpr ?_))))
  cases valid : validateExact record mirror runId attempt specHash with
  | error message => exact trivial
  | ok state =>
      rw [then_ok]
      split
      · exact trivial
      next pending =>
        simp only [ne_eq, not_not] at pending
        exact (maintenance_finishVisible atomic durable (validateExact_stored valid) pending).imp
          fun _ _ _ _ => trivial

theorem maintenance_verifyVisibleNamespace {state : PublicationState} :
    Holds (maintenance fresh others origin start) (verifyVisibleNamespace state)
      (fun result copy after => after = disk ∧ copy = record ∧
        (result = .ok () → state.IsVisible disk.fs)) record disk := by
  have fails : ∀ message : String, disk = disk ∧ record = record ∧
      (Except.error message = Except.ok () → state.IsVisible disk.fs) := by
    intro message
    refine ⟨rfl, rfl, fun impossible => ?_⟩
    cases impossible
  unfold verifyVisibleNamespace
  cases known : state.candidateIdentity with
  | none => exact fails _
  | some candidate =>
  refine holds_bind.mpr (holds_context_some.mpr (then_ok.mpr ?_))
  refine holds_bind.mpr (maintenance_identityIfExists atomic ?_ fails)
  rw [then_ok]
  split
  · exact fails _
  next published =>
    simp only [ne_eq, not_not] at published
    split
    next previous stable =>
      refine holds_bind.mpr (maintenance_identityIfExists atomic ?_ fails)
      rw [then_ok]
      split
      · exact fails _
      next same =>
        simp only [ne_eq, not_not] at same
        exact ⟨rfl, rfl, fun _ => ⟨by simp [known], published.trans known.symm,
          same.trans stable.symm⟩⟩
    next first =>
      refine holds_bind.mpr (maintenance_identityIfExists atomic ?_ fails)
      rw [then_ok]
      split
      · exact fails _
      next free =>
        simp only [Bool.not_eq_true, Option.isSome_eq_false_iff, Option.isNone_iff_eq_none] at free
        exact ⟨rfl, rfl, fun _ => ⟨by simp [known], published.trans known.symm,
          free.trans first.symm⟩⟩

theorem maintenance_retireFence {mirror : String} {state : PublicationState}
    (durable : disk.spool = some record) (stored : record.publication = some state)
    (named : state.mirror = mirror) (abandoned : state.phase = .abandonedFenced)
    (acknowledged : record.sequence ≤ record.acknowledgedSequence)
    (complete : record.logCompleteAcknowledged = true) (visible : state.IsVisible disk.fs) :
    Holds (maintenance fresh others origin start) (retireFence mirror) (fun _ _ _ => True) record
      disk := by
  refine holds_bind.mpr (maintenance_aside atomic (fun _ _ step => step.1) fun reply step => ?_)
  refine then_ok.mpr (holds_bind.mpr (holds_ofExcept.mpr ?_))
  rcases step.2 with rfl | ⟨message, rfl⟩
  · rw [then_ok]
    split
    · exact trivial
    next alone =>
      have clears : disk.Maintains others disk.retire := by
        refine .clears durable stored abandoned acknowledged complete visible ?_
        intro other listed
        rw [named]
        simpa using List.find?_eq_none.mp alone other listed
      refine holds_withContext ((maintenance_retire atomic clears).imp ?_)
      rintro (message | _) copy after _
      · exact trivial
      · exact trivial
  · exact trivial

theorem maintenance_clearFence {mirror runId specHash : String} {attempt : ℕ}
    (durable : disk.spool = some record) :
    Holds (maintenance fresh others origin start) (clearFenceLocked mirror runId attempt specHash)
      (fun _ _ _ => True) record disk := by
  refine holds_bind.mpr (holds_copy.mpr (then_ok.mpr (holds_bind.mpr (holds_ofExcept.mpr ?_))))
  cases valid : validateExact record mirror runId attempt specHash with
  | error message => exact trivial
  | ok state =>
      rw [then_ok]
      split
      · exact trivial
      next abandoned =>
        simp only [ne_eq, not_not] at abandoned
        split
        · exact trivial
        next acknowledged =>
          simp only [not_or, not_lt, Bool.not_eq_false] at acknowledged
          refine holds_bind.mpr ((maintenance_verifyVisibleNamespace atomic).imp ?_)
          rintro (message | _) copy after ⟨rfl, rfl, visible⟩
          · exact trivial
          · exact maintenance_retireFence atomic durable (validateExact_stored valid)
              (validateExact_eq_ok valid) abandoned acknowledged.1 acknowledged.2 (visible rfl)

theorem maintenance_reconcileAbandonedTerminal {config : AgentConfig}
    {responses : List (Except String ℕ)} :
    Holds (maintenance fresh others origin start) (reconcileAbandonedTerminal config responses)
      (fun _ _ _ => True) record disk := by
  induction responses generalizing record disk with
  | nil => exact trivial
  | cons response later ih =>
      refine holds_bind.mpr (holds_copy.mpr (then_ok.mpr ?_))
      split
      · refine holds_bind.mpr (maintenance_aside atomic (fun _ _ same => same) fun reply _ => ?_)
        refine then_ok.mpr (holds_bind.mpr (holds_ofExcept.mpr ?_))
        rcases reply with message | _ | _
        · exact trivial
        · exact trivial
        refine then_ok.mpr (holds_bind.mpr (holds_ofExcept.mpr ?_))
        rcases response with message | accepted
        · exact trivial
        rw [then_ok]
        split
        · exact trivial
        refine holds_bind.mpr (maintenance_aside atomic (fun _ _ step => step.1) fun reply step => ?_)
        refine then_ok.mpr (holds_bind.mpr (holds_ofExcept.mpr ?_))
        rcases step.2 with ⟨latest, durable, rfl⟩ | ⟨_, message, rfl⟩
        · refine then_ok.mpr (holds_bind.mpr (maintenance_write atomic
            (.reported durable _ latest.logOffset latest.logCompleteAcknowledged) ?_ ?_))
          · exact then_ok.mpr (holds_bind.mpr (holds_setCopy.mpr (then_ok.mpr ih)))
          · exact fun _ _ _ => trivial
        · exact trivial
      · exact trivial

end Commands

end Agent

/-! ### The programs -/

section Programs

variable {fresh : PathBuf → FileIdentity} {others : List SpoolRecord} {origin : SpoolRecord}
  {start disk : Disk} {verdict : Verdict} {config : AgentConfig} {α : Type}

/-- A program of the maintenance that makes changes of the machine only. -/
abbrev Upholds (fresh : PathBuf → FileIdentity) (others : List SpoolRecord) (origin : SpoolRecord)
    (start : Disk) (program : AgentProgram α) (post : α → Disk → Prop) (disk : Disk) : Prop :=
  program.Safe (Disk.MaintenanceStep fresh others) Eq (Disk.Maintains others)
    (fun disk => ∃ verdict, Maintained origin start verdict disk) post disk

theorem upholds_perform (atomic : origin.publication ≠ none) {operation : AgentOp}
    {next : operation.Reply → AgentProgram α} {post : α → Disk → Prop}
    (performs : ∀ reply after, Disk.MaintenanceStep fresh others disk operation reply after →
      disk.Maintains others after ∧ Upholds fresh others origin start (next reply) post after) :
    Upholds fresh others origin start (perform operation >>= next) post disk := by
  rintro _ reply after rfl ⟨verdict, maintained⟩ performed
  rcases performs reply after performed with ⟨change, rest⟩
  rcases maintained.step atomic change with ⟨later, kept, _⟩
  exact ⟨⟨change, later, kept⟩, rest⟩

/-- An operation that leaves the disk as it is. -/
theorem upholds_aside {operation : AgentOp} {next : operation.Reply → AgentProgram α}
    {post : α → Disk → Prop}
    (aside : ∀ reply after, Disk.MaintenanceStep fresh others disk operation reply after →
      after = disk)
    (rest : ∀ reply, Disk.MaintenanceStep fresh others disk operation reply disk →
      Upholds fresh others origin start (next reply) post disk) :
    Upholds fresh others origin start (perform operation >>= next) post disk := by
  rintro _ reply after rfl valid performed
  have same := aside reply after performed
  rw [same] at performed ⊢
  exact ⟨⟨.still, valid⟩, rest reply performed⟩

/-- A computation of the record that was read. -/
theorem upholds_run {β : Type} {computation : Agent β} {record : SpoolRecord}
    {next : Except String β × SpoolRecord → AgentProgram α} {post : α → Disk → Prop}
    {middle : Except String β → SpoolRecord → Disk → Prop}
    (holds : Agent.Holds (maintenance fresh others origin start) computation middle record disk)
    (rest : ∀ result copy after, middle result copy after →
      Upholds fresh others origin start (next (result, copy)) post after) :
    Upholds fresh others origin start (computation.run record >>= next) post disk :=
  Program.safe_bind.mpr (Program.Safe.imp holds fun out after ends => rest out.1 out.2 after ends)

theorem upholds_reported (atomic : origin.publication ≠ none) {record : SpoolRecord}
    (timely : Timely record disk) :
    Upholds fresh others origin start (discard ((Service.reconcile config).run record))
      (fun _ _ => True) disk :=
  Program.safe_bind.mpr ((Agent.maintenance_reconcile atomic timely).imp fun _ _ _ _ => trivial)

/-- A record without recovery has ended. -/
theorem Verdict.Fits.ended {record : SpoolRecord} (fits : verdict.Fits origin record)
    (atomic : origin.publication ≠ none) (settled : record.requiresPublicationRecovery = false) :
    record.state.isTerminal = true := by
  rcases fits.stored atomic with ⟨state, stored⟩
  have phase := fits.phase stored
  cases verdict with
  | pending | committed =>
      simp [SpoolRecord.requiresPublicationRecovery, stored, phase, Verdict.phase,
        PublicationPhase.requiresNamespaceRecovery] at settled
  | abandoned =>
      have failed : record.state = .failed := fits.ends.1
      rw [failed]
      rfl

theorem upholds_recover (atomic : origin.publication ≠ none)
    (maintained : Maintained origin start verdict disk) :
    Upholds fresh others origin start (Service.recover config) (fun _ _ => True) disk := by
  refine upholds_aside (fun _ _ step => step.1) fun reply step => ?_
  rcases step.2 with ⟨record, durable, rfl⟩ | ⟨_, message, rfl⟩
  · have fits := maintained.durable durable
    dsimp only
    split
    · refine upholds_aside (fun _ _ same => same) fun _ _ => ?_
      refine upholds_run (Agent.maintenance_recovers atomic durable fits false) ?_
      intro _ copy after timely
      refine upholds_aside (fun _ _ same => same) fun _ _ => ?_
      split
      · exact upholds_reported atomic timely
      · exact trivial
    next settled =>
      have ended := fits.ended atomic (by simpa using settled)
      simp only [Service.normalizeInterrupted, ended, if_true]
      exact upholds_reported atomic (.inl durable)
  · exact trivial

theorem upholds_recoverInBackground (atomic : origin.publication ≠ none) {record : SpoolRecord}
    (durable : disk.spool = some record) (fits : verdict.Fits origin record) :
    Upholds fresh others origin start (Service.recoverInBackground record) Timely disk := by
  refine upholds_aside (fun _ _ same => same) fun _ _ => ?_
  refine upholds_aside (fun _ _ same => same) fun synchronized _ => ?_
  refine upholds_run (Agent.maintenance_recovers atomic durable fits synchronized) ?_
  intro _ copy after timely
  exact upholds_aside (fun _ _ same => same) fun _ _ => timely

theorem upholds_reconcileAll (atomic : origin.publication ≠ none)
    (maintained : Maintained origin start verdict disk) :
    Upholds fresh others origin start (Service.reconcileAll config) (fun _ _ => True) disk := by
  refine upholds_aside (fun _ _ step => step.1) fun reply step => ?_
  rcases step.2 with ⟨record, durable, rfl⟩ | ⟨_, message, rfl⟩
  · have fits := maintained.durable durable
    dsimp only
    split
    · refine Program.safe_bind.mpr (Program.Safe.imp
        (upholds_recoverInBackground atomic durable fits) fun copy after timely => ?_)
      exact upholds_reported atomic timely
    · exact upholds_reported atomic (.inl durable)
  · exact trivial

/-- A command of the operator, given what it does with the durable record. -/
theorem upholds_maintain {mirror : String} {command : Agent Unit}
    (maintained : Maintained origin start verdict disk)
    (commands : ∀ record, disk.spool = some record → verdict.Fits origin record →
      Agent.Holds (maintenance fresh others origin start) command (fun _ _ _ => True) record
        disk) :
    Upholds fresh others origin start (discard (Agent.maintain mirror command)) (fun _ _ => True)
      disk := by
  refine Program.safe_bind.mpr (upholds_aside (fun _ _ same => same) fun _ _ => ?_)
  refine upholds_aside (fun _ _ step => step.1) fun reply step => ?_
  rcases step.2 with ⟨record, durable, rfl⟩ | ⟨_, message, rfl⟩
  · refine upholds_run (commands record durable (maintained.durable durable)) ?_
    intro _ _ after _
    exact upholds_aside (fun _ _ same => same) fun _ _ => trivial
  · exact upholds_aside (fun _ _ same => same) fun _ _ => trivial

theorem upholds_abandon (atomic : origin.publication ≠ none) {mirror runId specHash : String}
    {attempt : ℕ} :
    Upholds fresh others origin start (Agent.abandon mirror runId attempt specHash)
      (fun _ _ => True) disk := by
  refine upholds_aside (fun _ _ same => same) fun _ _ => ?_
  have locked : Upholds fresh others origin start
      (Agent.abandonLocked mirror runId attempt specHash) (fun _ _ => True) disk := by
    refine upholds_aside (fun _ _ step => step.1) fun reply step => ?_
    rcases step.2 with ⟨record, durable, rfl⟩ | ⟨_, message, rfl⟩
    · dsimp only [Agent.abandonRecord]
      cases valid : Agent.validateExact record mirror runId attempt specHash with
      | error message => exact trivial
      | ok state =>
          dsimp only
          split
          · exact trivial
          next pending =>
            simp only [ne_eq, not_not] at pending
            refine upholds_aside (fun _ _ same => same) fun time _ => ?_
            have abandons : disk.Maintains others (disk.write (Agent.fencedRecord record state time)) :=
              .abandons durable (Agent.validateExact_stored valid) pending time
            refine upholds_perform atomic ?_
            rintro reply after (⟨_, rfl, rfl⟩ | ⟨impossible, _⟩ | ⟨_, ⟨message, rfl⟩, rfl | ⟨_, rfl⟩⟩)
            · exact ⟨abandons, trivial⟩
            · exact absurd trivial impossible
            · exact ⟨.still, trivial⟩
            · exact ⟨abandons, trivial⟩
    · exact trivial
  exact Program.safe_bind.mpr (locked.imp fun _ _ _ =>
    upholds_aside (fun _ _ same => same) fun _ _ => trivial)

theorem upholds_abandonPublication (atomic : origin.publication ≠ none)
    {mirror runId specHash : String} {attempt : ℕ} {acknowledged : Bool}
    {responses : List (Except String ℕ)} :
    Upholds fresh others origin start (discard (Agent.abandonPublication config mirror runId attempt
      specHash acknowledged responses)) (fun _ _ => True) disk := by
  refine Program.safe_bind.mpr ?_
  unfold Agent.abandonPublication
  split
  · exact trivial
  refine Program.safe_bind.mpr ((upholds_abandon atomic).imp ?_)
  rintro (message | record) after _
  · exact trivial
  · exact upholds_run (Agent.maintenance_reconcileAbandonedTerminal atomic) fun _ _ _ _ => trivial

/-- Every program of the maintenance makes changes of the machine only. -/
theorem Maintenance.upholds {program : AgentProgram Unit} (starts : Maintenance config program)
    (atomic : origin.publication ≠ none) (maintained : Maintained origin start verdict disk) :
    Upholds fresh others origin start program (fun _ _ => True) disk := by
  cases starts with
  | recover => exact upholds_recover atomic maintained
  | reconcileAll => exact upholds_reconcileAll atomic maintained
  | retry =>
      exact upholds_maintain maintained fun record durable _ =>
        Agent.maintenance_retryDurability atomic durable
  | abandon => exact upholds_abandonPublication atomic
  | clear =>
      exact upholds_maintain maintained fun record durable _ =>
        Agent.maintenance_clearFence atomic durable

end Programs

/-! ## What holds of the runs -/

section Runs

variable {config : AgentConfig} {fresh : PathBuf → FileIdentity} {others : List SpoolRecord}
  {origin : SpoolRecord} {state : PublicationState} {start disk : Disk}
  {program : AgentProgram Unit}

theorem Maintenance.Runs.maintained (ran : Maintenance.Runs config fresh start program others disk)
    (durable : start.spool = some origin) (stored : origin.publication = some state)
    (pending : state.phase = .visiblePendingDurability) :
    (∃ verdict, Maintained origin start verdict disk) ∧
      Upholds fresh others origin start program (fun _ _ => True) disk := by
  have atomic : origin.publication ≠ none := by simp [stored]
  induction ran with
  | start =>
      refine ⟨⟨.pending, ⟨⟨[], rfl, by simp⟩, .inl ⟨origin, durable, ?_⟩⟩⟩, trivial⟩
      refine ⟨rfl, rfl, rfl, ?_, rfl⟩
      simp [stored, Agent.inPhase, Verdict.phase, ← pending]
  | @session _ _ _ _ disk ran starts fs ih =>
      rcases ih.1 with ⟨verdict, maintained⟩
      have moved : Maintained origin start verdict ({ disk with fs } : Disk) :=
        ⟨maintained.history, maintained.spool⟩
      exact ⟨⟨verdict, moved⟩, starts.upholds atomic moved⟩
  | perform ran performed ih =>
      have kept := ih.2 _ _ _ rfl ih.1 performed
      exact ⟨kept.1.2, kept.2⟩

theorem Maintenance.Runs.reaches {rest : AgentProgram Unit} {after : Disk}
    (ran : Maintenance.Runs config fresh start program others disk)
    (reached : Program.Reaches (Disk.MaintenanceStep fresh others) (program, disk) (rest, after)) :
    Maintenance.Runs config fresh start rest others after := by
  generalize last : (rest, after) = configuration at reached
  induction reached generalizing rest after with
  | refl =>
      cases last
      exact ran
  | tail _ next ih =>
      cases next with
      | perform performed =>
          cases last
          exact (ih rfl).perform performed

end Runs

/--
However often the maintenance of a pending publication is cut off and whatever fails, every
change it makes is one of the machine, and the publication gets one verdict at most.
-/
theorem pending_publication_has_one_outcome {config : AgentConfig} {fresh : PathBuf → FileIdentity}
    {others : List SpoolRecord} {origin : SpoolRecord} {state : PublicationState}
    {start disk : Disk} {program : AgentProgram Unit}
    (ran : Maintenance.Runs config fresh start program others disk)
    (durable : start.spool = some origin) (stored : origin.publication = some state)
    (pending : state.phase = .visiblePendingDurability) :
    (∃ verdict, Maintained origin start verdict disk) ∧
      ∀ operation next reply after, program = .perform operation next →
        Disk.MaintenanceStep fresh others disk operation reply after →
          disk.Maintains others after := by
  have valid := ran.maintained durable stored pending
  refine ⟨valid.1, ?_⟩
  rintro operation next reply after rfl performed
  exact (valid.2 _ _ _ rfl valid.1 performed).1.1

namespace Sample

/-- Generation 3 is visible, and its durability is in doubt. -/
def doubtful : SpoolRecord :=
  { running with
    publication := running.publication.map fun state =>
      { state with
        phase := .visiblePendingDurability
        candidateIdentity := some demo.candidate
        publishedIdentity := demo.published } }

def doubtfulDisk : Disk where
  spool := some doubtful
  fs path :=
    if path = demo.publishedPath then some demo.candidate
    else if path = demo.exchangePath then demo.published
    else none
  history := []

/-- One program after another, without faults. -/
def maintained (programs : List (AgentProgram Unit)) : Disk :=
  programs.foldl (fun disk program => (Program.advance (Disk.answer fresh) 100 (program, disk)).2)
    doubtfulDisk

theorem maintenanceStep_answer (disk : Disk) (operation : AgentOp) :
    Disk.MaintenanceStep fresh [] disk operation (disk.answer fresh operation).1
      (disk.answer fresh operation).2 := by
  have performed := Disk.step_answer fresh True disk operation
  cases operation with
  | spoolRecords => exact ⟨rfl, .inl rfl⟩
  | _ => exact performed

theorem runs_maintained {programs : List (AgentProgram Unit)}
    (starts : ∀ program ∈ programs, Maintenance roomyConfig program) :
    ∃ program, Maintenance.Runs roomyConfig fresh doubtfulDisk program [] (maintained programs) := by
  have later : ∀ disk, (∃ program, Maintenance.Runs roomyConfig fresh doubtfulDisk program [] disk) →
      ∃ program, Maintenance.Runs roomyConfig fresh doubtfulDisk program []
        (programs.foldl (fun disk program =>
          (Program.advance (Disk.answer fresh) 100 (program, disk)).2) disk) := by
    induction programs with
    | nil => exact fun _ begins => begins
    | cons program rest ih =>
        rintro disk ⟨_, ran⟩
        have session : Maintenance.Runs roomyConfig fresh doubtfulDisk program [] disk :=
          ran.session (starts program List.mem_cons_self) disk.fs
        have reached := Program.reaches_advance maintenanceStep_answer 100 (program, disk)
        refine ih (fun later listed => starts later (List.mem_cons_of_mem _ listed)) _ ?_
        exact ⟨_, session.reaches reached⟩
  exact later doubtfulDisk ⟨_, .start []⟩

/-- The operator gives up, the agent delivers the log, and the fence is cleared. -/
def givenUp : List (AgentProgram Unit) :=
  [discard (Agent.abandonPublication roomyConfig "demo" "R" 1 "hash" true [.ok 1, .ok 3]),
    Service.reconcileAll roomyConfig,
    discard (Agent.clearFence "demo" "R" 1 "hash")]

theorem maintenance_givenUp : ∀ program ∈ givenUp, Maintenance roomyConfig program := by
  intro program listed
  simp only [givenUp, List.mem_cons, List.not_mem_nil, or_false] at listed
  rcases listed with rfl | rfl | rfl
  · exact .abandon ..
  · exact .reconcileAll
  · exact .clear ..

end Sample

/-- An abandoned publication whose fence is cleared. -/
theorem pending_publication_has_one_outcome_given_up :
    ((Sample.maintained Sample.givenUp).spool = none ∧
      (Sample.maintained Sample.givenUp).history.length = 5) ∧
        ∃ verdict, Maintained Sample.doubtful Sample.doubtfulDisk verdict
          (Sample.maintained Sample.givenUp) := by
  refine ⟨by decide +kernel, ?_⟩
  rcases Sample.runs_maintained Sample.maintenance_givenUp with ⟨program, ran⟩
  exact (pending_publication_has_one_outcome ran rfl rfl rfl).1

end LzuMirror
