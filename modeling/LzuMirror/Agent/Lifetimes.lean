import LzuMirror.Agent.Tracking

/-!
# The tasks on the ledger, over the agent's lifetimes

The executor from its first report on, `reconcile_all`, `cancel`, redelivered
`StartAttempt`s and the recovery after a crash, under any relation for which
`Tracking` holds: in every state of every run each record follows the one it
overwrites. A file that was retired starts anew.
-/

namespace LzuMirror

namespace Ledger

open Agent

/-! ## Reporting -/

/--
What a task knows of its copy while it reports it: kept by the others, and
regained with the record it writes under the lock.
-/
structure Attitude (task : AgentTask) (attitude : SpoolRecord → Ledger → Prop) : Prop where
  stable : ∀ copy before after, attitude copy before → Rely task before after →
    attitude copy after
  waits : ∀ copy ledger, attitude copy ledger → ledger.holder ≠ some task
  seen : ∀ copy ledger, attitude copy ledger → Seen copy ledger.entries
  keeps : ∀ (copy : SpoolRecord) (before after : Ledger), attitude copy before →
    before.Retires after → attitude copy { after with holder := none }
  updates : ∀ (copy latest : SpoolRecord) (sequence offset : ℕ) (complete : Bool)
    (before read middle after : Ledger), attitude copy before → before.Retires read →
      read.spool = some latest → read.Retires middle →
        (complete = true → latest.logCompleteAcknowledged = true ∨ ¬Untouched read.entries) →
          (middle.add task (some (latest.reported sequence offset complete))).Retires after →
            attitude (latest.reported sequence offset complete) { after with holder := none }
  retires : ∀ (copy : SpoolRecord) (ledger : Ledger), attitude copy ledger →
    Reported ledger.entries → attitude copy (ledger.add task none)

/-- The attitude of a task that does not hold the lock. -/
def Knows (task : AgentTask) (copy : SpoolRecord) (ledger : Ledger) : Prop :=
  Seen copy ledger.entries ∧ ledger.holder ≠ some task

/-- The attitude of the executor in the first stage. -/
def Waits (copy : SpoolRecord) (ledger : Ledger) : Prop :=
  Beginning copy ledger ∧ ledger.holder ≠ some .executor

section Attitudes

variable {task : AgentTask}

theorem reported_of_untouched {latest : SpoolRecord} {sequence offset : ℕ} {complete : Bool}
    {ledger : Ledger} (untouched : Untouched ledger.entries)
    (isStored : ledger.spool = some latest)
    (completes : complete = true → latest.logCompleteAcknowledged = true ∨
      ¬Untouched ledger.entries) : (latest.reported sequence offset complete).IsPristine := by
  have pristine := untouched latest (wrote_of_stored isStored)
  refine ⟨pristine.1, pristine.2.1, ?_⟩
  change complete = false
  rw [← Bool.not_eq_true]
  intro isComplete
  rcases completes isComplete with already | touched
  · rw [pristine.2.2] at already
    cases already
  · exact touched untouched

theorem knows_attitude (task : AgentTask) : Attitude task (Knows task) where
  stable _ _ _ knows relied := ⟨knows.1.mono relied.grows, relied.waiting knows.2⟩
  waits _ _ knows := knows.2
  seen _ _ knows := knows.1
  keeps _ _ _ knows retires := ⟨knows.1.mono retires.grows, (Option.some_ne_none task).symm⟩
  updates _ _ _ _ _ _ _ _ _ _ _ _ _ _ retires :=
    ⟨((wrote_cons_iff.mpr (.inl rfl)).mono retires.grows).seen, (Option.some_ne_none task).symm⟩
  retires _ _ knows _ := ⟨knows.1.mono (List.suffix_cons _ _), knows.2⟩

theorem waits_attitude : Attitude .executor Waits where
  stable _ _ _ waits relied := ⟨waits.1.relied relied, relied.waiting waits.2⟩
  waits _ _ waits := waits.2
  seen copy _ waits := by
    have pristine := waits.1.pristine
    refine ⟨fun ended => ?_, fun complete => ?_⟩
    · simp [pristine.2.1] at ended
    · simp [pristine.2.2] at complete
  keeps copy before after waits retires := by
    have entries := retires.entries_eq waits.1.untouched.not_reported
    exact ⟨waits.1.of_entries entries, (Option.some_ne_none _).symm⟩
  updates copy latest sequence offset complete before read middle after waits retires isStored
      retiresRead completes retired := by
    have entries := retires.entries_eq waits.1.untouched.not_reported
    have readUntouched : Untouched read.entries := entries ▸ waits.1.untouched
    have untouched : Untouched middle.entries := retiresRead.untouched_iff.mpr readUntouched
    have pristine := @reported_of_untouched latest sequence offset complete read readUntouched
      isStored completes
    have unfenced : latest.phase? ≠ some .abandonedFenced := by
      rcases (waits.1.of_entries entries).fits with ⟨old, oldStored, _, publication, _⟩
      rw [oldStored, Option.some.injEq] at isStored
      rw [SpoolRecord.phase?, ← isStored, publication]
      exact waits.1.unfenced
    have untouchedAfter : Untouched
        (middle.add .executor (some (latest.reported sequence offset complete))).entries := by
      refine untouched_cons_iff.mpr ⟨?_, untouched⟩
      rintro _ ⟨⟩
      exact pristine
    have same := retired.entries_eq untouchedAfter.not_reported
    refine ⟨⟨?_, pristine, unfenced, _, ?_, le_rfl, rfl, fun _ => ?_⟩,
      (Option.some_ne_none _).symm⟩
    · rw [same]
      exact untouchedAfter
    · rw [Ledger.spool, same]
      rfl
    · exact sameAcknowledgements_refl _
  retires copy ledger waits reported := absurd reported waits.1.untouched.not_reported

/-- A change of the flag or the acknowledgements spares the executor. -/
theorem Spares.touch {ledger : Ledger} {old new : SpoolRecord} (other : task ≠ .executor)
    (untouched : Untouched ledger.entries) (isStored : ledger.spool = some old)
    (touches : old.Touches new) (pristine : new.IsPristine) :
    ledger.Spares (ledger.add task (some new)) := by
  refine ⟨untouched_cons_iff.mpr ⟨?_, untouched⟩, fun stale staleStored => ?_⟩
  · rintro _ ⟨⟩
    exact pristine
  rw [isStored, Option.some.injEq] at staleStored
  subst staleStored
  refine ⟨new, rfl, touches, fun fresh => ?_⟩
  change (if task = .executor then false
    else overtaken ledger.entries || (some new).any fun new =>
      !(ledger.spool).any fun old => old.sameAcknowledgements new) = false at fresh
  rw [if_neg other, isStored] at fresh
  simpa using fresh

end Attitudes

section Reconcile

variable {terms : Terms} {once : Prop} {follows : SpoolRecord → SpoolRecord → Prop}
  {task : AgentTask} {attitude : SpoolRecord → Ledger → Prop} {record : SpoolRecord}
  {state : Ledger}

/-- The acceptance lock around a computation that leaves the holder alone. -/
theorem acceptanceLocked_holds {body : Agent Unit}
    {closed : Except String Unit → SpoolRecord → Ledger → Prop}
    (inside : ∀ granted : Ledger, Rely task state granted → granted.holder = none →
      Valid follows granted →
        Holds (setting terms follows task) body
          (fun result copy after => after.holder = some task ∧
            ∀ last : Ledger, after.Retires last → closed result copy { last with holder := none })
          record { granted with holder := some task }) :
    Holds (setting terms follows task) (locked .acceptance body) closed record state := by
  refine holds_bind.mpr ?_
  refine @safe_acquire terms follows task state none
    (fun reply after => Then (setting terms follows task) _ closed (.ok reply) record after)
    fun granted relied free valid _ => ?_
  refine then_ok.mpr (holds_bind.mpr (holds_attempt.mpr
    ((inside granted relied free valid).imp ?_)))
  rintro result copy after ⟨held, closes⟩
  refine then_ok.mpr (holds_bind.mpr ?_)
  refine @safe_release terms follows task after
    (fun reply after => Then (setting terms follows task) _ closed (.ok reply) copy after) held
    fun last _ retires _ => ?_
  exact then_ok.mpr (holds_ofExcept.mpr (closes last retires))

/-- Reading the file under the lock. -/
theorem readSpool_holds (held : state.holder = some task)
    {post : Except String (Except String SpoolRecord) → SpoolRecord → Ledger → Prop}
    (next : ∀ read : Ledger, state.Retires read → read.holder = some task → Valid follows read →
      (∀ latest, read.spool = some latest → post (.ok (.ok latest)) record read) ∧
        ∀ message, post (.ok (.error message)) record read) :
    Holds (setting terms follows task) (Agent.perform .readSpool) post record state := by
  refine @safe_readSpool terms follows task state (fun reply => post (.ok reply) record)
    fun read relied valid => ?_
  rcases relied.holding held with ⟨still, retires⟩
  rcases next read retires still valid with ⟨found, missing⟩
  exact ⟨found, fun _ => missing⟩

variable (tracking : Tracking terms once follows) (keeps : Attitude task attitude)

include tracking keeps

/-- `reconcile`'s change of the latest record. -/
theorem updateLatest_holds {change : SpoolRecord → SpoolRecord} (known : attitude record state)
    (reports : ∀ latest, ∃ sequence offset complete,
      change latest = latest.reported sequence offset complete ∧
        latest.acknowledgedSequence ≤ sequence ∧ latest.logOffset ≤ offset ∧
          (latest.logCompleteAcknowledged = true → complete = true) ∧
            (complete = true → latest.logCompleteAcknowledged = true ∨
              ¬Untouched state.entries)) :
    Holds (setting terms follows task) (Service.updateLatest change)
      (fun _ copy after => attitude copy after) record state := by
  refine acceptanceLocked_holds fun granted relied free valid => ?_
  have knownGranted := keeps.stable _ _ _ known relied
  refine holds_bind.mpr (readSpool_holds rfl fun read retires held valid => ⟨?_, ?_⟩)
  case refine_2 =>
    intro message
    refine then_ok.mpr (holds_bind.mpr (holds_ofExcept.mpr (then_error.mpr ⟨held, ?_⟩)))
    exact fun last retired => keeps.keeps _ granted last knownGranted
      (retires.trans retired)
  intro latest isStored
  refine then_ok.mpr (holds_bind.mpr (holds_ofExcept.mpr (then_ok.mpr ?_)))
  rcases reports latest with ⟨sequence, offset, complete, changed, later, further, stays, final⟩
  rw [changed]
  have consistent : (latest.reported sequence offset complete).Consistent :=
    valid.consistent latest (wrote_of_stored isStored)
  refine holds_bind.mpr (holds_writeSpool held consistent
    fun before retired still validBefore _ => ?_)
  have completes : complete = true → latest.logCompleteAcknowledged = true ∨
      ¬Untouched read.entries := by
    intro isComplete
    refine (final isComplete).imp_right fun touched untouched => touched (untouched.anti ?_)
    exact relied.grows.trans retires.grows
  refine ⟨fun old oldStored => ?_, fun other untouched => ?_, then_ok.mpr (holds_setCopy.mpr ?_)⟩
  · have same := retired.spool oldStored
    rw [isStored, Option.some.injEq] at same
    exact same ▸ tracking.reports latest sequence offset complete later further stays
  · -- in the first stage nobody retires the file
    have readUntouched := retired.untouched_iff.mp untouched
    have entries := retired.entries_eq readUntouched.not_reported
    have beforeStored : before.spool = some latest := by
      rw [Ledger.spool, entries]
      exact isStored
    exact .touch other untouched beforeStored
      ⟨latest.cancelRequested, sequence, offset, complete, rfl⟩
      (reported_of_untouched readUntouched isStored completes)
  · exact ⟨still, fun last lastRetires => keeps.updates record latest sequence offset complete
      granted read before last knownGranted retires isStored retired completes lastRetires⟩

theorem reconcileEvent_holds {config : AgentConfig} (known : attitude record state) :
    Holds (setting terms follows task) (Service.reconcileEvent config)
      (fun _ copy after => attitude copy after) record state := by
  refine holds_bind.mpr (holds_copy.mpr (then_ok.mpr ?_))
  split
  · refine holds_bind.mpr (holds_aside rfl (keeps.stable record) known fun answer after known => ?_)
    refine then_ok.mpr (holds_bind.mpr (holds_ofExcept.mpr ?_))
    rcases answer with message | accepted
    · exact known
    refine then_ok.mpr ?_
    split
    · refine updateLatest_holds tracking keeps known fun latest => ?_
      exact ⟨_, latest.logOffset, latest.logCompleteAcknowledged, rfl, Nat.le_max_left _ _,
        le_rfl, fun complete => complete, .inl⟩
    · exact known
  · exact known

theorem reconcileLog_holds (known : attitude record state) :
    Holds (setting terms follows task) Service.reconcileLog
      (fun _ copy after => attitude copy after) record state := by
  have failed : ∀ (_ : String) after, attitude record after → attitude record after :=
    fun _ _ known => known
  refine (aside_perform rfl).andThen (keeps.stable record) known failed
    fun answer _ known => ?_
  refine aside_ofExcept.andThen (keeps.stable record) known failed fun length _ known => ?_
  refine holds_bind.mpr (holds_copy.mpr (then_ok.mpr ?_))
  split
  · exact known
  split
  · have chunk : ∀ {offset length : ℕ}, Aside (Service.nextChunk offset length) := by
      intro offset length
      exact aside_ite aside_pure (@aside_request _ (.readLog offset length) rfl rfl)
    refine chunk.andThen (keeps.stable record) known failed fun bytes _ known => ?_
    refine (aside_perform rfl).andThen (keeps.stable record) known failed fun answer _ known => ?_
    refine aside_ofExcept.andThen (keeps.stable record) known failed fun header _ known => ?_
    rcases header with _ | header
    · exact known
    refine updateLatest_holds tracking keeps known fun latest => ?_
    refine ⟨latest.acknowledgedSequence, _, _, rfl, le_rfl, Nat.le_max_left _ _,
      fun already => by simp [already], fun complete => ?_⟩
    -- the log is completed only by a copy that has ended
    rcases Bool.or_eq_true_iff.mp complete with already | final
    · exact .inl already
    · exact .inr ((keeps.seen _ _ known).ended (Bool.and_eq_true_iff.mp final).1)
  · exact known

omit tracking in
theorem retireIfReady_holds (known : attitude record state) :
    Holds (setting terms follows task) Service.retireIfReady
      (fun _ copy after => attitude copy after) record state := by
  refine holds_bind.mpr (holds_copy.mpr (then_ok.mpr ?_))
  split
  next ready =>
    have complete : record.logCompleteAcknowledged = true := by
      simp only [SpoolRecord.readyForCleanup, Bool.and_eq_true] at ready
      exact ready.2
    refine holds_bind.mpr (holds_perform ?_)
    intro before reply after relied valid performed
    have knownBefore := keeps.stable _ _ _ known relied
    have reported := (keeps.seen _ _ knownBefore).complete complete
    have retired : (Guarantee task before (before.add task none) ∧
        Valid follows (before.add task none)) ∧ attitude record (before.add task none) :=
      ⟨⟨.retire reported, valid.retire task reported⟩, keeps.retires _ _ knownBefore reported⟩
    rcases performed with ⟨_, rfl, rfl⟩ | ⟨⟨message, rfl⟩, rfl | ⟨_, rfl⟩⟩
    · exact retired
    · exact ⟨⟨.refl task _, valid⟩, knownBefore⟩
    · exact retired
  next => exact known

/-- `reconcile` under any attitude, whatever the server answers. -/
theorem reconcile_holds {config : AgentConfig} (known : attitude record state) :
    Holds (setting terms follows task) (Service.reconcile config)
      (fun _ copy after => attitude copy after) record state := by
  refine holds_bind.mpr ((reconcileEvent_holds tracking keeps known).imp ?_)
  rintro (message | _) copy after known
  · exact known
  refine then_ok.mpr (holds_bind.mpr ((reconcileLog_holds tracking keeps known).imp ?_))
  rintro (message | _) copy after known
  · exact known
  exact then_ok.mpr (retireIfReady_holds keeps known)

omit keeps in
/-- `reconcile`, run for its effects. -/
theorem reconcile_safe {config : AgentConfig} (knows : Knows task record state) :
    TaskSafe terms follows task (discard ((Service.reconcile config).run record))
      (fun _ after => after.holder ≠ some task) state :=
  Program.safe_bind.mpr (Program.Safe.imp (reconcile_holds tracking (knows_attitude task) knows)
    fun _ _ known => known.2)

end Reconcile

/-! ## The executor -/

section Executor

variable {terms : Terms} {once : Prop} {follows : SpoolRecord → SpoolRecord → Prop}
  {record : SpoolRecord} {state : Ledger} (tracking : Tracking terms once follows)
  (waits : Waits record state)

theorem Waits.stable (copy : SpoolRecord) (before after : Ledger) (waits : Waits copy before)
    (relied : Rely .executor before after) : Waits copy after :=
  waits_attitude.stable _ _ _ waits relied

include waits in
/-- A section that starts by merging the cancellation flag into a copy. -/
theorem section_holds {copy : SpoolRecord} {body : Agent Unit}
    {closed : Except String Unit → SpoolRecord → Ledger → Prop}
    (inside : ∀ (flag : Bool) (opened : Ledger), Opening record opened →
      Holds (setting terms follows .executor) body
        (fun result copy after => after.holder = some .executor ∧
          ∀ last : Ledger, after.Retires last → closed result copy { last with holder := none })
        { copy with cancelRequested := flag } opened) :
    Holds (setting terms follows .executor)
      (locked .acceptance do
        mergeCancellation
        body) closed copy state := by
  refine acceptanceLocked_holds fun granted relied free valid => ?_
  have beginning := waits.1.relied relied
  have opening : Opening record { granted with holder := some .executor } :=
    ⟨beginning.of_entries rfl, rfl⟩
  refine holds_bind.mpr (holds_bind.mpr (readSpool_holds rfl fun read retires held _ => ?_))
  have entries : read.entries = granted.entries :=
    retires.entries_eq beginning.untouched.not_reported
  have opened : Opening record read := ⟨beginning.of_entries entries, held⟩
  exact ⟨fun latest _ => inside _ read opened, fun _ => inside copy.cancelRequested read opened⟩

include waits in
/-- The section that ends the first stage. -/
theorem ending_holds {body : Agent Unit}
    (ends : ∀ (copy : SpoolRecord) (opened : Ledger), Opening copy opened →
      Holds (setting terms follows .executor) body
        (fun _ copy after => after.holder = some .executor ∧ Wrote copy after.entries)
        copy opened) :
    Holds (setting terms follows .executor)
      (locked .acceptance do
        mergeCancellation
        body)
      (fun _ copy after => Knows .executor copy after) record state := by
  refine section_holds waits fun flag opened opening => (ends _ _ (opening.flagged flag)).imp ?_
  rintro _ copy after ⟨held, wrote⟩
  exact ⟨held, fun last retires =>
    ⟨(wrote.mono retires.grows).seen, (Option.some_ne_none _).symm⟩⟩

include tracking

theorem markRunning_holds (waits : Waits record state) :
    Holds (setting terms follows .executor) markRunning
      (fun result copy after => result = .ok () ∧ Waits copy after) record state := by
  refine holds_bind.mpr (holds_aside rfl (Waits.stable record) waits fun time _ waits => ?_)
  refine then_ok.mpr (holds_bind.mpr (holds_copy.mpr (then_ok.mpr (holds_bind.mpr
    (holds_setCopy.mpr (then_ok.mpr ?_))))))
  refine section_holds waits fun flag opened opening => ?_
  refine holds_bind.mpr (holds_copy.mpr (then_ok.mpr (holds_discard (holds_attempt.mpr ?_))))
  have pristine : SpoolRecord.IsPristine
      { runningRecord record time with cancelRequested := flag } :=
    ⟨opening.pristine.1, rfl, opening.pristine.2.2⟩
  have consistent := @SpoolRecord.consistent_of_unpublished record
    { runningRecord record time with cancelRequested := flag } opening.pristine.1 rfl
  refine (@Opening.write _ _ _ record _ _ tracking opening
    { runningRecord record time with cancelRequested := flag } (Nat.le_succ _)
    (.inl (Nat.lt_succ_self _)) (sameAcknowledgements_refl record) consistent).imp ?_
  rintro _ _ after ⟨rfl, rfl, held, entries⟩
  refine ⟨held, fun last retires => ⟨rfl, ?_, (Option.some_ne_none _).symm⟩⟩
  have untouched : Untouched after.entries := by
    rw [entries]
    refine untouched_cons_iff.mpr ⟨?_, opening.untouched⟩
    rintro _ ⟨⟩
    exact pristine
  have same := retires.entries_eq untouched.not_reported
  refine ⟨same ▸ untouched, pristine, opening.unfenced, _, ?_, le_rfl, rfl,
    fun _ => sameAcknowledgements_refl _⟩
  rw [Ledger.spool, same, entries]
  rfl

theorem superviseProcess_holds (waits : Waits record state) {spec : ProcessRunSpec} :
    Holds (setting terms follows .executor) (superviseProcess spec)
      (fun _ copy after => Knows .executor copy after) record state := by
  refine holds_bind.mpr (holds_aside rfl (Waits.stable record) waits fun _ _ waits => ?_)
  refine then_ok.mpr (holds_bind.mpr ((markRunning_holds tracking waits).imp ?_))
  rintro _ copy started ⟨rfl, waits⟩
  refine then_ok.mpr (holds_bind.mpr
    (holds_aside rfl (Waits.stable copy) waits fun outcome _ waits => ?_))
  refine then_ok.mpr (holds_bind.mpr
    (holds_aside rfl (Waits.stable copy) waits fun _ _ waits => ?_))
  refine then_ok.mpr (holds_bind.mpr
    (holds_aside rfl (Waits.stable copy) waits fun _ _ waits => ?_))
  exact ending_holds waits fun _ _ opening => finalize_holds tracking opening outcome

theorem persistFailure_holds (waits : Waits record state) {kind : FailureKind} {error : String} :
    Holds (setting terms follows .executor) (persistFailure kind error)
      (fun _ copy after => Knows .executor copy after) record state :=
  ending_holds waits fun _ _ opening => recordFailure_holds tracking opening

theorem startProcess_holds (waits : Waits record state) {spec : ProcessRunSpec} :
    Holds (setting terms follows .executor) (startProcess spec)
      (fun _ copy after => Knows .executor copy after) record state := by
  refine holds_bind.mpr (holds_aside rfl (Waits.stable record) waits fun answer _ waits => ?_)
  rcases answer with error | _
  · exact persistFailure_holds tracking waits
  refine then_ok.mpr (holds_bind.mpr
    (holds_aside rfl (Waits.stable record) waits fun answer _ waits => ?_))
  rcases answer with error | _
  · exact persistFailure_holds tracking waits
  · exact superviseProcess_holds tracking waits

theorem execute_holds (waits : Waits record state) :
    Holds (setting terms follows .executor) execute
      (fun _ copy after => Knows .executor copy after) record state := by
  refine holds_bind.mpr (holds_copy.mpr (then_ok.mpr ?_))
  split
  · exact ⟨waits_attitude.seen _ _ waits, waits.2⟩
  refine holds_bind.mpr (holds_attempt.mpr
    ((aside_prepareIfAtomic.holds (Waits.stable record) waits).imp ?_))
  rintro (error | _) _ after ⟨rfl, waits⟩
  · exact persistFailure_holds tracking waits
  · exact startProcess_holds tracking waits

/-- The spawned task. -/
theorem runAccepted_safe (waits : Waits record state) {config : AgentConfig} :
    TaskSafe terms follows .executor (Service.runAccepted config record)
      (fun _ after => after.holder ≠ some .executor) state := by
  refine Program.safe_bind.mpr (Program.Safe.imp
    (reconcile_holds tracking waits_attitude waits) ?_)
  rintro ⟨_, copy⟩ reported waits
  refine Program.safe_bind.mpr (Program.Safe.imp (execute_holds tracking waits) ?_)
  rintro ⟨_, copy⟩ executed knows
  have stays : ∀ before after : Ledger, before.holder ≠ some AgentTask.executor →
      Rely .executor before after → after.holder ≠ some .executor :=
    fun _ _ waiting relied => relied.waiting waiting
  refine Program.safe_bind.mpr ((reconcile_safe tracking knows).imp fun _ _ free => ?_)
  refine Program.safe_bind.mpr (safe_aside rfl stays free fun _ _ free => ?_)
  refine Program.safe_bind.mpr (safe_aside rfl stays free fun _ _ free => ?_)
  exact safe_aside rfl stays free fun _ _ free => free

end Executor

/-! ## The other tasks -/

section Others

variable {terms : Terms} {once : Prop} {follows : SpoolRecord → SpoolRecord → Prop}
  {task : AgentTask} {record : SpoolRecord} {past : List (AgentTask × SpoolRecord)}
  {state : Ledger} {config : AgentConfig}

/-- A section of another task that has read the record in the file. -/
theorem Holding.of_stored (refl : follows record record) (valid : Valid follows state)
    (held : state.holder = some task) (isStored : state.spool = some record)
    (staged : task ≠ .executor → ¬Untouched state.entries) :
    Holding follows task record (Ledger.written state.entries) state where
  held
  written := rfl
  durable old oldStored := by
    rw [isStored, Option.some.injEq] at oldStored
    exact oldStored ▸ refl
  consistent := valid.consistent record (wrote_of_stored isStored)
  complete isComplete := ⟨record, wrote_of_stored isStored, isComplete⟩
  staged

theorem Holding.seen (holding : Holding follows task record past state)
    (other : task ≠ .executor) : Seen record state.entries :=
  ⟨fun _ => holding.staged other, holding.complete⟩

theorem staged_of_moving (moving : record.requiresPublicationRecovery = true)
    (wrote : Wrote record state.entries) : ¬Untouched state.entries := by
  intro untouched
  rw [(untouched record wrote).1] at moving
  cases moving

theorem staged_of_ended (ended : record.state.isTerminal = true)
    (wrote : Wrote record state.entries) : ¬Untouched state.entries := by
  intro untouched
  rw [(untouched record wrote).2.1] at ended
  cases ended

theorem release_safe (held : state.holder = some task) :
    TaskSafe terms follows task (perform (.release .acceptance))
      (fun _ after => after.holder ≠ some task) state :=
  safe_release held fun _ _ _ _ => (Option.some_ne_none task).symm

variable (tracking : Tracking terms once follows)

include tracking

/-- The lock is released, and the record is reported. -/
theorem report_safe (seen : Seen record state.entries) (held : state.holder = some task) :
    TaskSafe terms follows task
      (do
        perform (.release .acceptance)
        discard ((Service.reconcile config).run record))
      (fun _ after => after.holder ≠ some task) state := by
  refine Program.safe_bind.mpr (safe_release held fun last _ retires _ => ?_)
  exact reconcile_safe tracking ⟨seen.mono retires.grows, (Option.some_ne_none task).symm⟩

theorem reconcileAll_safe (other : task ≠ .executor) (waiting : state.holder ≠ some task) :
    TaskSafe terms follows task (Service.reconcileAll config)
      (fun _ after => after.holder ≠ some task) state := by
  refine Program.safe_bind.mpr (safe_readSpool fun before relied valid => ⟨?_, ?_⟩)
  case refine_2 => exact fun _ _ => relied.waiting waiting
  intro read isStored
  have wrote := wrote_of_stored isStored
  dsimp only
  split
  next moving =>
    refine Program.safe_bind.mpr (Program.safe_bind.mpr
      (safe_acquire fun granted grantedRely free valid entered => ?_))
    have current := tracking.enters granted read (entered read rfl)
    have holding : Holding follows task read (written granted.entries)
        { granted with holder := some task } :=
      @Holding.of_stored follows task read { granted with holder := some task }
        (tracking.refl read) ⟨valid.chained, valid.present, valid.consistent⟩ rfl current
        fun _ => staged_of_moving moving (wrote_of_stored current)
    refine Program.safe_bind.mpr (safe_aside rfl Holding.stable holding
      fun synchronized _ holding => ?_)
    refine Program.safe_bind.mpr (Program.Safe.imp (recover_holds tracking holding synchronized) ?_)
    rintro ⟨_, copy⟩ after ⟨later, reached⟩
    refine Program.safe_bind.mpr (safe_release reached.held fun last _ retires _ => ?_)
    exact reconcile_safe tracking
      ⟨(reached.seen other).mono retires.grows, (Option.some_ne_none task).symm⟩
  next => exact reconcile_safe tracking ⟨wrote.seen, relied.waiting waiting⟩

theorem reportEnded_safe (holding : Holding follows task record past state)
    (other : task ≠ .executor) :
    TaskSafe terms follows task (Service.reportEnded config record)
      (fun _ after => after.holder ≠ some task) state := by
  refine Program.safe_bind.mpr (safe_aside rfl Holding.stable holding fun present _ holding => ?_)
  split
  · exact report_safe tracking (holding.seen other) holding.held
  refine Program.safe_bind.mpr
    ((holding.safe_write tracking (tracking.refl record) holding.consistent rfl).imp ?_)
  rintro _ after ⟨rfl, written, _⟩
  exact report_safe tracking (written.seen other) written.held

theorem requestCancellation_safe (other : task ≠ .executor) (held : state.holder = some task)
    (valid : Valid follows state) (isStored : state.spool = some record) :
    TaskSafe terms follows task (Service.requestCancellation record)
      (fun _ after => after.holder ≠ some task) state := by
  have wrote := wrote_of_stored isStored
  have consistent : SpoolRecord.Consistent { record with cancelRequested := true } :=
    valid.consistent record wrote
  have stays : ∀ before after : Ledger, before.holder = some task → Rely task before after →
      after.holder = some task := fun _ _ held relied => (relied.holding held).1
  refine Program.safe_bind.mpr (safe_writeSpool held consistent
    fun before retires still valid _ => ⟨?_, ?_, ?_⟩)
  · intro old oldStored
    have same := retires.spool oldStored
    rw [isStored, Option.some.injEq] at same
    exact same ▸ tracking.flags record true
  · intro _ untouched
    have untouchedState := retires.untouched_iff.mp untouched
    have entries := retires.entries_eq untouchedState.not_reported
    have beforeStored : before.spool = some record := by
      rw [Ledger.spool, entries]
      exact isStored
    have pristine := untouchedState record wrote
    exact .touch other untouched beforeStored
      ⟨true, record.acknowledgedSequence, record.logOffset, record.logCompleteAcknowledged, rfl⟩
      ⟨pristine.1, pristine.2.1, pristine.2.2⟩
  · refine Program.safe_bind.mpr (@safe_aside terms follows task _ _
      (fun ledger => ledger.holder = some task) _ rfl stays still fun _ _ still => ?_)
    refine Program.safe_bind.mpr (safe_aside rfl stays still fun present _ still => ?_)
    refine Program.safe_bind.mpr (safe_aside rfl stays still fun _ _ still => ?_)
    refine Program.safe_bind.mpr ((release_safe still).imp fun _ _ free => ?_)
    cases present with
    | false => exact free
    | true =>
        exact @safe_aside terms follows task _ _ (fun ledger => ledger.holder ≠ some task) _ rfl
          (fun _ _ waiting relied => relied.waiting waiting) free fun _ _ free => free

/-- `cancel` with a record that has not ended is `cancel` with the record in the file. -/
theorem cancelRecord_safe {specHash : String} (other : task ≠ .executor)
    (held : state.holder = some task) (valid : Valid follows state)
    (ended : record.state.isTerminal = true → ∃ past, Holding follows task record past state)
    (isStored : record.state.isTerminal = false → state.spool = some record) :
    TaskSafe terms follows task (Service.cancelRecord config record specHash)
      (fun _ after => after.holder ≠ some task) state := by
  by_cases conflict : record.specHash ≠ specHash
  · have chosen : Service.cancelRecord config record specHash =
        perform (.release .acceptance) := if_pos conflict
    rw [chosen]
    exact release_safe held
  cases isEnded : record.state.isTerminal with
  | true =>
      have chosen : Service.cancelRecord config record specHash =
          Service.reportEnded config record := (if_neg conflict).trans (if_pos isEnded)
      rw [chosen]
      rcases ended isEnded with ⟨past, holding⟩
      exact reportEnded_safe tracking holding other
  | false =>
      have chosen : Service.cancelRecord config record specHash =
          Service.requestCancellation record :=
        (if_neg conflict).trans (if_neg (by simp [isEnded]))
      rw [chosen]
      exact requestCancellation_safe tracking other held valid (isStored isEnded)

/-- The section of a task that has found no file. -/
structure Vacant (task : AgentTask) (ledger : Ledger) : Prop where
  held : ledger.holder = some task
  missing : ledger.spool = none
  staged : ¬Untouched ledger.entries

omit tracking in
theorem Vacant.stable (before after : Ledger) (vacant : Vacant task before)
    (relied : Rely task before after) : Vacant task after := by
  rcases relied.holding vacant.held with ⟨still, retires⟩
  refine ⟨still, ?_, mt retires.untouched_iff.mp vacant.staged⟩
  rw [Option.eq_none_iff_forall_ne_some]
  intro record isStored
  have present := retires.spool isStored
  rw [vacant.missing] at present
  cases present

omit tracking in
/-- Nothing is overwritten where there is no file. -/
theorem Vacant.holding (vacant : Vacant task state) (consistent : record.Consistent)
    (incomplete : record.logCompleteAcknowledged = false) :
    Holding follows task record (Ledger.written state.entries) state where
  held := vacant.held
  written := rfl
  durable old isStored := by
    rw [vacant.missing] at isStored
    cases isStored
  consistent
  complete isComplete := by simp [incomplete] at isComplete
  staged _ := vacant.staged

omit tracking in
theorem Vacant.of_missing (valid : Valid follows state) (held : state.holder = some task)
    (missing : state.spool = none) : Vacant task state :=
  ⟨held, missing, fun untouched => valid.present untouched missing⟩

theorem cancel_safe {runId specHash : String} {attempt : ℕ} (other : task ≠ .executor) :
    TaskSafe terms follows task (Service.cancel config runId attempt specHash)
      (fun _ after => after.holder ≠ some task) state := by
  refine Program.safe_bind.mpr (safe_acquire fun granted relied free valid _ => ?_)
  refine Program.safe_bind.mpr (safe_readSpool fun read readRely validRead => ⟨?_, ?_⟩)
  · intro record isStored
    have held := (readRely.holding rfl).1
    refine cancelRecord_safe tracking other held validRead (fun ended => ?_) fun _ => isStored
    exact ⟨_, .of_stored (tracking.refl record) validRead held isStored fun _ =>
      staged_of_ended ended (wrote_of_stored isStored)⟩
  · intro missing message
    have vacant := Vacant.of_missing validRead (readRely.holding rfl).1 missing
    refine Program.safe_bind.mpr (safe_aside rfl Vacant.stable vacant fun present _ vacant => ?_)
    cases present with
    | true => exact release_safe vacant.held
    | false =>
        refine Program.safe_bind.mpr ?_
        rintro before time after nowRely valid rfl
        refine ⟨⟨.refl task _, valid⟩, ?_⟩
        have vacantNow := vacant.stable _ _ nowRely
        refine cancelRecord_safe tracking other vacantNow.held valid (fun _ => ?_) ?_
        · exact ⟨_, vacantNow.holding trivial rfl⟩
        · rintro ⟨⟩

end Others

/-! ## A redelivered `StartAttempt` -/

section Accept

variable {terms : Terms} {once : Prop} {follows : SpoolRecord → SpoolRecord → Prop}
  {task : AgentTask} {record : SpoolRecord} {past : List (AgentTask × SpoolRecord)}
  {state : Ledger} {config : AgentConfig}

theorem every_admission {executionIdentity : Option ExecutionIdentity} {spec : ProcessRunSpec} :
    (Service.admission config executionIdentity spec).Every
      (fun operation => isAside operation = true) fun _ => True := by
  have bounds : ∀ publication, (Service.checkBounds config publication).Every
      (fun operation => isAside operation = true) fun _ => True := by
    intro publication
    unfold Service.checkBounds
    split
    · trivial
    · split
      · trivial
      · trivial
      · exact ⟨rfl, fun _ => trivial⟩
  have locked : ∀ mirror publication, (Service.admitLocked config mirror publication).Every
      (fun operation => isAside operation = true) fun _ => True := by
    intro mirror publication
    have scanned : (perform AgentOp.spoolRecords).Every (fun operation => isAside operation = true)
        fun _ => True := ⟨rfl, fun _ => trivial⟩
    refine Program.every_bind.mpr (scanned.imp ?_)
    rintro (error | records) _
    · trivial
    dsimp only
    split
    · trivial
    · exact bounds publication
  have admits : (Service.publicationAdmission config executionIdentity spec).Every
      (fun operation => isAside operation = true) fun _ => True := by
    unfold Service.publicationAdmission
    dsimp only
    split
    · trivial
    split
    · trivial
    split
    · trivial
    refine Program.every_bind.mpr ⟨rfl, fun _ => Program.every_bind.mpr ((locked _ _).imp ?_)⟩
    rintro (error | _) _
    · exact ⟨rfl, fun _ => trivial⟩
    · trivial
  unfold Service.admission
  split
  · trivial
  · refine Program.every_bind.mpr (admits.imp ?_)
    rintro (error | guard) _ <;> trivial

theorem releaseGuard_safe {guard : Option String} {assertion : Ledger → Prop}
    (stable : ∀ before after, assertion before → Rely task before after → assertion after)
    (holds : assertion state) :
    TaskSafe terms follows task (Service.releaseGuard guard) (fun _ => assertion) state := by
  cases guard with
  | none => exact holds
  | some mirror => exact safe_aside rfl stable holds fun _ _ holds => holds

variable (tracking : Tracking terms once follows)

include tracking

theorem rejectLocally_safe {message : String} (other : task ≠ .executor)
    (vacant : Vacant task state)
    (unpublished : record.requiresPublicationRecovery = false)
    (incomplete : record.logCompleteAcknowledged = false) :
    TaskSafe terms follows task (Service.rejectLocally config record message)
      (fun _ after => after.holder ≠ some task) state := by
  have stays : ∀ before after : Ledger, before.holder ≠ some task → Rely task before after →
      after.holder ≠ some task := fun _ _ waiting relied => relied.waiting waiting
  refine Program.safe_bind.mpr (safe_aside rfl Vacant.stable vacant fun time _ vacant => ?_)
  have consistent : (record.terminal .rejected none (some .rejected) (some message)
      time).Consistent := SpoolRecord.consistent_of_unpublished unpublished rfl
  have holding := @Vacant.holding follows task _ _ vacant consistent incomplete
  refine Program.safe_bind.mpr
    ((holding.safe_write tracking (tracking.refl _) consistent rfl).imp ?_)
  rintro _ after ⟨rfl, written, _⟩
  refine Program.safe_bind.mpr (safe_release written.held fun last _ retires _ => ?_)
  have knows : Knows task _ { last with holder := none } :=
    ⟨(written.seen other).mono retires.grows, (Option.some_ne_none task).symm⟩
  refine Program.safe_bind.mpr ((reconcile_safe tracking knows).imp fun _ _ free => ?_)
  exact safe_aside rfl stays free fun _ _ free => free

theorem startExecution_safe {guard : Option String} (vacant : Vacant task state)
    (unpublished : record.requiresPublicationRecovery = false)
    (incomplete : record.logCompleteAcknowledged = false) :
    TaskSafe terms follows task (Service.startExecution record guard)
      (fun _ after => after.holder ≠ some task) state := by
  have consistent : record.Consistent := SpoolRecord.consistent_of_unpublished unpublished rfl
  have holding := @Vacant.holding follows task _ _ vacant consistent incomplete
  refine Program.safe_bind.mpr
    ((holding.safe_write tracking (tracking.refl _) consistent rfl).imp ?_)
  rintro _ after ⟨rfl, written, _⟩
  refine Program.safe_bind.mpr (safe_aside rfl Holding.stable written fun _ _ written => ?_)
  refine Program.safe_bind.mpr (safe_aside rfl Holding.stable written fun _ _ written => ?_)
  refine Program.safe_bind.mpr ((releaseGuard_safe Holding.stable written).imp
    fun _ _ written => ?_)
  refine Program.safe_bind.mpr (safe_aside rfl Holding.stable written fun _ _ written => ?_)
  exact release_safe written.held

theorem acceptFresh_safe {runId specHash : String} {attempt : ℕ}
    {executionIdentity : Option ExecutionIdentity} {spec : ProcessRunSpec}
    (other : task ≠ .executor) (vacant : Vacant task state) :
    TaskSafe terms follows task
      (Service.acceptFresh config runId attempt specHash executionIdentity spec)
      (fun _ after => after.holder ≠ some task) state := by
  have fresh : ∀ time, (SpoolRecord.acceptedWithIdentity runId attempt specHash executionIdentity
      spec time).requiresPublicationRecovery = false := by
    intro time
    unfold SpoolRecord.requiresPublicationRecovery SpoolRecord.acceptedWithIdentity
    cases spec.publication <;> rfl
  have full : (Service.activeOrFull config).Every (fun operation => isAside operation = true)
      fun _ => True := by
    refine ⟨rfl, ?_⟩
    rintro (_ | _)
    · exact ⟨rfl, fun _ => trivial⟩
    · trivial
  refine Program.safe_bind.mpr (safe_aside rfl Vacant.stable vacant fun _ _ vacant => ?_)
  refine Program.safe_bind.mpr ((safe_every full Vacant.stable vacant).imp ?_)
  rintro (_ | _) _ ⟨_, vacant⟩
  case true =>
    refine Program.safe_bind.mpr (safe_aside rfl Vacant.stable vacant fun _ _ vacant => ?_)
    exact release_safe vacant.held
  refine Program.safe_bind.mpr ((safe_every every_admission Vacant.stable vacant).imp ?_)
  rintro (message | guard) _ ⟨_, vacant⟩
  · refine Program.safe_bind.mpr (safe_aside rfl Vacant.stable vacant fun time _ vacant => ?_)
    exact rejectLocally_safe tracking other vacant (fresh time) rfl
  · refine Program.safe_bind.mpr (safe_aside rfl Vacant.stable vacant fun time _ vacant => ?_)
    exact startExecution_safe tracking vacant (fresh time) rfl

theorem acceptWithIdentity_safe {runId specHash : String} {attempt : ℕ}
    {executionIdentity : Option ExecutionIdentity} {spec : ProcessRunSpec}
    (other : task ≠ .executor) :
    TaskSafe terms follows task
      (Service.acceptWithIdentity config runId attempt specHash executionIdentity spec)
      (fun _ after => after.holder ≠ some task) state := by
  refine Program.safe_bind.mpr (safe_acquire fun granted relied free valid _ => ?_)
  refine Program.safe_bind.mpr (safe_readSpool fun read readRely validRead => ⟨?_, ?_⟩)
  · intro existing isStored
    have seen := (wrote_of_stored isStored).seen
    refine Program.safe_bind.mpr (safe_release (readRely.holding rfl).1
      fun last _ retires _ => ?_)
    split
    · exact (Option.some_ne_none task).symm
    · exact reconcile_safe tracking
        ⟨seen.mono retires.grows, (Option.some_ne_none task).symm⟩
  · intro missing message
    exact acceptFresh_safe tracking other
      (.of_missing validRead (readRely.holding rfl).1 missing)

end Accept

/-! ## The recovery after a restart -/

section Boot

variable {terms : Terms} {once : Prop} {follows : SpoolRecord → SpoolRecord → Prop}
  {record : SpoolRecord} {state : Ledger} {config : AgentConfig}

/-- Safety of a program that runs alone after a restart. -/
abbrev BootSafe (terms : Terms) (follows : SpoolRecord → SpoolRecord → Prop) {α : Type}
    (program : AgentProgram α) (post : α → Ledger → Prop) (state : Ledger) : Prop :=
  program.Safe (Step terms .reconciler) Eq (fun _ _ => True) (Valid follows) post state

/-- A task that is safe among others is safe alone. -/
theorem bootSafe_of_taskSafe {α : Type} {program : AgentProgram α} {post : α → Ledger → Prop}
    (safe : TaskSafe terms follows .reconciler program post state) :
    BootSafe terms follows program post state := by
  refine Program.Safe.mono safe ?_ ?_ ?_ ?_
  · rintro before _ rfl
    exact .refl .reconciler before
  · exact fun _ _ _ _ _ performed => performed
  · exact fun _ _ _ _ _ => trivial
  · exact fun _ _ holds => holds

variable (tracking : Tracking terms once follows)

include tracking

theorem reconcile_boot (seen : Seen record state.entries)
    (free : state.holder ≠ some .reconciler) :
    BootSafe terms follows (discard ((Service.reconcile config).run record)) (fun _ _ => True)
      state :=
  (bootSafe_of_taskSafe (reconcile_safe tracking ⟨seen, free⟩)).imp fun _ _ _ => trivial

theorem reconcileEnded_boot (seen : Seen record state.entries)
    (free : state.holder ≠ some .reconciler) :
    BootSafe terms follows
      (if record.state.isTerminal then discard ((Service.reconcile config).run record)
        else pure ()) (fun _ _ => True) state := by
  split
  · exact reconcile_boot tracking seen free
  · exact trivial

theorem recoverPublication_boot (valid : Valid follows state)
    (isStored : state.spool = some record)
    (moving : record.requiresPublicationRecovery = true) :
    BootSafe terms follows (Service.recoverPublication config record) (fun _ _ => True)
      state := by
  refine Program.safe_bind.mpr ?_
  rintro _ _ _ rfl _ ⟨_, _, rfl⟩
  have same : Valid follows { state with holder := some .reconciler } :=
    ⟨valid.chained, valid.present, valid.consistent⟩
  refine ⟨⟨trivial, same⟩, ?_⟩
  have holding := @Holding.of_stored follows .reconciler record
    { state with holder := some .reconciler } (tracking.refl record) same rfl isStored
    fun _ => staged_of_moving moving (wrote_of_stored isStored)
  refine Program.safe_bind.mpr ((bootSafe_of_taskSafe (recover_holds tracking holding false)).imp ?_)
  rintro ⟨_, copy⟩ recovered ⟨later, reached⟩
  refine Program.safe_bind.mpr ?_
  rintro _ _ _ rfl validAfter rfl
  refine ⟨⟨trivial, validAfter.chained, validAfter.present, validAfter.consistent⟩, ?_⟩
  exact reconcileEnded_boot tracking (reached.seen (by simp)) (Option.some_ne_none _).symm

theorem normalizeInterrupted_boot (valid : Valid follows state)
    (isStored : state.spool = some record)
    (unmoved : record.requiresPublicationRecovery = false) :
    BootSafe terms follows (Service.normalizeInterrupted record)
      (fun copy after => Wrote copy after.entries ∧ after.holder = state.holder) state := by
  unfold Service.normalizeInterrupted
  split
  · exact ⟨wrote_of_stored isStored, rfl⟩
  next live =>
    have ends : ∀ ended : SpoolRecord, follows record ended →
        ended.publication = record.publication →
          BootSafe terms follows
            (do
              discard (perform (.writeSpool ended))
              pure ended)
            (fun copy after => Wrote copy after.entries ∧ after.holder = state.holder)
            state := by
      intro ended related publication
      refine Program.safe_bind.mpr (Program.safe_bind.mpr ?_)
      rintro _ reply _ rfl _ ⟨_, _, rfl⟩
      refine ⟨⟨trivial, valid.write .reconciler ?_ ?_⟩, wrote_cons_iff.mpr (.inl rfl), rfl⟩
      · intro old oldStored
        rw [isStored, Option.some.injEq] at oldStored
        exact oldStored ▸ related
      · exact SpoolRecord.consistent_of_unpublished unmoved publication
    have notEnded : record.state.isTerminal = false := by simpa using live
    refine Program.safe_bind.mpr ?_
    rintro _ time _ rfl _ rfl
    refine ⟨⟨trivial, valid⟩, ends _ ?_ ?_⟩
    · split
      · exact tracking.ends _ _ _ _ _ _ fun _ => notEnded
      · exact tracking.ends _ _ _ _ _ _ fun _ => notEnded
    · split <;> rfl

theorem recoverRecord_boot (valid : Valid follows state) (free : state.holder = none)
    (isStored : state.spool = some record) :
    BootSafe terms follows
      (if record.requiresPublicationRecovery then Service.recoverPublication config record
        else do
          let record ← Service.normalizeInterrupted record
          discard ((Service.reconcile config).run record)) (fun _ _ => True) state := by
  split
  next moving => exact recoverPublication_boot tracking valid isStored moving
  next unmoved =>
    refine Program.safe_bind.mpr
      ((normalizeInterrupted_boot tracking valid isStored (by simpa using unmoved)).imp ?_)
    rintro copy normalized ⟨wrote, holder⟩
    refine reconcile_boot tracking wrote.seen ?_
    rw [holder, free]
    exact (Option.some_ne_none _).symm

/-- The recovery after a restart, up to any point where it is cut off. -/
theorem recover_boot (valid : Valid follows state) (free : state.holder = none) :
    BootSafe terms follows (Service.recover config) (fun _ _ => True) state := by
  refine Program.safe_bind.mpr ?_
  rintro _ reply _ rfl _ ⟨rfl, answered⟩
  refine ⟨⟨trivial, valid⟩, ?_⟩
  rcases answered with ⟨record, isStored, rfl⟩ | ⟨_, message, rfl⟩
  · exact recoverRecord_boot tracking valid free isStored
  · exact trivial

end Boot

/-! ## Lifetimes -/

/-- `reconcile_all`, `cancel` and the acceptance of a command are started again and again. -/
inductive Attends (config : AgentConfig) (runId : String) (attempt : ℕ) :
    AgentTask → AgentProgram Unit → Prop where
  | reconcileAll : Attends config runId attempt .reconciler (Service.reconcileAll config)
  | cancel (specHash : String) :
      Attends config runId attempt .poller (Service.cancel config runId attempt specHash)
  | accept (specHash : String) (executionIdentity : Option ExecutionIdentity)
      (spec : ProcessRunSpec) :
      Attends config runId attempt .poller
        (Service.acceptWithIdentity config runId attempt specHash executionIdentity spec)

end Ledger

/-- The tasks of an agent over the ledger of an attempt. -/
abbrev LedgerPool := Pool AgentTask AgentOp AgentOp.Reply Ledger

/--
The states of an agent during its lifetimes, with whether its tasks run. A crash
loses the tasks and the locks; the agent is up again when `recover` has come to
its end, and may crash again before.
-/
inductive LedgerPool.Lives (config : AgentConfig) (runId : String) (attempt : ℕ)
    (terms : Ledger.Terms) (start : LedgerPool) : LedgerPool → Bool → Prop where
  | start : Lives config runId attempt terms start start true
  | move {pool after : LedgerPool} (lived : Lives config runId attempt terms start pool true)
      (moved : Pool.Move (Ledger.Step terms) (Ledger.Attends config runId attempt) pool after) :
      Lives config runId attempt terms start after true
  | crash {pool : LedgerPool} {up : Bool} {rest : AgentProgram Unit} {ledger : Ledger}
      (lived : Lives config runId attempt terms start pool up)
      (booted : Program.Reaches (Ledger.Step terms .reconciler)
        (Service.recover config, { pool.state with holder := none }) (rest, ledger)) :
      Lives config runId attempt terms start
        ⟨fun _ => .pure (), { ledger with holder := none }⟩ rest.isDone

/-- An attempt that was just accepted: the record is written, and the executor is spawned. -/
structure LedgerPool.Begun (config : AgentConfig) (record : SpoolRecord) (pool : LedgerPool) :
    Prop where
  entries : pool.state.entries = [⟨.executor, some record⟩]
  pristine : record.IsPristine
  unfenced : record.phase? ≠ some .abandonedFenced
  free : pool.state.holder = none
  executor : pool.tasks .executor = Service.runAccepted config record
  idle : ∀ task, task ≠ .executor → pool.tasks task = .pure ()

namespace LedgerPool

open Ledger

variable {config : AgentConfig} {runId : String} {attempt : ℕ} {terms : Terms} {once : Prop}
  {follows : SpoolRecord → SpoolRecord → Prop} {record : SpoolRecord} {pool last : LedgerPool}
  {up : Bool}

theorem Begun.valid (begun : pool.Begun config record) : Valid follows pool.state := by
  have wrote : ∀ written, Ledger.Wrote written pool.state.entries → written = record := by
    rw [begun.entries]
    rintro written ⟨entry, listed, isRecord⟩
    cases List.mem_singleton.mp listed
    cases isRecord
    rfl
  refine ⟨?_, fun _ => ?_, fun written isWritten => ?_⟩
  · rw [begun.entries]
    refine ⟨trivial, ?_⟩
    rintro old new ⟨⟩
  · rw [Ledger.spool, begun.entries]
    exact Option.some_ne_none record
  · rw [wrote written isWritten]
    exact SpoolRecord.consistent_of_unpublished begun.pristine.1 rfl

theorem Begun.waits (begun : pool.Begun config record) : Waits record pool.state := by
  refine ⟨⟨?_, begun.pristine, begun.unfenced, record, ?_, le_rfl, rfl,
    fun _ => sameAcknowledgements_refl record⟩, ?_⟩
  · rw [begun.entries]
    rintro written ⟨entry, listed, isRecord⟩
    cases List.mem_singleton.mp listed
    cases isRecord
    exact begun.pristine
  · rw [Ledger.spool, begun.entries]
    rfl
  · rw [begun.free]
    exact (Option.some_ne_none _).symm

/-- All tasks keep the invariant, and a crash finds it. -/
theorem Begun.secure (tracking : Tracking terms once follows)
    (begun : pool.Begun config record)
    (lived : LedgerPool.Lives config runId attempt terms pool last up) :
    last.Secure (Ledger.Step terms) Rely Guarantee (Valid follows)
      (fun task ledger => ledger.holder ≠ some task) := by
  induction lived with
  | start =>
      refine ⟨begun.valid, fun task => ?_⟩
      by_cases executor : task = .executor
      · subst executor
        rw [begun.executor]
        exact runAccepted_safe tracking begun.waits
      · rw [begun.idle task executor]
        change pool.state.holder ≠ some task
        rw [begun.free]
        exact (Option.some_ne_none task).symm
  | move _ moved ih =>
      refine ih.move Rely.refl (fun _ _ _ _ => Rely.trans)
        (fun _ _ _ waiting relied => relied.waiting waiting)
        (fun _ _ _ _ different _ => Guarantee.rely different) ?_ moved
      rintro _ _ ledger (_ | _ | _) _ waiting
      · exact Ledger.reconcileAll_safe tracking (by simp) waiting
      · exact cancel_safe tracking (by simp)
      · exact acceptWithIdentity_safe tracking (by simp)
  | @crash crashed _ _ restarted _ booted ih =>
      have valid : Valid follows { crashed.state with holder := none } :=
        ⟨ih.valid.chained, ih.valid.present, ih.valid.consistent⟩
      have booting := @recover_boot _ _ _ _ config tracking valid rfl
      have found := (Program.Safe.of_reaches (fun _ => rfl) booting valid booted).2
      exact ⟨⟨found.chained, found.present, found.consistent⟩,
        fun task => (Option.some_ne_none task).symm⟩

end LedgerPool

end LzuMirror
