import LzuMirror.Store.Integrity

/-!
# Attempt numbers and the retry budget

The attempts of a run are numbered without gaps, up to the attempt count of the
run and within its limit, whatever the agents report. The policy of a manual run
is stored when the run is created; the one of a scheduled run is stored with
every dispatch, but always from the generation the run was created for, which is
never rewritten.
-/

namespace LzuMirror

/-- What only a dispatch may change of a run. -/
structure RunRow.Retains (old new : RunRow) : Prop where
  trigger : new.trigger = old.trigger
  maxAttempts : new.maxAttempts = old.maxAttempts
  retryDelayMs : new.retryDelayMs = old.retryDelayMs
  waiting : (old.retryDueAtMs.isSome = true → old.state = .running) →
    new.retryDueAtMs.isSome = true → new.state = .running

/-- Existing runs and attempts move forward and keep their policies. -/
structure Database.Moves (before after : Database) : Prop where
  advances : before.Advances after
  retains : Table.Rowwise RunRow.Retains before.runs after.runs

theorem RunRow.Retains.refl (run : RunRow) : run.Retains run :=
  ⟨rfl, rfl, rfl, fun waiting => waiting⟩

/-- A run without a deadline does not wait. -/
theorem RunRow.Retains.of_none {old new : RunRow} (trigger : new.trigger = old.trigger)
    (maxAttempts : new.maxAttempts = old.maxAttempts)
    (retryDelayMs : new.retryDelayMs = old.retryDelayMs) (undue : new.retryDueAtMs = none) :
    old.Retains new :=
  ⟨trigger, maxAttempts, retryDelayMs, by simp [undue]⟩

section Moves

variable {db after : Database} {mirror : String} {now : ℤ}

theorem Database.Moves.refl (db : Database) : db.Moves db :=
  ⟨.refl db, .refl .refl _⟩

/-- A transaction that leaves the runs alone. -/
theorem Database.Moves.of_runs_eq (advances : db.Advances after) (same : after.runs = db.runs) :
    db.Moves after :=
  ⟨advances, by rw [same]; exact .refl .refl _⟩

theorem Database.Moves.trans {first second third : Database} (left : first.Moves second)
    (right : second.Moves third) : first.Moves third where
  advances := left.advances.trans right.advances
  retains := left.retains.trans
    (fun _ _ _ old new => ⟨new.trigger.trans old.trigger, new.maxAttempts.trans old.maxAttempts,
      new.retryDelayMs.trans old.retryDelayMs, fun waiting => new.waiting (old.waiting waiting)⟩)
    right.retains

theorem cancelUndispatchedPending_moves : db.Moves (cancelUndispatchedPending db mirror now) := by
  refine ⟨cancelUndispatchedPending_advances db mirror now, Table.rowwise_of_map rfl ?_⟩
  intro run _
  split
  next matched =>
    simp only [Bool.and_eq_true, decide_eq_true_eq] at matched
    refine ⟨rfl, rfl, rfl, fun waiting due => ?_⟩
    have running := waiting due
    rw [matched.1.2] at running
    cases running
  next => exact .refl run

theorem finalizeIneligibleRetries_moves : db.Moves (finalizeIneligibleRetries db mirror now) := by
  refine ⟨finalizeIneligibleRetries_advances db mirror now, Table.rowwise_of_map rfl ?_⟩
  intro run _
  dsimp only
  split
  · split
    · exact .refl run
    · exact .of_none rfl rfl rfl rfl
  · exact .refl run

theorem Database.Cancels.moves {runId : String} {rearm : String → Except StoreError (Option ℤ)}
    (cancels : db.Cancels runId now rearm after) : db.Moves after := by
  refine ⟨cancels.advances, ?_⟩
  cases cancels with
  | ended => exact .refl .refl _
  | requested =>
      refine Table.rowwise_of_map rfl ?_
      intro run _
      split
      · exact ⟨rfl, rfl, rfl, fun waiting => waiting⟩
      · exact .refl run
  | undispatched =>
      refine Database.rowwise_cancelled.imp ?_
      rintro old new rfl
      split
      · exact .of_none rfl rfl rfl rfl
      · exact .refl old

theorem Database.Projects.moves {vendor : Vendor} {runId : String} {attemptNo : ℕ}
    {event : AttemptEvent} {retryScheduled : Bool}
    (projects : db.Projects runId attemptNo event now (decideTerminal vendor) retryScheduled
      after) : db.Moves after := by
  refine ⟨projects.advances, ?_⟩
  cases projects with
  | nothing => exact .refl .refl _
  | start =>
      refine Table.rowwise_of_map rfl ?_
      intro run _
      split
      · exact ⟨rfl, rfl, rfl, fun _ _ => rfl⟩
      · exact .refl run
  | @decided _ source decision =>
      unfold Database.applyDecision
      cases decision.retry with
      | schedule due =>
          refine Table.rowwise_of_map rfl ?_
          intro run _
          split
          · exact ⟨rfl, rfl, rfl, fun _ _ => rfl⟩
          · exact .refl run
      | final state =>
          have finished : Table.Rowwise RunRow.Retains db.runs
              (db.finishRun runId state event.projection.runStartedAtMs
                (event.projection.runFinishedAtMs.getD now) event).runs := by
            refine Table.rowwise_of_map rfl ?_
            intro run _
            split
            · exact .of_none rfl rfl rfl rfl
            · exact .refl run
          cases decision.intervalNextDueAtMs <;> exact finished

theorem Database.Applies.moves {vendor : Vendor} {attempt : AttemptRow} {event : AttemptEvent}
    {result : AttemptEventApplyResult} (mem : attempt ∈ db.attempts)
    (applies : db.Applies attempt event now (decideTerminal vendor) result after) :
    db.Moves after := by
  cases applies with
  | known => exact .refl db
  | recorded newer accepted projects =>
      have recorded := Database.recordEvent_advances mem newer accepted
      exact (Database.Moves.of_runs_eq recorded rfl).trans projects.moves

end Moves

/-- The inductive form of the numbering. A scheduled run is stored before its first attempt. -/
structure Database.Numbered (vendor : Vendor) (db : Database) : Prop where
  numbered : ∀ run ∈ db.runs, ∀ number,
    (∃ attempt ∈ db.attempts, attempt.key = (run.id, number)) ↔
      1 ≤ number ∧ number ≤ run.attemptCount
  bounded : ∀ run ∈ db.runs, 1 ≤ run.attemptCount → run.attemptCount ≤ run.maxAttempts
  manual : ∀ run ∈ db.runs, run.trigger = .manual → 1 ≤ run.maxAttempts
  policed : ∀ run ∈ db.runs, run.trigger = .scheduled → 1 ≤ run.attemptCount →
    ∀ generation ∈ db.generations,
      generation.key = (run.mirrorName, run.mirrorGeneration) →
        compilePolicy vendor generation.configToml = .ok ⟨run.maxAttempts, run.retryDelayMs⟩
  positive : ∀ generation ∈ db.generations, ∀ policy,
    compilePolicy vendor generation.configToml = .ok policy → 1 ≤ policy.maxAttempts
  waiting : ∀ run ∈ db.runs, run.retryDueAtMs.isSome = true → run.state = .running

/-- A scheduled run has been dispatched. -/
def Database.Begun (db : Database) : Prop :=
  ∀ run ∈ db.runs, run.trigger = .scheduled → 1 ≤ run.attemptCount

/-- A later state of a run that has been dispatched. -/
structure RunRow.Continues (old new : RunRow) : Prop where
  id : new.id = old.id
  mirrorGeneration : new.mirrorGeneration = old.mirrorGeneration
  maxAttempts : new.maxAttempts = old.maxAttempts
  retryDelayMs : new.retryDelayMs = old.retryDelayMs
  attemptCount : old.attemptCount ≤ new.attemptCount

/-- Every run that has been dispatched continues. -/
def Database.Continues (before after : Database) : Prop :=
  ∀ run ∈ before.runs, 1 ≤ run.attemptCount → ∃ later ∈ after.runs, run.Continues later

theorem RunRow.Continues.refl (run : RunRow) : run.Continues run :=
  ⟨rfl, rfl, rfl, rfl, le_rfl⟩

theorem Database.Continues.refl (db : Database) : db.Continues db :=
  fun run mem _ => ⟨run, mem, .refl run⟩

theorem Database.Continues.trans {first second third : Database} (left : first.Continues second)
    (right : second.Continues third) : first.Continues third := by
  intro run mem dispatched
  obtain ⟨middle, middleMem, before⟩ := left run mem dispatched
  obtain ⟨last, lastMem, later⟩ := right middle middleMem (dispatched.trans before.attemptCount)
  exact ⟨last, lastMem, later.id.trans before.id,
    later.mirrorGeneration.trans before.mirrorGeneration,
    later.maxAttempts.trans before.maxAttempts, later.retryDelayMs.trans before.retryDelayMs,
    before.attemptCount.trans later.attemptCount⟩

section Kept

variable {vendor : Vendor} {db after : Database}

theorem Database.Numbered.empty : Database.empty.Numbered vendor := by
  constructor <;> intro row mem <;> exact absurd mem Table.not_mem_empty

/-- Moving forward keeps the numbers and the policies. -/
theorem Database.Numbered.move (numbered : db.Numbered vendor) (moves : db.Moves after) :
    after.Numbered vendor := by
  have advances := moves.advances
  have rowwise := advances.runs.and moves.retains
  have keys : ∀ key : String × ℕ, (∃ attempt ∈ after.attempts, attempt.key = key) ↔
      ∃ attempt ∈ db.attempts, attempt.key = key := by
    intro key
    constructor
    · rintro ⟨attempt, mem, rfl⟩
      obtain ⟨old, oldMem, follows⟩ := advances.attempts.origin mem
      exact ⟨old, oldMem, follows.key.symm⟩
    · rintro ⟨attempt, mem, rfl⟩
      obtain ⟨new, newMem, follows⟩ := advances.attempts.successor mem
      exact ⟨new, newMem, follows.key⟩
  constructor
  · intro run mem number
    obtain ⟨old, oldMem, ⟨follows, count⟩, _⟩ := rowwise.origin mem
    rw [keys, follows.id, count]
    exact numbered.numbered old oldMem number
  · intro run mem
    obtain ⟨old, oldMem, ⟨_, count⟩, retains⟩ := rowwise.origin mem
    rw [count, retains.maxAttempts]
    exact numbered.bounded old oldMem
  · intro run mem
    obtain ⟨old, oldMem, _, retains⟩ := rowwise.origin mem
    rw [retains.trigger, retains.maxAttempts]
    exact numbered.manual old oldMem
  · intro run mem
    obtain ⟨old, oldMem, ⟨follows, count⟩, retains⟩ := rowwise.origin mem
    rw [retains.trigger, retains.maxAttempts, retains.retryDelayMs, count, advances.generations,
      follows.mirrorName, follows.mirrorGeneration]
    exact numbered.policed old oldMem
  · rw [advances.generations]
    exact numbered.positive
  · intro run mem
    obtain ⟨old, oldMem, _, retains⟩ := rowwise.origin mem
    exact retains.waiting (numbered.waiting old oldMem)

theorem Database.Begun.move (begun : db.Begun) (moves : db.Moves after) : after.Begun := by
  intro run mem
  obtain ⟨old, oldMem, ⟨_, count⟩, retains⟩ := (moves.advances.runs.and moves.retains).origin mem
  rw [retains.trigger, count]
  exact begun old oldMem

theorem Database.Moves.continues (moves : db.Moves after) : db.Continues after := by
  intro run mem _
  obtain ⟨later, laterMem, ⟨follows, count⟩, retains⟩ :=
    (moves.advances.runs.and moves.retains).successor mem
  exact ⟨later, laterMem, follows.id, follows.mirrorGeneration, retains.maxAttempts,
    retains.retryDelayMs, count.ge⟩

/-- A new generation has the key of no run and a positive limit. -/
theorem Database.Numbered.configStep {bundle : CanonicalBundle vendor}
    {changes : List ConfigChange} (numbered : db.Numbered vendor) (sound : db.Sound)
    (step : ConfigStep bundle changes db after) : after.Numbered vendor := by
  cases step with
  | bookkeeping | unmanage => exact { numbered with }
  | @upsert change mirror generation revision now generations mem kind present toGeneration
      inserted =>
      obtain ⟨fresh, members⟩ := Table.insert?_eq_some inserted
      refine { numbered with policed := ?_, positive := ?_ }
      · intro run runMem trigger dispatched stored storedMem keyed
        rcases (members stored).mp storedMem with oldMem | rfl
        · exact numbered.policed run runMem trigger dispatched stored oldMem keyed
        · obtain ⟨own, ownMem, ownKey, _⟩ := sound.runGeneration run runMem
          exact absurd (ownKey.trans keyed.symm) (fresh own ownMem)
      · intro stored storedMem policy compiled
        rcases (members stored).mp storedMem with oldMem | rfl
        · exact numbered.positive stored oldMem policy compiled
        · obtain ⟨name, _, entry⟩ := CanonicalBundle.get?_eq_some present
          have parsed : vendor.parseDocument mirror.canonicalToml = .ok mirror.document :=
            bundle.parses _ entry
          simp only [compilePolicy, storedDocument, parsed, Except.map, Except.ok.injEq] at compiled
          rw [← compiled]
          exact (bundle.policiesBounded _ entry).1
  | cancelPending => exact numbered.move cancelUndispatchedPending_moves
  | finalizeRetries => exact numbered.move finalizeIneligibleRetries_moves

theorem configStep_begun {bundle : CanonicalBundle vendor} {changes : List ConfigChange}
    (begun : db.Begun) (step : ConfigStep bundle changes db after) : after.Begun := by
  cases step with
  | bookkeeping | unmanage | upsert => exact begun
  | cancelPending => exact begun.move cancelUndispatchedPending_moves
  | finalizeRetries => exact begun.move finalizeIneligibleRetries_moves

theorem configStep_continues {bundle : CanonicalBundle vendor} {changes : List ConfigChange}
    (step : ConfigStep bundle changes db after) : db.Continues after := by
  cases step with
  | bookkeeping | unmanage | upsert => exact .refl db
  | cancelPending => exact cancelUndispatchedPending_moves.continues
  | finalizeRetries => exact finalizeIneligibleRetries_moves.continues

/-- What inserting a run without attempts leaves. -/
theorem Database.Inserts.runs {run : RunRow} (inserts : db.Inserts run after) :
    (∀ other ∈ db.runs, other.id ≠ run.id) ∧ after.attempts = db.attempts ∧
      after.generations = db.generations ∧
      ∀ other, other ∈ after.runs ↔ other ∈ db.runs ∨ other = run := by
  obtain ⟨middle, inserted, rfl⟩ := inserts.inserted
  obtain ⟨_, fresh, runs, rfl, members⟩ := Database.insertRun_eq_ok inserted
  exact ⟨fresh, rfl, rfl, members⟩

theorem Database.Inserts.continues {run : RunRow} (inserts : db.Inserts run after) :
    db.Continues after := by
  obtain ⟨_, _, _, members⟩ := inserts.runs
  exact fun old mem _ => ⟨old, (members old).mpr (.inl mem), .refl old⟩

theorem Database.Numbered.inserts {run : RunRow} (numbered : db.Numbered vendor) (sound : db.Sound)
    (inserts : db.Inserts run after) (manual : run.trigger = .manual → 1 ≤ run.maxAttempts) :
    after.Numbered vendor := by
  obtain ⟨fresh, attempts, generations, members⟩ := inserts.runs
  have unattempted := inserts.unattempted
  constructor
  · intro other mem number
    rw [attempts]
    rcases (members other).mp mem with oldMem | rfl
    · exact numbered.numbered other oldMem number
    · rw [unattempted]
      refine ⟨?_, by omega⟩
      rintro ⟨attempt, attemptMem, keyed⟩
      obtain ⟨owner, ownerMem, owned, _⟩ := sound.attemptRun attempt attemptMem
      exact absurd (owned.trans (congrArg Prod.fst keyed)) (fresh owner ownerMem)
  · intro other mem dispatched
    rcases (members other).mp mem with oldMem | rfl
    · exact numbered.bounded other oldMem dispatched
    · omega
  · intro other mem
    rcases (members other).mp mem with oldMem | rfl
    · exact numbered.manual other oldMem
    · exact manual
  · intro other mem trigger dispatched
    rw [generations]
    rcases (members other).mp mem with oldMem | rfl
    · exact numbered.policed other oldMem trigger dispatched
    · omega
  · rw [generations]
    exact numbered.positive
  · intro other mem due
    rcases (members other).mp mem with oldMem | rfl
    · exact numbered.waiting other oldMem due
    · simp [inserts.unscheduled] at due

/-- A candidate has the next number, and it is within the limit that is already in force. -/
structure Database.NextNumber (staged : Database) (candidate : DispatchCandidate)
    (run : RunRow) : Prop where
  selected : staged.Candidate candidate run
  attemptNo : candidate.attemptNo = run.attemptCount + 1
  within : run.trigger = .manual ∨ 1 ≤ run.attemptCount → candidate.attemptNo ≤ run.maxAttempts

theorem Database.Selects.nextNumber {staged : Database} {node : String}
    {candidate : DispatchCandidate} (selects : db.Selects node candidate staged) (sound : db.Sound) (numbered : db.Numbered vendor) :
    staged.Numbered vendor ∧ ∃ run, staged.NextNumber candidate run := by
  obtain ⟨_, run, selected⟩ := selects.candidate sound
  cases selects with
  | @manual found mem pending trigger _ unattempted =>
      obtain rfl := Table.eq_of_key_eq selected.mem mem selected.id
      have count : run.attemptCount = 0 := by
        by_contra dispatched
        obtain ⟨attempt, attemptMem, keyed⟩ :=
          (numbered.numbered run mem 1).mpr ⟨le_rfl, by omega⟩
        exact unattempted attempt attemptMem (congrArg Prod.fst keyed)
      exact ⟨numbered, run, selected, by simp [count], fun _ => numbered.manual run mem trigger⟩
  | @retry found mem running due within _ =>
      obtain rfl := Table.eq_of_key_eq selected.mem mem selected.id
      exact ⟨numbered, run, selected, rfl, fun _ => within⟩
  | @scheduled found staged inserts trigger _ =>
      have same : run = found := by
        obtain ⟨_, _, _, members⟩ := inserts.runs
        exact Table.eq_of_key_eq selected.mem ((members found).mpr (.inr rfl)) selected.id
      subst same
      have unattempted := inserts.unattempted
      refine ⟨numbered.inserts sound inserts (by simp [trigger]), run, selected, ?_, ?_⟩
      · simp [unattempted]
      · rintro (manual | dispatched)
        · simp [trigger] at manual
        · omega

/-- The policy of a compiled dispatch is the one of its generation. -/
theorem compileDispatch_policy {node : String} {agent : AgentProfile} {source : DispatchSource}
    {compiled : CompiledDispatch}
    (compiles : compileDispatch vendor node agent source = .ok (some compiled)) :
    compilePolicy vendor source.configToml = .ok compiled.policy := by
  obtain ⟨document, _, stored, policy, _⟩ := compileDispatch_eq_ok compiles
  rw [compilePolicy, stored, policy]
  rfl

section Dispatch

variable {candidate : DispatchCandidate} {generation : GenerationRow}
  {compiled : CompiledDispatch} {now : ℤ} {action : Option PollAction} {run : RunRow}

/-- The run of a new attempt: a dispatch repeats the policy the run already has. -/
structure RunRow.Dispatches (old new : RunRow) (policy : RunPolicySnapshot) : Prop where
  id : new.id = old.id
  mirrorName : new.mirrorName = old.mirrorName
  mirrorGeneration : new.mirrorGeneration = old.mirrorGeneration
  trigger : new.trigger = old.trigger
  attemptCount : new.attemptCount = old.attemptCount + 1
  undue : new.retryDueAtMs = none
  policed : new.trigger = .scheduled → new.maxAttempts = policy.maxAttempts ∧
    new.retryDelayMs = policy.retryDelayMs
  kept : old.trigger = .manual ∨ 1 ≤ old.attemptCount →
    new.maxAttempts = old.maxAttempts ∧ new.retryDelayMs = old.retryDelayMs

theorem Database.NextNumber.dispatches (next : db.NextNumber candidate run)
    (numbered : db.Numbered vendor) (generationMem : generation ∈ db.generations)
    (generationKey : generation.key = (candidate.mirrorName, candidate.generation))
    (policed : compilePolicy vendor generation.configToml = .ok compiled.policy) :
    run.Dispatches (run.dispatchedAs (candidate.source generation) compiled.policy)
      compiled.policy := by
  have own : run.id = (candidate.source generation).runId := next.selected.id
  have same : run.trigger = .scheduled → 1 ≤ run.attemptCount →
      compiled.policy = ⟨run.maxAttempts, run.retryDelayMs⟩ := by
    intro trigger dispatched
    have keyed : generation.key = (run.mirrorName, run.mirrorGeneration) := by
      rw [generationKey, next.selected.mirrorName, next.selected.mirrorGeneration]
    have stored := numbered.policed run next.selected.mem trigger dispatched generation
      generationMem keyed
    rw [policed, Except.ok.injEq] at stored
    exact stored
  unfold RunRow.dispatchedAs
  rw [if_pos own]
  refine ⟨rfl, rfl, rfl, rfl, next.attemptNo, rfl, ?_, ?_⟩
  · intro trigger
    exact ⟨if_pos trigger, if_pos trigger⟩
  · rintro started
    by_cases trigger : run.trigger = .scheduled
    · have dispatched : 1 ≤ run.attemptCount := started.resolve_left (by simp [trigger])
      simp [trigger, same trigger dispatched]
    · simp [trigger]

/-- What persisting a dispatch does: one run gets one more attempt. -/
structure Database.AddsAttempt (db after : Database) (run : RunRow) (policy : RunPolicySnapshot) :
    Prop where
  generations : after.generations = db.generations
  runs : ∀ later ∈ after.runs,
    later ∈ db.runs ∧ later.id ≠ run.id ∨ run.Dispatches later policy
  keys : ∀ key, (∃ attempt ∈ after.attempts, attempt.key = key) ↔
    (∃ attempt ∈ db.attempts, attempt.key = key) ∨ key = (run.id, run.attemptCount + 1)
  continues : db.Continues after

theorem Database.NextNumber.addsAttempt (next : db.NextNumber candidate run)
    (numbered : db.Numbered vendor) (generationMem : generation ∈ db.generations)
    (generationKey : generation.key = (candidate.mirrorName, candidate.generation))
    (policed : compilePolicy vendor generation.configToml = .ok compiled.policy)
    (persists : db.persistDispatch (candidate.source generation) compiled now =
      .ok (action, after)) : db.AddsAttempt after run compiled.policy := by
  obtain ⟨_, _, _, generations, runs, members⟩ := Database.persistDispatch_eq_ok persists
  have dispatches := next.dispatches numbered generationMem generationKey policed
  refine ⟨generations, ?_, ?_, ?_⟩
  · intro later mem
    obtain ⟨old, oldMem, rfl⟩ := runs.origin mem
    by_cases own : old.id = run.id
    · obtain rfl := Table.eq_of_key_eq oldMem next.selected.mem own
      exact .inr dispatches
    · rw [RunRow.dispatchedAs_of_ne (fun same => own (same.trans next.selected.id.symm))]
      exact .inl ⟨oldMem, own⟩
  · intro key
    have added : (AttemptRow.dispatched (candidate.source generation) compiled now).key =
        (run.id, run.attemptCount + 1) := by
      rw [next.selected.id, ← next.attemptNo]
      rfl
    constructor
    · rintro ⟨attempt, mem, rfl⟩
      rcases (members attempt).mp mem with oldMem | rfl
      · exact .inl ⟨attempt, oldMem, rfl⟩
      · exact .inr added
    · rintro (⟨attempt, mem, rfl⟩ | rfl)
      · exact ⟨attempt, (members attempt).mpr (.inl mem), rfl⟩
      · exact ⟨_, (members _).mpr (.inr rfl), added⟩
  · intro old mem dispatched
    obtain ⟨later, laterMem, rfl⟩ := runs.successor mem
    refine ⟨_, laterMem, ?_⟩
    by_cases own : old.id = run.id
    · obtain rfl := Table.eq_of_key_eq mem next.selected.mem own
      have kept := dispatches.kept (.inr dispatched)
      refine ⟨dispatches.id, dispatches.mirrorGeneration, kept.1, kept.2, ?_⟩
      rw [dispatches.attemptCount]
      exact Nat.le_succ _
    · rw [RunRow.dispatchedAs_of_ne (fun same => own (same.trans next.selected.id.symm))]
      exact .refl old

/-- The limit covers the new attempt, also the first one of a scheduled run. -/
theorem RunRow.Dispatches.bounded {later : RunRow} {policy : RunPolicySnapshot}
    (dispatches : run.Dispatches later policy) (positive : 1 ≤ policy.maxAttempts)
    (within : run.trigger = .manual ∨ 1 ≤ run.attemptCount →
      run.attemptCount + 1 ≤ run.maxAttempts) : later.attemptCount ≤ later.maxAttempts := by
  rw [dispatches.attemptCount]
  by_cases started : run.trigger = .manual ∨ 1 ≤ run.attemptCount
  · rw [(dispatches.kept started).1]
    exact within started
  · have trigger : later.trigger = .scheduled := by
      rw [dispatches.trigger]
      cases kind : run.trigger with
      | scheduled => rfl
      | manual => exact absurd (.inl kind) started
    rw [(dispatches.policed trigger).1]
    omega

theorem Database.Numbered.addsAttempt (numbered : db.Numbered vendor)
    (next : db.NextNumber candidate run) (generationMem : generation ∈ db.generations)
    (generationKey : generation.key = (candidate.mirrorName, candidate.generation))
    (policed : compilePolicy vendor generation.configToml = .ok compiled.policy)
    (adds : db.AddsAttempt after run compiled.policy) : after.Numbered vendor := by
  have positive := numbered.positive generation generationMem compiled.policy policed
  constructor
  · intro later mem number
    rw [adds.keys]
    rcases adds.runs later mem with ⟨oldMem, other⟩ | own
    · rw [numbered.numbered later oldMem]
      simp [other]
    · rw [own.id, numbered.numbered run next.selected.mem, own.attemptCount]
      simp only [Prod.mk.injEq, true_and]
      omega
  · intro later mem dispatched
    rcases adds.runs later mem with ⟨oldMem, _⟩ | own
    · exact numbered.bounded later oldMem dispatched
    · exact own.bounded positive (next.attemptNo ▸ next.within)
  · intro later mem trigger
    rcases adds.runs later mem with ⟨oldMem, _⟩ | own
    · exact numbered.manual later oldMem trigger
    · have manual : run.trigger = .manual := own.trigger.symm.trans trigger
      rw [(own.kept (.inl manual)).1]
      exact numbered.manual run next.selected.mem manual
  · intro later mem trigger dispatched stored storedMem keyed
    rw [adds.generations] at storedMem
    rcases adds.runs later mem with ⟨oldMem, _⟩ | own
    · exact numbered.policed later oldMem trigger dispatched stored storedMem keyed
    · have same : stored = generation := by
        apply Table.eq_of_key_eq storedMem generationMem
        rw [keyed, generationKey, own.mirrorName, own.mirrorGeneration,
          next.selected.mirrorName, next.selected.mirrorGeneration]
      rw [same, policed, (own.policed trigger).1, (own.policed trigger).2]
  · rw [adds.generations]
    exact numbered.positive
  · intro later mem due
    rcases adds.runs later mem with ⟨oldMem, _⟩ | own
    · exact numbered.waiting later oldMem due
    · simp [own.undue] at due

/-- A poll that dispatches: the run of the attempt may have been stored in the same transaction. -/
theorem Database.Selects.begun {staged : Database} {node : String}
    (selects : db.Selects node candidate staged)
    (begun : db.Begun) (next : staged.NextNumber candidate run)
    (adds : staged.AddsAttempt after run compiled.policy) : after.Begun := by
  intro later mem trigger
  rcases adds.runs later mem with ⟨stagedMem, other⟩ | own
  · cases selects with
    | manual | retry => exact begun later stagedMem trigger
    | scheduled inserts =>
        obtain ⟨_, _, _, members⟩ := inserts.runs
        rcases (members later).mp stagedMem with oldMem | rfl
        · exact begun later oldMem trigger
        · exact absurd next.selected.id.symm other
  · rw [own.attemptCount]
    exact Nat.le_add_left 1 _

theorem Database.Selects.continues {staged : Database} {node : String}
    (selects : db.Selects node candidate staged) : db.Continues staged := by
  cases selects with
  | manual | retry => exact .refl db
  | scheduled inserts => exact inserts.continues

end Dispatch

/-- What every transaction keeps. -/
structure Database.Budgeted (vendor : Vendor) (db : Database) : Prop where
  sound : db.Sound
  numbered : db.Numbered vendor
  begun : db.Begun

theorem Database.Budgeted.move (budgeted : db.Budgeted vendor) (moves : db.Moves after) :
    after.Budgeted vendor ∧ db.Continues after :=
  ⟨⟨budgeted.sound.advance moves.advances, budgeted.numbered.move moves,
    budgeted.begun.move moves⟩, moves.continues⟩

theorem Database.Budgeted.configSteps {bundle : CanonicalBundle vendor}
    {changes : List ConfigChange} (budgeted : db.Budgeted vendor)
    (steps : Relation.ReflTransGen (ConfigStep bundle changes) db after) :
    after.Budgeted vendor ∧ db.Continues after := by
  induction steps with
  | refl => exact ⟨budgeted, .refl db⟩
  | tail _ step ih =>
      obtain ⟨middle, continues⟩ := ih
      exact ⟨⟨middle.sound.configStep step, middle.numbered.configStep middle.sound step,
        configStep_begun middle.begun step⟩, continues.trans (configStep_continues step)⟩

theorem Database.Budgeted.creates {run : RunRow} (budgeted : db.Budgeted vendor)
    (creates : db.CreatesManual (compilePolicy vendor) run after) :
    after.Budgeted vendor ∧ db.Continues after := by
  obtain ⟨generation, generationMem, _, policed⟩ := creates.policed
  have positive := budgeted.numbered.positive generation generationMem _ policed
  refine ⟨⟨budgeted.sound.inserts creates.inserts, ?_, ?_⟩, creates.inserts.continues⟩
  · exact budgeted.numbered.inserts budgeted.sound creates.inserts fun _ => positive
  · intro later mem trigger
    obtain ⟨_, _, _, members⟩ := creates.inserts.runs
    rcases (members later).mp mem with oldMem | rfl
    · exact budgeted.begun later oldMem trigger
    · simp [creates.trigger] at trigger

theorem Database.Budgeted.polls {node : String} {agent : AgentProfile} {now : ℤ}
    {action : Option PollAction} (budgeted : db.Budgeted vendor)
    (polls : db.Polls node now (compileDispatch vendor node agent) action after) :
    after.Budgeted vendor ∧ db.Continues after := by
  cases polls with
  | nothing | cancel => exact ⟨budgeted, .refl db⟩
  | redeliver => exact budgeted.move (.of_runs_eq (markRedelivery_advances db _ _) rfl)
  | @dispatch candidate generation compiled _ staged after selects generationMem generationKey
      compiles persists =>
      obtain ⟨stagedNumbered, run, next⟩ := selects.nextNumber budgeted.sound budgeted.numbered
      obtain ⟨stagedSound, _⟩ := selects.candidate budgeted.sound
      have policed := compileDispatch_policy compiles
      rw [← selects.generations] at generationMem
      have adds := next.addsAttempt stagedNumbered generationMem generationKey policed persists
      refine ⟨⟨stagedSound.persists next.selected persists, ?_, ?_⟩, ?_⟩
      · exact stagedNumbered.addsAttempt next generationMem generationKey policed adds
      · exact selects.begun budgeted.begun next adds
      · exact selects.continues.trans adds.continues

theorem Database.Budgeted.step (budgeted : db.Budgeted vendor) (operation : StoreOp vendor) :
    (operation.run db).Budgeted vendor ∧ db.Continues (operation.run db) := by
  have effect := operation.run_effect db
  generalize operation.run db = after at effect
  cases effect with
  | unchanged => exact ⟨budgeted, .refl db⟩
  | bookkeeping => exact ⟨⟨budgeted.sound.bookkeeping rfl rfl rfl rfl,
      { budgeted.numbered with }, budgeted.begun⟩, .refl db⟩
  | configured _ _ _ applied => exact budgeted.configSteps (Database.apply_steps applied)
  | created creates => exact budgeted.creates creates
  | polled polls => exact budgeted.polls polls
  | cancelled cancels => exact budgeted.move cancels.moves
  | reported mem _ applies => exact budgeted.move (applies.moves mem)

theorem ReachableBy.budgeted {allowed : Database → StoreOp vendor → Prop}
    (reachable : ReachableBy allowed db) : db.Budgeted vendor := by
  refine reachable.invariant ⟨.empty, .empty, ?_⟩ ?_
  · exact fun run mem => absurd mem Table.not_mem_empty
  · exact fun _ operation _ budgeted _ => (budgeted.step operation).1

theorem Database.Budgeted.continues {allowed : Database → StoreOp vendor → Prop}
    (budgeted : db.Budgeted vendor)
    (steps : Relation.ReflTransGen (StoreStep allowed) db after) : db.Continues after := by
  have run : after.Budgeted vendor ∧ db.Continues after := by
    induction steps with
    | refl => exact ⟨budgeted, .refl db⟩
    | tail _ step ih =>
        obtain ⟨operation, _, rfl⟩ := step
        have next := ih.1.step operation
        exact ⟨next.1, ih.2.trans next.2⟩
  exact run.2

end Kept

/--
Attempt numbers and the retry budget. In every reachable database the attempts
of a run have the numbers from 1 to its attempt count and no others, the count
is within the limit once there is an attempt, a scheduled run has its first
attempt, and in every later database a run that has an attempt still has the
same generation, limit and delay.
-/
theorem attempts_within_budget {vendor : Vendor} {db : Database} (reachable : Reachable vendor db)
    {run : RunRow} (mem : run ∈ db.runs) :
    (∀ number, (∃ attempt ∈ db.attempts, attempt.runId = run.id ∧ attempt.attemptNo = number) ↔
        1 ≤ number ∧ number ≤ run.attemptCount) ∧
      ((∃ attempt ∈ db.attempts, attempt.runId = run.id) → run.attemptCount ≤ run.maxAttempts) ∧
      (run.trigger = .scheduled →
        ∃ attempt ∈ db.attempts, attempt.runId = run.id ∧ attempt.attemptNo = 1) ∧
      ∀ later, Relation.ReflTransGen (@StoreStep vendor fun _ _ => True) db later →
        (∃ attempt ∈ db.attempts, attempt.runId = run.id) →
          ∃ same ∈ later.runs, same.id = run.id ∧ same.mirrorGeneration = run.mirrorGeneration ∧
            same.maxAttempts = run.maxAttempts ∧ same.retryDelayMs = run.retryDelayMs := by
  have budgeted := reachable.budgeted
  have numbers : ∀ number,
      (∃ attempt ∈ db.attempts, attempt.runId = run.id ∧ attempt.attemptNo = number) ↔
        1 ≤ number ∧ number ≤ run.attemptCount := by
    intro number
    rw [← budgeted.numbered.numbered run mem number]
    simp [AttemptRow.key]
  have dispatched : (∃ attempt ∈ db.attempts, attempt.runId = run.id) → 1 ≤ run.attemptCount := by
    rintro ⟨attempt, attemptMem, owned⟩
    have range := (numbers attempt.attemptNo).mp ⟨attempt, attemptMem, owned, rfl⟩
    exact range.1.trans range.2
  refine ⟨numbers, fun attempted => ?_, fun trigger => ?_, fun later steps attempted => ?_⟩
  · exact budgeted.numbered.bounded run mem (dispatched attempted)
  · exact (numbers 1).mpr ⟨le_rfl, budgeted.begun run mem trigger⟩
  · obtain ⟨same, sameMem, continues⟩ := budgeted.continues steps run mem (dispatched attempted)
    exact ⟨same, sameMem, continues.id, continues.mirrorGeneration, continues.maxAttempts,
      continues.retryDelayMs⟩

/-- A manual run of alpha whose first attempt has failed and waits for the second. -/
def Sample.failedOnce : List (StoreOp Sample.vendor) :=
  [.apply (alphaBundle nodeA) 0 0, .createManualRun "alpha" "request-1" 1 "run-1",
    .pollAction "node-a" agent 2 "run-2", .applyEvent "run-1" 1 (report 1 .accepted) 3,
    .applyEvent "run-1" 1 (report 2 .failed) 4]

theorem attempts_within_budget_failedOnce :
    ∃ run ∈ (StoreOp.runAll .empty Sample.failedOnce).runs, run.retryDueAtMs.isSome = true ∧
      run.attemptCount = 1 ∧ run.attemptCount ≤ run.maxAttempts := by
  have found : (StoreOp.runAll .empty Sample.failedOnce).runs.any (fun run =>
      run.retryDueAtMs.isSome && decide (run.attemptCount = 1)) = true := by decide +kernel
  obtain ⟨run, mem, matched⟩ := Table.any_eq_true.mp found
  simp only [Bool.and_eq_true, decide_eq_true_eq] at matched
  have budget := attempts_within_budget (Reachable.runAll Sample.failedOnce) mem
  obtain ⟨attempt, attemptMem, owned, _⟩ := (budget.1 1).mpr ⟨le_rfl, matched.2.ge⟩
  exact ⟨run, mem, matched.1, matched.2, budget.2.1 ⟨attempt, attemptMem, owned⟩⟩

end LzuMirror
