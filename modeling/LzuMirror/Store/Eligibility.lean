import LzuMirror.Store.Reconfiguration

/-!
# Eligibility of a dispatch

The query for manual runs asks whether the mirror is managed and enabled, but
not who owns it. It need not: a run that is pending without an attempt belongs
to a managed and enabled mirror with the run's owner (`Database.Eligible`). A
change of the configuration that would break this cancels the run or is refused.

What was compiled for an attempt is stored with it and never rewritten, so that
every delivery of the attempt carries the same specification.
-/

namespace LzuMirror

namespace Database

/-- The undispatched runs of one mirror fit its row. -/
def EligibleAt (db : Database) (mirror : String) : Prop :=
  ∀ run ∈ db.runs, run.mirrorName = mirror → run.state = .pending →
    (∀ attempt ∈ db.attempts, attempt.runId ≠ run.id) →
      ∃ row ∈ db.mirrors, row.name = mirror ∧ row.managed = true ∧ row.enabled = true ∧
        row.ownerNode = run.ownerNode

/-- Every undispatched run fits the row of its mirror. -/
def Eligible (db : Database) : Prop := ∀ mirror, db.EligibleAt mirror

section Kept

variable {vendor : Vendor} {db after : Database} {mirror : String} {now : ℤ}

theorem EligibleAt.congr (eligible : db.EligibleAt mirror) (same : db.Untouched after mirror) :
    after.EligibleAt mirror := by
  intro run mem named pending unattempted
  have oldMem := (same.runs run named).mp mem
  have before : ∀ attempt ∈ db.attempts, attempt.runId ≠ run.id := by
    intro attempt attemptMem owned
    exact unattempted attempt ((same.attempts run oldMem named attempt owned).mpr attemptMem) owned
  rcases eligible run oldMem named pending before with ⟨row, rowMem, rowNamed, rest⟩
  exact ⟨row, (same.mirrors row rowNamed).mpr rowMem, rowNamed, rest⟩

/-- A run that is still pending has an attempt. -/
theorem attempted_of_cancelUndispatchedPending {run : RunRow}
    (mem : run ∈ (cancelUndispatchedPending db mirror now).runs) (named : run.mirrorName = mirror)
    (pending : run.state = .pending) :
    ∃ attempt ∈ (cancelUndispatchedPending db mirror now).attempts, attempt.runId = run.id := by
  rcases Table.mem_of_map rfl mem with ⟨old, _, made⟩
  split at made
  · rw [← made] at pending
    cases pending
  next unmatched =>
    rw [made] at unmatched
    simp only [named, pending, decide_true, Bool.and_self, Bool.true_and, Bool.not_eq_true',
      Bool.not_eq_false, Table.any_eq_true, Bool.and_eq_true, decide_eq_true_eq] at unmatched
    rcases unmatched with ⟨attempt, attemptMem, owned, _⟩
    exact ⟨attempt, attemptMem, owned⟩

/-- Finalising retries makes no pending run. -/
theorem mem_of_finalizeIneligibleRetries {run : RunRow}
    (mem : run ∈ (finalizeIneligibleRetries db mirror now).runs) (pending : run.state = .pending) :
    run ∈ db.runs := by
  rcases Table.mem_of_map rfl mem with ⟨old, oldMem, made⟩
  dsimp only at made
  split at made
  · split at made
    · exact made ▸ oldMem
    next attempt _ =>
      have ended := finalizedRetry_isTerminal now attempt old
      rw [made, pending] at ended
      cases ended
  · exact made ▸ oldMem

theorem eligibleAt_applyRemove : (applyRemove db mirror now).EligibleAt mirror := by
  intro run mem named pending unattempted
  have cancelled := mem_of_finalizeIneligibleRetries mem pending
  rcases attempted_of_cancelUndispatchedPending cancelled named pending with
    ⟨attempt, attemptMem, owned⟩
  exact absurd owned (unattempted attempt attemptMem)

/-- A change that stores an entry cancels the run, found none, or leaves a fitting row. -/
theorem EligibleAt.upsert {bundle : CanonicalBundle vendor} {change : ConfigChange}
    {entry : CanonicalMirror} {number : ℕ} (eligible : db.EligibleAt change.mirror)
    (planned : db.PlannedFor bundle change) (kind : change.kind ≠ .remove)
    (present : bundle.get? change.mirror = some entry)
    (upserts : Upserts vendor db change entry number now after) :
    after.EligibleAt change.mirror := by
  intro run mem named pending unattempted
  rw [upserts.runs] at mem
  rw [upserts.attempts] at unattempted
  have stored : upsertedRow change entry number ∈ after.mirrors := by
    rw [upserts.mirrors]
    exact Table.mem_put.mpr (.inr rfl)
  unfold settleRuns at mem unattempted
  cases enabled : entry.document.mirror.enabled with
  | false =>
      rw [if_pos enabled] at mem unattempted
      have cancelled := mem_of_finalizeIneligibleRetries mem pending
      rcases attempted_of_cancelUndispatchedPending cancelled named pending with
        ⟨attempt, attemptMem, owned⟩
      exact absurd owned (unattempted attempt attemptMem)
  | true =>
      rw [if_neg (by simp [enabled])] at mem unattempted
      have known : run ∈ db.runs := by
        split at mem
        · exact mem_of_finalizeIneligibleRetries mem pending
        · exact mem
      have before : ∀ attempt ∈ db.attempts, attempt.runId ≠ run.id := by
        split at unattempted <;> exact unattempted
      rcases eligible run known named pending before with
        ⟨row, rowMem, rowNamed, managed, wasEnabled, owner⟩
      refine ⟨_, stored, rfl, rfl, enabled, ?_⟩
      cases planned with
      | remove _ _ _ _ removed => exact absurd removed kind
      | create fresh => exact absurd rowNamed (fresh row rowMem)
      | upsert otherMem otherNamed otherPresent changeKind _ quiet =>
          have same := Table.eq_of_key_eq otherMem rowMem (otherNamed.trans rowNamed.symm)
          subst same
          rw [Option.some.inj (otherPresent.symm.trans present)] at changeKind
          by_contra moved
          have isMove : change.kind = .move := by
            rw [changeKind, if_pos]
            exact ⟨managed, fun keeps => moved (keeps.trans owner)⟩
          have idle := Database.hasActiveRun_eq_false.mp (quiet isMove) run known named
          rw [pending] at idle
          cases idle

theorem EligibleAt.change {bundle : CanonicalBundle vendor} {change : ConfigChange}
    {revision : ℕ} (planned : db.PlannedFor bundle change)
    (applied : applyChange bundle revision now db change = .ok after)
    (eligible : db.EligibleAt change.mirror) : after.EligibleAt change.mirror := by
  rcases applyChange_eq_ok applied with
    ⟨_, rfl⟩ | ⟨kind, entry, number, present, _, upserted⟩
  · exact eligibleAt_applyRemove
  · exact eligible.upsert planned kind present (applyUpsert_upserts upserted)

/-- Moving runs and attempts forward makes no undispatched run. -/
theorem Eligible.advance (eligible : db.Eligible) (advances : db.Advances after)
    (evolves : db.Evolves after) : after.Eligible := by
  intro mirror run mem named pending unattempted
  rcases advances.runs.origin mem with ⟨old, oldMem, follows, _⟩
  rcases evolves.kept old oldMem with ⟨later, laterMem, evolved⟩
  have same := Table.eq_of_key_eq laterMem mem (evolved.id.trans follows.id.symm)
  subst same
  have oldPending : old.state = .pending := by
    by_contra begun
    exact evolved.begun begun pending
  have before : ∀ attempt ∈ db.attempts, attempt.runId ≠ old.id := by
    intro attempt attemptMem owned
    rcases advances.attempts.successor attemptMem with ⟨next, nextMem, nextFollows⟩
    refine unattempted next nextMem ?_
    rw [follows.id, ← owned]
    exact congrArg Prod.fst nextFollows.key
  rw [advances.mirrors, follows.ownerNode]
  exact eligible mirror old oldMem (follows.mirrorName.symm.trans named) oldPending before

theorem Eligible.congr (eligible : db.Eligible) (mirrors : after.mirrors = db.mirrors)
    (runs : after.runs = db.runs) (attempts : after.attempts = db.attempts) : after.Eligible := by
  unfold Eligible EligibleAt
  rw [mirrors, runs, attempts]
  exact eligible

theorem Eligible.inserts {run : RunRow} (eligible : db.Eligible) (inserts : db.Inserts run after) :
    after.Eligible := by
  rcases inserts.runs with ⟨_, attempts, _, members⟩
  have mirrors : after.mirrors = db.mirrors := by
    rcases inserts.inserted with ⟨middle, inserted, rfl⟩
    rcases Database.insertRun_eq_ok inserted with ⟨_, _, runs, rfl, _⟩
    rfl
  intro mirror other mem named pending unattempted
  rw [attempts] at unattempted
  rw [mirrors]
  rcases (members other).mp mem with oldMem | rfl
  · exact eligible mirror other oldMem named pending unattempted
  · rcases inserts.mirror with ⟨row, rowMem, managed, enabled, rowNamed, _, owner⟩
    exact ⟨row, rowMem, rowNamed.symm.trans named, managed, enabled, owner.symm⟩

theorem Eligible.polls {node : String} {action : Option PollAction}
    {compile : DispatchSource → Except StoreError (Option CompiledDispatch)}
    (eligible : db.Eligible) (polls : db.Polls node now compile action after) :
    after.Eligible := by
  cases polls with
  | nothing | cancel => exact eligible
  | redeliver => exact eligible.advance (markRedelivery_advances db _ _) (.of_runs_eq rfl)
  | @dispatch candidate generation compiled _ staged _ selects _ _ _ persists =>
      have stagedEligible : staged.Eligible := by
        cases selects with
        | manual | retry => exact eligible
        | scheduled inserts => exact eligible.inserts inserts
      rcases Database.persistDispatch_eq_ok persists with ⟨_, _, mirrors, _, runs, attempts⟩
      intro mirror run mem named pending unattempted
      rcases runs.origin mem with ⟨old, oldMem, rfl⟩
      have follows := old.dispatchedAs_follows (candidate.source generation) compiled.policy
      have before : ∀ attempt ∈ staged.attempts, attempt.runId ≠ old.id := by
        intro attempt attemptMem
        rw [← follows.id]
        exact unattempted attempt ((attempts attempt).mpr (.inl attemptMem))
      have oldPending : old.state = .pending := by
        unfold RunRow.dispatchedAs at pending
        split at pending <;> exact pending
      rw [mirrors, follows.ownerNode]
      exact stagedEligible mirror old oldMem (follows.mirrorName.symm.trans named) oldPending before

theorem Eligible.step (eligible : db.Eligible) (sound : db.Sound) (operation : StoreOp vendor) :
    (operation.run db).Eligible := by
  have evolves := operation.evolves db
  have effect := operation.run_effect db
  generalize operation.run db = after at effect evolves
  cases effect with
  | unchanged => exact eligible
  | bookkeeping => exact eligible.congr rfl rfl rfl
  | configured planned _ enforced applied =>
      intro mirror
      apply Database.apply_invariant sound planned enforced applied _ _ mirror (eligible mirror)
      · intro before later name same fits
        exact fits.congr same
      · intro before next change _ plannedFor applies fits
        exact fits.change plannedFor applies
  | created creates => exact eligible.inserts creates.inserts
  | polled polls => exact eligible.polls polls
  | cancelled cancels => exact eligible.advance cancels.advances evolves
  | reported mem _ applies => exact eligible.advance (applies.moves mem).advances evolves

end Kept

end Database

theorem LifeReachable.eligible {vendor : Vendor} {db : Database}
    (reachable : LifeReachable vendor db) : db.Eligible := by
  have both : db.Sound ∧ db.Eligible := by
    apply reachable.invariant
    · refine ⟨.empty, ?_⟩
      intro mirror run mem
      exact absurd mem Table.not_mem_empty
    · rintro before operation ⟨sound, eligible⟩
      exact ⟨sound.step operation, eligible.step sound operation⟩
    · rintro before restoredAtMs ⟨sound, eligible⟩
      have advances := normalizeRestored_advances before restoredAtMs
      exact ⟨sound.advance advances,
        eligible.advance advances (normalizeRestored_evolves before restoredAtMs)⟩
  exact both.2

/-! ## Deliveries -/

/-- What was compiled for an attempt is still stored with it. -/
def Database.Remembers (before after : Database) : Prop :=
  ∀ attempt ∈ before.attempts, ∃ later ∈ after.attempts,
    later.key = attempt.key ∧ later.specHash = attempt.specHash ∧ later.spec = attempt.spec

section Remembered

variable {vendor : Vendor} {db after : Database} {now : ℤ}

theorem Database.Remembers.of_mem (kept : ∀ attempt ∈ db.attempts, attempt ∈ after.attempts) :
    db.Remembers after :=
  fun attempt mem => ⟨attempt, kept attempt mem, rfl, rfl, rfl⟩

theorem Database.Remembers.trans {first second third : Database} (left : first.Remembers second)
    (right : second.Remembers third) : first.Remembers third := by
  intro attempt mem
  rcases left attempt mem with ⟨middle, middleMem, key, hash, spec⟩
  rcases right middle middleMem with ⟨later, laterMem, laterKey, laterHash, laterSpec⟩
  exact ⟨later, laterMem, laterKey.trans key, laterHash.trans hash, laterSpec.trans spec⟩

/-- An update of other columns. -/
theorem Database.Remembers.of_update {matching : AttemptRow → Bool} {set : AttemptRow → AttemptRow}
    (rows : after.attempts.rows =
      db.attempts.rows.map fun attempt => if matching attempt then set attempt else attempt)
    (key : ∀ attempt, (set attempt).key = attempt.key)
    (hash : ∀ attempt, (set attempt).specHash = attempt.specHash)
    (spec : ∀ attempt, (set attempt).spec = attempt.spec) : db.Remembers after := by
  intro attempt mem
  refine ⟨if matching attempt then set attempt else attempt, ?_, ?_⟩
  · rw [Table.mem_def, rows]
    exact List.mem_map_of_mem mem
  · split
    · exact ⟨key attempt, hash attempt, spec attempt⟩
    · exact ⟨rfl, rfl, rfl⟩

theorem configSteps_remember {bundle : CanonicalBundle vendor} {changes : List ConfigChange}
    (steps : Relation.ReflTransGen (ConfigStep bundle changes) db after) : db.Remembers after := by
  induction steps with
  | refl => exact .of_mem fun _ mem => mem
  | tail _ step ih =>
      apply ih.trans
      cases step with
      | bookkeeping | unmanage | upsert | finalizeRetries => exact .of_mem fun _ mem => mem
      | cancelPending => exact .of_update rfl (fun _ => rfl) (fun _ => rfl) (fun _ => rfl)

theorem Database.Selects.attempts {node : String} {candidate : DispatchCandidate}
    (selects : db.Selects node candidate after) : after.attempts = db.attempts := by
  cases selects with
  | manual | retry => rfl
  | scheduled inserts => exact inserts.runs.2.1

theorem Database.Polls.remembers {node : String} {action : Option PollAction}
    {compile : DispatchSource → Except StoreError (Option CompiledDispatch)}
    (polls : db.Polls node now compile action after) : db.Remembers after := by
  cases polls with
  | nothing | cancel => exact .of_mem fun _ mem => mem
  | redeliver => exact .of_update rfl (fun _ => rfl) (fun _ => rfl) (fun _ => rfl)
  | dispatch selects _ _ _ persists =>
      rcases Database.persistDispatch_eq_ok persists with ⟨_, _, _, _, _, attempts⟩
      apply Database.Remembers.of_mem
      intro attempt mem
      exact (attempts attempt).mpr (.inl (selects.attempts ▸ mem))

theorem Database.Cancels.remembers {runId : String}
    {rearm : String → Except StoreError (Option ℤ)} (cancels : db.Cancels runId now rearm after) :
    db.Remembers after := by
  cases cancels with
  | ended | requested => exact .of_mem fun _ mem => mem
  | undispatched => exact .of_update rfl (fun _ => rfl) (fun _ => rfl) (fun _ => rfl)

theorem Database.Applies.remembers {attempt : AttemptRow} {event : AttemptEvent}
    {result : AttemptEventApplyResult}
    (applies : db.Applies attempt event now (decideTerminal vendor) result after) :
    db.Remembers after := by
  cases applies with
  | known => exact .of_mem fun _ mem => mem
  | recorded _ _ projects =>
      have recorded : db.Remembers (db.recordEvent attempt.key event) :=
        .of_update rfl (fun _ => rfl) (fun _ => rfl) (fun _ => rfl)
      apply recorded.trans
      cases projects with
      | nothing | start => exact .of_mem fun _ mem => mem
      | @decided _ source decision =>
          unfold Database.applyDecision
          split
          · exact .of_mem fun _ mem => mem
          · split <;> exact .of_mem fun _ mem => mem

theorem LifeStep.remembers (step : LifeStep vendor db after) : db.Remembers after := by
  rcases step with ⟨operation, _, rfl⟩ | ⟨restoredAtMs, rfl⟩
  · have effect := operation.run_effect db
    generalize operation.run db = after at effect
    cases effect with
    | unchanged | bookkeeping => exact .of_mem fun _ mem => mem
    | configured _ _ _ applied => exact configSteps_remember (Database.apply_steps applied)
    | created creates =>
        apply Database.Remembers.of_mem
        rw [creates.inserts.runs.2.1]
        exact fun _ mem => mem
    | polled polls => exact polls.remembers
    | cancelled cancels => exact cancels.remembers
    | reported _ _ applies => exact applies.remembers
  · exact .of_update rfl (fun _ => rfl) (fun _ => rfl) (fun _ => rfl)

theorem lifeSteps_remember (steps : Relation.ReflTransGen (LifeStep vendor) db after) :
    db.Remembers after := by
  induction steps with
  | refl => exact .of_mem fun _ mem => mem
  | tail _ step ih => exact ih.trans step.remembers

/-- A delivery carries what is stored with its attempt. -/
theorem Database.Polls.delivers {node : String} {runId mirrorName specHash : String}
    {attemptNo : ℕ} {spec : ProcessRunSpec}
    {compile : DispatchSource → Except StoreError (Option CompiledDispatch)}
    (polls : db.Polls node now compile
      (some (.startAttempt runId attemptNo mirrorName specHash spec)) after) :
    (∃ attempt ∈ after.attempts, attempt.key = (runId, attemptNo) ∧
      attempt.specHash = specHash ∧ attempt.spec = spec) ∧
      ∀ attempt ∈ db.attempts, attempt.key = (runId, attemptNo) →
        attempt.specHash = specHash ∧ attempt.spec = spec := by
  have remembers := polls.remembers
  generalize answered : some (PollAction.startAttempt runId attemptNo mirrorName specHash spec) =
    answer at polls
  cases polls with
  | nothing | cancel => cases answered
  | @redeliver attempt run mem =>
      simp only [Option.some.injEq, PollAction.startAttempt.injEq] at answered
      rcases answered with ⟨rfl, rfl, _, rfl, rfl⟩
      constructor
      · rcases remembers attempt mem with ⟨later, laterMem, key, hash, stored⟩
        exact ⟨later, laterMem, key, hash, stored⟩
      · intro other otherMem keyed
        rw [Table.eq_of_key_eq otherMem mem keyed]
        exact ⟨rfl, rfl⟩
  | dispatch selects _ _ _ persists =>
      rcases Database.persistDispatch_eq_ok persists with ⟨fresh, started, _, _, _, attempts⟩
      rw [started] at answered
      simp only [Option.some.injEq, PollAction.startAttempt.injEq] at answered
      rcases answered with ⟨rfl, rfl, _, rfl, rfl⟩
      constructor
      · exact ⟨_, (attempts _).mpr (.inr rfl), rfl, rfl, rfl⟩
      · intro other otherMem keyed
        exact absurd keyed (fresh other (selects.attempts.symm ▸ otherMem))

/-- A new attempt is one of an eligible run, compiled from the run's generation. -/
theorem Database.Eligible.dispatches {node : String} {action : Option PollAction}
    {compile : DispatchSource → Except StoreError (Option CompiledDispatch)}
    (eligible : db.Eligible) (polls : db.Polls node now compile action after)
    {attempt : AttemptRow} (mem : attempt ∈ after.attempts)
    (new : ∀ old ∈ db.attempts, old.key ≠ attempt.key) :
    ∃ run ∈ after.runs, run.id = attempt.runId ∧
      action = some (.startAttempt attempt.runId attempt.attemptNo run.mirrorName attempt.specHash
        attempt.spec) ∧
      (∃ mirror ∈ db.mirrors, mirror.name = run.mirrorName ∧ mirror.managed = true ∧
        mirror.enabled = true ∧ mirror.ownerNode = node) ∧
      ∃ generation ∈ db.generations,
        generation.key = (run.mirrorName, run.mirrorGeneration) ∧
        ∃ policy, compile ⟨run.id, attempt.attemptNo, run.mirrorName, run.mirrorGeneration,
          generation.configToml⟩ = .ok (some ⟨attempt.spec, attempt.specHash, policy⟩) := by
  cases polls with
  | nothing | cancel => exact absurd rfl (new attempt mem)
  | redeliver =>
      rcases Table.mem_of_map rfl mem with ⟨old, oldMem, rfl⟩
      refine absurd ?_ (new old oldMem)
      split <;> rfl
  | @dispatch candidate generation compiled _ staged _ selects generationMem generationKey compiles
      persists =>
      rcases Database.persistDispatch_eq_ok persists with ⟨_, rfl, _, _, runs, attempts⟩
      rcases (attempts attempt).mp mem with old | rfl
      · exact absurd rfl (new attempt (selects.attempts ▸ old))
      · -- the selected run and the mirror the queries, or the invariant, have found
        have selected : ∃ run ∈ staged.runs, run.id = candidate.runId ∧
            run.mirrorName = candidate.mirrorName ∧
            run.mirrorGeneration = candidate.generation ∧
            ∃ mirror ∈ db.mirrors, mirror.name = run.mirrorName ∧ mirror.managed = true ∧
              mirror.enabled = true ∧ mirror.ownerNode = node := by
          cases selects with
          | manual runMem pending _ owner unattempted =>
              rcases eligible _ _ runMem rfl pending unattempted with
                ⟨row, rowMem, named, managed, enabled, sameOwner⟩
              exact ⟨_, runMem, rfl, rfl, rfl, row, rowMem, named, managed, enabled,
                sameOwner.trans owner⟩
          | retry runMem _ _ _ owner _ fits =>
              simp only [Database.mirrorOf, Option.any_eq_true, Bool.and_eq_true,
                decide_eq_true_eq] at fits
              rcases fits with ⟨row, found, ⟨managed, enabled⟩, sameOwner⟩
              rcases Table.find?_eq_some_iff.mp found with ⟨rowMem, named⟩
              exact ⟨_, runMem, rfl, rfl, rfl, row, rowMem, named, managed, enabled,
                sameOwner.trans owner⟩
          | scheduled inserts _ owner =>
              rcases inserts.mirror with ⟨row, rowMem, managed, enabled, named, _, sameOwner⟩
              exact ⟨_, (inserts.runs.2.2.2 _).mpr (.inr rfl), rfl, rfl, rfl, row, rowMem,
                named.symm, managed, enabled, sameOwner.symm.trans owner⟩
        rcases selected with ⟨run, runMem, id, mirrorName, generationNo, fits⟩
        rcases runs.successor runMem with ⟨later, laterMem, rfl⟩
        have follows := run.dispatchedAs_follows (candidate.source generation) compiled.policy
        refine ⟨_, laterMem, follows.id.trans id, ?_, ?_, generation, generationMem, ?_,
          compiled.policy, ?_⟩
        · rw [follows.mirrorName, mirrorName]
          rfl
        · rw [follows.mirrorName]
          exact fits
        · rw [follows.mirrorName, follows.mirrorGeneration, mirrorName, generationNo]
          exact generationKey
        · rw [follows.id, follows.mirrorName, follows.mirrorGeneration, id, mirrorName,
            generationNo]
          exact compiles

end Remembered

/--
Whenever a poll creates an attempt, its run's mirror is managed, enabled and
owned by the polling node, and the attempt is compiled from the run's own
generation. Whatever a poll delivers is stored with the attempt, and every later
delivery of the attempt is the same.
-/
theorem dispatch_eligible_and_stable {vendor : Vendor} {db after : Database}
    {node newRunId : String} {agent : AgentProfile} {now : ℤ} {action : Option PollAction}
    (reached : LifeReachable vendor db)
    (polled : db.pollAction node now newRunId (compileDispatch vendor node agent) =
      .ok (action, after)) :
    (∀ attempt ∈ after.attempts, (∀ old ∈ db.attempts, old.key ≠ attempt.key) →
      ∃ run ∈ after.runs, run.id = attempt.runId ∧
        action = some (.startAttempt attempt.runId attempt.attemptNo run.mirrorName
          attempt.specHash attempt.spec) ∧
        (∃ mirror ∈ db.mirrors, mirror.name = run.mirrorName ∧ mirror.managed = true ∧
          mirror.enabled = true ∧ mirror.ownerNode = node) ∧
        ∃ generation ∈ db.generations,
          generation.key = (run.mirrorName, run.mirrorGeneration) ∧
          ∃ policy, compileDispatch vendor node agent ⟨run.id, attempt.attemptNo, run.mirrorName,
            run.mirrorGeneration, generation.configToml⟩ =
              .ok (some ⟨attempt.spec, attempt.specHash, policy⟩)) ∧
    ∀ runId attemptNo mirrorName specHash spec,
      action = some (.startAttempt runId attemptNo mirrorName specHash spec) →
        (∃ attempt ∈ after.attempts, attempt.key = (runId, attemptNo) ∧
          attempt.specHash = specHash ∧ attempt.spec = spec) ∧
        ∀ later, Relation.ReflTransGen (LifeStep vendor) after later →
          ∀ otherNode time otherRunId compile otherMirror otherHash otherSpec next,
            later.pollAction otherNode time otherRunId compile =
              .ok (some (.startAttempt runId attemptNo otherMirror otherHash otherSpec), next) →
                otherHash = specHash ∧ otherSpec = spec := by
  have polls := Database.pollAction_eq_ok polled
  constructor
  · intro attempt mem new
    exact reached.eligible.dispatches polls mem new
  · rintro runId attemptNo mirrorName specHash spec rfl
    have stored := polls.delivers.1
    refine ⟨stored, ?_⟩
    intro later continued otherNode time otherRunId compile otherMirror otherHash otherSpec next again
    rcases stored with ⟨attempt, mem, keyed, hash, spec⟩
    rcases lifeSteps_remember continued attempt mem with
      ⟨known, knownMem, knownKey, knownHash, knownSpec⟩
    rcases (Database.pollAction_eq_ok again).delivers.2 known knownMem (knownKey.trans keyed) with
      ⟨sameHash, sameSpec⟩
    exact ⟨sameHash.symm.trans (knownHash.trans hash), sameSpec.symm.trans (knownSpec.trans spec)⟩

/-- A manual run is created and its mirror's owner polls. -/
def Sample.manual : List (StoreOp Sample.vendor) :=
  [.apply (alphaBundle nodeA) 0 1000, .createManualRun "alpha" "request-1" 2000 "run-1"]

theorem dispatch_eligible_and_stable_manual :
    ∃ action after, (StoreOp.runAll .empty Sample.manual).pollAction "node-a" 3000 "run-2"
        (compileDispatch Sample.vendor "node-a" Sample.agent) = .ok (action, after) ∧
      action.isSome = true ∧
      ∀ attempt ∈ after.attempts,
        (∀ old ∈ (StoreOp.runAll .empty Sample.manual).attempts, old.key ≠ attempt.key) →
          ∃ run ∈ after.runs, run.id = attempt.runId ∧
            action = some (.startAttempt attempt.runId attempt.attemptNo run.mirrorName
              attempt.specHash attempt.spec) := by
  have reached : LifeReachable Sample.vendor (StoreOp.runAll .empty Sample.manual) :=
    StoreOp.lifeSteps_runAll _ _
  have answers : (((StoreOp.runAll .empty Sample.manual).pollAction "node-a" 3000 "run-2"
      (compileDispatch Sample.vendor "node-a" Sample.agent)).toOption.bind (·.1)).isSome = true := by
    decide +kernel
  cases polled : (StoreOp.runAll .empty Sample.manual).pollAction "node-a" 3000 "run-2"
      (compileDispatch Sample.vendor "node-a" Sample.agent) with
  | error reason => simp [polled, Except.toOption] at answers
  | ok outcome =>
      rcases outcome with ⟨action, after⟩
      refine ⟨action, after, rfl, by simpa [polled, Except.toOption] using answers, ?_⟩
      intro attempt mem new
      rcases (dispatch_eligible_and_stable reached polled).1 attempt mem new with
        ⟨run, runMem, id, answered, _⟩
      exact ⟨run, runMem, id, answered⟩

end LzuMirror
