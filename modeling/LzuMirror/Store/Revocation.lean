import LzuMirror.Store.Lifecycle

/-!
# Cancellation is final on the server

The redelivery query of `poll_action` does not look at `cancel_requested_at_ms`.
That a cancelled run is not started again rests on the order of the queries: the
cancellation query comes first, and it always has an answer for the owner of a
cancelled run that is still active. The invariant behind this is
`Database.Stopping`: an active run with a recorded request has a latest attempt
that was dispatched and has not ended.
-/

namespace LzuMirror

namespace Database

/-- An agent is at work on every active run whose cancellation was requested. -/
def Stopping (db : Database) : Prop :=
  ∀ run ∈ db.runs, run.state.isActive = true → run.cancelRequestedAtMs.isSome = true →
    db.activeDispatched run = true

theorem activeDispatched_iff {db : Database} {run : RunRow} :
    db.activeDispatched run = true ↔
      ∃ attempt ∈ db.attempts, attempt.key = (run.id, run.attemptCount) ∧
        0 < attempt.dispatchCount ∧ attempt.state.isTerminal = false := by
  simp only [activeDispatched, Table.any_eq_true, Bool.and_eq_true, decide_eq_true_eq,
    Bool.not_eq_true', AttemptRow.key, Prod.mk.injEq, and_assoc]

section Kept

variable {vendor : Vendor} {db after : Database} {now : ℤ}

/-- The attempts that keep a run stopping are still at work. -/
def KeepsWorking (before after : Database) (runId : String) : Prop :=
  ∀ attempt ∈ before.attempts, attempt.runId = runId → 0 < attempt.dispatchCount →
    attempt.state.isTerminal = false →
      ∃ later ∈ after.attempts, later.key = attempt.key ∧ 0 < later.dispatchCount ∧
        later.state.isTerminal = false

theorem KeepsWorking.activeDispatched {run later : RunRow}
    (keeps : db.KeepsWorking after run.id) (same : later.id = run.id)
    (count : later.attemptCount = run.attemptCount) (working : db.activeDispatched run = true) :
    after.activeDispatched later = true := by
  rcases activeDispatched_iff.mp working with ⟨attempt, mem, keyed, dispatched, live⟩
  have owned : attempt.runId = run.id := congrArg Prod.fst keyed
  rcases keeps attempt mem owned dispatched live with ⟨next, nextMem, nextKey, still⟩
  apply activeDispatched_iff.mpr
  exact ⟨next, nextMem, by rw [nextKey, keyed, same, count], still⟩

theorem KeepsWorking.of_mem {runId : String}
    (kept : ∀ attempt ∈ db.attempts, attempt ∈ after.attempts) : db.KeepsWorking after runId :=
  fun attempt mem _ dispatched live => ⟨attempt, kept attempt mem, rfl, dispatched, live⟩

/-- An update of attempts that were never dispatched. -/
theorem KeepsWorking.of_undispatched {runId : String} {matching : AttemptRow → Bool}
    {set : AttemptRow → AttemptRow}
    (rows : after.attempts.rows =
      db.attempts.rows.map fun attempt => if matching attempt then set attempt else attempt)
    (undispatched : ∀ attempt, matching attempt = true → attempt.dispatchCount = 0) :
    db.KeepsWorking after runId := by
  intro attempt mem _ dispatched live
  refine ⟨attempt, ?_, rfl, dispatched, live⟩
  rw [Table.mem_def, rows]
  refine List.mem_map.mpr ⟨attempt, mem, ?_⟩
  split
  next matched =>
    have none := undispatched attempt matched
    omega
  next => rfl

/-- A statement that ends runs or leaves them alone. -/
theorem Stopping.transfer (stopping : db.Stopping)
    (runs : ∀ run ∈ after.runs, run.state.isActive = true →
      run.cancelRequestedAtMs.isSome = true →
        after.activeDispatched run = true ∨
          ∃ old ∈ db.runs, old.state.isActive = true ∧ old.cancelRequestedAtMs.isSome = true ∧
            old.id = run.id ∧ old.attemptCount = run.attemptCount ∧
              db.KeepsWorking after old.id) : after.Stopping := by
  intro run mem active requested
  rcases runs run mem active requested with
    working | ⟨old, oldMem, oldActive, oldRequested, same, count, keeps⟩
  · exact working
  · exact keeps.activeDispatched same.symm count.symm
      (stopping old oldMem oldActive oldRequested)

theorem Stopping.congr (stopping : db.Stopping) (runs : after.runs = db.runs)
    (attempts : after.attempts = db.attempts) : after.Stopping := by
  unfold Stopping activeDispatched
  rw [runs, attempts]
  exact stopping

theorem Stopping.cancelPending (stopping : db.Stopping) (mirror : String) (now : ℤ) :
    (cancelUndispatchedPending db mirror now).Stopping := by
  apply stopping.transfer
  intro run mem active requested
  right
  rcases Table.mem_of_map rfl mem with ⟨old, oldMem, rfl⟩
  have keeps : db.KeepsWorking (cancelUndispatchedPending db mirror now) old.id := by
    apply KeepsWorking.of_undispatched rfl
    intro attempt matched
    simp only [Bool.and_eq_true, decide_eq_true_eq] at matched
    exact matched.1.2
  split at active
  · cases active
  next unmatched =>
    rw [if_neg unmatched] at requested ⊢
    exact ⟨old, oldMem, active, requested, rfl, rfl, keeps⟩

theorem Stopping.finalizeRetries (stopping : db.Stopping) (mirror : String) (now : ℤ) :
    (finalizeIneligibleRetries db mirror now).Stopping := by
  apply stopping.transfer
  intro run mem active requested
  right
  rcases Table.mem_of_map rfl mem with ⟨old, oldMem, rfl⟩
  have keeps : db.KeepsWorking (finalizeIneligibleRetries db mirror now) old.id :=
    .of_mem fun _ mem => mem
  dsimp only at active requested ⊢
  cases found : db.attempts.find? (old.id, old.attemptCount) with
  | none =>
      simp only [found, ite_self] at active requested ⊢
      exact ⟨old, oldMem, active, requested, rfl, rfl, keeps⟩
  | some attempt =>
      simp only [found] at active requested ⊢
      split at active
      · rw [RunState.isActive_iff, finalizedRetry_isTerminal] at active
        cases active
      next unmatched =>
        rw [if_neg unmatched] at requested ⊢
        exact ⟨old, oldMem, active, requested, rfl, rfl, keeps⟩

theorem Stopping.configSteps {bundle : CanonicalBundle vendor} {changes : List ConfigChange}
    (stopping : db.Stopping)
    (steps : Relation.ReflTransGen (ConfigStep bundle changes) db after) : after.Stopping := by
  induction steps with
  | refl => exact stopping
  | tail _ step ih =>
      cases step with
      | bookkeeping | unmanage | upsert => exact ih.congr rfl rfl
      | cancelPending => exact ih.cancelPending _ _
      | finalizeRetries => exact ih.finalizeRetries _ _

theorem Stopping.inserts {run : RunRow} (stopping : db.Stopping) (inserts : db.Inserts run after) :
    after.Stopping := by
  rcases inserts.runs with ⟨_, attempts, _, members⟩
  apply stopping.transfer
  intro other mem active requested
  rcases (members other).mp mem with old | rfl
  · refine .inr ⟨other, old, active, requested, rfl, rfl, .of_mem ?_⟩
    rw [attempts]
    exact fun _ attemptMem => attemptMem
  · rw [inserts.uncancelled] at requested
    cases requested

/-- A run that may be dispatched is not one whose cancellation was requested. -/
theorem Stopping.selects {node : String} {candidate : DispatchCandidate} (stopping : db.Stopping)
    (selects : db.Selects node candidate after) :
    after.Stopping ∧ ∀ run ∈ after.runs, run.id = candidate.runId →
      run.cancelRequestedAtMs = none := by
  cases selects with
  | @manual run mem pending _ _ unattempted =>
      refine ⟨stopping, ?_⟩
      intro other otherMem same
      rw [Table.eq_of_key_eq otherMem mem same]
      cases requested : run.cancelRequestedAtMs with
      | none => rfl
      | some time =>
          have working := stopping run mem (by rw [pending]; rfl) (by rw [requested]; rfl)
          rcases activeDispatched_iff.mp working with ⟨attempt, attemptMem, keyed, _⟩
          exact absurd (congrArg Prod.fst keyed) (unattempted attempt attemptMem)
  | @retry run mem running _ _ _ uncancelled =>
      refine ⟨stopping, ?_⟩
      intro other otherMem same
      rw [Table.eq_of_key_eq otherMem mem same]
      exact uncancelled
  | @scheduled run _ inserts =>
      refine ⟨stopping.inserts inserts, ?_⟩
      rcases inserts.runs with ⟨_, _, _, members⟩
      intro other otherMem same
      rw [Table.eq_of_key_eq otherMem ((members run).mpr (.inr rfl)) same]
      exact inserts.uncancelled

theorem Stopping.polls {node : String} {action : Option PollAction}
    {compile : DispatchSource → Except StoreError (Option CompiledDispatch)}
    (stopping : db.Stopping) (polls : db.Polls node now compile action after) :
    after.Stopping := by
  cases polls with
  | nothing | cancel => exact stopping
  | @redeliver attempt run mem =>
      apply stopping.transfer
      intro other otherMem active requested
      refine .inr ⟨other, otherMem, active, requested, rfl, rfl, ?_⟩
      intro old oldMem _ dispatched live
      refine ⟨_, List.mem_map_of_mem oldMem, ?_⟩
      split
      · exact ⟨rfl, Nat.succ_pos _, live⟩
      · exact ⟨rfl, dispatched, live⟩
  | dispatch selects _ _ _ persists =>
      rcases stopping.selects selects with ⟨staged, uncancelled⟩
      rcases Database.persistDispatch_eq_ok persists with ⟨_, _, _, _, runs, attempts⟩
      apply staged.transfer
      intro run mem active requested
      right
      rcases runs.origin mem with ⟨old, oldMem, rfl⟩
      unfold RunRow.dispatchedAs at active requested ⊢
      split at requested
      next own =>
        rw [uncancelled old oldMem own] at requested
        cases requested
      next other =>
        rw [if_neg other] at active ⊢
        refine ⟨old, oldMem, active, requested, rfl, rfl, .of_mem ?_⟩
        exact fun attempt attemptMem => (attempts attempt).mpr (.inl attemptMem)

theorem Stopping.cancels {runId : String} {rearm : String → Except StoreError (Option ℤ)}
    (stopping : db.Stopping) (cancels : db.Cancels runId now rearm after) : after.Stopping := by
  cases cancels with
  | ended => exact stopping
  | @requested run mem named active working =>
      apply stopping.transfer
      intro other otherMem otherActive requested
      rcases Table.mem_of_map rfl otherMem with ⟨old, oldMem, rfl⟩
      have keeps : db.KeepsWorking (db.recordCancellation runId now) run.id :=
        .of_mem fun _ attemptMem => attemptMem
      by_cases own : old.id = runId
      · left
        rw [Table.eq_of_key_eq oldMem mem (own.trans named.symm)]
        exact keeps.activeDispatched (by simp [named]) (by simp [named]) working
      · right
        simp only [own, decide_false, Bool.false_eq_true, if_false] at otherActive requested ⊢
        exact ⟨old, oldMem, otherActive, requested, rfl, rfl, .of_mem fun _ attemptMem => attemptMem⟩
  | undispatched mem named =>
      apply stopping.transfer
      intro other otherMem otherActive requested
      right
      rcases (Database.rowwise_cancelled).origin otherMem with ⟨old, oldMem, rfl⟩
      split at otherActive
      · cases otherActive
      next foreign =>
        rw [if_neg foreign] at requested ⊢
        refine ⟨old, oldMem, otherActive, requested, rfl, rfl, ?_⟩
        apply KeepsWorking.of_undispatched rfl
        intro attempt matched
        simp only [Bool.and_eq_true, decide_eq_true_eq] at matched
        exact matched.1.2

/-- An event that leaves an attempt at work keeps every run stopping. -/
theorem KeepsWorking.recordEvent {key : String × ℕ} {event : AttemptEvent} {runId : String}
    (live : key.1 = runId → event.state.isTerminal = false) :
    db.KeepsWorking (db.recordEvent key event) runId := by
  intro attempt mem owned dispatched working
  refine ⟨_, List.mem_map_of_mem mem, ?_⟩
  split
  next own =>
    have keyed : attempt.key = key := of_decide_eq_true own
    refine ⟨rfl, dispatched, live ?_⟩
    rw [← keyed, ← owned]
    rfl
  next => exact ⟨rfl, dispatched, working⟩

/-- The end of a cancelled run's attempt ends the run. -/
theorem decides_final {runId : String} {attemptNo : ℕ} {outcome : AttemptState}
    {source : TerminalDecisionSource} {decision : TerminalDecision} {run : RunRow}
    (sourced : db.terminalSource runId attemptNo outcome = .ok source)
    (decides : decideTerminal vendor source now = .ok decision) (mem : run ∈ db.runs)
    (named : run.id = runId) (requested : run.cancelRequestedAtMs.isSome = true) :
    ∃ state, decision.retry = .final state := by
  cases decided : decision.retry with
  | final state => exact ⟨state, rfl⟩
  | schedule due =>
      have granted := decideRetry_schedule ((decideTerminal_retry decides).symm.trans decided)
      unfold terminalSource at sourced
      rw [Table.find?_eq_some_iff.mpr ⟨mem, named⟩] at sourced
      simp only at sourced
      split at sourced
      · cases sourced
      · cases sourced
        simp [TerminalDecisionSource.retryContext, requested] at granted

theorem Stopping.applies {attempt : AttemptRow} {event : AttemptEvent}
    {result : AttemptEventApplyResult} (stopping : db.Stopping)
    (applies : db.Applies attempt event now (decideTerminal vendor) result after) :
    after.Stopping := by
  cases applies with
  | known => exact stopping
  | recorded _ _ projects =>
      cases projects with
      | nothing queued =>
          apply stopping.transfer
          intro run mem active requested
          refine .inr ⟨run, mem, active, requested, rfl, rfl, .recordEvent ?_⟩
          intro _
          rw [queued]
          rfl
      | start started =>
          apply stopping.transfer
          intro run mem active requested
          right
          rcases Table.mem_of_map rfl mem with ⟨old, oldMem, rfl⟩
          have keeps : db.KeepsWorking (db.recordEvent attempt.key event) old.id := by
            apply KeepsWorking.recordEvent
            intro _
            rcases started with accepted | running
            · rw [accepted]
              rfl
            · rw [running]
              rfl
          split at active
          next matched =>
            rw [if_pos matched] at requested ⊢
            simp only [Bool.and_eq_true, decide_eq_true_eq] at matched
            exact ⟨old, oldMem, by rw [matched.2]; rfl, requested, rfl, rfl, keeps⟩
          next unmatched =>
            rw [if_neg unmatched] at requested ⊢
            exact ⟨old, oldMem, active, requested, rfl, rfl, keeps⟩
      | @decided _ source decision sourced decides =>
          -- runs of other attempts are not concerned; the attempt's own run ends if cancelled
          have own : ∀ run ∈ ((db.recordEvent attempt.key event).applyDecision attempt.runId
              source.mirrorName event event.projection decision now).runs,
              run.state.isActive = true → run.cancelRequestedAtMs.isSome = true →
                run.id ≠ attempt.runId ∧ run ∈ db.runs := by
            intro run mem active requested
            unfold Database.applyDecision at mem
            cases retry : decision.retry with
            | schedule due =>
                rw [retry] at mem
                rcases Table.mem_of_map rfl mem with ⟨old, oldMem, rfl⟩
                have different : old.id ≠ attempt.runId := by
                  intro same
                  have oldRequested : old.cancelRequestedAtMs.isSome = true := by
                    split at requested <;> exact requested
                  rcases decides_final sourced decides oldMem same oldRequested with ⟨_, final⟩
                  rw [retry] at final
                  cases final
                simp only [different, decide_false, Bool.false_and, Bool.false_eq_true, if_false]
                exact ⟨different, oldMem⟩
            | final state =>
                have finished : run ∈ ((db.recordEvent attempt.key event).finishRun attempt.runId
                    state event.projection.runStartedAtMs
                    (event.projection.runFinishedAtMs.getD now) event).runs := by
                  rw [retry] at mem
                  cases due : decision.intervalNextDueAtMs with
                  | none => simpa [due] using mem
                  | some time =>
                      simp only [due] at mem
                      exact mem
                rcases Table.mem_of_map rfl finished with ⟨old, oldMem, rfl⟩
                have ended : state.isTerminal = true :=
                  decideRetry_final ((decideTerminal_retry decides).symm.trans retry)
                split at active
                · rw [RunState.isActive_iff, ended] at active
                  cases active
                next unmatched =>
                  rw [if_neg unmatched]
                  refine ⟨?_, oldMem⟩
                  intro same
                  simp [same, active] at unmatched
          apply stopping.transfer
          intro run mem active requested
          rcases own run mem active requested with ⟨different, oldMem⟩
          have attempts : ((db.recordEvent attempt.key event).applyDecision attempt.runId
              source.mirrorName event event.projection decision now).attempts =
                (db.recordEvent attempt.key event).attempts := by
            unfold Database.applyDecision
            split
            · rfl
            · split <;> rfl
          refine .inr ⟨run, oldMem, active, requested, rfl, rfl, ?_⟩
          unfold KeepsWorking
          rw [attempts]
          apply KeepsWorking.recordEvent
          intro same
          exact absurd same.symm different

theorem Stopping.step (stopping : db.Stopping) (operation : StoreOp vendor) :
    (operation.run db).Stopping := by
  have effect := operation.run_effect db
  generalize operation.run db = after at effect
  cases effect with
  | unchanged => exact stopping
  | bookkeeping => exact stopping.congr rfl rfl
  | configured _ _ _ applied => exact stopping.configSteps (Database.apply_steps applied)
  | created creates => exact stopping.inserts creates.inserts
  | polled polls => exact stopping.polls polls
  | cancelled cancels => exact stopping.cancels cancels
  | reported _ _ applies => exact stopping.applies applies

end Kept

end Database

theorem LifeReachable.stopping {vendor : Vendor} {db : Database}
    (reachable : LifeReachable vendor db) : db.Stopping := by
  apply reachable.invariant
  · intro run mem
    exact absurd mem Table.not_mem_empty
  · intro before operation stopping
    exact stopping.step operation
  · intro before restoredAtMs _ run mem active
    rcases (normalizeRestored_runs before restoredAtMs).origin mem with ⟨_, _, _, ended, _⟩
    rw [ended] at active
    cases active

section Polls

variable {db after : Database} {node : String} {now : ℤ} {newRunId : String}
  {compile : DispatchSource → Except StoreError (Option CompiledDispatch)}

/-- The cancellation query has an answer for the owner of a stopping run. -/
theorem Database.findCancellation_isSome {run : RunRow} (mem : run ∈ db.runs)
    (active : run.state.isActive = true) (requested : run.cancelRequestedAtMs.isSome = true)
    (working : db.activeDispatched run = true) :
    (db.findCancellation run.ownerNode).isSome = true := by
  rw [Option.isSome_iff_ne_none]
  intro quiet
  unfold Database.findCancellation at quiet
  rw [Option.map_eq_none_iff, Table.first_eq_none] at quiet
  rcases Database.activeDispatched_iff.mp working with ⟨attempt, attemptMem, keyed, work⟩
  rcases Prod.mk.inj keyed with ⟨owned, latest⟩
  have found : db.runs.find? attempt.runId = some run :=
    Table.find?_eq_some_iff.mpr ⟨mem, owned.symm⟩
  have unmatched := quiet attempt attemptMem
  simp [Database.runOf, found, active, requested, latest, work.1, work.2] at unmatched

theorem Database.findCancellation_eq_some {action : PollAction}
    (found : db.findCancellation node = some action) :
    ∃ run ∈ db.runs, run.cancelRequestedAtMs.isSome = true ∧
      ∃ attemptNo specHash, action = .cancelAttempt run.id attemptNo specHash := by
  rcases Option.map_eq_some_iff.mp found with ⟨attempt, selected, rfl⟩
  have matched := (Table.first_eq_some selected).2
  simp only [Bool.and_eq_true, Database.runOf, Option.any_eq_true] at matched
  rcases matched.1.1 with ⟨run, runFound, ⟨_, requested⟩, _⟩
  rcases Table.find?_eq_some_iff.mp runFound with ⟨runMem, owned⟩
  exact ⟨run, runMem, requested, attempt.attemptNo, attempt.specHash, by rw [owned]⟩

/-- A poll of the owner of a stopping run is answered with a cancellation. -/
theorem Database.Stopping.pollAction (stopping : db.Stopping) {run : RunRow} (mem : run ∈ db.runs)
    (active : run.state.isActive = true) (requested : run.cancelRequestedAtMs.isSome = true) :
    ∃ cancelled ∈ db.runs, cancelled.cancelRequestedAtMs.isSome = true ∧
      ∃ attemptNo specHash, db.pollAction run.ownerNode now newRunId compile =
        .ok (some (.cancelAttempt cancelled.id attemptNo specHash), db) := by
  have answers := Database.findCancellation_isSome mem active requested
    (stopping run mem active requested)
  rcases Option.isSome_iff_exists.mp answers with ⟨action, found⟩
  rcases Database.findCancellation_eq_some found with
    ⟨cancelled, cancelledMem, asked, attemptNo, specHash, rfl⟩
  refine ⟨cancelled, cancelledMem, asked, attemptNo, specHash, ?_⟩
  unfold Database.pollAction
  rw [found]

/-- A poll neither starts nor creates an attempt of a run that was cancelled or has ended. -/
theorem Database.Stopping.unanswered {action : Option PollAction} (stopping : db.Stopping)
    (polls : db.Polls node now compile action after) {run : RunRow} (mem : run ∈ db.runs)
    (withdrawn : run.cancelRequestedAtMs.isSome = true ∨ run.state.isTerminal = true) :
    (∀ attemptNo mirrorName specHash spec,
      action ≠ some (.startAttempt run.id attemptNo mirrorName specHash spec)) ∧
      ∀ attempt ∈ after.attempts, attempt.runId = run.id →
        ∃ old ∈ db.attempts, old.key = attempt.key := by
  have requested : run.state.isActive = true → run.cancelRequestedAtMs.isSome = true := by
    intro active
    rcases withdrawn with requested | ended
    · exact requested
    · rw [RunState.isActive_iff, ended] at active
      cases active
  cases polls with
  | nothing => exact ⟨by simp, fun attempt mem _ => ⟨attempt, mem, rfl⟩⟩
  | cancel => exact ⟨by simp, fun attempt mem _ => ⟨attempt, mem, rfl⟩⟩
  | @redeliver attempt other attemptMem _ otherMem owned active owner quiet =>
      constructor
      · intro attemptNo mirrorName specHash spec answered
        simp only [Option.some.injEq, PollAction.startAttempt.injEq] at answered
        have same := Table.eq_of_key_eq otherMem mem (owned.trans answered.1)
        subst same
        have answers := Database.findCancellation_isSome mem active (requested active)
          (stopping other mem active (requested active))
        rw [owner, quiet] at answers
        cases answers
      · intro later laterMem _
        rcases Table.mem_of_map rfl laterMem with ⟨old, oldMem, rfl⟩
        refine ⟨old, oldMem, ?_⟩
        split <;> rfl
  | @dispatch candidate generation _ _ staged _ selects _ _ _ persists =>
      rcases Database.persistDispatch_eq_ok persists with ⟨_, rfl, _, _, _, attempts⟩
      have different : candidate.runId ≠ run.id := by
        cases selects with
        | manual otherMem pending trigger owner unattempted eligible =>
            intro same
            have uncancelled := (stopping.selects
              (.manual otherMem pending trigger owner unattempted eligible)).2 run mem same.symm
            rw [Table.eq_of_key_eq otherMem mem same] at pending
            have asked := requested (by rw [pending]; rfl)
            rw [uncancelled] at asked
            cases asked
        | retry otherMem running _ _ _ uncancelled =>
            intro same
            have own := Table.eq_of_key_eq otherMem mem same
            subst own
            have asked := requested (by rw [running]; rfl)
            rw [uncancelled] at asked
            cases asked
        | scheduled inserts =>
            rcases inserts.runs with ⟨fresh, _⟩
            exact (fresh run mem).symm
      have staged_attempts : staged.attempts = db.attempts := by
        cases selects with
        | manual | retry => rfl
        | scheduled inserts => exact inserts.runs.2.1
      constructor
      · intro attemptNo mirrorName specHash spec answered
        simp only [Option.some.injEq, PollAction.startAttempt.injEq] at answered
        exact different answered.1
      · intro later laterMem owned
        rcases (attempts later).mp laterMem with old | rfl
        · exact ⟨later, staged_attempts ▸ old, rfl⟩
        · exact absurd owned different

end Polls

section Requests

variable {db after : Database} {runId : String} {now : ℤ}
  {rearm : String → Except StoreError (Option ℤ)} {result : CancellationApplyResult}

/-- What a committed request has answered with. -/
theorem Database.requestCancellation_result
    (committed : db.requestCancellation runId now rearm = .ok (result, after)) :
    result.run ∈ after.runs ∧ result.run.id = runId ∧
      ∃ old ∈ db.runs, old.id = runId ∧ (old.state.isActive = true →
        result.run.cancelRequestedAtMs = (old.cancelRequestedAtMs <|> some now)) ∧
        (result.run.cancelRequestedAtMs.isSome = true ∨ result.run.state.isTerminal = true) := by
  have cancels := Database.requestCancellation_eq_ok committed
  have answered : after.runs.find? runId = some result.run := by
    unfold Database.requestCancellation at committed
    split at committed
    · cases committed
    next run found =>
      split at committed
      · cases committed
        exact found
      · simp only [bind, Except.bind] at committed
        split at committed
        · cases committed
        · split at committed
          · cases committed
          next stored =>
            cases committed
            exact stored
  rcases Table.find?_eq_some_iff.mp answered with ⟨mem, named⟩
  refine ⟨mem, named, ?_⟩
  cases cancels with
  | ended oldMem oldNamed ended =>
      have same := Table.eq_of_key_eq mem oldMem (named.trans oldNamed.symm)
      rw [same]
      refine ⟨_, oldMem, oldNamed, ?_, .inr ended⟩
      intro active
      rw [RunState.isActive_iff, ended] at active
      cases active
  | requested =>
      rcases Table.mem_of_map rfl mem with ⟨old, oldMem, recorded⟩
      have own : old.id = runId := by
        rw [← named, ← recorded]
        split <;> rfl
      rw [if_pos (by simpa using own)] at recorded
      refine ⟨old, oldMem, own, ?_, .inl ?_⟩
      · rw [← recorded]
        exact fun _ => rfl
      · rw [← recorded]
        simp
  | undispatched =>
      rcases (Database.rowwise_cancelled).origin mem with ⟨old, oldMem, recorded⟩
      have own : old.id = runId := by
        rw [← named, recorded]
        split <;> rfl
      rw [if_pos own] at recorded
      refine ⟨old, oldMem, own, ?_, .inr ?_⟩
      · rw [recorded]
        exact fun _ => rfl
      · rw [recorded]
        rfl

/-- A request that was recorded before changes nothing. -/
theorem Database.Stopping.requestCancellation (stopping : db.Stopping) {run : RunRow}
    (mem : run ∈ db.runs)
    (withdrawn : run.cancelRequestedAtMs.isSome = true ∨ run.state.isTerminal = true) :
    db.requestCancellation run.id now rearm = .ok (⟨run, false⟩, db) := by
  unfold Database.requestCancellation
  rw [Table.find?_of_mem mem]
  simp only
  split
  · rfl
  next active =>
    have requested : run.cancelRequestedAtMs.isSome = true := by
      rcases withdrawn with requested | ended
      · exact requested
      · exact absurd ended active
    have recorded : db.recordCancellation run.id now = db := by
      unfold Database.recordCancellation
      have rows : db.runs.update (fun other => other.id = run.id)
          (fun other => { other with
            cancelRequestedAtMs := other.cancelRequestedAtMs <|> some now }) = db.runs := by
        unfold Table.update
        congr 1
        conv_rhs => rw [← List.map_id db.runs.rows]
        apply List.map_congr_left
        intro other otherMem
        split
        next own =>
          have same := Table.eq_of_key_eq otherMem mem (of_decide_eq_true own)
          subst same
          rcases Option.isSome_iff_exists.mp requested with ⟨time, asked⟩
          cases other
          simp_all
        next => rfl
      rw [rows]
    have working := stopping run mem (RunState.isActive_iff.mpr (by simpa using active)) requested
    have settled : db.settleCancellation run now rearm = .ok db := by
      unfold Database.settleCancellation
      rw [if_pos working]
    rw [recorded, settled]
    simp only [bind, Except.bind, Table.find?_of_mem mem, pure, Except.pure]
    rcases Option.isSome_iff_exists.mp requested with ⟨time, asked⟩
    rw [asked]
    rfl

end Requests

/--
Once a cancellation request has committed, and however the history continues: no
poll starts the run or creates an attempt of it; while its latest dispatched
attempt is at work and the run is active, every poll of its owner is answered
with a cancellation; and a further request is answered with the run as it stands
and changes nothing, so that the time of the first request stays.
-/
theorem cancellation_is_final {vendor : Vendor} {db requested later : Database} {runId : String}
    {now : ℤ} {result : CancellationApplyResult} (reached : LifeReachable vendor db)
    (requests : db.requestCancellation runId now (rearmDocument vendor now) =
      .ok (result, requested))
    (continued : Relation.ReflTransGen (LifeStep vendor) requested later) :
    ∃ run ∈ later.runs, run.id = runId ∧
      run.cancelRequestedAtMs = result.run.cancelRequestedAtMs ∧
      (∃ old ∈ db.runs, old.id = runId ∧ (old.state.isActive = true →
        result.run.cancelRequestedAtMs = (old.cancelRequestedAtMs <|> some now))) ∧
      (∀ node time newRunId compile action next,
        later.pollAction node time newRunId compile = .ok (action, next) →
          (∀ attemptNo mirrorName specHash spec,
            action ≠ some (.startAttempt runId attemptNo mirrorName specHash spec)) ∧
          ∀ attempt ∈ next.attempts, attempt.runId = runId →
            ∃ known ∈ later.attempts, known.key = attempt.key) ∧
      (run.state.isActive = true → later.activeDispatched run = true →
        ∀ time newRunId compile, ∃ cancelled ∈ later.runs,
          cancelled.cancelRequestedAtMs.isSome = true ∧ ∃ attemptNo specHash,
            later.pollAction run.ownerNode time newRunId compile =
              .ok (some (.cancelAttempt cancelled.id attemptNo specHash), later)) ∧
      ∀ again rearm, later.requestCancellation runId again rearm = .ok (⟨run, false⟩, later) := by
  have step : LifeStep vendor db requested := by
    refine .inl ⟨.requestCancellation runId now, trivial, ?_⟩
    simp only [StoreOp.run, requests, committed]
  have stopping : later.Stopping := LifeReachable.stopping ((reached.tail step).trans continued)
  rcases Database.requestCancellation_result requests with
    ⟨resultMem, resultNamed, old, oldMem, oldNamed, first, withdrawn⟩
  rcases (lifeSteps_evolve continued).kept _ resultMem with ⟨run, mem, evolves⟩
  have named : run.id = runId := evolves.id.trans resultNamed
  have same : run.cancelRequestedAtMs = result.run.cancelRequestedAtMs := by
    rcases withdrawn with asked | ended
    · rcases Option.isSome_iff_exists.mp asked with ⟨time, recorded⟩
      rw [recorded]
      exact evolves.requested time recorded
    · rw [evolves.settled ended]
  have still : run.cancelRequestedAtMs.isSome = true ∨ run.state.isTerminal = true := by
    rcases withdrawn with asked | ended
    · left
      rw [same]
      exact asked
    · right
      rw [evolves.settled ended]
      exact ended
  refine ⟨run, mem, named, same, ⟨old, oldMem, oldNamed, first⟩, ?_, ?_, ?_⟩
  · intro node time newRunId compile action next polled
    rw [← named]
    exact stopping.unanswered (Database.pollAction_eq_ok polled) mem still
  · intro active _ time newRunId compile
    have asked : run.cancelRequestedAtMs.isSome = true := by
      rcases still with asked | ended
      · exact asked
      · rw [RunState.isActive_iff, ended] at active
        cases active
    exact stopping.pollAction mem active asked
  · intro again rearm
    rw [← named]
    exact stopping.requestCancellation mem still

/-- A run is cancelled while its second attempt is queued. -/
theorem cancellation_is_final_queued :
    (StoreOp.runAll .empty (Sample.retried ++ [.requestCancellation "run-1" 7000])).runs.any
      (fun run => decide (run.cancelRequestedAtMs = some 7000) && run.state.isActive) = true ∧
    ∃ result requested,
      (StoreOp.runAll .empty Sample.retried).requestCancellation "run-1" 7000
        (rearmDocument Sample.vendor 7000) = .ok (result, requested) ∧
      ∀ node time newRunId compile action next,
        requested.pollAction node time newRunId compile = .ok (action, next) →
          ∀ attemptNo mirrorName specHash spec,
            action ≠ some (.startAttempt "run-1" attemptNo mirrorName specHash spec) := by
  have reached : LifeReachable Sample.vendor (StoreOp.runAll .empty Sample.retried) :=
    StoreOp.lifeSteps_runAll _ _
  have succeeds : ((StoreOp.runAll .empty Sample.retried).requestCancellation "run-1" 7000
      (rearmDocument Sample.vendor 7000)).isOk = true := by decide +kernel
  refine ⟨by decide +kernel, ?_⟩
  cases requests : (StoreOp.runAll .empty Sample.retried).requestCancellation "run-1" 7000
      (rearmDocument Sample.vendor 7000) with
  | error reason => simp [requests, Except.isOk, Except.toBool] at succeeds
  | ok outcome =>
      rcases outcome with ⟨result, requested⟩
      rcases cancellation_is_final reached requests .refl with ⟨_, _, _, _, _, silent, _⟩
      refine ⟨result, requested, rfl, ?_⟩
      intro node time newRunId compile action next polled
      exact (silent node time newRunId compile action next polled).1

end LzuMirror
