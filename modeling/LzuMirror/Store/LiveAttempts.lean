import LzuMirror.Store.Integrity

/-!
# At most one live attempt per mirror

An attempt is live until it reaches a terminal state. The property to keep is
`Database.SingleLiveAttempt`; the inductive form is `Database.LiveLatest`: a live
attempt is the latest one of an active run that does not wait for a retry.

`apply_event` decides about a retry on every terminal report that the transition
table lets through, also on a repeated report for an attempt that has been
superseded. Such a report breaks the property; without it every transaction
keeps it.
-/

namespace LzuMirror

/-- The attempt has not reached a terminal state. -/
def AttemptRow.isLive (attempt : AttemptRow) : Bool := !attempt.state.isTerminal

/-- The run layer never has two attempts of one mirror at work. -/
structure Database.SingleLiveAttempt (db : Database) : Prop where
  onePerMirror : ∀ first ∈ db.attempts, ∀ second ∈ db.attempts,
    ∀ firstRun ∈ db.runs, ∀ secondRun ∈ db.runs,
      firstRun.id = first.runId → secondRun.id = second.runId →
      first.isLive = true → second.isLive = true →
      firstRun.state.isActive = true → secondRun.state.isActive = true →
      firstRun.mirrorName = secondRun.mirrorName → first = second
  latest : ∀ attempt ∈ db.attempts, ∀ run ∈ db.runs, run.id = attempt.runId →
    attempt.isLive = true → run.state.isActive = true → attempt.attemptNo = run.attemptCount
  waiting : ∀ run ∈ db.runs, run.retryDueAtMs.isSome = true →
    ∀ attempt ∈ db.attempts, attempt.runId = run.id → attempt.isLive = false
  ended : ∀ run ∈ db.runs, run.state.isTerminal = true →
    ∀ attempt ∈ db.attempts, attempt.runId = run.id → attempt.isLive = false

/-- A live attempt is the latest one of an active run that does not wait for a retry. -/
def Database.LiveLatest (db : Database) : Prop :=
  ∀ attempt ∈ db.attempts, attempt.isLive = true → ∀ run ∈ db.runs, run.id = attempt.runId →
    attempt.attemptNo = run.attemptCount ∧ run.state.isActive = true ∧ run.retryDueAtMs = none

/-- A new report repeats the end of an attempt while another attempt of its run is live. -/
def Database.RepeatsSuperseded (db : Database) (runId : String) (attemptNo : ℕ)
    (event : AttemptEvent) : Prop :=
  ∃ attempt ∈ db.attempts, attempt.key = (runId, attemptNo) ∧
    attempt.state.isTerminal = true ∧ event.state = attempt.state ∧
    attempt.lastEventSequence < event.eventSequence ∧
    ∃ other ∈ db.attempts, other.runId = runId ∧ other.isLive = true

/-- The transactions in which no report repeats the end of a superseded attempt. -/
def noSupersededReport {vendor : Vendor} (db : Database) : StoreOp vendor → Prop
  | .applyEvent runId attemptNo event _ => ¬db.RepeatsSuperseded runId attemptNo event
  | _ => True

instance (db : Database) (runId : String) (attemptNo : ℕ) (event : AttemptEvent) :
    Decidable (db.RepeatsSuperseded runId attemptNo event) :=
  decidable_of_iff
    (db.attempts.any (fun attempt => decide (attempt.key = (runId, attemptNo)) &&
      attempt.state.isTerminal && decide (event.state = attempt.state) &&
      decide (attempt.lastEventSequence < event.eventSequence) &&
      db.attempts.any fun other => decide (other.runId = runId) && other.isLive) = true)
    (by simp [Database.RepeatsSuperseded, and_assoc])

instance {vendor : Vendor} (db : Database) (operation : StoreOp vendor) :
    Decidable (noSupersededReport db operation) :=
  match operation with
  | .applyEvent runId attemptNo event _ =>
      inferInstanceAs (Decidable (¬db.RepeatsSuperseded runId attemptNo event))
  | .apply .. | .createManualRun .. | .pollAction .. | .requestCancellation ..
  | .evaluateDueSchedules .. | .observeNode .. | .registerNode ..
  | .replaceAgentBinding .. => .isTrue trivial

/-- An attempt that is live later was live before. -/
theorem AttemptRow.Follows.live {old new : AttemptRow} (follows : old.Follows new)
    (live : new.isLive = true) : old.isLive = true := by
  unfold AttemptRow.isLive at *
  cases ended : old.state.isTerminal with
  | false => rfl
  | true =>
      rw [follows.ended ended, ended] at live
      cases live

namespace Database.LiveLatest

variable {db after : Database}

/-- Live attempts stay where they were and their runs keep what matters. -/
theorem transfer (latest : db.LiveLatest)
    (attempts : ∀ new ∈ after.attempts, new.isLive = true →
      ∃ old ∈ db.attempts, old.isLive = true ∧ old.key = new.key)
    (runs : ∀ new ∈ after.runs, ∀ attempt ∈ db.attempts, attempt.isLive = true →
      (∃ later ∈ after.attempts, later.isLive = true ∧ later.key = attempt.key) →
      new.id = attempt.runId →
        ∃ old ∈ db.runs, old.id = new.id ∧ new.attemptCount = old.attemptCount ∧
          (old.state.isActive = true → new.state.isActive = true) ∧
          (old.retryDueAtMs = none → new.retryDueAtMs = none)) : after.LiveLatest := by
  intro attempt mem live run runMem owned
  obtain ⟨old, oldMem, oldLive, key⟩ := attempts attempt mem live
  obtain ⟨sameRun, sameNo⟩ := Prod.mk.inj key
  obtain ⟨before, beforeMem, sameId, count, active, due⟩ :=
    runs run runMem old oldMem oldLive ⟨attempt, mem, live, key.symm⟩ (owned.trans sameRun.symm)
  have ⟨isLatest, wasActive, notDue⟩ := latest old oldMem oldLive before beforeMem
    (sameId.trans (owned.trans sameRun.symm))
  exact ⟨by rw [← sameNo, count, isLatest], active wasActive, due notDue⟩

/-- A run that is cancelled before dispatch has no dispatched attempt. -/
theorem rowwise_cancelPending (db : Database) (mirror : String) (now : ℤ) :
    Table.Rowwise (fun old new => new = old ∨ new.id = old.id ∧
        ∀ attempt ∈ (cancelUndispatchedPending db mirror now).attempts,
          attempt.runId = old.id → attempt.dispatchCount = 0)
      db.runs (cancelUndispatchedPending db mirror now).runs := by
  refine Table.rowwise_of_map rfl ?_
  intro run _
  split
  next matched =>
    simp only [Bool.and_eq_true, Bool.not_eq_true', Table.any_eq_false] at matched
    refine .inr ⟨rfl, ?_⟩
    intro attempt mem owned
    simpa [owned] using matched.2 attempt mem
  next => exact .inl rfl

theorem rowwise_finalizeRetries (db : Database) (mirror : String) (now : ℤ) :
    Table.Rowwise (fun old new => new = old ∨ new.id = old.id ∧ old.retryDueAtMs ≠ none)
      db.runs (finalizeIneligibleRetries db mirror now).runs := by
  refine Table.rowwise_of_map rfl ?_
  intro run _
  dsimp only
  split
  next matched =>
    simp only [Bool.and_eq_true] at matched
    refine .inr ⟨by split <;> rfl, ?_⟩
    exact Option.isSome_iff_ne_none.mp matched.2
  next => exact .inl rfl

theorem cancelPending (latest : db.LiveLatest) (sound : db.Sound) (mirror : String) (now : ℤ) :
    (cancelUndispatchedPending db mirror now).LiveLatest := by
  have advances := cancelUndispatchedPending_advances db mirror now
  refine latest.transfer ?_ ?_
  · intro new mem live
    obtain ⟨old, oldMem, follows⟩ := advances.attempts.origin mem
    exact ⟨old, oldMem, follows.live live, follows.key.symm⟩
  · intro new mem attempt attemptMem live _ owned
    obtain ⟨old, oldMem, rfl | ⟨sameId, undispatched⟩⟩ :=
      (rowwise_cancelPending db mirror now).origin mem
    · exact ⟨new, oldMem, rfl, rfl, fun active => active, fun due => due⟩
    · -- every attempt has been dispatched, so a run with one is not cancelled here
      obtain ⟨later, laterMem, follows⟩ := advances.attempts.successor attemptMem
      have sameRun := (Prod.mk.inj follows.key).1
      have none := undispatched later laterMem (by rw [sameRun, ← owned, sameId])
      exact absurd none ((sound.advance advances).dispatched later laterMem).ne'

theorem finalizeRetries (latest : db.LiveLatest) (mirror : String) (now : ℤ) :
    (finalizeIneligibleRetries db mirror now).LiveLatest := by
  refine latest.transfer (fun new mem live => ⟨new, mem, live, rfl⟩) ?_
  intro new mem attempt attemptMem live _ owned
  obtain ⟨old, oldMem, rfl | ⟨sameId, waiting⟩⟩ :=
    (rowwise_finalizeRetries db mirror now).origin mem
  · exact ⟨new, oldMem, rfl, rfl, fun active => active, fun due => due⟩
  · exact absurd (latest attempt attemptMem live old oldMem (sameId.symm.trans owned)).2.2 waiting

theorem configSteps {vendor : Vendor} {bundle : CanonicalBundle vendor}
    {changes : List ConfigChange} (latest : db.LiveLatest) (sound : db.Sound)
    (steps : Relation.ReflTransGen (ConfigStep bundle changes) db after) :
    after.LiveLatest := by
  induction steps with
  | refl => exact latest
  | tail earlier step ih =>
      cases step with
      | bookkeeping | unmanage | upsert => exact ih
      | cancelPending mirror now => exact ih.cancelPending (sound.configSteps earlier) mirror now
      | finalizeRetries mirror now => exact ih.finalizeRetries mirror now

/-- A new run has no attempts yet. -/
theorem inserts {run : RunRow} (latest : db.LiveLatest) (sound : db.Sound)
    (inserts : db.Inserts run after) : after.LiveLatest := by
  obtain ⟨middle, inserted, rfl⟩ := inserts.inserted
  obtain ⟨_, fresh, runs, rfl, members⟩ := Database.insertRun_eq_ok inserted
  intro attempt mem live owner ownerMem owned
  rcases (members owner).mp ownerMem with oldMem | rfl
  · exact latest attempt mem live owner oldMem owned
  · obtain ⟨old, oldMem, named, _⟩ := sound.attemptRun attempt mem
    exact absurd (named.trans owned.symm) (fresh old oldMem)

/-- The dispatched attempt becomes the latest one; the run had no live attempt before. -/
theorem persists {candidate : DispatchCandidate} {generation : GenerationRow}
    {compiled : CompiledDispatch} {now : ℤ} {action : Option PollAction} {run : RunRow}
    (latest : db.LiveLatest) (selected : db.Candidate candidate run)
    (persists : db.persistDispatch (candidate.source generation) compiled now =
      .ok (action, after)) : after.LiveLatest := by
  obtain ⟨_, _, _, _, runs, members⟩ := Database.persistDispatch_eq_ok persists
  intro attempt mem live later laterMem owned
  obtain ⟨old, oldMem, rfl⟩ := runs.origin laterMem
  have sameId := (old.dispatchedAs_follows (candidate.source generation) compiled.policy).id
  rcases (members attempt).mp mem with before | rfl
  · have ⟨isLatest, active, notDue⟩ := latest attempt before live old oldMem
      (sameId.symm.trans owned)
    by_cases own : old.id = candidate.runId
    · obtain rfl := Table.eq_of_key_eq oldMem selected.mem (own.trans selected.id.symm)
      rcases selected.idle with unattempted | waiting
      · exact absurd (owned.symm.trans sameId) (unattempted attempt before)
      · simp [notDue] at waiting
    · rw [RunRow.dispatchedAs_of_ne own]
      exact ⟨isLatest, active, notDue⟩
  · have own : old.id = candidate.runId := sameId.symm.trans owned
    obtain rfl := Table.eq_of_key_eq oldMem selected.mem (own.trans selected.id.symm)
    have ⟨count, due⟩ :=
      @RunRow.dispatchedAs_attemptCount (candidate.source generation) compiled.policy old own
    refine ⟨count.symm, ?_, due⟩
    have active := selected.active
    unfold RunRow.dispatchedAs
    split <;> exact active

/-- A run is only ended by a cancellation when its latest attempt is not at work. -/
theorem cancels {runId : String} {now : ℤ} {rearm : String → Except StoreError (Option ℤ)}
    (latest : db.LiveLatest) (sound : db.Sound)
    (cancels : db.Cancels runId now rearm after) : after.LiveLatest := by
  have advances := cancels.advances
  refine latest.transfer ?_ ?_
  · intro new mem live
    obtain ⟨old, oldMem, follows⟩ := advances.attempts.origin mem
    exact ⟨old, oldMem, follows.live live, follows.key.symm⟩
  · intro new mem attempt attemptMem live _ owned
    cases cancels with
    | ended => exact ⟨new, mem, rfl, rfl, fun active => active, fun due => due⟩
    | requested runMem named =>
        obtain ⟨old, oldMem, rfl⟩ := Table.mem_of_map rfl mem
        refine ⟨old, oldMem, ?_⟩
        split <;> exact ⟨rfl, rfl, fun active => active, fun due => due⟩
    | @undispatched run _ runMem named active idle _ =>
        obtain ⟨old, oldMem, rfl⟩ := Database.rowwise_cancelled.origin mem
        split at owned
        next own =>
          obtain rfl := Table.eq_of_key_eq oldMem runMem (own.trans named.symm)
          have ⟨isLatest, _, _⟩ := latest attempt attemptMem live old oldMem owned
          have free := (Table.any_eq_false.mp idle) attempt attemptMem
          have atWork : attempt.state.isTerminal = false := by simpa [AttemptRow.isLive] using live
          have sameId : attempt.runId = old.id := owned.symm
          have dispatched := sound.dispatched attempt attemptMem
          simp [sameId, isLatest, atWork, dispatched] at free
        next other =>
          simp only [other, if_false]
          exact ⟨old, oldMem, rfl, rfl, fun active => active, fun due => due⟩

/-- Only a terminal report decides about the run of its attempt. -/
theorem rowwise_decided {vendor : Vendor} {runId : String} {attemptNo : ℕ} {event : AttemptEvent}
    {now : ℤ} {retryScheduled : Bool}
    (projects : db.Projects runId attemptNo event now (decideTerminal vendor) retryScheduled
      after) :
    Table.Rowwise (fun old new => new.id = old.id ∧ new.attemptCount = old.attemptCount ∧
        new.retryDueAtMs = old.retryDueAtMs ∧
          (old.state.isActive = true → new.state.isActive = true) ∨
        event.state.isTerminal = true ∧ old.id = runId ∧ new.id = old.id) db.runs after.runs := by
  have same : ∀ run : RunRow, run.id = run.id ∧ run.attemptCount = run.attemptCount ∧
      run.retryDueAtMs = run.retryDueAtMs ∧
        (run.state.isActive = true → run.state.isActive = true) :=
    fun _ => ⟨rfl, rfl, rfl, fun active => active⟩
  cases projects with
  | nothing => exact .refl (fun run => .inl (same run)) _
  | start started =>
      refine Table.rowwise_of_map rfl ?_
      intro run _
      split
      · exact .inl ⟨rfl, rfl, rfl, fun _ => rfl⟩
      · exact .inl (same run)
  | decided terminal sourced decides =>
      have own : ∀ {run : RunRow}, (decide (run.id = runId) && run.state.isActive) = true →
          run.id = runId := by
        intro run matched
        simp only [Bool.and_eq_true, decide_eq_true_eq] at matched
        exact matched.1
      unfold Database.applyDecision
      split
      · refine Table.rowwise_of_map rfl ?_
        intro run _
        split
        next matched => exact .inr ⟨terminal, own matched, rfl⟩
        next => exact .inl (same run)
      · dsimp only
        split <;>
        · refine Table.rowwise_of_map rfl ?_
          intro run _
          split
          next matched => exact .inr ⟨terminal, own matched, rfl⟩
          next => exact .inl (same run)

/-- A report keeps the property unless it repeats the end of a superseded attempt. -/
theorem applies {vendor : Vendor} {event : AttemptEvent} {now : ℤ}
    {attempt : AttemptRow} {result : AttemptEventApplyResult} (latest : db.LiveLatest)
    (mem : attempt ∈ db.attempts)
    (settled : ¬db.RepeatsSuperseded attempt.runId attempt.attemptNo event)
    (applies : db.Applies attempt event now (decideTerminal vendor) result after) :
    after.LiveLatest := by
  cases applies with
  | known old => exact latest
  | recorded newer accepted projects =>
      have recorded := Database.recordEvent_advances mem newer accepted
      have advances := recorded.trans projects.advances
      refine latest.transfer ?_ ?_
      · intro new newMem live
        obtain ⟨old, oldMem, follows⟩ := advances.attempts.origin newMem
        exact ⟨old, oldMem, follows.live live, follows.key.symm⟩
      · rintro new newMem other otherMem live ⟨later, laterMem, laterLive, laterKey⟩ owned
        obtain ⟨old, oldMem, ⟨sameId, count, due, active⟩ | ⟨terminal, own, sameId⟩⟩ :=
          (rowwise_decided projects).origin newMem
        · exact ⟨old, oldMem, sameId.symm, count, active, due.trans⟩
        · exfalso
          have sameRun : other.runId = attempt.runId := owned.symm.trans (sameId.trans own)
          by_cases itself : other = attempt
          · -- the reported attempt itself is terminal afterwards
            subst itself
            obtain ⟨middle, middleMem, follows⟩ := projects.advances.attempts.origin laterMem
            obtain ⟨before, beforeMem, rfl⟩ := Table.mem_of_map rfl middleMem
            have key : before.key = other.key := by
              rw [← laterKey, follows.key]
              split <;> rfl
            have middleLive := follows.live laterLive
            simp [key, AttemptRow.isLive, AttemptRow.record, terminal] at middleLive
          · cases ended : attempt.state.isTerminal with
            | true =>
                have repeated := AttemptState.accepts_of_isTerminal ended accepted
                exact settled ⟨attempt, mem, rfl, ended, repeated, newer, other, otherMem, sameRun,
                  live⟩
            | false =>
                have attemptLive : attempt.isLive = true := by simp [AttemptRow.isLive, ended]
                have first := (latest attempt mem attemptLive old oldMem own).1
                have second := (latest other otherMem live old oldMem (own.trans sameRun.symm)).1
                exact itself (Table.eq_of_key_eq otherMem mem
                  (Prod.ext sameRun (second.trans first.symm)))

theorem step {vendor : Vendor} (latest : db.LiveLatest) (sound : db.Sound)
    (operation : StoreOp vendor) (settled : noSupersededReport db operation) :
    (operation.run db).LiveLatest := by
  have effect := operation.run_effect db
  generalize operation.run db = after at effect
  cases effect with
  | unchanged => exact latest
  | bookkeeping schedules nodes => exact latest
  | configured planned current enforced applied =>
      exact latest.configSteps sound (Database.apply_steps applied)
  | created creates => exact latest.inserts sound creates.inserts
  | polled polls =>
      cases polls with
      | nothing | cancel => exact latest
      | redeliver mem queued runMem owned =>
          refine latest.transfer ?_ ?_
          · intro new newMem live
            obtain ⟨old, oldMem, follows⟩ :=
              (markRedelivery_advances db _ _).attempts.origin newMem
            exact ⟨old, oldMem, follows.live live, follows.key.symm⟩
          · intro new newMem _ _ _ _ _
            exact ⟨new, newMem, rfl, rfl, fun active => active, fun due => due⟩
      | dispatch selects _ _ _ persists =>
          obtain ⟨_, run, selected⟩ := selects.candidate sound
          cases selects with
          | manual | retry => exact latest.persists selected persists
          | scheduled inserts => exact (latest.inserts sound inserts).persists selected persists
  | cancelled cancels => exact latest.cancels sound cancels
  | reported mem keyed applies =>
      obtain ⟨rfl, rfl⟩ := Prod.mk.inj keyed
      exact latest.applies mem settled applies

/-- The inductive form implies the property. -/
theorem singleLiveAttempt (latest : db.LiveLatest) (sound : db.Sound) : db.SingleLiveAttempt where
  onePerMirror := by
    intro first firstMem second secondMem firstRun firstRunMem secondRun secondRunMem firstOwned
      secondOwned firstLive secondLive firstActive secondActive sameMirror
    have same := sound.oneActiveRun firstRun firstRunMem secondRun secondRunMem firstActive
      secondActive sameMirror
    have firstLatest := (latest first firstMem firstLive firstRun firstRunMem firstOwned).1
    have secondLatest := (latest second secondMem secondLive secondRun secondRunMem secondOwned).1
    apply Table.eq_of_key_eq firstMem secondMem
    refine Prod.ext ?_ ?_
    · exact firstOwned.symm.trans ((congrArg RunRow.id same).trans secondOwned)
    · exact firstLatest.trans ((congrArg RunRow.attemptCount same).trans secondLatest.symm)
  latest := by
    intro attempt mem run runMem owned live _
    exact (latest attempt mem live run runMem owned).1
  waiting := by
    intro run runMem waits attempt mem owned
    by_contra live
    have notDue := (latest attempt mem (by simpa using live) run runMem owned.symm).2.2
    simp [notDue] at waits
  ended := by
    intro run runMem terminal attempt mem owned
    by_contra live
    have active := (latest attempt mem (by simpa using live) run runMem owned.symm).2.1
    simp [RunState.isActive, terminal] at active

end Database.LiveLatest

/--
In every run of the store in which no report repeats the end of a superseded
attempt, each mirror has at most one live attempt, it is the latest of its run,
and a waiting or ended run has none.
-/
theorem single_live_attempt {vendor : Vendor} {db : Database}
    (reachable : ReachableBy (@noSupersededReport vendor) db) :
    db.SingleLiveAttempt := by
  have latest : db.LiveLatest := by
    refine reachable.invariant ?_ ?_
    · intro attempt mem
      exact absurd mem Table.not_mem_empty
    · intro before operation earlier latest settled
      exact latest.step earlier.sound operation settled
  exact latest.singleLiveAttempt reachable.sound

/-- A run fails once and its second attempt is dispatched. -/
def Sample.retried : List (StoreOp Sample.vendor) :=
  [.apply (alphaBundle nodeA) 0 1000,
    .createManualRun "alpha" "request-1" 2000 "run-1",
    .pollAction "node-a" agent 3000 "run-2",
    .applyEvent "run-1" 1 (report 1 .accepted) 4000,
    .applyEvent "run-1" 1 (report 2 .failed) 5000,
    .pollAction "node-a" agent 6000 "run-2"]

theorem single_live_attempt_retried :
    (StoreOp.runAll .empty Sample.retried).attempts.any AttemptRow.isLive = true ∧
      (StoreOp.runAll .empty Sample.retried).SingleLiveAttempt :=
  ⟨by decide +kernel,
    single_live_attempt (StoreOp.steps_runAll (by decide +kernel))⟩

/-- The first attempt reports its failure again: the run waits although its second is queued. -/
theorem superseded_report_breaks_single_live_attempt :
    ¬∀ db, Reachable Sample.vendor db → db.SingleLiveAttempt := by
  intro claimed
  have single := claimed _ (Reachable.runAll (Sample.retried ++
    [.applyEvent "run-1" 1 (Sample.report 3 .failed) 7000]))
  have broken : ((StoreOp.runAll .empty (Sample.retried ++
      [.applyEvent "run-1" 1 (Sample.report 3 .failed) 7000])).runs.any fun run =>
        run.retryDueAtMs.isSome && (StoreOp.runAll .empty (Sample.retried ++
          [.applyEvent "run-1" 1 (Sample.report 3 .failed) 7000])).attempts.any fun attempt =>
            decide (attempt.runId = run.id) && attempt.isLive) = true := by
    decide +kernel
  simp only [Table.any_eq_true, Bool.and_eq_true, decide_eq_true_eq] at broken
  obtain ⟨run, runMem, waits, attempt, mem, owned, live⟩ := broken
  rw [single.waiting run runMem waits attempt mem owned] at live
  cases live

end LzuMirror
