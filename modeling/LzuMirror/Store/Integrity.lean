import LzuMirror.Store.Transactions

/-!
# Referential integrity of the store

What holds in every database the transactions can produce, whatever the agents
report: every mirror has its current generation, every run belongs to a mirror
and to a generation with its owner, every attempt belongs to a run and has been
dispatched, and a mirror has at most one active run.

`Database.Advances` is the common shape of the transactions that only move
existing runs and attempts forward.
-/

namespace LzuMirror

/-- The same run at a later time; a run that has ended stays ended. -/
structure RunRow.Follows (old new : RunRow) : Prop where
  id : new.id = old.id
  mirrorName : new.mirrorName = old.mirrorName
  mirrorGeneration : new.mirrorGeneration = old.mirrorGeneration
  ownerNode : new.ownerNode = old.ownerNode
  active : new.state.isActive = true → old.state.isActive = true

/-- The same attempt at a later time; an attempt that has ended keeps its state. -/
structure AttemptRow.Follows (old new : AttemptRow) : Prop where
  key : new.key = old.key
  spec : new.spec = old.spec
  dispatches : old.dispatchCount ≤ new.dispatchCount
  sequence : old.lastEventSequence ≤ new.lastEventSequence
  started : old.state ≠ .queued → new.state ≠ .queued
  ended : old.state.isTerminal = true → new.state = old.state

theorem RunRow.Follows.refl (run : RunRow) : run.Follows run :=
  ⟨rfl, rfl, rfl, rfl, fun active => active⟩

theorem RunRow.Follows.trans {first second third : RunRow} (left : first.Follows second)
    (right : second.Follows third) : first.Follows third where
  id := right.id.trans left.id
  mirrorName := right.mirrorName.trans left.mirrorName
  mirrorGeneration := right.mirrorGeneration.trans left.mirrorGeneration
  ownerNode := right.ownerNode.trans left.ownerNode
  active := fun active => left.active (right.active active)

theorem AttemptRow.Follows.refl (attempt : AttemptRow) : attempt.Follows attempt :=
  ⟨rfl, rfl, le_rfl, le_rfl, id, fun _ => rfl⟩

theorem AttemptRow.Follows.trans {first second third : AttemptRow} (left : first.Follows second)
    (right : second.Follows third) : first.Follows third where
  key := right.key.trans left.key
  spec := right.spec.trans left.spec
  dispatches := left.dispatches.trans right.dispatches
  sequence := left.sequence.trans right.sequence
  started := fun started => right.started (left.started started)
  ended := by
    intro ended
    have same := left.ended ended
    exact (right.ended (by rw [same]; exact ended)).trans same

/-- Existing runs and attempts move forward; nothing else of the integrity data changes. -/
structure Database.Advances (before after : Database) : Prop where
  mirrors : after.mirrors = before.mirrors
  generations : after.generations = before.generations
  runs : Table.Rowwise (fun old new => old.Follows new ∧ new.attemptCount = old.attemptCount)
    before.runs after.runs
  attempts : Table.Rowwise AttemptRow.Follows before.attempts after.attempts

namespace Database.Advances

theorem refl (db : Database) : db.Advances db :=
  ⟨rfl, rfl, .refl (fun run => ⟨.refl run, rfl⟩) _, .refl .refl _⟩

theorem trans {first second third : Database} (left : first.Advances second)
    (right : second.Advances third) : first.Advances third where
  mirrors := right.mirrors.trans left.mirrors
  generations := right.generations.trans left.generations
  runs := left.runs.trans
    (fun _ _ _ old new => ⟨old.1.trans new.1, new.2.trans old.2⟩) right.runs
  attempts := left.attempts.trans (fun _ _ _ => .trans) right.attempts

/-- A transaction that rewrites runs only. -/
theorem of_runs {db : Database} {runs : Table RunRow.id}
    {schedules : Table ScheduleRow.mirrorName}
    (rowwise : Table.Rowwise
      (fun old new => old.Follows new ∧ new.attemptCount = old.attemptCount) db.runs runs) :
    db.Advances { db with runs, schedules } :=
  ⟨rfl, rfl, rowwise, .refl .refl _⟩

/-- A transaction that rewrites attempts only. -/
theorem of_attempts {db : Database} {attempts : Table AttemptRow.key}
    (rowwise : Table.Rowwise AttemptRow.Follows db.attempts attempts) :
    db.Advances { db with attempts } :=
  ⟨rfl, rfl, .refl (fun run => ⟨.refl run, rfl⟩) _, rowwise⟩

end Database.Advances

/-- The effect of ending a run on the fields that stay. -/
theorem RunRow.Follows.of_terminal {old new : RunRow} (id : new.id = old.id)
    (mirrorName : new.mirrorName = old.mirrorName)
    (mirrorGeneration : new.mirrorGeneration = old.mirrorGeneration)
    (ownerNode : new.ownerNode = old.ownerNode) (ended : new.state.isTerminal = true) :
    old.Follows new :=
  ⟨id, mirrorName, mirrorGeneration, ownerNode, by simp [RunState.isActive, ended]⟩

section Advancing

variable (db : Database) (mirror : String) (now : ℤ)

theorem cancelUndispatchedPending_advances :
    db.Advances (cancelUndispatchedPending db mirror now) := by
  unfold cancelUndispatchedPending
  refine ⟨rfl, rfl, ?_, ?_⟩
  · refine Table.rowwise_of_map rfl ?_
    intro run _
    split
    · exact ⟨.of_terminal rfl rfl rfl rfl rfl, rfl⟩
    · exact ⟨.refl run, rfl⟩
  · refine Table.rowwise_of_map rfl ?_
    intro attempt _
    split
    next matched =>
      simp only [Bool.and_eq_true, decide_eq_true_eq] at matched
      exact ⟨rfl, rfl, le_rfl, le_rfl, by simp, by simp [matched.2, AttemptState.isTerminal]⟩
    next => exact .refl attempt

theorem finalizedRetry_isTerminal (attempt : AttemptRow) (run : RunRow) :
    (finalizedRetry now attempt run).state.isTerminal = true := by
  unfold finalizedRetry
  simp only
  split <;> rfl

theorem finalizeIneligibleRetries_advances :
    db.Advances (finalizeIneligibleRetries db mirror now) := by
  refine Database.Advances.of_runs (Table.rowwise_of_map rfl ?_)
  intro run _
  dsimp only
  split
  · split
    · exact ⟨.refl run, rfl⟩
    next attempt _ =>
      exact ⟨.of_terminal rfl rfl rfl rfl (finalizedRetry_isTerminal now attempt run), rfl⟩
  · exact ⟨.refl run, rfl⟩

theorem markRedelivery_advances (key : String × ℕ) :
    db.Advances (db.markRedelivery key now) := by
  refine Database.Advances.of_attempts (Table.rowwise_of_map rfl ?_)
  intro attempt _
  split
  · exact ⟨rfl, rfl, Nat.le_succ _, le_rfl, id, fun _ => rfl⟩
  · exact .refl attempt

end Advancing

/-- Recording an accepted event moves its attempt forward. -/
theorem Database.recordEvent_advances {db : Database} {attempt : AttemptRow}
    {event : AttemptEvent} (mem : attempt ∈ db.attempts)
    (newer : attempt.lastEventSequence < event.eventSequence)
    (accepted : attempt.state.accepts event.state = true) :
    db.Advances (db.recordEvent attempt.key event) := by
  refine Database.Advances.of_attempts (Table.rowwise_of_map rfl ?_)
  intro other otherMem
  split
  next same =>
    obtain rfl : other = attempt := Table.eq_of_key_eq otherMem mem (by simpa using same)
    refine ⟨rfl, rfl, le_rfl, newer.le, ?_, fun ended => AttemptState.accepts_of_isTerminal ended
      accepted⟩
    intro started
    cases old : other.state <;> cases new : event.state <;>
      simp_all [AttemptState.accepts, AttemptState.allows, AttemptRow.record]
  next => exact .refl other

/-- The retry decision of the server is the one of `decide_retry`. -/
theorem decideTerminal_retry {vendor : Vendor} {source : TerminalDecisionSource} {now : ℤ}
    {decision : TerminalDecision} (decides : decideTerminal vendor source now = .ok decision) :
    decision.retry = decideRetry (source.retryContext now) := by
  unfold decideTerminal at decides
  simp only at decides
  split at decides
  · cases rearmed : rearmDocument vendor now source.currentConfigToml with
    | error reason => rw [rearmed] at decides; cases decides
    | ok nextDue =>
        rw [rearmed] at decides
        cases decides
        rfl
  · cases decides
    rfl

/-- The run bookkeeping of an event moves runs forward. -/
theorem Database.Projects.advances {vendor : Vendor} {db after : Database} {runId : String}
    {attemptNo : ℕ} {event : AttemptEvent} {now : ℤ} {retryScheduled : Bool}
    (projects : db.Projects runId attemptNo event now (decideTerminal vendor) retryScheduled
      after) : db.Advances after := by
  cases projects with
  | nothing => exact .refl db
  | start _ =>
      refine Database.Advances.of_runs (Table.rowwise_of_map rfl ?_)
      intro run _
      split
      next matched =>
        simp only [Bool.and_eq_true, decide_eq_true_eq] at matched
        exact ⟨⟨rfl, rfl, rfl, rfl, by simp [matched.2, RunState.isActive, RunState.isTerminal]⟩,
          rfl⟩
      next => exact ⟨.refl run, rfl⟩
  | decided terminal sourced decides =>
      have decided := decideTerminal_retry decides
      unfold Database.applyDecision
      split
      next due _ =>
        refine Database.Advances.of_runs (Table.rowwise_of_map rfl ?_)
        intro run _
        split
        next matched =>
          simp only [Bool.and_eq_true, decide_eq_true_eq] at matched
          exact ⟨⟨rfl, rfl, rfl, rfl, fun _ => matched.2⟩, rfl⟩
        next => exact ⟨.refl run, rfl⟩
      next state final =>
        have finished : Table.Rowwise
            (fun old new => old.Follows new ∧ new.attemptCount = old.attemptCount) db.runs
            (db.finishRun runId state event.projection.runStartedAtMs
              (event.projection.runFinishedAtMs.getD now) event).runs := by
          unfold Database.finishRun
          refine Table.rowwise_of_map rfl ?_
          intro run _
          split
          · exact ⟨.of_terminal rfl rfl rfl rfl (decideRetry_final (decided ▸ final)), rfl⟩
          · exact ⟨.refl run, rfl⟩
        simp only
        split
        · exact .of_runs finished
        · exact .of_runs finished

/-- Ending an undispatched run moves it, and its undispatched attempts, forward. -/
theorem Database.Cancels.advances {db after : Database} {runId : String} {now : ℤ}
    {rearm : String → Except StoreError (Option ℤ)} (cancels : db.Cancels runId now rearm after) : db.Advances after := by
  cases cancels with
  | ended => exact .refl db
  | requested mem named =>
      refine Database.Advances.of_runs (Table.rowwise_of_map rfl ?_)
      intro run _
      split
      · exact ⟨⟨rfl, rfl, rfl, rfl, fun active => active⟩, rfl⟩
      · exact ⟨.refl run, rfl⟩
  | undispatched mem named active idle _ =>
      refine ⟨rfl, rfl, ?_, ?_⟩
      · refine Database.rowwise_cancelled.imp ?_
        rintro old new rfl
        split
        · exact ⟨.of_terminal rfl rfl rfl rfl rfl, rfl⟩
        · exact ⟨.refl old, rfl⟩
      · refine Table.rowwise_of_map rfl ?_
        intro attempt _
        split
        next matched =>
          simp only [Bool.and_eq_true, Bool.not_eq_true'] at matched
          exact ⟨rfl, rfl, le_rfl, le_rfl, by simp, by simp [matched.2]⟩
        next => exact .refl attempt

/-- The references between the tables and the uniqueness of active runs. -/
structure Database.Sound (db : Database) : Prop where
  mirrorGeneration : ∀ row ∈ db.mirrors, ∃ generation ∈ db.generations,
    generation.key = (row.name, row.currentGeneration) ∧ generation.ownerNode = row.ownerNode
  runMirror : ∀ run ∈ db.runs, ∃ row ∈ db.mirrors, row.name = run.mirrorName
  runGeneration : ∀ run ∈ db.runs, ∃ generation ∈ db.generations,
    generation.key = (run.mirrorName, run.mirrorGeneration) ∧
      generation.ownerNode = run.ownerNode
  oneActiveRun : ∀ first ∈ db.runs, ∀ second ∈ db.runs, first.state.isActive = true →
    second.state.isActive = true → first.mirrorName = second.mirrorName → first = second
  attemptRun : ∀ attempt ∈ db.attempts, ∃ run ∈ db.runs,
    run.id = attempt.runId ∧ attempt.attemptNo ≤ run.attemptCount
  dispatched : ∀ attempt ∈ db.attempts, 0 < attempt.dispatchCount

namespace Database.Sound

variable {db after : Database}

theorem empty : Database.empty.Sound := by
  constructor <;> intro row mem <;> exact absurd mem Table.not_mem_empty

/-- Moving runs and attempts forward keeps every reference. -/
theorem advance (sound : db.Sound) (advances : db.Advances after) : after.Sound where
  mirrorGeneration := by
    rw [advances.mirrors, advances.generations]
    exact sound.mirrorGeneration
  runMirror := by
    intro run mem
    obtain ⟨old, oldMem, follows, _⟩ := advances.runs.origin mem
    rw [advances.mirrors, follows.mirrorName]
    exact sound.runMirror old oldMem
  runGeneration := by
    intro run mem
    obtain ⟨old, oldMem, follows, _⟩ := advances.runs.origin mem
    rw [advances.generations, follows.mirrorName, follows.mirrorGeneration, follows.ownerNode]
    exact sound.runGeneration old oldMem
  oneActiveRun := by
    intro first firstMem second secondMem firstActive secondActive sameMirror
    obtain ⟨oldFirst, oldFirstMem, firstFollows, _⟩ := advances.runs.origin firstMem
    obtain ⟨oldSecond, oldSecondMem, secondFollows, _⟩ := advances.runs.origin secondMem
    have same := sound.oneActiveRun oldFirst oldFirstMem oldSecond oldSecondMem
      (firstFollows.active firstActive) (secondFollows.active secondActive)
      (by rw [← firstFollows.mirrorName, ← secondFollows.mirrorName, sameMirror])
    apply Table.eq_of_key_eq firstMem secondMem
    rw [firstFollows.id, secondFollows.id, same]
  attemptRun := by
    intro attempt mem
    obtain ⟨old, oldMem, follows⟩ := advances.attempts.origin mem
    obtain ⟨run, runMem, owned, bounded⟩ := sound.attemptRun old oldMem
    obtain ⟨later, laterMem, runFollows, count⟩ := advances.runs.successor runMem
    obtain ⟨sameRun, sameNo⟩ := Prod.mk.inj follows.key
    refine ⟨later, laterMem, ?_, ?_⟩
    · rw [runFollows.id, owned, sameRun]
    · rw [count, sameNo]
      exact bounded
  dispatched := by
    intro attempt mem
    obtain ⟨old, oldMem, follows⟩ := advances.attempts.origin mem
    exact (sound.dispatched old oldMem).trans_le follows.dispatches

theorem bookkeeping (sound : db.Sound) (mirrors : after.mirrors = db.mirrors)
    (generations : after.generations = db.generations) (runs : after.runs = db.runs)
    (attempts : after.attempts = db.attempts) : after.Sound := by
  constructor
  · rw [mirrors, generations]; exact sound.mirrorGeneration
  · rw [mirrors, runs]; exact sound.runMirror
  · rw [generations, runs]; exact sound.runGeneration
  · rw [runs]; exact sound.oneActiveRun
  · rw [runs, attempts]; exact sound.attemptRun
  · rw [attempts]; exact sound.dispatched

/-- One elementary update of the configuration. -/
theorem configStep {vendor : Vendor} {bundle : CanonicalBundle vendor}
    {changes : List ConfigChange} (sound : db.Sound) (step : ConfigStep bundle changes db after) :
    after.Sound := by
  cases step with
  | bookkeeping revision schedules => exact sound.bookkeeping rfl rfl rfl rfl
  | unmanage change mem kind now =>
      have kept : Table.Rowwise (fun old new : MirrorRow => new.name = old.name ∧
            new.ownerNode = old.ownerNode ∧ new.currentGeneration = old.currentGeneration)
          db.mirrors (db.mirrors.update (fun row => row.name = change.mirror)
            (fun row => { row with managed := false, removedAtMs := some now })) := by
        refine Table.rowwise_of_map rfl ?_
        intro row _
        split <;> exact ⟨rfl, rfl, rfl⟩
      refine { sound with mirrorGeneration := ?_, runMirror := ?_ }
      · intro row rowMem
        obtain ⟨old, oldMem, named, owner, current⟩ := kept.origin rowMem
        rw [named, owner, current]
        exact sound.mirrorGeneration old oldMem
      · intro run runMem
        obtain ⟨row, rowMem, named⟩ := sound.runMirror run runMem
        obtain ⟨later, laterMem, sameName, _⟩ := kept.successor rowMem
        exact ⟨later, laterMem, sameName.trans named⟩
  | @upsert change mirror generation revision now generations mem kind present toGeneration
      inserted =>
      obtain ⟨_, members⟩ := Table.insert?_eq_some inserted
      refine { sound with mirrorGeneration := ?_, runMirror := ?_, runGeneration := ?_ }
      · intro row rowMem
        rcases Table.mem_put.mp rowMem with ⟨oldMem, _⟩ | rfl
        · obtain ⟨generation, generationMem, stored⟩ := sound.mirrorGeneration row oldMem
          exact ⟨generation, (members _).mpr (.inl generationMem), stored⟩
        · exact ⟨_, (members _).mpr (.inr rfl), rfl, rfl⟩
      · intro run runMem
        obtain ⟨row, rowMem, named⟩ := sound.runMirror run runMem
        by_cases replaced : row.name = change.mirror
        · exact ⟨_, Table.mem_put.mpr (.inr rfl), replaced.symm.trans named⟩
        · exact ⟨row, Table.mem_put.mpr (.inl ⟨rowMem, replaced⟩), named⟩
      · intro run runMem
        obtain ⟨generation, generationMem, stored⟩ := sound.runGeneration run runMem
        exact ⟨generation, (members _).mpr (.inl generationMem), stored⟩
  | cancelPending mirror now =>
      exact sound.advance (cancelUndispatchedPending_advances db mirror now)
  | finalizeRetries mirror now =>
      exact sound.advance (finalizeIneligibleRetries_advances db mirror now)

theorem configSteps {vendor : Vendor} {bundle : CanonicalBundle vendor}
    {changes : List ConfigChange} (sound : db.Sound)
    (steps : Relation.ReflTransGen (ConfigStep bundle changes) db after) : after.Sound := by
  induction steps with
  | refl => exact sound
  | tail _ step ih => exact ih.configStep step

/-- Inserting a run for a mirror without an active one. -/
theorem inserts {run : RunRow} (sound : db.Sound) (inserts : db.Inserts run after) :
    after.Sound := by
  obtain ⟨middle, inserted, rfl⟩ := inserts.inserted
  obtain ⟨row, rowMem, _, _, named, generation, owner⟩ := inserts.mirror
  obtain ⟨free, fresh, runs, rfl, members⟩ := Database.insertRun_eq_ok inserted
  have active : run.state.isActive = true := by rw [inserts.pending]; rfl
  have others := Database.hasActiveRun_eq_false.mp (free active)
  refine { sound with runMirror := ?_, runGeneration := ?_, oneActiveRun := ?_, attemptRun := ?_ }
  · intro other otherMem
    rcases (members other).mp otherMem with oldMem | rfl
    · exact sound.runMirror other oldMem
    · exact ⟨row, rowMem, named.symm⟩
  · intro other otherMem
    rcases (members other).mp otherMem with oldMem | rfl
    · exact sound.runGeneration other oldMem
    · rw [named, generation, owner]
      exact sound.mirrorGeneration row rowMem
  · intro first firstMem second secondMem firstActive secondActive sameMirror
    rcases (members first).mp firstMem with oldFirst | rfl
    · rcases (members second).mp secondMem with oldSecond | rfl
      · exact sound.oneActiveRun first oldFirst second oldSecond firstActive secondActive
          sameMirror
      · rw [others first oldFirst sameMirror] at firstActive
        cases firstActive
    · rcases (members second).mp secondMem with oldSecond | rfl
      · rw [others second oldSecond sameMirror.symm] at secondActive
        cases secondActive
      · rfl
  · intro attempt attemptMem
    obtain ⟨owner, ownerMem, owned⟩ := sound.attemptRun attempt attemptMem
    exact ⟨owner, (members owner).mpr (.inl ownerMem), owned⟩

end Database.Sound

/-- The run a candidate was selected from, in the database that holds it. -/
structure Database.Candidate (staged : Database) (candidate : DispatchCandidate)
    (run : RunRow) : Prop where
  mem : run ∈ staged.runs
  id : run.id = candidate.runId
  mirrorName : run.mirrorName = candidate.mirrorName
  mirrorGeneration : run.mirrorGeneration = candidate.generation
  active : run.state.isActive = true
  next : ∀ attempt ∈ staged.attempts, attempt.runId = run.id →
    attempt.attemptNo < candidate.attemptNo
  idle : (∀ attempt ∈ staged.attempts, attempt.runId ≠ run.id) ∨
    run.retryDueAtMs.isSome = true

/-- A selected candidate is an active run that waits for its next attempt. -/
theorem Database.Selects.candidate {db staged : Database} {node : String}
    {candidate : DispatchCandidate} (selects : db.Selects node candidate staged) (sound : db.Sound) :
    staged.Sound ∧ ∃ run, staged.Candidate candidate run := by
  cases selects with
  | manual mem pending _ _ unattempted =>
      refine ⟨sound, _, mem, rfl, rfl, rfl, by rw [pending]; rfl, ?_, .inl unattempted⟩
      intro attempt attemptMem owned
      exact absurd owned (unattempted attempt attemptMem)
  | retry mem running due =>
      refine ⟨sound, _, mem, rfl, rfl, rfl, by rw [running]; rfl, ?_, .inr due⟩
      intro attempt attemptMem owned
      obtain ⟨run, runMem, named, bounded⟩ := sound.attemptRun attempt attemptMem
      have same := Table.eq_of_key_eq runMem mem (named.trans owned)
      rw [same] at bounded
      exact Nat.lt_succ_of_le bounded
  | @scheduled run _ inserts =>
      obtain ⟨middle, inserted, rfl⟩ := inserts.inserted
      obtain ⟨_, fresh, runs, rfl, members⟩ := Database.insertRun_eq_ok inserted
      have unattempted : ∀ attempt ∈ db.attempts, attempt.runId ≠ run.id := by
        intro attempt attemptMem owned
        obtain ⟨owner, ownerMem, named, _⟩ := sound.attemptRun attempt attemptMem
        exact fresh owner ownerMem (named.trans owned)
      refine ⟨sound.inserts inserts, _, (members _).mpr (.inr rfl), rfl, rfl, rfl,
        by rw [inserts.pending]; rfl, ?_, .inl unattempted⟩
      intro attempt attemptMem owned
      exact absurd owned (unattempted attempt attemptMem)

theorem RunRow.dispatchedAs_follows (source : DispatchSource) (policy : RunPolicySnapshot)
    (run : RunRow) : run.Follows (run.dispatchedAs source policy) := by
  unfold RunRow.dispatchedAs
  split
  · exact ⟨rfl, rfl, rfl, rfl, fun active => active⟩
  · exact .refl run

theorem RunRow.dispatchedAs_attemptCount {source : DispatchSource} {policy : RunPolicySnapshot}
    {run : RunRow} (own : run.id = source.runId) :
    (run.dispatchedAs source policy).attemptCount = source.attemptNo ∧
      (run.dispatchedAs source policy).retryDueAtMs = none := by
  simp [RunRow.dispatchedAs, own]

theorem RunRow.dispatchedAs_of_ne {source : DispatchSource} {policy : RunPolicySnapshot}
    {run : RunRow} (other : run.id ≠ source.runId) : run.dispatchedAs source policy = run := by
  simp [RunRow.dispatchedAs, other]

/-- Persisting the dispatch of a selected candidate. -/
theorem Database.Sound.persists {staged after : Database} {candidate : DispatchCandidate}
    {generation : GenerationRow} {compiled : CompiledDispatch} {now : ℤ}
    {action : Option PollAction} {run : RunRow} (sound : staged.Sound)
    (selected : staged.Candidate candidate run)
    (persists : staged.persistDispatch (candidate.source generation) compiled now =
      .ok (action, after)) : after.Sound := by
  obtain ⟨_, _, mirrors, generations, runs, members⟩ := Database.persistDispatch_eq_ok persists
  have follows : Table.Rowwise RunRow.Follows staged.runs after.runs :=
    runs.imp fun old new same => same ▸ old.dispatchedAs_follows _ _
  constructor
  · rw [mirrors, generations]
    exact sound.mirrorGeneration
  · intro later laterMem
    obtain ⟨old, oldMem, follow⟩ := follows.origin laterMem
    rw [mirrors, follow.mirrorName]
    exact sound.runMirror old oldMem
  · intro later laterMem
    obtain ⟨old, oldMem, follow⟩ := follows.origin laterMem
    rw [generations, follow.mirrorName, follow.mirrorGeneration, follow.ownerNode]
    exact sound.runGeneration old oldMem
  · intro first firstMem second secondMem firstActive secondActive sameMirror
    obtain ⟨oldFirst, oldFirstMem, firstFollows⟩ := follows.origin firstMem
    obtain ⟨oldSecond, oldSecondMem, secondFollows⟩ := follows.origin secondMem
    have same := sound.oneActiveRun oldFirst oldFirstMem oldSecond oldSecondMem
      (firstFollows.active firstActive) (secondFollows.active secondActive)
      (by rw [← firstFollows.mirrorName, ← secondFollows.mirrorName, sameMirror])
    apply Table.eq_of_key_eq firstMem secondMem
    rw [firstFollows.id, secondFollows.id, same]
  · intro attempt attemptMem
    rcases (members attempt).mp attemptMem with oldMem | rfl
    · obtain ⟨owner, ownerMem, owned, bounded⟩ := sound.attemptRun attempt oldMem
      obtain ⟨later, laterMem, rfl⟩ := runs.successor ownerMem
      refine ⟨_, laterMem, by rw [(owner.dispatchedAs_follows _ _).id, owned], ?_⟩
      by_cases own : owner.id = candidate.runId
      · rw [(RunRow.dispatchedAs_attemptCount own).1]
        have same := Table.eq_of_key_eq ownerMem selected.mem (own.trans selected.id.symm)
        exact (selected.next attempt oldMem (owned.symm.trans (congrArg RunRow.id same))).le
      · rw [RunRow.dispatchedAs_of_ne own]
        exact bounded
    · obtain ⟨later, laterMem, rfl⟩ := runs.successor selected.mem
      refine ⟨_, laterMem, (run.dispatchedAs_follows _ _).id.trans selected.id, ?_⟩
      exact (RunRow.dispatchedAs_attemptCount selected.id).1.ge
  · intro attempt attemptMem
    rcases (members attempt).mp attemptMem with oldMem | rfl
    · exact sound.dispatched attempt oldMem
    · exact Nat.one_pos

/-- Integrity is kept by every transaction. -/
theorem Database.Sound.polls {db after : Database} {node : String} {now : ℤ}
    {action : Option PollAction}
    {compile : DispatchSource → Except StoreError (Option CompiledDispatch)} (sound : db.Sound)
    (polls : db.Polls node now compile action after) : after.Sound := by
  cases polls with
  | nothing | cancel => exact sound
  | redeliver mem queued runMem owned =>
      exact sound.advance (markRedelivery_advances db _ _)
  | dispatch selects _ _ _ persists =>
      obtain ⟨stagedSound, run, selected⟩ := selects.candidate sound
      exact stagedSound.persists selected persists

theorem Database.Sound.step {vendor : Vendor} {db : Database} (sound : db.Sound)
    (operation : StoreOp vendor) : (operation.run db).Sound := by
  have effect := operation.run_effect db
  generalize operation.run db = after at effect
  cases effect with
  | unchanged => exact sound
  | bookkeeping schedules nodes => exact sound.bookkeeping rfl rfl rfl rfl
  | configured planned current enforced applied =>
      exact sound.configSteps (Database.apply_steps applied)
  | created creates => exact sound.inserts creates.inserts
  | polled polls => exact sound.polls polls
  | cancelled cancels => exact sound.advance cancels.advances
  | reported mem keyed applies =>
      cases applies with
      | known old => exact sound
      | recorded newer accepted projects =>
          exact sound.advance
            ((Database.recordEvent_advances mem newer accepted).trans projects.advances)

/-- Every reachable database is sound. -/
theorem ReachableBy.sound {vendor : Vendor} {allowed : Database → StoreOp vendor → Prop}
    {db : Database} (reachable : ReachableBy allowed db) : db.Sound :=
  reachable.invariant .empty fun _ operation _ sound _ => sound.step operation

theorem Database.Selects.configuration {db staged : Database} {node : String}
    {candidate : DispatchCandidate} (selects : db.Selects node candidate staged) :
    staged.mirrors = db.mirrors ∧ staged.generations = db.generations := by
  cases selects with
  | manual | retry => exact ⟨rfl, rfl⟩
  | scheduled inserts =>
      obtain ⟨middle, inserted, rfl⟩ := inserts.inserted
      obtain ⟨_, _, runs, rfl, _⟩ := Database.insertRun_eq_ok inserted
      exact ⟨rfl, rfl⟩

/-- Only `apply` touches the configuration. -/
theorem StoreOp.Effect.configuration {vendor : Vendor} {db after : Database}
    {operation : StoreOp vendor} (effect : operation.Effect db after) :
    (∃ bundle baseRevision now, operation = .apply bundle baseRevision now) ∨
      after.mirrors = db.mirrors ∧ after.generations = db.generations := by
  cases effect with
  | unchanged | bookkeeping => exact .inr ⟨rfl, rfl⟩
  | configured => exact .inl ⟨_, _, _, rfl⟩
  | created creates =>
      obtain ⟨middle, inserted, rfl⟩ := creates.inserts.inserted
      obtain ⟨_, _, runs, rfl, _⟩ := Database.insertRun_eq_ok inserted
      exact .inr ⟨rfl, rfl⟩
  | polled polls =>
      cases polls with
      | nothing | cancel | redeliver => exact .inr ⟨rfl, rfl⟩
      | dispatch selects _ _ _ persists =>
          obtain ⟨_, _, mirrors, generations, _⟩ := Database.persistDispatch_eq_ok persists
          have ⟨stagedMirrors, stagedGenerations⟩ := selects.configuration
          exact .inr ⟨mirrors.trans stagedMirrors, generations.trans stagedGenerations⟩
  | cancelled cancels => exact .inr ⟨cancels.advances.mirrors, cancels.advances.generations⟩
  | reported mem keyed applies =>
      cases applies with
      | known => exact .inr ⟨rfl, rfl⟩
      | recorded newer accepted projects =>
          exact .inr ⟨projects.advances.mirrors, projects.advances.generations⟩

end LzuMirror
