import LzuMirror.Store.Integrity

/-!
# Interval schedules stay alive

An interval that fires clears its due time and leaves the re-arming to the end
of a run. `Database.Live` says that somebody still has the interval in hand: the
due time or the due marker is set, or a run of the mirror's current owner is
active. The run re-arms the interval when it ends, because the mirror is
eligible and has not changed its owner.

An owner changes under an active run only when a mirror is removed and added
again on another node. The due time is set afresh then, and the interval is lost
if it fires before the run of the former owner has ended.
-/

namespace LzuMirror

/-- The mirror is managed and enabled, and its current document has an interval schedule. -/
def Database.Timed (vendor : Vendor) (db : Database) (mirror : String) : Prop :=
  ∃ row generation document text, db.currentGeneration mirror = some (row, generation) ∧
    row.managed = true ∧ row.enabled = true ∧
    storedDocument vendor generation.configToml = .ok document ∧
    document.schedule = some (.interval text)

/-- The due time or the due marker is set. -/
def ScheduleRow.isPending (schedule : ScheduleRow) : Bool :=
  schedule.runtime.nextDueAtMs.isSome || schedule.runtime.catchUpPending

/-- A report on a run or its cancellation. -/
def StoreOp.Concerns {vendor : Vendor} (runId : String) : StoreOp vendor → Prop
  | .applyEvent reported _ _ _ => reported = runId
  | .requestCancellation requested _ => requested = runId
  | _ => False

/-- The run is there and has ended. -/
def Database.HasEnded (db : Database) (runId : String) : Prop :=
  ∃ run ∈ db.runs, run.id = runId ∧ run.state.isActive = false

/-- The due time of the mirror is set. -/
def Database.IsArmed (db : Database) (mirror : String) : Prop :=
  ∃ schedule ∈ db.schedules, schedule.mirrorName = mirror ∧
    schedule.runtime.nextDueAtMs.isSome = true

/-- Whatever ends the run, a report or a cancellation, sets the due time of its mirror. -/
def Database.HandsOver (vendor : Vendor) (db : Database) (run : RunRow) : Prop :=
  ∀ operation : StoreOp vendor, operation.Concerns run.id →
    (operation.run db).HasEnded run.id → (operation.run db).IsArmed run.mirrorName

/-- No interval schedule of a managed and enabled mirror has died. -/
def Database.IntervalsAlive (vendor : Vendor) (db : Database) : Prop :=
  ∀ mirror, db.Timed vendor mirror → ∃ schedule ∈ db.schedules, schedule.mirrorName = mirror ∧
    (schedule.runtime.nextDueAtMs.isSome = true ∨ schedule.runtime.catchUpPending = true ∨
      ∃ run ∈ db.runs, run.mirrorName = mirror ∧ run.state.isActive = true ∧
        db.HandsOver vendor run)

/-- The run belongs to the current owner of its mirror. -/
def Database.OwnedNow (db : Database) (run : RunRow) : Prop :=
  ∃ row ∈ db.mirrors, row.name = run.mirrorName ∧ row.ownerNode = run.ownerNode

/-- A run of the mirror's current owner is active. -/
def Database.Serves (db : Database) (mirror : String) : Prop :=
  ∃ run ∈ db.runs, run.mirrorName = mirror ∧ run.state.isActive = true ∧ db.OwnedNow run

/-- Somebody has the interval in hand. -/
def Database.Live (db : Database) (schedule : ScheduleRow) : Prop :=
  schedule.isPending = true ∨ db.Serves schedule.mirrorName

/-- A transaction that leaves the configuration alone and keeps intervals alive. -/
structure Database.Ticks (vendor : Vendor) (before after : Database) : Prop where
  mirrors : after.mirrors = before.mirrors
  generations : after.generations = before.generations
  schedules : Table.Rowwise
    (fun old new => new.mirrorName = old.mirrorName ∧ new.scheduleHash = old.scheduleHash ∧
      (before.Timed vendor old.mirrorName → before.Live old → after.Live new))
    before.schedules after.schedules

section Ticks

variable {vendor : Vendor} {db after : Database}

theorem Database.Timed.congr {mirror : String} (timed : db.Timed vendor mirror)
    (mirrors : after.mirrors = db.mirrors) (generations : after.generations = db.generations) :
    after.Timed vendor mirror := by
  unfold Database.Timed Database.currentGeneration
  rw [mirrors, generations]
  exact timed

/-- The run is still active for the same owner. -/
def Database.StillServes (after : Database) (run : RunRow) : Prop :=
  ∃ later ∈ after.runs, later.mirrorName = run.mirrorName ∧ later.ownerNode = run.ownerNode ∧
    later.state.isActive = true

theorem Database.StillServes.serves {run : RunRow} (still : after.StillServes run)
    (mirrors : after.mirrors = db.mirrors) (owned : db.OwnedNow run) :
    after.Serves run.mirrorName := by
  obtain ⟨later, mem, sameMirror, sameOwner, active⟩ := still
  obtain ⟨row, rowMem, named, owner⟩ := owned
  exact ⟨later, mem, sameMirror, active, row, by rw [mirrors]; exact rowMem,
    named.trans sameMirror.symm, owner.trans sameOwner.symm⟩

/-- A transaction that leaves the schedules alone. -/
theorem Database.Ticks.of_schedules_eq (mirrors : after.mirrors = db.mirrors)
    (generations : after.generations = db.generations) (schedules : after.schedules = db.schedules)
    (keeps : ∀ run ∈ db.runs, run.state.isActive = true → db.OwnedNow run →
      db.Timed vendor run.mirrorName → after.StillServes run) : db.Ticks vendor after := by
  refine ⟨mirrors, generations, ?_⟩
  rw [schedules]
  refine .refl (fun schedule => ⟨rfl, rfl, fun timed live => live.imp id ?_⟩) _
  rintro ⟨run, mem, named, active, owned⟩
  rw [← named] at timed ⊢
  exact (keeps run mem active owned timed).serves mirrors owned

theorem Database.Ticks.refl (db : Database) : db.Ticks vendor db :=
  .of_schedules_eq rfl rfl rfl fun run mem active _ _ => ⟨run, mem, rfl, rfl, active⟩

theorem Database.Ticks.trans {first second third : Database} (left : first.Ticks vendor second)
    (right : second.Ticks vendor third) : first.Ticks vendor third where
  mirrors := right.mirrors.trans left.mirrors
  generations := right.generations.trans left.generations
  schedules := by
    refine (left.schedules.comp right.schedules).imp ?_
    rintro old new ⟨middle, ⟨named, hashed, kept⟩, laterNamed, laterHashed, laterKept⟩
    refine ⟨laterNamed.trans named, laterHashed.trans hashed, fun timed live => ?_⟩
    refine laterKept ?_ (kept timed live)
    rw [named]
    exact timed.congr left.mirrors left.generations

/-- A new run of the current owner takes the due marker over. -/
theorem Database.Inserts.ticks {run : RunRow} (inserts : db.Inserts run after) :
    db.Ticks vendor after := by
  obtain ⟨middle, inserted, rfl⟩ := inserts.inserted
  obtain ⟨row, rowMem, _, _, named, _, owner⟩ := inserts.mirror
  obtain ⟨_, _, runs, rfl, members⟩ := Database.insertRun_eq_ok inserted
  refine ⟨rfl, rfl, Table.rowwise_of_map rfl ?_⟩
  intro schedule _
  split
  next matched =>
    have same : schedule.mirrorName = run.mirrorName := of_decide_eq_true matched
    refine ⟨rfl, rfl, fun _ _ => .inr ⟨run, (members run).mpr (.inr rfl), same.symm, ?_, ?_⟩⟩
    · rw [inserts.pending]
      rfl
    · exact ⟨row, rowMem, named.symm, owner.symm⟩
  next =>
    refine ⟨rfl, rfl, fun _ live => live.imp id ?_⟩
    rintro ⟨other, mem, serves⟩
    exact ⟨other, (members other).mpr (.inl mem), serves⟩

theorem Database.Polls.ticks {node : String} {now : ℤ} {action : Option PollAction}
    {compile : DispatchSource → Except StoreError (Option CompiledDispatch)}
    (polls : db.Polls node now compile action after) : db.Ticks vendor after := by
  cases polls with
  | nothing | cancel => exact .refl db
  | redeliver =>
      exact .of_schedules_eq rfl rfl rfl fun run mem active _ _ => ⟨run, mem, rfl, rfl, active⟩
  | @dispatch candidate generation compiled _ staged _ selects _ _ _ persists =>
      have stagedTicks : db.Ticks vendor staged := by
        cases selects with
        | manual | retry => exact .refl db
        | scheduled inserts => exact inserts.ticks
      refine stagedTicks.trans ?_
      obtain ⟨_, _, mirrors, generations, runs, _⟩ := Database.persistDispatch_eq_ok persists
      refine .of_schedules_eq mirrors generations (Database.persistDispatch_schedules persists).1 ?_
      intro run mem active _ _
      obtain ⟨later, laterMem, rfl⟩ := runs.successor mem
      have follows := run.dispatchedAs_follows (candidate.source generation) compiled.policy
      refine ⟨_, laterMem, follows.mirrorName, follows.ownerNode, ?_⟩
      unfold RunRow.dispatchedAs
      split <;> exact active

end Ticks

/-! ## The end of a run -/

section Ending

variable {vendor : Vendor} {db after : Database} {run : RunRow} {now : ℤ}

/-- An interval that is re-armed has a due time. -/
theorem rearmDocument_isSome {configToml : String} {document : MirrorDocument} {text : String}
    {nextDue : Option ℤ} (stored : storedDocument vendor configToml = .ok document)
    (interval : document.schedule = some (.interval text))
    (rearmed : rearmDocument vendor now configToml = .ok nextDue) : nextDue.isSome = true := by
  simp only [rearmDocument, stored, bind, Except.bind, interval, rearmInterval] at rearmed
  cases next : (ScheduleConfig.interval text).nextAfterMs vendor.toCalendar now with
  | error reason => simp [next, Functor.map, Except.map] at rearmed
  | ok due =>
      simp only [next, Functor.map, Except.map, pure, Except.pure, Except.ok.injEq] at rearmed
      rw [← rearmed]
      rfl

/-- The mirror of a run, as its end finds it. -/
theorem Database.OwnedNow.current (owned : db.OwnedNow run)
    (timed : db.Timed vendor run.mirrorName) :
    ∃ row generation document text, db.currentGeneration run.mirrorName = some (row, generation) ∧
      row.managed = true ∧ row.enabled = true ∧ row.ownerNode = run.ownerNode ∧
      storedDocument vendor generation.configToml = .ok document ∧
      document.schedule = some (.interval text) := by
  obtain ⟨row, generation, document, text, current, managed, enabled, stored, interval⟩ := timed
  obtain ⟨other, otherMem, otherNamed, owner⟩ := owned
  have ⟨mem, named, _⟩ := Database.currentGeneration_eq_some.mp current
  obtain rfl := Table.eq_of_key_eq otherMem mem (otherNamed.trans named.symm)
  exact ⟨_, _, _, _, current, managed, enabled, owner, stored, interval⟩

/-- The end of a run: its mirror is armed if it is eligible and timed. -/
structure Database.EndsRun (vendor : Vendor) (db : Database) (run : RunRow) (now : ℤ)
    (after : Database) : Prop where
  mirrors : after.mirrors = db.mirrors
  generations : after.generations = db.generations
  others : ∀ other ∈ db.runs, other.id ≠ run.id → other.state.isActive = true →
    after.StillServes other
  arms : ∃ nextDue : Option ℤ,
    (db.Timed vendor run.mirrorName → db.OwnedNow run → nextDue.isSome = true) ∧
      after.schedules = match nextDue with
        | none => db.schedules
        | some due => (db.rearmSchedule run.mirrorName due now).schedules

theorem Database.EndsRun.ticks (ends : db.EndsRun vendor run now after)
    (mem : run ∈ db.runs) : db.Ticks vendor after := by
  obtain ⟨nextDue, armed, schedules⟩ := ends.arms
  cases nextDue with
  | none =>
      refine .of_schedules_eq ends.mirrors ends.generations schedules ?_
      intro other otherMem otherActive owned timed
      by_cases same : other.id = run.id
      · obtain rfl := Table.eq_of_key_eq otherMem mem same
        exact absurd (armed timed owned) (by simp)
      · exact ends.others other otherMem same otherActive
  | some due =>
      refine ⟨ends.mirrors, ends.generations, ?_⟩
      rw [schedules]
      refine Table.rowwise_of_map rfl ?_
      intro schedule _
      split
      · exact ⟨rfl, rfl, fun _ _ => .inl rfl⟩
      next elsewhere =>
        refine ⟨rfl, rfl, fun _ live => live.imp id ?_⟩
        rintro ⟨other, otherMem, named, otherActive, owned⟩
        have different : other.id ≠ run.id := by
          intro same
          obtain rfl := Table.eq_of_key_eq otherMem mem same
          exact elsewhere (decide_eq_true named.symm)
        rw [← named]
        exact (ends.others other otherMem different otherActive).serves ends.mirrors owned

theorem Database.EndsRun.isArmed (ends : db.EndsRun vendor run now after)
    (timed : db.Timed vendor run.mirrorName) (owned : db.OwnedNow run)
    {schedule : ScheduleRow} (mem : schedule ∈ db.schedules)
    (named : schedule.mirrorName = run.mirrorName) : after.IsArmed run.mirrorName := by
  obtain ⟨nextDue, armed, schedules⟩ := ends.arms
  obtain ⟨due, rfl⟩ := Option.isSome_iff_exists.mp (armed timed owned)
  have rearmed : { schedule with
      runtime := {
        nextDueAtMs := some due
        lastEvaluatedAtMs := some now
        catchUpPending := false
        catchUpSinceMs := none } } ∈ after.schedules := by
    rw [schedules]
    exact List.mem_map.mpr ⟨schedule, mem, if_pos (decide_eq_true named)⟩
  exact ⟨_, rearmed, named, rfl⟩

/-- A cancellation that ends its run. -/
theorem Database.Arms.endsRun {schedules : Table ScheduleRow.mirrorName} {runId : String}
    (arms : db.Arms run now (rearmDocument vendor now) schedules) (named : run.id = runId) :
    db.EndsRun vendor run now
      { (db.recordCancellation runId now).cancelUndispatched runId now with schedules } := by
  obtain ⟨nextDue, rearmed, rfl⟩ := arms
  refine ⟨rfl, rfl, ?_, nextDue, ?_, ?_⟩
  · intro other mem different active
    obtain ⟨later, laterMem, rfl⟩ := Database.rowwise_cancelled.successor mem
    refine ⟨_, laterMem, ?_⟩
    rw [if_neg (named ▸ different)]
    exact ⟨rfl, rfl, active⟩
  · intro timed owned
    obtain ⟨row, generation, document, text, current, managed, enabled, owner, stored,
      interval⟩ := owned.current timed
    have source : db.rearmSource run = some generation.configToml := by
      simp [Database.rearmSource, current, managed, enabled, owner]
    rw [source] at rearmed
    exact rearmDocument_isSome stored interval rearmed
  · cases nextDue <;> rfl

theorem Database.Cancels.ticks {runId : String}
    (cancels : db.Cancels runId now (rearmDocument vendor now) after) : db.Ticks vendor after := by
  cases cancels with
  | ended => exact .refl db
  | requested =>
      refine .of_schedules_eq rfl rfl rfl fun run mem active _ _ => ?_
      refine ⟨_, List.mem_map.mpr ⟨run, mem, rfl⟩, ?_⟩
      split <;> exact ⟨rfl, rfl, active⟩
  | undispatched mem named _ _ arms => exact (arms.endsRun named).ticks mem

/-- The run a terminal report decides about, and its mirror. -/
theorem Database.terminalSource_eq_ok {runId : String} {attemptNo : ℕ} {outcome : AttemptState}
    {source : TerminalDecisionSource}
    (sourced : db.terminalSource runId attemptNo outcome = .ok source) :
    ∃ run ∈ db.runs, run.id = runId ∧ source.mirrorName = run.mirrorName ∧
      ∀ row generation, db.currentGeneration run.mirrorName = some (row, generation) →
        source.mirrorEligible = (row.managed && row.enabled) ∧
          source.ownerUnchanged = decide (row.ownerNode = run.ownerNode) ∧
          source.currentConfigToml = generation.configToml := by
  unfold Database.terminalSource at sourced
  split at sourced
  · cases sourced
  next run found =>
    have ⟨mem, named⟩ := Table.find?_eq_some_iff.mp found
    split at sourced
    · cases sourced
    next row generation current =>
      cases sourced
      have ⟨_, rowNamed, _⟩ := Database.currentGeneration_eq_some.mp current
      refine ⟨run, mem, named, rowNamed, ?_⟩
      rintro other stored found
      rw [current, Option.some.injEq, Prod.mk.injEq] at found
      obtain ⟨rfl, rfl⟩ := found
      exact ⟨rfl, rfl, rfl⟩

/-- A report that ends its run. -/
theorem Database.endsRun_of_final {attemptNo : ℕ} {event : AttemptEvent}
    {source : TerminalDecisionSource} {decision : TerminalDecision} {state : RunState}
    {outcome : AttemptState} (sourced : db.terminalSource run.id attemptNo outcome = .ok source)
    (mem : run ∈ db.runs) (decides : decideTerminal vendor source now = .ok decision)
    (final : decision.retry = .final state) :
    db.EndsRun vendor run now
      (db.applyDecision run.id source.mirrorName event event.projection decision now) := by
  obtain ⟨other, otherMem, same, mirrorName, sourceOf⟩ := Database.terminalSource_eq_ok sourced
  obtain rfl := Table.eq_of_key_eq otherMem mem same
  unfold Database.applyDecision
  rw [final]
  have kept : ∀ unrelated ∈ db.runs, unrelated.id ≠ other.id → unrelated ∈
      (db.finishRun other.id state event.projection.runStartedAtMs
        (event.projection.runFinishedAtMs.getD now) event).runs := by
    intro unrelated unrelatedMem different
    exact List.mem_map.mpr ⟨unrelated, unrelatedMem, if_neg (by simp [different])⟩
  have arms : db.Timed vendor other.mirrorName → db.OwnedNow other →
      decision.intervalNextDueAtMs.isSome = true := by
    intro timed owned
    obtain ⟨row, generation, document, text, current, managed, enabled, owner, stored,
      interval⟩ := owned.current timed
    obtain ⟨eligible, unchanged, toml⟩ := sourceOf row generation current
    simp only [decideTerminal, eligible, managed, enabled, unchanged, owner, Bool.and_self,
      decide_true, if_true, toml, bind, Except.bind] at decides
    split at decides
    · cases decides
    next nextDue rearmed =>
      cases decides
      exact rearmDocument_isSome stored interval rearmed
  cases armed : decision.intervalNextDueAtMs with
  | none =>
      refine ⟨rfl, rfl, ?_, none, fun timed owned => armed ▸ arms timed owned, rfl⟩
      intro unrelated unrelatedMem different active
      exact ⟨unrelated, kept unrelated unrelatedMem different, rfl, rfl, active⟩
  | some due =>
      refine ⟨rfl, rfl, ?_, some due, fun _ _ => rfl, by rw [mirrorName]; rfl⟩
      intro unrelated unrelatedMem different active
      exact ⟨unrelated, kept unrelated unrelatedMem different, rfl, rfl, active⟩

theorem Database.Projects.ticks {runId : String} {attemptNo : ℕ} {event : AttemptEvent}
    {retryScheduled : Bool}
    (projects : db.Projects runId attemptNo event now (decideTerminal vendor) retryScheduled
      after) : db.Ticks vendor after := by
  cases projects with
  | nothing => exact .refl db
  | start =>
      refine .of_schedules_eq rfl rfl rfl fun run mem active _ _ => ?_
      refine ⟨_, List.mem_map.mpr ⟨run, mem, rfl⟩, ?_⟩
      split
      · exact ⟨rfl, rfl, rfl⟩
      · exact ⟨rfl, rfl, active⟩
  | @decided _ source decision sourced decides =>
      cases retry : decision.retry with
      | schedule due =>
          unfold Database.applyDecision
          rw [retry]
          refine .of_schedules_eq rfl rfl rfl fun run mem active _ _ => ?_
          refine ⟨_, List.mem_map.mpr ⟨run, mem, rfl⟩, ?_⟩
          split
          · exact ⟨rfl, rfl, rfl⟩
          · exact ⟨rfl, rfl, active⟩
      | final state =>
          obtain ⟨run, mem, rfl, _⟩ := Database.terminalSource_eq_ok sourced
          exact (Database.endsRun_of_final sourced mem decides retry).ticks mem

theorem Database.Applies.ticks {attempt : AttemptRow} {event : AttemptEvent}
    {result : AttemptEventApplyResult}
    (applies : db.Applies attempt event now (decideTerminal vendor) result after) :
    db.Ticks vendor after := by
  cases applies with
  | known => exact .refl db
  | recorded _ _ projects =>
      have recorded : db.Ticks vendor (db.recordEvent attempt.key event) :=
        .of_schedules_eq rfl rfl rfl fun run mem active _ _ => ⟨run, mem, rfl, rfl, active⟩
      exact recorded.trans projects.ticks

end Ending

/-! ## Due intervals -/

/-- The stored document has an interval schedule. -/
def isInterval (vendor : Vendor) (configToml : String) : Bool :=
  match storedDocument vendor configToml with
  | .ok document =>
      match document.schedule with
      | some (.interval _) => true
      | _ => false
  | .error _ => false

theorem isInterval_eq_true {vendor : Vendor} {configToml : String} :
    isInterval vendor configToml = true ↔ ∃ document text,
      storedDocument vendor configToml = .ok document ∧
        document.schedule = some (.interval text) := by
  unfold isInterval
  cases stored : storedDocument vendor configToml with
  | error reason => simp
  | ok document => rcases scheduled : document.schedule with _ | (_ | _) <;> simp [scheduled]

theorem Database.timed_iff {vendor : Vendor} {db : Database} {mirror : String} :
    db.Timed vendor mirror ↔ (db.currentGeneration mirror).any (fun (row, generation) =>
      row.managed && row.enabled && isInterval vendor generation.configToml) = true := by
  simp only [Database.Timed, Option.any_eq_true, Bool.and_eq_true, isInterval_eq_true]
  constructor
  · rintro ⟨row, generation, document, text, current, managed, enabled, interval⟩
    exact ⟨(row, generation), current, ⟨managed, enabled⟩, document, text, interval⟩
  · rintro ⟨⟨row, generation⟩, current, ⟨managed, enabled⟩, document, text, interval⟩
    exact ⟨row, generation, document, text, current, managed, enabled, interval⟩

/-- An interval fires under an active run only if the run belongs to the current owner. -/
def duesOwned {vendor : Vendor} (db : Database) : StoreOp vendor → Prop
  | .evaluateDueSchedules now =>
      ∀ source ∈ db.tickSources now, isInterval vendor source.configToml = true →
        ∀ run ∈ db.runs.rows, run.mirrorName = source.mirrorName → run.state.isActive = true →
          ∀ row ∈ db.mirrors.rows, row.name = source.mirrorName → row.ownerNode = run.ownerNode
  | _ => True

instance {vendor : Vendor} (db : Database) (operation : StoreOp vendor) :
    Decidable (duesOwned db operation) :=
  match operation with
  | .evaluateDueSchedules now =>
      inferInstanceAs (Decidable (∀ source ∈ db.tickSources now,
        isInterval vendor source.configToml = true → ∀ run ∈ db.runs.rows,
          run.mirrorName = source.mirrorName → run.state.isActive = true →
            ∀ row ∈ db.mirrors.rows, row.name = source.mirrorName →
              row.ownerNode = run.ownerNode))
  | .apply .. | .createManualRun .. | .pollAction .. | .requestCancellation .. | .applyEvent ..
  | .observeNode .. | .registerNode .. | .replaceAgentBinding .. =>
      .isTrue trivial

section Due

variable {vendor : Vendor} {db after : Database} {now : ℤ}

theorem Database.mem_tickSources {source : ScheduleTickSource}
    (mem : source ∈ db.tickSources now) :
    ∃ schedule ∈ db.schedules, ∃ row generation due,
      db.currentGeneration schedule.mirrorName = some (row, generation) ∧
        schedule.runtime.nextDueAtMs = some due ∧ due ≤ now ∧
        source = {
          mirrorName := schedule.mirrorName
          configToml := generation.configToml
          runtime := schedule.runtime
          hasActiveRun := db.hasActiveRun schedule.mirrorName } := by
  rw [Database.tickSources, List.mem_insertionSort, List.mem_filterMap] at mem
  obtain ⟨schedule, scheduleMem, ticks⟩ := mem
  simp only [Database.tickSource?, Option.bind_eq_bind, Option.bind_eq_some_iff] at ticks
  obtain ⟨⟨row, generation⟩, current, due, isDue, ticks⟩ := ticks
  simp only at ticks
  split at ticks
  next eligible =>
    have ⟨_, named, _⟩ := Database.currentGeneration_eq_some.mp current
    simp only [Bool.and_eq_true, decide_eq_true_eq] at eligible
    cases ticks
    exact ⟨schedule, scheduleMem, row, generation, due, current, isDue, eligible.2, by rw [named]⟩
  next => cases ticks

/-- The update loop, row by row: a row with a source is evaluated, any other is kept. -/
theorem Database.evaluateSources_exact
    {evaluate : ScheduleTickSource → Except StoreError ScheduleRuntime}
    {sources : List ScheduleTickSource}
    (evaluated : db.evaluateSources evaluate sources = .ok after) :
    after = { db with schedules := after.schedules } ∧
      Table.Rowwise (fun old new =>
        (∀ source ∈ sources, source.mirrorName ≠ old.mirrorName) ∧ new = old ∨
        ∃ source ∈ sources, source.mirrorName = old.mirrorName ∧
          ∃ runtime, evaluate source = .ok runtime ∧ new = { old with runtime })
        db.schedules after.schedules := by
  induction sources generalizing db with
  | nil =>
      cases evaluated
      refine ⟨rfl, .refl ?_ _⟩
      intro schedule
      exact .inl ⟨by simp, rfl⟩
  | cons source rest ih =>
      simp only [Database.evaluateSources, bind, Except.bind] at evaluated
      split at evaluated
      · cases evaluated
      next runtime computed =>
        rcases ih evaluated with ⟨framed, rowwise⟩
        refine ⟨framed, ?_⟩
        have first : Table.Rowwise (fun old new =>
            source.mirrorName ≠ old.mirrorName ∧ new = old ∨
              source.mirrorName = old.mirrorName ∧ new = { old with runtime }) db.schedules
            (db.schedules.update (fun row => row.mirrorName = source.mirrorName)
              (fun row => { row with runtime })) := by
          apply Table.rowwise_of_map rfl
          intro schedule _
          split
          next matched => exact .inr ⟨(of_decide_eq_true matched).symm, rfl⟩
          next unmatched => exact .inl ⟨fun same => by simp [same] at unmatched, rfl⟩
        apply (first.comp rowwise).imp
        rintro old new ⟨middle, ⟨foreign, rfl⟩ | ⟨named, rfl⟩, ⟨absent, rfl⟩ |
          ⟨other, mem, otherNamed, found⟩⟩
        · left
          refine ⟨?_, rfl⟩
          intro candidate candidateMem
          rcases List.mem_cons.mp candidateMem with rfl | later
          · exact foreign
          · exact absent candidate later
        · exact .inr ⟨other, List.mem_cons_of_mem _ mem, otherNamed, found⟩
        · exact .inr ⟨source, List.mem_cons_self, named, runtime, computed, rfl⟩
        · rcases found with ⟨result, otherComputed, rfl⟩
          exact .inr ⟨other, List.mem_cons_of_mem _ mem, otherNamed, result, otherComputed, rfl⟩

/-- An interval that fires sets its marker, or leaves the re-arming to the active run. -/
theorem evaluateSource_interval {source : ScheduleTickSource} {document : MirrorDocument}
    {text : String} {due : ℤ} {runtime : ScheduleRuntime}
    (stored : storedDocument vendor source.configToml = .ok document)
    (interval : document.schedule = some (.interval text))
    (isDue : source.runtime.nextDueAtMs = some due) (past : due ≤ now)
    (evaluated : evaluateSource vendor now source = .ok runtime) :
    runtime.catchUpPending = !source.hasActiveRun := by
  have reached : ¬now < due := Int.not_lt.mpr past
  simp only [evaluateSource, stored, bind, Except.bind, interval, evaluateScheduleDue, isDue,
    reached, if_false, pure, Except.pure] at evaluated
  cases evaluated
  cases source.hasActiveRun <;> rfl

theorem Database.evaluateDueSchedules_ticks {count : ℕ}
    (owned : duesOwned db (.evaluateDueSchedules now : StoreOp vendor))
    (evaluated : db.evaluateDueSchedules now (evaluateSource vendor now) = .ok (count, after)) :
    db.Ticks vendor after := by
  simp only [Database.evaluateDueSchedules, bind, Except.bind] at evaluated
  split at evaluated
  · cases evaluated
  next computed looped =>
    cases evaluated
    obtain ⟨framed, rowwise⟩ := Database.evaluateSources_exact looped
    rw [framed]
    refine ⟨rfl, rfl, rowwise.imp ?_⟩
    rintro old new (⟨_, rfl⟩ | ⟨source, mem, named, runtime, evaluates, rfl⟩)
    · exact ⟨rfl, rfl, fun _ live => live⟩
    refine ⟨rfl, rfl, fun timed _ => ?_⟩
    obtain ⟨row, generation, document, text, current, _, _, stored, interval⟩ := timed
    have ⟨rowMem, rowNamed, _⟩ := Database.currentGeneration_eq_some.mp current
    have active := owned source mem
    obtain ⟨schedule, _, otherRow, otherGeneration, due, otherCurrent, isDue, past, rfl⟩ :=
      Database.mem_tickSources mem
    simp only at named
    rw [named, current, Option.some.injEq, Prod.mk.injEq] at otherCurrent
    obtain ⟨rfl, rfl⟩ := otherCurrent
    have marked := evaluateSource_interval stored interval isDue past evaluates
    cases busy : db.hasActiveRun schedule.mirrorName with
    | false =>
        left
        simp only [busy, Bool.not_false] at marked
        simp [ScheduleRow.isPending, marked]
    | true =>
        right
        obtain ⟨run, runMem, runNamed, isActive⟩ := Database.hasActiveRun_eq_true.mp busy
        have configured : isInterval vendor generation.configToml = true :=
          isInterval_eq_true.mpr ⟨document, text, stored, interval⟩
        refine ⟨run, runMem, runNamed.trans named, isActive, row, rowMem, ?_, ?_⟩
        · rw [rowNamed, runNamed, named]
        · exact active configured run runMem runNamed isActive row rowMem (rowNamed.trans named.symm)

end Due

/-! ## Applying a bundle -/

/-- The schedule row of one mirror fits its current document and is alive. -/
structure Database.ClockedAt (vendor : Vendor) (db : Database) (mirror : String) : Prop where
  row : ∀ row generation document, db.currentGeneration mirror = some (row, generation) →
    row.managed = true → row.enabled = true →
      storedDocument vendor generation.configToml = .ok document →
        match document.schedule with
        | some config => ∃ schedule ∈ db.schedules, schedule.mirrorName = mirror ∧
            schedule.scheduleHash = some (vendor.scheduleHash config)
        | none => ∀ schedule ∈ db.schedules, schedule.mirrorName ≠ mirror
  live : ∀ schedule ∈ db.schedules, schedule.mirrorName = mirror → db.Timed vendor mirror →
    db.Live schedule

/-- What every transaction keeps; `configs` are the schedules applied in the run. -/
structure Database.Clocked (vendor : Vendor) (configs : Set ScheduleConfig) (db : Database) :
    Prop where
  documents : ∀ generation ∈ db.generations, ∃ document,
    storedDocument vendor generation.configToml = .ok document ∧
      ∀ config, document.schedule = some config → config ∈ configs
  clocked : ∀ mirror, db.ClockedAt vendor mirror

/-- The transactions whose bundles have the given schedules. -/
def appliesSchedules {vendor : Vendor} (configs : Set ScheduleConfig) : StoreOp vendor → Prop
  | .apply bundle _ _ => ∀ entry ∈ bundle.mirrors, ∀ config,
      entry.2.document.schedule = some config → config ∈ configs
  | _ => True

/-- Nothing that concerns the mirror has changed. -/
structure Database.SameFor (before after : Database) (mirror : String) : Prop where
  current : after.currentGeneration mirror = before.currentGeneration mirror
  row : ∀ row ∈ before.mirrors, row.name = mirror → row ∈ after.mirrors
  schedules : ∀ schedule : ScheduleRow, schedule.mirrorName = mirror →
    (schedule ∈ after.schedules ↔ schedule ∈ before.schedules)
  runs : ∀ run ∈ before.runs, run.mirrorName = mirror → run ∈ after.runs

section Apply

variable {vendor : Vendor} {db after : Database} {mirror : String} {now : ℤ}

theorem Database.ClockedAt.same (clocked : db.ClockedAt vendor mirror)
    (same : db.SameFor after mirror) : after.ClockedAt vendor mirror := by
  refine ⟨?_, ?_⟩
  · intro row generation document current managed enabled stored
    rw [same.current] at current
    have before := clocked.row row generation document current managed enabled stored
    split at before
    next config scheduled =>
      obtain ⟨schedule, mem, named, hashed⟩ := before
      exact ⟨schedule, (same.schedules schedule named).mpr mem, named, hashed⟩
    next unscheduled =>
      intro schedule mem named
      exact before schedule ((same.schedules schedule named).mp mem) named
  · intro schedule mem named timed
    have timedBefore : db.Timed vendor mirror := by
      obtain ⟨row, generation, document, text, current, rest⟩ := timed
      exact ⟨row, generation, document, text, same.current ▸ current, rest⟩
    refine (clocked.live schedule ((same.schedules schedule named).mp mem) named timedBefore).imp
      id ?_
    rintro ⟨run, runMem, runNamed, active, row, rowMem, rowNamed, owner⟩
    have isMirror := runNamed.trans named
    exact ⟨run, same.runs run runMem isMirror, runNamed, active, row,
      same.row row rowMem (rowNamed.trans isMirror), rowNamed, owner⟩

/-- What became of the runs of other mirrors: nothing. -/
theorem mem_cancelUndispatchedPending {run : RunRow} {other : String} (mem : run ∈ db.runs)
    (elsewhere : run.mirrorName ≠ other) : run ∈ (cancelUndispatchedPending db other now).runs :=
  List.mem_map.mpr ⟨run, mem, if_neg (by simp [elsewhere])⟩

theorem mem_finalizeIneligibleRetries {run : RunRow} {other : String} (mem : run ∈ db.runs)
    (elsewhere : run.mirrorName ≠ other) : run ∈ (finalizeIneligibleRetries db other now).runs :=
  List.mem_map.mpr ⟨run, mem, if_neg (by simp [elsewhere])⟩

theorem mem_settleRuns {run : RunRow} {change : ConfigChange} {enabled : Bool}
    (mem : run ∈ db.runs) (elsewhere : run.mirrorName ≠ change.mirror) :
    run ∈ (settleRuns db change enabled now).runs := by
  unfold settleRuns
  split
  · exact mem_finalizeIneligibleRetries (mem_cancelUndispatchedPending mem elsewhere) elsewhere
  · split
    · exact mem_finalizeIneligibleRetries mem elsewhere
    · exact mem

theorem settleRuns_schedules (change : ConfigChange) (enabled : Bool) :
    (settleRuns db change enabled now).schedules = db.schedules := by
  unfold settleRuns
  split
  · rfl
  · split <;> rfl

theorem Database.mem_delete_schedule {schedule : ScheduleRow} {other : String} :
    schedule ∈ db.schedules.delete (fun row => row.mirrorName = other) ↔
      schedule ∈ db.schedules ∧ schedule.mirrorName ≠ other := by
  simp [Table.mem_def, Table.delete]

/-- The three outcomes of `reconcile_schedule`. -/
inductive ReconcilesSchedule (vendor : Vendor) (db : Database) (change : ConfigChange)
    (document : MirrorDocument) (ownerNode : String) (previous : Option MirrorRow) :
    Database → Prop where
  | dropped (unscheduled : document.mirror.enabled = true → document.schedule = none) :
      ReconcilesSchedule vendor db change document ownerNode previous
        { db with schedules := db.schedules.delete fun row => row.mirrorName = change.mirror }
  | reset {config : ScheduleConfig} {schedule : ScheduleRow}
      (scheduled : document.schedule = some config) (named : schedule.mirrorName = change.mirror)
      (hashed : schedule.scheduleHash = some (vendor.scheduleHash config))
      (pending : schedule.isPending = true) (enabled : document.mirror.enabled = true)
      (unmarked : schedule.runtime.catchUpPending = false ∧
        schedule.runtime.catchUpSinceMs = none)
      (resets : resetsSchedule change ownerNode previous
        ((db.schedules.find? change.mirror).bind (·.scheduleHash))
        (vendor.scheduleHash config) = true) :
      ReconcilesSchedule vendor db change document ownerNode previous
        { db with schedules := db.schedules.put schedule }
  | kept {config : ScheduleConfig} {row : MirrorRow} {schedule : ScheduleRow}
      (scheduled : document.schedule = some config) (enabled : document.mirror.enabled = true)
      (kind : change.kind ≠ .move) (found : previous = some row) (managed : row.managed = true)
      (wasEnabled : row.enabled = true) (owner : row.ownerNode = ownerNode)
      (mem : schedule ∈ db.schedules) (named : schedule.mirrorName = change.mirror)
      (hashed : schedule.scheduleHash = some (vendor.scheduleHash config)) :
      ReconcilesSchedule vendor db change document ownerNode previous db

theorem reconcileSchedule_reconciles {change : ConfigChange} {document : MirrorDocument}
    {ownerNode : String} {previous : Option MirrorRow}
    (reconciled : reconcileSchedule vendor db change document ownerNode previous now = .ok after) :
    ReconcilesSchedule vendor db change document ownerNode previous after := by
  unfold reconcileSchedule at reconciled
  split at reconciled
  next filtered =>
    cases reconciled
    refine .dropped fun enabled => ?_
    rw [Option.eq_none_iff_forall_ne_some]
    simpa [enabled] using filtered
  next config filtered =>
    simp only [Option.filter_eq_some_iff] at filtered
    simp only at reconciled
    split at reconciled
    next resets =>
      split at reconciled
      · cases reconciled
      next runtime activated =>
        cases reconciled
        refine .reset filtered.1 rfl rfl ?_ filtered.2 ⟨rfl, rfl⟩ resets
        simp only [activateSchedule, bind, Except.bind] at activated
        split at activated
        · cases activated
        · cases activated
          rfl
    next keeps =>
      cases reconciled
      simp only [resetsSchedule, Bool.or_eq_true, not_or, Bool.not_eq_true,
        decide_eq_false_iff_not, ne_eq, not_not] at keeps
      obtain ⟨⟨kind, unchanged⟩, hashed⟩ := keeps
      cases previous with
      | none => cases unchanged
      | some row =>
          simp only [Bool.or_eq_false_iff, Bool.not_eq_false', decide_eq_false_iff_not,
            not_not] at unchanged
          obtain ⟨schedule, found, hash⟩ := Option.bind_eq_some_iff.mp hashed
          obtain ⟨mem, named⟩ := Table.find?_eq_some_iff.mp found
          exact .kept filtered.1 filtered.2 kind.2 rfl unchanged.1.1 unchanged.1.2 unchanged.2
            mem named hash

/-- What `apply` leaves of the schedules of other mirrors. -/
theorem ReconcilesSchedule.elsewhere {change : ConfigChange} {document : MirrorDocument}
    {ownerNode : String} {previous : Option MirrorRow}
    (reconciles : ReconcilesSchedule vendor db change document ownerNode previous after)
    {schedule : ScheduleRow} (other : schedule.mirrorName ≠ change.mirror) :
    schedule ∈ after.schedules ↔ schedule ∈ db.schedules := by
  cases reconciles with
  | dropped => simp [Database.mem_delete_schedule, other]
  | @reset config stored scheduled named =>
      rw [Table.mem_put]
      have different : schedule ≠ stored := by
        rintro rfl
        exact other named
      simp [different, named, other]
  | kept => exact Iff.rfl

theorem ReconcilesSchedule.frame {change : ConfigChange} {document : MirrorDocument} {ownerNode : String}
    {previous : Option MirrorRow}
    (reconciles : ReconcilesSchedule vendor db change document ownerNode previous after) :
    after = { db with schedules := after.schedules } := by
  cases reconciles <;> rfl

section Upsert

variable {bundle : CanonicalBundle vendor} {change : ConfigChange} {entry : CanonicalMirror}
  {number revision : ℕ}

/-- The row that `apply` stores for a mirror of the bundle. -/
def upsertedRow (change : ConfigChange) (entry : CanonicalMirror) (number : ℕ) : MirrorRow where
  name := change.mirror
  managed := true
  enabled := entry.document.mirror.enabled
  ownerNode := entry.ownerNode.value
  currentGeneration := number
  removedAtMs := none

/-- What the `Create | Update | Move` arm did. -/
structure Upserts (vendor : Vendor) (db : Database) (change : ConfigChange)
    (entry : CanonicalMirror) (number : ℕ) (now : ℤ) (after : Database) : Prop where
  mirrors : after.mirrors = db.mirrors.put (upsertedRow change entry number)
  generations : ∃ stored : GenerationRow, stored.key = (change.mirror, number) ∧
    stored.configToml = entry.canonicalToml ∧
      ∀ other, other ∈ after.generations ↔ other ∈ db.generations ∨ other = stored
  runs : after.runs = (settleRuns { db with mirrors := after.mirrors } change
    entry.document.mirror.enabled now).runs
  schedules : ∃ middle : Database, middle.schedules = db.schedules ∧
    ReconcilesSchedule vendor middle change entry.document entry.ownerNode.value
      (db.mirrors.find? change.mirror) after
  attempts : after.attempts = (settleRuns { db with mirrors := after.mirrors } change
    entry.document.mirror.enabled now).attempts

theorem applyUpsert_upserts
    (upserted : applyUpsert vendor db change entry number revision now = .ok after) :
    Upserts vendor db change entry number now after := by
  have ⟨mirrors, members⟩ := applyUpsert_configuration upserted
  unfold applyUpsert at upserted
  simp only at upserted
  split at upserted
  · cases upserted
  next generations inserted =>
    have reconciles := reconcileSchedule_reconciles upserted
    refine ⟨mirrors, ⟨_, rfl, rfl, members⟩, ?_, ⟨_, ?_, reconciles⟩, ?_⟩
    · rw [mirrors, reconciles.frame]
    · exact settleRuns_schedules change _
    · rw [mirrors, reconciles.frame]

theorem Upserts.sameFor (upserts : Upserts vendor db change entry number now after)
    {other : String} (different : other ≠ change.mirror) : db.SameFor after other := by
  obtain ⟨stored, key, _, members⟩ := upserts.generations
  have rows : ∀ row : MirrorRow, row.name = other →
      (row ∈ after.mirrors ↔ row ∈ db.mirrors) := by
    intro row named
    rw [upserts.mirrors, Table.mem_put]
    have notStored : row ≠ upsertedRow change entry number := by
      rintro rfl
      exact different named.symm
    simp only [notStored, or_false, and_iff_left_iff_imp]
    intro _ same
    exact different (named.symm.trans same)
  have generations : ∀ generation : GenerationRow, generation.mirrorName = other →
      (generation ∈ after.generations ↔ generation ∈ db.generations) := by
    intro generation named
    rw [members]
    have notStored : generation ≠ stored := by
      rintro rfl
      exact different (named.symm.trans (congrArg Prod.fst key))
    simp [notStored]
  refine ⟨?_, ?_, ?_, ?_⟩
  · ext ⟨row, generation⟩
    simp only [Database.currentGeneration_eq_some]
    constructor
    · rintro ⟨rowMem, named, generationMem, mirrorKey, number⟩
      exact ⟨(rows row named).mp rowMem, named, (generations generation mirrorKey).mp generationMem,
        mirrorKey, number⟩
    · rintro ⟨rowMem, named, generationMem, mirrorKey, number⟩
      exact ⟨(rows row named).mpr rowMem, named,
        (generations generation mirrorKey).mpr generationMem, mirrorKey, number⟩
  · exact fun row mem named => (rows row named).mpr mem
  · intro schedule named
    obtain ⟨middle, same, reconciles⟩ := upserts.schedules
    rw [reconciles.elsewhere (named ▸ different), same]
  · intro run mem named
    rw [upserts.runs]
    exact mem_settleRuns mem (named ▸ different)

/-- The current generation of the mirror is the one that was stored. -/
theorem Upserts.current (upserts : Upserts vendor db change entry number now after)
    {row : MirrorRow} {generation : GenerationRow}
    (current : after.currentGeneration change.mirror = some (row, generation)) :
    row = upsertedRow change entry number ∧ generation.configToml = entry.canonicalToml := by
  obtain ⟨stored, key, toml, members⟩ := upserts.generations
  obtain ⟨rowMem, named, generationMem, mirrorKey, numbered⟩ :=
    Database.currentGeneration_eq_some.mp current
  have same : row = upsertedRow change entry number := by
    apply Table.eq_of_key_eq rowMem _ named
    rw [upserts.mirrors]
    exact Table.mem_put.mpr (.inr rfl)
  refine ⟨same, ?_⟩
  have storedMem : stored ∈ after.generations := (members stored).mpr (.inr rfl)
  rw [Table.eq_of_key_eq generationMem storedMem ?_, toml]
  rw [key]
  exact Prod.ext mirrorKey (numbered.trans (by rw [same]; rfl))

/-- A schedule that is kept was alive for the same interval and the same owner. -/
theorem Upserts.live_kept {configs : Set ScheduleConfig}
    (upserts : Upserts vendor db change entry number now after) (sound : db.Sound)
    (clocked : db.Clocked vendor configs) (distinct : Set.InjOn vendor.scheduleHash configs)
    {config : ScheduleConfig} {row : MirrorRow} {schedule : ScheduleRow} {text : String}
    (allowed : config ∈ configs) (interval : config = .interval text)
    (enabled : entry.document.mirror.enabled = true) (kind : change.kind ≠ .move)
    (found : db.mirrors.find? change.mirror = some row) (managed : row.managed = true)
    (wasEnabled : row.enabled = true) (owner : row.ownerNode = entry.ownerNode.value)
    (mem : schedule ∈ db.schedules) (named : schedule.mirrorName = change.mirror)
    (hashed : schedule.scheduleHash = some (vendor.scheduleHash config)) :
    after.Live schedule := by
  have ⟨rowMem, rowNamed⟩ := Table.find?_eq_some_iff.mp found
  obtain ⟨generation, generationMem, key, _⟩ := sound.mirrorGeneration row rowMem
  obtain ⟨document, stored, listed⟩ := clocked.documents generation generationMem
  have current : db.currentGeneration change.mirror = some (row, generation) := by
    obtain ⟨mirrorKey, numbered⟩ := Prod.mk.inj key
    exact Database.currentGeneration_eq_some.mpr
      ⟨rowMem, rowNamed, generationMem, mirrorKey.trans rowNamed, numbered⟩
  have before := (clocked.clocked change.mirror).row row generation document current managed
    wasEnabled stored
  -- the document before had the same schedule, since it had the same hash
  have scheduled : document.schedule = some (.interval text) := by
    split at before
    next former isFormer =>
      obtain ⟨other, otherMem, otherNamed, otherHashed⟩ := before
      obtain rfl := Table.eq_of_key_eq otherMem mem (otherNamed.trans named.symm)
      rw [otherHashed, Option.some.injEq] at hashed
      rw [isFormer, distinct (listed former isFormer) allowed hashed, interval]
    next => exact absurd named (before schedule mem)
  have timed : db.Timed vendor change.mirror :=
    ⟨row, generation, document, text, current, managed, wasEnabled, stored, scheduled⟩
  refine ((clocked.clocked change.mirror).live schedule mem named timed).imp id ?_
  rintro ⟨run, runMem, runNamed, active, other, otherMem, otherNamed, owned⟩
  obtain rfl := Table.eq_of_key_eq otherMem rowMem
    (otherNamed.trans (runNamed.trans (named.trans rowNamed.symm)))
  refine ⟨run, ?_, runNamed, active, upsertedRow change entry number, ?_, ?_, ?_⟩
  · rw [upserts.runs, settleRuns, if_neg (by simp [enabled]), if_neg kind]
    exact runMem
  · rw [upserts.mirrors]
    exact Table.mem_put.mpr (.inr rfl)
  · exact (runNamed.trans named).symm
  · exact owner.symm.trans owned

theorem Upserts.clockedAt {configs : Set ScheduleConfig}
    (upserts : Upserts vendor db change entry number now after) (sound : db.Sound)
    (clocked : db.Clocked vendor configs) (distinct : Set.InjOn vendor.scheduleHash configs)
    (listed : ∀ config, entry.document.schedule = some config → config ∈ configs)
    (parses : vendor.parseDocument entry.canonicalToml = .ok entry.document) :
    after.ClockedAt vendor change.mirror := by
  have stored : ∀ {row generation document},
      after.currentGeneration change.mirror = some (row, generation) →
        storedDocument vendor generation.configToml = .ok document →
          row = upsertedRow change entry number ∧ document = entry.document := by
    intro row generation document current stored
    have ⟨same, toml⟩ := upserts.current current
    rw [toml, storedDocument, parses, Except.ok.injEq] at stored
    exact ⟨same, stored.symm⟩
  obtain ⟨middle, sameSchedules, reconciles⟩ := upserts.schedules
  refine ⟨?_, ?_⟩
  · intro row generation document current managed enabled isStored
    obtain ⟨rfl, rfl⟩ := stored current isStored
    cases reconciles with
    | dropped unscheduled =>
        rw [unscheduled enabled]
        exact fun schedule mem => (Database.mem_delete_schedule.mp mem).2
    | reset scheduled named hashed =>
        rw [scheduled]
        exact ⟨_, Table.mem_put.mpr (.inr rfl), named, hashed⟩
    | kept scheduled _ _ _ _ _ _ mem named hashed =>
        rw [scheduled]
        exact ⟨_, mem, named, hashed⟩
  · intro schedule mem named timed
    obtain ⟨row, generation, document, text, current, _, _, isStored, interval⟩ := timed
    obtain ⟨rfl, rfl⟩ := stored current isStored
    cases reconciles with
    | dropped => exact absurd named (Database.mem_delete_schedule.mp mem).2
    | @reset _ reset _ resetNamed _ pending =>
        have same : schedule = reset := by
          rcases Table.mem_put.mp mem with ⟨_, different⟩ | same
          · exact absurd (named.trans resetNamed.symm) different
          · exact same
        exact .inl (same ▸ pending)
    | @kept config former kept scheduled enabled kind found managed wasEnabled owner keptMem
        keptNamed hashed =>
        rw [scheduled, Option.some.injEq] at interval
        obtain rfl := Table.eq_of_key_eq mem keptMem (named.trans keptNamed.symm)
        rw [sameSchedules] at keptMem
        exact upserts.live_kept sound clocked distinct (listed config scheduled) interval enabled
          kind found managed wasEnabled owner keptMem keptNamed hashed

end Upsert

section Remove

variable {removed : String}

theorem mem_applyRemove_mirrors {row : MirrorRow}
    (mem : row ∈ (applyRemove db removed now).mirrors) :
    row.name = removed ∧ row.managed = false ∨ row.name ≠ removed ∧ row ∈ db.mirrors := by
  obtain ⟨old, oldMem, rfl⟩ := Table.mem_of_map rfl mem
  split
  next matched => exact .inl ⟨of_decide_eq_true matched, rfl⟩
  next other => exact .inr ⟨of_decide_eq_false (by simpa using other), oldMem⟩

theorem applyRemove_sameFor {other : String} (different : other ≠ removed) :
    db.SameFor (applyRemove db removed now) other := by
  have kept : ∀ row ∈ db.mirrors, row.name = other → row ∈ (applyRemove db removed now).mirrors := by
    intro row mem named
    refine List.mem_map.mpr ⟨row, mem, if_neg ?_⟩
    simp [named, different]
  refine ⟨?_, kept, ?_, ?_⟩
  · ext ⟨row, generation⟩
    simp only [Database.currentGeneration_eq_some]
    constructor
    · rintro ⟨rowMem, named, stored⟩
      rcases mem_applyRemove_mirrors rowMem with ⟨same, _⟩ | ⟨_, oldMem⟩
      · exact absurd (named.symm.trans same) different
      · exact ⟨oldMem, named, stored⟩
    · rintro ⟨rowMem, named, stored⟩
      exact ⟨kept row rowMem named, named, stored⟩
  · intro schedule named
    have elsewhere : schedule.mirrorName ≠ removed := named ▸ different
    exact Database.mem_delete_schedule.trans (and_iff_left elsewhere)
  · intro run mem named
    have elsewhere : run.mirrorName ≠ removed := named ▸ different
    exact mem_finalizeIneligibleRetries (mem_cancelUndispatchedPending mem elsewhere) elsewhere

theorem applyRemove_clockedAt : (applyRemove db removed now).ClockedAt vendor removed := by
  have unmanaged : ∀ {row generation},
      (applyRemove db removed now).currentGeneration removed = some (row, generation) →
        row.managed = false := by
    intro row generation current
    have ⟨mem, named, _⟩ := Database.currentGeneration_eq_some.mp current
    rcases mem_applyRemove_mirrors mem with ⟨_, removedRow⟩ | ⟨different, _⟩
    · exact removedRow
    · exact absurd named different
  refine ⟨?_, ?_⟩
  · intro row generation document current managed
    simp [unmanaged current] at managed
  · rintro schedule mem named ⟨row, generation, document, text, current, managed, _⟩
    simp [unmanaged current] at managed

end Remove

section Changes

variable {configs : Set ScheduleConfig} {bundle : CanonicalBundle vendor} {revision : ℕ}

theorem Database.Clocked.change {change : ConfigChange} (clocked : db.Clocked vendor configs)
    (sound : db.Sound) (distinct : Set.InjOn vendor.scheduleHash configs)
    (listed : ∀ entry ∈ bundle.mirrors, ∀ config, entry.2.document.schedule = some config →
      config ∈ configs)
    (applied : applyChange bundle revision now db change = .ok after) :
    after.Clocked vendor configs := by
  rcases applyChange_eq_ok applied with
    ⟨_, rfl⟩ | ⟨_, entry, number, present, _, upserted⟩
  · refine ⟨clocked.documents, fun mirror => ?_⟩
    by_cases own : mirror = change.mirror
    · rw [own]
      exact applyRemove_clockedAt
    · exact (clocked.clocked mirror).same (applyRemove_sameFor own)
  · rcases CanonicalBundle.get?_eq_some present with ⟨name, _, entryMem⟩
    have upserts := applyUpsert_upserts upserted
    refine ⟨?_, fun mirror => ?_⟩
    · rcases upserts.generations with ⟨stored, _, toml, members⟩
      intro generation mem
      rcases (members generation).mp mem with oldMem | rfl
      · exact clocked.documents generation oldMem
      · refine ⟨entry.document, ?_, listed _ entryMem⟩
        rw [storedDocument, toml, bundle.parses _ entryMem]
    · by_cases own : mirror = change.mirror
      · rw [own]
        exact upserts.clockedAt sound clocked distinct (listed _ entryMem)
          (bundle.parses _ entryMem)
      · exact (clocked.clocked mirror).same (upserts.sameFor own)

theorem Database.Clocked.changes {pending : List ConfigChange}
    (clocked : db.Clocked vendor configs) (sound : db.Sound)
    (distinct : Set.InjOn vendor.scheduleHash configs)
    (listed : ∀ entry ∈ bundle.mirrors, ∀ config, entry.2.document.schedule = some config →
      config ∈ configs)
    (applied : pending.foldlM (applyChange bundle revision now) db = .ok after) :
    after.Clocked vendor configs := by
  induction pending generalizing db with
  | nil =>
      cases applied
      exact clocked
  | cons change rest ih =>
      rw [List.foldlM_cons] at applied
      cases first : applyChange bundle revision now db change with
      | error reason => rw [first] at applied; cases applied
      | ok middle =>
          rw [first] at applied
          have steps := @applyChange_steps vendor bundle [change] _ _ _ _ _
            (List.mem_singleton.mpr rfl) first
          exact ih (clocked.change sound distinct listed first) (sound.configSteps steps) applied

end Changes

end Apply

section Alive

variable {vendor : Vendor} {db after : Database} {configs : Set ScheduleConfig}

theorem Database.Clocked.tick (clocked : db.Clocked vendor configs) (ticks : db.Ticks vendor after) :
    after.Clocked vendor configs := by
  have current : ∀ mirror, after.currentGeneration mirror = db.currentGeneration mirror := by
    intro mirror
    rw [Database.currentGeneration, ticks.mirrors, ticks.generations]
    rfl
  refine ⟨?_, fun mirror => ⟨?_, ?_⟩⟩
  · rw [ticks.generations]
    exact clocked.documents
  · intro row generation document isCurrent managed enabled stored
    rw [current] at isCurrent
    have before := (clocked.clocked mirror).row row generation document isCurrent managed enabled
      stored
    split at before
    next config scheduled =>
      obtain ⟨schedule, mem, named, hashed⟩ := before
      obtain ⟨later, laterMem, sameName, sameHash, _⟩ := ticks.schedules.successor mem
      exact ⟨later, laterMem, sameName.trans named, sameHash.trans hashed⟩
    next unscheduled =>
      intro schedule mem named
      obtain ⟨old, oldMem, sameName, _⟩ := ticks.schedules.origin mem
      exact before old oldMem (sameName.symm.trans named)
  · intro schedule mem named timed
    obtain ⟨old, oldMem, sameName, _, kept⟩ := ticks.schedules.origin mem
    have oldNamed := sameName.symm.trans named
    have timedBefore := timed.congr ticks.mirrors.symm ticks.generations.symm
    refine kept (oldNamed.symm ▸ timedBefore) ?_
    exact (clocked.clocked mirror).live old oldMem oldNamed timedBefore

theorem Database.Clocked.bookkeeping (clocked : db.Clocked vendor configs)
    (nodes : Table NodeRow.name) : { db with nodes }.Clocked vendor configs :=
  clocked.tick (.of_schedules_eq rfl rfl rfl fun run mem active _ _ =>
    ⟨run, mem, rfl, rfl, active⟩)

theorem Database.Clocked.step (clocked : db.Clocked vendor configs) (sound : db.Sound)
    (distinct : Set.InjOn vendor.scheduleHash configs) (operation : StoreOp vendor)
    (listed : appliesSchedules configs operation) (owned : duesOwned db operation) :
    (operation.run db).Clocked vendor configs := by
  cases operation with
  | apply bundle baseRevision now =>
      refine committed_of_ok clocked fun plan after applied => ?_
      obtain ⟨plan, _, _, _, folded⟩ := Database.apply_eq_ok applied
      have revised : { db with revision := db.revision + 1 }.Clocked vendor configs :=
        clocked.tick (.of_schedules_eq rfl rfl rfl fun run mem active _ _ =>
          ⟨run, mem, rfl, rfl, active⟩)
      exact revised.changes (sound.bookkeeping rfl rfl rfl rfl) distinct listed folded
  | createManualRun mirror requestId now newRunId =>
      refine committed_of_ok clocked fun run after created => ?_
      rcases Database.createManualRun_eq_ok created with rfl | creates
      · exact clocked
      · exact clocked.tick creates.inserts.ticks
  | pollAction node agent now newRunId =>
      refine committed_of_ok clocked fun action after polled => ?_
      exact clocked.tick (Database.pollAction_eq_ok polled).ticks
  | requestCancellation runId now =>
      refine committed_of_ok clocked fun result after cancelled => ?_
      exact clocked.tick (Database.requestCancellation_eq_ok cancelled).ticks
  | evaluateDueSchedules now =>
      refine committed_of_ok clocked fun count after evaluated => ?_
      exact clocked.tick (Database.evaluateDueSchedules_ticks owned evaluated)
  | applyEvent runId attemptNo event now =>
      refine committed_of_ok clocked fun result after applied => ?_
      obtain ⟨_, _, _, applies⟩ := Database.applyEvent_eq_ok applied
      exact clocked.tick applies.ticks
  | observeNode observation =>
      refine committed_of_ok clocked fun result after observed => ?_
      obtain ⟨nodes, rfl⟩ := Database.observeNode_eq_ok observed
      exact clocked.bookkeeping nodes
  | registerNode name =>
      obtain ⟨nodes, registered⟩ := Database.registerNode_eq db name
      change (db.registerNode name).Clocked vendor configs
      rw [registered]
      exact clocked.bookkeeping nodes
  | replaceAgentBinding node agentId acknowledged =>
      refine committed_of_ok clocked fun result after replaced => ?_
      obtain ⟨nodes, rfl⟩ := Database.replaceAgentBinding_eq_ok replaced
      exact clocked.bookkeeping nodes

theorem Database.Clocked.empty : Database.empty.Clocked vendor configs := by
  refine ⟨fun generation mem => absurd mem Table.not_mem_empty, fun mirror => ⟨?_, ?_⟩⟩
  · intro row generation document current
    exact absurd (Database.currentGeneration_eq_some.mp current).1 Table.not_mem_empty
  · exact fun schedule mem => absurd mem Table.not_mem_empty

end Alive

/-! ## Every reachable state -/

section Handover

variable {vendor : Vendor} {db after : Database} {run : RunRow} {now : ℤ}

/-- A run that is kept up has not ended. -/
theorem Database.HasEnded.false_of_active {later : RunRow} (ended : after.HasEnded run.id)
    (mem : later ∈ after.runs) (same : later.id = run.id) (active : later.state.isActive = true) :
    False := by
  obtain ⟨other, otherMem, named, final⟩ := ended
  obtain rfl := Table.eq_of_key_eq otherMem mem (named.trans same.symm)
  simp [final] at active

/-- An update of the runs that ends none. -/
theorem Database.HasEnded.false_of_update {matched : RunRow → Bool} {change : RunRow → RunRow}
    (ended : after.HasEnded run.id) (mem : run ∈ db.runs) (active : run.state.isActive = true)
    (runs : after.runs.rows = db.runs.rows.map fun row => if matched row then change row else row)
    (same : (change run).id = run.id) (kept : (change run).state.isActive = true) : False := by
  have later : (if matched run then change run else run) ∈ after.runs := by
    rw [Table.mem_def, runs]
    exact List.mem_map_of_mem mem
  refine ended.false_of_active later ?_ ?_
  · split
    · exact same
    · rfl
  · split
    · exact kept
    · exact active

/-- A cancellation that ends an active run arms its mirror. -/
theorem Database.Cancels.isArmed
    (cancels : db.Cancels run.id now (rearmDocument vendor now) after) (mem : run ∈ db.runs)
    (active : run.state.isActive = true) (timed : db.Timed vendor run.mirrorName)
    (owned : db.OwnedNow run) {schedule : ScheduleRow} (scheduleMem : schedule ∈ db.schedules)
    (named : schedule.mirrorName = run.mirrorName) (ended : after.HasEnded run.id) :
    after.IsArmed run.mirrorName := by
  cases cancels with
  | ended => exact (ended.false_of_active mem rfl active).elim
  | requested => exact (ended.false_of_update mem active rfl rfl active).elim
  | undispatched otherMem same _ _ arms =>
      obtain rfl := Table.eq_of_key_eq otherMem mem same
      exact (arms.endsRun rfl).isArmed timed owned scheduleMem named

/-- A report that ends an active run arms its mirror. -/
theorem Database.Projects.isArmed {attemptNo : ℕ} {event : AttemptEvent} {retryScheduled : Bool}
    (projects : db.Projects run.id attemptNo event now (decideTerminal vendor) retryScheduled after)
    (mem : run ∈ db.runs) (active : run.state.isActive = true)
    (timed : db.Timed vendor run.mirrorName) (owned : db.OwnedNow run) {schedule : ScheduleRow}
    (scheduleMem : schedule ∈ db.schedules) (named : schedule.mirrorName = run.mirrorName)
    (ended : after.HasEnded run.id) : after.IsArmed run.mirrorName := by
  cases projects with
  | nothing => exact (ended.false_of_active mem rfl active).elim
  | start => exact (ended.false_of_update mem active rfl rfl rfl).elim
  | @decided _ source decision sourced decides =>
      cases retry : decision.retry with
      | schedule due =>
          unfold Database.applyDecision at ended
          rw [retry] at ended
          exact (ended.false_of_update mem active rfl rfl rfl).elim
      | final state =>
          exact (Database.endsRun_of_final sourced mem decides retry).isArmed timed owned
            scheduleMem named

/-- An active run of the current owner hands its interval over when it ends. -/
theorem Database.OwnedNow.handsOver (owned : db.OwnedNow run) (mem : run ∈ db.runs)
    (active : run.state.isActive = true) (timed : db.Timed vendor run.mirrorName)
    {schedule : ScheduleRow} (scheduleMem : schedule ∈ db.schedules)
    (named : schedule.mirrorName = run.mirrorName) : db.HandsOver vendor run := by
  intro operation concerns
  cases operation with
  | requestCancellation runId now =>
      obtain rfl : runId = run.id := concerns
      refine @committed_of_ok _ (fun later => later.HasEnded run.id →
        later.IsArmed run.mirrorName) _ _ ?_ ?_
      · exact fun ended => (ended.false_of_active mem rfl active).elim
      · intro result after cancelled
        exact (Database.requestCancellation_eq_ok cancelled).isArmed mem active timed owned
          scheduleMem named
  | applyEvent runId attemptNo event now =>
      obtain rfl : runId = run.id := concerns
      refine @committed_of_ok _ (fun later => later.HasEnded run.id →
        later.IsArmed run.mirrorName) _ _ ?_ ?_
      · exact fun ended => (ended.false_of_active mem rfl active).elim
      · intro result after applied ended
        obtain ⟨attempt, _, keyed, applies⟩ := Database.applyEvent_eq_ok applied
        cases applies with
        | known => exact (ended.false_of_active mem rfl active).elim
        | recorded _ _ projects =>
            rw [show attempt.runId = run.id from congrArg Prod.fst keyed] at projects
            exact projects.isArmed mem active (timed.congr rfl rfl) owned scheduleMem named ended
  | _ => exact concerns.elim

end Handover

/-- Interval schedules never die, as long as each fires for the run of its mirror's owner only.
`distinct` is what the store relies on a schedule's hash for. -/
theorem intervals_never_die {vendor : Vendor} {configs : Set ScheduleConfig} {db : Database}
    (distinct : Set.InjOn vendor.scheduleHash configs)
    (reachable : ReachableBy
      (fun db (operation : StoreOp vendor) => appliesSchedules configs operation ∧
        duesOwned db operation) db) : db.IntervalsAlive vendor := by
  have clocked : db.Clocked vendor configs := by
    refine reachable.invariant Database.Clocked.empty ?_
    intro before operation reached held permitted
    exact held.step reached.sound distinct operation permitted.1 permitted.2
  intro mirror timed
  have whole := timed
  obtain ⟨row, generation, document, text, current, managed, enabled, stored, interval⟩ := whole
  have scheduled := (clocked.clocked mirror).row row generation document current managed enabled
    stored
  rw [interval] at scheduled
  obtain ⟨schedule, mem, named, _⟩ := scheduled
  refine ⟨schedule, mem, named, ?_⟩
  rcases (clocked.clocked mirror).live schedule mem named timed with pending | serves
  · rcases Bool.or_eq_true_iff.mp pending with due | marked
    · exact .inl due
    · exact .inr (.inl marked)
  · obtain ⟨run, runMem, runNamed, active, owned⟩ := serves
    have isMirror := runNamed.trans named
    refine .inr (.inr ⟨run, runMem, isMirror, active, ?_⟩)
    exact owned.handsOver runMem active (isMirror ▸ timed) mem runNamed.symm

/-- A run of `gamma` is dispatched to `node-a`, and the mirror is removed. -/
def Sample.timedRemoved : List (StoreOp Sample.timedVendor) :=
  [.apply (gammaBundle nodeA) 0 1000,
    .createManualRun "gamma" "request-1" 2000 "run-1",
    .pollAction "node-a" atomicAgent 3000 "run-2",
    .apply (.empty timedVendor) 1 4000]

/-- The mirror comes back on a node, and its interval fires under the run. -/
def Sample.timedFired (node : NodeName) : List (StoreOp Sample.timedVendor) :=
  timedRemoved ++ [.apply (gammaBundle node) 2 5000, .evaluateDueSchedules 3605000]

/-- The interval fires under the run of the same owner, which still has it in hand. -/
theorem intervals_never_die_fired :
    (StoreOp.runAll .empty (Sample.timedFired Sample.nodeA)).schedules.any
      (fun schedule => !schedule.isPending) = true ∧
    (StoreOp.runAll .empty (Sample.timedFired Sample.nodeA)).IntervalsAlive Sample.timedVendor := by
  refine ⟨by decide +kernel, ?_⟩
  refine @intervals_never_die _ {Sample.hourly} _ (Set.injOn_singleton _ _) ?_
  refine StoreOp.steps_runAll ?_
  refine ⟨⟨?_, trivial⟩, ⟨trivial, trivial⟩, ⟨trivial, trivial⟩, ⟨?_, trivial⟩, ⟨?_, trivial⟩,
    ⟨trivial, by decide +kernel⟩, trivial⟩
  · simp [appliesSchedules, Sample.gammaBundle, Sample.timedDocument]
  · simp [appliesSchedules, CanonicalBundle.empty]
  · simp [appliesSchedules, Sample.gammaBundle, Sample.timedDocument]

/-- The interval fires under the run of the former owner, and the run ends. -/
def Sample.timedLost : List (StoreOp Sample.timedVendor) :=
  timedFired nodeB ++
    [.applyEvent "run-1" 1 (report 1 .accepted) 3606000,
      .applyEvent "run-1" 1 (report 2 .succeeded) 3607000]

/-- A run of the former owner swallows the interval. -/
theorem readded_mirror_loses_its_interval :
    ¬∀ db, Reachable Sample.timedVendor db → db.IntervalsAlive Sample.timedVendor := by
  intro claimed
  have alive := claimed _ (Reachable.runAll Sample.timedLost)
  have timed : (StoreOp.runAll .empty Sample.timedLost).Timed Sample.timedVendor "gamma" :=
    Database.timed_iff.mpr (by decide +kernel)
  obtain ⟨schedule, mem, named, held⟩ := alive "gamma" timed
  have idle : ∀ schedule ∈ (StoreOp.runAll .empty Sample.timedLost).schedules.rows,
      schedule.isPending = false := by decide +kernel
  have ended : ∀ run ∈ (StoreOp.runAll .empty Sample.timedLost).runs.rows,
      run.state.isActive = false := by decide +kernel
  have lost := idle schedule mem
  rcases held with due | marked | ⟨run, runMem, _, active, _⟩
  · simp [ScheduleRow.isPending, due] at lost
  · simp [ScheduleRow.isPending, marked] at lost
  · simp [ended run runMem] at active

end LzuMirror
