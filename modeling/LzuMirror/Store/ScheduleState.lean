import LzuMirror.Store.Reconfiguration

/-!
# The state of the schedules

A row of `mirror_schedule_state` is written by `apply` in four shapes, by the
schedule tick, by both ways of creating a run and by both ways of ending one;
each of them updates a different subset of its columns. Yet the row exists
exactly while its mirror is configured for it, carries the hash of the current
schedule, and has a due marker only while the mirror has no active run.
-/

namespace LzuMirror

/-- The due marker has an instant exactly while it is set. -/
def ScheduleRow.Marked (schedule : ScheduleRow) : Prop :=
  schedule.runtime.catchUpPending = true ↔ schedule.runtime.catchUpSinceMs.isSome = true

/-- The mirror is managed and enabled, and its current document has the schedule. -/
def Database.HasSchedule (vendor : Vendor) (db : Database) (mirror : String)
    (config : ScheduleConfig) : Prop :=
  ∃ row generation document, db.currentGeneration mirror = some (row, generation) ∧
    row.managed = true ∧ row.enabled = true ∧
    storedDocument vendor generation.configToml = .ok document ∧ document.schedule = some config

/-- The schedule row of one mirror is what its configuration and its runs ask for. -/
structure Database.ScheduledAt (vendor : Vendor) (db : Database) (mirror : String) : Prop where
  fits : ∀ schedule ∈ db.schedules, schedule.mirrorName = mirror →
    ∃ config, db.HasSchedule vendor mirror config ∧
      schedule.scheduleHash = some (vendor.scheduleHash config)
  stored : ∀ config, db.HasSchedule vendor mirror config →
    ∃ schedule ∈ db.schedules, schedule.mirrorName = mirror
  marked : ∀ schedule ∈ db.schedules, schedule.mirrorName = mirror → schedule.Marked
  idle : ∀ schedule ∈ db.schedules, schedule.mirrorName = mirror →
    schedule.runtime.catchUpPending = true → db.hasActiveRun mirror = false

def Database.Scheduled (vendor : Vendor) (db : Database) : Prop :=
  ∀ mirror, db.ScheduledAt vendor mirror

/-- A transaction that leaves the configuration alone and marks idle mirrors only. -/
structure Database.Paces (before after : Database) : Prop where
  mirrors : after.mirrors = before.mirrors
  generations : after.generations = before.generations
  schedules : Table.Rowwise
    (fun old new => new.mirrorName = old.mirrorName ∧ new.scheduleHash = old.scheduleHash ∧
      (old.Marked → new.Marked) ∧
      ((old.runtime.catchUpPending = true → before.hasActiveRun old.mirrorName = false) →
        new.runtime.catchUpPending = true → after.hasActiveRun old.mirrorName = false))
    before.schedules after.schedules

section Configuration

variable {vendor : Vendor} {db after : Database} {mirror : String} {now : ℤ}

theorem Database.HasSchedule.congr {config : ScheduleConfig}
    (configured : db.HasSchedule vendor mirror config)
    (same : after.currentGeneration mirror = db.currentGeneration mirror) :
    after.HasSchedule vendor mirror config := by
  unfold Database.HasSchedule
  rw [same]
  exact configured

/-- A mirror has one current schedule. -/
theorem Database.HasSchedule.unique {first second : ScheduleConfig}
    (isFirst : db.HasSchedule vendor mirror first)
    (isSecond : db.HasSchedule vendor mirror second) : first = second := by
  rcases isFirst with ⟨row, generation, document, current, _, _, stored, present⟩
  rcases isSecond with ⟨_, _, _, otherCurrent, _, _, otherStored, otherPresent⟩
  rw [current, Option.some.injEq, Prod.mk.injEq] at otherCurrent
  rcases otherCurrent with ⟨rfl, rfl⟩
  rw [stored, Except.ok.injEq] at otherStored
  subst otherStored
  exact Option.some.inj (present.symm.trans otherPresent)

theorem Database.ScheduledAt.congr (scheduled : db.ScheduledAt vendor mirror)
    (same : db.Untouched after mirror) : after.ScheduledAt vendor mirror where
  fits := by
    intro schedule mem named
    rcases scheduled.fits schedule ((same.schedules schedule named).mp mem) named with
      ⟨config, configured, hashed⟩
    exact ⟨config, configured.congr same.currentGeneration, hashed⟩
  stored := by
    intro config configured
    rcases scheduled.stored config (configured.congr same.currentGeneration.symm) with
      ⟨schedule, mem, named⟩
    exact ⟨schedule, (same.schedules schedule named).mpr mem, named⟩
  marked := fun schedule mem named =>
    scheduled.marked schedule ((same.schedules schedule named).mp mem) named
  idle := by
    intro schedule mem named marked
    rw [same.hasActiveRun]
    exact scheduled.idle schedule ((same.schedules schedule named).mp mem) named marked

theorem scheduledAt_applyRemove : (applyRemove db mirror now).ScheduledAt vendor mirror := by
  have none : ∀ schedule ∈ (applyRemove db mirror now).schedules, schedule.mirrorName ≠ mirror :=
    fun schedule mem => (Database.mem_delete_schedule.mp mem).2
  constructor
  · intro schedule mem named
    exact absurd named (none schedule mem)
  · rintro config ⟨row, generation, document, current, managed, _⟩
    rcases Database.currentGeneration_eq_some.mp current with ⟨rowMem, named, _⟩
    rcases mem_applyRemove_mirrors rowMem with ⟨_, unmanaged⟩ | ⟨different, _⟩
    · rw [unmanaged] at managed
      cases managed
    · exact absurd named different
  · intro schedule mem named
    exact absurd named (none schedule mem)
  · intro schedule mem named
    exact absurd named (none schedule mem)

variable {change : ConfigChange} {entry : CanonicalMirror} {number : ℕ}

/-- The current generation of a mirror that was stored. -/
theorem Upserts.currentGeneration (upserts : Upserts vendor db change entry number now after) :
    ∃ stored, after.currentGeneration change.mirror =
      some (upsertedRow change entry number, stored) ∧
        stored.configToml = entry.canonicalToml := by
  rcases upserts.generations with ⟨stored, key, toml, members⟩
  rcases Prod.mk.inj key with ⟨mirrorKey, numberKey⟩
  refine ⟨stored, Database.currentGeneration_eq_some.mpr ⟨?_, rfl, ?_, mirrorKey, numberKey⟩, toml⟩
  · rw [upserts.mirrors]
    exact Table.mem_put.mpr (.inr rfl)
  · exact (members stored).mpr (.inr rfl)

theorem Upserts.configured_iff (upserts : Upserts vendor db change entry number now after)
    (parses : vendor.parseDocument entry.canonicalToml = .ok entry.document)
    {config : ScheduleConfig} :
    after.HasSchedule vendor change.mirror config ↔
      entry.document.mirror.enabled = true ∧ entry.document.schedule = some config := by
  rcases upserts.currentGeneration with ⟨stored, current, toml⟩
  have text : storedDocument vendor stored.configToml = .ok entry.document := by
    rw [storedDocument, toml, parses]
  constructor
  · rintro ⟨row, generation, document, isCurrent, _, enabled, parsed, scheduled⟩
    rw [current, Option.some.injEq, Prod.mk.injEq] at isCurrent
    rcases isCurrent with ⟨rfl, rfl⟩
    rw [text, Except.ok.injEq] at parsed
    rw [parsed]
    subst parsed
    exact ⟨enabled, scheduled⟩
  · rintro ⟨enabled, scheduled⟩
    exact ⟨_, stored, entry.document, current, rfl, enabled, text, scheduled⟩

/-- Storing an entry drops, resets or keeps the schedule row of its mirror. -/
theorem Database.ScheduledAt.upsert (scheduled : db.ScheduledAt vendor change.mirror)
    (parses : vendor.parseDocument entry.canonicalToml = .ok entry.document)
    (upserts : Upserts vendor db change entry number now after) :
    after.ScheduledAt vendor change.mirror := by
  have configured : ∀ {config : ScheduleConfig}, after.HasSchedule vendor change.mirror config ↔
      entry.document.mirror.enabled = true ∧ entry.document.schedule = some config :=
    upserts.configured_iff parses
  have quieter : entry.document.mirror.enabled = true → change.kind ≠ .move →
      db.hasActiveRun change.mirror = false → after.hasActiveRun change.mirror = false := by
    intro enabled kind idle
    unfold Database.hasActiveRun at idle ⊢
    rw [upserts.runs, settleRuns, if_neg (by simp [enabled]), if_neg kind]
    exact idle
  rcases upserts.schedules with ⟨middle, same, reconciles⟩
  cases reconciles with
  | dropped unscheduled =>
      have none : ∀ schedule ∈ middle.schedules.delete (fun row => row.mirrorName = change.mirror),
          schedule.mirrorName ≠ change.mirror :=
        fun schedule mem => (Database.mem_delete_schedule.mp mem).2
      constructor
      · intro schedule mem named
        exact absurd named (none schedule mem)
      · intro config isConfigured
        rcases configured.mp isConfigured with ⟨enabled, present⟩
        rw [unscheduled enabled] at present
        cases present
      · intro schedule mem named
        exact absurd named (none schedule mem)
      · intro schedule mem named
        exact absurd named (none schedule mem)
  | @reset config fresh present named hashed _ enabled unmarked =>
      have only : ∀ schedule ∈ middle.schedules.put fresh,
          schedule.mirrorName = change.mirror → schedule = fresh := by
        intro schedule mem own
        rcases Table.mem_put.mp mem with ⟨_, different⟩ | isFresh
        · exact absurd (own.trans named.symm) different
        · exact isFresh
      constructor
      · intro schedule mem own
        rw [only schedule mem own]
        exact ⟨config, configured.mpr ⟨enabled, present⟩, hashed⟩
      · intro _ _
        exact ⟨fresh, Table.mem_put.mpr (.inr rfl), named⟩
      · intro schedule mem own
        rw [only schedule mem own]
        simp [ScheduleRow.Marked, unmarked.1, unmarked.2]
      · intro schedule mem own pending
        rw [only schedule mem own, unmarked.1] at pending
        cases pending
  | @kept config row known present enabled kind _ _ _ _ mem named hashed =>
      have before : ∀ schedule, schedule ∈ after.schedules ↔ schedule ∈ db.schedules := by
        rw [same]
        exact fun _ => Iff.rfl
      constructor
      · intro schedule scheduleMem own
        rw [Table.eq_of_key_eq scheduleMem mem (own.trans named.symm)]
        exact ⟨config, configured.mpr ⟨enabled, present⟩, hashed⟩
      · intro _ _
        exact ⟨known, mem, named⟩
      · intro schedule scheduleMem own
        exact scheduled.marked schedule ((before schedule).mp scheduleMem) own
      · intro schedule scheduleMem own pending
        exact quieter enabled kind
          (scheduled.idle schedule ((before schedule).mp scheduleMem) own pending)

theorem Database.ScheduledAt.applyChange {bundle : CanonicalBundle vendor} {revision : ℕ}
    (applied : LzuMirror.applyChange bundle revision now db change = .ok after)
    (scheduled : db.ScheduledAt vendor change.mirror) :
    after.ScheduledAt vendor change.mirror := by
  rcases applyChange_eq_ok applied with ⟨_, rfl⟩ | ⟨_, entry, number, present, _, upserted⟩
  · exact scheduledAt_applyRemove
  · rcases CanonicalBundle.get?_eq_some present with ⟨name, _, entryMem⟩
    exact scheduled.upsert (bundle.parses _ entryMem) (applyUpsert_upserts upserted)

end Configuration

section Pacing

variable {vendor : Vendor} {db after : Database} {now : ℤ}

namespace Database.Paces

/-- A transaction that leaves the schedules alone and starts no run. -/
theorem of_schedules_eq (mirrors : after.mirrors = db.mirrors)
    (generations : after.generations = db.generations) (schedules : after.schedules = db.schedules)
    (quieter : ∀ mirror, db.hasActiveRun mirror = false → after.hasActiveRun mirror = false) :
    db.Paces after := by
  refine ⟨mirrors, generations, ?_⟩
  rw [schedules]
  apply Table.Rowwise.refl
  intro schedule
  exact ⟨rfl, rfl, fun marked => marked, fun idle pending => quieter _ (idle pending)⟩

theorem refl (db : Database) : db.Paces db :=
  of_schedules_eq rfl rfl rfl fun _ idle => idle

theorem trans {first second third : Database} (left : first.Paces second)
    (right : second.Paces third) : first.Paces third where
  mirrors := right.mirrors.trans left.mirrors
  generations := right.generations.trans left.generations
  schedules := by
    apply (left.schedules.comp right.schedules).imp
    rintro old new ⟨middle, ⟨named, hashed, marked, idle⟩, laterNamed, laterHashed, laterMarked,
      laterIdle⟩
    refine ⟨laterNamed.trans named, laterHashed.trans hashed, fun well => laterMarked (marked well),
      ?_⟩
    intro before pending
    rw [← named]
    apply laterIdle _ pending
    intro middlePending
    rw [named]
    exact idle before middlePending

/-- Arming an interval clears the marker. -/
theorem rearmSchedule (mirror : String) (nextDue : ℤ) :
    db.Paces (db.rearmSchedule mirror nextDue now) := by
  refine ⟨rfl, rfl, ?_⟩
  apply Table.rowwise_of_map rfl
  intro schedule _
  split
  · refine ⟨rfl, rfl, fun _ => ?_, fun _ pending => ?_⟩
    · simp [ScheduleRow.Marked]
    · cases pending
  · exact ⟨rfl, rfl, fun marked => marked, fun idle pending => idle pending⟩

end Database.Paces

/-- Runs that move forward do not become active. -/
theorem Database.Advances.quieter (advances : db.Advances after) (mirror : String)
    (idle : db.hasActiveRun mirror = false) : after.hasActiveRun mirror = false := by
  rw [Database.hasActiveRun_eq_false] at idle ⊢
  intro run mem named
  rcases advances.runs.origin mem with ⟨old, oldMem, follows, _⟩
  cases active : run.state.isActive with
  | false => rfl
  | true =>
      rw [← idle old oldMem (follows.mirrorName.symm.trans named)]
      exact (follows.active active).symm

/-- A new run takes the marker of its mirror away. -/
theorem Database.Inserts.paces {run : RunRow} (inserts : db.Inserts run after) :
    db.Paces after := by
  rcases inserts.inserted with ⟨middle, inserted, rfl⟩
  rcases Database.insertRun_eq_ok inserted with ⟨_, _, runs, rfl, members⟩
  refine ⟨rfl, rfl, ?_⟩
  apply Table.rowwise_of_map rfl
  intro schedule _
  split
  · refine ⟨rfl, rfl, fun _ => ?_, fun _ pending => ?_⟩
    · simp [ScheduleRow.Marked]
    · cases pending
  next foreign =>
    refine ⟨rfl, rfl, fun marked => marked, fun idle pending => ?_⟩
    have before := idle pending
    rw [Database.hasActiveRun_eq_false] at before ⊢
    intro other mem named
    rcases (members other).mp mem with oldMem | rfl
    · exact before other oldMem named
    · simp [named] at foreign

theorem Database.Polls.paces {node : String} {action : Option PollAction}
    {compile : DispatchSource → Except StoreError (Option CompiledDispatch)}
    (polls : db.Polls node now compile action after) : db.Paces after := by
  cases polls with
  | nothing | cancel => exact .refl db
  | redeliver => exact .of_schedules_eq rfl rfl rfl fun _ idle => idle
  | @dispatch candidate generation compiled _ staged _ selects _ _ _ persists =>
      have staging : db.Paces staged := by
        cases selects with
        | manual | retry => exact .refl db
        | scheduled inserts => exact inserts.paces
      rcases Database.persistDispatch_eq_ok persists with ⟨_, _, mirrors, generations, runs, _⟩
      apply staging.trans
      refine .of_schedules_eq mirrors generations (Database.persistDispatch_schedules persists).1 ?_
      intro mirror idle
      rw [Database.hasActiveRun_eq_false] at idle ⊢
      intro run mem named
      rcases runs.origin mem with ⟨old, oldMem, rfl⟩
      have follows := old.dispatchedAs_follows (candidate.source generation) compiled.policy
      have ended := idle old oldMem (follows.mirrorName.symm.trans named)
      unfold RunRow.dispatchedAs
      split <;> exact ended

theorem Database.Arms.paces {run : RunRow} {rearm : String → Except StoreError (Option ℤ)}
    {schedules : Table ScheduleRow.mirrorName} (arms : db.Arms run now rearm schedules) :
    db.Paces { db with schedules } := by
  rcases arms with ⟨nextDue, _, rfl⟩
  cases nextDue with
  | none => exact .refl db
  | some due => exact .rearmSchedule run.mirrorName due

theorem Database.Cancels.paces {runId : String} {rearm : String → Except StoreError (Option ℤ)}
    (cancels : db.Cancels runId now rearm after) : db.Paces after := by
  have advances := cancels.advances
  cases cancels with
  | ended => exact .refl db
  | requested => exact .of_schedules_eq rfl rfl rfl fun _ idle => advances.quieter _ idle
  | undispatched _ _ _ _ arms =>
      apply arms.paces.trans
      exact .of_schedules_eq rfl rfl rfl fun _ idle => advances.quieter _ idle

theorem Database.Projects.paces {runId : String} {attemptNo : ℕ} {event : AttemptEvent}
    {retryScheduled : Bool}
    (projects : db.Projects runId attemptNo event now (decideTerminal vendor) retryScheduled
      after) : db.Paces after := by
  have advances := projects.advances
  cases projects with
  | nothing => exact .refl db
  | start => exact .of_schedules_eq rfl rfl rfl fun _ idle => advances.quieter _ idle
  | @decided _ source decision =>
      unfold Database.applyDecision at advances ⊢
      cases retry : decision.retry with
      | schedule due =>
          simp only [retry] at advances ⊢
          exact .of_schedules_eq rfl rfl rfl fun _ idle => advances.quieter _ idle
      | final state =>
          simp only [retry] at advances ⊢
          cases due : decision.intervalNextDueAtMs with
          | none =>
              simp only [due] at advances ⊢
              exact .of_schedules_eq rfl rfl rfl fun _ idle => advances.quieter _ idle
          | some time =>
              simp only [due] at advances ⊢
              have finished : db.Paces (db.finishRun runId state event.projection.runStartedAtMs
                  (event.projection.runFinishedAtMs.getD now) event) :=
                .of_schedules_eq rfl rfl rfl fun _ idle => advances.quieter _ idle
              exact finished.trans (.rearmSchedule source.mirrorName time)

theorem Database.Applies.paces {attempt : AttemptRow} {event : AttemptEvent}
    {result : AttemptEventApplyResult}
    (applies : db.Applies attempt event now (decideTerminal vendor) result after) :
    db.Paces after := by
  cases applies with
  | known => exact .refl db
  | recorded _ _ projects =>
      have recorded : db.Paces (db.recordEvent attempt.key event) :=
        .of_schedules_eq rfl rfl rfl fun _ idle => idle
      exact recorded.trans projects.paces

theorem normalizeRestored_paces (db : Database) (restoredAtMs : ℤ) :
    db.Paces (db.normalizeRestored restoredAtMs) :=
  .of_schedules_eq rfl rfl rfl fun _ idle =>
    (normalizeRestored_advances db restoredAtMs).quieter _ idle

/-- Pacing keeps the state of the schedules. -/
theorem Database.Scheduled.pace (scheduled : db.Scheduled vendor) (paces : db.Paces after) :
    after.Scheduled vendor := by
  intro mirror
  have current : after.currentGeneration mirror = db.currentGeneration mirror := by
    rw [Database.currentGeneration, paces.mirrors, paces.generations]
    rfl
  constructor
  · intro schedule mem named
    rcases paces.schedules.origin mem with ⟨old, oldMem, oldNamed, hashed, _⟩
    rcases (scheduled mirror).fits old oldMem (oldNamed.symm.trans named) with
      ⟨config, configured, oldHashed⟩
    exact ⟨config, configured.congr current, hashed.trans oldHashed⟩
  · intro config configured
    rcases (scheduled mirror).stored config (configured.congr current.symm) with
      ⟨old, oldMem, oldNamed⟩
    rcases paces.schedules.successor oldMem with ⟨schedule, mem, named, _⟩
    exact ⟨schedule, mem, named.trans oldNamed⟩
  · intro schedule mem named
    rcases paces.schedules.origin mem with ⟨old, oldMem, oldNamed, _, marked, _⟩
    exact marked ((scheduled mirror).marked old oldMem (oldNamed.symm.trans named))
  · intro schedule mem named pending
    rcases paces.schedules.origin mem with ⟨old, oldMem, oldNamed, _, _, idle⟩
    have same := oldNamed.symm.trans named
    rw [← same]
    apply idle _ pending
    intro oldPending
    rw [same]
    exact (scheduled mirror).idle old oldMem same oldPending

end Pacing

/-! ## The schedule tick -/

section Tick

variable {vendor : Vendor} {db after : Database} {now : ℤ}

/-- The instant a marker is set to: the earliest that was missed. -/
def ScheduleRuntime.missed (runtime : ScheduleRuntime) (due : ℤ) : ℤ :=
  match runtime.catchUpSinceMs with
  | none => due
  | some existing => min existing due

/-- What evaluating a due schedule leaves. -/
structure ScheduleRuntime.Evaluated (vendor : Vendor) (now : ℤ) (old : ScheduleRuntime) (due : ℤ)
    (hasActiveRun : Bool) (new : ScheduleRuntime) : Prop where
  pending : new.catchUpPending = !hasActiveRun
  since : new.catchUpSinceMs = if hasActiveRun then none else some (old.missed due)
  nextDue : ∀ next, new.nextDueAtMs = some next →
    ∃ expression timezone, vendor.nextOccurrence expression timezone now = .ok next

theorem evaluateSource_eq_ok {source : ScheduleTickSource} {due : ℤ} {runtime : ScheduleRuntime}
    (isDue : source.runtime.nextDueAtMs = some due) (past : due ≤ now)
    (evaluated : evaluateSource vendor now source = .ok runtime) :
    source.runtime.Evaluated vendor now due source.hasActiveRun runtime := by
  have reached : ¬now < due := Int.not_lt.mpr past
  unfold evaluateSource at evaluated
  simp only [bind, Except.bind] at evaluated
  split at evaluated
  · cases evaluated
  next document stored =>
    split at evaluated
    · cases evaluated
    next schedule scheduled =>
      simp only [evaluateScheduleDue, isDue, reached, if_false] at evaluated
      cases schedule with
      | interval text =>
          cases evaluated
          cases busy : source.hasActiveRun with
          | false => exact ⟨rfl, rfl, by simp⟩
          | true => exact ⟨rfl, rfl, by simp⟩
      | cron expression timezone =>
          cases next : vendor.nextOccurrence expression timezone now with
          | error reason =>
              simp [ScheduleConfig.nextAfterMs, next, bind, Except.bind] at evaluated
          | ok instant =>
              simp only [ScheduleConfig.nextAfterMs, next, Functor.map, Except.map, bind,
                Except.bind, pure, Except.pure, Except.ok.injEq] at evaluated
              subst evaluated
              cases busy : source.hasActiveRun with
              | false =>
                  refine ⟨rfl, rfl, ?_⟩
                  intro later same
                  simp only [Option.some.injEq] at same
                  exact ⟨expression, timezone, same ▸ next⟩
              | true =>
                  refine ⟨rfl, rfl, ?_⟩
                  intro later same
                  simp only [Option.some.injEq] at same
                  exact ⟨expression, timezone, same ▸ next⟩

/-- The tick, row by row: a due row is evaluated, any other is kept. -/
theorem Database.evaluateDueSchedules_exact {count : ℕ}
    (evaluated : db.evaluateDueSchedules now (evaluateSource vendor now) = .ok (count, after)) :
    after = { db with schedules := after.schedules } ∧
      Table.Rowwise (fun old new =>
        db.tickSource? now old = none ∧ new = old ∨
        ∃ due runtime, old.runtime.nextDueAtMs = some due ∧ due ≤ now ∧
          new = { old with runtime } ∧
          old.runtime.Evaluated vendor now due (db.hasActiveRun old.mirrorName) runtime)
        db.schedules after.schedules := by
  simp only [Database.evaluateDueSchedules, bind, Except.bind] at evaluated
  split at evaluated
  · cases evaluated
  next computed looped =>
    cases evaluated
    rcases Database.evaluateSources_exact looped with ⟨framed, rowwise⟩
    refine ⟨framed, rowwise.imp_mem ?_⟩
    rintro old oldMem new _ (⟨absent, rfl⟩ | ⟨source, mem, named, runtime, evaluates, rfl⟩)
    · left
      refine ⟨?_, rfl⟩
      cases ticks : db.tickSource? now new with
      | none => rfl
      | some source =>
          have listed : source ∈ db.tickSources now := by
            rw [Database.tickSources, List.mem_insertionSort, List.mem_filterMap]
            exact ⟨new, oldMem, ticks⟩
          refine absurd ?_ (absent source listed)
          simp only [Database.tickSource?, Option.bind_eq_bind, Option.bind_eq_some_iff] at ticks
          rcases ticks with ⟨⟨row, generation⟩, current, _, _, made⟩
          rcases Database.currentGeneration_eq_some.mp current with ⟨_, rowNamed, _⟩
          simp only at made
          split at made
          · cases made
            exact rowNamed
          · cases made
    · right
      rcases Database.mem_tickSources mem with
        ⟨schedule, scheduleMem, row, generation, due, current, isDue, past, rfl⟩
      have same := Table.eq_of_key_eq scheduleMem oldMem named
      subst same
      exact ⟨due, runtime, isDue, past, rfl, evaluateSource_eq_ok isDue past evaluates⟩

theorem Database.evaluateDueSchedules_paces {count : ℕ}
    (evaluated : db.evaluateDueSchedules now (evaluateSource vendor now) = .ok (count, after)) :
    db.Paces after := by
  rcases Database.evaluateDueSchedules_exact evaluated with ⟨framed, rowwise⟩
  have active : ∀ mirror, after.hasActiveRun mirror = db.hasActiveRun mirror := by
    intro mirror
    rw [framed]
    rfl
  refine ⟨by rw [framed], by rw [framed], rowwise.imp ?_⟩
  rintro old new (⟨_, rfl⟩ | ⟨due, runtime, _, _, rfl, leaves⟩)
  · refine ⟨rfl, rfl, fun marked => marked, fun idle pending => ?_⟩
    rw [active]
    exact idle pending
  · refine ⟨rfl, rfl, fun _ => ?_, fun _ pending => ?_⟩
    · unfold ScheduleRow.Marked
      simp only [leaves.pending, leaves.since]
      cases db.hasActiveRun old.mirrorName <;> simp
    · simp only [leaves.pending] at pending
      rw [active]
      simpa using pending

/-- Every due row of a consistent database is evaluated, so that none stays due. -/
theorem Database.Scheduled.evaluated {count : ℕ} (scheduled : db.Scheduled vendor)
    (strict : ∀ expression timezone instant next,
      vendor.nextOccurrence expression timezone instant = .ok next → instant < next)
    (evaluated : db.evaluateDueSchedules now (evaluateSource vendor now) = .ok (count, after)) :
    ∀ schedule ∈ after.schedules, ∀ due, schedule.runtime.nextDueAtMs = some due → now < due := by
  rcases Database.evaluateDueSchedules_exact evaluated with ⟨_, rowwise⟩
  intro schedule mem due isDue
  rcases rowwise.origin mem with ⟨old, oldMem, ⟨skipped, rfl⟩ | ⟨_, runtime, _, _, rfl, leaves⟩⟩
  · by_contra late
    rcases (scheduled schedule.mirrorName).fits schedule oldMem rfl with
      ⟨config, ⟨row, generation, document, current, managed, enabled, _⟩, _⟩
    simp [Database.tickSource?, current, isDue, managed, enabled, Int.not_lt.mp late] at skipped
  · rcases leaves.nextDue due isDue with ⟨expression, timezone, occurs⟩
    exact strict expression timezone now due occurs

end Tick

theorem Database.Scheduled.step {vendor : Vendor} {db : Database} (scheduled : db.Scheduled vendor)
    (sound : db.Sound) (operation : StoreOp vendor) : (operation.run db).Scheduled vendor := by
  cases operation with
  | evaluateDueSchedules now =>
      refine committed_of_ok scheduled ?_
      intro count after evaluated
      exact scheduled.pace (Database.evaluateDueSchedules_paces evaluated)
  | observeNode observation =>
      refine committed_of_ok scheduled ?_
      intro result after observed
      rcases Database.observeNode_eq_ok observed with ⟨nodes, rfl⟩
      exact scheduled.pace (.of_schedules_eq rfl rfl rfl fun _ idle => idle)
  | registerNode name =>
      rcases Database.registerNode_eq db name with ⟨nodes, registered⟩
      change (db.registerNode name).Scheduled vendor
      rw [registered]
      exact scheduled.pace (.of_schedules_eq rfl rfl rfl fun _ idle => idle)
  | replaceAgentBinding node agentId acknowledged =>
      refine committed_of_ok scheduled ?_
      intro result after replaced
      rcases Database.replaceAgentBinding_eq_ok replaced with ⟨nodes, rfl⟩
      exact scheduled.pace (.of_schedules_eq rfl rfl rfl fun _ idle => idle)
  | apply bundle baseRevision now =>
      refine committed_of_ok scheduled ?_
      intro plan after applied
      rcases Database.apply_eq_ok applied with ⟨plan, planned, _, enforced, folded⟩
      intro mirror
      apply Database.apply_invariant sound planned enforced folded _ _ mirror (scheduled mirror)
      · intro before later name same fits
        exact fits.congr same
      · intro before next change _ _ applies fits
        exact fits.applyChange applies
  | createManualRun mirror requestId now newRunId =>
      refine committed_of_ok scheduled ?_
      intro run after created
      rcases Database.createManualRun_eq_ok created with rfl | creates
      · exact scheduled
      · exact scheduled.pace creates.inserts.paces
  | pollAction node agent now newRunId =>
      refine committed_of_ok scheduled ?_
      intro action after polled
      exact scheduled.pace (Database.pollAction_eq_ok polled).paces
  | requestCancellation runId now =>
      refine committed_of_ok scheduled ?_
      intro result after cancelled
      exact scheduled.pace (Database.requestCancellation_eq_ok cancelled).paces
  | applyEvent runId attemptNo event now =>
      refine committed_of_ok scheduled ?_
      intro result after applied
      rcases Database.applyEvent_eq_ok applied with ⟨_, _, _, applies⟩
      exact scheduled.pace applies.paces

theorem LifeReachable.scheduled {vendor : Vendor} {db : Database}
    (reachable : LifeReachable vendor db) : db.Scheduled vendor := by
  have both : db.Sound ∧ db.Scheduled vendor := by
    apply reachable.invariant
    · refine ⟨.empty, ?_⟩
      intro mirror
      constructor
      · intro schedule mem
        exact absurd mem Table.not_mem_empty
      · rintro config ⟨row, generation, document, current, _⟩
        exact absurd (Database.currentGeneration_eq_some.mp current).1 Table.not_mem_empty
      · intro schedule mem
        exact absurd mem Table.not_mem_empty
      · intro schedule mem
        exact absurd mem Table.not_mem_empty
    · rintro before operation ⟨sound, scheduled⟩
      exact ⟨sound.step operation, scheduled.step sound operation⟩
    · rintro before restoredAtMs ⟨sound, scheduled⟩
      exact ⟨sound.advance (normalizeRestored_advances before restoredAtMs),
        scheduled.pace (normalizeRestored_paces before restoredAtMs)⟩
  exact both.2

/--
In every database that transactions and restores lead to: a mirror has a
schedule row exactly while it is managed and enabled and its current document
has a schedule, and the row carries that schedule's hash; the due marker has an
instant exactly while it is set; it is not set while a run of the mirror is
active; and a tick leaves no row due, given that the cron evaluator returns an
instant strictly after its argument.
-/
theorem schedule_state {vendor : Vendor} {db : Database} (reached : LifeReachable vendor db) :
    (∀ mirror, (∃ schedule ∈ db.schedules, schedule.mirrorName = mirror) ↔
      ∃ config, db.HasSchedule vendor mirror config) ∧
    (∀ schedule ∈ db.schedules, ∀ config, db.HasSchedule vendor schedule.mirrorName config →
      schedule.scheduleHash = some (vendor.scheduleHash config)) ∧
    (∀ schedule ∈ db.schedules, schedule.runtime.catchUpPending = true ↔
      schedule.runtime.catchUpSinceMs.isSome = true) ∧
    (∀ schedule ∈ db.schedules, schedule.runtime.catchUpPending = true →
      ∀ run ∈ db.runs, run.mirrorName = schedule.mirrorName → run.state.isActive = false) ∧
    ((∀ expression timezone instant next,
        vendor.nextOccurrence expression timezone instant = .ok next → instant < next) →
      ∀ now count after,
        db.evaluateDueSchedules now (evaluateSource vendor now) = .ok (count, after) →
          ∀ schedule ∈ after.schedules, ∀ due, schedule.runtime.nextDueAtMs = some due →
            now < due) := by
  have scheduled := reached.scheduled
  refine ⟨?_, ?_, ?_, ?_, ?_⟩
  · intro mirror
    constructor
    · rintro ⟨schedule, mem, named⟩
      rcases (scheduled mirror).fits schedule mem named with ⟨config, configured, _⟩
      exact ⟨config, configured⟩
    · rintro ⟨config, configured⟩
      exact (scheduled mirror).stored config configured
  · intro schedule mem config configured
    rcases (scheduled _).fits schedule mem rfl with ⟨known, knownConfigured, hashed⟩
    rw [hashed, knownConfigured.unique configured]
  · intro schedule mem
    exact (scheduled _).marked schedule mem rfl
  · intro schedule mem pending
    exact Database.hasActiveRun_eq_false.mp ((scheduled _).idle schedule mem rfl pending)
  · intro strict now count after evaluated
    exact scheduled.evaluated strict evaluated

/-! A mirror that runs at every full hour. -/

namespace Sample

def delta : MirrorName := ⟨"delta", by decide⟩

def fullHours : ScheduleConfig := .cron "0 * * * *" "UTC"

def cronDocument : MirrorDocument := { document delta with schedule := some fullHours }

/-- The canonical text of `cronDocument`. -/
@[irreducible]
def deltaToml : String :=
  "[mirror]\nname = \"delta\"\nenabled = true\ndescription = \"\"\ntarget = \"pool\"\n\n" ++
    "[schedule]\ncron = \"0 * * * *\"\ntimezone = \"UTC\"\n\n" ++
    "[sync]\ntype = \"command\"\nprogram = \"/bin/true\"\nargs = []\n\n[runner]\ntype = \"process\"\n\n" ++
    "[run]\ntimeout_seconds = 3600\nmax_attempts = 3\nretry_delay_seconds = 0\n"

/-- The libraries on this text and this schedule. -/
def cronVendor : Vendor where
  parseDuration := fun _ => .error "unknown duration"
  nextOccurrence := fun expression timezone instant =>
    if expression = "0 * * * *" ∧ timezone = "UTC" then .ok ((instant / 3600000 + 1) * 3600000)
    else .error "unknown expression"
  parseDocument := fun text =>
    if text = deltaToml then .ok cronDocument else .error "invalid document"
  scheduleHash := fun schedule =>
    if schedule = fullHours then
      "sha256:e61410415698d50e8cbfe22ff110e37648e053fe04ad992604e336f5c953c3bc"
    else "sha256:"
  specHash := fun spec => "sha256:" ++ spec.targetDir
  textHash := fun text =>
    if text = deltaToml then
      "sha256:832dc691218515df07c73ec9ff9f304acca93108b467f401c8e881f64103c86a"
    else "sha256:" ++ text

theorem cronVendor_strict : ∀ expression timezone instant next,
    cronVendor.nextOccurrence expression timezone instant = .ok next → instant < next := by
  intro expression timezone instant next occurs
  simp only [cronVendor] at occurs
  split at occurs
  · cases occurs
    omega
  · cases occurs

/-- The bundle of `delta` on a node. -/
def deltaBundle (node : NodeName) : CanonicalBundle cronVendor where
  mirrors := [(delta, {
    ownerNode := node
    document := cronDocument
    canonicalToml := deltaToml
    configHash := cronVendor.textHash deltaToml })]
  bundleHash := "sha256:delta"
  ordered := by simp
  named := by simp [cronDocument, document]
  targetsSafe := by simp only [List.mem_singleton, forall_eq, cronDocument, document]; decide
  policiesBounded := by simp [cronDocument, document]
  targetsDisjoint := rfl
  parses := by
    simp only [List.mem_singleton, forall_eq]
    exact if_pos rfl
  hashed := by simp

/-- The mirror is configured and one full hour passes without a poll. -/
def cronMissed : List (StoreOp cronVendor) :=
  [.apply (deltaBundle nodeA) 0 1000, .evaluateDueSchedules 3601000]

end Sample

theorem schedule_state_missed :
    (StoreOp.runAll .empty Sample.cronMissed).schedules.any
      (fun schedule => decide (schedule.runtime.catchUpSinceMs = some 3600000)) = true ∧
    (∀ schedule ∈ (StoreOp.runAll .empty Sample.cronMissed).schedules,
      schedule.runtime.catchUpPending = true ↔ schedule.runtime.catchUpSinceMs.isSome = true) ∧
    ∀ now count after,
      (StoreOp.runAll .empty Sample.cronMissed).evaluateDueSchedules now
        (evaluateSource Sample.cronVendor now) = .ok (count, after) →
          ∀ schedule ∈ after.schedules, ∀ due, schedule.runtime.nextDueAtMs = some due →
            now < due := by
  have reached : LifeReachable Sample.cronVendor (StoreOp.runAll .empty Sample.cronMissed) :=
    StoreOp.lifeSteps_runAll _ _
  have state := schedule_state reached
  exact ⟨by decide +kernel, state.2.2.1, state.2.2.2.2 Sample.cronVendor_strict⟩

end LzuMirror
