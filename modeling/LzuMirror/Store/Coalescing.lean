import LzuMirror.Store.Ownership
import LzuMirror.Store.ScheduleState

/-!
# Coalescing of missed occurrences

A mirror that is due and not served has one due marker, however many of its
occurrences pass. `Database.Waits` lists what may happen to the mirror in the
meantime, with the occurrence that a tick evaluates; over a whole history the
marker is the earliest of them. The run that finally serves the mirror is
created for that instant, in the transaction that also compiles and dispatches
it, so that a dispatch that fails leaves nothing behind.
-/

namespace LzuMirror

namespace Database

/-- The occurrence of the mirror that a tick evaluates. -/
def occurrenceAt (db : Database) (mirror : String) (now : ℤ) : Option ℤ :=
  (db.schedules.find? mirror).bind fun schedule =>
    schedule.runtime.nextDueAtMs.filter fun due => due ≤ now

/-- The bundle keeps the mirror managed and enabled, with its owner and its schedule hash. -/
def KeepsSchedule {vendor : Vendor} (db : Database) (bundle : CanonicalBundle vendor)
    (mirror : String) : Prop :=
  ∃ entry config, bundle.get? mirror = some entry ∧ entry.document.mirror.enabled = true ∧
    entry.document.schedule = some config ∧
    (∀ row ∈ db.mirrors, row.name = mirror → row.ownerNode = entry.ownerNode.value) ∧
    ∀ schedule ∈ db.schedules, schedule.mirrorName = mirror →
      schedule.scheduleHash = some (vendor.scheduleHash config)

/-- What may happen while a mirror waits to be served, with the occurrence that is evaluated. -/
inductive Waits (vendor : Vendor) (mirror : String) (db : Database) :
    Option ℤ → Database → Prop where
  | ticked {now : ℤ} {count : ℕ} {after : Database}
      (evaluated : db.evaluateDueSchedules now (evaluateSource vendor now) = .ok (count, after)) :
      Waits vendor mirror db (db.occurrenceAt mirror now) after
  -- compiling the mirror is unavailable or fails; other mirrors may be dispatched
  | polled {node newRunId : String} {now : ℤ} {action : Option PollAction} {after : Database}
      {compile : DispatchSource → Except StoreError (Option CompiledDispatch)}
      (polled : db.pollAction node now newRunId compile = .ok (action, after))
      (unserved : ∀ source compiled, compile source = .ok (some compiled) →
        source.mirrorName ≠ mirror) : Waits vendor mirror db none after
  | applied {bundle : CanonicalBundle vendor} {baseRevision : ℕ} {now : ℤ} {plan : ConfigPlan}
      {after : Database} (applied : db.apply bundle baseRevision now = .ok (plan, after))
      (keeps : db.KeepsSchedule bundle mirror) : Waits vendor mirror db none after
  -- any of these transactions, rolled back
  | failed : Waits vendor mirror db none db

/-- A history of waiting, with the occurrences that were evaluated. -/
inductive WaitsThrough (vendor : Vendor) (mirror : String) :
    Database → List ℤ → Database → Prop where
  | refl (db : Database) : WaitsThrough vendor mirror db [] db
  | step {db middle after : Database} {occurrence : Option ℤ} {rest : List ℤ}
      (waits : db.Waits vendor mirror occurrence middle)
      (later : WaitsThrough vendor mirror middle rest after) :
      WaitsThrough vendor mirror db (occurrence.toList ++ rest) after

/-- The mirror has no active run, and its marker is the given one. -/
structure Waiting (vendor : Vendor) (db : Database) (mirror : String) (marker : Option ℤ) :
    Prop where
  sound : db.Sound
  scheduled : db.Scheduled vendor
  idle : db.hasActiveRun mirror = false
  row : ∃ schedule ∈ db.schedules, schedule.mirrorName = mirror ∧
    schedule.runtime.catchUpSinceMs = marker

section Steps

variable {vendor : Vendor} {db after : Database} {mirror : String} {marker : Option ℤ} {now : ℤ}

/-- The schedule row of the mirror is the one it was, and no run of the mirror has begun. -/
theorem Waiting.keep (waiting : db.Waiting vendor mirror marker) (sound : after.Sound)
    (scheduled : after.Scheduled vendor) (idle : after.hasActiveRun mirror = false)
    (kept : ∀ schedule ∈ db.schedules, schedule.mirrorName = mirror →
      schedule ∈ after.schedules) : after.Waiting vendor mirror marker := by
  rcases waiting.row with ⟨schedule, mem, named, since⟩
  exact ⟨sound, scheduled, idle, schedule, kept schedule mem named, named, since⟩

/-- A tick sets the marker to the earliest of the old one and the occurrence. -/
theorem Waiting.tick {count : ℕ} (waiting : db.Waiting vendor mirror marker)
    (evaluated : db.evaluateDueSchedules now (evaluateSource vendor now) = .ok (count, after)) :
    after.Waiting vendor mirror (marker.toList ++ (db.occurrenceAt mirror now).toList).min? := by
  have scheduled := waiting.scheduled.pace (evaluateDueSchedules_paces evaluated)
  rcases evaluateDueSchedules_exact evaluated with ⟨framed, rowwise⟩
  rcases waiting.row with ⟨schedule, mem, named, since⟩
  have found : db.schedules.find? mirror = some schedule :=
    Table.find?_eq_some_iff.mpr ⟨mem, named⟩
  have idle : db.hasActiveRun schedule.mirrorName = false := by
    rw [named]
    exact waiting.idle
  have sound : after.Sound := by
    rw [framed]
    exact waiting.sound.bookkeeping rfl rfl rfl rfl
  refine ⟨sound, scheduled, by rw [framed]; exact waiting.idle, ?_⟩
  rcases rowwise.successor mem with ⟨later, laterMem, cases⟩
  rcases cases with ⟨skipped, rfl⟩ | ⟨due, runtime, isDue, past, rfl, leaves⟩
  · -- the row is not due, since its mirror is managed and enabled
    have none : db.occurrenceAt mirror now = none := by
      rcases (waiting.scheduled later.mirrorName).fits later mem rfl with
        ⟨config, ⟨row, generation, document, current, managed, enabled, _⟩, _⟩
      unfold occurrenceAt
      rw [found]
      cases isDue : later.runtime.nextDueAtMs with
      | none => simp [isDue]
      | some due =>
          have late : now < due := by
            by_contra reached
            simp [tickSource?, current, isDue, managed, enabled, Int.not_lt.mp reached] at skipped
          simp [isDue, late]
    refine ⟨later, laterMem, named, ?_⟩
    rw [none, since]
    cases marker <;> rfl
  · have occurs : db.occurrenceAt mirror now = some due := by
      unfold occurrenceAt
      rw [found]
      simp [isDue, past]
    refine ⟨_, laterMem, named, ?_⟩
    simp only [leaves.since, idle, Bool.false_eq_true, if_false, occurs,
      ScheduleRuntime.missed, since]
    cases marker <;> rfl

/-- A run of another mirror leaves this one alone. -/
theorem Inserts.elsewhere {run : RunRow} (inserts : db.Inserts run after)
    (different : run.mirrorName ≠ mirror) :
    (db.hasActiveRun mirror = false → after.hasActiveRun mirror = false) ∧
      ∀ schedule ∈ db.schedules, schedule.mirrorName = mirror → schedule ∈ after.schedules := by
  rcases inserts.inserted with ⟨middle, inserted, rfl⟩
  rcases insertRun_eq_ok inserted with ⟨_, _, runs, rfl, members⟩
  constructor
  · intro idle
    rw [hasActiveRun_eq_false] at idle ⊢
    intro other mem named
    rcases (members other).mp mem with oldMem | rfl
    · exact idle other oldMem named
    · exact absurd named different
  · intro schedule mem named
    refine List.mem_map.mpr ⟨schedule, mem, if_neg ?_⟩
    simp only [named, decide_eq_true_eq]
    exact fun same => different same.symm

theorem Waiting.poll {node : String} {action : Option PollAction}
    {compile : DispatchSource → Except StoreError (Option CompiledDispatch)}
    (waiting : db.Waiting vendor mirror marker) (polls : db.Polls node now compile action after)
    (unserved : ∀ source compiled, compile source = .ok (some compiled) →
      source.mirrorName ≠ mirror) : after.Waiting vendor mirror marker := by
  have sound := waiting.sound.polls polls
  have scheduled := waiting.scheduled.pace polls.paces
  cases polls with
  | nothing | cancel => exact waiting
  | redeliver => exact waiting.keep sound scheduled waiting.idle fun _ mem _ => mem
  | @dispatch candidate generation compiled _ staged _ selects _ _ compiles persists =>
      have different : candidate.mirrorName ≠ mirror := unserved _ _ compiles
      have staging : (db.hasActiveRun mirror = false → staged.hasActiveRun mirror = false) ∧
          ∀ schedule ∈ db.schedules, schedule.mirrorName = mirror →
            schedule ∈ staged.schedules := by
        cases selects with
        | manual | retry => exact ⟨fun idle => idle, fun _ mem _ => mem⟩
        | scheduled inserts => exact inserts.elsewhere different
      rcases persistDispatch_eq_ok persists with ⟨_, _, _, _, runs, _⟩
      refine waiting.keep sound scheduled ?_ ?_
      · have idle := hasActiveRun_eq_false.mp (staging.1 waiting.idle)
        rw [hasActiveRun_eq_false]
        intro run mem named
        rcases runs.origin mem with ⟨old, oldMem, rfl⟩
        have follows := old.dispatchedAs_follows (candidate.source generation) compiled.policy
        have ended := idle old oldMem (follows.mirrorName.symm.trans named)
        unfold RunRow.dispatchedAs
        split <;> exact ended
      · rw [(persistDispatch_schedules persists).1]
        exact staging.2

/-- An update with the same owner and schedule hash keeps the schedule row. -/
theorem KeepsSchedule.kept {bundle : CanonicalBundle vendor} {plan : ConfigPlan}
    {baseRevision : ℕ} (keeps : db.KeepsSchedule bundle mirror) (sound : db.Sound)
    (scheduled : db.Scheduled vendor)
    (applied : db.apply bundle baseRevision now = .ok (plan, after)) :
    ∀ schedule ∈ db.schedules, schedule.mirrorName = mirror → schedule ∈ after.schedules := by
  rcases apply_eq_ok applied with ⟨plan, planned, _, enforced, folded⟩
  intro schedule mem named
  rcases apply_local sound planned enforced folded mirror with
    ⟨_, same⟩ | ⟨change, _, rfl, before, next, _, earlier, plannedFor, applies, later⟩
  · exact (same.schedules schedule named).mpr mem
  · rcases keeps with ⟨entry, config, present, enabled, configured, owner, hashed⟩
    have known := (earlier.schedules schedule named).mpr mem
    have hash := hashed schedule mem named
    rcases (scheduled _).fits schedule mem named with ⟨_, ⟨row, _, _, current, managed, wasEnabled, _⟩, _⟩
    rcases currentGeneration_eq_some.mp current with ⟨rowMem, rowNamed, _⟩
    have beforeRow := (earlier.mirrors row rowNamed).mpr rowMem
    have sameOwner := owner row rowMem rowNamed
    refine (later.schedules schedule named).mpr ?_
    rcases applyChange_eq_ok applies with ⟨kind, _⟩ | ⟨kind, other, number, otherPresent, _, upserted⟩
    · cases plannedFor with
      | remove _ _ _ absent =>
          rw [present] at absent
          cases absent
      | create _ _ isCreate =>
          rw [kind] at isCreate
          cases isCreate
      | upsert _ _ _ isUpsert =>
          rw [kind] at isUpsert
          split at isUpsert <;> cases isUpsert
    · have entrySame := Option.some.inj (otherPresent.symm.trans present)
      subst entrySame
      have updates : change.kind = .update := by
        cases plannedFor with
        | remove _ _ _ _ isRemove => exact absurd isRemove kind
        | create fresh => exact absurd rowNamed (fresh row beforeRow)
        | upsert otherMem otherNamed foundPresent isUpsert =>
            have rowSame := Table.eq_of_key_eq otherMem beforeRow (otherNamed.trans rowNamed.symm)
            subst rowSame
            rw [isUpsert, if_neg]
            rintro ⟨_, moved⟩
            rw [Option.some.inj (foundPresent.symm.trans present)] at moved
            exact moved sameOwner.symm
      rcases (applyUpsert_upserts upserted).schedules with ⟨middle, sameSchedules, reconciles⟩
      have middleMem : schedule ∈ middle.schedules := sameSchedules ▸ known
      cases reconciles with
      | dropped unscheduled =>
          rw [unscheduled enabled] at configured
          cases configured
      | kept => exact middleMem
      | reset otherConfigured _ _ _ _ _ resets =>
          have configSame := Option.some.inj (otherConfigured.symm.trans configured)
          subst configSame
          have foundRow : before.mirrors.find? change.mirror = some row :=
            Table.find?_eq_some_iff.mpr ⟨beforeRow, rowNamed⟩
          have foundSchedule : middle.schedules.find? change.mirror = some schedule :=
            Table.find?_eq_some_iff.mpr ⟨middleMem, named⟩
          simp [resetsSchedule, updates, foundRow, managed, wasEnabled, sameOwner, foundSchedule,
            hash] at resets

theorem Waiting.apply {bundle : CanonicalBundle vendor} {plan : ConfigPlan} {baseRevision : ℕ}
    (waiting : db.Waiting vendor mirror marker) (keeps : db.KeepsSchedule bundle mirror)
    (applied : db.apply bundle baseRevision now = .ok (plan, after)) :
    after.Waiting vendor mirror marker := by
  have run : (StoreOp.apply bundle baseRevision now).run db = after := by
    simp only [StoreOp.run, applied, committed]
  have sound : after.Sound := run ▸ waiting.sound.step (.apply bundle baseRevision now)
  have scheduled : after.Scheduled vendor :=
    run ▸ waiting.scheduled.step waiting.sound (.apply bundle baseRevision now)
  refine waiting.keep sound scheduled ?_ (keeps.kept waiting.sound waiting.scheduled applied)
  rcases apply_eq_ok applied with ⟨_, _, _, _, folded⟩
  have idle := hasActiveRun_eq_false.mp waiting.idle
  rw [hasActiveRun_eq_false]
  intro later mem named
  rcases (configSteps_runs (apply_steps folded)).origin mem with ⟨old, oldMem, follows⟩
  have ended := idle old oldMem (follows.mirrorName.symm.trans named)
  cases active : later.state.isActive with
  | false => rfl
  | true =>
      rw [follows.active active] at ended
      cases ended

theorem Waiting.step {occurrence : Option ℤ} (waiting : db.Waiting vendor mirror marker)
    (waits : db.Waits vendor mirror occurrence after) :
    after.Waiting vendor mirror (marker.toList ++ occurrence.toList).min? := by
  have unmarked : (marker.toList ++ (none : Option ℤ).toList).min? = marker := by
    cases marker <;> rfl
  cases waits with
  | ticked evaluated => exact waiting.tick evaluated
  | polled polled unserved =>
      rw [unmarked]
      exact waiting.poll (pollAction_eq_ok polled) unserved
  | applied applied keeps =>
      rw [unmarked]
      exact waiting.apply keeps applied
  | failed =>
      rw [unmarked]
      exact waiting

/-- The earliest of a list, found in two parts. -/
theorem min?_toList_append (marker occurrence : Option ℤ) (rest : List ℤ) :
    ((marker.toList ++ occurrence.toList).min?.toList ++ rest).min? =
      (marker.toList ++ (occurrence.toList ++ rest)).min? := by
  cases marker <;> cases occurrence <;> rfl

theorem Waiting.through {occurrences : List ℤ} (waiting : db.Waiting vendor mirror marker)
    (history : WaitsThrough vendor mirror db occurrences after) :
    after.Waiting vendor mirror (marker.toList ++ occurrences).min? := by
  induction history generalizing marker with
  | refl db =>
      have same : (marker.toList ++ []).min? = marker := by cases marker <;> rfl
      rw [same]
      exact waiting
  | step waits _ ih =>
      rw [← min?_toList_append]
      exact ih (waiting.step waits)

end Steps

/-- A dispatch that creates a run for the due marker of a mirror. -/
structure ServesMarker (db after : Database) (mirror : String) (runId : String) (attemptNo : ℕ)
    (instant : Option ℤ) (run : RunRow) : Prop where
  id : run.id = runId
  mirrorName : run.mirrorName = mirror
  trigger : run.trigger = .scheduled
  scheduledFor : run.scheduledForAtMs = instant
  due : instant.isSome = true
  generation : ∃ row ∈ db.mirrors, row.name = mirror ∧ run.mirrorGeneration = row.currentGeneration
  first : attemptNo = 1
  -- exactly one run and one attempt are new
  fresh : ∀ other ∈ db.runs, other.id ≠ run.id
  runs : ∀ other, other ∈ after.runs ↔ other ∈ db.runs ∨ other = run
  attempts : ∃ attempt : AttemptRow, attempt.key = (runId, attemptNo) ∧
    ∀ other, other ∈ after.attempts ↔ other ∈ db.attempts ∨ other = attempt
  cleared : ∀ schedule ∈ after.schedules, schedule.mirrorName = mirror →
    schedule.runtime.catchUpPending = false ∧ schedule.runtime.catchUpSinceMs = none

section Service

variable {vendor : Vendor} {db after : Database} {mirror node : String} {marker : Option ℤ}
  {now : ℤ} {compile : DispatchSource → Except StoreError (Option CompiledDispatch)}

/-- An inserted run takes the marker away. -/
theorem Inserts.cleared {run : RunRow} (inserts : db.Inserts run after) :
    ∀ schedule ∈ after.schedules, schedule.mirrorName = run.mirrorName →
      schedule.runtime.catchUpPending = false ∧ schedule.runtime.catchUpSinceMs = none := by
  rcases inserts.inserted with ⟨middle, _, rfl⟩
  intro schedule mem named
  rcases Table.mem_of_map rfl mem with ⟨old, _, rfl⟩
  split
  · exact ⟨rfl, rfl⟩
  next foreign =>
    rw [if_neg foreign] at named
    simp [named] at foreign

/-- Whatever is started for an idle mirror is a new run for its marker. -/
theorem Waiting.served {runId specHash : String} {attemptNo : ℕ} {spec : ProcessRunSpec}
    (waiting : db.Waiting vendor mirror marker)
    (polls : db.Polls node now compile
      (some (.startAttempt runId attemptNo mirror specHash spec)) after) :
    ∃ run, db.ServesMarker after mirror runId attemptNo marker run := by
  have idle := hasActiveRun_eq_false.mp waiting.idle
  generalize answered : some (PollAction.startAttempt runId attemptNo mirror specHash spec) =
    answer at polls
  cases polls with
  | nothing | cancel => cases answered
  | @redeliver attempt run mem _ runMem _ active =>
      simp only [Option.some.injEq, PollAction.startAttempt.injEq] at answered
      rw [idle run runMem answered.2.2.1.symm] at active
      cases active
  | @dispatch candidate generation compiled _ staged _ selects _ _ _ persists =>
      rcases persistDispatch_eq_ok persists with ⟨_, started, _, _, runs, attempts⟩
      rw [started] at answered
      simp only [Option.some.injEq, PollAction.startAttempt.injEq] at answered
      rcases answered with ⟨rfl, rfl, rfl, _⟩
      cases selects with
      | @manual run mem pending =>
          have ended := idle run mem rfl
          rw [pending] at ended
          cases ended
      | @retry run mem running =>
          have ended := idle run mem rfl
          rw [running] at ended
          cases ended
      | @scheduled run staged inserts trigger owner due =>
          rcases due with ⟨schedule, scheduleMem, named, pending, since⟩
          rcases waiting.row with ⟨known, knownMem, knownNamed, knownSince⟩
          have same := Table.eq_of_key_eq scheduleMem knownMem (named.trans knownNamed.symm)
          subst same
          rcases inserts.runs with ⟨fresh, sameAttempts, _, members⟩
          rcases inserts.mirror with ⟨row, rowMem, _, _, rowNamed, current, _⟩
          have follows := run.dispatchedAs_follows
            (DispatchCandidate.source ⟨run.id, run.mirrorName, run.mirrorGeneration, 1⟩ generation)
            compiled.policy
          refine ⟨run.dispatchedAs (DispatchCandidate.source
            ⟨run.id, run.mirrorName, run.mirrorGeneration, 1⟩ generation) compiled.policy, {
              id := follows.id
              mirrorName := follows.mirrorName
              trigger := ?_
              scheduledFor := ?_
              due := ?_
              generation := ⟨row, rowMem, rowNamed.symm, follows.mirrorGeneration.trans current⟩
              first := rfl
              fresh := ?_
              runs := ?_
              attempts := ?_
              cleared := ?_ }⟩
          · unfold RunRow.dispatchedAs
            split <;> exact trigger
          · rw [← knownSince, ← since]
            unfold RunRow.dispatchedAs
            split <;> rfl
          · rw [← knownSince]
            exact ((waiting.scheduled _).marked schedule scheduleMem rfl).mp pending
          · rw [follows.id]
            exact fresh
          · intro other
            constructor
            · intro mem
              rcases runs.origin mem with ⟨old, oldMem, rfl⟩
              rcases (members old).mp oldMem with known | rfl
              · left
                rw [RunRow.dispatchedAs_of_ne (fresh old known)]
                exact known
              · exact .inr rfl
            · rintro (known | rfl)
              · rcases runs.successor ((members other).mpr (.inl known)) with ⟨new, newMem, rfl⟩
                rw [RunRow.dispatchedAs_of_ne (fresh other known)] at newMem
                exact newMem
              · rcases runs.successor ((members run).mpr (.inr rfl)) with ⟨new, newMem, rfl⟩
                exact newMem
          · refine ⟨.dispatched (DispatchCandidate.source
              ⟨run.id, run.mirrorName, run.mirrorGeneration, 1⟩ generation) compiled now, rfl, ?_⟩
            intro other
            rw [attempts, sameAttempts]
          · rw [(persistDispatch_schedules persists).1]
            exact inserts.cleared

/-- A poll whose candidate cannot be compiled leaves the store as it was. -/
theorem committed_of_uncompiled {newRunId : String} (quiet : db.findRedelivery node = none)
    (uncompiled : ∀ candidate staged,
      db.selectCandidate node now newRunId = .ok (some (candidate, staged)) →
        ∀ generation compiled, compile (candidate.source generation) ≠ .ok (some compiled)) :
    committed db (db.pollAction node now newRunId compile) = db := by
  unfold pollAction
  cases db.findCancellation node with
  | some action => rfl
  | none =>
      simp only [quiet]
      split
      · rfl
      · cases selected : db.selectCandidate node now newRunId with
        | error reason => rfl
        | ok outcome =>
            cases outcome with
            | none => rfl
            | some chosen =>
                rcases chosen with ⟨candidate, staged⟩
                simp only [dispatch]
                cases staged.generations.find? (candidate.mirrorName, candidate.generation) with
                | none => rfl
                | some generation =>
                    have fails := uncompiled candidate staged selected generation
                    unfold DispatchCandidate.source at fails
                    simp only
                    split
                    · rfl
                    · rfl
                    next compiled compiles => exact absurd compiles (fails compiled)

end Service

end Database

/--
A mirror that is idle and unmarked waits through any history of ticks, of polls
that do not compile it and of configuration updates that keep it. Its marker is
then the earliest occurrence that was evaluated; what is started for it next is
one new run for that instant, of its current generation, with attempt 1, and the
marker is gone; and a poll whose candidate cannot be compiled changes nothing.
-/
theorem due_marker_coalesces {vendor : Vendor} {db after : Database} {mirror : String}
    {schedule : ScheduleRow} {occurrences : List ℤ} (reached : LifeReachable vendor db)
    (mem : schedule ∈ db.schedules) (named : schedule.mirrorName = mirror)
    (unmarked : schedule.runtime.catchUpSinceMs = none) (idle : db.hasActiveRun mirror = false)
    (history : Database.WaitsThrough vendor mirror db occurrences after) :
    (∃ later ∈ after.schedules, later.mirrorName = mirror ∧
      later.runtime.catchUpSinceMs = occurrences.min? ∧
      later.runtime.catchUpPending = occurrences.min?.isSome) ∧
    (∀ node now newRunId compile runId attemptNo specHash spec served,
      after.pollAction node now newRunId compile =
        .ok (some (.startAttempt runId attemptNo mirror specHash spec), served) →
          ∃ run, after.ServesMarker served mirror runId attemptNo occurrences.min? run) ∧
    ∀ node now newRunId compile, after.findRedelivery node = none →
      (∀ candidate staged,
        after.selectCandidate node now newRunId = .ok (some (candidate, staged)) →
          ∀ generation compiled, compile (candidate.source generation) ≠ .ok (some compiled)) →
        committed after (after.pollAction node now newRunId compile) = after := by
  have waiting : db.Waiting vendor mirror none :=
    ⟨reached.sound, reached.scheduled, idle, schedule, mem, named, unmarked⟩
  have waited : after.Waiting vendor mirror occurrences.min? := waiting.through history
  refine ⟨?_, ?_, ?_⟩
  · rcases waited.row with ⟨later, laterMem, laterNamed, since⟩
    refine ⟨later, laterMem, laterNamed, since, ?_⟩
    have marked := (waited.scheduled _).marked later laterMem rfl
    rw [Bool.eq_iff_iff, ← since]
    exact marked
  · intro node now newRunId compile runId attemptNo specHash spec served polled
    exact waited.served (Database.pollAction_eq_ok polled)
  · intro node now newRunId compile quiet uncompiled
    exact Database.committed_of_uncompiled quiet uncompiled

namespace Sample

/-- The mirror is configured. -/
def cronStart : Database := StoreOp.runAll .empty [.apply (deltaBundle nodeA) 0 1000]

/-- A full hour has passed without a poll. -/
def cronLate : Database := (StoreOp.evaluateDueSchedules 3601000 : StoreOp cronVendor).run cronStart

/-- Another full hour has passed. -/
def cronLater : Database := (StoreOp.evaluateDueSchedules 7300000 : StoreOp cronVendor).run cronLate

theorem waits_tick {db : Database} {now : ℤ}
    (succeeds : (db.evaluateDueSchedules now (evaluateSource cronVendor now)).isOk = true) :
    db.Waits cronVendor "delta" (db.occurrenceAt "delta" now)
      ((StoreOp.evaluateDueSchedules now : StoreOp cronVendor).run db) := by
  simp only [StoreOp.run]
  cases evaluated : db.evaluateDueSchedules now (evaluateSource cronVendor now) with
  | error reason => simp [evaluated, Except.isOk, Except.toBool] at succeeds
  | ok outcome => exact .ticked evaluated

end Sample

theorem due_marker_coalesces_missed :
    ∃ later ∈ Sample.cronLater.schedules, later.mirrorName = "delta" ∧
      later.runtime.catchUpSinceMs = some 3600000 ∧ later.runtime.catchUpPending = true := by
  have reached : LifeReachable Sample.cronVendor Sample.cronStart := StoreOp.lifeSteps_runAll _ _
  have row : Sample.cronStart.schedules.any (fun schedule =>
      decide (schedule.mirrorName = "delta") &&
        decide (schedule.runtime.catchUpSinceMs = none)) = true := by decide +kernel
  simp only [Table.any_eq_true, Bool.and_eq_true, decide_eq_true_eq] at row
  rcases row with ⟨schedule, mem, named, unmarked⟩
  have idle : Sample.cronStart.hasActiveRun "delta" = false := by decide +kernel
  have first : Sample.cronStart.Waits Sample.cronVendor "delta" (some 3600000) Sample.cronLate := by
    have occurs : Sample.cronStart.occurrenceAt "delta" 3601000 = some 3600000 := by decide +kernel
    rw [← occurs]
    exact Sample.waits_tick (by decide +kernel)
  have second : Sample.cronLate.Waits Sample.cronVendor "delta" (some 7200000)
      Sample.cronLater := by
    have occurs : Sample.cronLate.occurrenceAt "delta" 7300000 = some 7200000 := by decide +kernel
    rw [← occurs]
    exact Sample.waits_tick (by decide +kernel)
  exact (due_marker_coalesces reached mem named unmarked idle
    (.step first (.step second (.refl _)))).1

end LzuMirror
