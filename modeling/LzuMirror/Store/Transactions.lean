import LzuMirror.Store.Services

/-!
# What a committed transaction did

One inversion lemma for each operation of the store: given that the operation
succeeded, what it had found in the database and how the database it leaves is
made from the one it started with. The invariants of the later modules are
derived from these lemmas and do not unfold the operations again.

A configuration change is described by `ConfigStep`, the five elementary updates
that `Store::apply` is composed of.
-/

namespace LzuMirror

/-! ## Applying a bundle -/

section Plan

variable {vendor : Vendor} {bundle : CanonicalBundle vendor}

theorem CanonicalBundle.get?_eq_some {name : String} {mirror : CanonicalMirror}
    (found : bundle.get? name = some mirror) :
    ∃ mirrorName : MirrorName, mirrorName.value = name ∧ (mirrorName, mirror) ∈ bundle.mirrors := by
  obtain ⟨⟨mirrorName, entry⟩, foundEntry, rfl⟩ := Option.map_eq_some_iff.mp found
  exact ⟨mirrorName, by simpa using List.find?_some foundEntry,
    List.mem_of_find?_eq_some foundEntry⟩

/-- A row with its current generation, as the planner sees it. -/
theorem mem_currentMirrors {db : Database} {row : MirrorRow} {generation : GenerationRow} :
    (row, generation) ∈ db.currentMirrors ↔
      row ∈ db.mirrors ∧
        db.generations.find? (row.name, row.currentGeneration) = some generation := by
  simp only [Database.currentMirrors, List.mem_filterMap, Option.map_eq_some_iff,
    Prod.mk.injEq]
  constructor
  · rintro ⟨_, rowMem, _, found, rfl, rfl⟩
    exact ⟨rowMem, found⟩
  · rintro ⟨rowMem, found⟩
    exact ⟨row, rowMem, generation, found, rfl, rfl⟩

theorem plannedChanges_eq_ok {current : List (MirrorRow × GenerationRow)}
    {changes : List ConfigChange} (planned : plannedChanges bundle current = .ok changes) :
    (∀ entry ∈ current, ∃ change, plannedChange bundle entry.1 entry.2 = .ok change) ∧
      ∀ change, change ∈ changes ↔
        ∃ entry ∈ current, plannedChange bundle entry.1 entry.2 = .ok (some change) := by
  induction current generalizing changes with
  | nil =>
      cases planned
      simp
  | cons entry rest ih =>
      obtain ⟨row, generation⟩ := entry
      simp only [plannedChanges] at planned
      cases headPlanned : plannedChange bundle row generation with
      | error reason => rw [headPlanned] at planned; cases planned
      | ok head =>
          rw [headPlanned] at planned
          cases restPlanned : plannedChanges bundle rest with
          | error reason => rw [restPlanned] at planned; cases planned
          | ok others =>
              rw [restPlanned] at planned
              cases planned
              have ⟨restTotal, restMem⟩ := ih restPlanned
              refine ⟨?_, ?_⟩
              · intro entry mem
                rcases List.mem_cons.mp mem with rfl | later
                · exact ⟨head, headPlanned⟩
                · exact restTotal entry later
              · intro change
                rw [List.mem_append, restMem]
                simp [headPlanned]

/-- Where the changes of a plan come from. -/
theorem mem_plan_changes {db : Database} {plan : ConfigPlan}
    (planned : planWithConnection db bundle = .ok plan) :
    plan.baseRevision = db.revision ∧
      (∀ entry ∈ db.currentMirrors,
        ∃ change, plannedChange bundle entry.1 entry.2 = .ok change) ∧
      ∀ change, change ∈ plan.changes ↔
        (∃ entry ∈ db.currentMirrors, plannedChange bundle entry.1 entry.2 = .ok (some change)) ∨
          change ∈ createdChanges bundle db.currentMirrors := by
  unfold planWithConnection at planned
  cases changed : plannedChanges bundle db.currentMirrors with
  | error reason => rw [changed] at planned; cases planned
  | ok changes =>
      rw [changed] at planned
      cases planned
      have ⟨total, members⟩ := plannedChanges_eq_ok changed
      refine ⟨rfl, total, ?_⟩
      intro change
      simp only [List.mem_insertionSort, List.mem_append, members]

/-- The changes that can be planned for a row that exists. -/
inductive RowChange (bundle : CanonicalBundle vendor) (row : MirrorRow)
    (generation : GenerationRow) : Option ConfigChange → Prop where
  | remove {change : ConfigChange} (absent : bundle.get? row.name = none)
      (managed : row.managed = true) (kind : change.kind = .remove)
      (mirror : change.mirror = row.name) : RowChange bundle row generation (some change)
  | forgotten (absent : bundle.get? row.name = none) (unmanaged : row.managed = false) :
      RowChange bundle row generation none
  | same {next : CanonicalMirror} (present : bundle.get? row.name = some next)
      (managed : row.managed = true) (hash : next.configHash = generation.configHash)
      (owner : next.ownerNode.value = row.ownerNode) : RowChange bundle row generation none
  | upsert {change : ConfigChange} {next : CanonicalMirror}
      (present : bundle.get? row.name = some next)
      (kind : change.kind =
        if row.managed ∧ next.ownerNode.value ≠ row.ownerNode then .move else .update)
      (mirror : change.mirror = row.name)
      (toGeneration : change.toGeneration = some (row.currentGeneration + 1)) :
      RowChange bundle row generation (some change)

theorem plannedChange_eq_ok {row : MirrorRow} {generation : GenerationRow}
    {change : Option ConfigChange} (planned : plannedChange bundle row generation = .ok change) :
    RowChange bundle row generation change := by
  unfold plannedChange at planned
  split at planned
  · cases planned
  · split at planned
    next absent =>
      cases planned
      cases managed : row.managed with
      | true => exact .remove absent managed rfl rfl
      | false => exact .forgotten absent managed
    next next present =>
      split at planned
      next changed =>
        cases publication : publicationChange vendor generation.configToml next.document with
        | error reason => rw [publication] at planned; cases planned
        | ok publicationChange =>
            rw [publication] at planned
            cases planned
            exact .upsert present rfl rfl rfl
      next unchanged =>
        cases planned
        simp only [not_or, Bool.not_eq_false, ne_eq, not_not] at unchanged
        exact .same present unchanged.1 unchanged.2.1 unchanged.2.2

theorem mem_createdChanges {current : List (MirrorRow × GenerationRow)} {change : ConfigChange}
    (created : change ∈ createdChanges bundle current) :
    (∀ entry ∈ current, entry.1.name ≠ change.mirror) ∧ change.kind = .create ∧
      change.toGeneration = some 1 := by
  simp only [createdChanges, List.mem_filterMap] at created
  obtain ⟨⟨name, mirror⟩, _, planned⟩ := created
  simp only at planned
  split at planned
  · cases planned
  next unknown =>
    cases planned
    simpa using unknown

/-- A move or a change of publication mode found the mirror without an active run. -/
theorem quiescent_of_enforce {db : Database} {changes : List ConfigChange}
    (enforced : enforceQuiescentHighImpactChanges db changes = .ok ()) {change : ConfigChange}
    (mem : change ∈ changes) (highImpact : change.kind = .move ∨ change.publicationChange ≠ none) :
    db.hasActiveRun change.mirror = false := by
  induction changes with
  | nil => cases mem
  | cons head rest ih =>
      simp only [enforceQuiescentHighImpactChanges] at enforced
      split at enforced
      next lowImpact =>
        rcases List.mem_cons.mp mem with rfl | later
        · rcases highImpact with moved | republished
          · exact absurd moved lowImpact.1
          · exact absurd lowImpact.2 republished
        · exact ih enforced later
      next =>
        split at enforced
        · cases enforced
        next quiet =>
          rcases List.mem_cons.mp mem with rfl | later
          · rw [Database.hasActiveRun, Table.any_eq_false]
            exact Table.first_eq_none.mp quiet
          · exact ih enforced later

end Plan

/-- The elementary updates that `Store::apply` is composed of. -/
inductive ConfigStep {vendor : Vendor} (bundle : CanonicalBundle vendor)
    (changes : List ConfigChange) : Database → Database → Prop where
  | bookkeeping {db : Database} (revision : ℕ) (schedules : Table ScheduleRow.mirrorName) :
      ConfigStep bundle changes db { db with revision, schedules }
  | unmanage {db : Database} (change : ConfigChange) (mem : change ∈ changes)
      (kind : change.kind = .remove) (now : ℤ) :
      ConfigStep bundle changes db { db with
        mirrors := db.mirrors.update (fun row => row.name = change.mirror)
          (fun row => { row with managed := false, removedAtMs := some now }) }
  | upsert {db : Database} {change : ConfigChange} {mirror : CanonicalMirror}
      {generation revision : ℕ} {now : ℤ} {generations : Table GenerationRow.key}
      (mem : change ∈ changes) (kind : change.kind ≠ .remove)
      (present : bundle.get? change.mirror = some mirror)
      (toGeneration : change.toGeneration = some generation)
      (inserted : db.generations.insert? {
        mirrorName := change.mirror
        generation
        configRevision := revision
        ownerNode := mirror.ownerNode.value
        configHash := mirror.configHash
        configToml := mirror.canonicalToml
        createdAtMs := now } = some generations) :
      ConfigStep bundle changes db { db with
        generations
        mirrors := db.mirrors.put {
          name := change.mirror
          managed := true
          enabled := mirror.document.mirror.enabled
          ownerNode := mirror.ownerNode.value
          currentGeneration := generation
          removedAtMs := none } }
  | cancelPending {db : Database} (mirror : String) (now : ℤ) :
      ConfigStep bundle changes db (cancelUndispatchedPending db mirror now)
  | finalizeRetries {db : Database} (mirror : String) (now : ℤ) :
      ConfigStep bundle changes db (finalizeIneligibleRetries db mirror now)

section Apply

variable {vendor : Vendor} {bundle : CanonicalBundle vendor} {changes : List ConfigChange}

theorem settleRuns_generations (db : Database) (generations : Table GenerationRow.key)
    (change : ConfigChange) (enabled : Bool) (now : ℤ) :
    { settleRuns db change enabled now with generations } =
      settleRuns { db with generations } change enabled now := by
  unfold settleRuns
  split
  · rfl
  · split <;> rfl

theorem settleRuns_steps (db : Database) (change : ConfigChange) (enabled : Bool) (now : ℤ) :
    Relation.ReflTransGen (ConfigStep bundle changes) db (settleRuns db change enabled now) := by
  unfold settleRuns
  split
  · exact .tail (.single (.cancelPending change.mirror now)) (.finalizeRetries change.mirror now)
  · split
    · exact .single (.finalizeRetries change.mirror now)
    · exact .refl

theorem reconcileSchedule_eq_ok {db after : Database} {change : ConfigChange}
    {document : MirrorDocument} {ownerNode : String} {previous : Option MirrorRow} {now : ℤ}
    (reconciled :
      reconcileSchedule vendor db change document ownerNode previous now = .ok after) :
    ∃ schedules, after = { db with schedules } := by
  unfold reconcileSchedule at reconciled
  split at reconciled
  · cases reconciled
    exact ⟨_, rfl⟩
  · simp only at reconciled
    split at reconciled
    · split at reconciled
      · cases reconciled
      · cases reconciled
        exact ⟨_, rfl⟩
    · cases reconciled
      exact ⟨_, rfl⟩

theorem settleRuns_configuration (db : Database) (change : ConfigChange) (enabled : Bool)
    (now : ℤ) : (settleRuns db change enabled now).generations = db.generations ∧
      (settleRuns db change enabled now).mirrors = db.mirrors := by
  unfold settleRuns
  split
  · exact ⟨rfl, rfl⟩
  · split <;> exact ⟨rfl, rfl⟩

/-- What the `Create | Update | Move` arm stores about its mirror. -/
theorem applyUpsert_configuration {db after : Database} {change : ConfigChange}
    {mirror : CanonicalMirror} {generation revision : ℕ} {now : ℤ}
    (upserted : applyUpsert vendor db change mirror generation revision now = .ok after) :
    after.mirrors = db.mirrors.put {
        name := change.mirror
        managed := true
        enabled := mirror.document.mirror.enabled
        ownerNode := mirror.ownerNode.value
        currentGeneration := generation
        removedAtMs := none } ∧
      ∀ stored, stored ∈ after.generations ↔ stored ∈ db.generations ∨ stored = {
        mirrorName := change.mirror
        generation
        configRevision := revision
        ownerNode := mirror.ownerNode.value
        configHash := mirror.configHash
        configToml := mirror.canonicalToml
        createdAtMs := now } := by
  unfold applyUpsert at upserted
  simp only at upserted
  split at upserted
  · cases upserted
  next generations inserted =>
    obtain ⟨schedules, rfl⟩ := reconcileSchedule_eq_ok upserted
    refine ⟨(settleRuns_configuration _ change _ now).2, ?_⟩
    intro stored
    rw [(Table.insert?_eq_some inserted).2, (settleRuns_configuration _ change _ now).1]

theorem applyUpsert_steps {db after : Database} {change : ConfigChange}
    {mirror : CanonicalMirror} {generation revision : ℕ} {now : ℤ} (mem : change ∈ changes)
    (kind : change.kind ≠ .remove) (present : bundle.get? change.mirror = some mirror)
    (toGeneration : change.toGeneration = some generation)
    (upserted : applyUpsert vendor db change mirror generation revision now = .ok after) :
    Relation.ReflTransGen (ConfigStep bundle changes) db after := by
  unfold applyUpsert at upserted
  simp only at upserted
  split at upserted
  · cases upserted
  next generations inserted =>
    rw [settleRuns_generations] at upserted
    obtain ⟨schedules, rfl⟩ := reconcileSchedule_eq_ok upserted
    rw [(settleRuns_configuration _ _ _ _).1] at inserted
    exact ((settleRuns_steps _ _ _ _).head
      (.upsert mem kind present toGeneration inserted)).tail (.bookkeeping _ schedules)

/-- A change is a removal, or it stores an entry of the bundle. -/
theorem applyChange_eq_ok {db after : Database} {change : ConfigChange} {revision : ℕ} {now : ℤ}
    (applied : applyChange bundle revision now db change = .ok after) :
    change.kind = .remove ∧ after = applyRemove db change.mirror now ∨
      change.kind ≠ .remove ∧ ∃ entry number, bundle.get? change.mirror = some entry ∧
        change.toGeneration = some number ∧
          applyUpsert vendor db change entry number revision now = .ok after := by
  unfold applyChange at applied
  cases kind : change.kind with
  | remove =>
      rw [kind] at applied
      cases applied
      exact .inl ⟨rfl, rfl⟩
  | create | update | move =>
      simp only [kind] at applied
      split at applied
      next entry number present toGeneration =>
        exact .inr ⟨by simp, entry, number, present, toGeneration, applied⟩
      next => cases applied

theorem applyChange_steps {db after : Database} {change : ConfigChange} {revision : ℕ} {now : ℤ}
    (mem : change ∈ changes) (applied : applyChange bundle revision now db change = .ok after) :
    Relation.ReflTransGen (ConfigStep bundle changes) db after := by
  rcases applyChange_eq_ok applied with
    ⟨kind, rfl⟩ | ⟨kind, entry, number, present, toGeneration, upserted⟩
  · exact (((Relation.ReflTransGen.single (.unmanage change mem kind now)).tail
      (.cancelPending change.mirror now)).tail (.finalizeRetries change.mirror now)).tail
        (.bookkeeping db.revision _)
  · exact applyUpsert_steps mem kind present toGeneration upserted

theorem applyChanges_steps {db after : Database} {pending : List ConfigChange} {revision : ℕ}
    {now : ℤ} (subset : ∀ change ∈ pending, change ∈ changes)
    (applied : pending.foldlM (applyChange bundle revision now) db = .ok after) :
    Relation.ReflTransGen (ConfigStep bundle changes) db after := by
  induction pending generalizing db with
  | nil =>
      cases applied
      exact .refl
  | cons change rest ih =>
      rw [List.foldlM_cons] at applied
      cases first : applyChange bundle revision now db change with
      | error reason => rw [first] at applied; cases applied
      | ok middle =>
          rw [first] at applied
          exact (applyChange_steps (subset change List.mem_cons_self) first).trans
            (ih (fun later mem => subset later (List.mem_cons_of_mem _ mem)) applied)

/-- A successful `apply`: a guarded plan for the current revision, and its changes in order. -/
theorem Database.apply_eq_ok {db after : Database} {baseRevision : ℕ} {now : ℤ}
    {result : ConfigPlan} (applied : db.apply bundle baseRevision now = .ok (result, after)) :
    ∃ plan, planWithConnection db bundle = .ok plan ∧ baseRevision = db.revision ∧
      enforceQuiescentHighImpactChanges db plan.changes = .ok () ∧
      plan.changes.foldlM (applyChange bundle (db.revision + 1) now)
        { db with revision := db.revision + 1 } = .ok after := by
  unfold Database.apply at applied
  cases planned : planWithConnection db bundle with
  | error reason => rw [planned] at applied; cases applied
  | ok plan =>
      rw [planned] at applied
      have revision := (mem_plan_changes planned).1
      by_cases current : plan.baseRevision = baseRevision
      · cases enforced : enforceQuiescentHighImpactChanges db plan.changes with
        | error reason => simp [current, enforced, bind, Except.bind] at applied
        | ok _ =>
            cases folded : plan.changes.foldlM (applyChange bundle (db.revision + 1) now)
                { db with revision := db.revision + 1 } with
            | error reason => simp [current, enforced, folded, bind, Except.bind] at applied
            | ok final =>
                refine ⟨plan, rfl, by rw [← current, revision], enforced, ?_⟩
                simp [current, enforced, folded, bind, Except.bind, pure, Except.pure] at applied
                rw [folded, applied.2]
      · simp [current, bind, Except.bind] at applied

/-- A successful `apply` is a sequence of elementary updates. -/
theorem Database.apply_steps {db after : Database} {plan : ConfigPlan} {now : ℤ}
    (applied : plan.changes.foldlM (applyChange bundle (db.revision + 1) now)
      { db with revision := db.revision + 1 } = .ok after) :
    Relation.ReflTransGen (ConfigStep bundle plan.changes) db after :=
  (applyChanges_steps (fun _ mem => mem) applied).head (.bookkeeping _ db.schedules)

end Apply

/-! ## Runs and dispatches -/

/-- A run that a transaction inserts: of a managed, enabled mirror, for its current generation. -/
structure Database.Inserts (db : Database) (run : RunRow) (staged : Database) : Prop where
  inserted : ∃ middle, db.insertRun run = .ok middle ∧ staged = middle.clearDueMarker run.mirrorName
  mirror : ∃ row ∈ db.mirrors, row.managed = true ∧ row.enabled = true ∧
    run.mirrorName = row.name ∧ run.mirrorGeneration = row.currentGeneration ∧
      run.ownerNode = row.ownerNode
  pending : run.state = .pending
  unattempted : run.attemptCount = 0
  unscheduled : run.retryDueAtMs = none
  unended : run.finishedAtMs = none
  uncancelled : run.cancelRequestedAtMs = none

/-- A new manual run: its policy is the one of its generation. -/
structure Database.CreatesManual (db : Database)
    (policy : String → Except StoreError RunPolicySnapshot) (run : RunRow) (after : Database) :
    Prop where
  inserts : db.Inserts run after
  trigger : run.trigger = .manual
  policed : ∃ generation ∈ db.generations,
    generation.key = (run.mirrorName, run.mirrorGeneration) ∧
      policy generation.configToml = .ok ⟨run.maxAttempts, run.retryDelayMs⟩

theorem Database.createManualRun_eq_ok {db after : Database} {mirror requestId newRunId : String}
    {now : ℤ} {policy : String → Except StoreError RunPolicySnapshot} {run : RunRow}
    (created : db.createManualRun mirror requestId now newRunId policy = .ok (run, after)) :
    after = db ∨ db.CreatesManual policy run after := by
  unfold Database.createManualRun at created
  split at created
  · split at created
    · cases created
      exact .inl rfl
    · cases created
  · split at created
    · cases created
    next row generation current =>
      have ⟨rowMem, named, generationMem, mirrorKey, generationKey⟩ :=
        Database.currentGeneration_eq_some.mp current
      split at created
      · cases created
      next eligible =>
        simp only [not_or, Bool.not_eq_false] at eligible
        split at created
        · cases created
        · cases compiled : policy generation.configToml with
          | error reason => rw [compiled] at created; cases created
          | ok snapshot =>
              rw [compiled] at created
              simp only [bind, Except.bind] at created
              split at created
              · cases created
              next middle inserted =>
                cases created
                refine .inr ⟨⟨⟨middle, inserted, rfl⟩, ?_, rfl, rfl, rfl, rfl, rfl⟩, rfl, ?_⟩
                · exact ⟨row, rowMem, eligible.1, eligible.2, named.symm, rfl, rfl⟩
                · exact ⟨generation, generationMem, Prod.ext mirrorKey generationKey, compiled⟩

/-- What `poll_action` may dispatch, and the database that holds the run. -/
inductive Database.Selects (db : Database) (node : String) :
    DispatchCandidate → Database → Prop where
  | manual {run : RunRow} (mem : run ∈ db.runs) (pending : run.state = .pending)
      (trigger : run.trigger = .manual) (owner : run.ownerNode = node)
      (unattempted : ∀ attempt ∈ db.attempts, attempt.runId ≠ run.id)
      (eligible : db.mirrorOf run (fun mirror => mirror.managed && mirror.enabled) = true) :
      Selects db node ⟨run.id, run.mirrorName, run.mirrorGeneration, 1⟩ db
  | retry {run : RunRow} (mem : run ∈ db.runs) (running : run.state = .running)
      (due : run.retryDueAtMs.isSome = true) (within : run.attemptCount < run.maxAttempts)
      (owner : run.ownerNode = node) (uncancelled : run.cancelRequestedAtMs = none)
      (eligible : db.mirrorOf run (fun mirror =>
        mirror.managed && mirror.enabled && decide (mirror.ownerNode = run.ownerNode)) = true) :
      Selects db node ⟨run.id, run.mirrorName, run.mirrorGeneration, run.attemptCount + 1⟩ db
  | scheduled {run : RunRow} {staged : Database} (inserts : db.Inserts run staged)
      (trigger : run.trigger = .scheduled) (owner : run.ownerNode = node)
      (due : ∃ schedule ∈ db.schedules, schedule.mirrorName = run.mirrorName ∧
        schedule.runtime.catchUpPending = true ∧
        run.scheduledForAtMs = schedule.runtime.catchUpSinceMs) :
      Selects db node ⟨run.id, run.mirrorName, run.mirrorGeneration, 1⟩ staged

theorem Database.selectCandidate_eq_ok {db staged : Database} {node newRunId : String} {now : ℤ}
    {candidate : DispatchCandidate}
    (selected : db.selectCandidate node now newRunId = .ok (some (candidate, staged))) :
    db.Selects node candidate staged := by
  unfold Database.selectCandidate at selected
  split at selected
  next run found =>
    cases selected
    rcases Table.first_eq_some found with ⟨mem, matched⟩
    simp only [Bool.and_eq_true, decide_eq_true_eq, Bool.not_eq_true', Table.any_eq_false,
      decide_eq_false_iff_not] at matched
    exact .manual mem matched.1.1.1.2 matched.1.1.2 matched.1.1.1.1 matched.2 matched.1.2
  next =>
    split at selected
    next run found =>
      cases selected
      rcases Table.first_eq_some found with ⟨mem, matched⟩
      simp only [Bool.and_eq_true, decide_eq_true_eq, Option.isNone_iff_eq_none] at matched
      refine .retry mem matched.1.1.1.1.2 ?_ matched.2 matched.1.1.1.1.1 matched.1.1.2 matched.1.2
      exact Option.isSome_of_any matched.1.1.1.2
    next =>
      unfold Database.materializeScheduledCandidate at selected
      split at selected
      · cases selected
      next schedule found =>
        rcases Table.first_eq_some found with ⟨scheduleMem, matched⟩
        split at selected
        · cases selected
        next row mirrorFound =>
          rcases Table.find?_eq_some_iff.mp mirrorFound with ⟨rowMem, named⟩
          simp only [mirrorFound, Option.any_some, Bool.and_eq_true, decide_eq_true_eq] at matched
          simp only [bind, Except.bind] at selected
          split at selected
          · cases selected
          next middle inserted =>
            cases selected
            have inserts : db.Inserts (RunRow.created newRunId row.name row.currentGeneration
                row.ownerNode .scheduled now ⟨1, 0⟩ none schedule.runtime.catchUpSinceMs)
                (middle.clearDueMarker row.name) :=
              ⟨⟨middle, inserted, rfl⟩, ⟨row, rowMem, matched.1.1.1.1.2, matched.1.1.1.2, rfl,
                rfl, rfl⟩, rfl, rfl, rfl, rfl, rfl⟩
            exact .scheduled inserts rfl matched.1.1.1.1.1
              ⟨schedule, scheduleMem, named.symm, matched.1.1.2, rfl⟩

/-- The source a candidate is compiled from. -/
def DispatchCandidate.source (candidate : DispatchCandidate) (generation : GenerationRow) :
    DispatchSource where
  runId := candidate.runId
  attemptNo := candidate.attemptNo
  mirrorName := candidate.mirrorName
  mirrorGeneration := candidate.generation
  configToml := generation.configToml

/-- The three ways a poll commits: nothing to write, a redelivery, or a new attempt. -/
inductive Database.Polls (db : Database) (node : String) (now : ℤ)
    (compile : DispatchSource → Except StoreError (Option CompiledDispatch)) :
    Option PollAction → Database → Prop where
  | nothing : Polls db node now compile none db
  | cancel {attempt : AttemptRow} {run : RunRow} (mem : attempt ∈ db.attempts)
      (runMem : run ∈ db.runs) (owned : run.id = attempt.runId)
      (active : run.state.isActive = true) (found : (db.findCancellation node).isSome = true) :
      Polls db node now compile
        (some (.cancelAttempt attempt.runId attempt.attemptNo attempt.specHash)) db
  | redeliver {attempt : AttemptRow} {run : RunRow} (mem : attempt ∈ db.attempts)
      (queued : attempt.state = .queued) (runMem : run ∈ db.runs) (owned : run.id = attempt.runId)
      (active : run.state.isActive = true) (owner : run.ownerNode = node)
      (quiet : db.findCancellation node = none) :
      Polls db node now compile (some (.startAttempt attempt.runId attempt.attemptNo run.mirrorName
        attempt.specHash attempt.spec)) (db.markRedelivery attempt.key now)
  | dispatch {candidate : DispatchCandidate} {generation : GenerationRow}
      {compiled : CompiledDispatch} {action : Option PollAction} {staged after : Database}
      (selects : db.Selects node candidate staged)
      (generationMem : generation ∈ db.generations)
      (generationKey : generation.key = (candidate.mirrorName, candidate.generation))
      (compiles : compile (candidate.source generation) = .ok (some compiled))
      (persists : staged.persistDispatch (candidate.source generation) compiled now =
        .ok (action, after)) : Polls db node now compile action after

theorem Database.Inserts.generations {db staged : Database} {run : RunRow}
    (inserts : db.Inserts run staged) : staged.generations = db.generations := by
  obtain ⟨middle, inserted, rfl⟩ := inserts.inserted
  obtain ⟨_, _, runs, rfl, _⟩ := Database.insertRun_eq_ok inserted
  rfl

theorem Database.Selects.generations {db staged : Database} {node : String}
    {candidate : DispatchCandidate} (selects : db.Selects node candidate staged) : staged.generations = db.generations := by
  cases selects with
  | manual | retry => rfl
  | scheduled inserts => exact inserts.generations

theorem Database.pollAction_eq_ok {db after : Database} {node newRunId : String} {now : ℤ}
    {compile : DispatchSource → Except StoreError (Option CompiledDispatch)}
    {action : Option PollAction}
    (polled : db.pollAction node now newRunId compile = .ok (action, after)) :
    db.Polls node now compile action after := by
  unfold Database.pollAction at polled
  split at polled
  next cancellation found =>
    obtain ⟨attempt, selected, rfl⟩ := Option.map_eq_some_iff.mp found
    rcases Table.first_eq_some selected with ⟨mem, matched⟩
    simp only [Bool.and_eq_true, Database.runOf, Option.any_eq_true] at matched
    obtain ⟨run, runFound, ⟨⟨_, active⟩, _⟩, _⟩ := matched.1.1
    rcases Table.find?_eq_some_iff.mp runFound with ⟨runMem, owned⟩
    cases polled
    exact .cancel mem runMem owned active (by rw [found]; rfl)
  next quiet =>
    split at polled
    next attempt found =>
      rcases Table.first_eq_some found with ⟨mem, matched⟩
      simp only [Bool.and_eq_true, decide_eq_true_eq] at matched
      split at polled
      · cases polled
      next run runFound =>
        rcases Table.find?_eq_some_iff.mp runFound with ⟨runMem, owned⟩
        cases polled
        simp only [Database.runOf, runFound, Option.any_some, Bool.and_eq_true,
          decide_eq_true_eq] at matched
        exact .redeliver mem matched.1.2 runMem owned matched.1.1.2 matched.1.1.1 quiet
    next =>
      split at polled
      · cases polled
        exact .nothing
      · split at polled
        · cases polled
        · cases polled
          exact .nothing
        next candidate staged selected =>
          have selects := Database.selectCandidate_eq_ok selected
          unfold Database.dispatch at polled
          split at polled
          · cases polled
          next generation generationFound =>
            rw [selects.generations] at generationFound
            rcases Table.find?_eq_some_iff.mp generationFound with ⟨generationMem, generationKey⟩
            simp only at polled
            split at polled
            · cases polled
            · cases polled
              exact .nothing
            next compiled compiles =>
              exact .dispatch selects generationMem generationKey compiles polled

/-- What a compiled dispatch is made from, and the gate an atomic mirror has passed. -/
theorem compileDispatch_eq_ok {vendor : Vendor} {node : String} {agent : AgentProfile}
    {source : DispatchSource} {compiled : CompiledDispatch}
    (compiles : compileDispatch vendor node agent source = .ok (some compiled)) :
    ∃ document context, storedDocument vendor source.configToml = .ok document ∧
      compiled.policy = document.policySnapshot ∧
      (document.publicationMode = .atomic → agent.capabilities.contains atomicExchangeV1 = true) ∧
      context.publicationRoot = agent.publicationRoot ∧
      compileProcessRunSpec document context = .ok compiled.spec := by
  unfold compileDispatch at compiles
  cases stored : storedDocument vendor source.configToml with
  | error reason => rw [stored] at compiles; cases compiles
  | ok document =>
      simp only [stored, bind, Except.bind] at compiles
      split at compiles
      next mirrorValid =>
        split at compiles
        next nodeValid =>
          split at compiles
          · cases compiles
          · split at compiles
            · cases compiles
            next supported =>
              simp only [pure, Except.pure] at compiles
              split at compiles
              · cases compiles
              next spec specified =>
                cases compiles
                refine ⟨document, _, rfl, rfl, ?_, ?_, specified⟩
                · intro atomic
                  simp only [atomic, true_and, not_or, Bool.not_eq_false] at supported
                  exact supported.1
                · rfl
        next => cases compiles
      next => cases compiles

/-- The two updates of the run around the insertion of its attempt. -/
def RunRow.dispatchedAs (source : DispatchSource) (policy : RunPolicySnapshot) (run : RunRow) :
    RunRow :=
  if run.id = source.runId then
    { run with
      maxAttempts := if run.trigger = .scheduled then policy.maxAttempts else run.maxAttempts
      retryDelayMs := if run.trigger = .scheduled then policy.retryDelayMs else run.retryDelayMs
      attemptCount := source.attemptNo
      retryDueAtMs := none }
  else run

theorem Database.persistDispatch_eq_ok {db after : Database} {source : DispatchSource}
    {compiled : CompiledDispatch} {now : ℤ} {action : Option PollAction}
    (persisted : db.persistDispatch source compiled now = .ok (action, after)) :
    (∀ other ∈ db.attempts, other.key ≠ (source.runId, source.attemptNo)) ∧
      (action = some (.startAttempt source.runId source.attemptNo source.mirrorName
        compiled.specHash compiled.spec)) ∧
      after.mirrors = db.mirrors ∧ after.generations = db.generations ∧
      Table.Rowwise (fun old new => new = old.dispatchedAs source compiled.policy)
        db.runs after.runs ∧
      ∀ attempt, attempt ∈ after.attempts ↔
        attempt ∈ db.attempts ∨ attempt = .dispatched source compiled now := by
  unfold Database.persistDispatch at persisted
  simp only [bind, Except.bind] at persisted
  split at persisted
  · cases persisted
  next middle inserted =>
    obtain ⟨fresh, attempts, rfl, members⟩ := Database.insertAttempt_eq_ok inserted
    cases persisted
    refine ⟨fresh, rfl, rfl, rfl, ?_, members⟩
    refine Table.rowwise_of_map (List.map_map ..) ?_
    intro run _
    simp only [Function.comp]
    unfold RunRow.dispatchedAs
    by_cases own : run.id = source.runId <;> by_cases trigger : run.trigger = .scheduled <;>
      simp [own, trigger]

theorem Database.persistDispatch_schedules {db after : Database} {source : DispatchSource}
    {compiled : CompiledDispatch} {now : ℤ} {action : Option PollAction}
    (persisted : db.persistDispatch source compiled now = .ok (action, after)) :
    after.schedules = db.schedules ∧ after.nodes = db.nodes := by
  unfold Database.persistDispatch at persisted
  simp only [bind, Except.bind] at persisted
  split at persisted
  · cases persisted
  next middle inserted =>
    obtain ⟨_, attempts, rfl, _⟩ := Database.insertAttempt_eq_ok inserted
    cases persisted
    exact ⟨rfl, rfl⟩

/-- The run that a cancellation leaves, once no agent works on it. -/
def RunRow.cancelledAt (now : ℤ) (run : RunRow) : RunRow :=
  { run with
    cancelRequestedAtMs := run.cancelRequestedAtMs <|> some now
    state := .cancelled
    finishedAtMs := some now
    retryDueAtMs := none
    finalExitCode := none
    failureKind := none
    failureMessage := none }

/-- The schedules after the run ended: the interval of its mirror is armed, if it has one. -/
def Database.Arms (db : Database) (run : RunRow) (now : ℤ)
    (rearm : String → Except StoreError (Option ℤ)) (schedules : Table ScheduleRow.mirrorName) :
    Prop :=
  ∃ nextDue, (match db.rearmSource run with
      | none => Except.ok none
      | some configToml => rearm configToml) = .ok nextDue ∧
    schedules = match nextDue with
      | none => db.schedules
      | some nextDue => (db.rearmSchedule run.mirrorName nextDue now).schedules

/-- The ways a cancellation request commits. -/
inductive Database.Cancels (db : Database) (runId : String) (now : ℤ)
    (rearm : String → Except StoreError (Option ℤ)) : Database → Prop where
  | ended {run : RunRow} (mem : run ∈ db.runs) (named : run.id = runId)
      (ended : run.state.isTerminal = true) : Cancels db runId now rearm db
  | requested {run : RunRow} (mem : run ∈ db.runs) (named : run.id = runId)
      (active : run.state.isActive = true) (working : db.activeDispatched run = true) :
      Cancels db runId now rearm (db.recordCancellation runId now)
  | undispatched {run : RunRow} {schedules : Table ScheduleRow.mirrorName} (mem : run ∈ db.runs)
      (named : run.id = runId)
      (active : run.state.isActive = true) (idle : db.activeDispatched run = false)
      (arms : db.Arms run now rearm schedules) :
      Cancels db runId now rearm
        { (db.recordCancellation runId now).cancelUndispatched runId now with schedules }

theorem Database.settleCancellation_eq_ok {requested after : Database} {run : RunRow} {now : ℤ}
    {rearm : String → Except StoreError (Option ℤ)}
    (settled : requested.settleCancellation run now rearm = .ok after) :
    requested.activeDispatched run = true ∧ after = requested ∨
      requested.activeDispatched run = false ∧
        ∃ schedules, requested.Arms run now rearm schedules ∧
          after = { requested.cancelUndispatched run.id now with schedules } := by
  unfold Database.settleCancellation at settled
  split at settled
  next busy =>
    cases settled
    exact .inl ⟨busy, rfl⟩
  next idle =>
    refine .inr ⟨by simpa using idle, ?_⟩
    simp only [bind, Except.bind] at settled
    split at settled
    next unarmed =>
      cases settled
      exact ⟨_, ⟨none, by rw [unarmed], rfl⟩, rfl⟩
    next configToml source =>
      split at settled
      · cases settled
      next nextDue rearmed =>
        cases settled
        cases nextDue with
        | none => exact ⟨_, ⟨none, by rw [source]; exact rearmed, rfl⟩, rfl⟩
        | some due => exact ⟨_, ⟨some due, by rw [source]; exact rearmed, rfl⟩, rfl⟩

theorem Database.requestCancellation_eq_ok {db after : Database} {runId : String} {now : ℤ}
    {rearm : String → Except StoreError (Option ℤ)} {result : CancellationApplyResult}
    (cancelled : db.requestCancellation runId now rearm = .ok (result, after)) :
    db.Cancels runId now rearm after := by
  unfold Database.requestCancellation at cancelled
  split at cancelled
  · cases cancelled
  next run found =>
    obtain ⟨mem, rfl⟩ := Table.find?_eq_some_iff.mp found
    split at cancelled
    next ended =>
      cases cancelled
      exact .ended mem rfl ended
    next active =>
      simp only [bind, Except.bind] at cancelled
      split at cancelled
      · cases cancelled
      next middle settled =>
        have same : after = middle := by
          split at cancelled
          · cases cancelled
          · cases cancelled
            rfl
        subst same
        rcases Database.settleCancellation_eq_ok settled with
          ⟨working, rfl⟩ | ⟨idle, schedules, arms, rfl⟩
        · exact .requested mem rfl (by simpa [RunState.isActive] using active) working
        · exact .undispatched mem rfl (by simpa [RunState.isActive] using active) idle arms

theorem Database.rowwise_cancelled {db : Database} {runId : String} {now : ℤ} :
    Table.Rowwise (fun old new => new = if old.id = runId then old.cancelledAt now else old)
      db.runs ((db.recordCancellation runId now).cancelUndispatched runId now).runs := by
  refine Table.rowwise_of_map (List.map_map ..) ?_
  intro run _
  simp only [Function.comp]
  by_cases own : run.id = runId <;> simp [own, RunRow.cancelledAt]

/-! ## Events -/

/-- The part of an event's effect that goes beyond the attempt row. -/
inductive Database.Projects (db : Database) (runId : String) (attemptNo : ℕ)
    (event : AttemptEvent) (now : ℤ)
    (decideTerminal : TerminalDecisionSource → ℤ → Except StoreError TerminalDecision) :
    Bool → Database → Prop where
  | nothing (queued : event.state = .queued) :
      Projects db runId attemptNo event now decideTerminal false db
  | start (started : event.state = .accepted ∨ event.state = .running) :
      Projects db runId attemptNo event now decideTerminal false
        (db.startRun runId (event.projection.runStartedAtMs.getD now))
  | decided (terminal : event.state.isTerminal = true) {source : TerminalDecisionSource}
      {decision : TerminalDecision}
      (sourced : db.terminalSource runId attemptNo event.state = .ok source)
      (decides : decideTerminal source now = .ok decision) :
      Projects db runId attemptNo event now decideTerminal decision.schedulesRetry
        (db.applyDecision runId source.mirrorName event event.projection decision now)

/-- A terminal report is decided about. -/
theorem Database.applyProjection_terminal {db : Database} {runId : String} {attemptNo : ℕ}
    {event : AttemptEvent} {now : ℤ}
    {decideTerminal : TerminalDecisionSource → ℤ → Except StoreError TerminalDecision}
    (terminal : event.state.isTerminal = true) :
    db.applyProjection runId attemptNo event event.projection now decideTerminal = do
      let source ← db.terminalSource runId attemptNo event.state
      let decision ← decideTerminal source now
      return (decision.schedulesRetry,
        db.applyDecision runId source.mirrorName event event.projection decision now) := by
  unfold Database.applyProjection
  cases state : event.state <;>
    simp_all [AttemptState.isTerminal, AttemptEvent.projection, AttemptState.runState]

theorem Database.applyProjection_eq_ok {db after : Database} {runId : String} {attemptNo : ℕ}
    {event : AttemptEvent} {now : ℤ}
    {decideTerminal : TerminalDecisionSource → ℤ → Except StoreError TerminalDecision}
    {retryScheduled : Bool}
    (projected : db.applyProjection runId attemptNo event event.projection now decideTerminal =
      .ok (retryScheduled, after)) :
    db.Projects runId attemptNo event now decideTerminal retryScheduled after := by
  cases terminal : event.state.isTerminal with
  | true =>
      rw [Database.applyProjection_terminal terminal] at projected
      cases sourced : db.terminalSource runId attemptNo event.state with
      | error reason => rw [sourced] at projected; cases projected
      | ok source =>
          rw [sourced] at projected
          cases decides : decideTerminal source now with
          | error reason => simp [bind, Except.bind, decides] at projected
          | ok decision =>
              simp only [bind, Except.bind, decides, pure, Except.pure] at projected
              cases projected
              exact .decided terminal sourced decides
  | false =>
      unfold Database.applyProjection at projected
      by_cases started : event.state = .accepted ∨ event.state = .running
      · have running : event.projection.runState = some .running := by
          simp [AttemptEvent.projection, started]
        rw [running] at projected
        cases projected
        exact .start started
      · have queued : event.state = .queued := by
          cases state : event.state <;> simp_all [AttemptState.isTerminal]
        have silent : event.projection.runState = none := by
          simp [AttemptEvent.projection, queued, AttemptState.runState]
        rw [silent] at projected
        cases projected
        exact .nothing queued

/-- The ways an event commits: it was known already, or it is recorded and projected. -/
inductive Database.Applies (db : Database) (attempt : AttemptRow) (event : AttemptEvent) (now : ℤ)
    (decideTerminal : TerminalDecisionSource → ℤ → Except StoreError TerminalDecision) :
    AttemptEventApplyResult → Database → Prop where
  | known (old : event.eventSequence ≤ attempt.lastEventSequence) :
      Applies db attempt event now decideTerminal ⟨attempt.lastEventSequence, false, false⟩ db
  | recorded {retryScheduled : Bool} {after : Database}
      (newer : attempt.lastEventSequence < event.eventSequence)
      (accepted : attempt.state.accepts event.state = true)
      (projects : (db.recordEvent attempt.key event).Projects attempt.runId attempt.attemptNo
        event now decideTerminal retryScheduled after)
      (fits : ¬i64Max < event.eventSequence) :
      Applies db attempt event now decideTerminal
        ⟨event.eventSequence, true, retryScheduled⟩ after

theorem Database.applyEvent_eq_ok {db after : Database} {runId : String} {attemptNo : ℕ}
    {event : AttemptEvent} {now : ℤ}
    {decideTerminal : TerminalDecisionSource → ℤ → Except StoreError TerminalDecision}
    {result : AttemptEventApplyResult}
    (applied : db.applyEvent runId attemptNo event now decideTerminal = .ok (result, after)) :
    ∃ attempt ∈ db.attempts, attempt.key = (runId, attemptNo) ∧
      db.Applies attempt event now decideTerminal result after := by
  unfold Database.applyEvent at applied
  split at applied
  · cases applied
  next attempt found =>
    rcases Table.find?_eq_some_iff.mp found with ⟨mem, keyed⟩
    refine ⟨attempt, mem, keyed, ?_⟩
    split at applied
    next old =>
      cases applied
      exact .known old
    next newer =>
      rw [projectAttemptEvent_eq] at applied
      by_cases accepted : attempt.state.accepts event.state
      · simp only [accepted, if_true] at applied
        split at applied
        · cases applied
        next fits =>
          simp only [bind, Except.bind] at applied
          split at applied
          · cases applied
          next projected =>
            cases applied
            obtain ⟨rfl, rfl⟩ := Prod.mk.inj keyed
            exact .recorded (Nat.lt_of_not_le newer) accepted
              (Database.applyProjection_eq_ok projected) fits
      · simp [accepted] at applied

/-! ## Transactions that leave runs and configuration alone -/

theorem Database.evaluateSources_eq_ok
    {evaluate : ScheduleTickSource → Except StoreError ScheduleRuntime} {db after : Database}
    {sources : List ScheduleTickSource}
    (evaluated : db.evaluateSources evaluate sources = .ok after) :
    ∃ schedules, after = { db with schedules } := by
  induction sources generalizing db with
  | nil =>
      cases evaluated
      exact ⟨_, rfl⟩
  | cons source rest ih =>
      simp only [Database.evaluateSources, bind, Except.bind] at evaluated
      split at evaluated
      · cases evaluated
      · obtain ⟨schedules, rfl⟩ := ih evaluated
        exact ⟨schedules, rfl⟩

theorem Database.evaluateDueSchedules_eq_ok {db after : Database} {now : ℤ}
    {evaluate : ScheduleTickSource → Except StoreError ScheduleRuntime} {count : ℕ}
    (evaluated : db.evaluateDueSchedules now evaluate = .ok (count, after)) :
    ∃ schedules, after = { db with schedules } := by
  unfold Database.evaluateDueSchedules at evaluated
  simp only [bind, Except.bind] at evaluated
  split at evaluated
  · cases evaluated
  next computed =>
    cases evaluated
    exact Database.evaluateSources_eq_ok computed

theorem Database.observeNode_eq_ok {db after : Database} {observation : NodeObservation}
    {result : Unit} (observed : db.observeNode observation = .ok (result, after)) :
    ∃ nodes, after = { db with nodes } := by
  unfold Database.observeNode at observed
  split at observed
  · cases observed
  · simp only at observed
    split at observed
    · split at observed
      · cases observed
        exact ⟨_, rfl⟩
      · cases observed
    · cases observed
      exact ⟨_, rfl⟩

theorem Database.replaceAgentBinding_eq_ok {db after : Database} {node agentId : String}
    {acknowledged : Bool} {result : Unit}
    (replaced : db.replaceAgentBinding node agentId acknowledged = .ok (result, after)) :
    ∃ nodes, after = { db with nodes } := by
  unfold Database.replaceAgentBinding at replaced
  split at replaced
  · cases replaced
  · split at replaced
    · cases replaced
    · cases replaced
      exact ⟨_, rfl⟩

theorem Database.registerNode_eq (db : Database) (name : String) :
    ∃ nodes, db.registerNode name = { db with nodes } := by
  unfold Database.registerNode
  split
  · exact ⟨_, rfl⟩
  · exact ⟨_, rfl⟩

/-! ## All transactions -/

/-- What running one transaction can do to the database. -/
inductive StoreOp.Effect {vendor : Vendor} (db : Database) : StoreOp vendor → Database → Prop where
  | unchanged {operation : StoreOp vendor} : Effect db operation db
  | bookkeeping {operation : StoreOp vendor} (schedules : Table ScheduleRow.mirrorName)
      (nodes : Table NodeRow.name) : Effect db operation { db with schedules, nodes }
  | configured {bundle : CanonicalBundle vendor} {baseRevision : ℕ} {now : ℤ} {plan : ConfigPlan}
      {after : Database} (planned : planWithConnection db bundle = .ok plan)
      (current : baseRevision = db.revision)
      (enforced : enforceQuiescentHighImpactChanges db plan.changes = .ok ())
      (applied : plan.changes.foldlM (applyChange bundle (db.revision + 1) now)
        { db with revision := db.revision + 1 } = .ok after) :
      Effect db (.apply bundle baseRevision now) after
  | created {mirror requestId newRunId : String} {now : ℤ} {run : RunRow} {after : Database}
      (creates : db.CreatesManual (compilePolicy vendor) run after) :
      Effect db (.createManualRun mirror requestId now newRunId) after
  | polled {node newRunId : String} {agent : AgentProfile} {now : ℤ} {action : Option PollAction}
      {after : Database}
      (polls : db.Polls node now (compileDispatch vendor node agent) action after) :
      Effect db (.pollAction node agent now newRunId) after
  | cancelled {runId : String} {now : ℤ} {after : Database}
      (cancels : db.Cancels runId now (rearmDocument vendor now) after) :
      Effect db (.requestCancellation runId now) after
  | reported {runId : String} {attemptNo : ℕ} {event : AttemptEvent} {now : ℤ}
      {attempt : AttemptRow} {result : AttemptEventApplyResult} {after : Database}
      (mem : attempt ∈ db.attempts) (keyed : attempt.key = (runId, attemptNo))
      (applies : db.Applies attempt event now (decideTerminal vendor) result after) :
      Effect db (.applyEvent runId attemptNo event now) after

theorem StoreOp.run_effect {vendor : Vendor} (db : Database) (operation : StoreOp vendor) :
    operation.Effect db (operation.run db) := by
  cases operation with
  | apply bundle baseRevision now =>
      refine committed_of_ok .unchanged ?_
      intro plan after applied
      obtain ⟨plan, planned, current, enforced, folded⟩ := Database.apply_eq_ok applied
      exact .configured planned current enforced folded
  | createManualRun mirror requestId now newRunId =>
      refine committed_of_ok .unchanged ?_
      intro run after created
      rcases Database.createManualRun_eq_ok created with rfl | creates
      · exact .unchanged
      · exact .created creates
  | pollAction node agent now newRunId =>
      refine committed_of_ok .unchanged ?_
      intro action after polled
      exact .polled (Database.pollAction_eq_ok polled)
  | requestCancellation runId now =>
      refine committed_of_ok .unchanged ?_
      intro result after cancelled
      exact .cancelled (Database.requestCancellation_eq_ok cancelled)
  | evaluateDueSchedules now =>
      refine committed_of_ok .unchanged ?_
      intro count after evaluated
      obtain ⟨schedules, rfl⟩ := Database.evaluateDueSchedules_eq_ok evaluated
      exact .bookkeeping schedules db.nodes
  | applyEvent runId attemptNo event now =>
      refine committed_of_ok .unchanged ?_
      intro result after applied
      obtain ⟨attempt, mem, keyed, applies⟩ := Database.applyEvent_eq_ok applied
      exact .reported mem keyed applies
  | observeNode observation =>
      refine committed_of_ok .unchanged ?_
      intro result after observed
      obtain ⟨nodes, rfl⟩ := Database.observeNode_eq_ok observed
      exact .bookkeeping db.schedules nodes
  | registerNode name =>
      obtain ⟨nodes, registered⟩ := Database.registerNode_eq db name
      change Effect db _ (db.registerNode name)
      rw [registered]
      exact .bookkeeping db.schedules nodes
  | replaceAgentBinding node agentId acknowledged =>
      refine committed_of_ok .unchanged ?_
      intro result after replaced
      obtain ⟨nodes, rfl⟩ := Database.replaceAgentBinding_eq_ok replaced
      exact .bookkeeping db.schedules nodes

end LzuMirror
