import LzuMirror.Store.Lifecycle

/-!
# Polls and waiting work

A poll looks for work in three queries, each of which returns one row, and
compiles what the first successful one has found. `Database.Offers` are all the
candidates these queries choose from; `Database.firstCandidate` is the one they
choose.

Everything up to the compilation succeeds in a sound database, so whether a poll
of an idle node starts an attempt depends on the first candidate alone.
-/

namespace LzuMirror

/-- What a poll of a node may dispatch. A due marker becomes a run with a new id. -/
inductive Database.Offers (db : Database) (node : String) (now : ℤ) (newRunId : String) :
    DispatchCandidate → Prop where
  | manual {run : RunRow} (mem : run ∈ db.runs) (owner : run.ownerNode = node)
      (pending : run.state = .pending) (trigger : run.trigger = .manual)
      (eligible : db.mirrorOf run (fun mirror => mirror.managed && mirror.enabled) = true)
      (undispatched : ∀ attempt ∈ db.attempts, attempt.runId ≠ run.id) :
      Offers db node now newRunId ⟨run.id, run.mirrorName, run.mirrorGeneration, 1⟩
  | retry {run : RunRow} {deadline : ℤ} (mem : run ∈ db.runs) (owner : run.ownerNode = node)
      (running : run.state = .running) (due : run.retryDueAtMs = some deadline)
      (passed : deadline ≤ now) (uncancelled : run.cancelRequestedAtMs = none)
      (eligible : db.mirrorOf run (fun mirror =>
        mirror.managed && mirror.enabled && decide (mirror.ownerNode = run.ownerNode)) = true)
      (within : run.attemptCount < run.maxAttempts) :
      Offers db node now newRunId
        ⟨run.id, run.mirrorName, run.mirrorGeneration, run.attemptCount + 1⟩
  | scheduled {row : ScheduleRow} {mirror : MirrorRow} (mem : row ∈ db.schedules)
      (found : db.mirrors.find? row.mirrorName = some mirror) (owner : mirror.ownerNode = node)
      (managed : mirror.managed = true) (enabled : mirror.enabled = true)
      (pending : row.runtime.catchUpPending = true)
      (since : row.runtime.catchUpSinceMs.isSome = true)
      (free : db.hasActiveRun row.mirrorName = false) :
      Offers db node now newRunId ⟨newRunId, mirror.name, mirror.currentGeneration, 1⟩

/-- The candidate that comes first: manual runs, then retries, then due markers. -/
def Database.firstCandidate (db : Database) (node : String) (now : ℤ) (newRunId : String) :
    Option DispatchCandidate :=
  match db.findManual node with
  | some run => some ⟨run.id, run.mirrorName, run.mirrorGeneration, 1⟩
  | none =>
      match db.findRetry node now with
      | some run => some ⟨run.id, run.mirrorName, run.mirrorGeneration, run.attemptCount + 1⟩
      | none =>
          (db.findDue node).bind fun row =>
            (db.mirrors.find? row.mirrorName).map fun mirror =>
              ⟨newRunId, mirror.name, mirror.currentGeneration, 1⟩

/-- The candidate compiles for what an agent reports about itself. -/
def Database.Compiles (vendor : Vendor) (db : Database) (node : String) (agent : AgentProfile)
    (candidate : DispatchCandidate) : Prop :=
  ∃ generation ∈ db.generations, generation.key = (candidate.mirrorName, candidate.generation) ∧
    ∃ compiled, compileDispatch vendor node agent (candidate.source generation) = .ok (some compiled)

instance Database.decidableCompiles {vendor : Vendor} {db : Database} {node : String}
    {agent : AgentProfile} {candidate : DispatchCandidate} :
    Decidable (db.Compiles vendor node agent candidate) :=
  decidable_of_iff ((db.generations.find? (candidate.mirrorName, candidate.generation)).any
      (fun generation => match compileDispatch vendor node agent (candidate.source generation) with
        | .ok (some _) => true
        | _ => false) = true) <| by
    rw [Option.any_eq_true]
    constructor
    · rintro ⟨generation, found, compiled⟩
      rcases Table.find?_eq_some_iff.mp found with ⟨mem, keyed⟩
      refine ⟨generation, mem, keyed, ?_⟩
      revert compiled
      split
      next dispatch compiles => exact fun _ => ⟨dispatch, compiles⟩
      · rintro ⟨⟩
    · rintro ⟨generation, mem, keyed, compiled, compiles⟩
      exact ⟨generation, Table.find?_eq_some_iff.mpr ⟨mem, keyed⟩, by simp [compiles]⟩

/-- The node has free capacity, and neither a cancellation nor a redelivery is pending. -/
structure Database.Idle (db : Database) (node : String) : Prop where
  capacity : db.nodeHasCapacity node = true
  uncancelled : db.findCancellation node = none
  delivered : db.findRedelivery node = none

/-- The poll starts an attempt. -/
def Database.Starts (vendor : Vendor) (db : Database) (node : String) (agent : AgentProfile)
    (now : ℤ) (newRunId : String) : Prop :=
  ∃ runId attemptNo mirrorName specHash spec after,
    db.pollAction node now newRunId (compileDispatch vendor node agent) =
      .ok (some (.startAttempt runId attemptNo mirrorName specHash spec), after)

section Selection

variable {vendor : Vendor} {db : Database} {node : String} {agent : AgentProfile} {now : ℤ}
  {newRunId : String} {candidate : DispatchCandidate}

/-- When something waits, something comes first. -/
theorem Database.Offers.first (waits : db.Offers node now newRunId candidate) :
    ∃ first, db.firstCandidate node now newRunId = some first := by
  unfold Database.firstCandidate
  cases manual : db.findManual node with
  | some run => exact ⟨_, rfl⟩
  | none =>
      cases retry : db.findRetry node now with
      | some run => exact ⟨_, rfl⟩
      | none =>
          cases waits with
          | @manual run mem owner pending trigger eligible undispatched =>
              have absent := Table.first_eq_none.mp manual run mem
              have none : (db.attempts.any fun attempt => decide (attempt.runId = run.id)) = false := by
                simpa using undispatched
              simp [owner, pending, trigger, eligible, none] at absent
          | @retry run deadline mem owner running due passed uncancelled eligible within =>
              have absent := Table.first_eq_none.mp retry run mem
              simp [owner ▸ eligible, owner, running, due, passed, uncancelled, within] at absent
          | @scheduled row mirror mem found owner managed enabled pending since free =>
              cases due : db.findDue node with
              | none =>
                  have absent := Table.first_eq_none.mp due row mem
                  simp [found, owner, managed, enabled, pending, since, free] at absent
              | some first =>
                  have matched := (Table.first_eq_some due).2
                  simp only [Bool.and_eq_true, Option.any_eq_true] at matched
                  rcases matched.1.1.1 with ⟨mirror, isMirror, -⟩
                  simp [isMirror]

/-- The selection of a candidate, with all that its dispatch needs besides a compilation. -/
structure Database.Readies (db : Database) (node : String) (now : ℤ) (newRunId : String)
    (candidate : DispatchCandidate) (staged : Database) : Prop where
  selected : db.selectCandidate node now newRunId = .ok (some (candidate, staged))
  generations : staged.generations = db.generations
  fresh : ∀ attempt ∈ staged.attempts, attempt.key ≠ (candidate.runId, candidate.attemptNo)
  generation : ∃ generation ∈ db.generations,
    generation.key = (candidate.mirrorName, candidate.generation)

theorem Database.Sound.generation (sound : db.Sound) {run : RunRow} (mem : run ∈ db.runs) :
    ∃ generation ∈ db.generations, generation.key = (run.mirrorName, run.mirrorGeneration) := by
  rcases sound.runGeneration run mem with ⟨generation, generationMem, keyed, -⟩
  exact ⟨generation, generationMem, keyed⟩

/-- The next attempt of a run is new. -/
theorem Database.Sound.next_fresh (sound : db.Sound) {run : RunRow} (mem : run ∈ db.runs) :
    ∀ attempt ∈ db.attempts, attempt.key ≠ (run.id, run.attemptCount + 1) := by
  intro attempt attemptMem same
  rcases Prod.mk.inj same with ⟨runId, number⟩
  rcases sound.attemptRun attempt attemptMem with ⟨owner, ownerMem, owned, counted⟩
  have isRun : owner = run := Table.eq_of_key_eq ownerMem mem (owned.trans runId)
  subst isRun
  omega

/-- A due marker of an idle mirror becomes a run. -/
theorem Database.exists_materialized (now : ℤ)
    (unused : ∀ run ∈ db.runs, run.id ≠ newRunId) {row : ScheduleRow} {mirror : MirrorRow}
    (due : db.findDue node = some row) (found : db.mirrors.find? row.mirrorName = some mirror) :
    ∃ staged, db.materializeScheduledCandidate node now newRunId =
        .ok (some (⟨newRunId, mirror.name, mirror.currentGeneration, 1⟩, staged)) ∧
      staged.generations = db.generations ∧ staged.attempts = db.attempts := by
  have named := (Table.find?_eq_some_iff.mp found).2
  have matched := (Table.first_eq_some due).2
  simp only [Bool.and_eq_true, Bool.not_eq_true'] at matched
  have free : db.hasActiveRun mirror.name = false := named ▸ matched.2
  rcases @Table.exists_insert? _ _ _ _ db.runs (RunRow.created newRunId mirror.name
      mirror.currentGeneration mirror.ownerNode .scheduled now ⟨1, 0⟩ none
      row.runtime.catchUpSinceMs) unused with ⟨runs, inserted⟩
  have stored : db.insertRun (RunRow.created newRunId mirror.name mirror.currentGeneration
      mirror.ownerNode .scheduled now ⟨1, 0⟩ none row.runtime.catchUpSinceMs) =
        .ok { db with runs } := by
    rw [insertRun, if_neg (by simp [RunRow.created, free]), if_neg (by simp [RunRow.created]),
      inserted]
  refine ⟨Database.clearDueMarker { db with runs } mirror.name, ?_, rfl, rfl⟩
  simp only [materializeScheduledCandidate, due, found, stored]
  rfl

theorem Database.Sound.readies (sound : db.Sound) (unused : ∀ run ∈ db.runs, run.id ≠ newRunId)
    (first : db.firstCandidate node now newRunId = some candidate) :
    ∃ staged, db.Readies node now newRunId candidate staged := by
  unfold Database.firstCandidate at first
  cases manual : db.findManual node with
  | some run =>
      have matched := Table.first_eq_some manual
      simp only [manual, Option.some.injEq] at first
      subst first
      refine ⟨db, by simp [selectCandidate, manual], rfl, ?_, sound.generation matched.1⟩
      simp only [Bool.and_eq_true, Bool.not_eq_true', Table.any_eq_false,
        decide_eq_false_iff_not] at matched
      intro attempt mem same
      exact matched.2.2 attempt mem (Prod.mk.inj same).1
  | none =>
      cases retry : db.findRetry node now with
      | some run =>
          have mem := (Table.first_eq_some retry).1
          simp only [manual, retry, Option.some.injEq] at first
          subst first
          exact ⟨db, by simp [selectCandidate, manual, retry], rfl, sound.next_fresh mem,
            sound.generation mem⟩
      | none =>
          simp only [manual, retry, Option.bind_eq_some_iff, Option.map_eq_some_iff] at first
          rcases first with ⟨row, due, mirror, found, rfl⟩
          rcases exists_materialized now unused due found with
            ⟨staged, materialized, generations, attempts⟩
          have mirrorMem := (Table.find?_eq_some_iff.mp found).1
          rcases sound.mirrorGeneration mirror mirrorMem with ⟨generation, mem, keyed, -⟩
          refine ⟨staged, ?_, generations, ?_, generation, mem, keyed⟩
          · simpa [selectCandidate, manual, retry] using materialized
          · intro attempt attemptMem same
            rw [attempts] at attemptMem
            rcases sound.attemptRun attempt attemptMem with ⟨owner, ownerMem, owned, -⟩
            exact unused owner ownerMem (owned.trans (Prod.mk.inj same).1)

/-- The answer of an idle node's poll is that of the dispatch of the first candidate. -/
theorem Database.Readies.poll {staged : Database}
    (readies : db.Readies node now newRunId candidate staged) (idle : db.Idle node)
    (compile : DispatchSource → Except StoreError (Option CompiledDispatch)) :
    db.pollAction node now newRunId compile = db.dispatch staged candidate now compile := by
  simp [pollAction, idle.uncancelled, idle.delivered, idle.capacity, readies.selected]

end Selection

namespace Sample

end Sample

end LzuMirror
