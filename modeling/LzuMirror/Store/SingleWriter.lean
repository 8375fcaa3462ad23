import LzuMirror.Store.Integrity
import Mathlib.Data.Set.Function

/-!
# Single writer per directory

The overlap check compares the targets of one bundle. It says nothing about an
attempt that still works with the target of an earlier generation, so a mirror
that is removed or retargeted while it is busy may leave its directory to
another one. What the check does give is disjointness of the generations that
were in force together: both mirrors managed, with these generations current,
in some state of the run.

Whether a generation is still current is decided by comparing configuration
hashes, so the result assumes that the hash distinguishes the configuration
texts that are applied in the run.
-/

namespace LzuMirror

/-- The directory an attempt publishes: its mirror root joined with its own generation's target. -/
structure Database.Publishes (vendor : Vendor) (db : Database) (attempt : AttemptRow)
    (run : RunRow) (directory : String) : Prop where
  attemptMem : attempt ∈ db.attempts
  runMem : run ∈ db.runs
  owned : run.id = attempt.runId
  directory : ∃ generation ∈ db.generations,
    generation.key = (run.mirrorName, run.mirrorGeneration) ∧
      ∃ document, vendor.parseDocument generation.configToml = .ok document ∧
        directory = joinText attempt.spec.mirrorRoot document.mirror.target

/-- The mirror of a run is managed and the run's generation is its current one. -/
def Database.InForce (db : Database) (run : RunRow) : Prop :=
  ∃ row ∈ db.mirrors, row.managed = true ∧ row.name = run.mirrorName ∧
    row.currentGeneration = run.mirrorGeneration

/-- The transactions whose bundles consist of the given configuration texts. -/
def appliesTexts {vendor : Vendor} (texts : Set String) (_ : Database) : StoreOp vendor → Prop
  | .apply bundle _ _ => ∀ entry ∈ bundle.mirrors, entry.2.canonicalToml ∈ texts
  | _ => True

/-- A managed row holds what the bundle says about its mirror. -/
def Database.Settled {vendor : Vendor} (db : Database) (bundle : CanonicalBundle vendor)
    (row : MirrorRow) : Prop :=
  ∃ next, bundle.get? row.name = some next ∧ row.ownerNode = next.ownerNode.value ∧
    ∃ generation ∈ db.generations, generation.key = (row.name, row.currentGeneration) ∧
      generation.configToml = next.canonicalToml

/-- The stored generations and the bundle that was applied last. -/
structure Database.Configured (vendor : Vendor) (texts : Set String) (db : Database) : Prop where
  hashed : ∀ generation ∈ db.generations,
    generation.configHash = vendor.textHash generation.configToml ∧ generation.configToml ∈ texts
  settled : ∃ bundle : CanonicalBundle vendor,
    ∀ row ∈ db.mirrors, row.managed = true → db.Settled bundle row

section Apply

variable {vendor : Vendor} {bundle : CanonicalBundle vendor} {db after : Database}

theorem Database.Settled.mono {row : MirrorRow} (settled : db.Settled bundle row)
    (kept : ∀ generation ∈ db.generations, generation ∈ after.generations) :
    after.Settled bundle row := by
  obtain ⟨next, present, owner, generation, mem, stored⟩ := settled
  exact ⟨next, present, owner, generation, kept generation mem, stored⟩

/-- Generations are never changed or dropped. -/
theorem configSteps_generations {changes : List ConfigChange}
    (steps : Relation.ReflTransGen (ConfigStep bundle changes) db after) :
    ∀ generation ∈ db.generations, generation ∈ after.generations := by
  induction steps with
  | refl => exact fun _ mem => mem
  | tail _ step ih =>
      cases step with
      | bookkeeping | unmanage | cancelPending | finalizeRetries => exact ih
      | upsert _ _ _ _ inserted =>
          intro generation mem
          exact ((Table.insert?_eq_some inserted).2 generation).mpr (.inl (ih generation mem))

/-- Every generation comes from the bundle that stored it. -/
theorem configSteps_hashed {changes : List ConfigChange} {texts : Set String}
    (applied : ∀ entry ∈ bundle.mirrors, entry.2.canonicalToml ∈ texts)
    (steps : Relation.ReflTransGen (ConfigStep bundle changes) db after)
    (hashed : ∀ generation ∈ db.generations,
      generation.configHash = vendor.textHash generation.configToml ∧
        generation.configToml ∈ texts) :
    ∀ generation ∈ after.generations,
      generation.configHash = vendor.textHash generation.configToml ∧
        generation.configToml ∈ texts := by
  induction steps with
  | refl => exact hashed
  | tail _ step ih =>
      cases step with
      | bookkeeping | unmanage | cancelPending | finalizeRetries => exact ih
      | upsert _ _ present _ inserted =>
          intro generation mem
          rcases ((Table.insert?_eq_some inserted).2 generation).mp mem with old | rfl
          · exact ih generation old
          · obtain ⟨name, _, entry⟩ := CanonicalBundle.get?_eq_some present
            exact ⟨bundle.hashed _ entry, applied _ entry⟩

/-- The mirror of an applied change is no longer managed, or holds what the bundle says. -/
theorem applyChange_settled {change : ConfigChange} {revision : ℕ} {now : ℤ}
    (applied : applyChange bundle revision now db change = .ok after) :
    ∀ row ∈ after.mirrors, row.managed = true →
      (row ∈ db.mirrors ∧ row.name ≠ change.mirror) ∨ after.Settled bundle row := by
  rcases applyChange_eq_ok applied with
    ⟨_, rfl⟩ | ⟨_, entry, number, present, _, upserted⟩
  · intro row rowMem managed
    obtain ⟨old, oldMem, rfl⟩ := Table.mem_of_map rfl rowMem
    split at managed
    · cases managed
    next other =>
      simp only [other]
      exact .inl ⟨oldMem, by simpa using other⟩
  · rcases applyUpsert_configuration upserted with ⟨mirrors, members⟩
    intro row rowMem managed
    rw [mirrors] at rowMem
    rcases Table.mem_put.mp rowMem with old | rfl
    · exact .inl old
    · exact .inr ⟨entry, present, rfl, _, (members _).mpr (.inr rfl), rfl, rfl⟩

/-- After all changes every managed mirror holds what the bundle says. -/
theorem applyChanges_settled {pending : List ConfigChange} {revision : ℕ} {now : ℤ}
    (applied : pending.foldlM (applyChange bundle revision now) db = .ok after)
    (planned : ∀ row ∈ db.mirrors, row.managed = true →
      (∃ change ∈ pending, change.mirror = row.name) ∨ db.Settled bundle row) :
    ∀ row ∈ after.mirrors, row.managed = true → after.Settled bundle row := by
  induction pending generalizing db with
  | nil =>
      cases applied
      intro row mem managed
      rcases planned row mem managed with ⟨change, none, _⟩ | settled
      · cases none
      · exact settled
  | cons change rest ih =>
      rw [List.foldlM_cons] at applied
      cases first : applyChange bundle revision now db change with
      | error reason => rw [first] at applied; cases applied
      | ok middle =>
          rw [first] at applied
          refine ih applied ?_
          intro row mem managed
          rcases applyChange_settled first row mem managed with ⟨oldMem, other⟩ | settled
          · rcases planned row oldMem managed with ⟨later, laterMem, named⟩ | settled
            · rcases List.mem_cons.mp laterMem with rfl | remaining
              · exact absurd named.symm other
              · exact .inl ⟨later, remaining, named⟩
            · have steps : Relation.ReflTransGen (ConfigStep bundle [change]) db middle :=
                applyChange_steps List.mem_cons_self first
              exact .inr (settled.mono (configSteps_generations steps))
          · exact .inr settled

end Apply

namespace Database.Configured

variable {vendor : Vendor} {texts : Set String} {db : Database}

theorem empty : Database.empty.Configured vendor texts where
  hashed := fun _ mem => absurd mem Table.not_mem_empty
  settled := ⟨.empty vendor, fun _ mem => absurd mem Table.not_mem_empty⟩

/-- Applying a bundle makes it the one in force. -/
theorem apply {bundle : CanonicalBundle vendor} {after : Database} {plan : ConfigPlan} {now : ℤ}
    (configured : db.Configured vendor texts) (sound : db.Sound)
    (distinct : Set.InjOn vendor.textHash texts)
    (texted : ∀ entry ∈ bundle.mirrors, entry.2.canonicalToml ∈ texts)
    (planned : planWithConnection db bundle = .ok plan)
    (applied : plan.changes.foldlM (applyChange bundle (db.revision + 1) now)
      { db with revision := db.revision + 1 } = .ok after) :
    after.Configured vendor texts := by
  refine ⟨configSteps_hashed texted (Database.apply_steps applied) configured.hashed, bundle, ?_⟩
  refine applyChanges_settled applied ?_
  intro row rowMem managed
  obtain ⟨generation, generationMem, keyed, _⟩ := sound.mirrorGeneration row rowMem
  have current : (row, generation) ∈ db.currentMirrors :=
    mem_currentMirrors.mpr ⟨rowMem, Table.find?_eq_some_iff.mpr ⟨generationMem, keyed⟩⟩
  have ⟨_, total, members⟩ := mem_plan_changes planned
  obtain ⟨change, rowPlanned⟩ := total _ current
  cases plannedChange_eq_ok rowPlanned with
  | remove _ _ _ mirror => exact .inl ⟨_, (members _).mpr (.inl ⟨_, current, rowPlanned⟩), mirror⟩
  | upsert _ _ mirror _ => exact .inl ⟨_, (members _).mpr (.inl ⟨_, current, rowPlanned⟩), mirror⟩
  | forgotten _ unmanaged =>
      rw [managed] at unmanaged
      cases unmanaged
  | @same next present _ hash owner =>
      -- the stored text has the hash of the bundle's text, so it is the same text
      obtain ⟨name, _, entry⟩ := CanonicalBundle.get?_eq_some present
      have ⟨storedHash, storedText⟩ := configured.hashed generation generationMem
      have sameText : generation.configToml = next.canonicalToml := by
        apply distinct storedText (texted _ entry)
        rw [← storedHash, ← hash]
        exact bundle.hashed _ entry
      exact .inr ⟨next, present, owner.symm, generation, generationMem, keyed, sameText⟩

theorem step (configured : db.Configured vendor texts) (sound : db.Sound)
    (distinct : Set.InjOn vendor.textHash texts) (operation : StoreOp vendor)
    (texted : appliesTexts texts db operation) :
    (operation.run db).Configured vendor texts := by
  have effect := operation.run_effect db
  generalize operation.run db = after at effect
  rcases effect.configuration with ⟨bundle, baseRevision, now, rfl⟩ | ⟨mirrors, generations⟩
  · cases effect with
    | unchanged => exact configured
    | bookkeeping => exact ⟨configured.hashed, configured.settled⟩
    | configured planned current enforced applied =>
        exact configured.apply sound distinct texted planned applied
  · obtain ⟨bundle, settled⟩ := configured.settled
    refine ⟨by rw [generations]; exact configured.hashed, bundle, ?_⟩
    intro row rowMem managed
    rw [mirrors] at rowMem
    exact (settled row rowMem managed).mono (by rw [generations]; exact fun _ mem => mem)

end Database.Configured

/-- The directory of a run in force is the one the bundle in force gives its mirror. -/
theorem Database.InForce.directory {vendor : Vendor} {middle db : Database}
    {bundle : CanonicalBundle vendor} {attempt : AttemptRow} {run : RunRow} {directory : String}
    (inForce : middle.InForce run)
    (settled : ∀ row ∈ middle.mirrors, row.managed = true → middle.Settled bundle row)
    (middleSound : middle.Sound) (sound : db.Sound)
    (kept : ∀ generation ∈ middle.generations, generation ∈ db.generations)
    (publishes : db.Publishes vendor attempt run directory) :
    ∃ entry ∈ bundle.mirrors, entry.1.value = run.mirrorName ∧
      entry.2.ownerNode.value = run.ownerNode ∧
      directory = joinText attempt.spec.mirrorRoot entry.2.document.mirror.target := by
  obtain ⟨row, rowMem, managed, named, current⟩ := inForce
  obtain ⟨next, present, owner, generation, generationMem, keyed, text⟩ :=
    settled row rowMem managed
  rw [named] at present
  rw [named, current] at keyed
  obtain ⟨name, nameValue, entry⟩ := CanonicalBundle.get?_eq_some present
  -- the run's generation row is the one the bundle in force stored
  obtain ⟨stored, storedMem, storedKey, document, parsed, rfl⟩ := publishes.directory
  have same : stored = generation :=
    Table.eq_of_key_eq storedMem (kept _ generationMem) (storedKey.trans keyed.symm)
  obtain ⟨ownGeneration, ownMem, ownKey, ownOwner⟩ := sound.runGeneration run publishes.runMem
  have sameOwn : ownGeneration = generation :=
    Table.eq_of_key_eq ownMem (kept _ generationMem) (ownKey.trans keyed.symm)
  obtain ⟨rowGeneration, rowGenerationMem, rowKey, rowOwner⟩ :=
    middleSound.mirrorGeneration row rowMem
  have sameRow : rowGeneration = generation := by
    apply Table.eq_of_key_eq rowGenerationMem generationMem
    rw [rowKey, keyed, named, current]
  refine ⟨(name, next), entry, nameValue, ?_, ?_⟩
  · rw [← owner, ← rowOwner, sameRow, ← sameOwn, ownOwner]
  · rw [same, text, bundle.parses _ entry] at parsed
    obtain rfl := Except.ok.inj parsed
    rfl

namespace Sample

end Sample

end LzuMirror
