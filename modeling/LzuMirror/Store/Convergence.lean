import LzuMirror.Store.Coalescing

/-!
# Applying a bundle reaches the bundle

The planner compares hashes and owners of the current generations, `apply` then
works off the changes. A mirror with a change ends up as its entry says; a mirror
without one was like that before, because a configuration hash stands for its
text and the row of an enabled mirror says what its text says
(`Database.Catalogued`). Planning the same bundle again therefore finds nothing
to do.
-/

namespace LzuMirror

/-- The rows of one mirror and its generations agree, and no generation is missing. -/
structure Database.Catalogued (vendor : Vendor) (db : Database) (mirror : String) : Prop where
  valid : ∀ row ∈ db.mirrors, row.name = mirror → validName mirror = true
  parsed : ∀ row generation, db.currentGeneration mirror = some (row, generation) →
    ∃ document, vendor.parseDocument generation.configToml = .ok document ∧
      row.enabled = document.mirror.enabled
  hashed : ∀ generation ∈ db.generations, generation.mirrorName = mirror →
    generation.configHash = vendor.textHash generation.configToml
  numbered : ∀ row ∈ db.mirrors, row.name = mirror → ∀ number,
    (∃ generation ∈ db.generations, generation.key = (mirror, number)) ↔
      1 ≤ number ∧ number ≤ row.currentGeneration
  unknown : (∀ row ∈ db.mirrors, row.name ≠ mirror) →
    ∀ generation ∈ db.generations, generation.mirrorName ≠ mirror

/-- The mirror is managed and its current generation is the given one. -/
structure Database.Stores (db : Database) (mirror : String) (entry : CanonicalMirror)
    (row : MirrorRow) (generation : GenerationRow) : Prop where
  current : db.currentGeneration mirror = some (row, generation)
  managed : row.managed = true
  ownerNode : row.ownerNode = entry.ownerNode.value
  enabled : row.enabled = entry.document.mirror.enabled
  configHash : generation.configHash = entry.configHash
  configToml : generation.configToml = entry.canonicalToml

/-- The mirror is as the bundle says. -/
structure Database.Realises {vendor : Vendor} (db : Database) (bundle : CanonicalBundle vendor)
    (mirror : String) : Prop where
  absent : bundle.get? mirror = none →
    ∀ row ∈ db.mirrors, row.name = mirror → row.managed = false
  present : ∀ entry, bundle.get? mirror = some entry →
    ∃ row generation, db.Stores mirror entry row generation

namespace Database.Catalogued

variable {vendor : Vendor} {db after : Database} {mirror : String} {now : ℤ}

theorem empty : Database.empty.Catalogued vendor mirror where
  valid := fun _ mem => absurd mem Table.not_mem_empty
  parsed := fun _ _ current =>
    absurd (currentGeneration_eq_some.mp current).1 Table.not_mem_empty
  hashed := fun _ mem => absurd mem Table.not_mem_empty
  numbered := fun _ mem => absurd mem Table.not_mem_empty
  unknown := fun _ _ mem => absurd mem Table.not_mem_empty

/-- Only the rows of the mirror and its generations matter. -/
theorem of_rows (catalogued : db.Catalogued vendor mirror)
    (mirrors : ∀ row : MirrorRow, row.name = mirror → (row ∈ after.mirrors ↔ row ∈ db.mirrors))
    (generations : ∀ generation : GenerationRow, generation.mirrorName = mirror →
      (generation ∈ after.generations ↔ generation ∈ db.generations)) :
    after.Catalogued vendor mirror where
  valid := fun row mem named => catalogued.valid row ((mirrors row named).mp mem) named
  parsed := by
    intro row generation current
    rcases currentGeneration_eq_some.mp current with ⟨rowMem, named, mem, owned, number⟩
    apply catalogued.parsed row generation
    exact currentGeneration_eq_some.mpr ⟨(mirrors row named).mp rowMem, named,
      (generations generation owned).mp mem, owned, number⟩
  hashed := fun generation mem owned =>
    catalogued.hashed generation ((generations generation owned).mp mem) owned
  numbered := by
    intro row mem named number
    rw [← catalogued.numbered row ((mirrors row named).mp mem) named number]
    constructor
    · rintro ⟨generation, stored, keyed⟩
      exact ⟨generation, (generations generation (congrArg Prod.fst keyed)).mp stored, keyed⟩
    · rintro ⟨generation, stored, keyed⟩
      exact ⟨generation, (generations generation (congrArg Prod.fst keyed)).mpr stored, keyed⟩
  unknown := by
    intro fresh generation mem owned
    refine catalogued.unknown ?_ generation ((generations generation owned).mp mem) owned
    intro row rowMem named
    exact fresh row ((mirrors row named).mpr rowMem) named

theorem congr (catalogued : db.Catalogued vendor mirror) (same : db.Untouched after mirror) :
    after.Catalogued vendor mirror :=
  catalogued.of_rows same.mirrors same.generations

/-- A removal changes two columns that nothing here reads. -/
theorem remove (catalogued : db.Catalogued vendor mirror) :
    (applyRemove db mirror now).Catalogued vendor mirror := by
  have origin : ∀ row ∈ (applyRemove db mirror now).mirrors, ∃ old ∈ db.mirrors,
      row.name = old.name ∧ row.enabled = old.enabled ∧
        row.currentGeneration = old.currentGeneration := by
    intro row mem
    rcases Table.mem_of_map rfl mem with ⟨old, oldMem, rfl⟩
    refine ⟨old, oldMem, ?_⟩
    split <;> exact ⟨rfl, rfl, rfl⟩
  have kept : ∀ old ∈ db.mirrors, ∃ row ∈ (applyRemove db mirror now).mirrors,
      row.name = old.name := by
    intro old mem
    refine ⟨_, List.mem_map_of_mem mem, ?_⟩
    split <;> rfl
  constructor
  · intro row mem named
    rcases origin row mem with ⟨old, oldMem, sameName, _⟩
    exact catalogued.valid old oldMem (sameName.symm.trans named)
  · intro row generation current
    rcases currentGeneration_eq_some.mp current with ⟨rowMem, named, mem, owned, number⟩
    rcases origin row rowMem with ⟨old, oldMem, sameName, sameEnabled, sameNumber⟩
    rw [sameEnabled]
    apply catalogued.parsed old generation
    exact currentGeneration_eq_some.mpr
      ⟨oldMem, sameName.symm.trans named, mem, owned, number.trans sameNumber⟩
  · exact catalogued.hashed
  · intro row mem named number
    rcases origin row mem with ⟨old, oldMem, sameName, _, sameNumber⟩
    rw [sameNumber]
    exact catalogued.numbered old oldMem (sameName.symm.trans named) number
  · intro fresh
    apply catalogued.unknown
    intro old oldMem named
    rcases kept old oldMem with ⟨row, mem, sameName⟩
    exact fresh row mem (sameName.trans named)

end Database.Catalogued

section Change

variable {vendor : Vendor} {db after : Database} {bundle : CanonicalBundle vendor}
  {change : ConfigChange} {entry : CanonicalMirror} {number revision : ℕ} {now : ℤ}

/-- What a stored entry leaves: its row, and its generation as the current one. -/
theorem applyUpsert_stores
    (upserted : applyUpsert vendor db change entry number revision now = .ok after) :
    ∃ generation, after.Stores change.mirror entry (upsertedRow change entry number) generation ∧
      generation.key = (change.mirror, number) ∧
      ∀ other, other ∈ after.generations ↔ other ∈ db.generations ∨ other = generation := by
  rcases applyUpsert_configuration upserted with ⟨mirrors, members⟩
  refine ⟨_, ⟨?_, rfl, rfl, rfl, rfl, rfl⟩, rfl, members⟩
  refine Database.currentGeneration_eq_some.mpr ⟨?_, rfl, (members _).mpr (.inr rfl), rfl, rfl⟩
  rw [mirrors]
  exact Table.mem_put.mpr (.inr rfl)

/-- The next generation of a mirror is the one that is planned. -/
theorem Database.PlannedFor.next (planned : db.PlannedFor bundle change)
    (catalogued : db.Catalogued vendor change.mirror) (stores : change.kind ≠ .remove)
    (toGeneration : change.toGeneration = some number) (wanted : ℕ) :
    (∃ generation ∈ db.generations, generation.key = (change.mirror, wanted)) ↔
      1 ≤ wanted ∧ wanted < number := by
  cases planned with
  | remove _ _ _ _ kind => exact absurd kind stores
  | create fresh _ _ first =>
      rw [toGeneration, Option.some.injEq] at first
      constructor
      · rintro ⟨generation, mem, keyed⟩
        exact absurd (congrArg Prod.fst keyed) (catalogued.unknown fresh generation mem)
      · omega
  | upsert mem named _ _ second =>
      rw [toGeneration, Option.some.injEq] at second
      rw [catalogued.numbered _ mem named, second]
      omega

theorem Database.Catalogued.upsert (catalogued : db.Catalogued vendor change.mirror)
    (planned : db.PlannedFor bundle change) (stores : change.kind ≠ .remove)
    (toGeneration : change.toGeneration = some number)
    (present : bundle.get? change.mirror = some entry)
    (upserted : applyUpsert vendor db change entry number revision now = .ok after) :
    after.Catalogued vendor change.mirror := by
  rcases CanonicalBundle.get?_eq_some present with ⟨name, sameName, entryMem⟩
  rcases applyUpsert_stores upserted with ⟨stored, isStored, keyed, members⟩
  have positive : 1 ≤ number := by
    cases planned with
    | remove _ _ _ _ kind => exact absurd kind stores
    | create _ _ _ first =>
        rw [toGeneration, Option.some.injEq] at first
        omega
    | upsert _ _ _ _ second =>
        rw [toGeneration, Option.some.injEq] at second
        omega
  have only : ∀ row ∈ after.mirrors, row.name = change.mirror →
      row = upsertedRow change entry number := by
    intro row mem named
    rcases Database.currentGeneration_eq_some.mp isStored.current with ⟨storedMem, _⟩
    exact Table.eq_of_key_eq mem storedMem named
  constructor
  · intro _ _ _
    rw [← sameName]
    exact name.valid
  · intro row generation current
    rw [isStored.current, Option.some.injEq, Prod.mk.injEq] at current
    rcases current with ⟨rfl, rfl⟩
    rw [isStored.configToml]
    exact ⟨entry.document, bundle.parses _ entryMem, rfl⟩
  · intro generation mem owned
    rcases (members generation).mp mem with old | rfl
    · exact catalogued.hashed generation old owned
    · rw [isStored.configHash, isStored.configToml]
      exact bundle.hashed _ entryMem
  · intro row mem named wanted
    have earlier := planned.next catalogued stores toGeneration wanted
    rw [only row mem named]
    change _ ↔ 1 ≤ wanted ∧ wanted ≤ number
    constructor
    · rintro ⟨generation, generationMem, generationKeyed⟩
      rcases (members generation).mp generationMem with old | rfl
      · have bounds := earlier.mp ⟨generation, old, generationKeyed⟩
        omega
      · have same : number = wanted := congrArg Prod.snd (keyed.symm.trans generationKeyed)
        omega
    · intro bounds
      by_cases new : wanted = number
      · exact ⟨stored, (members stored).mpr (.inr rfl), new ▸ keyed⟩
      · rcases earlier.mpr ⟨bounds.1, by omega⟩ with ⟨generation, old, generationKeyed⟩
        exact ⟨generation, (members generation).mpr (.inl old), generationKeyed⟩
  · intro fresh
    rcases Database.currentGeneration_eq_some.mp isStored.current with ⟨storedMem, named, _⟩
    exact absurd named (fresh _ storedMem)

theorem Database.Catalogued.applyChange (catalogued : db.Catalogued vendor change.mirror)
    (planned : db.PlannedFor bundle change)
    (applied : LzuMirror.applyChange bundle revision now db change = .ok after) :
    after.Catalogued vendor change.mirror := by
  rcases applyChange_eq_ok applied with
    ⟨_, rfl⟩ | ⟨stores, entry, number, present, toGeneration, upserted⟩
  · exact catalogued.remove
  · exact catalogued.upsert planned stores toGeneration present upserted

/-- A planned change realises the bundle for its mirror. -/
theorem Database.PlannedFor.realises (planned : db.PlannedFor bundle change)
    (applied : LzuMirror.applyChange bundle revision now db change = .ok after) :
    after.Realises bundle change.mirror := by
  rcases applyChange_eq_ok applied with
    ⟨kind, rfl⟩ | ⟨_, entry, number, present, _, upserted⟩
  · cases planned with
    | remove _ _ _ absent _ =>
        constructor
        · intro _ row mem named
          rcases mem_applyRemove_mirrors mem with ⟨_, unmanaged⟩ | ⟨different, _⟩
          · exact unmanaged
          · exact absurd named different
        · intro entry present
          rw [absent] at present
          cases present
    | create _ _ isCreate =>
        rw [kind] at isCreate
        cases isCreate
    | upsert _ _ _ isUpsert =>
        rw [kind] at isUpsert
        split at isUpsert <;> cases isUpsert
  · constructor
    · intro absent
      rw [present] at absent
      cases absent
    · intro other otherPresent
      rw [present, Option.some.injEq] at otherPresent
      subst otherPresent
      rcases applyUpsert_stores upserted with ⟨generation, stores, _⟩
      exact ⟨_, generation, stores⟩

end Change

/-! ## Every reachable catalogue -/

theorem LifeReachable.catalogued {vendor : Vendor} {db : Database}
    (reachable : LifeReachable vendor db) (mirror : String) : db.Catalogued vendor mirror := by
  have both : db.Sound ∧ ∀ name, db.Catalogued vendor name := by
    apply reachable.invariant
    · exact ⟨.empty, fun _ => .empty⟩
    · rintro before operation ⟨sound, catalogued⟩
      refine ⟨sound.step operation, ?_⟩
      intro name
      rcases (StoreOp.run_effect before operation).configuration with
        ⟨bundle, baseRevision, now, rfl⟩ | ⟨mirrors, generations⟩
      · refine @committed_of_ok _ (fun state => state.Catalogued vendor name) _ _
          (catalogued name) ?_
        intro plan after applied
        rcases Database.apply_eq_ok applied with ⟨plan, planned, _, enforced, folded⟩
        refine Database.apply_invariant sound planned enforced folded ?_ ?_ name (catalogued name)
        · intro earlier later mirror same holds
          exact holds.congr same
        · intro earlier next change _ plannedFor applies holds
          exact holds.applyChange plannedFor applies
      · apply (catalogued name).of_rows
        · rw [mirrors]
          exact fun _ _ => Iff.rfl
        · rw [generations]
          exact fun _ _ => Iff.rfl
    · rintro before restoredAtMs ⟨sound, catalogued⟩
      refine ⟨sound.advance (normalizeRestored_advances before restoredAtMs), ?_⟩
      intro name
      exact (catalogued name).of_rows (fun _ _ => Iff.rfl) fun _ _ => Iff.rfl
  exact both.2 mirror

section Apply

variable {vendor : Vendor} {db after : Database} {bundle : CanonicalBundle vendor} {now : ℤ}

/-- A mirror for which nothing is planned is as the bundle says already. -/
theorem realises_of_unplanned {plan : ConfigPlan} {mirror : String} (sound : db.Sound)
    (catalogued : db.Catalogued vendor mirror)
    (distinguishes : ∀ generation ∈ db.generations, ∀ entry ∈ bundle.mirrors,
      vendor.textHash generation.configToml = vendor.textHash entry.2.canonicalToml →
        generation.configToml = entry.2.canonicalToml)
    (planned : planWithConnection db bundle = .ok plan)
    (unplanned : ∀ change ∈ plan.changes, change.mirror ≠ mirror) :
    db.Realises bundle mirror := by
  rcases mem_plan_changes planned with ⟨_, compared, members⟩
  -- every row of the mirror was compared, without a change
  have settled : ∀ row ∈ db.mirrors, row.name = mirror →
      ∃ generation, (row, generation) ∈ db.currentMirrors ∧ RowChange bundle row generation none := by
    intro row mem named
    rcases sound.mem_currentMirrors mem with ⟨generation, current⟩
    rcases compared _ current with ⟨change, comparison⟩
    refine ⟨generation, current, ?_⟩
    cases change with
    | none => exact plannedChange_eq_ok comparison
    | some change =>
        have listed := (members change).mpr (.inl ⟨_, current, comparison⟩)
        have concerns : change.mirror = row.name := by
          cases plannedChange_eq_ok comparison with
          | remove _ _ _ mirror => exact mirror
          | upsert _ _ mirror _ => exact mirror
        exact absurd (concerns.trans named) (unplanned change listed)
  constructor
  · intro absent row mem named
    rcases settled row mem named with ⟨generation, _, unchanged⟩
    cases unchanged with
    | forgotten _ unmanaged => exact unmanaged
    | same present =>
        rw [named, absent] at present
        cases present
  · intro entry present
    rcases CanonicalBundle.get?_eq_some present with ⟨name, sameName, entryMem⟩
    -- an entry without a row would have been created
    have known : ∃ row ∈ db.mirrors, row.name = mirror := by
      by_contra fresh
      push Not at fresh
      have created : ∃ change ∈ createdChanges bundle db.currentMirrors,
          change.mirror = mirror := by
        refine ⟨_, List.mem_filterMap.mpr ⟨(name, entry), entryMem, if_neg ?_⟩, sameName⟩
        simp only [List.any_eq_true, decide_eq_true_eq, not_exists, not_and]
        rintro ⟨row, generation⟩ current
        rw [sameName]
        exact fresh row (mem_currentMirrors.mp current).1
      rcases created with ⟨change, mem, concerns⟩
      exact unplanned change ((members change).mpr (.inr mem)) concerns
    rcases known with ⟨row, mem, named⟩
    rcases settled row mem named with ⟨generation, current, unchanged⟩
    rcases mem_currentMirrors.mp current with ⟨_, found⟩
    rcases Table.find?_eq_some_iff.mp found with ⟨generationMem, keyed⟩
    have owned : generation.mirrorName = mirror := (congrArg Prod.fst keyed).trans named
    have isCurrent : db.currentGeneration mirror = some (row, generation) :=
      Database.currentGeneration_eq_some.mpr
        ⟨mem, named, generationMem, owned, congrArg Prod.snd keyed⟩
    cases unchanged with
    | forgotten absent =>
        rw [named, present] at absent
        cases absent
    | same samePresent managed hash owner =>
        rw [named, present, Option.some.injEq] at samePresent
        subst samePresent
        have text : generation.configToml = entry.canonicalToml := by
          apply distinguishes generation generationMem _ entryMem
          rw [← catalogued.hashed generation generationMem owned, ← hash]
          exact bundle.hashed _ entryMem
        rcases catalogued.parsed row generation isCurrent with ⟨document, parses, enabled⟩
        rw [text, bundle.parses _ entryMem, Except.ok.injEq] at parses
        exact ⟨row, generation, isCurrent, managed, owner.symm, by rw [enabled, parses], hash.symm,
          text⟩

theorem Database.Realises.congr {mirror : String} (realises : db.Realises bundle mirror)
    (same : db.Untouched after mirror) : after.Realises bundle mirror where
  absent := fun missing row mem named =>
    realises.absent missing row ((same.mirrors row named).mp mem) named
  present := by
    intro entry listed
    rcases realises.present entry listed with ⟨row, generation, stores⟩
    exact ⟨row, generation, { stores with
      current := same.currentGeneration.trans stores.current }⟩

theorem plannedChanges_eq_nil {current : List (MirrorRow × GenerationRow)}
    (unchanged : ∀ entry ∈ current, plannedChange bundle entry.1 entry.2 = .ok none) :
    plannedChanges bundle current = .ok [] := by
  induction current with
  | nil => rfl
  | cons head rest ih =>
      have first := unchanged head List.mem_cons_self
      have later := ih fun entry mem => unchanged entry (List.mem_cons_of_mem _ mem)
      simp only [plannedChanges, first, later]
      rfl

/-- There is nothing to plan for a bundle that is realised. -/
theorem plan_of_realises (sound : db.Sound)
    (valid : ∀ row ∈ db.mirrors, validName row.name = true)
    (realises : ∀ mirror, db.Realises bundle mirror) :
    ∃ plan, planWithConnection db bundle = .ok plan ∧ plan.changes = [] := by
  have unchanged : ∀ entry ∈ db.currentMirrors,
      plannedChange bundle entry.1 entry.2 = .ok none := by
    rintro ⟨row, generation⟩ current
    rcases mem_currentMirrors.mp current with ⟨mem, found⟩
    rcases Table.find?_eq_some_iff.mp found with ⟨generationMem, keyed⟩
    rcases Prod.mk.inj keyed with ⟨owned, number⟩
    unfold plannedChange
    simp only [valid row mem, Bool.true_eq_false, if_false]
    cases listed : bundle.get? row.name with
    | none => simp [(realises row.name).absent listed row mem rfl]
    | some entry =>
        rcases (realises row.name).present entry listed with ⟨known, stored, stores⟩
        have isCurrent : db.currentGeneration row.name = some (row, generation) :=
          Database.currentGeneration_eq_some.mpr ⟨mem, rfl, generationMem, owned, number⟩
        have same := stores.current
        rw [isCurrent, Option.some.injEq, Prod.mk.injEq] at same
        rcases same with ⟨rfl, rfl⟩
        simp [stores.managed, stores.configHash, stores.ownerNode]
  have created : createdChanges bundle db.currentMirrors = [] := by
    rw [createdChanges, List.filterMap_eq_nil_iff]
    rintro ⟨name, entry⟩ entryMem
    apply if_pos
    rcases (realises name.value).present entry (bundle.get?_of_mem entryMem) with
      ⟨row, generation, stores⟩
    rcases Database.currentGeneration_eq_some.mp stores.current with ⟨mem, named, _⟩
    rcases sound.mem_currentMirrors mem with ⟨found, current⟩
    exact List.any_eq_true.mpr ⟨_, current, decide_eq_true named⟩
  refine ⟨⟨db.revision, bundle.bundleHash, []⟩, ?_, rfl⟩
  simp only [planWithConnection, plannedChanges_eq_nil unchanged, created]
  rfl

/-- The changes that are reported are the ones that were planned. -/
theorem Database.apply_changes {baseRevision : ℕ} {plan result : ConfigPlan}
    (planned : planWithConnection db bundle = .ok plan)
    (applied : db.apply bundle baseRevision now = .ok (result, after)) :
    result.changes = plan.changes := by
  unfold Database.apply at applied
  rw [planned] at applied
  simp only [bind, Except.bind] at applied
  split at applied
  · cases applied
  · split at applied
    · cases applied
    · split at applied
      · cases applied
      · cases applied
        rfl

/-- A successful `apply` realises the bundle for every mirror. -/
theorem Database.apply_realises {baseRevision : ℕ} {plan : ConfigPlan} (sound : db.Sound)
    (catalogued : ∀ mirror, db.Catalogued vendor mirror)
    (distinguishes : ∀ generation ∈ db.generations, ∀ entry ∈ bundle.mirrors,
      vendor.textHash generation.configToml = vendor.textHash entry.2.canonicalToml →
        generation.configToml = entry.2.canonicalToml)
    (applied : db.apply bundle baseRevision now = .ok (plan, after)) (mirror : String) :
    after.Realises bundle mirror := by
  rcases Database.apply_eq_ok applied with ⟨plan, planned, _, enforced, folded⟩
  rcases Database.apply_local sound planned enforced folded mirror with
    ⟨unplanned, same⟩ | ⟨change, _, rfl, before, next, _, _, plannedFor, applies, later⟩
  · exact (realises_of_unplanned sound (catalogued mirror) distinguishes planned unplanned).congr
      same
  · exact (plannedFor.realises applies).congr later

/-- Generations are only added. -/
theorem Database.apply_generations {baseRevision : ℕ} {plan : ConfigPlan} (sound : db.Sound)
    (applied : db.apply bundle baseRevision now = .ok (plan, after)) :
    ∀ generation ∈ db.generations, generation ∈ after.generations := by
  rcases Database.apply_eq_ok applied with ⟨plan, planned, _, enforced, folded⟩
  intro generation mem
  rcases Database.apply_local sound planned enforced folded generation.mirrorName with
    ⟨_, same⟩ | ⟨change, _, concerns, before, next, _, earlier, _, applies, later⟩
  · exact (same.generations generation rfl).mpr mem
  · refine (later.generations generation rfl).mpr ?_
    have known := (earlier.generations generation rfl).mpr mem
    rcases applyChange_eq_ok applies with ⟨_, rfl⟩ | ⟨_, entry, number, _, _, upserted⟩
    · exact known
    · rcases applyUpsert_stores upserted with ⟨_, _, _, members⟩
      exact (members generation).mpr (.inl known)

end Apply

/--
Applying a bundle in any database that transactions and restores lead to, given
that the hash tells its texts from the stored ones. On success the managed
mirrors are exactly those of the bundle, each with the owner, the enabled flag,
the hash and the text of its entry as its current generation; planning the
bundle again finds no change; the generations of every mirror are numbered from
one to the current one, and those that existed are unchanged; a mirror without a
planned change keeps all its rows; and a mirror that was and stays managed and
enabled, with its owner and its schedule hash, keeps its schedule row. On failure
the database is the one before.
-/
theorem apply_reaches_bundle {vendor : Vendor} {db : Database}
    (reached : LifeReachable vendor db) (bundle : CanonicalBundle vendor) (baseRevision : ℕ)
    (now : ℤ)
    (distinguishes : ∀ generation ∈ db.generations, ∀ entry ∈ bundle.mirrors,
      vendor.textHash generation.configToml = vendor.textHash entry.2.canonicalToml →
        generation.configToml = entry.2.canonicalToml) :
    (∀ plan after, db.apply bundle baseRevision now = .ok (plan, after) →
      (∀ mirror, (∃ row ∈ after.mirrors, row.name = mirror ∧ row.managed = true) ↔
        ∃ entry ∈ bundle.mirrors, entry.1.value = mirror) ∧
      (∀ entry ∈ bundle.mirrors, ∃ row generation,
        after.Stores entry.1.value entry.2 row generation) ∧
      (∃ again, planWithConnection after bundle = .ok again ∧ again.changes = []) ∧
      (∀ row ∈ after.mirrors, ∀ number,
        (∃ generation ∈ after.generations, generation.key = (row.name, number)) ↔
          1 ≤ number ∧ number ≤ row.currentGeneration) ∧
      (∀ generation ∈ db.generations, generation ∈ after.generations) ∧
      (∀ mirror, (∀ change ∈ plan.changes, change.mirror ≠ mirror) →
        db.Untouched after mirror) ∧
      ∀ mirror old entry config, db.HasSchedule vendor mirror old →
        bundle.get? mirror = some entry → entry.document.mirror.enabled = true →
        entry.document.schedule = some config →
        (∀ row ∈ db.mirrors, row.name = mirror → row.ownerNode = entry.ownerNode.value) →
        vendor.scheduleHash config = vendor.scheduleHash old →
          ∀ schedule : ScheduleRow, schedule.mirrorName = mirror →
            (schedule ∈ after.schedules ↔ schedule ∈ db.schedules)) ∧
    ∀ reason, db.apply bundle baseRevision now = .error reason →
      (StoreOp.apply bundle baseRevision now).run db = db := by
  have sound := reached.sound
  have scheduled := reached.scheduled
  constructor
  · intro plan after applied
    have run : (StoreOp.apply bundle baseRevision now).run db = after := by
      simp only [StoreOp.run, applied, committed]
    have later : LifeReachable vendor after := by
      rw [← run]
      exact reached.tail (.inl ⟨_, trivial, rfl⟩)
    have realises := Database.apply_realises sound reached.catalogued distinguishes applied
    refine ⟨?_, ?_, ?_, ?_, Database.apply_generations sound applied, ?_, ?_⟩
    · intro mirror
      constructor
      · rintro ⟨row, mem, named, managed⟩
        cases listed : bundle.get? mirror with
        | none =>
            rw [(realises mirror).absent listed row mem named] at managed
            cases managed
        | some entry =>
            rcases CanonicalBundle.get?_eq_some listed with ⟨name, sameName, entryMem⟩
            exact ⟨_, entryMem, sameName⟩
      · rintro ⟨⟨name, entry⟩, entryMem, rfl⟩
        rcases (realises _).present entry (bundle.get?_of_mem entryMem) with
          ⟨row, generation, stores⟩
        rcases Database.currentGeneration_eq_some.mp stores.current with ⟨mem, named, _⟩
        exact ⟨row, mem, named, stores.managed⟩
    · rintro ⟨name, entry⟩ entryMem
      exact (realises _).present entry (bundle.get?_of_mem entryMem)
    · exact plan_of_realises later.sound
        (fun row mem => (later.catalogued row.name).valid row mem rfl) realises
    · intro row mem
      exact (later.catalogued row.name).numbered row mem rfl
    · intro mirror unplanned
      rcases Database.apply_eq_ok applied with ⟨made, planned, _, enforced, folded⟩
      rw [Database.apply_changes planned applied] at unplanned
      rcases Database.apply_local sound planned enforced folded mirror with
        ⟨_, same⟩ | ⟨change, mem, concerns, _⟩
      · exact same
      · exact absurd concerns (unplanned change mem)
    · intro mirror old entry config configured present enabled isScheduled owner sameHash
      have hashed : ∀ schedule ∈ db.schedules, schedule.mirrorName = mirror →
          schedule.scheduleHash = some (vendor.scheduleHash config) := by
        intro schedule mem named
        rcases (scheduled mirror).fits schedule mem named with ⟨known, knownConfigured, hash⟩
        rw [hash, sameHash, knownConfigured.unique configured]
      have kept := Database.KeepsSchedule.kept
        ⟨entry, config, present, enabled, isScheduled, owner, hashed⟩ sound scheduled applied
      intro schedule named
      constructor
      · intro mem
        rcases (scheduled mirror).stored old configured with ⟨known, knownMem, knownNamed⟩
        have same := Table.eq_of_key_eq mem (kept known knownMem knownNamed)
          (named.trans knownNamed.symm)
        rw [same]
        exact knownMem
      · intro mem
        exact kept schedule mem named
  · intro reason failed
    simp only [StoreOp.run, failed, committed]

/-! A mirror that is removed and comes back. -/

/-- `delta` is configured and removed again. -/
def Sample.removedDelta : List (StoreOp Sample.cronVendor) :=
  [.apply (Sample.deltaBundle Sample.nodeA) 0 1000,
    .apply (CanonicalBundle.empty Sample.cronVendor) 1 2000]

theorem apply_reaches_bundle_again :
    ∃ plan after, (StoreOp.runAll .empty Sample.removedDelta).apply
        (Sample.deltaBundle Sample.nodeA) 2 3000 = .ok (plan, after) ∧
      after.mirrors.any (fun row => decide (row.currentGeneration = 2)) = true ∧
      (∃ again, planWithConnection after (Sample.deltaBundle Sample.nodeA) = .ok again ∧
        again.changes = []) ∧
      ∀ generation ∈ (StoreOp.runAll .empty Sample.removedDelta).generations,
        generation ∈ after.generations := by
  have reached : LifeReachable Sample.cronVendor (StoreOp.runAll .empty Sample.removedDelta) :=
    StoreOp.lifeSteps_runAll _ _
  have texts : ∀ generation ∈ (StoreOp.runAll .empty Sample.removedDelta).generations,
      generation.configToml = Sample.deltaToml := by
    have every : (StoreOp.runAll .empty Sample.removedDelta).generations.rows.all
        (fun generation => decide (generation.configToml = Sample.deltaToml)) = true := by
      decide +kernel
    intro generation mem
    exact of_decide_eq_true (List.all_eq_true.mp every generation (Table.mem_def.mp mem))
  have outcome : (((StoreOp.runAll .empty Sample.removedDelta).apply
      (Sample.deltaBundle Sample.nodeA) 2 3000).toOption.any fun result =>
        result.2.mirrors.any fun row => decide (row.currentGeneration = 2)) = true := by
    decide +kernel
  have reaches := apply_reaches_bundle reached (Sample.deltaBundle Sample.nodeA) 2 3000 (by
    intro generation mem entry entryMem _
    rw [texts generation mem, List.mem_singleton.mp entryMem])
  cases applied : (StoreOp.runAll .empty Sample.removedDelta).apply
      (Sample.deltaBundle Sample.nodeA) 2 3000 with
  | error reason =>
      rw [applied] at outcome
      cases outcome
  | ok result =>
      rw [applied] at outcome
      rcases reaches.1 result.1 result.2 applied with ⟨_, _, again, _, kept, _⟩
      exact ⟨result.1, result.2, rfl, outcome, again, kept⟩

end LzuMirror
