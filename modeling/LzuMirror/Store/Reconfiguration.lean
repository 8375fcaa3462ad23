import LzuMirror.Store.Lifecycle

/-!
# A configuration change, mirror by mirror

The changes of one plan concern different mirrors, and applying a change leaves
every row of every other mirror alone (`Database.Untouched`). What `apply` does
to one mirror is therefore what the one change planned for it does, and a
property that speaks about the rows of one mirror is kept by `apply` as soon as
it is kept by that change (`Database.apply_local`).
-/

namespace LzuMirror

/-- No row that belongs to the mirror has changed. -/
structure Database.Untouched (before after : Database) (mirror : String) : Prop where
  mirrors : ∀ row : MirrorRow, row.name = mirror → (row ∈ after.mirrors ↔ row ∈ before.mirrors)
  generations : ∀ generation : GenerationRow, generation.mirrorName = mirror →
    (generation ∈ after.generations ↔ generation ∈ before.generations)
  schedules : ∀ schedule : ScheduleRow, schedule.mirrorName = mirror →
    (schedule ∈ after.schedules ↔ schedule ∈ before.schedules)
  runs : ∀ run : RunRow, run.mirrorName = mirror → (run ∈ after.runs ↔ run ∈ before.runs)
  attempts : ∀ run ∈ before.runs, run.mirrorName = mirror → ∀ attempt : AttemptRow,
    attempt.runId = run.id → (attempt ∈ after.attempts ↔ attempt ∈ before.attempts)

/-- What was planned for one mirror, read off the state the change is applied in. -/
inductive Database.PlannedFor {vendor : Vendor} (db : Database) (bundle : CanonicalBundle vendor)
    (change : ConfigChange) : Prop where
  | remove {row : MirrorRow} (mem : row ∈ db.mirrors) (named : row.name = change.mirror)
      (managed : row.managed = true) (absent : bundle.get? change.mirror = none)
      (kind : change.kind = .remove)
  | create {entry : CanonicalMirror} (fresh : ∀ row ∈ db.mirrors, row.name ≠ change.mirror)
      (present : bundle.get? change.mirror = some entry) (kind : change.kind = .create)
      (toGeneration : change.toGeneration = some 1)
  | upsert {row : MirrorRow} {entry : CanonicalMirror} (mem : row ∈ db.mirrors)
      (named : row.name = change.mirror) (present : bundle.get? change.mirror = some entry)
      (kind : change.kind =
        if row.managed ∧ entry.ownerNode.value ≠ row.ownerNode then .move else .update)
      (toGeneration : change.toGeneration = some (row.currentGeneration + 1))
      (quiet : change.kind = .move → db.hasActiveRun change.mirror = false)

namespace Database.Untouched

variable {db after : Database} {mirror : String} {now : ℤ}

theorem refl (db : Database) (mirror : String) : db.Untouched db mirror :=
  ⟨fun _ _ => Iff.rfl, fun _ _ => Iff.rfl, fun _ _ => Iff.rfl, fun _ _ => Iff.rfl,
    fun _ _ _ _ _ => Iff.rfl⟩

theorem trans {first second third : Database} (left : first.Untouched second mirror)
    (right : second.Untouched third mirror) : first.Untouched third mirror where
  mirrors := fun row named => (right.mirrors row named).trans (left.mirrors row named)
  generations := fun row named => (right.generations row named).trans (left.generations row named)
  schedules := fun row named => (right.schedules row named).trans (left.schedules row named)
  runs := fun row named => (right.runs row named).trans (left.runs row named)
  attempts := by
    intro run mem named attempt owned
    have later := right.attempts run ((left.runs run named).mpr mem) named attempt owned
    exact later.trans (left.attempts run mem named attempt owned)

theorem symm (same : db.Untouched after mirror) : after.Untouched db mirror where
  mirrors := fun row named => (same.mirrors row named).symm
  generations := fun row named => (same.generations row named).symm
  schedules := fun row named => (same.schedules row named).symm
  runs := fun row named => (same.runs row named).symm
  attempts := fun run mem named attempt owned =>
    (same.attempts run ((same.runs run named).mp mem) named attempt owned).symm

theorem hasActiveRun (same : db.Untouched after mirror) :
    after.hasActiveRun mirror = db.hasActiveRun mirror := by
  rw [Bool.eq_iff_iff, Database.hasActiveRun_eq_true, Database.hasActiveRun_eq_true]
  constructor
  · rintro ⟨run, mem, named, active⟩
    exact ⟨run, (same.runs run named).mp mem, named, active⟩
  · rintro ⟨run, mem, named, active⟩
    exact ⟨run, (same.runs run named).mpr mem, named, active⟩

theorem currentGeneration (same : db.Untouched after mirror) :
    after.currentGeneration mirror = db.currentGeneration mirror := by
  ext ⟨row, generation⟩
  simp only [Database.currentGeneration_eq_some]
  constructor
  · rintro ⟨rowMem, named, generationMem, owned, number⟩
    exact ⟨(same.mirrors row named).mp rowMem, named,
      (same.generations generation owned).mp generationMem, owned, number⟩
  · rintro ⟨rowMem, named, generationMem, owned, number⟩
    exact ⟨(same.mirrors row named).mpr rowMem, named,
      (same.generations generation owned).mpr generationMem, owned, number⟩

end Database.Untouched

theorem Database.PlannedFor.congr {vendor : Vendor} {db after : Database}
    {bundle : CanonicalBundle vendor} {change : ConfigChange} (planned : db.PlannedFor bundle change)
    (same : db.Untouched after change.mirror) : after.PlannedFor bundle change := by
  cases planned with
  | remove mem named managed absent kind =>
      exact .remove ((same.mirrors _ named).mpr mem) named managed absent kind
  | create fresh present kind toGeneration =>
      refine .create ?_ present kind toGeneration
      intro row mem named
      exact fresh row ((same.mirrors row named).mp mem) named
  | upsert mem named present kind toGeneration quiet =>
      refine .upsert ((same.mirrors _ named).mpr mem) named present kind toGeneration ?_
      rw [same.hasActiveRun]
      exact quiet

/-! ## What a change leaves alone -/

section Frame

variable {vendor : Vendor} {db after : Database} {mirror other : String} {now : ℤ}

theorem cancelUndispatchedPending_untouched (different : other ≠ mirror) :
    db.Untouched (cancelUndispatchedPending db mirror now) other where
  mirrors := fun _ _ => Iff.rfl
  generations := fun _ _ => Iff.rfl
  schedules := fun _ _ => Iff.rfl
  runs := by
    intro run named
    refine Table.mem_update_of_apart rfl ?_ ?_
    · simp [named, different]
    · intro old matched same
      simp only [Bool.and_eq_true, decide_eq_true_eq] at matched
      rw [← same] at named
      exact different (named.symm.trans matched.1.1)
  attempts := by
    intro run mem named attempt owned
    have foreign : ∀ candidate ∈ db.runs, candidate.id = attempt.runId →
        candidate.mirrorName ≠ mirror := by
      intro candidate candidateMem same
      rw [Table.eq_of_key_eq candidateMem mem (same.trans owned), named]
      exact different
    refine Table.mem_update_of_apart rfl ?_ ?_
    · simp only [Bool.and_eq_false_iff, Table.any_eq_false]
      refine .inl (.inl ?_)
      intro candidate candidateMem
      by_cases same : candidate.id = attempt.runId
      · simp [foreign candidate candidateMem same]
      · simp [same]
    · intro old matched same
      simp only [Bool.and_eq_true, Table.any_eq_true, decide_eq_true_eq] at matched
      rcases matched.1.1 with ⟨candidate, candidateMem, ⟨candidateId, candidateMirror⟩, _⟩
      refine foreign candidate candidateMem ?_ candidateMirror
      rw [candidateId, ← same]

theorem finalizeIneligibleRetries_untouched (different : other ≠ mirror) :
    db.Untouched (finalizeIneligibleRetries db mirror now) other where
  mirrors := fun _ _ => Iff.rfl
  generations := fun _ _ => Iff.rfl
  schedules := fun _ _ => Iff.rfl
  runs := by
    intro run named
    refine Table.mem_update_of_apart rfl ?_ ?_
    · simp [named, different]
    · intro old matched same
      simp only [Bool.and_eq_true, decide_eq_true_eq] at matched
      have kept : run.mirrorName = old.mirrorName := by
        rw [← same]
        split <;> rfl
      exact different (named.symm.trans (kept.trans matched.1.1))
  attempts := fun _ _ _ _ _ => Iff.rfl

theorem settleRuns_untouched {change : ConfigChange} {enabled : Bool}
    (different : other ≠ change.mirror) :
    db.Untouched (settleRuns db change enabled now) other := by
  unfold settleRuns
  split
  · exact (cancelUndispatchedPending_untouched different).trans
      (finalizeIneligibleRetries_untouched different)
  · split
    · exact finalizeIneligibleRetries_untouched different
    · exact .refl db other

theorem unmanage_untouched (different : other ≠ mirror) :
    db.Untouched { db with
      mirrors := db.mirrors.update (fun row => row.name = mirror)
        (fun row => { row with managed := false, removedAtMs := some now }) } other where
  mirrors := by
    intro row named
    refine Table.mem_update_of_apart rfl ?_ ?_
    · simp [named, different]
    · intro old matched same
      rw [← same] at named
      exact different (named.symm.trans (of_decide_eq_true matched))
  generations := fun _ _ => Iff.rfl
  schedules := fun _ _ => Iff.rfl
  runs := fun _ _ => Iff.rfl
  attempts := fun _ _ _ _ _ => Iff.rfl

theorem schedules_untouched {schedules : Table ScheduleRow.mirrorName}
    (kept : ∀ schedule : ScheduleRow, schedule.mirrorName = other →
      (schedule ∈ schedules ↔ schedule ∈ db.schedules)) :
    db.Untouched { db with schedules } other :=
  ⟨fun _ _ => Iff.rfl, fun _ _ => Iff.rfl, kept, fun _ _ => Iff.rfl, fun _ _ _ _ _ => Iff.rfl⟩

theorem applyRemove_untouched (different : other ≠ mirror) :
    db.Untouched (applyRemove db mirror now) other := by
  refine (((unmanage_untouched different).trans
    (cancelUndispatchedPending_untouched different)).trans
      (finalizeIneligibleRetries_untouched different)).trans (schedules_untouched ?_)
  intro schedule named
  apply Database.mem_delete_schedule.trans
  apply and_iff_left
  rw [named]
  exact different

theorem reconcileSchedule_untouched {change : ConfigChange} {document : MirrorDocument}
    {ownerNode : String} {previous : Option MirrorRow} (different : other ≠ change.mirror)
    (reconciled : reconcileSchedule vendor db change document ownerNode previous now = .ok after) :
    db.Untouched after other := by
  have reconciles := reconcileSchedule_reconciles reconciled
  rw [reconciles.frame]
  apply schedules_untouched
  intro schedule named
  exact reconciles.elsewhere (named ▸ different)

theorem applyUpsert_untouched {change : ConfigChange} {entry : CanonicalMirror}
    {number revision : ℕ} (different : other ≠ change.mirror)
    (upserted : applyUpsert vendor db change entry number revision now = .ok after) :
    db.Untouched after other := by
  unfold applyUpsert at upserted
  simp only at upserted
  split at upserted
  · cases upserted
  next generations inserted =>
    have reconciled := reconcileSchedule_untouched different upserted
    have settled := @settleRuns_untouched { db with
      mirrors := db.mirrors.put (upsertedRow change entry number) } other now change
        entry.document.mirror.enabled different
    refine Database.Untouched.trans ?_ ((settled.trans ?_).trans reconciled)
    · refine ⟨?_, fun _ _ => Iff.rfl, fun _ _ => Iff.rfl, fun _ _ => Iff.rfl,
        fun _ _ _ _ _ => Iff.rfl⟩
      intro row named
      have apart : row.name ≠ change.mirror := by
        rw [named]
        exact different
      have foreign : row ≠ upsertedRow change entry number := by
        rintro rfl
        exact apart rfl
      rw [Table.mem_put]
      simp only [foreign, or_false]
      exact and_iff_left apart
    · refine ⟨fun _ _ => Iff.rfl, ?_, fun _ _ => Iff.rfl, fun _ _ => Iff.rfl,
        fun _ _ _ _ _ => Iff.rfl⟩
      intro generation named
      rw [(Table.insert?_eq_some inserted).2]
      apply or_iff_left
      rintro rfl
      exact different named.symm

theorem applyChange_untouched {bundle : CanonicalBundle vendor} {change : ConfigChange}
    {revision : ℕ} (different : other ≠ change.mirror)
    (applied : applyChange bundle revision now db change = .ok after) :
    db.Untouched after other := by
  rcases applyChange_eq_ok applied with ⟨_, rfl⟩ | ⟨_, entry, number, _, _, upserted⟩
  · exact applyRemove_untouched different
  · exact applyUpsert_untouched different upserted

theorem applyChanges_untouched {bundle : CanonicalBundle vendor} {pending : List ConfigChange}
    {revision : ℕ} (different : ∀ change ∈ pending, other ≠ change.mirror)
    (applied : pending.foldlM (applyChange bundle revision now) db = .ok after) :
    db.Untouched after other := by
  induction pending generalizing db with
  | nil =>
      cases applied
      exact .refl _ other
  | cons change rest ih =>
      rw [List.foldlM_cons] at applied
      cases first : applyChange bundle revision now db change with
      | error reason => rw [first] at applied; cases applied
      | ok middle =>
          rw [first] at applied
          have head := applyChange_untouched (different change List.mem_cons_self) first
          exact head.trans
            (ih (fun later mem => different later (List.mem_cons_of_mem _ mem)) applied)

/-- Around one change of a list that names every mirror once. -/
theorem applyChanges_local {bundle : CanonicalBundle vendor} {pending : List ConfigChange}
    {revision : ℕ} {change : ConfigChange} (sound : db.Sound)
    (distinct : (pending.map (·.mirror)).Nodup) (mem : change ∈ pending)
    (applied : pending.foldlM (applyChange bundle revision now) db = .ok after) :
    ∃ before next, before.Sound ∧ db.Untouched before change.mirror ∧
      applyChange bundle revision now before change = .ok next ∧
      next.Untouched after change.mirror := by
  induction pending generalizing db with
  | nil => cases mem
  | cons head rest ih =>
      rw [List.map_cons, List.nodup_cons] at distinct
      rw [List.foldlM_cons] at applied
      cases first : applyChange bundle revision now db head with
      | error reason => rw [first] at applied; cases applied
      | ok middle =>
          rw [first] at applied
          rcases List.mem_cons.mp mem with rfl | later
          · refine ⟨db, middle, sound, .refl db _, first, applyChanges_untouched ?_ applied⟩
            intro other otherMem same
            exact distinct.1 (List.mem_map.mpr ⟨other, otherMem, same.symm⟩)
          · have steps := @applyChange_steps vendor bundle [head] _ _ _ _ _
              (List.mem_singleton.mpr rfl) first
            rcases ih (sound.configSteps steps) distinct.2 later applied with
              ⟨before, next, beforeSound, same, applies, rest⟩
            refine ⟨before, next, beforeSound, ?_, applies, rest⟩
            refine (applyChange_untouched ?_ first).trans same
            intro same
            exact distinct.1 (List.mem_map.mpr ⟨change, later, same⟩)

end Frame

/-! ## What is planned -/

section Plan

variable {vendor : Vendor} {db : Database} {bundle : CanonicalBundle vendor}

theorem CanonicalBundle.names_nodup (bundle : CanonicalBundle vendor) :
    (bundle.mirrors.map (·.1.value)).Nodup := by
  rw [List.nodup_iff_pairwise_ne, List.pairwise_map]
  refine bundle.ordered.imp ?_
  intro first second earlier same
  rw [same] at earlier
  exact String.lt_irrefl _ earlier

theorem CanonicalBundle.get?_of_mem {name : MirrorName} {entry : CanonicalMirror}
    (mem : (name, entry) ∈ bundle.mirrors) : bundle.get? name.value = some entry := by
  unfold CanonicalBundle.get?
  cases found : bundle.mirrors.find? fun other => other.1.value = name.value with
  | none =>
      have missing := List.find?_eq_none.mp found _ mem
      simp at missing
  | some other =>
      have otherMem := List.mem_of_find?_eq_some found
      have named : other.1.value = name.value := by simpa using List.find?_some found
      have same : other = (name, entry) :=
        List.inj_on_of_nodup_map bundle.names_nodup otherMem mem named
      rw [same]
      rfl

/-- The names taken from the selected elements of a list. -/
theorem map_filterMap_sublist {α β γ : Type} {select : α → Option β} {ofSelected : β → γ}
    {ofAll : α → γ} (agree : ∀ a b, select a = some b → ofSelected b = ofAll a) (list : List α) :
    ((list.filterMap select).map ofSelected).Sublist (list.map ofAll) := by
  induction list with
  | nil => exact .slnil
  | cons head rest ih =>
      cases selected : select head with
      | none =>
          rw [List.filterMap_cons_none selected, List.map_cons]
          exact ih.cons _
      | some chosen =>
          rw [List.filterMap_cons_some selected, List.map_cons, List.map_cons,
            agree head chosen selected]
          exact ih.cons_cons _

theorem plannedChanges_mirrors {current : List (MirrorRow × GenerationRow)}
    {changes : List ConfigChange} (planned : plannedChanges bundle current = .ok changes) :
    (changes.map (·.mirror)).Sublist (current.map (·.1.name)) := by
  induction current generalizing changes with
  | nil =>
      cases planned
      exact .slnil
  | cons entry rest ih =>
      simp only [plannedChanges] at planned
      cases headPlanned : plannedChange bundle entry.1 entry.2 with
      | error reason => rw [headPlanned] at planned; cases planned
      | ok head =>
          rw [headPlanned] at planned
          cases restPlanned : plannedChanges bundle rest with
          | error reason => rw [restPlanned] at planned; cases planned
          | ok others =>
              rw [restPlanned] at planned
              cases planned
              have later := ih restPlanned
              cases plannedChange_eq_ok headPlanned with
              | forgotten | same => exact later.cons _
              | remove _ _ _ mirror =>
                  simp only [Option.toList_some, List.singleton_append, List.map_cons, mirror]
                  exact later.cons_cons _
              | upsert _ _ mirror _ =>
                  simp only [Option.toList_some, List.singleton_append, List.map_cons, mirror]
                  exact later.cons_cons _

theorem Database.currentMirrors_nodup (db : Database) :
    (db.currentMirrors.map (·.1.name)).Nodup := by
  refine db.mirrors.nodup.sublist (map_filterMap_sublist ?_ _)
  intro row entry selected
  rcases Option.map_eq_some_iff.mp selected with ⟨_, _, rfl⟩
  rfl

theorem createdChanges_nodup (current : List (MirrorRow × GenerationRow)) :
    ((createdChanges bundle current).map (·.mirror)).Nodup := by
  refine bundle.names_nodup.sublist (map_filterMap_sublist ?_ _)
  intro entry change selected
  simp only at selected
  split at selected
  · cases selected
  · cases selected
    rfl

/-- A plan names every mirror at most once. -/
theorem plan_mirrors_nodup {plan : ConfigPlan} (planned : planWithConnection db bundle = .ok plan) :
    (plan.changes.map (·.mirror)).Nodup := by
  unfold planWithConnection at planned
  cases changed : plannedChanges bundle db.currentMirrors with
  | error reason => rw [changed] at planned; cases planned
  | ok changes =>
      rw [changed] at planned
      cases planned
      refine (((List.perm_insertionSort _ _).map _).nodup_iff).mpr ?_
      rw [List.map_append, List.nodup_append']
      refine ⟨db.currentMirrors_nodup.sublist (plannedChanges_mirrors changed),
        createdChanges_nodup _, ?_⟩
      intro name changedName createdName
      rcases List.mem_map.mp createdName with ⟨created, createdMem, rfl⟩
      rcases List.mem_map.mp ((plannedChanges_mirrors changed).subset changedName) with
        ⟨entry, entryMem, same⟩
      exact (mem_createdChanges createdMem).1 entry entryMem same

/-- Every row is seen by the planner. -/
theorem Database.Sound.mem_currentMirrors (sound : db.Sound) {row : MirrorRow}
    (mem : row ∈ db.mirrors) : ∃ generation, (row, generation) ∈ db.currentMirrors := by
  rcases sound.mirrorGeneration row mem with ⟨generation, generationMem, keyed, _⟩
  exact ⟨generation, LzuMirror.mem_currentMirrors.mpr
    ⟨mem, Table.find?_eq_some_iff.mpr ⟨generationMem, keyed⟩⟩⟩

theorem plannedFor_of_mem {plan : ConfigPlan} {change : ConfigChange} (sound : db.Sound)
    (planned : planWithConnection db bundle = .ok plan)
    (enforced : enforceQuiescentHighImpactChanges db plan.changes = .ok ())
    (mem : change ∈ plan.changes) : db.PlannedFor bundle change := by
  rcases ((mem_plan_changes planned).2.2 change).mp mem with
    ⟨⟨row, generation⟩, rowMem, rowChange⟩ | created
  · rcases mem_currentMirrors.mp rowMem with ⟨stored, _⟩
    cases plannedChange_eq_ok rowChange with
    | remove absent managed kind mirror =>
        exact .remove stored mirror.symm managed (mirror ▸ absent) kind
    | upsert present kind mirror toGeneration =>
        refine .upsert stored mirror.symm (mirror ▸ present) kind toGeneration ?_
        intro moved
        exact quiescent_of_enforce enforced mem (.inl moved)
  · rcases mem_createdChanges created with ⟨unknown, kind, toGeneration⟩
    have listed : ∃ entry, bundle.get? change.mirror = some entry := by
      simp only [createdChanges, List.mem_filterMap] at created
      rcases created with ⟨⟨name, entry⟩, entryMem, selected⟩
      simp only at selected
      split at selected
      · cases selected
      · cases selected
        exact ⟨entry, bundle.get?_of_mem entryMem⟩
    rcases listed with ⟨entry, present⟩
    refine .create ?_ present kind toGeneration
    intro row rowMem named
    rcases sound.mem_currentMirrors rowMem with ⟨generation, current⟩
    exact unknown _ current named

end Plan

/-! ## Applying a plan -/

section Apply

variable {vendor : Vendor} {db after : Database} {bundle : CanonicalBundle vendor} {now : ℤ}

/-- What `apply` did to one mirror: nothing, or what the change planned for it does. -/
theorem Database.apply_local {plan : ConfigPlan} (sound : db.Sound)
    (planned : planWithConnection db bundle = .ok plan)
    (enforced : enforceQuiescentHighImpactChanges db plan.changes = .ok ())
    (applied : plan.changes.foldlM (applyChange bundle (db.revision + 1) now)
      { db with revision := db.revision + 1 } = .ok after) (mirror : String) :
    (∀ change ∈ plan.changes, change.mirror ≠ mirror) ∧ db.Untouched after mirror ∨
      ∃ change ∈ plan.changes, change.mirror = mirror ∧
        ∃ before next, before.Sound ∧ db.Untouched before mirror ∧
          before.PlannedFor bundle change ∧
          applyChange bundle (db.revision + 1) now before change = .ok next ∧
          next.Untouched after mirror := by
  have revised : ∀ name, db.Untouched { db with revision := db.revision + 1 } name := fun _ =>
    ⟨fun _ _ => Iff.rfl, fun _ _ => Iff.rfl, fun _ _ => Iff.rfl, fun _ _ => Iff.rfl,
      fun _ _ _ _ _ => Iff.rfl⟩
  by_cases concerned : ∃ change ∈ plan.changes, change.mirror = mirror
  · right
    rcases concerned with ⟨change, mem, rfl⟩
    have revisedSound : { db with revision := db.revision + 1 }.Sound :=
      sound.bookkeeping rfl rfl rfl rfl
    rcases applyChanges_local revisedSound (plan_mirrors_nodup planned) mem applied with
      ⟨before, next, beforeSound, same, applies, rest⟩
    have earlier := (revised change.mirror).trans same
    exact ⟨change, mem, rfl, before, next, beforeSound, earlier,
      (plannedFor_of_mem sound planned enforced mem).congr earlier, applies, rest⟩
  · left
    have apart : ∀ change ∈ plan.changes, change.mirror ≠ mirror := by
      intro change mem same
      exact concerned ⟨change, mem, same⟩
    refine ⟨apart, (revised mirror).trans (applyChanges_untouched ?_ applied)⟩
    intro change mem same
    exact apart change mem same.symm

/-- A property of one mirror's rows is kept by `apply` if every planned change keeps it. -/
theorem Database.apply_invariant {holds : Database → String → Prop} {plan : ConfigPlan}
    (sound : db.Sound) (planned : planWithConnection db bundle = .ok plan)
    (enforced : enforceQuiescentHighImpactChanges db plan.changes = .ok ())
    (applied : plan.changes.foldlM (applyChange bundle (db.revision + 1) now)
      { db with revision := db.revision + 1 } = .ok after)
    (congr : ∀ {before later : Database} {mirror}, before.Untouched later mirror →
      holds before mirror → holds later mirror)
    (kept : ∀ {before next : Database} {change}, before.Sound → before.PlannedFor bundle change →
      applyChange bundle (db.revision + 1) now before change = .ok next →
        holds before change.mirror → holds next change.mirror)
    (mirror : String) (initial : holds db mirror) : holds after mirror := by
  rcases Database.apply_local sound planned enforced applied mirror with
    ⟨_, same⟩ | ⟨change, _, rfl, before, next, beforeSound, earlier, plannedFor, applies, later⟩
  · exact congr same initial
  · exact congr later (kept beforeSound plannedFor applies (congr earlier initial))

end Apply

end LzuMirror
