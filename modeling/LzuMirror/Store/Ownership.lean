import LzuMirror.Store.Integrity

/-!
# Ownership of active runs

A run is executed by the node that owned its mirror when the run was created.
Moving a managed mirror to another node is refused while a run is active. A
mirror that was removed keeps its dispatched run, and bringing it back is planned
as an update whatever node it comes back on, so no guard asks whether the run
has ended. Without such a reassignment the owner of an active run is the owner
of its mirror.
-/

namespace LzuMirror

/-- Every active run of a managed mirror belongs to the mirror's owner. -/
def Database.RunsOwned (db : Database) : Prop :=
  ∀ run ∈ db.runs, run.state.isActive = true → ∀ row ∈ db.mirrors,
    row.name = run.mirrorName → row.managed = true → run.ownerNode = row.ownerNode

/-- The same for every mirror that ever was configured. -/
def Database.RunsFollowOwner (db : Database) : Prop :=
  ∀ run ∈ db.runs, run.state.isActive = true → ∀ row ∈ db.mirrors,
    row.name = run.mirrorName → run.ownerNode = row.ownerNode

/-- The bundle brings back a removed mirror on another node while a run of it is active. -/
def Database.ReassignsBusy {vendor : Vendor} (db : Database) (bundle : CanonicalBundle vendor) :
    Prop :=
  ∃ row ∈ db.mirrors, row.managed = false ∧ db.hasActiveRun row.name = true ∧
    ∃ next, bundle.get? row.name = some next ∧ next.ownerNode.value ≠ row.ownerNode

/-- The transactions that do not bring a removed, busy mirror back on another node. -/
def noBusyReassignment {vendor : Vendor} (db : Database) : StoreOp vendor → Prop
  | .apply bundle baseRevision _ => baseRevision = db.revision → ¬db.ReassignsBusy bundle
  | _ => True

instance {vendor : Vendor} (db : Database) (bundle : CanonicalBundle vendor) :
    Decidable (db.ReassignsBusy bundle) :=
  decidable_of_iff
    (db.mirrors.any (fun row => !row.managed && db.hasActiveRun row.name &&
      (bundle.get? row.name).any fun next => decide (next.ownerNode.value ≠ row.ownerNode)) = true)
    (by simp [Database.ReassignsBusy, and_assoc, Option.any_eq_true])

instance {vendor : Vendor} (db : Database) (operation : StoreOp vendor) :
    Decidable (noBusyReassignment db operation) :=
  match operation with
  | .apply bundle baseRevision _ =>
      inferInstanceAs (Decidable (baseRevision = db.revision → ¬db.ReassignsBusy bundle))
  | .createManualRun .. | .pollAction .. | .requestCancellation .. | .evaluateDueSchedules ..
  | .applyEvent .. | .observeNode .. | .registerNode .. | .replaceAgentBinding .. =>
      .isTrue trivial

section Apply

variable {vendor : Vendor} {bundle : CanonicalBundle vendor} {changes : List ConfigChange}
  {db after : Database}

/-- Applying a bundle moves runs forward and never changes their owner. -/
theorem configSteps_runs (steps : Relation.ReflTransGen (ConfigStep bundle changes) db after) :
    Table.Rowwise RunRow.Follows db.runs after.runs := by
  induction steps with
  | refl => exact .refl .refl _
  | tail _ step ih =>
      cases step with
      | bookkeeping | unmanage | upsert => exact ih
      | cancelPending mirror now =>
          exact ih.trans (fun _ _ _ => .trans)
            ((cancelUndispatchedPending_advances _ mirror now).runs.imp fun _ _ both => both.1)
      | finalizeRetries mirror now =>
          exact ih.trans (fun _ _ _ => .trans)
            ((finalizeIneligibleRetries_advances _ mirror now).runs.imp fun _ _ both => both.1)

/-- After a bundle was applied, an owner is the old one or the one a change names. -/
theorem configSteps_owner (steps : Relation.ReflTransGen (ConfigStep bundle changes) db after) :
    ∀ row ∈ after.mirrors,
      (∃ old ∈ db.mirrors, old.name = row.name ∧ old.ownerNode = row.ownerNode) ∨
      ∃ change ∈ changes, change.kind ≠ .remove ∧ change.mirror = row.name ∧
        ∃ next, bundle.get? row.name = some next ∧ next.ownerNode.value = row.ownerNode := by
  induction steps with
  | refl => exact fun row mem => .inl ⟨row, mem, rfl, rfl⟩
  | tail _ step ih =>
      cases step with
      | bookkeeping | cancelPending | finalizeRetries => exact ih
      | unmanage change mem kind now =>
          intro row rowMem
          obtain ⟨old, oldMem, rfl⟩ := Table.mem_of_map rfl rowMem
          have known := ih old oldMem
          split <;> exact known
      | upsert mem kind present toGeneration inserted =>
          intro row rowMem
          rcases Table.mem_put.mp rowMem with ⟨oldMem, _⟩ | rfl
          · exact ih row oldMem
          · exact .inr ⟨_, mem, kind, rfl, _, present, rfl⟩

end Apply

namespace Database.RunsFollowOwner

variable {db after : Database}

theorem advance (owned : db.RunsFollowOwner) (mirrors : after.mirrors = db.mirrors)
    (runs : Table.Rowwise RunRow.Follows db.runs after.runs) : after.RunsFollowOwner := by
  intro run mem active row rowMem named
  obtain ⟨old, oldMem, follows⟩ := runs.origin mem
  rw [follows.ownerNode]
  exact owned old oldMem (follows.active active) row (mirrors ▸ rowMem)
    (named.trans follows.mirrorName)

/-- A planned change never names a new owner for a busy mirror, the excluded case apart. -/
theorem owner_of_change {vendor : Vendor} {bundle : CanonicalBundle vendor} {plan : ConfigPlan}
    {change : ConfigChange} {next : CanonicalMirror} {run : RunRow} {row : MirrorRow}
    (sound : db.Sound) (settled : ¬db.ReassignsBusy bundle)
    (planned : planWithConnection db bundle = .ok plan)
    (enforced : enforceQuiescentHighImpactChanges db plan.changes = .ok ())
    (mem : change ∈ plan.changes) (kind : change.kind ≠ .remove)
    (present : bundle.get? change.mirror = some next) (runMem : run ∈ db.runs)
    (active : run.state.isActive = true) (own : run.mirrorName = change.mirror)
    (rowMem : row ∈ db.mirrors) (named : row.name = change.mirror) :
    next.ownerNode.value = row.ownerNode := by
  have busy : db.hasActiveRun change.mirror = true :=
    Database.hasActiveRun_eq_true.mpr ⟨run, runMem, own, active⟩
  obtain ⟨generation, generationMem, keyed, _⟩ := sound.mirrorGeneration row rowMem
  have current : (row, generation) ∈ db.currentMirrors :=
    mem_currentMirrors.mpr ⟨rowMem, Table.find?_eq_some_iff.mpr ⟨generationMem, keyed⟩⟩
  rcases ((mem_plan_changes planned).2.2 change).mp mem with
    ⟨⟨other, _⟩, otherMem, rowChange⟩ | created
  · obtain ⟨otherRow, _⟩ := mem_currentMirrors.mp otherMem
    cases plannedChange_eq_ok rowChange with
    | remove _ _ removed _ => exact absurd removed kind
    | upsert otherPresent changeKind mirror _ =>
        obtain rfl := Table.eq_of_key_eq rowMem otherRow (named.trans mirror)
        rw [mirror] at present
        obtain rfl := Option.some.inj (present.symm.trans otherPresent)
        by_contra differs
        cases managed : row.managed with
        | true =>
            have moved : change.kind = .move := by
              rw [changeKind, if_pos ⟨managed, differs⟩]
            rw [quiescent_of_enforce enforced mem (.inl moved)] at busy
            cases busy
        | false =>
            exact settled ⟨row, rowMem, managed, named ▸ busy, next, present, differs⟩
  · exact absurd named ((mem_createdChanges created).1 _ current)

/-- A new run belongs to the owner its mirror has. -/
theorem inserts {run : RunRow} (owned : db.RunsFollowOwner) (inserts : db.Inserts run after) :
    after.RunsFollowOwner := by
  obtain ⟨middle, inserted, rfl⟩ := inserts.inserted
  obtain ⟨_, _, runs, rfl, members⟩ := Database.insertRun_eq_ok inserted
  obtain ⟨mirror, mirrorMem, _, _, sameMirror, _, owner⟩ := inserts.mirror
  intro other mem active row rowMem named
  rcases (members other).mp mem with oldMem | rfl
  · exact owned other oldMem active row rowMem named
  · obtain rfl := Table.eq_of_key_eq rowMem mirrorMem (named.trans sameMirror)
    exact owner

theorem step {vendor : Vendor} (owned : db.RunsFollowOwner) (sound : db.Sound)
    (operation : StoreOp vendor) (settled : noBusyReassignment db operation) :
    (operation.run db).RunsFollowOwner := by
  have effect := operation.run_effect db
  generalize operation.run db = after at effect
  cases effect with
  | unchanged => exact owned
  | bookkeeping schedules nodes => exact owned
  | configured planned current enforced applied =>
      have steps := Database.apply_steps applied
      intro run mem active row rowMem named
      obtain ⟨old, oldMem, follows⟩ := (configSteps_runs steps).origin mem
      have oldActive := follows.active active
      rw [follows.ownerNode]
      have sameMirror := named.trans follows.mirrorName
      obtain ⟨before, beforeMem, beforeNamed⟩ := sound.runMirror old oldMem
      have oldOwner := owned old oldMem oldActive before beforeMem beforeNamed
      rcases configSteps_owner steps row rowMem with
        ⟨oldRow, oldRowMem, sameName, sameOwner⟩ | ⟨change, changeMem, kind, mirror, next, present, owner⟩
      · rw [← sameOwner]
        exact owned old oldMem oldActive oldRow oldRowMem (sameName.trans sameMirror)
      · rw [oldOwner, ← owner]
        rw [← mirror] at present sameMirror
        exact (owner_of_change sound (settled current) planned enforced changeMem kind present
          oldMem oldActive sameMirror.symm beforeMem (beforeNamed.trans sameMirror.symm)).symm
  | created creates => exact owned.inserts creates.inserts
  | polled polls =>
      cases polls with
      | nothing | cancel => exact owned
      | redeliver => exact owned
      | dispatch selects _ _ _ persists =>
          obtain ⟨_, _, mirrors, _, runs, _⟩ := Database.persistDispatch_eq_ok persists
          have follows := runs.imp fun old new same => same ▸ old.dispatchedAs_follows _ _
          cases selects with
          | manual | retry => exact owned.advance mirrors follows
          | scheduled inserts => exact (owned.inserts inserts).advance mirrors follows
  | cancelled cancels =>
      exact owned.advance cancels.advances.mirrors (cancels.advances.runs.imp fun _ _ both => both.1)
  | reported mem keyed applies =>
      cases applies with
      | known old => exact owned
      | recorded newer accepted projects =>
          have advances :=
            (Database.recordEvent_advances mem newer accepted).trans projects.advances
          exact owned.advance advances.mirrors (advances.runs.imp fun _ _ both => both.1)

end Database.RunsFollowOwner

/--
In every run of the store that never brings a removed mirror back on another
node while a run of it is active, the active runs of a managed mirror belong to
its current owner.
-/
theorem active_runs_owned {vendor : Vendor} {db : Database}
    (reachable : ReachableBy (@noBusyReassignment vendor) db) : db.RunsOwned := by
  have owned : db.RunsFollowOwner := by
    refine reachable.invariant ?_ ?_
    · intro run mem
      exact absurd mem Table.not_mem_empty
    · intro before operation earlier owned settled
      exact owned.step earlier.sound operation settled
  intro run mem active row rowMem named _
  exact owned run mem active row rowMem named

/-- A run is dispatched to `node-a` and its mirror is removed. -/
def Sample.removed : List (StoreOp Sample.vendor) :=
  [.apply (alphaBundle nodeA) 0 1000,
    .createManualRun "alpha" "request-1" 2000 "run-1",
    .pollAction "node-a" agent 3000 "run-2",
    .apply (.empty vendor) 1 4000]

/-- Coming back on the same node is harmless. -/
theorem active_runs_owned_restored :
    (StoreOp.runAll .empty (Sample.removed ++
      [.apply (Sample.alphaBundle Sample.nodeA) 2 5000])).hasActiveRun "alpha" = true ∧
    (StoreOp.runAll .empty (Sample.removed ++
      [.apply (Sample.alphaBundle Sample.nodeA) 2 5000])).RunsOwned :=
  ⟨by decide +kernel, active_runs_owned (StoreOp.steps_runAll (by decide +kernel))⟩

/-- The mirror comes back on `node-b` while `node-a` still works on the run. -/
theorem readded_mirror_breaks_ownership :
    ¬∀ db, Reachable Sample.vendor db → db.RunsOwned := by
  intro claimed
  have owned := claimed _ (Reachable.runAll (Sample.removed ++
    [.apply (Sample.alphaBundle Sample.nodeB) 2 5000]))
  have broken : ((StoreOp.runAll .empty (Sample.removed ++
      [.apply (Sample.alphaBundle Sample.nodeB) 2 5000])).runs.any fun run =>
        run.state.isActive && (StoreOp.runAll .empty (Sample.removed ++
          [.apply (Sample.alphaBundle Sample.nodeB) 2 5000])).mirrors.any fun row =>
            decide (row.name = run.mirrorName) && row.managed &&
              decide (run.ownerNode ≠ row.ownerNode)) = true := by
    decide +kernel
  simp only [Table.any_eq_true, Bool.and_eq_true, decide_eq_true_eq] at broken
  obtain ⟨run, runMem, active, row, rowMem, ⟨named, managed⟩, differs⟩ := broken
  exact differs (owned run runMem active row rowMem named managed)

end LzuMirror
