import LzuMirror.Agent.Conservation

/-!
# Recovery after crashes

Without faults, `recover` settles every publication that has been announced:
from whatever a sequence of crashes has left, it runs to its end, returns
without an error, and leaves either the new generation published with the old
one in the exchange slot, or everything as it was before with a terminal record.
-/

namespace LzuMirror

namespace Namespace

open Agent

/-- The candidate is published, the old generation is in the slot, its predecessor rotated. -/
structure Published (ns : Namespace) (disk : Disk) : Prop where
  published : disk.fs ns.publishedPath = some ns.candidate
  exchange : disk.fs ns.exchangePath = ns.published
  rotated : disk.fs ns.rotatedPath = ns.previous
  record : ∃ record, disk.spool = some record ∧ record.state = .succeeded ∧
    record.phase? = some .committedPendingReport

/-- Nothing was published and the attempt has ended. -/
structure Unpublished (ns : Namespace) (disk : Disk) : Prop where
  published : disk.fs ns.publishedPath = ns.published
  exchange : disk.fs ns.exchangePath = ns.previous
  record : ∃ record, disk.spool = some record ∧
    (record.state = .failed ∨ record.state = .cancelled)

variable {ns : Namespace} {fresh : PathBuf → FileIdentity} {record : SpoolRecord}
  {start disk : Disk}

theorem Complete.published (complete : ns.Complete record disk) : ns.Published disk where
  published := complete.shows.2.2.1
  exchange := complete.shows.2.1
  rotated := complete.shows.2.2.2
  record := ⟨record, complete.durable, complete.state, complete.phase⟩

theorem Undone.unpublished {result : AttemptState} (undone : ns.Undone result record disk)
    (undoes : result.Undoes) : ns.Unpublished disk where
  published := undone.shows.2.2.1
  exchange := undone.shows.2.1
  record := ⟨record, undone.durable, undone.state ▸ undoes⟩

/-- The two outcomes exclude each other. -/
theorem Published.not_unpublished (published : ns.Published disk) : ¬ns.Unpublished disk := by
  intro unpublished
  exact ns.candidateNew.1 (unpublished.published.symm.trans published.published)

/-- A settled publication has one of the two outcomes. -/
theorem Settled.outcome (settled : ns.Settled record disk) :
    Xor (ns.Published disk) (ns.Unpublished disk) := by
  rcases settled with complete | ⟨result, undoes, undone⟩
  · exact .inl ⟨complete.published, complete.published.not_unpublished⟩
  · have unpublished := undone.unpublished undoes
    exact .inr ⟨unpublished, fun published => published.not_unpublished unpublished⟩

/-- What a run of `recover` from an announced publication returns. -/
theorem Started.recover_settles {state : PublicationState} {layout : Layout}
    (started : ns.Started Unsuccessful True record state layout disk) (prepared : Prepared disk.history)
    {result : Except String Unit} {copy : SpoolRecord} {after : Disk}
    (ran : Program.Reaches (Disk.Step fresh False) (recover record, disk)
      (.pure (result, copy), after)) :
    result = .ok () ∧ ns.Settled copy after := by
  have invariant : ns.Invariant Unsuccessful True disk :=
    ⟨record, state, layout, started.durable, started.consistent, started.recorded,
      started.shows, started.chronicle⟩
  have holds := @recover_holds ns Unsuccessful True fresh False record state layout disk started
    (fun _ => trivial) (fun _ => trivial)
  have ends := (Program.Safe.of_reaches (fun _ => rfl) holds invariant ran).1
  rcases result with message | _
  · exact ends.elim
  · refine ⟨rfl, ?_⟩
    rcases ends with settled | ⟨executing, rfl, rfl⟩
    · exact settled
    · -- an executing record of an announced publication was undone before
      have permitted := started.consistent.permitted
      have resting : layout = .atRest := by
        simpa [executing, PublicationPhase.permits] using permitted
      subst resting
      refine .inr ⟨_, started.recorded.restored executing prepared, started.durable, ?_, rfl,
        started.shows⟩
      rw [started.phase, executing]

/--
Crash recovery. Take any run of the publication calls without faults, cut off
anywhere and any number of times, in which `PreparingExchange` has become
durable. Then `recover` can run to its end, and whenever it ends, it returns
without an error in exactly one of the two outcomes.
-/
theorem recovery_settles (initial : ns.Initial record start)
    (reached : Disk.Reached fresh False start disk) (prepared : Prepared disk.history) :
    ∃ durable, disk.spool = some durable ∧
      (∃ out after, Program.Reaches (Disk.Step fresh False) (recover durable, disk)
        (.pure out, after)) ∧
      ∀ result copy after, Program.Reaches (Disk.Step fresh False) (recover durable, disk)
        (.pure (result, copy), after) →
          result = .ok () ∧ Xor (ns.Published after) (ns.Unpublished after) := by
  have invariant := Invariant.reached initial reached
  rcases invariant with ⟨durable, state, layout, stored, consistent, recorded, shows, chronicle⟩
  have started : ns.Started Unsuccessful True durable state layout disk :=
    ⟨stored, consistent, recorded, shows, chronicle⟩
  refine ⟨durable, stored, ?_, ?_⟩
  · exact Program.exists_completion (Disk.step_answer fresh False) _ disk
  · intro result copy after ran
    rcases started.recover_settles prepared ran with ⟨returned, settled⟩
    exact ⟨returned, settled.outcome⟩

/-- A crash between the rotation of the previous generation and the staging. -/
theorem recovery_settles_rotated :
    (Sample.cutOff 13).fs Sample.demo.exchangePath = none ∧
      ∃ durable, (Sample.cutOff 13).spool = some durable ∧
        (∃ out after, Program.Reaches (Disk.Step Sample.fresh False)
          (recover durable, Sample.cutOff 13) (.pure out, after)) ∧
        ∀ result copy after, Program.Reaches (Disk.Step Sample.fresh False)
          (recover durable, Sample.cutOff 13) (.pure (result, copy), after) →
            result = .ok () ∧
              Xor (Sample.demo.Published after) (Sample.demo.Unpublished after) :=
  ⟨by decide +kernel, recovery_settles Sample.initial (Sample.reached_cutOff False 13)
    (by decide +kernel)⟩

end Namespace

end LzuMirror
