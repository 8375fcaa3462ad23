import LzuMirror.Agent.Namespace

/-!
# What the publication functions do to a namespace

One specification for each function of `LzuMirror.Agent.Publication`, for a task
that works alone on a disk with the invariant of the namespace. A specification
says what the caller's copy and the disk look like when the function returns;
that the invariant holds after every single operation is part of it.

With the right arrangement on disk nothing but a fault makes these functions
fail, so their error cases carry `faults`. Without faults they do not fail.
-/

namespace LzuMirror

namespace Agent

/-- A postcondition with a part for each way to return. -/
def Ends {σ α : Type} (ok : α → SpoolRecord → σ → Prop) (error : SpoolRecord → σ → Prop) :
    Except String α → SpoolRecord → σ → Prop
  | .ok value => ok value
  | .error _ => error

end Agent

namespace Namespace

open Agent

/-- A task that works alone in a namespace. -/
abbrev alone (ns : Namespace) (unfinished : AttemptState → Prop) (trouble : Prop)
    (fresh : PathBuf → FileIdentity) (faults : Prop) : Setting Disk :=
  sequential fresh faults (ns.Invariant unfinished trouble)

/-- The publication was undone: nothing has moved and the attempt ended with `result`. -/
structure Undone (ns : Namespace) (result : AttemptState) (record : SpoolRecord)
    (disk : Disk) : Prop where
  durable : disk.spool = some record
  phase : record.phase? = some .executing
  state : record.state = result
  shows : ns.Shows disk.fs .atRest

/-- The publication is complete. -/
structure Complete (ns : Namespace) (record : SpoolRecord) (disk : Disk) : Prop where
  durable : disk.spool = some record
  phase : record.phase? = some .committedPendingReport
  state : record.state = .succeeded
  shows : ns.Shows disk.fs .visible

variable {ns : Namespace} {unfinished : AttemptState → Prop} {trouble : Prop}
  {fresh : PathBuf → FileIdentity} {faults : Prop} {record : SpoolRecord} {state : PublicationState} {layout : Layout} {disk : Disk}

section Preparing

theorem Working.before_visible (working : ns.Working unfinished trouble record state layout disk)
    (phase : state.phase = .preparingExchange ∨ state.phase = .preVisibilityRecovery) :
    layout ≠ .visible := by
  have permitted := working.permitted
  rcases phase with phase | phase <;> simpa [phase, PublicationPhase.permits] using permitted

theorem rotatePrevious_holds (working : ns.Working unfinished trouble record state layout disk)
    (phase : state.phase = .preparingExchange) :
    Holds (ns.alone unfinished trouble fresh faults) (rotatePrevious state ns.candidate)
      (Ends
        (fun _ copy after => copy = record ∧ ∃ next, (next = .rotated ∨ next = .staged) ∧
          ns.Working unfinished trouble record state next after)
        (fun copy after => faults ∧ copy = record ∧ ∃ next, next ≠ .visible ∧
          ns.Working unfinished trouble record state next after)) record disk := by
  have before := working.before_visible (.inl phase)
  have failure : faults → faults ∧ record = record ∧ ∃ next, next ≠ .visible ∧
      ns.Working unfinished trouble record state next disk :=
    fun faulty => ⟨faulty, rfl, layout, before, working⟩
  unfold rotatePrevious
  rw [working.identifies.previous, working.identifies.rotated, working.tracks.exchangePath]
  cases previous : ns.previous with
  | none =>
      refine holds_bind.mpr (holds_identityIfExists ?_ fun faulty _ => failure faulty)
      cases layout with
      | atRest =>
          have exchange := working.shows.2.1
          rw [previous] at exchange
          rw [exchange]
          refine ⟨rfl, .rotated, .inl rfl, ?_⟩
          exact {
            working with
            shows := (Shows.atRest_iff_rotated previous).mp working.shows
            chronicle := ⟨working.chronicle.ahead, working.chronicle.prepared,
              working.chronicle.published, working.chronicle.once⟩
            permitted := by simp [phase, PublicationPhase.permits] }
      | rotated =>
          rw [working.shows.2.1]
          exact ⟨rfl, .rotated, .inl rfl, working⟩
      | staged =>
          rw [working.shows.2.1]
          refine then_ok.mpr ?_
          simp only [ne_eq, not_true, if_false]
          exact ⟨rfl, .staged, .inr rfl, working⟩
      | visible => exact absurd rfl before
  | some identity =>
      simp only [Option.map_some]
      refine holds_bind.mpr (holds_context_some.mpr ?_)
      refine holds_bind.mpr (holds_identityIfExists ?_ fun faulty _ => failure faulty)
      refine holds_bind.mpr (holds_identityIfExists ?_ fun faulty _ => failure faulty)
      rw [then_ok]
      have different : some ns.candidate ≠ some identity := previous ▸ ns.candidateNew.2.symm
      cases layout with
      | atRest =>
          have exchange := working.shows.2.1
          have rotated := working.shows.2.2.2
          rw [previous] at exchange
          unfold rotatedPath at rotated
          rw [exchange, rotated, if_pos ⟨rfl, rfl⟩]
          have apart : PathBuf.ofText ns.rotatedText ≠ ns.publishedPath :=
            ns.published_ne_rotated.symm
          have moved : ns.Working unfinished trouble record state .rotated
              (disk.rename ns.exchangePath (.ofText ns.rotatedText)) :=
            working.moved working.shows.rotate (by simp [phase, PublicationPhase.permits])
              (by simp [phase, PublicationPhase.isMoving]) (by simp)
              (by simp [DiskChange.touches, ns.exchange_ne_published, apart]) (by simp)
          refine holds_renameNoreplace ⟨by simp [exchange], rotated⟩ moved.invariant
            ⟨rfl, .rotated, .inl rfl, moved⟩ fun faulty _ => ⟨failure faulty, ?_⟩
          exact ⟨faulty, rfl, .rotated, by simp, moved⟩
      | rotated =>
          have exchange := working.shows.2.1
          have rotated := working.shows.2.2.2
          rw [previous] at rotated
          unfold rotatedPath at rotated
          rw [exchange, rotated, if_neg (by simp), if_pos ⟨rfl, rfl⟩]
          exact ⟨rfl, .rotated, .inl rfl, working⟩
      | staged =>
          have exchange := working.shows.2.1
          rw [exchange, if_neg (fun both => different both.1), if_neg (by simp), if_pos rfl]
          exact ⟨rfl, .staged, .inr rfl, working⟩
      | visible => exact absurd rfl before

theorem stageCandidate_holds (working : ns.Working unfinished trouble record state layout disk)
    (phase : state.phase = .preparingExchange) (ready : layout = .rotated ∨ layout = .staged) :
    Holds (ns.alone unfinished trouble fresh faults) (stageCandidate state ns.candidate)
      (Ends
        (fun _ copy after => copy = record ∧ ns.Working unfinished trouble record state .staged after)
        (fun copy after => faults ∧ copy = record ∧ ∃ next, next ≠ .visible ∧
          ns.Working unfinished trouble record state next after)) record disk := by
  have failure : faults → faults ∧ record = record ∧ ∃ next, next ≠ .visible ∧
      ns.Working unfinished trouble record state next disk :=
    fun faulty => ⟨faulty, rfl, layout, working.before_visible (.inl phase), working⟩
  unfold stageCandidate
  rw [working.tracks.candidatePath, working.tracks.exchangePath]
  refine holds_bind.mpr (holds_identityIfExists ?_ fun faulty _ => failure faulty)
  refine holds_bind.mpr (holds_identityIfExists ?_ fun faulty _ => failure faulty)
  rw [then_ok]
  rcases ready with rfl | rfl
  · have candidate := working.shows.1
    have exchange := working.shows.2.1
    rw [candidate, exchange, if_pos ⟨rfl, rfl⟩]
    have moved : ns.Working unfinished trouble record state .staged
        (disk.rename ns.candidatePath ns.exchangePath) :=
      working.moved working.shows.stage (by simp [phase, PublicationPhase.permits])
        (by simp [phase, PublicationPhase.isMoving]) (by simp)
        (by simp [DiskChange.touches, ns.candidate_ne_published, ns.exchange_ne_published])
        (by simp)
    refine holds_renameNoreplace ⟨by simp [candidate], exchange⟩ moved.invariant ⟨rfl, moved⟩
      fun faulty _ => ⟨failure faulty, ?_⟩
    exact ⟨faulty, rfl, .staged, by simp, moved⟩
  · rw [working.shows.1, working.shows.2.1, if_neg (by simp), if_pos ⟨rfl, rfl⟩]
    exact ⟨rfl, working⟩

theorem persistReady_holds (working : ns.Working unfinished trouble record state .staged disk) :
    Holds (ns.alone unfinished trouble fresh faults) (persistReady ns.candidate)
      (Ends
        (fun _ copy after => ∃ next, copy = record.withPublication next ∧
          next.phase = .readyToCommit ∧ ns.Working unfinished trouble copy next .staged after)
        (fun copy after => faults ∧ copy = record ∧
          ns.Pending unfinished record state .staged after)) record disk := by
  unfold persistReady
  refine holds_bind.mpr (holds_copy.mpr (then_ok.mpr ?_))
  rw [working.tracks.publication]
  refine holds_bind.mpr (holds_context_some.mpr (then_ok.mpr (holds_bind.mpr ?_)))
  have observed : Holds (ns.alone unfinished trouble fresh faults) (observeRotated state)
      (Ends (fun _ copy after => copy = record ∧ after = disk)
        (fun copy after => faults ∧ copy = record ∧ after = disk)) record disk := by
    unfold observeRotated
    cases state.rotatedPreviousPath with
    | none => exact ⟨rfl, rfl⟩
    | some path => exact holds_identityIfExists ⟨rfl, rfl⟩ fun faulty _ => ⟨faulty, rfl, rfl⟩
  refine observed.imp ?_
  rintro (message | rotatedIdentity) copy after ends
  · rcases ends with ⟨faulty, rfl, rfl⟩
    exact ⟨faulty, rfl, working.toPending⟩
  rcases ends with ⟨rfl, rfl⟩
  have next : ns.Working unfinished trouble
      (copy.withPublication (readyState state ns.candidate rotatedIdentity))
      (readyState state ns.candidate rotatedIdentity) .staged
      (after.write (copy.withPublication (readyState state ns.candidate rotatedIdentity))) :=
    working.toPending.written
    (@Tracks.withPublication _ _ _ working.tracks (readyState state ns.candidate rotatedIdentity)
      rfl rfl rfl rfl)
    ⟨working.identifies.candidate, working.identifies.published,
      working.identifies.previous, working.identifies.rotated⟩
    working.unfinished rfl ⟨by simp [readyState], by simp [readyState]⟩ (by simp [readyState])
    (by simp [readyState])
  refine then_ok.mpr (holds_bind.mpr (holds_withContext (holds_write next.invariant ?_ ?_)))
  · exact ⟨_, rfl, rfl, next⟩
  · intro faulty message
    refine ⟨⟨faulty, rfl, working.toPending⟩, faulty, rfl, ?_⟩
    exact {
      working.toPending with
      prepared := working.prepared.cons
      chronicle := working.chronicle.unmoved rfl }

/-- `prepare_namespace` completes the staging from wherever it was interrupted. -/
theorem prepareNamespace_holds (working : ns.Working unfinished trouble record state layout disk)
    (phase : state.phase = .preparingExchange) :
    Holds (ns.alone unfinished trouble fresh faults) prepareNamespace
      (Ends
        (fun _ copy after => ∃ next, copy = record.withPublication next ∧
          next.phase = .readyToCommit ∧ ns.Working unfinished trouble copy next .staged after)
        (fun copy after => faults ∧ copy = record ∧ ∃ next, next ≠ .visible ∧
          ns.Pending unfinished record state next after)) record disk := by
  have before := working.before_visible (.inl phase)
  unfold prepareNamespace
  refine holds_bind.mpr (holds_bind.mpr (holds_copy.mpr (then_ok.mpr ?_)))
  rw [working.tracks.publication]
  refine holds_context_some.mpr (then_ok.mpr ?_)
  rw [if_neg (by simp [phase]), working.identifies.candidate]
  refine holds_bind.mpr (holds_context_some.mpr (then_ok.mpr ?_))
  rw [working.tracks.gcPath]
  refine holds_bind.mpr (holds_withContext (holds_createDirAll working.createAll.invariant ?_ ?_))
  case refine_2 =>
    intro faulty _
    exact ⟨⟨faulty, rfl, layout, before, working.toPending⟩,
      faulty, rfl, layout, before, working.createAll.toPending⟩
  refine then_ok.mpr (holds_bind.mpr ((rotatePrevious_holds working.createAll phase).imp ?_))
  rintro (message | value) copy after ends
  · rcases ends with ⟨faulty, rfl, next, early, failed⟩
    exact ⟨faulty, rfl, next, early, failed.toPending⟩
  rcases ends with ⟨rfl, next, ready, rotated⟩
  refine then_ok.mpr (holds_bind.mpr ((stageCandidate_holds rotated phase ready).imp ?_))
  rintro (message | value) copy after ends
  · rcases ends with ⟨faulty, rfl, next, early, failed⟩
    exact ⟨faulty, rfl, next, early, failed.toPending⟩
  rcases ends with ⟨rfl, staged⟩
  refine then_ok.mpr ?_
  rcases Option.ne_none_iff_exists'.mp ns.parents.1 with ⟨candidateParent, hasCandidate⟩
  rcases Option.ne_none_iff_exists'.mp ns.parents.2.1 with ⟨exchangeParent, hasExchange⟩
  simp only [parent, working.tracks.candidatePath, working.tracks.exchangePath, hasCandidate,
    hasExchange]
  refine holds_bind.mpr (holds_context_some.mpr (then_ok.mpr ?_))
  refine holds_bind.mpr (holds_context_some.mpr (then_ok.mpr ?_))
  refine holds_bind.mpr (holds_syncNamespace (fun _ => (staged.syncs _).invariant) ?_ ?_)
  · intro directories _
    refine then_ok.mpr ((persistReady_holds (staged.syncs directories)).imp ?_)
    rintro (message | value) final after ends
    · rcases ends with ⟨faulty, rfl, failed⟩
      exact ⟨faulty, rfl, .staged, by simp, failed⟩
    · exact ends
  · intro faulty _ directories
    exact ⟨faulty, rfl, .staged, by simp, staged.toPending.syncs directories⟩

end Preparing

section Restoring

theorem persistRecoveryIntent_holds {result : AttemptState} {kind : Option FailureKind}
    {message : String} (pending : ns.Pending unfinished record state layout disk)
    (before : layout ≠ .visible) (restored : result.Undoes) (troubled : trouble)
    (resumed : state.phase = .preVisibilityRecovery →
      ns.Working unfinished trouble record state layout disk) :
    Holds (ns.alone unfinished trouble fresh faults) (persistRecoveryIntent result kind message)
      (Ends
        (fun _ copy after => ∃ next, copy = record.withPublication next ∧
          next.phase = .preVisibilityRecovery ∧ ns.Working unfinished trouble copy next layout after)
        (fun _ _ => faults)) record disk := by
  unfold persistRecoveryIntent
  refine holds_bind.mpr (holds_copy.mpr (then_ok.mpr ?_))
  rw [pending.tracks.publication]
  refine holds_bind.mpr (holds_context_some.mpr (then_ok.mpr ?_))
  by_cases phase : state.phase = .preVisibilityRecovery
  · rw [if_neg (by simp [phase])]
    refine ⟨state, ?_, phase, resumed phase⟩
    rw [SpoolRecord.withPublication, ← pending.tracks.publication]
  · rw [if_pos phase]
    have next := pending.written
      (@Tracks.withPublication _ _ _ pending.tracks (recoveryState state result kind message)
        rfl rfl rfl rfl)
      ⟨pending.identifies.candidate, pending.identifies.published,
        pending.identifies.previous, pending.identifies.rotated⟩
      pending.unfinished (by simpa [recoveryState, PublicationPhase.permits] using before)
      ⟨by simp [recoveryState], by simp [recoveryState]⟩
      (fun _ => by simpa [recoveryState] using restored) (fun _ => troubled)
    refine holds_bind.mpr (holds_withContext (holds_write next.invariant ?_ ?_))
    · exact ⟨_, rfl, rfl, next⟩
    · exact fun faulty _ => ⟨faulty, faulty⟩

theorem restoreCandidate_holds (working : ns.Working unfinished trouble record state layout disk)
    (phase : state.phase = .preVisibilityRecovery) :
    Holds (ns.alone unfinished trouble fresh faults) (restoreCandidate state ns.candidate)
      (Ends
        (fun _ copy after => copy = record ∧ ∃ next, (next = .atRest ∨ next = .rotated) ∧
          ns.Working unfinished trouble record state next after)
        (fun _ _ => faults)) record disk := by
  unfold restoreCandidate
  rw [working.tracks.exchangePath, working.tracks.candidatePath]
  refine holds_bind.mpr (holds_identityIfExists ?_ fun faulty _ => faulty)
  rw [then_ok]
  cases layout with
  | atRest =>
      rw [working.shows.2.1, if_neg ns.candidateNew.2]
      exact ⟨rfl, .atRest, .inl rfl, working⟩
  | rotated =>
      rw [working.shows.2.1, if_neg (by simp)]
      exact ⟨rfl, .rotated, .inr rfl, working⟩
  | staged =>
      rw [working.shows.2.1, if_pos rfl]
      refine holds_bind.mpr (holds_identityIfExists ?_ fun faulty _ => faulty)
      rw [then_ok, working.shows.1, if_neg (by simp)]
      have moved : ns.Working unfinished trouble record state .rotated
          (disk.rename ns.exchangePath ns.candidatePath) :=
        working.moved working.shows.unstage (by simp [phase, PublicationPhase.permits])
          (by simp [phase, PublicationPhase.isMoving]) (by simp)
          (by simp [DiskChange.touches, ns.candidate_ne_published, ns.exchange_ne_published])
          (by simp)
      refine holds_renameNoreplace ⟨by simp [working.shows.2.1], working.shows.1⟩
        moved.invariant ⟨rfl, .rotated, .inr rfl, moved⟩ fun faulty _ => ⟨faulty, faulty⟩
  | visible => exact absurd rfl (working.before_visible (.inr phase))

theorem restorePrevious_holds (working : ns.Working unfinished trouble record state layout disk)
    (phase : state.phase = .preVisibilityRecovery)
    (unstaged : layout = .atRest ∨ layout = .rotated) :
    Holds (ns.alone unfinished trouble fresh faults) (restorePrevious state)
      (Ends
        (fun _ copy after => copy = record ∧ ns.Working unfinished trouble record state .atRest after)
        (fun _ _ => faults)) record disk := by
  unfold restorePrevious
  rw [working.identifies.previous, working.identifies.rotated, working.tracks.exchangePath]
  cases previous : ns.previous with
  | none =>
      rcases unstaged with rfl | rfl
      · exact ⟨rfl, working⟩
      · refine ⟨rfl, ?_⟩
        exact {
          working with
          shows := (Shows.atRest_iff_rotated previous).mpr working.shows
          chronicle := ⟨working.chronicle.ahead, working.chronicle.prepared,
            working.chronicle.published, working.chronicle.once⟩
          permitted := by simp [phase, PublicationPhase.permits] }
  | some identity =>
      simp only [Option.map_some]
      refine holds_bind.mpr (holds_context_some.mpr (then_ok.mpr ?_))
      refine holds_bind.mpr (holds_identityIfExists ?_ fun faulty _ => faulty)
      refine holds_bind.mpr (holds_identityIfExists ?_ fun faulty _ => faulty)
      rw [then_ok]
      rcases unstaged with rfl | rfl
      · have exchange := working.shows.2.1
        rw [previous] at exchange
        rw [exchange, if_neg (by simp), if_pos rfl]
        exact ⟨rfl, working⟩
      · have exchange := working.shows.2.1
        have rotated := working.shows.2.2.2
        rw [previous] at rotated
        unfold rotatedPath at rotated
        rw [exchange, rotated, if_pos ⟨rfl, rfl⟩]
        have apart : PathBuf.ofText ns.rotatedText ≠ ns.publishedPath :=
          ns.published_ne_rotated.symm
        have moved : ns.Working unfinished trouble record state .atRest
            (disk.rename (.ofText ns.rotatedText) ns.exchangePath) :=
          working.moved working.shows.unrotate (by simp [phase, PublicationPhase.permits])
            (by simp [phase, PublicationPhase.isMoving]) (by simp)
            (by simp [DiskChange.touches, ns.exchange_ne_published, apart]) (by simp)
        exact holds_renameNoreplace ⟨by simp [rotated], exchange⟩ moved.invariant ⟨rfl, moved⟩
          fun faulty _ => ⟨faulty, faulty⟩

theorem terminalAfterRestore_holds {result : AttemptState} {kind : Option FailureKind}
    {message : String} (working : ns.Working unfinished trouble record state .atRest disk)
    (restored : result.Undoes) :
    Holds (ns.alone unfinished trouble fresh faults) (terminalAfterRestore result kind message)
      (Ends (fun _ copy after => ns.Undone result copy after) (fun _ _ => faults))
      record disk := by
  unfold terminalAfterRestore
  refine holds_bind.mpr (holds_copy.mpr (then_ok.mpr ?_))
  rw [working.tracks.publication]
  refine holds_bind.mpr (holds_context_some.mpr (then_ok.mpr ?_))
  refine holds_bind.mpr (holds_now fun time => then_ok.mpr ?_)
  have unsuccessful : result ≠ .succeeded := by
    rcases restored with rfl | rfl <;> simp
  have tracks : ns.Tracks ((record.withPublication (undoneState state)).terminal result none kind
      (some message) time) (undoneState state) :=
    { @Tracks.withPublication _ _ _ working.tracks (undoneState state) rfl rfl rfl rfl with }
  have kept : ns.Invariant unfinished trouble (disk.write
      ((record.withPublication (undoneState state)).terminal result none kind (some message)
        time)) := by
    refine ⟨_, undoneState state, .atRest, rfl, ?_, ?_, working.shows,
      working.chronicle.unmoved rfl⟩
    · exact {
        tracks
        permitted := rfl
        identifies := fun moving => absurd rfl moving
        unfinished := fun moving => absurd rfl moving
        pending := fun _ => unsuccessful
        succeeded := by simp [undoneState]
        intent := by simp [undoneState]
        troubled := by simp [undoneState] }
    · exact {
        prepared := fun moving => absurd rfl moving
        restored := fun _ _ => restored
        synced := by simp [undoneState] }
  refine holds_bind.mpr (holds_write kept ?_ fun faulty _ => ⟨faulty, faulty⟩)
  exact ⟨rfl, rfl, rfl, working.shows⟩

/-- `restore_then_terminal` undoes a publication that is not visible yet. -/
theorem restoreThenTerminal_holds {result : AttemptState} {kind : Option FailureKind}
    {message : String} (pending : ns.Pending unfinished record state layout disk)
    (before : layout ≠ .visible) (restored : result.Undoes) (troubled : trouble)
    (resumed : state.phase = .preVisibilityRecovery →
      ns.Working unfinished trouble record state layout disk) :
    Holds (ns.alone unfinished trouble fresh faults) (restoreThenTerminal result kind message)
      (Ends (fun _ copy after => ns.Undone result copy after) (fun _ _ => faults))
      record disk := by
  unfold restoreThenTerminal
  refine holds_bind.mpr ((persistRecoveryIntent_holds pending before restored troubled
    resumed).imp ?_)
  rintro (_ | _) copy after ends
  · exact ends
  rcases ends with ⟨next, rfl, phase, announced⟩
  refine then_ok.mpr (holds_bind.mpr (holds_bind.mpr (holds_copy.mpr (then_ok.mpr ?_))))
  rw [announced.tracks.publication]
  refine holds_context_some.mpr (then_ok.mpr ?_)
  rw [announced.identifies.candidate]
  refine holds_bind.mpr (holds_context_some.mpr (then_ok.mpr ?_))
  refine holds_bind.mpr ((restoreCandidate_holds announced phase).imp ?_)
  rintro (_ | _) copy after ends
  · exact ends
  rcases ends with ⟨rfl, _, unstaged, returned⟩
  refine then_ok.mpr (holds_bind.mpr ((restorePrevious_holds returned phase unstaged).imp ?_))
  rintro (_ | _) copy after ends
  · exact ends
  rcases ends with ⟨rfl, resting⟩
  refine then_ok.mpr ?_
  rcases Option.ne_none_iff_exists'.mp ns.parents.1 with ⟨candidateParent, hasCandidate⟩
  rcases Option.ne_none_iff_exists'.mp ns.parents.2.1 with ⟨exchangeParent, hasExchange⟩
  simp only [parent, announced.tracks.candidatePath, announced.tracks.exchangePath, hasCandidate,
    hasExchange]
  refine holds_bind.mpr (holds_context_some.mpr (then_ok.mpr ?_))
  refine holds_bind.mpr (holds_context_some.mpr (then_ok.mpr ?_))
  refine holds_bind.mpr (holds_syncNamespace (fun _ => (resting.syncs _).invariant) ?_
    fun faulty _ _ => faulty)
  intro directories _
  exact terminalAfterRestore_holds (resting.syncs directories) restored

end Restoring

section Visible

/-- In the visible arrangement the published path has been moved onto. -/
theorem Chronicle.exists_move {history : List DiskEvent}
    (chronicle : ns.Chronicle .visible history) :
    ∃ later move earlier, history = later ++ move :: earlier ∧
      move.change.touches ns.publishedPath := by
  have once := chronicle.once
  simp only [if_true] at once
  have positive : 0 < history.countP fun event => event.change.touches ns.publishedPath := by
    omega
  rcases List.countP_pos_iff.mp positive with ⟨move, listed, touches⟩
  rcases List.append_of_mem listed with ⟨later, earlier, split⟩
  exact ⟨later, move, earlier, split, touches⟩

theorem SyncedAfterMove.cons {history : List DiskEvent} {event : DiskEvent}
    (synced : ns.SyncedAfterMove history) : ns.SyncedAfterMove (event :: history) := by
  rcases synced with ⟨later, move, earlier, rfl, touches, parents⟩
  refine ⟨event :: later, move, earlier, rfl, touches, ?_⟩
  intro directory isParent
  rcases parents directory isParent with ⟨entry, listed, change⟩
  exact ⟨entry, List.mem_cons_of_mem event listed, change⟩

theorem Chronicle.syncedAfterMove (chronicle : ns.Chronicle .visible disk.history)
    {directories : List PathBuf}
    (listed : ∀ directory, ns.publishedPath.parent = some directory ∨
      ns.exchangePath.parent = some directory → directory ∈ directories) :
    ns.SyncedAfterMove (disk.syncs directories).history := by
  rcases chronicle.exists_move with ⟨later, move, earlier, split, touches⟩
  refine ⟨(directories.reverse.map fun directory => ⟨.synced directory, disk.spool⟩) ++ later,
    move, earlier, ?_, touches, ?_⟩
  · rw [Disk.syncs_history, split, List.append_assoc]
  · intro directory isParent
    refine ⟨⟨.synced directory, disk.spool⟩, List.mem_append_left _ ?_, rfl⟩
    exact List.mem_map.mpr ⟨directory, List.mem_reverse.mpr (listed directory isParent), rfl⟩

theorem persistPendingDurability_holds
    (working : ns.Working unfinished trouble record state .visible disk) (troubled : trouble) :
    Holds (ns.alone unfinished trouble fresh faults) persistPendingDurability
      (fun _ _ _ => True) record disk := by
  unfold persistPendingDurability
  refine holds_bind.mpr (holds_copy.mpr (then_ok.mpr ?_))
  rw [working.tracks.publication]
  refine holds_bind.mpr (holds_context_some.mpr (then_ok.mpr ?_))
  have next := working.toPending.written
    (@Tracks.withPublication _ _ _ working.tracks (inPhase state .visiblePendingDurability)
      rfl rfl rfl rfl)
    ⟨working.identifies.candidate, working.identifies.published,
      working.identifies.previous, working.identifies.rotated⟩
    working.unfinished rfl ⟨by simp [inPhase], by simp [inPhase]⟩ (by simp [inPhase])
    (fun _ => troubled)
  refine holds_bind.mpr (holds_attempt.mpr (holds_write next.invariant ?_ ?_))
  · exact trivial
  · exact fun _ _ => ⟨trivial, trivial⟩

/-- The record of a completed publication. -/
theorem committed_invariant {time : String}
    (working : ns.Working unfinished trouble record state .visible disk)
    (synced : ns.SyncedAfterMove disk.history) :
    ns.Invariant unfinished trouble (disk.write ((record.withPublication
      (inPhase state .committedPendingReport)).terminal .succeeded (some 0) none none time)) := by
  refine ⟨_, inPhase state .committedPendingReport, .visible, rfl, ?_, ?_, working.shows,
    working.chronicle.unmoved rfl⟩
  · exact {
      tracks := { @Tracks.withPublication _ _ _ working.tracks
        (inPhase state .committedPendingReport) rfl rfl rfl rfl with }
      permitted := rfl
      identifies := fun _ => ⟨working.identifies.candidate, working.identifies.published,
        working.identifies.previous, working.identifies.rotated⟩
      unfinished := fun _ open_ => absurd rfl open_
      pending := by simp [inPhase]
      succeeded := fun _ => rfl
      intent := by simp [inPhase]
      troubled := by simp [inPhase] }
  · exact {
      prepared := fun _ => working.prepared.cons
      restored := by simp [inPhase]
      synced := fun _ => synced.cons }

/-- `finish_visible` completes a publication whose candidate is visible. -/
theorem finishVisible_holds (working : ns.Working unfinished trouble record state .visible disk)
    (faultTrouble : faults → trouble) :
    Holds (ns.alone unfinished trouble fresh faults) finishVisible
      (Ends
        (fun _ copy after => ns.Complete copy after ∧ ∃ time, copy = (record.withPublication
          (inPhase state .committedPendingReport)).terminal .succeeded (some 0) none none time)
        (fun _ _ => faults)) record disk := by
  unfold finishVisible
  refine holds_bind.mpr (holds_bind.mpr (holds_copy.mpr (then_ok.mpr ?_)))
  rw [working.tracks.publication]
  refine holds_context_some.mpr (then_ok.mpr ?_)
  rw [working.identifies.candidate]
  refine holds_bind.mpr (holds_context_some.mpr (then_ok.mpr ?_))
  rw [working.tracks.publishedPath]
  refine holds_bind.mpr (holds_identityIfExists ?_ fun faulty _ => faulty)
  rw [then_ok, working.shows.2.2.1, if_neg (by simp)]
  rcases Option.ne_none_iff_exists'.mp ns.parents.2.1 with ⟨exchangeParent, hasExchange⟩
  rcases Option.ne_none_iff_exists'.mp ns.parents.2.2 with ⟨publishedParent, hasPublished⟩
  simp only [parent, working.tracks.exchangePath, hasExchange, hasPublished]
  refine holds_bind.mpr (holds_context_some.mpr (then_ok.mpr ?_))
  refine holds_bind.mpr (holds_context_some.mpr (then_ok.mpr ?_))
  refine holds_bind.mpr (holds_attempt.mpr
    (holds_syncNamespace (fun _ => (working.syncs _).invariant) ?_ ?_))
  · intro directories all
    have synced : ns.SyncedAfterMove (disk.syncs directories).history := by
      refine working.chronicle.syncedAfterMove ?_
      rintro directory (isParent | isParent)
      · rw [hasPublished, Option.some.injEq] at isParent
        exact all directory (by simp [isParent])
      · rw [hasExchange, Option.some.injEq] at isParent
        exact all directory (by simp [isParent])
    refine then_ok.mpr (holds_bind.mpr (holds_copy.mpr (then_ok.mpr ?_)))
    refine holds_bind.mpr (holds_now fun time => then_ok.mpr ?_)
    refine holds_bind.mpr (holds_withContext (holds_write
      (committed_invariant (working.syncs directories) synced) ?_
      fun faulty _ => ⟨faulty, faulty⟩))
    refine ⟨⟨rfl, rfl, rfl, ?_⟩, time, rfl⟩
    exact (working.syncs directories).shows
  · intro faulty _ directories
    refine then_ok.mpr (holds_bind.mpr
      ((persistPendingDurability_holds (working.syncs directories) (faultTrouble faulty)).imp ?_))
    rintro (_ | _) _ _ _ <;> exact faulty

end Visible

section Committing

theorem verifyReady_holds (working : ns.Working unfinished trouble record state .staged disk) :
    Holds (ns.alone unfinished trouble fresh faults) (verifyReady state)
      (Ends (fun _ copy after => copy = record ∧ after = disk)
        (fun copy after => faults ∧ copy = record ∧ after = disk)) record disk := by
  rcases working.shows with ⟨_, exchange, published, rotated⟩
  unfold verifyReady
  rw [working.identifies.candidate, working.tracks.exchangePath, working.tracks.publishedPath,
    working.identifies.published, working.identifies.previous, working.identifies.rotated]
  refine holds_bind.mpr (holds_context_some.mpr (then_ok.mpr ?_))
  refine holds_bind.mpr (holds_identityIfExists ?_ fun faulty _ => ⟨faulty, rfl, rfl⟩)
  rw [then_ok, exchange, if_neg (by simp)]
  refine holds_bind.mpr (holds_identityIfExists ?_ fun faulty _ => ⟨faulty, rfl, rfl⟩)
  rw [then_ok, published, if_neg (by simp)]
  cases previous : ns.previous with
  | none => exact ⟨rfl, rfl⟩
  | some identity =>
      rw [previous] at rotated
      unfold rotatedPath at rotated
      refine holds_bind.mpr (holds_context_some.mpr (then_ok.mpr ?_))
      refine holds_bind.mpr (holds_identityIfExists ?_ fun faulty _ => ⟨faulty, rfl, rfl⟩)
      rw [then_ok, rotated, if_neg (by simp)]
      exact ⟨rfl, rfl⟩

theorem visibilityRename_holds (working : ns.Working unfinished trouble record state .staged disk)
    (phase : state.phase = .readyToCommit) :
    Holds (ns.alone unfinished trouble fresh faults) (visibilityRename state)
      (Ends
        (fun _ copy after => copy = record ∧ ns.Working unfinished trouble record state .visible after)
        (fun _ _ => faults)) record disk := by
  have exchange := working.shows.2.1
  have published := working.shows.2.2.1
  unfold visibilityRename
  rw [working.identifies.published, working.tracks.exchangePath, working.tracks.publishedPath]
  cases present : ns.published with
  | none =>
      rw [present] at published
      rw [if_neg (by simp)]
      have moved : ns.Working unfinished trouble record state .visible
          (disk.rename ns.exchangePath ns.publishedPath) :=
        working.moved (working.shows.publishFirst present)
          (by simp [phase, PublicationPhase.permits])
          (by simp [phase, PublicationPhase.isMoving]) (by simp) (by simp [DiskChange.touches])
          (fun _ => ⟨phase, .inr rfl⟩)
      exact holds_renameNoreplace ⟨by simp [exchange], published⟩ moved.invariant ⟨rfl, moved⟩
        fun faulty _ => ⟨faulty, faulty⟩
  | some identity =>
      rw [present] at published
      rw [if_pos (by simp)]
      have moved : ns.Working unfinished trouble record state .visible
          (disk.exchange ns.exchangePath ns.publishedPath) :=
        working.moved working.shows.publish (by simp [phase, PublicationPhase.permits])
          (by simp [phase, PublicationPhase.isMoving]) (by simp) (by simp [DiskChange.touches])
          (fun _ => ⟨phase, .inl rfl⟩)
      exact holds_exchangePaths ⟨by simp [exchange], by simp [published]⟩ moved.invariant
        ⟨rfl, moved⟩ fun faulty _ => ⟨faulty, faulty⟩

/-- How a publication from a staged candidate may return. -/
def Returns (ns : Namespace) (faults : Prop) (record : SpoolRecord)
    (outcome : CommitOutcome) (copy : SpoolRecord) (after : Disk) : Prop :=
  (outcome = .published ∧ ns.Complete copy after ∧ ∃ next time,
      copy = (record.withPublication next).terminal .succeeded (some 0) none none time) ∨
    (outcome = .aborted ∧ (faults ∨ record.cancelRequested) ∧
      ∃ result : AttemptState, result.Undoes ∧ ns.Undone result copy after)

/-- `commit_ready` publishes a staged candidate, or undoes the publication. -/
theorem commitReady_holds (working : ns.Working unfinished trouble record state .staged disk)
    (phase : state.phase = .readyToCommit) (faultTrouble : faults → trouble)
    (cancelTrouble : record.cancelRequested = true → trouble) :
    Holds (ns.alone unfinished trouble fresh faults) commitReady
      (Ends (ns.Returns faults record) (fun _ _ => faults)) record disk := by
  have unresumed : state.phase = .preVisibilityRecovery →
      ns.Working unfinished trouble record state .staged disk := fun _ => working
  unfold commitReady
  refine holds_bind.mpr (holds_copy.mpr (then_ok.mpr ?_))
  rw [working.tracks.publication]
  refine holds_bind.mpr (holds_context_some.mpr (then_ok.mpr ?_))
  rw [if_neg (by simp [phase])]
  by_cases cancelled : record.cancelRequested = true
  · rw [if_pos cancelled]
    refine holds_bind.mpr ((restoreThenTerminal_holds working.toPending (by simp) (.inr rfl)
      (cancelTrouble cancelled) unresumed).imp ?_)
    rintro (_ | _) copy after ends
    · exact ends
    · exact .inr ⟨rfl, .inr cancelled, .cancelled, .inr rfl, ends⟩
  · rw [if_neg cancelled]
    refine holds_bind.mpr (holds_attempt.mpr ((verifyReady_holds working).imp ?_))
    rintro (message | _) copy after ends
    · rcases ends with ⟨faulty, rfl, rfl⟩
      refine then_ok.mpr (holds_bind.mpr ((restoreThenTerminal_holds working.toPending (by simp)
        (.inl rfl) (faultTrouble faulty) unresumed).imp ?_))
      rintro (_ | _) copy after ends
      · exact ends
      · exact .inr ⟨rfl, .inl faulty, .failed, .inl rfl, ends⟩
    rcases ends with ⟨rfl, rfl⟩
    refine then_ok.mpr (holds_bind.mpr ((visibilityRename_holds working phase).imp ?_))
    rintro (_ | _) copy after ends
    · exact ends
    rcases ends with ⟨rfl, visible⟩
    refine then_ok.mpr (holds_bind.mpr ((finishVisible_holds visible faultTrouble).imp ?_))
    rintro (_ | _) final after ends
    · exact ends
    · rcases ends with ⟨complete, time, made⟩
      exact .inl ⟨rfl, complete, _, time, made⟩

/-- The publication has come to an end. -/
def Settled (ns : Namespace) (record : SpoolRecord) (disk : Disk) : Prop :=
  ns.Complete record disk ∨ ∃ result : AttemptState, result.Undoes ∧ ns.Undone result record disk

theorem Returns.settled {outcome : CommitOutcome} {copy : SpoolRecord}
    (returns : ns.Returns faults record outcome copy disk) : ns.Settled copy disk := by
  rcases returns with ⟨_, complete, _⟩ | ⟨_, _, undone⟩
  · exact .inl complete
  · exact .inr undone

/-- `recover_ready` finishes a publication on either side of the visibility rename. -/
theorem recoverReady_holds (working : ns.Working unfinished trouble record state layout disk)
    (phase : state.phase = .readyToCommit) (faultTrouble : faults → trouble)
    (cancelTrouble : record.cancelRequested = true → trouble) :
    Holds (ns.alone unfinished trouble fresh faults) recoverReady
      (Ends (fun _ => ns.Settled) (fun _ _ => faults)) record disk := by
  unfold recoverReady
  refine holds_bind.mpr (holds_bind.mpr (holds_copy.mpr (then_ok.mpr ?_)))
  rw [working.tracks.publication]
  refine holds_context_some.mpr (then_ok.mpr ?_)
  rw [working.identifies.candidate]
  refine holds_bind.mpr (holds_context_some.mpr (then_ok.mpr ?_))
  rw [working.tracks.publishedPath, working.tracks.exchangePath, working.identifies.published]
  refine holds_bind.mpr (holds_identityIfExists ?_ fun faulty _ => faulty)
  refine holds_bind.mpr (holds_identityIfExists ?_ fun faulty _ => faulty)
  rw [then_ok]
  have permitted := working.permitted
  rw [phase] at permitted
  cases layout with
  | atRest => simp [PublicationPhase.permits] at permitted
  | rotated => simp [PublicationPhase.permits] at permitted
  | staged =>
      rw [working.shows.2.2.1, working.shows.2.1, if_neg ns.candidateNew.1, if_pos ⟨rfl, rfl⟩]
      refine holds_discard ((commitReady_holds working phase faultTrouble cancelTrouble).imp ?_)
      rintro (_ | _) copy after ends
      · exact ends
      · exact ends.settled
  | visible =>
      rw [working.shows.2.2.1, if_pos rfl]
      refine (finishVisible_holds working faultTrouble).imp ?_
      rintro (_ | _) copy after ends
      · exact ends
      · exact .inl ends.1

/-- The staging, completed or undone. -/
theorem prepareOrRestore_holds (working : ns.Working unfinished trouble record state layout disk)
    (phase : state.phase = .preparingExchange) (faultTrouble : faults → trouble) :
    Holds (ns.alone unfinished trouble fresh faults) prepareOrRestore
      (Ends
        (fun prepared copy after =>
          (prepared = true ∧ ∃ next, copy = record.withPublication next ∧
            next.phase = .readyToCommit ∧ ns.Working unfinished trouble copy next .staged after) ∨
          (prepared = false ∧ faults ∧ ns.Undone .failed copy after))
        (fun _ _ => faults)) record disk := by
  unfold prepareOrRestore
  refine holds_bind.mpr (holds_attempt.mpr ((prepareNamespace_holds working phase).imp ?_))
  rintro (message | _) copy after ends
  · rcases ends with ⟨faulty, rfl, next, before, pending⟩
    refine then_ok.mpr (holds_bind.mpr ((restoreThenTerminal_holds pending before (.inl rfl)
      (faultTrouble faulty) (by simp [phase])).imp ?_))
    rintro (_ | _) copy after ends
    · exact ends
    · exact .inr ⟨rfl, faulty, ends⟩
  · exact .inl ⟨rfl, ends⟩

end Committing

section Calls

/-- A disk whose durable record is the caller's copy. -/
structure Started (ns : Namespace) (unfinished : AttemptState → Prop) (trouble : Prop)
    (record : SpoolRecord) (state : PublicationState) (layout : Layout) (disk : Disk) : Prop where
  durable : disk.spool = some record
  consistent : ns.Durable unfinished trouble record state layout
  recorded : ns.Recorded record state disk.history
  shows : ns.Shows disk.fs layout
  chronicle : ns.Chronicle layout disk.history

theorem Invariant.started (invariant : ns.Invariant unfinished trouble disk)
    (durable : disk.spool = some record) :
    ∃ state layout, ns.Started unfinished trouble record state layout disk := by
  rcases invariant with ⟨stored, state, layout, spool, consistent, recorded, shows, chronicle⟩
  rw [durable, Option.some.injEq] at spool
  subst spool
  exact ⟨state, layout, durable, consistent, recorded, shows, chronicle⟩

theorem Started.working (started : ns.Started unfinished trouble record state layout disk)
    (moving : state.phase ≠ .executing ∧ state.phase ≠ .committedPendingReport) :
    ns.Working unfinished trouble record state layout disk where
  tracks := started.consistent.tracks
  identifies := started.consistent.identifies moving.1
  unfinished := started.consistent.unfinished moving.1 moving.2
  prepared := started.recorded.prepared moving.1
  shows := started.shows
  chronicle := started.chronicle
  durable := started.durable
  permitted := started.consistent.permitted
  moving
  intent := started.consistent.intent
  troubled := started.consistent.troubled

theorem Started.phase (started : ns.Started unfinished trouble record state layout disk) :
    record.phase? = some state.phase := by
  simp [SpoolRecord.phase?, started.consistent.tracks.publication]

/-- The arms that both recoveries share for an interrupted undoing. -/
theorem resumeRestore_holds (working : ns.Working unfinished trouble record state layout disk)
    (phase : state.phase = .preVisibilityRecovery) :
    Holds (ns.alone unfinished trouble fresh faults) (resumeRestore state)
      (Ends (fun _ => ns.Settled) (fun _ _ => faults)) record disk := by
  refine (restoreThenTerminal_holds working.toPending (working.before_visible (.inr phase))
    (working.intent phase) (working.troubled (.inl phase)) fun _ => working).imp ?_
  rintro (_ | _) copy after ends
  · exact ends
  · exact .inr ⟨_, working.intent phase, ends⟩

/-- A recorded success needs no further write. -/
theorem ensureCommittedTerminal_holds (started : ns.Started unfinished trouble record state layout disk)
    (phase : state.phase = .committedPendingReport) :
    Holds (ns.alone unfinished trouble fresh faults) ensureCommittedTerminal
      (Ends (fun _ => ns.Settled) (fun _ _ => faults)) record disk := by
  have succeeded := started.consistent.succeeded phase
  have permitted := started.consistent.permitted
  unfold ensureCommittedTerminal
  refine holds_bind.mpr (holds_copy.mpr (then_ok.mpr ?_))
  rw [if_pos succeeded]
  refine .inl ⟨started.durable, by rw [started.phase, phase], succeeded, ?_⟩
  have visible : layout = .visible := by
    simpa [phase, PublicationPhase.permits] using permitted
  exact visible ▸ started.shows

/-- `recover` settles whatever it finds, except an attempt that is still executing. -/
theorem recover_holds (started : ns.Started unfinished trouble record state layout disk)
    (faultTrouble : faults → trouble) (cancelTrouble : record.cancelRequested = true → trouble) :
    Holds (ns.alone unfinished trouble fresh faults) recover
      (Ends
        (fun _ copy after => ns.Settled copy after ∨
          state.phase = .executing ∧ copy = record ∧ after = disk)
        (fun _ _ => faults)) record disk := by
  have settles : ∀ {computation : Agent Unit} {idle : SpoolRecord → Disk → Prop},
      Holds (ns.alone unfinished trouble fresh faults) computation
        (Ends (fun _ => ns.Settled) (fun _ _ => faults)) record disk →
      Holds (ns.alone unfinished trouble fresh faults) computation
        (Ends (fun _ copy after => ns.Settled copy after ∨ idle copy after)
          (fun _ _ => faults)) record disk := by
    intro computation idle holds
    refine holds.imp ?_
    rintro (_ | _) copy after ends
    · exact ends
    · exact .inl ends
  unfold recover
  refine holds_bind.mpr (holds_bind.mpr (holds_copy.mpr (then_ok.mpr ?_)))
  rw [started.consistent.tracks.publication]
  refine holds_context_some.mpr (then_ok.mpr (holds_locked ?_))
  unfold recoverLocked
  refine holds_bind.mpr (holds_copy.mpr (then_ok.mpr ?_))
  simp only [started.consistent.tracks.publication]
  cases phase : state.phase with
  | executing => exact .inr ⟨rfl, rfl, rfl⟩
  | preparingExchange =>
      have working := started.working (by simp [phase])
      refine settles (holds_bind.mpr
        ((prepareOrRestore_holds working phase faultTrouble).imp ?_))
      rintro (_ | prepared) copy after ends
      · exact ends
      rcases ends with ⟨rfl, next, rfl, ready, staged⟩ | ⟨rfl, _, undone⟩
      · refine then_ok.mpr (holds_discard
          ((commitReady_holds staged ready faultTrouble cancelTrouble).imp ?_))
        rintro (_ | _) copy after ends
        · exact ends
        · exact ends.settled
      · exact .inr ⟨.failed, .inl rfl, undone⟩
  | readyToCommit =>
      exact settles (recoverReady_holds (started.working (by simp [phase])) phase faultTrouble
        cancelTrouble)
  | preVisibilityRecovery =>
      exact settles (resumeRestore_holds (started.working (by simp [phase])) phase)
  | visiblePendingDurability =>
      have working := started.working (by simp [phase])
      have permitted := started.consistent.permitted
      have visible : layout = .visible := by
        simpa [phase, PublicationPhase.permits] using permitted
      subst visible
      refine settles ((finishVisible_holds working faultTrouble).imp ?_)
      rintro (_ | _) copy after ends
      · exact ends
      · exact .inl ends.1
  | committedPendingReport =>
      exact settles (ensureCommittedTerminal_holds started phase)
  | abandonedFenced =>
      have permitted := started.consistent.permitted
      simp [phase, PublicationPhase.permits] at permitted

/-- `recover_before_control_plane` stops short of publishing. -/
theorem recoverBeforeControlPlane_holds
    (started : ns.Started unfinished trouble record state layout disk)
    (faultTrouble : faults → trouble) :
    Holds (ns.alone unfinished trouble fresh faults) recoverBeforeControlPlane
      (Ends (fun _ _ _ => True) (fun _ _ => faults)) record disk := by
  have relaxed : ∀ {α : Type} {ok : α → SpoolRecord → Disk → Prop} {computation : Agent α},
      Holds (ns.alone unfinished trouble fresh faults) computation (Ends ok (fun _ _ => faults)) record
        disk →
      Holds (ns.alone unfinished trouble fresh faults) computation
        (Ends (fun _ _ _ => True) (fun _ _ => faults)) record disk := by
    intro α ok computation holds
    refine holds.imp ?_
    rintro (_ | _) copy after ends
    · exact ends
    · exact trivial
  unfold recoverBeforeControlPlane
  refine holds_bind.mpr (holds_bind.mpr (holds_copy.mpr (then_ok.mpr ?_)))
  rw [started.consistent.tracks.publication]
  refine holds_context_some.mpr (then_ok.mpr (holds_locked ?_))
  unfold recoverBeforeControlPlaneLocked
  refine holds_bind.mpr (holds_copy.mpr (then_ok.mpr ?_))
  simp only [started.consistent.tracks.publication]
  cases phase : state.phase with
  | executing => exact trivial
  | preparingExchange =>
      have working := started.working (by simp [phase])
      refine holds_discard ((relaxed (prepareOrRestore_holds working phase faultTrouble)).imp ?_)
      rintro (_ | _) copy after ends <;> exact ends
  | readyToCommit => exact trivial
  | preVisibilityRecovery =>
      exact relaxed (resumeRestore_holds (started.working (by simp [phase])) phase)
  | visiblePendingDurability =>
      have working := started.working (by simp [phase])
      have permitted := started.consistent.permitted
      have visible : layout = .visible := by
        simpa [phase, PublicationPhase.permits] using permitted
      subst visible
      exact relaxed (finishVisible_holds working faultTrouble)
  | committedPendingReport => exact relaxed (ensureCommittedTerminal_holds started phase)
  | abandonedFenced => exact trivial

/-- The situation before a publication, whatever the durable record says. -/
structure Resting (ns : Namespace) (record : SpoolRecord) (state : PublicationState)
    (disk : Disk) : Prop where
  tracks : ns.Tracks record state
  phase : state.phase = .executing
  shows : ns.Shows disk.fs .atRest
  chronicle : ns.Chronicle .atRest disk.history

theorem Started.resting (started : ns.Started unfinished trouble record state layout disk)
    (phase : state.phase = .executing) : ns.Resting record state disk := by
  have permitted := started.consistent.permitted
  have atRest : layout = .atRest := by
    simpa [phase, PublicationPhase.permits] using permitted
  subst atRest
  exact ⟨started.consistent.tracks, phase, started.shows, started.chronicle⟩

theorem observeNamespace_holds (resting : ns.Resting record state disk) :
    Holds (ns.alone unfinished trouble fresh faults) (observeNamespace state)
      (Ends
        (fun identities copy after => identities = (ns.candidate, ns.published, ns.previous) ∧
          copy = record ∧ after = disk)
        (fun copy after => copy = record ∧ after = disk)) record disk := by
  rcases resting.shows with ⟨candidate, exchange, published, _⟩
  have identity_holds : ∀ path, Holds (ns.alone unfinished trouble fresh faults) (identity path)
      (Ends (fun found copy after => disk.fs path = some found ∧ copy = record ∧ after = disk)
        (fun copy after => copy = record ∧ after = disk)) record disk := by
    intro path
    refine holds_bind.mpr (holds_identityIfExists (then_ok.mpr ?_) fun _ _ => ⟨rfl, rfl⟩)
    cases found : disk.fs path with
    | none => exact ⟨rfl, rfl⟩
    | some _ => exact ⟨rfl, rfl, rfl⟩
  have parent_holds : ∀ path, Holds (ns.alone unfinished trouble fresh faults) (parent path)
      (Ends (fun _ copy after => copy = record ∧ after = disk)
        (fun copy after => copy = record ∧ after = disk)) record disk := by
    intro path
    unfold parent
    cases path.parent with
    | none => exact ⟨rfl, rfl⟩
    | some _ => exact ⟨rfl, rfl⟩
  unfold observeNamespace
  rw [resting.tracks.candidatePath, resting.tracks.publishedPath, resting.tracks.exchangePath]
  refine holds_bind.mpr (holds_unrelated (fun _ _ performed => performed) fun answer => ?_)
  refine then_ok.mpr (holds_bind.mpr (holds_ofExcept.mpr ?_))
  cases answer with
  | error message => exact ⟨rfl, rfl⟩
  | ok _ => ?_
  refine then_ok.mpr (holds_bind.mpr
    (holds_unrelated (fun _ _ performed => performed) fun answer => ?_))
  refine then_ok.mpr (holds_bind.mpr (holds_ofExcept.mpr ?_))
  cases answer with
  | error message => exact ⟨rfl, rfl⟩
  | ok _ => ?_
  refine then_ok.mpr (holds_bind.mpr (holds_withContext ((identity_holds _).imp ?_)))
  rintro (_ | found) copy after ends
  · exact ends
  rcases ends with ⟨found, rfl, rfl⟩
  rw [candidate, Option.some.injEq] at found
  subst found
  refine then_ok.mpr (holds_bind.mpr ((parent_holds _).imp ?_))
  rintro (_ | publicParent) copy after ends
  · exact ends
  rcases ends with ⟨rfl, rfl⟩
  refine then_ok.mpr (holds_bind.mpr ((identity_holds _).imp ?_))
  rintro (_ | publicIdentity) copy after ends
  · exact ends
  rcases ends with ⟨_, rfl, rfl⟩
  refine then_ok.mpr (holds_bind.mpr ((parent_holds _).imp ?_))
  rintro (_ | privateParent) copy after ends
  · exact ends
  rcases ends with ⟨rfl, rfl⟩
  refine then_ok.mpr (holds_bind.mpr ((identity_holds _).imp ?_))
  rintro (_ | privateIdentity) copy after ends
  · exact ends
  rcases ends with ⟨_, rfl, rfl⟩
  rw [then_ok]
  split
  · exact ⟨rfl, rfl⟩
  refine holds_bind.mpr (holds_identityIfExists (then_ok.mpr ?_) fun _ _ => ⟨rfl, rfl⟩)
  refine holds_bind.mpr (holds_identityIfExists (then_ok.mpr ?_) fun _ _ => ⟨rfl, rfl⟩)
  rw [published, exchange]
  split
  · exact ⟨rfl, rfl⟩
  · exact ⟨rfl, rfl, rfl⟩

/-- `persist_preparing` is the first write of a publication. -/
theorem persistPreparing_holds (resting : ns.Resting record state disk)
    (isUnfinished : unfinished record.state) :
    Holds (ns.alone unfinished trouble fresh faults) persistPreparing
      (Ends
        (fun _ copy after => ∃ next, copy = record.withPublication next ∧
          next.phase = .preparingExchange ∧ ns.Working unfinished trouble copy next .atRest after)
        (fun copy after => copy = record ∧ (faults ∨ after = disk))) record disk := by
  have tracks := resting.tracks
  unfold persistPreparing
  refine holds_bind.mpr (holds_copy.mpr (then_ok.mpr ?_))
  rw [tracks.publication]
  refine holds_bind.mpr (holds_context_some.mpr (then_ok.mpr ?_))
  rw [if_neg (by simp [resting.phase])]
  refine holds_bind.mpr ((observeNamespace_holds resting).imp ?_)
  rintro (_ | identities) copy after ends
  · exact ⟨ends.1, .inr ends.2⟩
  rcases ends with ⟨rfl, rfl, rfl⟩
  refine then_ok.mpr ?_
  -- the history is prepared by the very write that leaves the executing phase
  have next : ns.Working unfinished trouble
      (preparingRecord copy state ns.candidate ns.published ns.previous)
      (preparingState copy state ns.candidate ns.published ns.previous) .atRest
      (after.write (preparingRecord copy state ns.candidate ns.published ns.previous)) := {
    tracks := @Tracks.withPublication _ _ _ tracks
      (preparingState copy state ns.candidate ns.published ns.previous) rfl rfl rfl rfl
    identifies := ⟨rfl, rfl, rfl, by rw [← tracks.rotatedText]; rfl⟩
    unfinished := isUnfinished
    prepared := ⟨_, List.mem_cons_self, by
      simp [DiskChange.prepares, SpoolRecord.phase?, preparingRecord, preparingState]⟩
    shows := resting.shows
    chronicle := resting.chronicle.unmoved rfl
    durable := rfl
    permitted := rfl
    moving := ⟨by simp [preparingState], by simp [preparingState]⟩
    intent := by simp [preparingState]
    troubled := by simp [preparingState] }
  refine holds_bind.mpr (holds_withContext (holds_write next.invariant ?_ ?_))
  · exact ⟨_, rfl, rfl, next⟩
  · exact fun faulty _ => ⟨⟨rfl, .inl faulty⟩, rfl, .inl faulty⟩

/-- `commit` from an attempt whose process has ended. -/
theorem commit_holds_resting (resting : ns.Resting record state disk)
    (isUnfinished : unfinished record.state) (faultTrouble : faults → trouble)
    (cancelTrouble : record.cancelRequested = true → trouble) :
    Holds (ns.alone unfinished trouble fresh faults) commit
      (Ends
        (fun outcome copy after => ∃ next,
          ns.Returns faults (record.withPublication next) outcome copy after)
        (fun copy after => faults ∨ copy = record ∧ after = disk)) record disk := by
  unfold commit
  refine holds_bind.mpr (holds_bind.mpr (holds_copy.mpr (then_ok.mpr ?_)))
  rw [resting.tracks.publication]
  refine holds_context_some.mpr (then_ok.mpr (holds_locked ?_))
  unfold commitLocked prepare
  refine holds_bind.mpr (holds_bind.mpr ((persistPreparing_holds resting isUnfinished).imp ?_))
  rintro (_ | _) copy after ends
  · rcases ends with ⟨rfl, faulty | rfl⟩
    · exact .inl faulty
    · exact .inr ⟨rfl, rfl⟩
  rcases ends with ⟨next, rfl, preparing, working⟩
  refine then_ok.mpr (holds_discard
    ((prepareOrRestore_holds working preparing faultTrouble).imp ?_))
  rintro (_ | prepared) copy after ends
  · exact .inl ends
  rcases ends with ⟨rfl, ready, rfl, readyPhase, staged⟩ | ⟨rfl, faulty, undone⟩
  · refine then_ok.mpr ((commitReady_holds staged readyPhase faultTrouble cancelTrouble).imp ?_)
    rintro (_ | outcome) copy after ends
    · exact .inl ends
    · exact ⟨ready, ends⟩
  · -- the staging was undone, and `commit_ready` refuses the executing phase
    have undonePhase := undone.phase
    rw [SpoolRecord.phase?, Option.map_eq_some_iff] at undonePhase
    rcases undonePhase with ⟨undoneState, stored, executing⟩
    refine then_ok.mpr ?_
    unfold commitReady
    refine holds_bind.mpr (holds_copy.mpr (then_ok.mpr ?_))
    rw [stored]
    refine holds_bind.mpr (holds_context_some.mpr (then_ok.mpr ?_))
    rw [if_pos (by simp [executing])]
    exact .inl faulty

/-- `commit` with the record on disk: any other phase is refused at once. -/
theorem commit_holds (started : ns.Started unfinished trouble record state layout disk)
    (isUnfinished : state.phase = .executing → unfinished record.state)
    (faultTrouble : faults → trouble) (cancelTrouble : record.cancelRequested = true → trouble) :
    Holds (ns.alone unfinished trouble fresh faults) commit (fun _ _ _ => True) record disk := by
  by_cases phase : state.phase = .executing
  · exact (commit_holds_resting (started.resting phase) (isUnfinished phase) faultTrouble
      cancelTrouble).imp fun _ _ _ _ => trivial
  · unfold commit
    refine holds_bind.mpr (holds_bind.mpr (holds_copy.mpr (then_ok.mpr ?_)))
    rw [started.consistent.tracks.publication]
    refine holds_context_some.mpr (then_ok.mpr (holds_locked ?_))
    refine holds_bind.mpr (holds_bind.mpr ?_)
    unfold persistPreparing
    refine holds_bind.mpr (holds_copy.mpr (then_ok.mpr ?_))
    rw [started.consistent.tracks.publication]
    refine holds_bind.mpr (holds_context_some.mpr (then_ok.mpr ?_))
    rw [if_pos phase]
    exact trivial

end Calls

end Namespace

end LzuMirror
