import LzuMirror.Store.Transactions

/-!
# The capability gate

An atomic attempt is compiled only for a poll that advertises the capability and
a publication root. A redelivery hands out the stored specification without
compiling it again, so it does not ask what the poll advertises: the gate holds
exactly when no atomic attempt is redelivered to a poll it was not compiled for.
-/

namespace LzuMirror

/-- The poll may receive the specification. -/
def AgentProfile.Admits (agent : AgentProfile) (spec : ProcessRunSpec) : Prop :=
  ∀ publication, spec.publication = some publication →
    atomicExchangeV1 ∈ agent.capabilities ∧
      agent.publicationRoot = some publication.publicationRoot

/-- Every answer of a poll that starts an attempt is admitted. -/
def Database.Gated (vendor : Vendor) (db : Database) (node : String) (agent : AgentProfile)
    (now : ℤ) (newRunId : String) : Prop :=
  ∀ runId attemptNo mirrorName specHash spec after,
    db.pollAction node now newRunId (compileDispatch vendor node agent) =
      .ok (some (.startAttempt runId attemptNo mirrorName specHash spec), after) →
        agent.Admits spec

section Gate

variable {vendor : Vendor} {db : Database} {node : String} {agent : AgentProfile} {now : ℤ}
  {newRunId : String}

theorem compileProcessRunSpec_publication {document : MirrorDocument} {context : RunSpecContext}
    {spec : ProcessRunSpec} (compiled : compileProcessRunSpec document context = .ok spec)
    {publication : AtomicPublicationSpec} (published : spec.publication = some publication) :
    document.publicationMode = .atomic ∧
      context.publicationRoot = some publication.publicationRoot := by
  unfold compileProcessRunSpec at compiled
  simp only at compiled
  cases section_ : compilePublication document context
      (joinText context.mirrorRoot document.mirror.target) with
  | error reason =>
      rw [section_] at compiled
      cases compiled
  | ok found =>
      rw [section_] at compiled
      cases compiled
      have same : found = some publication := published
      subst same
      unfold compilePublication at section_
      split at section_
      · cases section_
      · cases section_
      next mode root =>
        cases section_
        exact ⟨mode, root⟩

/-- What is compiled for a poll is admitted by it. -/
theorem compileDispatch_admits {source : DispatchSource} {compiled : CompiledDispatch}
    (compiles : compileDispatch vendor node agent source = .ok (some compiled)) :
    agent.Admits compiled.spec := by
  obtain ⟨document, context, _, _, capable, root, specified⟩ := compileDispatch_eq_ok compiles
  intro publication published
  have ⟨atomic, sameRoot⟩ := compileProcessRunSpec_publication specified published
  exact ⟨List.contains_iff_mem.mp (capable atomic), root.symm.trans sameRoot⟩

/-- A poll that redelivers nothing is gated by the compilation. -/
theorem Database.gated_of_no_redelivery (fresh : db.findRedelivery node = none) :
    db.Gated vendor node agent now newRunId := by
  intro runId attemptNo mirrorName specHash spec after polled
  unfold Database.pollAction at polled
  rw [fresh] at polled
  split at polled
  next cancellation found =>
    obtain ⟨_, _, rfl⟩ := Option.map_eq_some_iff.mp found
    cases polled
  next =>
    simp only at polled
    split at polled
    · cases polled
    · split at polled
      · cases polled
      · cases polled
      next candidate staged selected =>
        unfold Database.dispatch at polled
        split at polled
        · cases polled
        next generation found =>
          simp only at polled
          split at polled
          · cases polled
          · cases polled
          next compiled compiles =>
            have ⟨_, answered, _⟩ := Database.persistDispatch_eq_ok polled
            rw [Option.some.injEq, PollAction.startAttempt.injEq] at answered
            rw [answered.2.2.2.2]
            exact compileDispatch_admits compiles

/--
The capability gate. Every attempt that a poll starts is admitted by it if and
only if the poll, when it redelivers an attempt, admits the specification the
attempt was stored with.
-/
theorem gated_iff_redelivery_admitted :
    db.Gated vendor node agent now newRunId ↔
      (db.findCancellation node = none → ∀ attempt, db.findRedelivery node = some attempt →
        agent.Admits attempt.spec) := by
  constructor
  · intro gated free attempt found
    obtain ⟨_, matched⟩ := Table.first_eq_some found
    simp only [Bool.and_eq_true, Database.runOf, Option.any_eq_true] at matched
    obtain ⟨run, owned, _⟩ := matched.1.1
    refine gated attempt.runId attempt.attemptNo run.mirrorName attempt.specHash attempt.spec
      (db.markRedelivery attempt.key now) ?_
    simp only [Database.pollAction, free, found, owned]
  · intro admitted
    cases found : db.findRedelivery node with
    | none => exact Database.gated_of_no_redelivery found
    | some attempt =>
        intro runId attemptNo mirrorName specHash spec after polled
        unfold Database.pollAction at polled
        split at polled
        next cancellation cancelled =>
          obtain ⟨_, _, rfl⟩ := Option.map_eq_some_iff.mp cancelled
          cases polled
        next free =>
          rw [found] at polled
          simp only at polled
          split at polled
          · cases polled
          · cases polled
            exact admitted free attempt found

end Gate

/-- `gamma` is dispatched to an agent that publishes atomically. -/
def Sample.gammaDispatched : List (StoreOp Sample.timedVendor) :=
  [.apply (gammaBundle nodeA) 0 1000, .createManualRun "gamma" "request-1" 2000 "run-1",
    .pollAction "node-a" atomicAgent 3000 "run-2"]

/-- The agent restarts without its publication root and polls again. -/
theorem redelivery_passes_the_gate :
    ¬∀ db, Reachable Sample.timedVendor db → ∀ node agent now newRunId,
      db.Gated Sample.timedVendor node agent now newRunId := by
  intro claimed
  have gated := claimed _ (Reachable.runAll Sample.gammaDispatched) "node-a" Sample.agent 4000
    "run-2"
  have redelivered : (match (StoreOp.runAll .empty Sample.gammaDispatched).pollAction "node-a" 4000
      "run-2" (compileDispatch Sample.timedVendor "node-a" Sample.agent) with
    | .ok (some (.startAttempt _ _ _ _ spec), _) => spec.publication.isSome
    | .error _ | .ok (none, _) | .ok (some (.cancelAttempt _ _ _), _) => false) = true := by
    decide +kernel
  split at redelivered
  next polled =>
    obtain ⟨publication, published⟩ := Option.isSome_iff_exists.mp redelivered
    rcases gated _ _ _ _ _ _ polled publication published with ⟨capable, _⟩
    cases capable
  all_goals cases redelivered

end LzuMirror
