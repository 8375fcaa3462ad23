import LzuMirror.Store.Integrity

/-!
# The binding fence

The handler of a long poll (`poll` in `apps/lmt-server/src/lib.rs`) as separate
transactions: `observe_node`, a first `next_action`, and after a bounded wait a
second one. Handlers of any number of installations interleave with each other
and with the other transactions of the store.

The binding is checked by `observe_node` only. The attempts of one execution key
go to one installation as long as no `next_action` runs for an installation that
the node is not bound to any more.
-/

namespace LzuMirror

/-- The handler of a poll that has passed `observe_node`. -/
structure PollHandler where
  observation : NodeObservation
  agent : AgentProfile
  waited : Bool

/-- The store, the polls in progress, and the attempts that were handed out, with the receiver. -/
structure PollServer where
  db : Database
  handlers : ℕ → Option PollHandler
  started : List (String × String × ℕ)

/-- The steps of the server. -/
inductive PollCommand (vendor : Vendor) where
  | observe (slot : ℕ) (observation : NodeObservation) (agent : AgentProfile)
  | next (slot : ℕ) (now : ℤ) (newRunId : String)
  | drop (slot : ℕ)
  | transact (operation : StoreOp vendor)

namespace PollServer

/-- The server before anything has happened. -/
def init : PollServer := ⟨.empty, fun _ => none, []⟩

/-- The handler in a slot ends, or goes on. -/
def settle (server : PollServer) (slot : ℕ) (handler : Option PollHandler) : PollServer :=
  { server with handlers := Function.update server.handlers slot handler }

/-- What `poll` does with the answer of `next_action`. -/
def respond (server : PollServer) (slot : ℕ) (handler : PollHandler) :
    Option PollAction → PollServer
  | some (.startAttempt runId attemptNo _ _ _) =>
      { server.settle slot none with
        started := (handler.observation.agentInstanceId, runId, attemptNo) :: server.started }
  | some (.cancelAttempt ..) => server.settle slot none
  | none => server.settle slot (if handler.waited then none else some { handler with waited := true })

/-- One step of the server; an error ends the handler it belongs to. -/
def exec {vendor : Vendor} (server : PollServer) : PollCommand vendor → PollServer
  | .observe slot observation agent =>
      match server.handlers slot, server.db.observeNode observation with
      | none, .ok (_, db) => { server with db }.settle slot (some ⟨observation, agent, false⟩)
      | _, _ => server
  | .next slot now newRunId =>
      match server.handlers slot with
      | none => server
      | some handler =>
          match server.db.pollAction handler.observation.node now newRunId
              (compileDispatch vendor handler.observation.node handler.agent) with
          | .error _ => server.settle slot none
          | .ok (action, db) => { server with db }.respond slot handler action
  | .drop slot => server.settle slot none
  | .transact operation => { server with db := operation.run server.db }

/-- The node is bound to the installation. -/
def Bound (db : Database) (node agentId : String) : Prop :=
  ∃ row ∈ db.nodes, row.name = node ∧ row.boundAgentId = some agentId

end PollServer

/-- Polls go through the handlers, and no replacement acknowledges the execution risk. -/
def PollCommand.Regular {vendor : Vendor} : PollCommand vendor → Prop
  | .transact (.pollAction ..) | .transact (.observeNode _) => False
  | .transact (.replaceAgentBinding _ _ acknowledged) => acknowledged = false
  | _ => True

/-- The steps in which `next_action` runs only for the installation the node is bound to. -/
def PollCommand.Fenced {vendor : Vendor} (server : PollServer) : PollCommand vendor → Prop
  | .next slot _ _ => ∀ handler, server.handlers slot = some handler →
      PollServer.Bound server.db handler.observation.node handler.observation.agentInstanceId
  | _ => True

/-- The servers reached by regular steps that satisfy `allowed`. -/
def PollServer.ReachedBy {vendor : Vendor}
    (allowed : PollServer → PollCommand vendor → Prop) (server : PollServer) : Prop :=
  Relation.ReflTransGen
    (fun before after => ∃ command : PollCommand vendor, command.Regular ∧
      allowed before command ∧ before.exec command = after) .init server

instance (db : Database) (node agentId : String) : Decidable (PollServer.Bound db node agentId) :=
  decidable_of_iff
    (db.nodes.any (fun row => decide (row.name = node) &&
      decide (row.boundAgentId = some agentId)) = true)
    (by simp [PollServer.Bound])

instance {vendor : Vendor} (command : PollCommand vendor) : Decidable command.Regular :=
  match command with
  | .transact (.pollAction ..) | .transact (.observeNode _) => .isFalse id
  | .transact (.replaceAgentBinding _ _ acknowledged) =>
      inferInstanceAs (Decidable (acknowledged = false))
  | .transact (.apply ..) | .transact (.createManualRun ..) | .transact (.requestCancellation ..)
  | .transact (.evaluateDueSchedules _) | .transact (.applyEvent ..)
  | .transact (.registerNode _) | .observe .. | .next .. | .drop _ => .isTrue trivial

instance {vendor : Vendor} (server : PollServer) (command : PollCommand vendor) :
    Decidable (command.Fenced server) :=
  match command with
  | .next slot _ _ =>
      decidable_of_iff
        ((server.handlers slot).all (fun handler => decide (PollServer.Bound server.db
          handler.observation.node handler.observation.agentInstanceId)) = true)
        (by cases found : server.handlers slot <;> simp [PollCommand.Fenced, found])
  | .observe .. | .drop _ | .transact _ => .isTrue trivial

/-- No attempt was handed out to two installations. -/
def PollServer.BindingFence (server : PollServer) : Prop :=
  ∀ first second key, (first, key) ∈ server.started → (second, key) ∈ server.started →
    first = second

/-! ## Runs and attempts persist -/

/-- Every run and every attempt is still there. -/
structure Database.Persists (before after : Database) : Prop where
  runs : ∀ run ∈ before.runs, ∃ later ∈ after.runs, run.Follows later
  attempts : ∀ attempt ∈ before.attempts, ∃ later ∈ after.attempts, attempt.Follows later

section Persists

variable {db after : Database}

theorem Database.Persists.refl (db : Database) : db.Persists db :=
  ⟨fun run mem => ⟨run, mem, .refl run⟩, fun attempt mem => ⟨attempt, mem, .refl attempt⟩⟩

theorem Database.Persists.trans {first second third : Database} (left : first.Persists second)
    (right : second.Persists third) : first.Persists third where
  runs := by
    intro run mem
    obtain ⟨middle, middleMem, before⟩ := left.runs run mem
    obtain ⟨last, lastMem, later⟩ := right.runs middle middleMem
    exact ⟨last, lastMem, before.trans later⟩
  attempts := by
    intro attempt mem
    obtain ⟨middle, middleMem, before⟩ := left.attempts attempt mem
    obtain ⟨last, lastMem, later⟩ := right.attempts middle middleMem
    exact ⟨last, lastMem, before.trans later⟩

theorem Database.Advances.persists (advances : db.Advances after) : db.Persists after where
  runs := by
    intro run mem
    obtain ⟨later, laterMem, follows, _⟩ := advances.runs.successor mem
    exact ⟨later, laterMem, follows⟩
  attempts := fun _ mem => advances.attempts.successor mem

theorem configSteps_persist {vendor : Vendor} {bundle : CanonicalBundle vendor}
    {changes : List ConfigChange}
    (steps : Relation.ReflTransGen (ConfigStep bundle changes) db after) : db.Persists after := by
  induction steps with
  | refl => exact .refl db
  | tail _ step ih =>
      refine ih.trans ?_
      cases step with
      | bookkeeping | unmanage | upsert => exact ⟨(Database.Persists.refl _).runs,
          (Database.Persists.refl _).attempts⟩
      | cancelPending mirror now => exact (cancelUndispatchedPending_advances _ mirror now).persists
      | finalizeRetries mirror now =>
          exact (finalizeIneligibleRetries_advances _ mirror now).persists

theorem Database.Inserts.persists {run : RunRow} (inserts : db.Inserts run after) :
    db.Persists after := by
  obtain ⟨middle, inserted, rfl⟩ := inserts.inserted
  obtain ⟨_, _, runs, rfl, members⟩ := Database.insertRun_eq_ok inserted
  exact ⟨fun old mem => ⟨old, (members old).mpr (.inl mem), .refl old⟩,
    (Database.Persists.refl db).attempts⟩

theorem Database.Selects.persists {node : String} {candidate : DispatchCandidate}
    (selects : db.Selects node candidate after) : db.Persists after := by
  cases selects with
  | manual | retry => exact .refl db
  | scheduled inserts => exact inserts.persists

theorem Database.persistDispatch_persists {source : DispatchSource} {compiled : CompiledDispatch}
    {now : ℤ} {action : Option PollAction}
    (persists : db.persistDispatch source compiled now = .ok (action, after)) :
    db.Persists after := by
  obtain ⟨_, _, _, _, runs, members⟩ := Database.persistDispatch_eq_ok persists
  refine ⟨fun run mem => ?_, fun attempt mem => ?_⟩
  · obtain ⟨later, laterMem, rfl⟩ := runs.successor mem
    exact ⟨_, laterMem, run.dispatchedAs_follows _ _⟩
  · exact ⟨attempt, (members attempt).mpr (.inl mem), .refl attempt⟩

theorem Database.Polls.persists {node : String} {now : ℤ} {action : Option PollAction}
    {compile : DispatchSource → Except StoreError (Option CompiledDispatch)}
    (polls : db.Polls node now compile action after) : db.Persists after := by
  cases polls with
  | nothing | cancel => exact .refl db
  | redeliver => exact (markRedelivery_advances db now _).persists
  | dispatch selects _ _ _ persists =>
      exact selects.persists.trans (Database.persistDispatch_persists persists)

theorem StoreOp.persists {vendor : Vendor} (operation : StoreOp vendor) (db : Database) :
    db.Persists (operation.run db) := by
  have effect := operation.run_effect db
  generalize operation.run db = after at effect
  cases effect with
  | unchanged => exact .refl db
  | bookkeeping => exact ⟨(Database.Persists.refl db).runs, (Database.Persists.refl db).attempts⟩
  | configured _ _ _ applied => exact configSteps_persist (Database.apply_steps applied)
  | created creates => exact creates.inserts.persists
  | polled polls => exact polls.persists
  | cancelled cancels => exact cancels.advances.persists
  | reported mem keyed applies =>
      cases applies with
      | known => exact .refl db
      | recorded newer accepted projects =>
          exact ((Database.recordEvent_advances mem newer accepted).trans
            projects.advances).persists

end Persists

/-! ## Bindings -/

section Bindings

variable {vendor : Vendor} {db after : Database}

theorem configSteps_nodes {bundle : CanonicalBundle vendor} {changes : List ConfigChange}
    (steps : Relation.ReflTransGen (ConfigStep bundle changes) db after) :
    after.nodes = db.nodes := by
  induction steps with
  | refl => rfl
  | tail _ step ih =>
      rw [← ih]
      cases step <;> rfl

theorem Database.Inserts.nodes {run : RunRow} (inserts : db.Inserts run after) :
    after.nodes = db.nodes := by
  obtain ⟨middle, inserted, rfl⟩ := inserts.inserted
  obtain ⟨_, _, runs, rfl, _⟩ := Database.insertRun_eq_ok inserted
  rfl

theorem Database.Polls.nodes {node : String} {now : ℤ} {action : Option PollAction}
    {compile : DispatchSource → Except StoreError (Option CompiledDispatch)}
    (polls : db.Polls node now compile action after) : after.nodes = db.nodes := by
  cases polls with
  | nothing | cancel | redeliver => rfl
  | @dispatch _ _ _ _ staged _ selects _ _ _ persists =>
      have stagedNodes : staged.nodes = db.nodes := by
        cases selects with
        | manual | retry => rfl
        | scheduled inserts => exact inserts.nodes
      exact (Database.persistDispatch_schedules persists).2.trans stagedNodes

theorem Database.Applies.nodes {attempt : AttemptRow} {event : AttemptEvent} {now : ℤ}
    {result : AttemptEventApplyResult}
    (applies : db.Applies attempt event now (decideTerminal vendor) result after) :
    after.nodes = db.nodes := by
  cases applies with
  | known => rfl
  | recorded _ _ projects =>
      cases projects with
      | nothing | start => rfl
      | @decided _ _ decision =>
          unfold Database.applyDecision
          cases decision.retry with
          | schedule => rfl
          | final => cases decision.intervalNextDueAtMs <;> rfl

theorem PollServer.Bound.congr {node agentId : String} (bound : Bound db node agentId)
    (nodes : after.nodes = db.nodes) : Bound after node agentId := by
  unfold Bound
  rw [nodes]
  exact bound

/-- Rewriting the nodes one by one keeps a binding that no rewriting touches. -/
theorem PollServer.Bound.update {node agentId : String} (bound : Bound db node agentId)
    {matching : NodeRow → Bool} {set : NodeRow → NodeRow} {keeps : ∀ row, (set row).name = row.name}
    (kept : ∀ row, matching row = true → row.name = node → row.boundAgentId = some agentId →
      (set row).boundAgentId = some agentId) :
    Bound { db with nodes := db.nodes.update matching set keeps } node agentId := by
  obtain ⟨row, mem, named, bound⟩ := bound
  by_cases matched : matching row = true
  · exact ⟨set row, List.mem_map.mpr ⟨row, mem, if_pos matched⟩, (keeps row).trans named,
      kept row matched named bound⟩
  · exact ⟨row, List.mem_map.mpr ⟨row, mem, if_neg matched⟩, named, bound⟩

theorem PollServer.Bound.observeNode {node agentId : String} (bound : Bound db node agentId)
    {observation : NodeObservation} {result : Unit}
    (observed : db.observeNode observation = .ok (result, after)) :
    Bound after node agentId := by
  unfold Database.observeNode at observed
  have kept : Bound { db with
      nodes := db.nodes.update (fun row => row.name = observation.node)
        (fun row => { row with
          agentInstanceId := some observation.agentInstanceId
          boundAgentId := row.boundAgentId <|> some observation.agentInstanceId
          agentBootId := some observation.agentBootId
          lastSeenAtMs := some observation.observedAtMs
          activeRuns := observation.activeRuns
          maxConcurrentRuns := observation.maxConcurrentRuns }) } node agentId :=
    bound.update fun row _ _ isBound => by simp [isBound]
  split at observed
  · cases observed
  · simp only at observed
    split at observed
    · split at observed
      · cases observed
        exact kept
      · cases observed
    · cases observed
      exact kept

theorem PollServer.Bound.registerNode {node agentId : String} (bound : Bound db node agentId)
    (name : String) : Bound (db.registerNode name) node agentId := by
  unfold Database.registerNode
  split
  · exact bound
  next nodes inserted =>
    obtain ⟨row, mem, bound⟩ := bound
    exact ⟨row, ((Table.insert?_eq_some inserted).2 row).mpr (.inl mem), bound⟩

/-- Only a replacement changes who a node is bound to. -/
theorem PollServer.Bound.run {node agentId : String} (bound : Bound db node agentId)
    (operation : StoreOp vendor)
    (elsewhere : ∀ other agent acknowledged,
      operation = .replaceAgentBinding other agent acknowledged → other ≠ node) :
    Bound (operation.run db) node agentId := by
  have commits : ∀ {α : Type} {result : Except StoreError (α × Database)},
      (∀ value after, result = .ok (value, after) → Bound after node agentId) →
        Bound (committed db result) node agentId := fun succeeded =>
    @committed_of_ok _ (fun db => Bound db node agentId) _ _ bound succeeded
  cases operation with
  | apply bundle baseRevision now =>
      refine commits fun plan after applied => ?_
      obtain ⟨_, _, _, _, folded⟩ := Database.apply_eq_ok applied
      exact bound.congr (configSteps_nodes (Database.apply_steps folded))
  | createManualRun mirror requestId now newRunId =>
      refine commits fun run after created => ?_
      rcases Database.createManualRun_eq_ok created with rfl | creates
      · exact bound
      · exact bound.congr creates.inserts.nodes
  | pollAction node agent now newRunId =>
      refine commits fun action after polled => ?_
      exact bound.congr (Database.pollAction_eq_ok polled).nodes
  | requestCancellation runId now =>
      refine commits fun result after cancelled => ?_
      cases Database.requestCancellation_eq_ok cancelled <;> exact bound
  | evaluateDueSchedules now =>
      refine commits fun count after evaluated => ?_
      obtain ⟨schedules, rfl⟩ := Database.evaluateDueSchedules_eq_ok evaluated
      exact bound
  | applyEvent runId attemptNo event now =>
      refine commits fun result after applied => ?_
      obtain ⟨_, _, _, applies⟩ := Database.applyEvent_eq_ok applied
      exact bound.congr applies.nodes
  | observeNode observation =>
      exact commits fun result after observed => bound.observeNode observed
  | registerNode name => exact bound.registerNode name
  | replaceAgentBinding other agent acknowledged =>
      refine commits fun result after replaced => ?_
      unfold Database.replaceAgentBinding at replaced
      split at replaced
      · cases replaced
      · split at replaced
        · cases replaced
        · cases replaced
          refine bound.update fun row matched named _ => ?_
          exact absurd ((of_decide_eq_true matched).symm.trans named)
            (elsewhere other agent acknowledged rfl)

end Bindings

/-! ## The fence -/

section Fence

variable {vendor : Vendor} {db after : Database} {agentId : String} {key : String × ℕ}

/-- As long as an attempt can be handed out again, its node is bound to its receiver. -/
def Database.Holds (db : Database) (agentId : String) (key : String × ℕ) : Prop :=
  ∃ attempt ∈ db.attempts, attempt.key = key ∧ ∀ run ∈ db.runs, run.id = attempt.runId →
    attempt.state = .queued → run.state.isActive = true →
      PollServer.Bound db run.ownerNode agentId

theorem Database.Holds.persist (holds : db.Holds agentId key) (sound : db.Sound)
    (persists : db.Persists after)
    (kept : ∀ attempt ∈ db.attempts, attempt.state = .queued → ∀ run ∈ db.runs,
      run.id = attempt.runId → run.state.isActive = true →
      PollServer.Bound db run.ownerNode agentId → PollServer.Bound after run.ownerNode agentId) :
    after.Holds agentId key := by
  obtain ⟨attempt, mem, keyed, bound⟩ := holds
  obtain ⟨later, laterMem, follows⟩ := persists.attempts attempt mem
  refine ⟨later, laterMem, follows.key.trans keyed, ?_⟩
  intro run runMem owned queued active
  obtain ⟨old, oldMem, oldOwned, _⟩ := sound.attemptRun attempt mem
  obtain ⟨same, sameMem, runFollows⟩ := persists.runs old oldMem
  have sameRun : later.runId = attempt.runId := congrArg Prod.fst follows.key
  obtain rfl : run = same := by
    apply Table.eq_of_key_eq runMem sameMem
    rw [owned, sameRun, runFollows.id, oldOwned]
  have wasQueued : attempt.state = .queued := by
    by_contra started
    exact follows.started started queued
  have wasActive := runFollows.active active
  rw [runFollows.ownerNode]
  exact kept attempt mem wasQueued old oldMem oldOwned wasActive
    (bound old oldMem oldOwned wasQueued wasActive)

/-- A replacement that is let through finds nothing that could be handed out again. -/
theorem Database.Holds.run (holds : db.Holds agentId key) (sound : db.Sound)
    (operation : StoreOp vendor)
    (unacknowledged : ∀ node agent acknowledged,
      operation = .replaceAgentBinding node agent acknowledged → acknowledged = false) :
    (operation.run db).Holds agentId key := by
  by_cases refused : operation.run db = db
  · rw [refused]
    exact holds
  refine holds.persist sound (operation.persists db) ?_
  intro attempt mem queued run runMem owned active bound
  refine bound.run operation ?_
  rintro node agent acknowledged rfl rfl
  obtain rfl := unacknowledged _ _ _ rfl
  -- the attempt is at work, so the replacement was refused
  have executing : db.potentiallyExecuting run.ownerNode = true := by
    have found : db.runs.find? attempt.runId = some run :=
      Table.find?_eq_some_iff.mpr ⟨runMem, owned⟩
    refine Table.any_eq_true.mpr ⟨attempt, mem, ?_⟩
    simp [Database.runOf, found, active, sound.dispatched attempt mem, queued,
      AttemptState.isTerminal]
  apply refused
  simp only [StoreOp.run, Database.replaceAgentBinding, executing]
  cases db.nodes.find? run.ownerNode <;> rfl

/-- What every regular step keeps. -/
structure PollServer.Fence (server : PollServer) : Prop where
  sound : server.db.Sound
  holds : ∀ entry ∈ server.started, server.db.Holds entry.1 entry.2
  single : server.BindingFence

/-- An attempt that a poll hands out is one of its node; if it is not new, it was queued. -/
structure Database.HandsOut (db after : Database) (node : String) (key : String × ℕ) : Prop where
  attempt : ∃ attempt ∈ after.attempts, attempt.key = key
  owner : ∀ run ∈ after.runs, run.id = key.1 → run.ownerNode = node
  queued : ∀ attempt ∈ db.attempts, attempt.key = key → attempt.state = .queued ∧
    ∃ run ∈ db.runs, run.id = attempt.runId ∧ run.state.isActive = true ∧ run.ownerNode = node

theorem Database.Polls.handsOut {node runId mirrorName specHash : String} {now : ℤ}
    {attemptNo : ℕ} {spec : ProcessRunSpec}
    {compile : DispatchSource → Except StoreError (Option CompiledDispatch)} (sound : db.Sound)
    (polls : db.Polls node now compile
      (some (.startAttempt runId attemptNo mirrorName specHash spec)) after) :
    db.HandsOut after node (runId, attemptNo) := by
  generalize answer : some (PollAction.startAttempt runId attemptNo mirrorName specHash spec) =
    action at polls
  cases polls with
  | nothing | cancel => cases answer
  | @redeliver attempt run mem queued runMem owned active owner =>
      cases answer
      have same : ∀ other ∈ db.runs, other.id = attempt.runId → other = run :=
        fun other otherMem named => Table.eq_of_key_eq otherMem runMem (named.trans owned.symm)
      refine ⟨?_, ?_, ?_⟩
      · obtain ⟨later, laterMem, follows⟩ :=
          (markRedelivery_advances db now attempt.key).attempts.successor mem
        exact ⟨later, laterMem, follows.key⟩
      · intro other otherMem named
        rw [same other otherMem named, owner]
      · intro other otherMem keyed
        obtain rfl := Table.eq_of_key_eq otherMem mem keyed
        exact ⟨queued, run, runMem, owned, active, owner⟩
  | @dispatch candidate generation compiled _ staged _ selects _ _ _ persists =>
      obtain ⟨fresh, answered, _, _, runs, members⟩ := Database.persistDispatch_eq_ok persists
      rw [answered] at answer
      cases answer
      obtain ⟨_, run, selected⟩ := selects.candidate sound
      have owner : run.ownerNode = node := by
        cases selects with
        | manual mem _ _ owner =>
            rw [Table.eq_of_key_eq selected.mem mem selected.id, owner]
        | retry mem _ _ _ owner =>
            rw [Table.eq_of_key_eq selected.mem mem selected.id, owner]
        | @scheduled created _ inserts _ owner =>
            have mem : created ∈ staged.runs := by
              obtain ⟨middle, inserted, rfl⟩ := inserts.inserted
              obtain ⟨_, _, withRun, rfl, added⟩ := Database.insertRun_eq_ok inserted
              exact (added created).mpr (.inr rfl)
            rw [Table.eq_of_key_eq selected.mem mem selected.id, owner]
      refine ⟨⟨_, (members _).mpr (.inr rfl), rfl⟩, ?_, ?_⟩
      · intro later laterMem named
        obtain ⟨old, oldMem, rfl⟩ := runs.origin laterMem
        have follows := old.dispatchedAs_follows (candidate.source generation) compiled.policy
        have same : old = run := by
          apply Table.eq_of_key_eq oldMem selected.mem
          rw [selected.id, ← follows.id, named]
          rfl
        rw [follows.ownerNode, same, owner]
      · intro attempt mem keyed
        have stagedMem : ∃ later ∈ staged.attempts, attempt.Follows later :=
          selects.persists.attempts attempt mem
        obtain ⟨later, laterMem, follows⟩ := stagedMem
        exact absurd (follows.key.trans keyed) (fresh later laterMem)

namespace PollServer

variable {server : PollServer}

theorem fence_init : init.Fence := by
  refine ⟨.empty, ?_, ?_⟩
  · intro entry mem
    cases mem
  · intro first second key mem
    cases mem

/-- A transaction, with the handlers and the receivers as they were. -/
theorem Fence.transact (fence : server.Fence) (operation : StoreOp vendor)
    (unacknowledged : ∀ node agent acknowledged,
      operation = .replaceAgentBinding node agent acknowledged → acknowledged = false)
    (handlers : ℕ → Option PollHandler) :
    Fence ⟨operation.run server.db, handlers, server.started⟩ where
  sound := fence.sound.step operation
  holds := fun entry mem => (fence.holds entry mem).run fence.sound operation unacknowledged
  single := fence.single

/-- An attempt is handed out to the installation its node is bound to. -/
theorem Fence.startAttempt {node runId mirrorName specHash : String} {now : ℤ} {attemptNo : ℕ}
    {spec : ProcessRunSpec} {agent : AgentProfile} {newRunId : String} (fence : server.Fence)
    (bound : Bound server.db node agentId)
    (polled : server.db.pollAction node now newRunId (compileDispatch vendor node agent) =
      .ok (some (.startAttempt runId attemptNo mirrorName specHash spec), after))
    (handlers : ℕ → Option PollHandler) :
    Fence ⟨after, handlers, (agentId, runId, attemptNo) :: server.started⟩ := by
  have handsOut := (Database.pollAction_eq_ok polled).handsOut fence.sound
  have committed : (StoreOp.pollAction node agent now newRunId : StoreOp vendor).run server.db =
      after := by
    simp only [StoreOp.run, polled]
    rfl
  have earlier := fence.transact (StoreOp.pollAction node agent now newRunId : StoreOp vendor)
    (by rintro _ _ _ ⟨⟩) handlers
  rw [committed] at earlier
  have boundAfter : Bound after node agentId :=
    bound.congr (Database.pollAction_eq_ok polled).nodes
  -- whoever has received the attempt before is bound to the node as well
  have same : ∀ receiver, (receiver, runId, attemptNo) ∈ server.started → receiver = agentId := by
    intro receiver mem
    obtain ⟨attempt, attemptMem, keyed, held⟩ := fence.holds _ mem
    obtain ⟨queued, run, runMem, owned, active, owner⟩ :=
      handsOut.queued attempt attemptMem keyed
    obtain ⟨row, rowMem, named, isBound⟩ := held run runMem owned queued active
    obtain ⟨other, otherMem, otherNamed, otherBound⟩ := bound
    obtain rfl := Table.eq_of_key_eq rowMem otherMem (named.trans (owner.trans otherNamed.symm))
    exact Option.some.inj (isBound.symm.trans otherBound)
  refine ⟨earlier.sound, ?_, ?_⟩
  · intro entry mem
    rcases List.mem_cons.mp mem with rfl | oldMem
    · obtain ⟨attempt, attemptMem, keyed⟩ := handsOut.attempt
      refine ⟨attempt, attemptMem, keyed, fun run runMem owned _ _ => ?_⟩
      rw [handsOut.owner run runMem (owned.trans (congrArg Prod.fst keyed))]
      exact boundAfter
    · exact earlier.holds entry oldMem
  · intro first second key firstMem secondMem
    rcases List.mem_cons.mp firstMem with firstNew | firstOld
    · obtain ⟨rfl, rfl⟩ := Prod.mk.inj firstNew
      rcases List.mem_cons.mp secondMem with secondNew | secondOld
      · exact (Prod.mk.inj secondNew).1.symm
      · exact (same second secondOld).symm
    · rcases List.mem_cons.mp secondMem with secondNew | secondOld
      · obtain ⟨rfl, rfl⟩ := Prod.mk.inj secondNew
        exact same first firstOld
      · exact fence.single first second key firstOld secondOld

theorem Fence.settle (fence : server.Fence) (slot : ℕ) (handler : Option PollHandler) :
    (server.settle slot handler).Fence :=
  ⟨fence.sound, fence.holds, fence.single⟩

theorem Fence.step (fence : server.Fence) {command : PollCommand vendor}
    (regular : command.Regular) (fenced : command.Fenced server) :
    (server.exec command).Fence := by
  cases command with
  | observe slot observation agent =>
      simp only [exec]
      split
      next result db _ observed =>
        have committed : (StoreOp.observeNode observation : StoreOp vendor).run server.db = db := by
          simp only [StoreOp.run, observed]
          rfl
        have kept := fence.transact (StoreOp.observeNode observation : StoreOp vendor)
          (by rintro _ _ _ ⟨⟩) server.handlers
        rw [committed] at kept
        exact kept.settle slot _
      next => exact fence
  | next slot now newRunId =>
      simp only [exec]
      split
      · exact fence
      next handler polling =>
        have bound := fenced handler polling
        split
        · exact fence.settle slot none
        next action db polled =>
          have committed : (StoreOp.pollAction handler.observation.node handler.agent now newRunId :
              StoreOp vendor).run server.db = db := by
            simp only [StoreOp.run, polled]
            rfl
          have kept := fence.transact (StoreOp.pollAction handler.observation.node handler.agent now
            newRunId : StoreOp vendor) (by rintro _ _ _ ⟨⟩) server.handlers
          rw [committed] at kept
          cases action with
          | none => exact kept.settle slot _
          | some action =>
              cases action with
              | cancelAttempt => exact kept.settle slot none
              | startAttempt runId attemptNo mirrorName specHash spec =>
                  exact fence.startAttempt bound polled _
  | drop slot => exact fence.settle slot none
  | transact operation =>
      refine fence.transact operation ?_ server.handlers
      rintro node agent acknowledged rfl
      exact regular

end PollServer

end Fence

/--
The binding fence. In every run of the server in which `next_action` runs only
for the installation the node is bound to, and no replacement of a binding
acknowledges the execution risk, an attempt is handed out to one installation.
-/
theorem binding_fence {vendor : Vendor} {server : PollServer}
    (reached : server.ReachedBy (@PollCommand.Fenced vendor)) : server.BindingFence := by
  have fence : server.Fence := by
    induction reached with
    | refl => exact PollServer.fence_init
    | tail _ step ih =>
        obtain ⟨command, regular, fenced, rfl⟩ := step
        exact ih.step regular fenced
  exact fence.single

namespace Sample

/-- An installation presents itself. -/
def presents (agentId : String) (now : ℤ) : NodeObservation where
  node := "node-a"
  agentInstanceId := agentId
  agentBootId := "boot"
  activeRuns := 0
  maxConcurrentRuns := 1
  observedAtMs := now

/-- The first installation waits for work while the node is bound to the second. -/
def rebound : List (PollCommand vendor) :=
  [.transact (.registerNode "node-a"), .transact (.apply (alphaBundle nodeA) 0 0),
    .observe 0 (presents "installation-a" 1) agent, .next 0 2 "run-0",
    .transact (.replaceAgentBinding "node-a" "installation-b" false)]

/-- Both polls find the run that is created now. -/
def bothServed : List (PollCommand vendor) :=
  [.transact (.createManualRun "alpha" "request-1" 3 "run-1"),
    .observe 1 (presents "installation-b" 4) agent, .next 1 5 "run-2", .next 0 6 "run-2"]

/-- The attempt is redelivered to the installation that received it. -/
def redelivered : List (PollCommand vendor) :=
  [.transact (.registerNode "node-a"), .transact (.apply (alphaBundle nodeA) 0 0),
    .transact (.createManualRun "alpha" "request-1" 1 "run-1"),
    .observe 0 (presents "installation-a" 2) agent, .next 0 3 "run-2",
    .observe 0 (presents "installation-a" 4) agent, .next 0 5 "run-2"]

/-- Steps one after another. -/
def serve (commands : List (PollCommand vendor)) : PollServer :=
  commands.foldl PollServer.exec .init

/-- The steps are regular and allowed where they are taken. -/
def permits (allowed : PollServer → PollCommand vendor → Bool) :
    PollServer → List (PollCommand vendor) → Bool
  | _, [] => true
  | server, command :: rest =>
      decide command.Regular && allowed server command &&
        permits allowed (server.exec command) rest

theorem reachedBy_serve {allowed : PollServer → PollCommand vendor → Prop}
    {checks : PollServer → PollCommand vendor → Bool} {commands : List (PollCommand vendor)}
    (sound : ∀ server command, checks server command = true → allowed server command)
    (permitted : permits checks .init commands = true) : (serve commands).ReachedBy allowed := by
  unfold serve PollServer.ReachedBy
  generalize PollServer.init = server at permitted
  induction commands generalizing server with
  | nil => exact .refl
  | cons command rest ih =>
      simp only [permits, Bool.and_eq_true, decide_eq_true_eq] at permitted
      exact (ih _ permitted.2).head ⟨command, permitted.1.1, sound _ _ permitted.1.2, rfl⟩

end Sample

theorem binding_fence_redelivered :
    (Sample.serve Sample.redelivered).started.length = 2 ∧
      (Sample.serve Sample.redelivered).BindingFence := by
  refine ⟨by decide +kernel, binding_fence (Sample.reachedBy_serve
    (fun _ _ => of_decide_eq_true) ?_)⟩
  decide +kernel

/-- A poll that has waited through the replacement is served beside the new installation. -/
theorem waiting_poll_passes_the_fence :
    ¬∀ server : PollServer, server.ReachedBy (fun _ (_ : PollCommand Sample.vendor) => True) →
      server.BindingFence := by
  intro claimed
  have reached : (Sample.serve (Sample.rebound ++ Sample.bothServed)).ReachedBy
      (fun _ (_ : PollCommand Sample.vendor) => True) :=
    @Sample.reachedBy_serve _ (fun _ _ => true) _ (fun _ _ _ => trivial) (by decide +kernel)
  have served : (Sample.serve (Sample.rebound ++ Sample.bothServed)).started =
      [("installation-a", "run-1", 1), ("installation-b", "run-1", 1)] := by decide +kernel
  have same := claimed _ reached "installation-a" "installation-b" ("run-1", 1)
    (by rw [served]; simp) (by rw [served]; simp)
  revert same
  decide

end LzuMirror
