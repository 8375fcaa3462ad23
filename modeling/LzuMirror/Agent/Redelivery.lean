import LzuMirror.Agent.Evidence
import LzuMirror.Agent.Spawning
import LzuMirror.Server.Events
import LzuMirror.Store.FirstEvents

/-!
# One execution for each attempt

The store, one agent and what travels between them, for one attempt: the answers
to the polls and the events can be delayed and lost, the server hands the attempt
out again until it has heard of it, and the agent's tasks interleave at every
operation. The agent does not crash.

While the attempt is queued, what the agent knows of it is unacknowledged, so its
file stays. Once the file of a started attempt is gone the server hands the
attempt out no more; an answer it gave before may still be under way. The
execution is started once in every run in which such a late answer finds the
agent without room.
-/

namespace LzuMirror

/-- The tasks of one agent for an attempt; every acceptance spawns an executor. -/
inductive AttemptTask where
  | poller
  | reconciler
  | executor (index : ℕ)
  deriving DecidableEq, Repr

/-- The store, the messages under way and the agent, for one attempt. -/
structure Exchange where
  db : Database
  -- the events that were sent; each of them may still arrive
  posted : List EventRequest
  -- the answer to the last poll
  response : Option PollAction
  -- the file of a started attempt was retired since that answer was given
  stale : Bool
  file : Option SpoolRecord
  active : Bool
  -- the other entries of the active map
  others : ℕ
  locks : AgentLock → Option AttemptTask
  -- the records of the tasks that were spawned, and how many of them have begun
  launched : List SpoolRecord
  begun : ℕ
  processes : ℕ

namespace Exchange

/-- Nothing has happened. -/
def init : Exchange where
  db := .empty
  posted := []
  response := none
  stale := false
  file := none
  active := false
  others := 0
  locks := fun _ => none
  launched := []
  begun := 0
  processes := 0

/-- `active.len()`. -/
def count (exchange : Exchange) : ℕ := exchange.others + if exchange.active then 1 else 0

/-- The file is retired. -/
def retire (exchange : Exchange) : Exchange :=
  { exchange with
    file := none
    stale := exchange.stale || !exchange.launched.isEmpty }

section Steps

variable (vendor : Vendor) (rfc3339 : String → Option ℤ) (key : String × ℕ)

/-- What becomes of an event on its way to the server, and of the reply on its way back. -/
inductive Delivers (before : Database) (request : EventRequest) :
    Except String Bool → Database → Prop where
  | lost {error : String} : Delivers before request (.error error) before
  | refused : Delivers before request (.ok false) before
  | applied {event : AttemptEvent} {now : ℤ} {result : AttemptEventApplyResult}
      {after : Database} (read : request.attemptEvent rfc3339 = .ok event)
      (applied : before.applyEvent key.1 key.2 event now (decideTerminal vendor) =
        .ok (result, after)) : Delivers before request (.ok true) after
  | unheard {event : AttemptEvent} {now : ℤ} {result : AttemptEventApplyResult}
      {after : Database} {error : String} (read : request.attemptEvent rfc3339 = .ok event)
      (applied : before.applyEvent key.1 key.2 event now (decideTerminal vendor) =
        .ok (result, after)) : Delivers before request (.error error) after

/--
What an operation of a task may do. The spool can be read, a write or a
retirement may fail, and an agent counts its active runs when `condition` holds.
-/
def Step (condition : Exchange → Prop) (task : AttemptTask) :
    Program.Semantics AgentOp AgentOp.Reply Exchange
  | before, .readSpool, reply, after =>
      after = before ∧ ∀ record, reply = .ok record ↔ before.file = some record
  | before, .spoolExists, reply, after => after = before ∧ reply = before.file.isSome
  | before, .writeSpool record, reply, after =>
      after = { before with file := some record } ∨ Failed reply ∧ after = before
  | before, .retireSpool, reply, after =>
      after = before.retire ∨ Failed reply ∧ after = before
  | before, .postEvent request, reply, after =>
      ∃ db, Delivers vendor rfc3339 key before.db request reply db ∧
        after = { before with db, posted := request :: before.posted }
  | before, .activeContains, reply, after => after = before ∧ reply = before.active
  | before, .activeLength, reply, after =>
      after = before ∧ reply = before.count ∧ condition before
  | before, .activeInsert, _, after => after = { before with active := true }
  | before, .activeRemove, _, after => after = { before with active := false }
  | before, .acquire lock _, _, after =>
      before.locks lock = none ∧
        after = { before with locks := Function.update before.locks lock (some task) }
  | before, .release lock, _, after =>
      after = { before with locks := Function.update before.locks lock none }
  | before, .spawnTask record, _, after =>
      after = { before with launched := before.launched ++ [record] }
  | before, .spawnProcess _, reply, after =>
      reply = .ok () ∧ after = { before with processes := before.processes + 1 } ∨
        Failed reply ∧ after = before
  | before, _, _, after => after = before

end Steps

end Exchange

/-- The tasks of the agent and the state of the exchange. -/
abbrev ExchangePool := Pool AttemptTask AgentOp AgentOp.Reply Exchange

/-- The runs of the exchange. -/
inductive Exchange.Runs (vendor : Vendor) (rfc3339 : String → Option ℤ) (config : AgentConfig)
    (key : String × ℕ) (condition : Exchange → Prop) : ExchangePool → Prop where
  | start : Runs vendor rfc3339 config key condition ⟨fun _ => .pure (), .init⟩
  -- one operation of a task, or the next pass of the background loop
  | move {pool after : ExchangePool} (ran : Runs vendor rfc3339 config key condition pool)
      (moved : Pool.Move (Exchange.Step vendor rfc3339 key condition)
        (fun task program => task = .reconciler ∧ program = Service.reconcileAll config) pool
        after) : Runs vendor rfc3339 config key condition after
  -- every transaction but the events of the attempt, which come from the agent
  | transact {pool : ExchangePool} (ran : Runs vendor rfc3339 config key condition pool)
      (operation : StoreOp vendor)
      (other : ∀ event now, operation ≠ .applyEvent key.1 key.2 event now) :
      Runs vendor rfc3339 config key condition
        ⟨pool.tasks, { pool.state with db := operation.run pool.state.db }⟩
  -- an event that was sent before arrives, perhaps once more
  | deliver {pool : ExchangePool} {request : EventRequest} {reply : Except String Bool}
      {db : Database} (ran : Runs vendor rfc3339 config key condition pool)
      (posted : request ∈ pool.state.posted)
      (delivers : Exchange.Delivers vendor rfc3339 key pool.state.db request reply db) :
      Runs vendor rfc3339 config key condition ⟨pool.tasks, { pool.state with db }⟩
  -- the server answers a poll
  | answer {pool : ExchangePool} {node newRunId : String} {agent : AgentProfile} {now : ℤ}
      {action : Option PollAction} {db : Database}
      (ran : Runs vendor rfc3339 config key condition pool)
      (idle : pool.tasks .poller = .pure ())
      (polled : pool.state.db.pollAction node now newRunId (compileDispatch vendor node agent) =
        .ok (action, db)) :
      Runs vendor rfc3339 config key condition
        ⟨pool.tasks, { pool.state with db, response := action, stale := false }⟩
  -- the answer gets lost, or it is about another attempt
  | lose {pool : ExchangePool} (ran : Runs vendor rfc3339 config key condition pool) :
      Runs vendor rfc3339 config key condition
        ⟨pool.tasks, { pool.state with response := none }⟩
  | accept {pool : ExchangePool} {mirror specHash : String} {spec : ProcessRunSpec}
      {executionIdentity : Option ExecutionIdentity}
      (ran : Runs vendor rfc3339 config key condition pool)
      (idle : pool.tasks .poller = .pure ())
      (answered : pool.state.response = some (.startAttempt key.1 key.2 mirror specHash spec))
      (identified : executionIdentity = none ∨ executionIdentity = some ⟨mirror⟩) :
      Runs vendor rfc3339 config key condition
        ⟨Function.update pool.tasks .poller
            (Service.acceptWithIdentity config key.1 key.2 specHash executionIdentity spec),
          { pool.state with response := none }⟩
  | cancel {pool : ExchangePool} {specHash : String}
      (ran : Runs vendor rfc3339 config key condition pool)
      (idle : pool.tasks .poller = .pure ())
      (answered : pool.state.response = some (.cancelAttempt key.1 key.2 specHash)) :
      Runs vendor rfc3339 config key condition
        ⟨Function.update pool.tasks .poller (Service.cancel config key.1 key.2 specHash),
          { pool.state with response := none }⟩
  -- the executions of the other attempts
  | elsewhere {pool : ExchangePool} (ran : Runs vendor rfc3339 config key condition pool)
      (others : ℕ) :
      Runs vendor rfc3339 config key condition ⟨pool.tasks, { pool.state with others }⟩
  -- a task that was spawned begins
  | launch {pool : ExchangePool} {record : SpoolRecord}
      (ran : Runs vendor rfc3339 config key condition pool)
      (spawned : pool.state.launched[pool.state.begun]? = some record) :
      Runs vendor rfc3339 config key condition
        ⟨Function.update pool.tasks (.executor pool.state.begun)
            (Service.runAccepted config record),
          { pool.state with begun := pool.state.begun + 1 }⟩

/-! ## Until the first event is applied -/

/-- Nothing of the record was acknowledged, and it does not take the attempt back to `queued`. -/
structure SpoolRecord.Unacknowledged (record : SpoolRecord) : Prop where
  acknowledged : record.acknowledgedSequence = 0
  numbered : 0 < record.sequence
  moves : record.state ≠ .queued
  intent : ∀ publication, record.publication = some publication →
    publication.preVisibilityTerminalState ≠ some .queued

/-- What the replies say before any event was applied. -/
def Exchange.Told : (operation : AgentOp) → operation.Reply → Prop
  | .readSpool, (reply : Except String SpoolRecord) =>
      ∀ record, reply = .ok record → record.Unacknowledged
  | .postEvent _, (reply : Except String Bool) => reply ≠ .ok true
  | _, _ => True

/-- What the tasks do before any event was applied. -/
def Exchange.Tentative : AgentOp → Prop
  | .writeSpool record | .spawnTask record => record.Unacknowledged
  | .postEvent request => 0 < request.eventSequence ∧ request.state ≠ .queued
  | .retireSpool => False
  | _ => True

namespace Exchange

open Agent

theorem unacknowledged_accepted (runId specHash : String) (attempt : ℕ)
    (executionIdentity : Option ExecutionIdentity) (spec : ProcessRunSpec) (time : String) :
    (SpoolRecord.acceptedWithIdentity runId attempt specHash executionIdentity spec
      time).Unacknowledged where
  acknowledged := rfl
  numbered := Nat.one_pos
  moves := by simp [SpoolRecord.acceptedWithIdentity]
  intent := by
    intro publication stored
    rcases Option.map_eq_some_iff.mp stored with ⟨_, _, rfl⟩
    simp [PublicationState.ofSpec]

/-- The event of an unacknowledged record. -/
theorem tentative_eventFor {config : AgentConfig} {record : SpoolRecord}
    (fresh : record.Unacknowledged) :
    Tentative (.postEvent (Service.eventFor config record)) := by
  have numbered := fresh.numbered
  unfold Tentative Service.eventFor
  dsimp only
  split
  · exact ⟨Nat.one_pos, by simp⟩
  · exact ⟨numbered, fresh.moves⟩

/-- Until then the tasks only make unacknowledged records of the ones they have. -/
theorem serves_tentative :
    Serves SpoolRecord.Unacknowledged Told Tentative
      (fun publication => publication.preVisibilityTerminalState ≠ some .queued)
      (· ≠ .queued) where
  looks := by
    intro operation look
    cases operation <;> trivial
  writes := id
  tracks := fun fresh stored => fresh.intent _ stored
  publishes := by
    intro record publication fresh intent
    refine ⟨fresh.acknowledged, fresh.numbered, fresh.moves, ?_⟩
    rintro _ ⟨⟩
    exact intent
  concludes := by
    intro record result exitCode kind message time fresh ends
    exact ⟨fresh.acknowledged, Nat.succ_pos _, ends, fresh.intent⟩
  succeeds := by simp
  fails := by simp
  cancels := by simp
  intends := by
    intro publication intent
    cases planned : publication.preVisibilityTerminalState with
    | none => simp
    | some result => simpa [planned] using intent
  recovers := by
    intro publication result kind message _ ends
    simpa [recoveryState] using ends
  undoes := fun _ => by simp [undoneState]
  enters := id
  readies := id
  prepares := fun _ _ => by simp [preparingState]
  stages := fun _ => trivial
  unstages := fun _ => trivial
  rotates := fun _ _ => trivial
  unrotates := fun _ _ => trivial
  exchanges := fun _ _ _ => trivial
  appears := fun _ _ _ => trivial
  reads := trivial
  acquires := trivial
  releases := trivial
  merges := fun fresh => ⟨fresh.acknowledged, fresh.numbered, fresh.moves, fresh.intent⟩
  interrupts := by simp
  timesOut := by simp
  reports := by
    intro operation report
    cases operation <;> trivial
  finds := fun told => told _ rfl
  posts := fun _ fresh => tentative_eventFor fresh
  hears := fun _ _ told _ => absurd rfl told
  logs := fun fresh => ⟨fresh.acknowledged, fresh.numbered, fresh.moves, fresh.intent⟩
  retires := by
    intro record fresh ready
    have acknowledged := fresh.acknowledged
    have numbered := fresh.numbered
    simp only [SpoolRecord.readyForCleanup, Bool.and_eq_true, decide_eq_true_eq] at ready
    omega
  errands := by
    intro operation errand
    cases operation <;> trivial
  rejects := by simp
  runs := fun fresh => ⟨fresh.acknowledged, Nat.succ_pos _, by simp [runningRecord], fresh.intent⟩
  tombstones := ⟨rfl, Nat.one_pos, by simp [SpoolRecord.cancellationTombstone],
    by simp [SpoolRecord.cancellationTombstone]⟩

/-! ## The operations -/

section Steps

variable {vendor : Vendor} {rfc3339 : String → Option ℤ} {config : AgentConfig}
  {key : String × ℕ} {condition : Exchange → Prop} {task : AttemptTask}
  {before after : Exchange}

/-- What an operation does to the exchange, apart from the active map and the locks. -/
inductive Effect (vendor : Vendor) (rfc3339 : String → Option ℤ) (key : String × ℕ)
    (before : Exchange) : (operation : AgentOp) → operation.Reply → Exchange → Prop where
  | aside {operation : AgentOp} {reply : operation.Reply} {active : Bool}
      {locks : AgentLock → Option AttemptTask}
      (unwritten : ∀ record, operation ≠ .writeSpool record)
      (unposted : ∀ request, operation ≠ .postEvent request)
      (unspawned : ∀ record, operation ≠ .spawnTask record) :
      Effect vendor rfc3339 key before operation reply { before with active, locks }
  | failed {record : SpoolRecord} {reply : Except String Unit} (failed : Failed reply) :
      Effect vendor rfc3339 key before (.writeSpool record) reply before
  | written {record : SpoolRecord} {reply : Except String Unit} :
      Effect vendor rfc3339 key before (.writeSpool record) reply
        { before with file := some record }
  | retired {reply : Except String Unit} :
      Effect vendor rfc3339 key before .retireSpool reply before.retire
  | posted {request : EventRequest} {reply : Except String Bool} {db : Database}
      (delivers : Delivers vendor rfc3339 key before.db request reply db) :
      Effect vendor rfc3339 key before (.postEvent request) reply
        { before with db, posted := request :: before.posted }
  | spawned {record : SpoolRecord} {reply : Unit} :
      Effect vendor rfc3339 key before (.spawnTask record) reply
        { before with launched := before.launched ++ [record] }
  | executed {spec : ProcessRunSpec} {reply : Except String Unit} :
      Effect vendor rfc3339 key before (.spawnProcess spec) reply
        { before with processes := before.processes + 1 }

theorem Step.effect {operation : AgentOp} {reply : operation.Reply}
    (performed : Step vendor rfc3339 key condition task before operation reply after) :
    Effect vendor rfc3339 key before operation reply after := by
  cases operation with
  | writeSpool record =>
      rcases performed with rfl | ⟨failed, rfl⟩
      · exact .written
      · exact .failed failed
  | retireSpool =>
      rcases performed with rfl | ⟨_, rfl⟩
      · exact .retired
      · exact .aside (by simp) (by simp) (by simp)
  | postEvent request =>
      rcases performed with ⟨db, delivers, rfl⟩
      exact .posted delivers
  | spawnTask record =>
      cases performed
      exact .spawned
  | spawnProcess spec =>
      rcases performed with ⟨_, rfl⟩ | ⟨_, rfl⟩
      · exact .executed
      · exact .aside (by simp) (by simp) (by simp)
  | readSpool | spoolExists | activeContains | activeLength =>
      rcases performed with ⟨rfl, _⟩
      exact .aside (by simp) (by simp) (by simp)
  | acquire lock copy =>
      rcases performed with ⟨_, rfl⟩
      exact .aside (by simp) (by simp) (by simp)
  | _ =>
      cases performed
      exact .aside (by simp) (by simp) (by simp)

theorem Delivers.persists {request : EventRequest} {reply : Except String Bool}
    {db after : Database} (delivers : Delivers vendor rfc3339 key db request reply after) :
    db.Persists after := by
  have stored : ∀ event now result, db.applyEvent key.1 key.2 event now (decideTerminal vendor) =
      .ok (result, after) → db.Persists after := by
    intro event now result applied
    have run : (StoreOp.applyEvent key.1 key.2 event now : StoreOp vendor).run db = after := by
      simp only [StoreOp.run, applied, committed]
    exact run ▸ StoreOp.persists _ _
  cases delivers with
  | lost | refused => exact .refl db
  | applied _ applied | unheard _ applied => exact stored _ _ _ applied

/-- An event that moves the attempt is applied, or it leaves the store as it is. -/
theorem Delivers.leaves {request : EventRequest} {reply : Except String Bool}
    {db after : Database} (unheard : db.Unheard key) (tentative : Tentative (.postEvent request))
    (delivers : Delivers vendor rfc3339 key db request reply after) :
    after.HasLeft key ∨ after = db ∧ reply ≠ .ok true := by
  cases delivers with
  | lost | refused => exact .inr ⟨rfl, by simp⟩
  | applied read applied | unheard read applied =>
      rcases EventRequest.attemptEvent_eq_ok read with ⟨sequence, state⟩
      refine .inl (Database.hasLeft_of_applyEvent unheard ?_ ?_ applied)
      · rw [sequence]
        exact tentative.1
      · rw [state]
        exact tentative.2

theorem Effect.persists {operation : AgentOp} {reply : operation.Reply}
    (effect : Effect vendor rfc3339 key before operation reply after) :
    before.db.Persists after.db := by
  cases effect with
  | posted delivers => exact delivers.persists
  | _ => exact .refl _

end Steps

/-! ## Before the first event -/

/-- No event of the attempt was applied, and nothing under way says that one was. -/
structure Quiet (key : String × ℕ) (pool : ExchangePool) : Prop where
  unheard : pool.state.db.Unheard key
  posted : ∀ request ∈ pool.state.posted, Tentative (.postEvent request)
  file : ∀ record, pool.state.file = some record → record.Unacknowledged
  launched : ∀ record ∈ pool.state.launched, record.Unacknowledged
  tasks : ∀ task, (pool.tasks task).EveryGiven Told Tentative fun _ => True

section Quiet

variable {vendor : Vendor} {rfc3339 : String → Option ℤ} {config : AgentConfig}
  {key : String × ℕ} {condition : Exchange → Prop} {pool : ExchangePool} {task : AttemptTask}

/-- A task starts a program, and the state changes where the file does not depend on it. -/
theorem Quiet.start (quiet : Quiet key pool) {program : AgentProgram Unit} {state : Exchange}
    (every : program.EveryGiven Told Tentative fun _ => True) (unheard : state.db.Unheard key)
    (posted : state.posted = pool.state.posted) (file : state.file = pool.state.file)
    (launched : state.launched = pool.state.launched) :
    Quiet key ⟨Function.update pool.tasks task program, state⟩ where
  unheard := unheard
  posted := posted ▸ quiet.posted
  file := file ▸ quiet.file
  launched := launched ▸ quiet.launched
  tasks other := by
    by_cases same : other = task
    · subst same
      simpa using every
    · simpa only [Function.update_of_ne same] using quiet.tasks other

/-- The next operation of a task is the first one that is applied, or leaves all as it was. -/
theorem Quiet.perform (quiet : Quiet key pool) {operation : AgentOp}
    {next : operation.Reply → AgentProgram Unit} {reply : operation.Reply} {after : Exchange}
    (running : pool.tasks task = .perform operation next)
    (performed : Step vendor rfc3339 key condition task pool.state operation reply after) :
    after.db.HasLeft key ∨ Quiet key ⟨Function.update pool.tasks task (next reply), after⟩ := by
  have every := quiet.tasks task
  rw [running] at every
  rcases every with ⟨tentative, rest⟩
  have later : ∀ state : Exchange, state.db.Unheard key →
      (∀ request ∈ state.posted, Tentative (.postEvent request)) →
        (∀ record, state.file = some record → record.Unacknowledged) →
          (∀ record ∈ state.launched, record.Unacknowledged) → Told operation reply →
            Quiet key ⟨Function.update pool.tasks task (next reply), state⟩ := by
    intro state unheard posted file launched told
    refine ⟨unheard, posted, file, launched, fun other => ?_⟩
    by_cases same : other = task
    · subst same
      simpa using rest reply told
    · simpa only [Function.update_of_ne same] using quiet.tasks other
  have told : (∀ request, operation ≠ .postEvent request) → Told operation reply := by
    intro unposted
    cases operation with
    | readSpool =>
        intro record found
        exact quiet.file record ((performed.2 record).mp found)
    | postEvent request => exact absurd rfl (unposted request)
    | _ => trivial
  cases Step.effect performed with
  | aside _ unposted =>
      exact .inr (later _ quiet.unheard quiet.posted quiet.file quiet.launched (told unposted))
  | failed | executed =>
      exact .inr (later _ quiet.unheard quiet.posted quiet.file quiet.launched (told (by simp)))
  | written =>
      refine .inr (later _ quiet.unheard quiet.posted ?_ quiet.launched (told (by simp)))
      rintro _ ⟨⟩
      exact tentative
  | retired => exact tentative.elim
  | posted delivers =>
      rcases delivers.leaves quiet.unheard tentative with left | ⟨rfl, unapplied⟩
      · exact .inl left
      · refine .inr (later _ quiet.unheard ?_ quiet.file quiet.launched unapplied)
        intro request listed
        rcases List.mem_cons.mp listed with rfl | listed
        · exact tentative
        · exact quiet.posted request listed
  | spawned =>
      refine .inr (later _ quiet.unheard quiet.posted quiet.file ?_ (told (by simp)))
      intro record listed
      rcases List.mem_append.mp listed with listed | listed
      · exact quiet.launched record listed
      · rw [List.mem_singleton.mp listed]
        exact tentative

/-- Another transaction than an event of the attempt. -/
theorem Quiet.transact (quiet : Quiet key pool) (operation : StoreOp vendor)
    (other : ∀ event now, operation ≠ .applyEvent key.1 key.2 event now) {state : Exchange}
    (rest : state = { pool.state with
      db := operation.run pool.state.db
      response := state.response
      stale := state.stale }) : Quiet key ⟨pool.tasks, state⟩ := by
  have keeps : pool.state.db.KeepsQueued (operation.run pool.state.db) key :=
    operation.keepsQueued pool.state.db fun event now applied => absurd applied (other event now)
  rw [rest]
  exact { quiet with unheard := keeps.unheard quiet.unheard }

/-- Either an event of the attempt was applied, or nothing says that one was. -/
theorem Runs.settled (ran : Runs vendor rfc3339 config key condition pool) :
    pool.state.db.HasLeft key ∨ Quiet key pool := by
  induction ran with
  | start =>
      exact .inr ⟨fun _ mem => absurd mem Table.not_mem_empty, by simp [init], by simp [init],
        by simp [init], fun _ => trivial⟩
  | move _ moved ih =>
      cases moved with
      | perform running performed =>
          rcases ih with left | quiet
          · exact .inl (left.persist (Step.effect performed).persists)
          · exact quiet.perform running performed
      | start _ started =>
          refine ih.imp_right fun quiet => ?_
          rcases started with ⟨rfl, rfl⟩
          exact quiet.start serves_tentative.reconcileAll quiet.unheard rfl rfl rfl
  | transact _ operation other ih =>
      rcases ih with left | quiet
      · exact .inl (left.persist (operation.persists _))
      · exact .inr (quiet.transact operation other rfl)
  | deliver _ posted delivers ih =>
      rcases ih with left | quiet
      · exact .inl (left.persist delivers.persists)
      · rcases delivers.leaves quiet.unheard (quiet.posted _ posted) with left | ⟨same, _⟩
        · exact .inl left
        · exact .inr { quiet with unheard := same ▸ quiet.unheard }
  | @answer pool node newRunId agent now action db _ _ polled ih =>
      have run : (StoreOp.pollAction node agent now newRunId : StoreOp vendor).run pool.state.db =
          db := by
        simp only [StoreOp.run, polled, committed]
      subst run
      rcases ih with left | quiet
      · exact .inl (left.persist ((StoreOp.pollAction node agent now newRunId).persists _))
      · exact .inr (quiet.transact (.pollAction node agent now newRunId) (by simp) rfl)
  | lose _ ih => exact ih.imp_right fun quiet => { quiet with }
  | accept _ _ _ _ ih =>
      refine ih.imp_right fun quiet => quiet.start ?_ quiet.unheard rfl rfl rfl
      exact serves_tentative.acceptWithIdentity (unacknowledged_accepted _ _ _ _ _)
        (unacknowledged_accepted _ _ _ _ _)
  | cancel _ _ _ ih =>
      refine ih.imp_right fun quiet => quiet.start ?_ quiet.unheard rfl rfl rfl
      exact serves_tentative.cancel
  | elsewhere _ _ ih => exact ih.imp_right fun quiet => { quiet with }
  | launch _ spawned ih =>
      refine ih.imp_right fun quiet => ?_
      have fresh := quiet.launched _ (List.mem_of_getElem? spawned)
      exact quiet.start (serves_tentative.runAccepted (fun _ => trivial) fresh) quiet.unheard rfl
        rfl rfl

end Quiet

/-! ## One launch -/

/-- The operation is not the spawning of a task. -/
def Calm (operation : AgentOp) : Prop := ∀ record, operation ≠ .spawnTask record

/-- An agent that counts its active runs finds no room. -/
def Full (config : AgentConfig) : (operation : AgentOp) → operation.Reply → Prop
  | .activeLength, (reply : ℕ) => config.maxConcurrentRuns ≤ reply
  | _, _ => True

/-- A task that was written may be spawned once. -/
def AfterWrite : (operation : AgentOp) → operation.Reply → AgentProgram Unit → Prop
  | .writeSpool _, (.ok _ : Except String Unit), rest =>
      rest.AtMostOnce fun operation => ¬Calm operation
  | .writeSpool _, (.error _ : Except String Unit), rest => rest.Every Calm fun _ => True
  | _, _, _ => True

/-- The spool file is written before a task is spawned. -/
def WritesFirst (program : AgentProgram Unit) : Prop :=
  program.Until Calm (fun operation => ∃ record, operation = .writeSpool record) AfterWrite

/-- A task is spawned only if there is no file, there is room and the file was written. -/
def AfterRead (config : AgentConfig) :
    (operation : AgentOp) → operation.Reply → AgentProgram Unit → Prop
  | .readSpool, (.ok _ : Except String SpoolRecord), rest => rest.Every Calm fun _ => True
  | .readSpool, (.error _ : Except String SpoolRecord), rest =>
      rest.EveryGiven (Full config) Calm (fun _ => True) ∧ WritesFirst rest
  | _, _, _ => True

section Programs

variable {config : AgentConfig} {record : SpoolRecord}

theorem serves_calm :
    Serves (fun _ => True) (fun _ _ => True) Calm (fun _ => True) fun _ => True := by
  apply serves_idle
  rintro operation idle record rfl
  cases idle

theorem Calm.atMostOnce {program : AgentProgram Unit} (every : program.Every Calm fun _ => True) :
    program.AtMostOnce fun operation => ¬Calm operation :=
  Program.Every.atMostOnce (by simpa only [not_not] using every)

theorem afterWrite_of_calm {operation : AgentOp} {reply : operation.Reply}
    {rest : AgentProgram Unit} (every : rest.Every Calm fun _ => True) :
    AfterWrite operation reply rest := by
  unfold AfterWrite
  split
  · exact Calm.atMostOnce every
  · exact every
  · trivial

theorem WritesFirst.of_calm {program : AgentProgram Unit}
    (every : program.Every Calm fun _ => True) : WritesFirst program :=
  every.until fun _ _ _ _ rest => afterWrite_of_calm rest

theorem errand_calm (operation : AgentOp) (errand : isErrand operation = true) :
    ¬(∃ record, operation = .writeSpool record) ∧ Calm operation := by
  constructor
  · rintro ⟨record, rfl⟩
    cases errand
  · rintro record rfl
    cases errand

theorem rejectLocally_calm {message : String} :
    (Service.rejectLocally config record message).Every Calm fun _ => True :=
  (serves_calm.rejectLocally trivial).every

/-- The record is written, then its task is spawned. -/
theorem startExecution_writesFirst {guard : Option String} :
    WritesFirst (Service.startExecution record guard) := by
  have releases : (Service.releaseGuard guard).Every Calm fun _ => True :=
    (errands_releaseGuard fun operation errand => (errand_calm operation errand).2).every
  refine ⟨fun _ reply => ?_, fun unwritten => absurd ⟨record, rfl⟩ unwritten⟩
  rcases reply with error | _
  · refine Program.every_bind.mpr (Program.every_bind.mpr (releases.imp fun _ _ => ?_))
    exact ⟨by simp [Calm], fun _ => ⟨by simp [Calm], fun _ => trivial⟩⟩
  · refine ⟨fun spawns => absurd (by simp [Calm]) spawns, fun _ => ?_⟩
    refine ⟨fun spawns => absurd (by simp [Calm]) spawns, fun _ => ?_⟩
    refine Program.AtMostOnce.after (Program.AtMostOnce.after ?_)
    simp only [not_not]
    refine releases.imp fun _ _ => ⟨fun _ _ => ?_, fun _ => ?_⟩
    · exact ⟨by simp [Calm], fun _ => trivial⟩
    · exact ⟨fun spawns => absurd (by simp [Calm]) spawns, fun _ => trivial⟩

/-- Without room the attempt is left to the next poll. -/
theorem acceptFresh_full {runId specHash : String} {attempt : ℕ}
    {executionIdentity : Option ExecutionIdentity} {spec : ProcessRunSpec} :
    (Service.acceptFresh config runId attempt specHash executionIdentity spec).EveryGiven
      (Full config) Calm fun _ => True := by
  have full : (Service.activeOrFull config).EveryGiven (Full config) Calm (· = true) := by
    refine ⟨by simp [Calm], ?_⟩
    rintro (_ | _) _
    · exact ⟨by simp [Calm], fun (reply : ℕ) told => decide_eq_true told⟩
    · rfl
  refine ⟨by simp [Calm], fun _ _ => ?_⟩
  refine Program.everyGiven_bind.mpr (Program.everyGiven_bind.mpr (full.imp ?_))
  rintro _ rfl
  exact ⟨by simp [Calm], fun _ _ => ⟨by simp [Calm], fun _ _ => trivial⟩⟩

theorem acceptFresh_writesFirst {runId specHash : String} {attempt : ℕ}
    {executionIdentity : Option ExecutionIdentity} {spec : ProcessRunSpec} :
    WritesFirst (Service.acceptFresh config runId attempt specHash executionIdentity spec) := by
  have aside : ∀ {operation : AgentOp}, isErrand operation = true →
      ¬(∃ record, operation = .writeSpool record) ∧ Calm operation := errand_calm _
  have full : (Service.activeOrFull config).Every _ fun _ => True :=
    (errands_activeOrFull errand_calm).every
  have admits : (Service.admission config executionIdentity spec).Every _ fun _ => True :=
    (errands_admission errand_calm).every
  refine ⟨fun written => absurd written (aside rfl).1, fun _ => ⟨(aside rfl).2, fun _ => ?_⟩⟩
  refine Program.Until.after (Program.Until.after (full.imp ?_))
  rintro (_ | _) _
  · refine Program.Until.after (admits.imp ?_)
    rintro (message | guard) _
    · refine ⟨fun written => absurd written (aside rfl).1, fun _ => ⟨(aside rfl).2, fun time => ?_⟩⟩
      exact WritesFirst.of_calm rejectLocally_calm
    · refine ⟨fun written => absurd written (aside rfl).1, fun _ => ⟨(aside rfl).2, fun time => ?_⟩⟩
      exact startExecution_writesFirst
  · refine WritesFirst.of_calm ?_
    exact ⟨(aside rfl).2, fun _ => ⟨(aside rfl).2, fun _ => trivial⟩⟩

/-- The acceptance reads the file first. -/
theorem acceptWithIdentity_opens {runId specHash : String} {attempt : ℕ}
    {executionIdentity : Option ExecutionIdentity} {spec : ProcessRunSpec} :
    (Service.acceptWithIdentity config runId attempt specHash executionIdentity spec).Until Calm
      (fun operation => operation = .readSpool) (AfterRead config) := by
  refine ⟨fun read => absurd read (by simp), fun _ => ⟨by simp [Calm], fun _ => ?_⟩⟩
  refine ⟨fun _ reply => ?_, fun unread => absurd rfl unread⟩
  rcases reply with error | existing
  · exact ⟨acceptFresh_full, acceptFresh_writesFirst⟩
  · exact (serves_calm.acceptExisting trivial).every

end Programs

/-- If the attempt was started and its file is gone, the answer under way was given before. -/
def Warned (exchange : Exchange) : Prop :=
  exchange.launched ≠ [] → exchange.file = none → exchange.stale = true

/-- How far the poller is with an acceptance of the attempt. -/
inductive Poised (config : AgentConfig) (key : String × ℕ) (exchange : Exchange)
    (program : AgentProgram Unit) : Prop where
  | calm (every : program.Every Calm fun _ => True)
  | opening (warned : exchange.Warned)
      (opens : program.Until Calm (fun operation => operation = .readSpool) (AfterRead config))
  | full (stale : exchange.stale = true)
      (every : program.EveryGiven (Full config) Calm fun _ => True)
  | first (unlaunched : exchange.launched = []) (writes : WritesFirst program)
  | written (unlaunched : exchange.launched = [])
      (kept : exchange.file = none → exchange.db.HasLeft key)
      (once : program.AtMostOnce fun operation => ¬Calm operation)

/-- The changes between two answers that launch nothing. -/
structure Drift (key : String × ℕ) (before after : Exchange) : Prop where
  launched : after.launched = before.launched
  response : after.response = none ∨ after.response = before.response
  stale : before.stale = true → after.stale = true
  left : before.db.HasLeft key → after.db.HasLeft key
  file : after.file = none → before.file = none ∨
    after.db.HasLeft key ∧ (after.launched ≠ [] → after.stale = true)

/-- What is known about the launches of the attempt. -/
structure Launches (config : AgentConfig) (key : String × ℕ) (pool : ExchangePool) : Prop where
  others : ∀ task, task ≠ .poller → (pool.tasks task).Every Calm fun _ => True
  poised : Poised config key pool.state (pool.tasks .poller)
  resting : pool.state.response ≠ none → pool.tasks .poller = .pure ()
  warned : ∀ mirror specHash spec,
    pool.state.response = some (.startAttempt key.1 key.2 mirror specHash spec) →
      pool.state.Warned
  backed : pool.state.launched ≠ [] → pool.state.file = none → pool.state.db.HasLeft key
  once : pool.state.launched.length ≤ 1

section Launches

variable {vendor : Vendor} {rfc3339 : String → Option ℤ} {config : AgentConfig}
  {key : String × ℕ} {pool : ExchangePool} {before after : Exchange} {task : AttemptTask}
  {condition : Exchange → Prop}

theorem Drift.warned (drift : Drift key before after) (warned : before.Warned) : after.Warned := by
  intro launched missing
  rcases drift.file missing with gone | ⟨_, stale⟩
  · exact drift.stale (warned (drift.launched ▸ launched) gone)
  · exact stale launched

theorem Drift.backed (drift : Drift key before after)
    (kept : before.file = none → before.db.HasLeft key) (missing : after.file = none) :
    after.db.HasLeft key := by
  rcases drift.file missing with gone | ⟨left, _⟩
  · exact drift.left (kept gone)
  · exact left

theorem Poised.drift {program : AgentProgram Unit} (poised : Poised config key before program)
    (drift : Drift key before after) : Poised config key after program := by
  cases poised with
  | calm every => exact .calm every
  | opening warned opens => exact .opening (drift.warned warned) opens
  | full stale every => exact .full (drift.stale stale) every
  | first unlaunched writes => exact .first (drift.launched.trans unlaunched) writes
  | written unlaunched kept once =>
      exact .written (drift.launched.trans unlaunched) (drift.backed kept) once

/-- An operation that spawns no task; a file is retired after an event was applied. -/
theorem Effect.drift {operation : AgentOp} {reply : operation.Reply}
    (effect : Effect vendor rfc3339 key before operation reply after) (calm : Calm operation)
    (retires : operation = .retireSpool → before.db.HasLeft key) : Drift key before after := by
  have left := fun earlier : before.db.HasLeft key => earlier.persist effect.persists
  cases effect with
  | aside | failed | executed | posted => exact ⟨rfl, .inr rfl, id, left, .inl⟩
  | written => exact ⟨rfl, .inr rfl, id, left, by simp⟩
  | retired =>
      refine ⟨rfl, .inr rfl, fun stale => by simp [retire, stale], left, fun _ => .inr ⟨?_, ?_⟩⟩
      · exact retires rfl
      · exact fun launched => by simpa [retire] using .inr launched
  | spawned => exact absurd rfl (calm _)

/-- The next operation of the poller. -/
theorem Poised.perform {operation : AgentOp} {next : operation.Reply → AgentProgram Unit}
    {reply : operation.Reply} (poised : Poised config key before (.perform operation next))
    (performed : Step vendor rfc3339 key
      (fun exchange => exchange.stale = true → config.maxConcurrentRuns ≤ exchange.count) task
      before operation reply after)
    (retires : operation = .retireSpool → before.db.HasLeft key) :
    Poised config key after (next reply) ∧
      (Drift key before after ∨ before.launched = [] ∧
        (before.file = none → before.db.HasLeft key) ∧
          ∃ record, after = { before with launched := [record] }) := by
  have drift := fun calm => (Step.effect performed).drift calm retires
  cases poised with
  | calm every => exact ⟨.calm (every.2 reply), .inl (drift every.1)⟩
  | opening warned opens =>
      by_cases reads : operation = .readSpool
      · subst reads
        have unchanged := drift (by simp [Calm])
        have follows := opens.1 rfl reply
        rcases performed with ⟨rfl, found⟩
        rcases reply with message | record
        · have missing : after.file = none :=
            Option.eq_none_iff_forall_ne_some.mpr fun record stored => by
              cases (found record).mpr stored
          by_cases unlaunched : after.launched = []
          · exact ⟨.first unlaunched follows.2, .inl unchanged⟩
          · exact ⟨.full (warned unlaunched missing) follows.1, .inl unchanged⟩
        · exact ⟨.calm follows, .inl unchanged⟩
      · have steps := opens.2 reads
        exact ⟨.opening ((drift steps.1).warned warned) (steps.2 reply), .inl (drift steps.1)⟩
  | full stale every =>
      have told : Full config operation reply := by
        cases operation with
        | activeLength =>
            rcases performed with ⟨rfl, rfl, allowed⟩
            exact allowed stale
        | _ => trivial
      exact ⟨.full ((drift every.1).stale stale) (every.2 reply told), .inl (drift every.1)⟩
  | first unlaunched writes =>
      by_cases written : ∃ record, operation = .writeSpool record
      · have follows := writes.1 written reply
        rcases written with ⟨record, rfl⟩
        have moves := drift (by simp [Calm])
        rcases reply with message | ⟨⟩
        · exact ⟨.calm follows, .inl moves⟩
        · refine ⟨.written (moves.launched.trans unlaunched) ?_ follows, .inl moves⟩
          rcases performed with rfl | ⟨⟨_, failed⟩, _⟩
          · simp
          · cases failed
      · have steps := writes.2 written
        have moves := drift steps.1
        exact ⟨.first (moves.launched.trans unlaunched) (steps.2 reply), .inl moves⟩
  | written unlaunched kept once =>
      by_cases calm : Calm operation
      · have moves := drift calm
        exact ⟨.written (moves.launched.trans unlaunched) (moves.backed kept) (once.2 reply),
          .inl moves⟩
      · have follows := once.1 calm reply
        simp only [Calm, not_forall, not_not] at calm
        rcases calm with ⟨record, rfl⟩
        cases performed
        refine ⟨.calm (by simpa only [not_not] using follows), .inr ⟨unlaunched, kept, record, ?_⟩⟩
        simp [unlaunched]

/-- Nothing is launched. -/
theorem Launches.drift (launches : Launches config key pool) (drift : Drift key pool.state after)
    {tasks : AttemptTask → AgentProgram Unit} (poised : Poised config key after (tasks .poller))
    (resting : after.response ≠ none → tasks .poller = .pure ())
    (others : ∀ task, task ≠ .poller → (tasks task).Every Calm fun _ => True) :
    Launches config key ⟨tasks, after⟩ where
  others := others
  poised := poised
  resting := resting
  warned mirror specHash spec answered := by
    rcases drift.response with none | same
    · simp [none] at answered
    · exact drift.warned (launches.warned mirror specHash spec (same.symm.trans answered))
  backed launched := drift.backed (launches.backed (drift.launched ▸ launched))
  once := drift.launched ▸ launches.once

theorem Launches.still (launches : Launches config key pool) (drift : Drift key pool.state after)
    (answered : after.response ≠ none) : pool.tasks .poller = .pure () := by
  rcases drift.response with none | same
  · exact absurd none answered
  · exact launches.resting (same ▸ answered)

/-- No task does anything. -/
theorem Launches.rest (launches : Launches config key pool) (drift : Drift key pool.state after) :
    Launches config key ⟨pool.tasks, after⟩ :=
  launches.drift drift (launches.poised.drift drift) (launches.still drift) launches.others

/-- Another task than the poller goes on. -/
theorem Launches.elsewhere (launches : Launches config key pool)
    (drift : Drift key pool.state after) (other : task ≠ .poller) {program : AgentProgram Unit}
    (every : program.Every Calm fun _ => True) :
    Launches config key ⟨Function.update pool.tasks task program, after⟩ := by
  have poller : Function.update pool.tasks task program .poller = pool.tasks .poller :=
    Function.update_of_ne (Ne.symm other) _ _
  refine launches.drift drift ?_ ?_ fun member elsewhere => ?_
  · simpa only [poller] using launches.poised.drift drift
  · simpa only [poller] using launches.still drift
  · by_cases same : member = task
    · subst same
      simpa using every
    · simpa only [Function.update_of_ne same] using launches.others member elsewhere

/-- The poller goes on, and no answer is under way. -/
theorem Launches.polls (launches : Launches config key pool) (drift : Drift key pool.state after)
    {program : AgentProgram Unit} (poised : Poised config key after program)
    (none : after.response = none) :
    Launches config key ⟨Function.update pool.tasks .poller program, after⟩ := by
  refine launches.drift drift (by simpa using poised) (absurd none) fun other elsewhere => ?_
  simpa only [Function.update_of_ne elsewhere] using launches.others other elsewhere

/-- The next operation of a task. -/
theorem Launches.perform (launches : Launches config key pool) {operation : AgentOp}
    {next : operation.Reply → AgentProgram Unit} {reply : operation.Reply}
    (running : pool.tasks task = .perform operation next)
    (performed : Step vendor rfc3339 key
      (fun exchange => exchange.stale = true → config.maxConcurrentRuns ≤ exchange.count) task
      pool.state operation reply after)
    (retires : operation = .retireSpool → pool.state.db.HasLeft key) :
    Launches config key ⟨Function.update pool.tasks task (next reply), after⟩ := by
  by_cases polls : task = .poller
  · subst polls
    have busy : pool.state.response = none := by
      by_contra answered
      have idle := launches.resting answered
      rw [running] at idle
      cases idle
    have poised := launches.poised
    rw [running] at poised
    rcases poised.perform performed retires with ⟨after, drift | ⟨unlaunched, kept, record, rfl⟩⟩
    · refine launches.polls drift after ?_
      rcases drift.response with none | same
      · exact none
      · exact same.trans busy
    · refine ⟨fun other elsewhere => ?_, by simpa using after, absurd busy,
        fun _ _ _ answered => by simp [busy] at answered, fun _ => kept, by simp⟩
      simpa only [Function.update_of_ne elsewhere] using launches.others other elsewhere
  · have every := launches.others task polls
    rw [running] at every
    exact launches.elsewhere ((Step.effect performed).drift every.1 retires) polls (every.2 reply)

/-- The store goes on. -/
theorem Drift.of_persists {db : Database} (persists : before.db.Persists db) :
    Drift key before { before with db } :=
  ⟨rfl, .inr rfl, id, fun left => left.persist persists, .inl⟩

/-- The answer is used up. -/
theorem Drift.answered : Drift key before { before with response := none } :=
  ⟨rfl, .inl rfl, id, id, .inl⟩

/-- The invariant of the launches. -/
theorem Runs.launches
    (ran : Runs vendor rfc3339 config key
      (fun exchange => exchange.stale = true → config.maxConcurrentRuns ≤ exchange.count) pool) :
    Launches config key pool := by
  induction ran with
  | start =>
      exact ⟨fun _ _ => trivial, .calm trivial, by simp [init], by simp [init], by simp [init],
        by simp [init]⟩
  | move ran moved launches =>
      cases moved with
      | @perform task operation next reply after running performed =>
          refine launches.perform running performed ?_
          rintro rfl
          rcases ran.settled with left | quiet
          · exact left
          · have every := quiet.tasks task
            rw [running] at every
            exact every.1.elim
      | start _ started =>
          rcases started with ⟨rfl, rfl⟩
          exact launches.elsewhere ⟨rfl, .inr rfl, id, id, .inl⟩ (by simp)
            serves_calm.reconcileAll.every
  | transact _ operation _ launches =>
      exact launches.rest (.of_persists (operation.persists _))
  | deliver _ _ delivers launches => exact launches.rest (.of_persists delivers.persists)
  | @answer pool node newRunId agent now action db _ idle polled launches =>
      have polls := Database.pollAction_eq_ok polled
      have left := fun earlier : pool.state.db.HasLeft key => earlier.persist polls.persists
      -- an attempt that was launched and has no file any more is not handed out
      refine ⟨launches.others, .calm (by simp [idle, Program.Every]), fun _ => idle, ?_, ?_,
        launches.once⟩
      · rintro mirror specHash spec rfl launched missing
        exact ((launches.backed launched missing).not_handed_out polls).elim
      · exact fun launched missing => left (launches.backed launched missing)
  | lose _ launches => exact launches.rest .answered
  | accept _ _ answered _ launches =>
      refine launches.polls .answered (.opening ?_ acceptWithIdentity_opens) rfl
      exact launches.warned _ _ _ answered
  | cancel _ _ _ launches => exact launches.polls .answered (.calm serves_calm.cancel.every) rfl
  | elsewhere _ _ launches => exact launches.rest ⟨rfl, .inr rfl, id, id, .inl⟩
  | @launch pool record _ _ launches =>
      have drift : Drift key pool.state { pool.state with begun := pool.state.begun + 1 } :=
        ⟨rfl, .inr rfl, id, id, .inl⟩
      refine launches.elsewhere drift ?_ ?_
      · simp
      · exact (serves_calm.runAccepted (by simp [Calm]) trivial).every

end Launches

/-! ## One process -/

/-- The program spawns no process. -/
abbrev Processless (program : AgentProgram Unit) : Prop :=
  program.Every (fun operation => ¬operation.isProcess = true) fun _ => True

section Processes

variable {vendor : Vendor} {rfc3339 : String → Option ℤ} {config : AgentConfig}
  {key : String × ℕ} {pool : ExchangePool} {before after : Exchange} {task : AttemptTask}
  {condition : Exchange → Prop}

theorem Step.launched {operation : AgentOp} {reply : operation.Reply}
    (performed : Step vendor rfc3339 key condition task before operation reply after) :
    before.launched.length ≤ after.launched.length ∧ after.begun = before.begun := by
  cases Step.effect performed <;> simp [retire]

theorem Step.processes {operation : AgentOp} {reply : operation.Reply}
    (performed : Step vendor rfc3339 key condition task before operation reply after) :
    after.processes = before.processes ∨
      operation.isProcess = true ∧ after.processes = before.processes + 1 := by
  cases Step.effect performed with
  | executed => exact .inr ⟨rfl, rfl⟩
  | _ => exact .inl rfl

/-- What the first executor may do next when `processes` were spawned and `begun` tasks began. -/
def Spends (processes begun : ℕ) (program : AgentProgram Unit) : Prop :=
  processes = 0 ∧ program.AtMostOnce (fun operation => operation.isProcess = true) ∨
    processes = 1 ∧ Processless program ∧ 0 < begun

/-- What is known about the processes of the attempt. -/
structure Processes (pool : ExchangePool) : Prop where
  begun : pool.state.begun ≤ pool.state.launched.length
  waiting : ∀ index, pool.state.begun ≤ index → pool.tasks (.executor index) = .pure ()
  others : ∀ task, task ≠ .executor 0 → Processless (pool.tasks task)
  first : Spends pool.state.processes pool.state.begun (pool.tasks (.executor 0))

theorem Spends.calm {processes begun : ℕ} {program next : AgentProgram Unit}
    (spends : Spends processes begun program) (every : Processless next) :
    Spends processes begun next := by
  rcases spends with ⟨none, _⟩ | ⟨one, _, started⟩
  · exact .inl ⟨none, every.atMostOnce⟩
  · exact .inr ⟨one, every, started⟩

/-- A task goes on or starts. -/
theorem Processes.update (known : Processes pool) {program : AgentProgram Unit}
    (launched : pool.state.launched.length ≤ after.launched.length)
    (begun : after.begun = pool.state.begun)
    (running : ∀ index, task = .executor index → index < pool.state.begun)
    (first : task = .executor 0 → Spends after.processes after.begun program)
    (other : task ≠ .executor 0 →
      Processless program ∧ after.processes = pool.state.processes) :
    Processes ⟨Function.update pool.tasks task program, after⟩ where
  begun := begun ▸ known.begun.trans launched
  waiting index waits := by
    have elsewhere : AttemptTask.executor index ≠ task := by
      rintro rfl
      have bound := running index rfl
      simp only [begun] at waits
      omega
    simpa only [Function.update_of_ne elsewhere] using known.waiting index (begun ▸ waits)
  others member elsewhere := by
    by_cases same : member = task
    · subst same
      simpa using (other elsewhere).1
    · simpa only [Function.update_of_ne same] using known.others member elsewhere
  first := by
    by_cases same : AttemptTask.executor 0 = task
    · subst same
      simpa using first rfl
    · simpa only [Function.update_of_ne same, (other (Ne.symm same)).2, begun] using known.first

/-- Another task than an executor starts. -/
theorem Processes.start (known : Processes pool) {program : AgentProgram Unit}
    (every : Processless program) (launched : after.launched = pool.state.launched)
    (begun : after.begun = pool.state.begun) (processes : after.processes = pool.state.processes)
    (other : ∀ index, task ≠ .executor index) :
    Processes ⟨Function.update pool.tasks task program, after⟩ :=
  known.update (launched ▸ le_rfl) begun (fun index same => absurd same (other index))
    (fun same => absurd same (other 0)) fun _ => ⟨every, processes⟩

theorem Processes.running (known : Processes pool) {operation : AgentOp}
    {next : operation.Reply → AgentProgram Unit}
    (running : pool.tasks task = .perform operation next) (index : ℕ)
    (executor : task = .executor index) : index < pool.state.begun := by
  by_contra waits
  have idle := known.waiting index (by omega)
  rw [← executor, running] at idle
  cases idle

/-- The next operation of a task. -/
theorem Processes.perform (known : Processes pool) {operation : AgentOp}
    {next : operation.Reply → AgentProgram Unit} {reply : operation.Reply}
    (running : pool.tasks task = .perform operation next)
    (performed : Step vendor rfc3339 key condition task pool.state operation reply after) :
    Processes ⟨Function.update pool.tasks task (next reply), after⟩ := by
  rcases performed.launched with ⟨launched, begun⟩
  refine known.update launched begun (known.running running) ?_ fun other => ?_
  · rintro rfl
    have started := known.running running 0 rfl
    have first := known.first
    rw [running] at first
    by_cases spawns : operation.isProcess = true
    · rcases first with ⟨none, once⟩ | ⟨_, every, _⟩
      · have rest : Processless (next reply) := once.1 spawns reply
        rcases performed.processes with same | ⟨_, more⟩
        · exact .inl ⟨same.trans none, rest.atMostOnce⟩
        · exact .inr ⟨by omega, rest, by omega⟩
      · exact absurd spawns every.1
    · have same : after.processes = pool.state.processes := by
        rcases performed.processes with same | ⟨process, _⟩
        · exact same
        · exact absurd process spawns
      rcases first with ⟨none, once⟩ | ⟨one, every, _⟩
      · exact .inl ⟨same.trans none, once.2 reply⟩
      · exact .inr ⟨same.trans one, every.2 reply, by omega⟩
  · have every := known.others _ other
    rw [running] at every
    refine ⟨every.2 reply, ?_⟩
    rcases performed.processes with same | ⟨process, _⟩
    · exact same
    · exact absurd process every.1

/-- The invariant of the processes. -/
theorem Runs.processes
    (ran : Runs vendor rfc3339 config key
      (fun exchange => exchange.stale = true → config.maxConcurrentRuns ≤ exchange.count) pool) :
    Processes pool := by
  induction ran with
  | start => exact ⟨le_rfl, fun _ _ => rfl, fun _ _ => trivial, .inl ⟨rfl, trivial⟩⟩
  | move _ moved known =>
      cases moved with
      | perform running performed => exact known.perform running performed
      | start _ started =>
          rcases started with ⟨rfl, rfl⟩
          exact known.start serves_processless.reconcileAll.every rfl rfl rfl (by simp)
  | transact _ _ _ known | deliver _ _ _ known | answer _ _ _ known | lose _ known
  | elsewhere _ _ known => exact { known with }
  | accept _ _ _ _ known =>
      refine known.start (Program.EveryGiven.every ?_) rfl rfl rfl (by simp)
      exact serves_processless.acceptWithIdentity (fun _ => trivial) (by simp [AgentOp.isProcess])
  | cancel _ _ _ known =>
      exact known.start serves_processless.cancel.every rfl rfl rfl (by simp)
  | @launch pool record ran spawned known =>
      -- there is one launch, so this is the first executor
      have only := ran.launches.once
      have bound : pool.state.begun < pool.state.launched.length :=
        (List.getElem?_eq_some_iff.mp spawned).1
      have unbegun : pool.state.begun = 0 := by omega
      have first := known.first
      simp only [unbegun]
      refine ⟨by simp only; omega, fun index waits => ?_, fun task other => ?_, ?_⟩
      · have later : AttemptTask.executor index ≠ .executor 0 := by
          rintro ⟨⟩
          simp at waits
        simpa only [Function.update_of_ne later] using known.waiting index (by omega)
      · simpa only [Function.update_of_ne other] using known.others task other
      · rcases first with ⟨none, _⟩ | ⟨_, _, started⟩
        · exact .inl ⟨none, by simpa using Service.runAccepted_atMostOnce config record⟩
        · omega

end Processes

/-! ## Carrying out a course of events -/

section Answer

variable (vendor : Vendor) (rfc3339 : String → Option ℤ) (key : String × ℕ) (now : ℤ)
  (replies : (operation : AgentOp) → operation.Reply)

/-- The server applies an event as it arrives. -/
def post (exchange : Exchange) (request : EventRequest) : Except String Bool × Database :=
  match request.attemptEvent rfc3339 with
  | .error _ => (.ok false, exchange.db)
  | .ok event =>
      match exchange.db.applyEvent key.1 key.2 event now (decideTerminal vendor) with
      | .error _ => (.ok false, exchange.db)
      | .ok (_, after) => (.ok true, after)

/-- One possible course of events, in which a lock that is held blocks the task. -/
def answer (met : Exchange → Bool) (task : AttemptTask) (before : Exchange) :
    (operation : AgentOp) → Option (operation.Reply × Exchange)
  | .readSpool => some (before.file.elim (.error "missing") .ok, before)
  | .spoolExists => some (before.file.isSome, before)
  | .writeSpool record => some (.ok (), { before with file := some record })
  | .retireSpool => some (.ok (), before.retire)
  | .postEvent request =>
      some ((before.post vendor rfc3339 key now request).1,
        { before with
          db := (before.post vendor rfc3339 key now request).2
          posted := request :: before.posted })
  | .activeContains => some (before.active, before)
  | .activeLength => if met before then some (before.count, before) else none
  | .activeInsert => some ((), { before with active := true })
  | .activeRemove => some ((), { before with active := false })
  | .acquire lock _ =>
      if before.locks lock = none then
        some ((), { before with locks := Function.update before.locks lock (some task) })
      else none
  | .release lock => some ((), { before with locks := Function.update before.locks lock none })
  | .spawnTask record => some ((), { before with launched := before.launched ++ [record] })
  | .spawnProcess _ => some (.ok (), { before with processes := before.processes + 1 })
  | operation => some (replies operation, before)

variable {vendor rfc3339 key now replies}

theorem delivers_post (before : Exchange) (request : EventRequest) :
    Delivers vendor rfc3339 key before.db request (before.post vendor rfc3339 key now request).1
      (before.post vendor rfc3339 key now request).2 := by
  unfold post
  split
  · exact .refused
  next event read =>
    split
    · exact .refused
    next result after applied => exact .applied read applied

theorem step_answer {condition : Exchange → Prop} {met : Exchange → Bool}
    (meets : ∀ exchange, met exchange = true → condition exchange) (task : AttemptTask)
    (before : Exchange) (operation : AgentOp) (reply : operation.Reply) (after : Exchange)
    (answered : before.answer vendor rfc3339 key now replies met task operation =
      some (reply, after)) :
    Step vendor rfc3339 key condition task before operation reply after := by
  cases operation with
  | readSpool =>
      cases answered
      refine ⟨rfl, fun record => ?_⟩
      cases before.file <;> constructor <;> intro same <;> cases same <;> rfl
  | spoolExists | activeContains =>
      cases answered
      exact ⟨rfl, rfl⟩
  | writeSpool record =>
      cases answered
      exact .inl rfl
  | retireSpool =>
      cases answered
      exact .inl rfl
  | postEvent request =>
      cases answered
      exact ⟨_, delivers_post before request, rfl⟩
  | activeLength =>
      rw [answer, Option.ite_none_right_eq_some] at answered
      rcases answered with ⟨isMet, made⟩
      cases made
      exact ⟨rfl, rfl, meets _ isMet⟩
  | acquire lock copy =>
      rw [answer, Option.ite_none_right_eq_some] at answered
      rcases answered with ⟨free, made⟩
      cases made
      exact ⟨free, rfl⟩
  | spawnProcess spec =>
      cases answered
      exact .inl ⟨rfl, rfl⟩
  | _ =>
      cases answered
      rfl

end Answer

end Exchange

/-- One step of a course of events. -/
inductive ExchangeCommand (vendor : Vendor) where
  | run (task : AttemptTask) (operations : ℕ)
  | transact (operation : StoreOp vendor)
  | answer (node newRunId : String) (agent : AgentProfile) (now : ℤ)
  | accept
  | launch

namespace Sample

/-- The program of an answer, if it starts the attempt. -/
def acceptance (key : String × ℕ) : Option PollAction → Option (AgentProgram Unit)
  | some (.startAttempt runId attempt mirror specHash spec) =>
      if (runId, attempt) = key then
        some (Service.acceptWithIdentity roomyConfig key.1 key.2 specHash (some ⟨mirror⟩) spec)
      else none
  | some (.cancelAttempt _ _ _) | none => none

theorem acceptance_eq_some {key : String × ℕ} {response : Option PollAction}
    {program : AgentProgram Unit} (accepted : acceptance key response = some program) :
    ∃ mirror specHash spec, response = some (.startAttempt key.1 key.2 mirror specHash spec) ∧
      program = Service.acceptWithIdentity roomyConfig key.1 key.2 specHash (some ⟨mirror⟩)
        spec := by
  rcases response with _ | ⟨runId, attempt, mirror, specHash, spec⟩ | ⟨_, _, _⟩
  · cases accepted
  · rw [acceptance, Option.ite_none_right_eq_some] at accepted
    rcases accepted with ⟨rfl, made⟩
    cases made
    exact ⟨mirror, specHash, spec, rfl, rfl⟩
  · cases accepted

/-- One step, unless it is not possible. -/
def exchange (key : String × ℕ) (met : Exchange → Bool) (pool : ExchangePool) :
    ExchangeCommand Sample.vendor → ExchangePool
  | .run task operations =>
      (Pool.runTask (Exchange.answer Sample.vendor (fun _ => some 4000) key 4000 smoothly met) task
        operations pool).getD pool
  | .transact operation =>
      match operation with
      | .applyEvent _ _ _ _ => pool
      | operation => ⟨pool.tasks, { pool.state with db := operation.run pool.state.db }⟩
  | .answer node newRunId agent now =>
      if (pool.tasks .poller).isDone then
        match pool.state.db.pollAction node now newRunId
            (compileDispatch Sample.vendor node agent) with
        | .error _ => pool
        | .ok (action, db) =>
            ⟨pool.tasks, { pool.state with db, response := action, stale := false }⟩
      else pool
  | .accept =>
      if (pool.tasks .poller).isDone then
        match acceptance key pool.state.response with
        | none => pool
        | some program =>
            ⟨Function.update pool.tasks .poller program, { pool.state with response := none }⟩
      else pool
  | .launch =>
      match pool.state.launched[pool.state.begun]? with
      | none => pool
      | some record =>
          ⟨Function.update pool.tasks (.executor pool.state.begun)
              (Service.runAccepted roomyConfig record),
            { pool.state with begun := pool.state.begun + 1 }⟩

/-- The attempt of the first run. -/
def firstKey : String × ℕ := ("run-1", 1)

/-- A whole course of events. -/
def exchanged (met : Exchange → Bool) (commands : List (ExchangeCommand Sample.vendor)) :
    ExchangePool :=
  commands.foldl (exchange firstKey met) ⟨fun _ => .pure (), .init⟩

section Runs

variable {key : String × ℕ} {condition : Exchange → Prop} {met : Exchange → Bool}
  {pool : ExchangePool}

theorem runs_moves {after : ExchangePool}
    (ran : Exchange.Runs Sample.vendor (fun _ => some 4000) roomyConfig key condition pool)
    (moves : Relation.ReflTransGen
      (Pool.Move (Exchange.Step Sample.vendor (fun _ => some 4000) key condition)
        fun task program => task = .reconciler ∧ program = Service.reconcileAll roomyConfig)
      pool after) :
    Exchange.Runs Sample.vendor (fun _ => some 4000) roomyConfig key condition after := by
  induction moves with
  | refl => exact ran
  | tail _ moved ih => exact ih.move moved

theorem runs_exchange (meets : ∀ state, met state = true → condition state)
    (ran : Exchange.Runs Sample.vendor (fun _ => some 4000) roomyConfig key condition pool)
    (command : ExchangeCommand Sample.vendor) :
    Exchange.Runs Sample.vendor (fun _ => some 4000) roomyConfig key condition
      (exchange key met pool command) := by
  have idle : (pool.tasks .poller).isDone = true → pool.tasks .poller = .pure () := by
    intro done
    cases running : pool.tasks .poller with
    | pure value => rfl
    | perform operation next => simp [running, Program.isDone] at done
  cases command with
  | run task operations =>
      rw [exchange]
      cases following : Pool.runTask (Exchange.answer Sample.vendor (fun _ => some 4000) key 4000
        smoothly met) task operations pool with
      | none => exact ran
      | some after =>
          rw [Option.getD_some]
          exact runs_moves ran (Pool.move_runTask (Exchange.step_answer meets) following)
  | transact operation =>
      cases operation with
      | applyEvent => exact ran
      | _ => exact ran.transact _ (by simp)
  | answer node newRunId agent now =>
      rw [exchange]
      split
      next done =>
        split
        · exact ran
        next action db polled => exact ran.answer (idle done) polled
      · exact ran
  | accept =>
      rw [exchange]
      split
      next done =>
        split
        · exact ran
        next program accepted =>
          rcases acceptance_eq_some accepted with ⟨mirror, specHash, spec, answered, rfl⟩
          exact ran.accept (idle done) answered (.inr rfl)
      · exact ran
  | launch =>
      rw [exchange]
      split
      · exact ran
      next record spawned => exact ran.launch spawned

theorem runs_exchanged (meets : ∀ state, met state = true → condition state)
    (commands : List (ExchangeCommand Sample.vendor)) :
    Exchange.Runs Sample.vendor (fun _ => some 4000) roomyConfig firstKey condition
      (exchanged met commands) := by
  have begins : Exchange.Runs Sample.vendor (fun _ => some 4000) roomyConfig firstKey condition
      ⟨fun _ => .pure (), .init⟩ := .start
  unfold exchanged
  generalize (⟨fun _ => .pure (), .init⟩ : ExchangePool) = pool at begins ⊢
  induction commands generalizing pool with
  | nil => exact begins
  | cons command rest ih => exact ih _ (runs_exchange meets begins command)

end Runs

end Sample

/--
If an agent that is given an answer from before the file of the started attempt was
retired has no room for it, then the execution of the attempt is started at most once.
-/
theorem attempt_is_executed_once {vendor : Vendor} {rfc3339 : String → Option ℤ}
    {config : AgentConfig} {key : String × ℕ} {pool : ExchangePool}
    (ran : Exchange.Runs vendor rfc3339 config key
      (fun exchange => exchange.stale = true → config.maxConcurrentRuns ≤ exchange.count) pool) :
    pool.state.launched.length ≤ 1 ∧ pool.state.processes ≤ 1 := by
  refine ⟨ran.launches.once, ?_⟩
  rcases ran.processes.first with ⟨none, _⟩ | ⟨one, _⟩ <;> omega

namespace Sample

/-- An attempt is handed out and executed. -/
def handedOut : List (ExchangeCommand Sample.vendor) :=
  [.transact (.apply (alphaBundle nodeA) 0 1000),
    .transact (.createManualRun "alpha" "request-1" 2000 "run-1"),
    .answer "node-a" "run-2" agent 3000,
    .accept,
    .run .poller 40,
    .launch]

/-- Before the first event arrives it is handed out again, and the answer comes late. -/
def handedOutAgain : List (ExchangeCommand Sample.vendor) :=
  handedOut ++
    [.answer "node-a" "run-2" agent 3100,
      .run (.executor 0) 200,
      .accept,
      .run .poller 40,
      .launch,
      .run (.executor 1) 60]

/-- The agent has no room when the answer is late. -/
def prompt (state : Exchange) : Bool := !state.stale

end Sample

theorem attempt_is_executed_once_handed_out :
    (Sample.exchanged Sample.prompt Sample.handedOutAgain).state.processes = 1 ∧
      (Sample.exchanged Sample.prompt Sample.handedOutAgain).state.launched.length ≤ 1 :=
  ⟨by decide +kernel, (attempt_is_executed_once (Sample.runs_exchanged (by
    intro state isPrompt stale
    simp [Sample.prompt, stale] at isPrompt) Sample.handedOutAgain)).1⟩

/-- With room for it the late answer starts the execution once more. -/
theorem late_answer_executes_again :
    ∃ pool, Exchange.Runs Sample.vendor (fun _ => some 4000) Sample.roomyConfig ("run-1", 1)
      (fun _ => True) pool ∧ pool.state.processes = 2 :=
  ⟨Sample.exchanged (fun _ => true) Sample.handedOutAgain,
    Sample.runs_exchanged (by simp) Sample.handedOutAgain, by decide +kernel⟩

end LzuMirror
