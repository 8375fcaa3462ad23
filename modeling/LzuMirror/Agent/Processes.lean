import LzuMirror.Agent.Evidence
import LzuMirror.Agent.Reporting
import LzuMirror.Lib.Processes
import LzuMirror.Lib.Protocol

/-!
# The processes of an attempt

`close_process_group`, `terminate_group` and `reap_group` with the processes that the
executions of one agent start, all below the agent, which is a subreaper. Executions,
signals, exits, forks and waits interleave, and a process may ignore a SIGTERM or leave
its group.

Neither is a directory moved for an attempt nor its result written before its process
group was closed, and then no member of the group runs any more, nor ever will. When
`reap_group` has ended before its deadline, the group does not exist.
-/

namespace LzuMirror

/-- Where `execute` is with its process; `exited` is `child_completed`. -/
inductive ExecutionStage where
  | idle
  -- the `select!`
  | waiting (child : ℕ)
  | terminating (child : ℕ) (exited : Bool)
  -- the pause after the SIGTERM
  | pausing (child : ℕ) (exited : Bool)
  | joining (child : ℕ)
  | reaping (child : ℕ)
  -- `gone` when there was no child left to wait for
  | closed (child : ℕ) (gone : Bool)
  deriving DecidableEq, Repr

namespace ExecutionStage

/-- The first process, whose number is the number of its group. -/
def child? : ExecutionStage → Option ℕ
  | .idle => none
  | .waiting child | .terminating child _ | .pausing child _ | .joining child | .reaping child
  | .closed child _ => some child

/-- The end of `terminate_group`. -/
def terminated (child : ℕ) (exited : Bool) : ExecutionStage :=
  if exited then .reaping child else .joining child

/-- `terminate_group` has ended. -/
def isStopped : ExecutionStage → Bool
  | .joining _ | .reaping _ | .closed _ _ => true
  | .idle | .waiting _ | .terminating _ _ | .pausing _ _ => false

/-- A child that `child.wait()` has not returned yet. -/
def awaited? : ExecutionStage → Option ℕ
  | .waiting child | .terminating child false | .pausing child false | .joining child => some child
  | .idle | .terminating _ true | .pausing _ true | .reaping _ | .closed _ _ => none

@[simp]
theorem child?_terminated (child : ℕ) (exited : Bool) :
    (terminated child exited).child? = some child := by
  cases exited <;> rfl

@[simp]
theorem isStopped_terminated (child : ℕ) (exited : Bool) :
    (terminated child exited).isStopped = true := by
  cases exited <;> rfl

theorem child?_of_awaited? {stage : ExecutionStage} {child : ℕ}
    (awaited : stage.awaited? = some child) : stage.child? = some child := by
  cases stage with
  | idle | reaping | closed => cases awaited
  | waiting | joining => exact awaited
  | terminating _ exited | pausing _ exited =>
      cases exited
      · exact awaited
      · cases awaited

end ExecutionStage

structure ProcessWorld where
  table : ProcessTable
  -- the groups that a member has left
  left : List ℕ
  stages : ℕ → ExecutionStage

namespace ProcessWorld

def init : ProcessWorld := ⟨.empty, [], fun _ => .idle⟩

def at_ (world : ProcessWorld) (task : ℕ) (stage : ExecutionStage) : ProcessWorld :=
  { world with stages := Function.update world.stages task stage }

/-- One step of `close_process_group`. -/
inductive Close (task : ℕ) (before : ProcessWorld) : ProcessWorld → Prop where
  | signal {child : ℕ} {exited : Bool} (stage : before.stages task = .terminating child exited)
      (found : before.table.hasGroup child = true) :
      Close task before (before.at_ task (.pausing child exited))
  | noGroup {child : ℕ} {exited : Bool} (stage : before.stages task = .terminating child exited)
      (found : before.table.hasGroup child = false) :
      Close task before (before.at_ task (.terminated child exited))
  | kill {child : ℕ} {exited : Bool} (stage : before.stages task = .pausing child exited) :
      Close task before
        { before.at_ task (.terminated child exited) with table := before.table.kill child }
  | join {child : ℕ} (stage : before.stages task = .joining child)
      (zombie : before.table.IsZombie 0 child) :
      Close task before
        { before.at_ task (.reaping child) with table := before.table.reap child zombie.only }
  | joinFails {child : ℕ} (stage : before.stages task = .joining child) :
      Close task before (before.at_ task (.reaping child))
  | reap {child pid : ℕ} (stage : before.stages task = .reaping child)
      (waited : before.table.waitGroup child = .reaped pid)
      (zombie : before.table.IsZombie 0 pid) :
      Close task before
        { before.at_ task (.reaping child) with table := before.table.reap pid zombie.only }
  | deadline {child : ℕ} (stage : before.stages task = .reaping child)
      (waited : before.table.waitGroup child = .stillAlive) :
      Close task before (before.at_ task (.closed child false))
  | noChild {child : ℕ} (stage : before.stages task = .reaping child)
      (waited : before.table.waitGroup child = .noChild) :
      Close task before (before.at_ task (.closed child true))

/-- What the operations of an execution do to the processes. -/
def Step (task : ℕ) : Program.Semantics AgentOp AgentOp.Reply ProcessWorld
  | before, .spawnProcess _, reply, after =>
      reply = .ok () ∧ before.stages task = .idle ∧
          after = { before.at_ task (.waiting before.table.next) with
            table := before.table.spawn } ∨
        (∃ error, reply = .error error) ∧ after = before
  | before, .awaitOutcome _, .process (.ok _), after =>
      ∃ child, before.stages task = .waiting child ∧ ∃ zombie : before.table.IsZombie 0 child,
        after = { before.at_ task (.terminating child true) with
          table := before.table.reap child zombie.only }
  | before, .awaitOutcome _, outcome, after =>
      ∃ child, before.stages task = .waiting child ∧
        after = before.at_ task (.terminating child outcome.isProcess)
  -- it returns when the steps of `Close` have come to their end
  | before, .closeProcessGroup _, _, after =>
      (∃ child gone, before.stages task = .closed child gone) ∧ after = before
  | before, _, _, after => after = before

end ProcessWorld

/-- The executions of an agent and their processes. -/
abbrev ExecutionPool := Pool ℕ AgentOp AgentOp.Reply ProcessWorld

inductive ExecutionPool.Runs (config : AgentConfig) : ExecutionPool → Prop where
  | start : Runs config ⟨fun _ => .pure (), .init⟩
  -- the task that `accept_with_identity` spawns
  | accept {pool : ExecutionPool} {task : ℕ} (ran : Runs config pool)
      (ended : pool.tasks task = .pure ()) (unused : pool.state.stages task = .idle)
      (record : SpoolRecord) :
      Runs config
        ⟨Function.update pool.tasks task (Service.runAccepted config record), pool.state⟩
  | perform {pool after : ExecutionPool} (ran : Runs config pool)
      (moved : Pool.Move ProcessWorld.Step (fun _ _ => False) pool after) : Runs config after
  | close {pool : ExecutionPool} {task : ℕ} {after : ProcessWorld} (ran : Runs config pool)
      (closed : ProcessWorld.Close task pool.state after) : Runs config ⟨pool.tasks, after⟩
  | processes {pool : ExecutionPool} {left : List ℕ} {table : ProcessTable}
      (ran : Runs config pool) (step : ProcessTable.Step pool.state.table left table) :
      Runs config ⟨pool.tasks, { pool.state with table, left := left ++ pool.state.left }⟩

namespace ProcessWorld

/-- The invariant of the processes. -/
structure Sound (world : ProcessWorld) : Prop where
  led : ∀ task child, (world.stages task).child? = some child → world.table.Led child
  apart : ∀ task other child, (world.stages task).child? = some child →
    (world.stages other).child? = some child → task = other
  kin : ∀ task child, (world.stages task).child? = some child → child ∉ world.left →
    world.table.Kin child
  silent : ∀ task child, (world.stages task).child? = some child →
    (world.stages task).isStopped = true → world.table.Silent child
  vacant : ∀ task child, world.stages task = .closed child true → child ∉ world.left →
    world.table.Vacant child
  awaited : ∀ task child, (world.stages task).awaited? = some child → world.table.HasChild child
  killed : ∀ process ∈ world.table, process.status = .killed →
    ∃ task, (world.stages task).child? = some process.group ∧
      (world.stages task).isStopped = true

section Sound

variable {world before after : ProcessWorld} {task child : ℕ} {stage : ExecutionStage}

theorem sound_init : init.Sound where
  led := by simp [init, ExecutionStage.child?]
  apart := by simp [init, ExecutionStage.child?]
  kin := by simp [init, ExecutionStage.child?]
  silent := by simp [init, ExecutionStage.child?]
  vacant := by simp [init]
  awaited := by simp [init, ExecutionStage.awaited?]
  killed := by simp [init, ProcessTable.mem_def, ProcessTable.empty]

/-- The processes by themselves. -/
theorem Sound.processes (sound : world.Sound) {left : List ℕ} {table : ProcessTable}
    (step : ProcessTable.Step world.table left table) :
    { world with table, left := left ++ world.left }.Sound where
  led task child own := (sound.led task child own).follows step.follows
  apart := sound.apart
  kin task child own stays := by
    simp only [List.mem_append, not_or] at stays
    exact (sound.kin task child own stays.2).step (sound.led task child own) step stays.1
  silent task child own stopped :=
    (sound.silent task child own stopped).follows (sound.led task child own) step.follows
  vacant task child closed stays := by
    simp only [List.mem_append, not_or] at stays
    have own : (world.stages task).child? = some child := by
      rw [closed]
      rfl
    exact (sound.vacant task child closed stays.2).follows (sound.led task child own) step.follows
  awaited task child waits := (sound.awaited task child waits).step step
  killed process member killed := by
    rcases step.killed member killed with ⟨old, listed, same, wasKilled⟩
    exact same ▸ sound.killed old listed wasKilled

/-- A task comes to another stage with its process, and the table may change for it. -/
theorem Sound.advance (sound : before.Sound) (own : (before.stages task).child? = some child)
    (same : stage.child? = some child)
    (still : (before.stages task).isStopped = true → stage.isStopped = true) {table : ProcessTable}
    (follows : before.table.Follows table)
    (kin : ∀ group, before.table.Kin group → table.Kin group)
    (children : ∀ pid, pid ≠ child → before.table.Led pid → before.table.HasChild pid →
      table.HasChild pid)
    (killed : ∀ process ∈ table, process.status = .killed →
      process.group = child ∧ stage.isStopped = true ∨
        ∃ old ∈ before.table, old.group = process.group ∧ old.status = .killed)
    (silent : stage.isStopped = true → table.Silent child)
    (vacant : stage = .closed child true → child ∉ before.left → table.Vacant child)
    (awaited : stage.awaited? = some child → table.HasChild child) :
    { before.at_ task stage with table }.Sound := by
  have stageOf : ∀ other, (before.at_ task stage).stages other =
      if other = task then stage else before.stages other := by
    intro other
    simp [at_, Function.update_apply]
  have childOf : ∀ other, ((before.at_ task stage).stages other).child? =
      (before.stages other).child? := by
    intro other
    rw [stageOf]
    split
    next itself => rw [itself, own, same]
    · rfl
  constructor
  · intro other pid known
    exact (sound.led other pid (childOf other ▸ known)).follows follows
  · intro other third pid known knownToo
    exact sound.apart other third pid (childOf other ▸ known) (childOf third ▸ knownToo)
  · intro other pid known stays
    exact kin pid (sound.kin other pid (childOf other ▸ known) stays)
  · intro other pid known stopped
    rw [childOf] at known
    rw [stageOf] at stopped
    split at stopped
    next itself =>
      rw [itself, own] at known
      exact Option.some.inj known ▸ silent stopped
    · exact (sound.silent other pid known stopped).follows (sound.led other pid known) follows
  · intro other pid closed stays
    rw [stageOf] at closed
    split at closed
    next itself =>
      have named : pid = child := by
        simpa [closed, ExecutionStage.child?] using same
      rw [named] at closed stays ⊢
      exact vacant closed stays
    · have known : (before.stages other).child? = some pid := by
        rw [closed]
        rfl
      exact (sound.vacant other pid closed stays).follows (sound.led other pid known) follows
  · intro other pid waits
    rw [stageOf] at waits
    split at waits
    next itself =>
      have named := ExecutionStage.child?_of_awaited? waits
      rw [same] at named
      rw [← Option.some.inj named] at waits ⊢
      exact awaited waits
    next foreign =>
      have known := ExecutionStage.child?_of_awaited? waits
      refine children pid (fun named => foreign ?_) (sound.led other pid known)
        (sound.awaited other pid waits)
      exact sound.apart other task child (named ▸ known) own
  · intro process member wasKilled
    rcases killed process member wasKilled with ⟨mine, stopped⟩ | ⟨old, listed, grouped, earlier⟩
    · refine ⟨task, (childOf task).trans (mine ▸ own), ?_⟩
      rw [stageOf, if_pos rfl]
      exact stopped
    · rcases sound.killed old listed earlier with ⟨other, known, stopped⟩
      refine ⟨other, (childOf other).trans (grouped ▸ known), ?_⟩
      rw [stageOf]
      split
      next itself => exact still (itself ▸ stopped)
      · exact stopped

/-- The table stays as it is. -/
theorem Sound.moveOn (sound : before.Sound) (own : (before.stages task).child? = some child)
    (same : stage.child? = some child)
    (still : (before.stages task).isStopped = true → stage.isStopped = true)
    (silent : stage.isStopped = true → before.table.Silent child)
    (vacant : stage = .closed child true → child ∉ before.left → before.table.Vacant child)
    (awaited : stage.awaited? = some child → before.table.HasChild child) :
    (before.at_ task stage).Sound :=
  sound.advance own same still (.refl _) (fun _ kin => kin) (fun _ _ _ hasChild => hasChild)
    (fun process member killed => .inr ⟨process, member, rfl, killed⟩) silent vacant awaited

/-- `close_process_group` keeps the invariant. -/
theorem Sound.close (sound : before.Sound) (closes : Close task before after) : after.Sound := by
  cases closes with
  | @signal child exited stage found =>
      have own : (before.stages task).child? = some child := congrArg _ stage
      refine sound.moveOn own rfl (by simp [stage, ExecutionStage.isStopped])
        (by simp [ExecutionStage.isStopped]) (by simp) ?_
      intro waits
      apply sound.awaited task
      rw [stage]
      cases exited
      · rfl
      · cases waits
  | @noGroup child exited stage found =>
      have vacant := ProcessTable.hasGroup_eq_false.mp found
      refine sound.moveOn (congrArg _ stage) (by simp) (by simp) ?_ (fun _ _ => vacant) ?_
      · intro _ process member grouped
        exact absurd grouped (vacant process member)
      · intro waits
        apply sound.awaited task
        rw [stage]
        cases exited
        · rfl
        · cases waits
  | @kill child exited stage =>
      refine sound.advance (congrArg _ stage) (by simp) (by simp)
        ProcessTable.follows_kill (fun _ kin => kin.kill child)
        (fun _ _ _ hasChild => hasChild.kill child) ?_ (fun _ => ProcessTable.silent_kill) ?_ ?_
      · intro process member killed
        rcases ProcessTable.killed_of_kill member killed with mine | earlier
        · exact .inl ⟨mine, by simp⟩
        · exact .inr earlier
      · intro impossible
        cases exited <;> cases impossible
      · intro waits
        refine (sound.awaited task child ?_).kill child
        rw [stage]
        cases exited
        · rfl
        · cases waits
  | @join child stage zombie =>
      have own : (before.stages task).child? = some child := congrArg _ stage
      have silent := sound.silent task child own (by rw [stage]; rfl)
      exact sound.advance own rfl (fun _ => rfl) ProcessTable.follows_reap
        (fun _ kin => kin.reap) (fun _ apart _ hasChild => hasChild.reap apart)
        (fun process member killed => .inr (ProcessTable.killed_of_reap member killed))
        (fun _ => silent.follows (sound.led task child own) ProcessTable.follows_reap)
        (by simp) (by simp [ExecutionStage.awaited?])
  | @joinFails child stage =>
      have own : (before.stages task).child? = some child := congrArg _ stage
      exact sound.moveOn own rfl (fun _ => rfl)
        (fun _ => sound.silent task child own (by rw [stage]; rfl)) (by simp)
        (by simp [ExecutionStage.awaited?])
  | @reap child pid stage waited zombie =>
      have own : (before.stages task).child? = some child := congrArg _ stage
      have silent := sound.silent task child own (by rw [stage]; rfl)
      rcases ProcessTable.waitGroup_eq_reaped waited with ⟨dead, listed, named, _, grouped, _⟩
      refine sound.advance own rfl (fun _ => rfl) ProcessTable.follows_reap
        (fun _ kin => kin.reap) ?_
        (fun process member killed => .inr (ProcessTable.killed_of_reap member killed))
        (fun _ => silent.follows (sound.led task child own) ProcessTable.follows_reap)
        (by simp) (by simp [ExecutionStage.awaited?])
      -- the first process of another group is not in this one
      intro other apart led hasChild
      refine hasChild.reap fun same => apart ?_
      exact (led.leader dead listed (named.trans same.symm)).symm.trans grouped
  | @deadline child stage waited =>
      have own : (before.stages task).child? = some child := congrArg _ stage
      exact sound.moveOn own rfl (fun _ => rfl)
        (fun _ => sound.silent task child own (by rw [stage]; rfl)) (by simp)
        (by simp [ExecutionStage.awaited?])
  | @noChild child stage waited =>
      have own : (before.stages task).child? = some child := congrArg _ stage
      refine sound.moveOn own rfl (fun _ => rfl)
        (fun _ => sound.silent task child own (by rw [stage]; rfl)) ?_
        (by simp [ExecutionStage.awaited?])
      intro _ stays
      exact (sound.kin task child own stays).vacant (ProcessTable.waitGroup_eq_noChild waited)

/-- A new execution starts its process. -/
theorem Sound.spawn (sound : before.Sound) (idle : before.stages task = .idle) :
    { before.at_ task (.waiting before.table.next) with table := before.table.spawn }.Sound := by
  have stageOf : ∀ other, (before.at_ task (.waiting before.table.next)).stages other =
      if other = task then .waiting before.table.next else before.stages other := by
    intro other
    simp [at_, Function.update_apply]
  -- the number of the process is new
  have fresh : ∀ other, (before.stages other).child? ≠ some before.table.next := by
    intro other known
    exact Nat.lt_irrefl _ (sound.led other _ known).known
  have cases_ : ∀ other pid,
      ((before.at_ task (.waiting before.table.next)).stages other).child? = some pid →
        other = task ∧ pid = before.table.next ∨
          other ≠ task ∧ (before.stages other).child? = some pid := by
    intro other pid known
    rw [stageOf] at known
    split at known
    next itself => exact .inl ⟨itself, (Option.some.inj known).symm⟩
    next foreign => exact .inr ⟨foreign, known⟩
  constructor
  · intro other pid known
    rcases cases_ other pid known with ⟨_, rfl⟩ | ⟨_, earlier⟩
    · exact ProcessTable.led_spawn
    · exact (sound.led other pid earlier).follows ProcessTable.follows_spawn
  · intro other third pid known knownToo
    rcases cases_ other pid known with ⟨rfl, rfl⟩ | ⟨_, earlier⟩
    · rcases cases_ third _ knownToo with ⟨rfl, _⟩ | ⟨_, earlier⟩
      · rfl
      · exact absurd earlier (fresh third)
    · rcases cases_ third pid knownToo with ⟨_, rfl⟩ | ⟨_, earlierToo⟩
      · exact absurd earlier (fresh other)
      · exact sound.apart other third pid earlier earlierToo
  · intro other pid known stays
    rcases cases_ other pid known with ⟨_, rfl⟩ | ⟨_, earlier⟩
    · exact ProcessTable.kin_spawn_self
    · exact (sound.kin other pid earlier stays).spawn (sound.led other pid earlier)
  · intro other pid known stopped
    rw [stageOf] at stopped
    rcases cases_ other pid known with ⟨rfl, _⟩ | ⟨foreign, earlier⟩
    · rw [if_pos rfl] at stopped
      cases stopped
    · rw [if_neg foreign] at stopped
      exact (sound.silent other pid earlier stopped).follows (sound.led other pid earlier)
        ProcessTable.follows_spawn
  · intro other pid closed stays
    rw [stageOf] at closed
    split at closed
    · cases closed
    · have earlier : (before.stages other).child? = some pid := congrArg _ closed
      exact (sound.vacant other pid closed stays).follows (sound.led other pid earlier)
        ProcessTable.follows_spawn
  · intro other pid waits
    rw [stageOf] at waits
    split at waits
    · cases waits
      exact ProcessTable.hasChild_spawn
    · exact (sound.awaited other pid waits).spawn
  · intro process member killed
    rcases ProcessTable.mem_spawn.mp member with rfl | listed
    · cases killed
    · rcases sound.killed process listed killed with ⟨other, known, stopped⟩
      have foreign : other ≠ task := by
        rintro rfl
        rw [idle] at known
        cases known
      refine ⟨other, ?_, ?_⟩
      · rw [stageOf, if_neg foreign]
        exact known
      · rw [stageOf, if_neg foreign]
        exact stopped

/-- An execution keeps the invariant. -/
theorem Sound.step (sound : before.Sound) {operation : AgentOp} {reply : operation.Reply}
    (performed : Step task before operation reply after) : after.Sound := by
  have ends : ∀ child exited, before.stages task = .waiting child → exited = false →
      (before.at_ task (.terminating child exited)).Sound := by
    rintro child _ stage rfl
    refine sound.moveOn (congrArg _ stage) rfl (by simp [stage, ExecutionStage.isStopped])
      (by simp [ExecutionStage.isStopped]) (by simp) fun _ => ?_
    exact sound.awaited task child (by rw [stage]; rfl)
  cases operation with
  | spawnProcess spec =>
      rcases performed with ⟨_, idle, rfl⟩ | ⟨_, rfl⟩
      · exact sound.spawn idle
      · exact sound
  | awaitOutcome timeout =>
      rcases reply with (error | status) | _ | _ | _
      · rcases performed with ⟨child, stage, rfl⟩
        exact sound.moveOn (congrArg _ stage) rfl (by simp [stage, ExecutionStage.isStopped])
          (by simp [ExecutionStage.isStopped]) (by simp)
          (by simp [ExecutionStage.awaited?, Outcome.isProcess])
      · rcases performed with ⟨child, stage, zombie, rfl⟩
        exact sound.advance (congrArg _ stage) rfl (by simp [stage, ExecutionStage.isStopped])
          ProcessTable.follows_reap (fun _ kin => kin.reap)
          (fun _ apart _ hasChild => hasChild.reap apart)
          (fun process member killed => .inr (ProcessTable.killed_of_reap member killed))
          (by simp [ExecutionStage.isStopped]) (by simp) (by simp [ExecutionStage.awaited?])
      all_goals
        rcases performed with ⟨child, stage, rfl⟩
        exact ends child _ stage rfl
  | closeProcessGroup exited =>
      rcases performed with ⟨_, rfl⟩
      exact sound
  | _ =>
      cases performed
      exact sound

end Sound

end ProcessWorld

/-! ## The order of the operations -/

namespace AgentOp

/-- A directory is moved. -/
def moves : AgentOp → Bool
  | .renameNoreplace _ _ | .exchangePaths _ _ => true
  | _ => false

/-- A result is written. -/
def concludes : AgentOp → Bool
  | .writeSpool record => record.state.isTerminal
  | _ => false

end AgentOp

/-- An execution before its process, with it and after it. -/
inductive ExecutionPhase where
  | unstarted
  | running
  | closed
  deriving DecidableEq, Repr

/-- What an execution may do in which order. -/
def executionProtocol : Protocol AgentOp AgentOp.Reply ExecutionPhase where
  permits
    | .unstarted, operation => operation.moves = false
    | .running, operation => operation.moves = false ∧ operation.concludes = false
    | .closed, _ => True
  after
    | .unstarted, .spawnProcess _, .ok _ => .running
    | .running, .closeProcessGroup _, _ => .closed
    | phase, _, _ => phase

namespace Agent

variable {α β : Type} {kept : SpoolRecord → Prop} {allowed : AgentOp → Prop}

/-- The computation obeys the protocol from a phase on. -/
def Obeys (phase : ExecutionPhase) (kept : SpoolRecord → Prop) (computation : Agent α)
    (post : ExecutionPhase → Prop) : Prop :=
  ∀ record, kept record →
    (computation.run record).Obeys executionProtocol (fun _ later => post later) phase

section Protocol

/-- What starts no process and closes none. -/
def isAside : AgentOp → Bool
  | .spawnProcess _ | .closeProcessGroup _ => false
  | _ => true

theorem after_of_isAside {phase : ExecutionPhase} {operation : AgentOp}
    (aside : isAside operation = true) (reply : operation.Reply) :
    executionProtocol.after phase operation reply = phase := by
  cases operation with
  | spawnProcess | closeProcessGroup => cases aside
  | _ => cases phase <;> rfl

/-- What an execution does before its process and after it. -/
def Prepares (operation : AgentOp) : Prop := isAside operation = true ∧ operation.moves = false

/-- What it does with its process. -/
def Supervises (operation : AgentOp) : Prop := Prepares operation ∧ operation.concludes = false

/-- After the process everything is permitted. -/
theorem obeys_closed (program : AgentProgram α) :
    program.Obeys executionProtocol (fun _ later => later ≠ .running) .closed := by
  refine (Program.obeys_final program fun operation => ⟨trivial, fun _ => ?_⟩).imp ?_
  · cases operation <;> rfl
  · rintro _ _ rfl
    simp

theorem obeys_of_prepares {computation : Agent α} {result : α → Prop}
    (keeps : Keeps kept Prepares computation result) :
    Obeys .unstarted kept computation fun later => later ≠ .running := by
  intro record holds
  have every := keeps record holds
  refine (every.obeys fun operation prepares => ?_).imp ?_
  · exact ⟨prepares.2, after_of_isAside prepares.1⟩
  · rintro _ _ ⟨_, rfl⟩
    simp

theorem obeys_bind {phase : ExecutionPhase} {post : ExecutionPhase → Prop} {computation : Agent α}
    {next : α → Agent β} {result : α → Prop} (keeps : Keeps kept allowed computation result)
    (stays : ∀ operation, allowed operation → executionProtocol.permits phase operation ∧
      ∀ reply, executionProtocol.after phase operation reply = phase)
    (failed : post phase) (rest : ∀ value, result value → Obeys phase kept (next value) post) :
    Obeys phase kept (computation >>= next) post := by
  intro record holds
  refine Program.obeys_bind.mpr (((keeps record holds).obeys stays).imp ?_)
  rintro ⟨message | value, after⟩ _ ⟨⟨keptCopy, results⟩, rfl⟩
  · exact failed
  · exact rest value (results value rfl) after keptCopy

theorem obeys_perform {phase : ExecutionPhase} {post : ExecutionPhase → Prop}
    {operation : AgentOp} {next : operation.Reply → Agent β}
    (permitted : executionProtocol.permits phase operation)
    (rest : ∀ reply, Obeys (executionProtocol.after phase operation reply) kept (next reply)
      post) : Obeys phase kept (perform operation >>= next) post :=
  fun record holds => ⟨permitted, fun reply => rest reply record holds⟩

end Protocol

/-! ### Before the process -/

section Preparing

variable (looks : ∀ operation, isLook operation = true → allowed operation)

include looks

theorem looks_identityIfExists {path : PathBuf} :
    Keeps kept allowed (identityIfExists path) fun _ => True :=
  @keeps_request _ _ _ (.identityIfExists path) rfl (looks _ rfl)

theorem looks_fsyncDirectory {path : PathBuf} :
    Keeps kept allowed (fsyncDirectory path) fun _ => True :=
  @keeps_request _ _ _ (.fsyncDirectory path) rfl (looks _ rfl)

theorem looks_createDir {path : PathBuf} : Keeps kept allowed (createDir path) fun _ => True :=
  @keeps_request _ _ _ (.createDir path) rfl (looks _ rfl)

theorem looks_createBasis {published basis : PathBuf} :
    Keeps kept allowed (createBasis published basis) fun _ => True := by
  refine keeps_bind (looks_identityIfExists looks) fun found _ => ?_
  cases found with
  | some _ =>
      refine keeps_bind (keeps_perform (looks _ rfl)) fun _ _ => ?_
      refine keeps_bind (keeps_ofExcept fun _ _ => trivial) fun _ _ => ?_
      exact keeps_withContext
        (@keeps_request _ _ _ (.symlink published basis) rfl (looks _ rfl))
  | none =>
      exact keeps_bind (keeps_withContext (looks_createDir looks)) fun _ _ =>
        looks_fsyncDirectory looks

theorem looks_prepareCandidateLocked {candidate basis published : PathBuf} :
    Keeps kept allowed (prepareCandidateLocked candidate basis published) fun _ => True := by
  have either : Keeps kept allowed (eitherExists candidate basis) fun _ => True := by
    refine keeps_bind (looks_identityIfExists looks) fun _ _ => ?_
    split
    · exact keeps_pure trivial
    · exact keeps_bind (looks_identityIfExists looks) fun _ _ => keeps_pure trivial
  refine keeps_bind either fun _ _ => ?_
  split
  · exact keeps_fail
  refine keeps_bind (keeps_context fun _ _ => trivial) fun directory _ => ?_
  split
  · exact keeps_fail
  refine keeps_bind (keeps_withContext
    (@keeps_request _ _ _ (.createDirAll directory) rfl (looks _ rfl))) fun _ _ => ?_
  refine keeps_bind (keeps_withContext (looks_createDir looks)) fun _ _ => ?_
  refine keeps_bind (looks_createBasis looks) fun _ _ => ?_
  refine keeps_bind (looks_fsyncDirectory looks) fun _ _ => ?_
  refine keeps_bind (looks_fsyncDirectory looks) fun _ _ => ?_
  split
  · exact looks_fsyncDirectory looks
  · exact keeps_pure trivial

/-- `prepare_candidate` only looks and creates. -/
theorem looks_prepareIfAtomic : Keeps kept allowed prepareIfAtomic fun _ => True := by
  refine keeps_bind keeps_copy fun record _ => ?_
  split
  · refine keeps_bind (keeps_bind keeps_copy fun _ _ => keeps_context fun _ _ => trivial)
      fun state (_ : True) => ?_
    exact keeps_locked (looks _ rfl) (looks _ rfl) (looks_prepareCandidateLocked looks)
  · exact keeps_pure trivial

end Preparing

theorem prepares_of_isLook (operation : AgentOp) (look : isLook operation = true) :
    Prepares operation := by
  cases operation <;> first | exact ⟨rfl, rfl⟩ | cases look

/-- `read`, with the cancellation that it finds. -/
theorem keeps_mergeCancellation (reads : allowed .readSpool)
    (merges : ∀ {record flag}, kept record → kept { record with cancelRequested := flag }) :
    Keeps kept allowed mergeCancellation fun _ => True := by
  refine keeps_bind (keeps_perform reads) fun reply _ => ?_
  split
  · exact keeps_pure trivial
  · exact keeps_bind keeps_copy fun record holds => keeps_setCopy (merges holds)

theorem keeps_writeCopy (writes : ∀ {record}, kept record → allowed (.writeSpool record)) :
    Keeps kept allowed writeCopy fun _ => True := by
  refine keeps_bind keeps_copy fun record holds => ?_
  have written : Keeps kept allowed (write record) fun _ => True :=
    @keeps_request _ _ _ (.writeSpool record) rfl (writes holds)
  exact keeps_discard (keeps_attempt written)

/-- The failures before the process write a result and move nothing. -/
theorem prepares_persistFailure {kind : FailureKind} {error : String} :
    Keeps (fun _ => True) Prepares (persistFailure kind error) fun _ => True := by
  have writes := @keeps_writeCopy (fun _ => True) Prepares fun _ => ⟨rfl, rfl⟩
  have ends : ∀ state exitCode kind message,
      Keeps (fun _ => True) Prepares (terminalNow state exitCode kind message) fun _ => True := by
    intro state exitCode kind message
    refine keeps_bind (keeps_perform ⟨rfl, rfl⟩) fun time _ => ?_
    exact keeps_bind keeps_copy fun record _ => keeps_setCopy trivial
  refine keeps_locked ⟨rfl, rfl⟩ ⟨rfl, rfl⟩ ?_
  refine keeps_bind (keeps_mergeCancellation ⟨rfl, rfl⟩ fun _ => trivial) fun _ _ => ?_
  refine keeps_bind keeps_copy fun record _ => ?_
  split
  · exact keeps_bind (ends _ _ _ _) fun _ _ => writes
  · exact keeps_bind (ends _ _ _ _) fun _ _ => writes

/-! ### With the process -/

theorem supervises_stays {operation : AgentOp} (supervises : Supervises operation) :
    executionProtocol.permits .running operation ∧
      ∀ reply, executionProtocol.after .running operation reply = .running :=
  ⟨⟨supervises.1.2, supervises.2⟩, after_of_isAside supervises.1.1⟩

theorem infallible_mergeCancellation : Infallible mergeCancellation := by
  refine infallible_bind (infallible_perform _) fun reply => ?_
  split
  · exact infallible_pure _
  · exact infallible_bind infallible_copy fun _ => infallible_setCopy _

theorem infallible_locked {lock : AgentLock} {computation : Agent α}
    (infallible : Infallible computation) : Infallible (locked lock computation) := by
  refine infallible_bind (infallible_perform _) fun _ record => ?_
  refine Program.every_bind.mpr (Program.every_bind.mpr ((infallible record).imp ?_))
  rintro ⟨_, after⟩ ⟨value, rfl⟩
  exact ⟨trivial, fun _ => ⟨value, rfl⟩⟩

/-- The record of a running process is not a result. -/
theorem obeys_markRunning (record : SpoolRecord) :
    (markRunning.run record).Obeys executionProtocol
      (fun out later => (∃ value, out.1 = .ok value) ∧ later = .running) .running := by
  have section_ : Keeps (fun record => record.state.isTerminal = false) Supervises
      (locked .acceptance do
        mergeCancellation
        writeCopy) fun _ => True := by
    refine keeps_locked ⟨⟨rfl, rfl⟩, rfl⟩ ⟨⟨rfl, rfl⟩, rfl⟩ ?_
    refine keeps_bind (keeps_mergeCancellation ⟨⟨rfl, rfl⟩, rfl⟩ fun holds => holds) fun _ _ => ?_
    exact keeps_writeCopy fun open_ => ⟨⟨rfl, rfl⟩, open_⟩
  have succeeds : Infallible (locked .acceptance do
      mergeCancellation
      writeCopy) :=
    infallible_locked (infallible_bind infallible_mergeCancellation fun _ => infallible_writeCopy)
  refine ⟨⟨rfl, rfl⟩, fun time => ?_⟩
  have every := (section_ (runningRecord record time) rfl).and (succeeds (runningRecord record time))
  exact (every.obeys fun _ => supervises_stays).imp fun _ _ ends => ⟨ends.1.2, ends.2⟩

/-- An execution that has a process closes its group before anything else. -/
theorem obeys_superviseProcess {spec : ProcessRunSpec} :
    Obeys .running (fun _ => True) (superviseProcess spec) fun later => later ≠ .running := by
  refine obeys_perform ⟨rfl, rfl⟩ fun _ record _ => ?_
  refine Program.obeys_bind.mpr ((obeys_markRunning record).imp ?_)
  rintro ⟨_, after⟩ _ ⟨⟨value, rfl⟩, rfl⟩
  exact ⟨⟨rfl, rfl⟩, fun outcome => ⟨⟨rfl, rfl⟩, fun _ => obeys_closed _⟩⟩

theorem obeys_startProcess {spec : ProcessRunSpec} :
    Obeys .unstarted (fun _ => True) (startProcess spec) fun later => later ≠ .running := by
  refine obeys_perform rfl fun reply => ?_
  split
  · exact obeys_of_prepares prepares_persistFailure
  refine obeys_perform rfl fun reply => ?_
  split
  · exact obeys_of_prepares prepares_persistFailure
  · exact obeys_superviseProcess

theorem prepares_stays {operation : AgentOp} (prepares : Prepares operation) :
    executionProtocol.permits .unstarted operation ∧
      ∀ reply, executionProtocol.after .unstarted operation reply = .unstarted :=
  ⟨prepares.2, after_of_isAside prepares.1⟩

theorem obeys_execute :
    Obeys .unstarted (fun _ => True) execute fun later => later ≠ .running := by
  have copies : Keeps (fun _ => True) Prepares copy fun _ => True := keeps_copy
  refine obeys_bind copies (fun _ => prepares_stays) (by simp) fun record _ => ?_
  split
  · exact fun _ _ => by simp [run, pure, Program.Obeys]
  refine obeys_bind (keeps_attempt (looks_prepareIfAtomic prepares_of_isLook))
    (fun _ => prepares_stays) (by simp) fun outcome _ => ?_
  split
  · exact obeys_of_prepares prepares_persistFailure
  · exact obeys_startProcess

/-- Reports to the server move nothing. -/
theorem reports_prepares : Reports (fun _ => True) (fun _ _ => True) Prepares where
  reports := by
    intro operation report
    cases operation <;> first | exact ⟨rfl, rfl⟩ | cases report
  finds := fun _ => trivial
  writes := fun _ => ⟨rfl, rfl⟩
  posts := fun _ _ => ⟨rfl, rfl⟩
  hears := fun _ _ _ _ => trivial
  logs := fun _ => trivial
  retires := fun _ _ => ⟨rfl, rfl⟩

theorem prepares_reconcile (config : AgentConfig) (record : SpoolRecord) :
    ((Service.reconcile config).run record).Every Prepares fun _ => True :=
  (reports_prepares.reconcile record trivial).every

theorem prepares_finishAccepted (config : AgentConfig) (record : SpoolRecord) :
    (Service.finishAccepted config record).Every Prepares fun _ => True := by
  refine Program.every_bind.mpr (Program.every_bind.mpr
    ((prepares_reconcile config record).imp fun _ _ => ?_))
  exact ⟨⟨rfl, rfl⟩, fun _ => ⟨⟨rfl, rfl⟩, fun _ => ⟨⟨rfl, rfl⟩, fun _ => trivial⟩⟩⟩

end Agent

open Agent in
/-- The task of an accepted attempt obeys the protocol. -/
theorem Service.runAccepted_obeys (config : AgentConfig) (record : SpoolRecord) :
    (runAccepted config record).Obeys executionProtocol (fun _ later => later ≠ .running)
      .unstarted := by
  refine Program.obeys_bind.mpr
    (((prepares_reconcile config record).obeys fun _ => prepares_stays).imp ?_)
  rintro ⟨_, first⟩ _ ⟨-, rfl⟩
  refine Program.obeys_bind.mpr ((obeys_execute first trivial).imp ?_)
  rintro ⟨_, last⟩ later ended
  cases later with
  | running => exact absurd rfl ended
  | unstarted =>
      refine ((prepares_finishAccepted config last).obeys fun _ => prepares_stays).imp ?_
      rintro _ _ ⟨-, rfl⟩
      simp
  | closed => exact obeys_closed _

/-! ## The runs -/

/-- The phase that a stage belongs to. -/
def ExecutionStage.phase : ExecutionStage → ExecutionPhase
  | .idle => .unstarted
  | .waiting _ | .terminating _ _ | .pausing _ _ | .joining _ | .reaping _ => .running
  | .closed _ _ => .closed

@[simp]
theorem ExecutionStage.phase_terminated (child : ℕ) (exited : Bool) :
    (terminated child exited).phase = .running := by
  cases exited <;> rfl

namespace ProcessWorld

def phase (task : ℕ) (world : ProcessWorld) : ExecutionPhase := (world.stages task).phase

variable {world before after : ProcessWorld} {task child : ℕ} {gone : Bool}

theorem phase_at_ {stage : ExecutionStage} (other : ℕ) {table : ProcessTable} :
    phase other { before.at_ task stage with table } =
      if other = task then stage.phase else before.phase other := by
  simp only [phase, at_, Function.update_apply]
  split <;> rfl

theorem phase_of_stage {stage : ExecutionStage} (same : before.stages task = stage) :
    before.phase task = stage.phase := congrArg _ same

theorem phase_eq_closed :
    world.phase task = .closed ↔ ∃ child gone, world.stages task = .closed child gone := by
  unfold phase
  cases world.stages task <;> simp [ExecutionStage.phase]

theorem phase_eq_unstarted : world.phase task = .unstarted ↔ world.stages task = .idle := by
  unfold phase
  cases world.stages task <;> simp [ExecutionStage.phase]

theorem phases_at_ {stage : ExecutionStage} {table : ProcessTable} :
    phase task { before.at_ task stage with table } = stage.phase ∧
      ∀ other, other ≠ task →
        phase other { before.at_ task stage with table } = before.phase other :=
  ⟨(phase_at_ task).trans (if_pos rfl), fun other foreign => (phase_at_ other).trans (if_neg foreign)⟩

/-- The stages follow the protocol. -/
theorem Step.phase {operation : AgentOp} {reply : operation.Reply}
    (performed : Step task before operation reply after) :
    after.phase task = executionProtocol.after (before.phase task) operation reply ∧
      ∀ other, other ≠ task → after.phase other = before.phase other := by
  cases operation with
  | spawnProcess spec =>
      rcases performed with ⟨rfl, idle, rfl⟩ | ⟨⟨error, rfl⟩, rfl⟩
      · rw [phase_eq_unstarted.mpr idle]
        exact phases_at_
      · exact ⟨by cases after.phase task <;> rfl, fun _ _ => rfl⟩
  | awaitOutcome timeout =>
      have ends : ∃ child exited table, before.stages task = .waiting child ∧
          after = { before.at_ task (.terminating child exited) with table } := by
        rcases reply with (error | status) | _ | _ | _
        · rcases performed with ⟨child, stage, rfl⟩
          exact ⟨child, _, _, stage, rfl⟩
        · rcases performed with ⟨child, stage, zombie, rfl⟩
          exact ⟨child, _, _, stage, rfl⟩
        all_goals
          rcases performed with ⟨child, stage, rfl⟩
          exact ⟨child, _, _, stage, rfl⟩
      rcases ends with ⟨child, exited, table, stage, rfl⟩
      rw [phase_of_stage stage]
      exact phases_at_
  | closeProcessGroup exited =>
      rcases performed with ⟨closed, rfl⟩
      refine ⟨?_, fun _ _ => rfl⟩
      rw [phase_eq_closed.mpr closed]
      rfl
  | _ =>
      cases performed
      exact ⟨by cases before.phase task <;> rfl, fun _ _ => rfl⟩

theorem Close.phase (closes : Close task before after) :
    before.phase task = .running ∧ (after.phase task = .running ∨ after.phase task = .closed) ∧
      ∀ other, other ≠ task → after.phase other = before.phase other := by
  have comes : ∃ stage table, after = { before.at_ task stage with table } ∧
      before.phase task = .running ∧ (stage.phase = .running ∨ stage.phase = .closed) := by
    cases closes with
    | signal stage | joinFails stage => exact ⟨_, _, rfl, phase_of_stage stage, .inl rfl⟩
    | noGroup stage => exact ⟨_, _, rfl, phase_of_stage stage, .inl (by simp)⟩
    | kill stage => exact ⟨_, _, rfl, phase_of_stage stage, .inl (by simp)⟩
    | join stage => exact ⟨_, _, rfl, phase_of_stage stage, .inl rfl⟩
    | reap stage => exact ⟨_, _, rfl, phase_of_stage stage, .inl rfl⟩
    | deadline stage | noChild stage => exact ⟨_, _, rfl, phase_of_stage stage, .inr rfl⟩
  rcases comes with ⟨stage, table, rfl, was, is⟩
  rw [phases_at_.1]
  exact ⟨was, is, phases_at_.2⟩

end ProcessWorld

namespace ExecutionPool

variable {config : AgentConfig} {pool : ExecutionPool} {task : ℕ}

/-- Every execution obeys the protocol from the phase of its stage on. -/
abbrev Obeys (pool : ExecutionPool) : Prop :=
  Pool.Obeys executionProtocol ProcessWorld.phase (· ≠ .running) pool

theorem Obeys.accept (obeys : pool.Obeys) (unused : pool.state.stages task = .idle)
    (record : SpoolRecord) :
    Obeys ⟨Function.update pool.tasks task (Service.runAccepted config record), pool.state⟩ := by
  intro other
  by_cases same : other = task
  · simpa [same, ProcessWorld.phase_eq_unstarted.mpr unused] using
      Service.runAccepted_obeys config record
  · simpa [Function.update_of_ne same] using obeys other

theorem Obeys.close {after : ProcessWorld} (obeys : pool.Obeys)
    (closes : ProcessWorld.Close task pool.state after) : Obeys ⟨pool.tasks, after⟩ := by
  intro other
  rcases closes.phase with ⟨was, is, others⟩
  by_cases same : other = task
  · rw [same]
    rcases is with running | closed
    · have obeyed := obeys task
      rw [was] at obeyed
      simpa only [running] using obeyed
    · simpa only [closed] using Agent.obeys_closed (pool.tasks task)
  · simpa only [others other same] using obeys other

/-- The invariant of the runs. -/
theorem Runs.valid (ran : Runs config pool) : pool.state.Sound ∧ pool.Obeys := by
  induction ran with
  | start =>
      refine ⟨ProcessWorld.sound_init, fun task => ?_⟩
      simp [Program.Obeys, ProcessWorld.phase, ProcessWorld.init, ExecutionStage.phase]
  | accept ran ended unused record ih => exact ⟨ih.1, ih.2.accept unused record⟩
  | @perform pool after ran moved ih =>
      refine ⟨?_, ih.2.move (fun _ _ _ _ _ => ProcessWorld.Step.phase) (by simp) moved⟩
      cases moved with
      | perform running performed => exact ih.1.step performed
      | start idle started => exact started.elim
  | close ran closes ih => exact ⟨ih.1.close closes, ih.2.close closes⟩
  | processes ran step ih => exact ⟨ih.1.processes step, ih.2⟩

end ExecutionPool

namespace Sample

/-- The next step of `close_process_group`, before the deadline. -/
def closing (task : ℕ) (world : ProcessWorld) : Option ProcessWorld :=
  match world.stages task with
  | .terminating child exited =>
      some (world.at_ task
        (if world.table.hasGroup child then .pausing child exited else .terminated child exited))
  | .pausing child exited =>
      some { world.at_ task (.terminated child exited) with table := world.table.kill child }
  | .joining child =>
      if zombie : world.table.IsZombie 0 child then
        some { world.at_ task (.reaping child) with table := world.table.reap child zombie.only }
      else none
  | .reaping child =>
      match world.table.waitGroup child with
      | .reaped pid =>
          if zombie : world.table.IsZombie 0 pid then
            some { world.at_ task (.reaping child) with table := world.table.reap pid zombie.only }
          else none
      | .stillAlive => none
      | .noChild => some (world.at_ task (.closed child true))
  | .idle | .waiting _ | .closed _ _ => none

section Runs

variable {record : SpoolRecord} {pool : ExecutionPool}

end Runs

end Sample

end LzuMirror
