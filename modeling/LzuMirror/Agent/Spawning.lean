import LzuMirror.Agent.Reporting

/-!
# Which programs start something

An execution begins with two operations: `accept_with_identity` spawns the task
of the attempt (`tokio::spawn`), and that task spawns the process. No other
program of the agent performs either, and the task spawns at most one process.
-/

namespace LzuMirror

namespace Program

variable {Op : Type} {Reply : Op → Type} {α β : Type}

/-- The program performs at most one of the operations that are counted. -/
def AtMostOnce (counted : Op → Prop) : Program Op Reply α → Prop
  | .pure _ => True
  | .perform operation next =>
      (counted operation → ∀ reply, (next reply).Every (fun later => ¬counted later) fun _ => True) ∧
        ∀ reply, (next reply).AtMostOnce counted

theorem Every.atMostOnce {counted : Op → Prop} {program : Program Op Reply α}
    (every : program.Every (fun operation => ¬counted operation) fun _ => True) :
    program.AtMostOnce counted := by
  induction program with
  | pure value => trivial
  | perform operation rest ih =>
      exact ⟨fun isCounted => absurd isCounted every.1, fun reply => ih reply (every.2 reply)⟩

/-- Nothing is counted before a program that counts at most once. -/
theorem AtMostOnce.after {counted : Op → Prop} {program : Program Op Reply α}
    {next : α → Program Op Reply β}
    (every : program.Every (fun operation => ¬counted operation) fun value =>
      (next value).AtMostOnce counted) : (program >>= next).AtMostOnce counted := by
  induction program with
  | pure value => exact every
  | perform operation rest ih =>
      exact ⟨fun isCounted => absurd isCounted every.1, fun reply => ih reply (every.2 reply)⟩

/-- Nothing is counted after it either. -/
theorem AtMostOnce.before {counted : Op → Prop} {program : Program Op Reply α}
    {next : α → Program Op Reply β} (once : program.AtMostOnce counted)
    (rest : ∀ value, (next value).Every (fun operation => ¬counted operation) fun _ => True) :
    (program >>= next).AtMostOnce counted := by
  induction program with
  | pure value => exact (rest value).atMostOnce
  | perform operation following ih =>
      refine ⟨fun isCounted reply => every_bind.mpr ?_, fun reply => ih reply (once.2 reply)⟩
      exact (once.1 isCounted reply).imp fun value _ => rest value

/-- The operations are allowed until one of them is the `turn`; what comes then is `later`. -/
def Until (allowed turn : Op → Prop)
    (later : (operation : Op) → Reply operation → Program Op Reply α → Prop) :
    Program Op Reply α → Prop
  | .pure _ => True
  | .perform operation next =>
      (turn operation → ∀ reply, later operation reply (next reply)) ∧
        (¬turn operation → allowed operation ∧ ∀ reply, (next reply).Until allowed turn later)

section Until

variable {allowed turn : Op → Prop}
  {later : (operation : Op) → Reply operation → Program Op Reply β → Prop}

/-- A first part without the turn. -/
theorem Until.after {program : Program Op Reply α} {next : α → Program Op Reply β}
    (every : program.Every (fun operation => ¬turn operation ∧ allowed operation) fun value =>
      (next value).Until allowed turn later) : (program >>= next).Until allowed turn later := by
  induction program with
  | pure value => exact every
  | perform operation rest ih =>
      exact ⟨fun isTurn => absurd isTurn every.1.1, fun _ =>
        ⟨every.1.2, fun reply => ih reply (every.2 reply)⟩⟩

/-- A program that is allowed throughout. -/
theorem Every.until {program : Program Op Reply β}
    (every : program.Every (fun operation => allowed operation) fun _ => True)
    (follows : ∀ operation reply (rest : Program Op Reply β), turn operation →
      rest.Every (fun operation => allowed operation) (fun _ => True) →
        later operation reply rest) : program.Until allowed turn later := by
  induction program with
  | pure value => trivial
  | perform operation rest ih =>
      exact ⟨fun isTurn reply => follows _ _ _ isTurn (every.2 reply), fun _ =>
        ⟨every.1, fun reply => ih reply (every.2 reply)⟩⟩

end Until

end Program

/-- The operations that start an execution. -/
def AgentOp.isSpawn : AgentOp → Bool
  | .spawnTask _ | .spawnProcess _ => true
  | _ => false

/-- The spawning of the process of an execution. -/
def AgentOp.isProcess : AgentOp → Bool
  | .spawnProcess _ => true
  | _ => false

namespace Agent

/-- The tasks perform no other operations that start something. -/
theorem serves_idle {allowed : AgentOp → Prop}
    (idle : ∀ operation : AgentOp, operation.isSpawn = false → allowed operation) :
    Serves (fun _ => True) (fun _ _ => True) allowed (fun _ => True) fun _ => True where
  looks := by
    intro operation look
    apply idle
    cases operation <;> first | rfl | cases look
  writes := fun _ => idle _ rfl
  tracks := fun _ _ => trivial
  publishes := fun _ _ => trivial
  concludes := fun _ _ => trivial
  succeeds := trivial
  fails := trivial
  cancels := trivial
  intends := fun _ => trivial
  recovers := fun _ _ => trivial
  undoes := fun _ => trivial
  enters := fun _ => trivial
  readies := fun _ => trivial
  prepares := fun _ _ => trivial
  stages := fun _ => idle _ rfl
  unstages := fun _ => idle _ rfl
  rotates := fun _ _ => idle _ rfl
  unrotates := fun _ _ => idle _ rfl
  exchanges := fun _ _ _ => idle _ rfl
  appears := fun _ _ _ => idle _ rfl
  reads := idle _ rfl
  acquires := idle _ rfl
  releases := idle _ rfl
  merges := fun _ => trivial
  interrupts := trivial
  timesOut := trivial
  reports := by
    intro operation report
    apply idle
    cases operation <;> first | rfl | cases report
  finds := fun _ => trivial
  posts := fun _ _ => idle _ rfl
  hears := fun _ _ _ _ => trivial
  logs := fun _ => trivial
  retires := fun _ _ => idle _ rfl
  errands := by
    intro operation errand
    apply idle
    cases operation <;> first | rfl | cases errand
  rejects := trivial
  runs := fun _ => trivial
  tombstones := trivial

/-- A computation that spawns at most one process. -/
def SpawnsOnce {α : Type} (computation : Agent α) : Prop :=
  ∀ record, (computation.run record).AtMostOnce fun operation => operation.isProcess = true

/-- The tasks spawn no process outside `execute`. -/
theorem serves_processless :
    Serves (fun _ => True) (fun _ _ => True) (fun operation => ¬operation.isProcess = true)
      (fun _ => True) fun _ => True := by
  apply serves_idle
  intro operation idle
  cases operation with
  | spawnProcess => cases idle
  | _ => simp [AgentOp.isProcess]

theorem spawnsOnce_of_keeps {α : Type} {computation : Agent α}
    (keeps : Keeps (fun _ => True) (fun operation => ¬operation.isProcess = true) computation
      fun _ => True) : SpawnsOnce computation :=
  fun record => ((keeps record trivial).imp fun _ _ => trivial).atMostOnce

theorem spawnsOnce_bind {α β : Type} {first : Agent α} {next : α → Agent β}
    (keeps : Keeps (fun _ => True) (fun operation => ¬operation.isProcess = true) first
      fun _ => True) (once : ∀ value, SpawnsOnce (next value)) : SpawnsOnce (first >>= next) := by
  intro record
  refine Program.AtMostOnce.after ((keeps record trivial).imp ?_)
  rintro ⟨message | value, after⟩ _
  · trivial
  · exact once value after

theorem spawnsOnce_process {α : Type} {spec : ProcessRunSpec} {next : Except String Unit → Agent α}
    (rest : ∀ reply, Keeps (fun _ => True) (fun operation => ¬operation.isProcess = true)
      (next reply) fun _ => True) : SpawnsOnce (perform (.spawnProcess spec) >>= next) := by
  intro record
  refine ⟨fun _ reply => ?_, fun reply => spawnsOnce_of_keeps (rest reply) record⟩
  exact Program.Every.imp (rest reply record trivial) fun _ _ => trivial

theorem spawnsOnce_startProcess {spec : ProcessRunSpec} : SpawnsOnce (startProcess spec) := by
  refine spawnsOnce_bind (keeps_perform (by simp [AgentOp.isProcess])) ?_
  rintro (error | _)
  · exact spawnsOnce_of_keeps serves_processless.persistFailure
  refine spawnsOnce_process ?_
  rintro (error | _)
  · exact serves_processless.persistFailure
  · exact serves_processless.superviseProcess

theorem spawnsOnce_execute : SpawnsOnce execute := by
  refine spawnsOnce_bind keeps_copy fun record => ?_
  split
  · exact fun _ => trivial
  next spec _ =>
    have prepares := keeps_attempt serves_processless.prepareIfAtomic
    refine spawnsOnce_bind (prepares.imp fun _ _ => trivial) ?_
    rintro (error | _)
    · exact spawnsOnce_of_keeps serves_processless.persistFailure
    · exact spawnsOnce_startProcess

end Agent

/-- The task of an accepted attempt spawns one process. -/
theorem Service.runAccepted_atMostOnce (config : AgentConfig) (record : SpoolRecord) :
    (runAccepted config record).AtMostOnce fun operation => operation.isProcess = true := by
  have reported := @Agent.Reports.reconcile _ _ _ config Agent.serves_processless.toReports record
    trivial
  refine Program.AtMostOnce.after (reported.every.imp fun first _ => ?_)
  refine (Agent.spawnsOnce_execute first.2).before fun last => ?_
  exact (Agent.serves_processless.finishAccepted trivial).every

end LzuMirror
