import LzuMirror.Agent.Disk
import LzuMirror.Agent.Service

/-!
# Acceptance over an unreadable state file

A state file that cannot be read is evidence of an execution that nothing is
known about. `cancel` asks whether the file exists and leaves it alone;
`accept_with_identity` takes every error for the absence of the file. Unless the
agent is busy, it then writes either a rejection or an acceptance over the file:
the scan of the publication admission finds the unreadable file too, and its
answer is one of the rejections that are written.
-/

namespace LzuMirror

/-- What the state file of an execution key holds. -/
inductive StateFile where
  | record (record : SpoolRecord)
  -- bytes that are no record, or a file that cannot be opened
  | unreadable (content : List UInt8)

/-- `"{run_id}-{attempt}"`: the key of the active map and the stem of the state file. -/
def executionKey (runId : String) (attempt : ℕ) : String := runId ++ "-" ++ toString attempt

/-- The state files of the spool directory, the active map and the executions that were started. -/
structure Holdings where
  files : String → Option StateFile
  active : List String
  started : List String

namespace Holdings

def write (holdings : Holdings) (key : String) (record : SpoolRecord) : Holdings :=
  { holdings with files := Function.update holdings.files key (some (.record record)) }

def retire (holdings : Holdings) (key : String) : Holdings :=
  { holdings with files := Function.update holdings.files key none }

/-- The scan of `publication_admission`: every state file, each of them readable. -/
def Scans (holdings : Holdings) (records : List SpoolRecord) : Prop :=
  ∃ keys : List String, (∀ key, key ∈ keys ↔ (holdings.files key).isSome = true) ∧
    List.Forall₂ (fun key record => holdings.files key = some (.record record)) keys records

/-- What an operation of `accept_with_identity` may do; a failed write may have taken effect. -/
def Step (key : String) : Program.Semantics AgentOp AgentOp.Reply Holdings
  | before, .readSpool, reply, after =>
      after = before ∧ ((∃ record, before.files key = some (.record record) ∧ reply = .ok record) ∨
        Failed reply)
  | before, .spoolExists, reply, after => after = before ∧ reply = (before.files key).isSome
  | before, .writeSpool record, reply, after =>
      after = before.write key record ∨ Failed reply ∧ after = before
  | before, .retireSpool, reply, after => after = before.retire key ∨ Failed reply ∧ after = before
  | before, .spoolRecords, reply, after =>
      after = before ∧ (Failed reply ∨ ∃ records, reply = .ok records ∧ before.Scans records)
  | before, .activeContains, reply, after => after = before ∧ reply = decide (key ∈ before.active)
  | before, .activeLength, reply, after => after = before ∧ reply = before.active.length
  | before, .activeInsert, _, after => after = { before with active := key :: before.active }
  | before, .activeRemove, _, after => after = { before with active := before.active.erase key }
  | before, .spawnTask _, _, after => after = { before with started := key :: before.started }
  | before, _, _, after => after = before

theorem step_write {key : String} {before : Holdings} (record : SpoolRecord) :
    Step key before (.writeSpool record) (.ok ()) (before.write key record) :=
  .inl rfl

end Holdings

/-- Whatever happens, the state file of the key stays and nothing is started for the key. -/
def Service.FailsClosed (config : AgentConfig) (runId : String) (attempt : ℕ) (specHash : String)
    (executionIdentity : Option ExecutionIdentity) (spec : ProcessRunSpec) (before : Holdings) :
    Prop :=
  ∀ rest after, Program.Reaches (Holdings.Step (executionKey runId attempt))
      (acceptWithIdentity config runId attempt specHash executionIdentity spec, before)
      (rest, after) →
    after.files (executionKey runId attempt) = before.files (executionKey runId attempt) ∧
      after.started = before.started

namespace Service

variable {config : AgentConfig} {key : String} {before : Holdings} {content : List UInt8}

/-- An operation that leaves everything as it is. -/
theorem safe_idle {α : Type} {operation : AgentOp} {next : operation.Reply → AgentProgram α}
    {post : α → Holdings → Prop}
    (idle : ∀ reply after, Holdings.Step key before operation reply after →
      after = before ∧ (next reply).Safe (Holdings.Step key) Eq (fun _ _ => True)
        (fun state => state = before) post before) :
    (Program.perform operation next).Safe (Holdings.Step key) Eq (fun _ _ => True)
      (fun state => state = before) post before := by
  rintro state reply after rfl _ performed
  rcases idle reply after performed with ⟨rfl, safe⟩
  exact ⟨⟨trivial, rfl⟩, safe⟩

theorem activeOrFull_busy
    (busy : key ∈ before.active ∨ config.maxConcurrentRuns ≤ before.active.length) :
    (activeOrFull config).Safe (Holdings.Step key) Eq (fun _ _ => True)
      (fun state => state = before) (fun value state => value = true ∧ state = before) before := by
  apply safe_idle
  rintro (_ | _) after ⟨unchanged, contained⟩
  · refine ⟨unchanged, safe_idle ?_⟩
    rintro (length : ℕ) _ ⟨same, isLength⟩
    have full := busy.resolve_left (of_decide_eq_false contained.symm)
    rw [← isLength] at full
    exact ⟨same, decide_eq_true full, rfl⟩
  · exact ⟨unchanged, rfl, rfl⟩

/-- A busy agent looks at the active map and returns. -/
theorem acceptWithIdentity_busy {runId specHash : String} {attempt : ℕ}
    {executionIdentity : Option ExecutionIdentity} {spec : ProcessRunSpec}
    (unreadable : before.files key = some (.unreadable content))
    (busy : key ∈ before.active ∨ config.maxConcurrentRuns ≤ before.active.length) :
    (acceptWithIdentity config runId attempt specHash executionIdentity spec).Safe
      (Holdings.Step key) Eq (fun _ _ => True) (fun state => state = before) (fun _ _ => True)
      before := by
  apply safe_idle
  intro _ _ acquired
  refine ⟨acquired, safe_idle ?_⟩
  rintro reply _ ⟨same, ⟨record, readable, _⟩ | ⟨message, rfl⟩⟩
  · rw [unreadable] at readable
    cases readable
  · refine ⟨same, safe_idle ?_⟩
    intro _ _ acquired
    refine ⟨acquired, ?_⟩
    change (activeOrFull config >>= _).Safe _ _ _ _ _ _
    refine Program.safe_bind.mpr ((activeOrFull_busy busy).imp ?_)
    rintro _ _ ⟨rfl, rfl⟩
    apply safe_idle
    intro _ _ released
    refine ⟨released, safe_idle ?_⟩
    intro _ _ released
    exact ⟨released, trivial⟩

/-! ## An agent that is not busy -/

/-- One operation, with the reply it gets. -/
theorem reaches_reply {α : Type} {operation : AgentOp} {next : operation.Reply → AgentProgram α}
    {final : Holdings} {rest : AgentProgram α} (reply : operation.Reply) (after : Holdings)
    (performed : Holdings.Step key before operation reply after)
    (reached : Program.Reaches (Holdings.Step key) (next reply, after) (rest, final)) :
    Program.Reaches (Holdings.Step key) (.perform operation next, before) (rest, final) :=
  .head (.perform performed) reached

/-- The admission comes to an answer and leaves the files alone. -/
theorem admission_reaches {executionIdentity : Option ExecutionIdentity} {spec : ProcessRunSpec} :
    ∃ answer, Program.Reaches (Holdings.Step key) (admission config executionIdentity spec, before)
      (.pure answer, before) := by
  unfold admission
  split
  · exact ⟨_, .refl⟩
  · unfold publicationAdmission
    simp only
    split
    · exact ⟨_, .refl⟩
    · split
      · exact ⟨_, .refl⟩
      · split
        · exact ⟨_, .refl⟩
        · -- the scan fails, and the mirror lock is given back
          refine ⟨.error ("publication admission blocked: " ++ "unreadable"), ?_⟩
          refine reaches_reply () before rfl ?_
          refine reaches_reply (.error "unreadable") before ⟨rfl, .inl ⟨_, rfl⟩⟩ ?_
          exact reaches_reply () before rfl .refl

/-- A rejection and an acceptance are both written to the state file. -/
theorem answer_writes {runId specHash : String} {attempt : ℕ}
    {executionIdentity : Option ExecutionIdentity} {spec : ProcessRunSpec}
    (answer : Except String (Option String)) :
    ∃ rest record, (record.state = .accepted ∨ record.state = .rejected) ∧
      Program.Reaches (Holdings.Step key)
      ((match answer with
        | .error message => do
            let time ← perform .now
            rejectLocally config
              (.acceptedWithIdentity runId attempt specHash executionIdentity spec time) message
        | .ok guard => do
            let time ← perform .now
            startExecution
              (.acceptedWithIdentity runId attempt specHash executionIdentity spec time) guard :
        AgentProgram Unit), before) (rest, before.write key record) := by
  cases answer with
  | error message =>
      have written := fun record => @Holdings.step_write key before record
      exact ⟨_, _, .inr rfl, reaches_reply "2026-09-03T00:00:00Z" before rfl
        (reaches_reply "2026-09-03T00:00:00Z" before rfl (reaches_reply _ _ (written _) .refl))⟩
  | ok guard =>
      have written := fun record => @Holdings.step_write key before record
      exact ⟨_, _, .inl rfl, reaches_reply "2026-09-03T00:00:00Z" before rfl
        (reaches_reply _ _ (written _) .refl)⟩

/-- An agent that is not busy writes a record over the file. -/
theorem acceptWithIdentity_writes {runId specHash : String} {attempt : ℕ}
    {executionIdentity : Option ExecutionIdentity} {spec : ProcessRunSpec}
    (absent : key ∉ before.active) (free : ¬config.maxConcurrentRuns ≤ before.active.length) :
    ∃ rest record, (record.state = .accepted ∨ record.state = .rejected) ∧
      Program.Reaches (Holdings.Step key)
      (acceptWithIdentity config runId attempt specHash executionIdentity spec, before)
      (rest, before.write key record) := by
  rcases @admission_reaches config key before executionIdentity spec with ⟨answer, answered⟩
  rcases @answer_writes config key before runId specHash attempt executionIdentity spec answer with
    ⟨rest, record, fresh, written⟩
  have looked : Program.Reaches (Holdings.Step key) (activeOrFull config, before)
      (.pure false, before) := by
    have unfilled : decide (before.active.length ≥ config.maxConcurrentRuns) = false :=
      decide_eq_false free
    have counted := @reaches_reply key before Bool .activeLength
      (fun (length : ℕ) => .pure (decide (length ≥ config.maxConcurrentRuns))) _ _
      before.active.length before ⟨rfl, rfl⟩ .refl
    simp only [unfilled] at counted
    exact reaches_reply false before ⟨rfl, (decide_eq_false absent).symm⟩ counted
  refine ⟨rest, record, fresh, ?_⟩
  refine reaches_reply () before rfl ?_
  refine reaches_reply (.error "unreadable") before ⟨rfl, .inr ⟨_, rfl⟩⟩ ?_
  refine reaches_reply () before rfl ?_
  exact ((looked.bind _).trans (answered.bind _)).trans written

end Service

/--
An attempt whose state file exists and cannot be read: whatever its specification
and its identity are, `accept_with_identity` leaves the file alone and starts
nothing exactly when the key is among the active runs or their number is at its
limit.
-/
theorem acceptance_fails_closed_iff (config : AgentConfig) (runId : String) (attempt : ℕ)
    (specHash : String) (executionIdentity : Option ExecutionIdentity) (spec : ProcessRunSpec)
    (before : Holdings) (content : List UInt8)
    (unreadable : before.files (executionKey runId attempt) = some (.unreadable content)) :
    Service.FailsClosed config runId attempt specHash executionIdentity spec before ↔
      executionKey runId attempt ∈ before.active ∨
        config.maxConcurrentRuns ≤ before.active.length := by
  constructor
  · intro closed
    by_contra idle
    rw [not_or] at idle
    rcases @Service.acceptWithIdentity_writes config _ before runId specHash attempt
      executionIdentity spec idle.1 idle.2 with ⟨rest, record, _, reached⟩
    have kept := (closed rest _ reached).1
    simp only [Holdings.write, Function.update_self, unreadable] at kept
    cases kept
  · intro busy rest after reached
    have safe := @Service.acceptWithIdentity_busy config _ before content runId specHash attempt
      executionIdentity spec unreadable busy
    have same := (safe.of_reaches (fun _ => rfl) rfl reached).2
    rw [same]
    exact ⟨rfl, rfl⟩

namespace Sample

/-- An agent with room for two runs. -/
def roomyConfig : AgentConfig where
  instanceId := "agent-1"
  mirrorRoot := "/srv/mirrors"
  publicationRoot := none
  publicationMaxPrivateGenerations := none
  publicationReserveBytes := none
  maxConcurrentRuns := 2
  processEnabled := true

/-- A direct synchronisation. -/
def directSpec : ProcessRunSpec where
  runner := "process"
  program := "/bin/true"
  args := []
  cwd := none
  timeoutSeconds := 3600
  mirrorRoot := "/srv/mirrors"
  targetDir := "/srv/mirrors/pool"
  publication := none

/-- The server and the process succeed. -/
def smoothly : (operation : AgentOp) → operation.Reply
  | .readSpool => (.error "missing" : Except String SpoolRecord)
  | .spoolExists | .activeContains | .synchronized => false
  | .activeLength => (0 : ℕ)
  | .identityIfExists _ => .ok none
  | .now => "2026-09-03T00:00:00Z"
  | .postEvent _ => .ok true
  | .logLength => .ok none
  | .readLog _ _ => .ok []
  | .putLog _ _ _ => .ok (some none)
  | .spoolRecords => .ok []
  | .awaitOutcome _ => .process (.ok ⟨some 0⟩)
  | .writeSpool _ | .retireSpool | .validatePrivateDirectory _ | .validatePublishedTarget _
  | .createDirAll _ | .createDir _ | .symlink _ _ | .renameNoreplace _ _ | .exchangePaths _ _
  | .fsyncDirectory _ | .gcAndCheckLocked _ _ _ | .setChildSubreaper | .spawnProcess _ => .ok ()
  | .acquire _ _ | .release _ | .activeInsert | .activeRemove | .sendCancel | .startCapture
  | .closeProcessGroup _ | .awaitCapture | .spawnTask _ => ()

/-- The state file of the first attempt of `run-1` was cut off by a full disk. -/
def truncated (active : List String) : Holdings where
  files := Function.update (fun _ => none) (executionKey "run-1" 1) (some (.unreadable [123]))
  active
  started := []

theorem truncated_unreadable (active : List String) :
    (truncated active).files (executionKey "run-1" 1) = some (.unreadable [123]) := by
  simp only [truncated, Function.update_self]

end Sample

/-- While the attempt is active, its file is left alone. -/
theorem acceptance_fails_closed_iff_active :
    Service.FailsClosed Sample.roomyConfig "run-1" 1 "sha256:1" none Sample.directSpec
      (Sample.truncated [executionKey "run-1" 1]) :=
  (acceptance_fails_closed_iff _ _ _ _ _ _ _ _ (Sample.truncated_unreadable _)).mpr
    (.inl List.mem_cons_self)

/-- An idle agent writes over the file. -/
theorem unreadable_file_is_overwritten :
    ¬∀ (config : AgentConfig) (runId : String) (attempt : ℕ) (specHash : String)
      (executionIdentity : Option ExecutionIdentity) (spec : ProcessRunSpec) (before : Holdings)
      (content : List UInt8),
      before.files (executionKey runId attempt) = some (.unreadable content) →
        Service.FailsClosed config runId attempt specHash executionIdentity spec before := by
  intro claimed
  have unreadable := Sample.truncated_unreadable []
  have closed := claimed Sample.roomyConfig "run-1" 1 "sha256:1" none Sample.directSpec
    (Sample.truncated []) [123] unreadable
  have absent : executionKey "run-1" 1 ∉ (Sample.truncated []).active := List.not_mem_nil
  have free : ¬Sample.roomyConfig.maxConcurrentRuns ≤ (Sample.truncated []).active.length := by
    decide
  rcases @Service.acceptWithIdentity_writes Sample.roomyConfig _ (Sample.truncated []) "run-1"
    "sha256:1" 1 none Sample.directSpec absent free with ⟨rest, record, _, reached⟩
  have kept := (closed rest _ reached).1
  rw [unreadable] at kept
  simp only [Holdings.write, Function.update_self] at kept
  cases kept

end LzuMirror
