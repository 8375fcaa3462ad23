import LzuMirror.Store.Runs
import Mathlib.Logic.Relation

/-!
# The server's use of the store

The callbacks of `apps/lmt-server/src/services.rs` and the control plane as a
transition system: a state is a database and a step is one transaction.

`StoreOp` lists the transactions with the arguments their callers choose; a
failing transaction is a step that changes nothing. `ReachableBy allowed` are
the databases reached from the empty one by operations that satisfy `allowed`
in the state they start from.
-/

namespace LzuMirror

section Callbacks

variable (vendor : Vendor)

/-- What a polling agent reports about itself. -/
structure AgentProfile where
  mirrorRoot : String
  publicationRoot : Option String
  capabilities : List String
  deriving DecidableEq, Repr

/-- `ATOMIC_EXCHANGE_V1`. -/
def atomicExchangeV1 : String := "atomic_exchange_v1"

/-- `toml::from_str(config_toml).map_err(StoreError::InvalidConfig)`. -/
def storedDocument (configToml : String) : Except StoreError MirrorDocument :=
  match vendor.parseDocument configToml with
  | .ok document => .ok document
  | .error message => .error (.invalidConfig message)

/-- The policy columns of a run. -/
def MirrorDocument.policySnapshot (document : MirrorDocument) : RunPolicySnapshot where
  maxAttempts := document.run.maxAttempts
  retryDelayMs := min (document.run.retryDelaySeconds * 1000) u64Max

/-- `compile_policy`. -/
def compilePolicy (configToml : String) : Except StoreError RunPolicySnapshot :=
  (storedDocument vendor configToml).map (·.policySnapshot)

/-- The texts of `ConfigError`. -/
def ConfigError.message : ConfigError → String
  | .invalidPath path =>
      "invalid bundle path " ++ path.quote ++ ": expected nodes/<node>/mirrors/<name>.toml"
  | .invalidToml path message => "invalid TOML in " ++ path ++ ": " ++ message
  | .duplicateMirror name => "mirror " ++ name.value ++ " is defined more than once"
  | .nameMismatch stem name =>
      "mirror file stem " ++ stem.quote ++ " does not match mirror.name " ++ name.value
  | .unsafeTarget target => "mirror target must be a safe relative path: " ++ target.quote
  | .emptyProgram => "command program must not be empty"
  | .invalidTimeout => "timeout_seconds must be between 1 and 604800"
  | .invalidMaxAttempts => "max_attempts must be between 1 and 10"
  | .invalidRetryDelay => "retry_delay_seconds must not exceed 86400"
  | .emptyRsyncSource => "rsync source must not be empty"
  | .invalidSchedule message => "invalid schedule: " ++ message
  | .unsupportedPlaceholder placeholder => "unsupported placeholder " ++ placeholder
  | .missingPublicationRoot => "atomic publication requires an Agent publication root"
  | .targetOverlap node first second =>
      "mirror targets overlap on Node " ++ node.value ++ ": " ++ first.value ++ " and " ++
        second.value
  | .atomicRsyncOption option reason =>
      "atomic rsync option " ++ option.quote ++ " is invalid: " ++ reason

/-- `compile`: the dispatch callback of `next_action_for_agent`. -/
def compileDispatch (node : String) (agent : AgentProfile) (source : DispatchSource) :
    Except StoreError (Option CompiledDispatch) := do
  let document ← storedDocument vendor source.configToml
  if mirrorValid : validName source.mirrorName = true then
    if nodeValid : validName node = true then
      if source.attemptNo = 0 then
        throw (.invalidConfig "invalid attempt number: \"0\"")
      if document.publicationMode = .atomic ∧
          (agent.capabilities.contains atomicExchangeV1 = false ∨
            agent.publicationRoot = none) then
        return none
      let context : RunSpecContext := {
        mirrorName := ⟨source.mirrorName, mirrorValid⟩
        runId := source.runId
        attemptNo := source.attemptNo
        nodeName := ⟨node, nodeValid⟩
        mirrorRoot := agent.mirrorRoot
        publicationRoot := agent.publicationRoot }
      match compileProcessRunSpec document context with
      | .error error => throw (.invalidConfig error.message)
      | .ok spec => return some ⟨spec, vendor.specHash spec, document.policySnapshot⟩
    else throw (.invalidConfig ("invalid node name: " ++ node.quote))
  else throw (.invalidConfig ("invalid mirror name: " ++ source.mirrorName.quote))

/-- The interval of a stored document, armed from an instant. -/
def rearmDocument (now : ℤ) (configToml : String) : Except StoreError (Option ℤ) := do
  let document ← storedDocument vendor configToml
  match document.schedule with
  | none => return none
  | some schedule =>
      match rearmInterval vendor.toCalendar schedule now with
      | .error message => throw (.invalidConfig message)
      | .ok nextDue => return nextDue

/-- The `RetryContext` of a terminal report. -/
def TerminalDecisionSource.retryContext (source : TerminalDecisionSource) (serverNowMs : ℤ) :
    RetryContext where
  outcome := source.outcome
  attemptNo := source.attemptNo
  maxAttempts := source.maxAttempts
  retryDelaySeconds := source.retryDelayMs / 1000
  cancelRequested := source.cancelRequested
  mirrorEligible := source.mirrorEligible
  ownerUnchanged := source.ownerUnchanged
  serverNowMs := serverNowMs

/-- The terminal decision of `apply_attempt_event`. -/
def decideTerminal (source : TerminalDecisionSource) (serverNowMs : ℤ) :
    Except StoreError TerminalDecision :=
  let retry := decideRetry (source.retryContext serverNowMs)
  if source.mirrorEligible && source.ownerUnchanged then do
    let intervalNextDueAtMs ← rearmDocument vendor serverNowMs source.currentConfigToml
    return ⟨retry, intervalNextDueAtMs⟩
  else .ok ⟨retry, none⟩

/-- The evaluation callback of `evaluate_schedules`. -/
def evaluateSource (now : ℤ) (source : ScheduleTickSource) :
    Except StoreError ScheduleRuntime := do
  let document ← storedDocument vendor source.configToml
  match document.schedule with
  | none => throw (.invalidConfig "scheduled mirror has no schedule")
  | some schedule =>
      match evaluateScheduleDue vendor.toCalendar schedule source.runtime now
          source.hasActiveRun with
      | .error message => throw (.invalidConfig message)
      | .ok evaluation => return evaluation.runtime

end Callbacks

/-- The node row that issuing a credential makes sure of. -/
def Database.registerNode (db : Database) (name : String) : Database :=
  match db.nodes.insert? {
      name
      agentInstanceId := none
      boundAgentId := none
      agentBootId := none
      lastSeenAtMs := none
      activeRuns := 0
      maxConcurrentRuns := 1 } with
  | none => db
  | some nodes => { db with nodes }

/-- The transactions of the control plane with the arguments their callers choose. -/
inductive StoreOp (vendor : Vendor) where
  | apply (bundle : CanonicalBundle vendor) (baseRevision : ℕ) (now : ℤ)
  | createManualRun (mirror requestId : String) (now : ℤ) (newRunId : String)
  | pollAction (node : String) (agent : AgentProfile) (now : ℤ) (newRunId : String)
  | requestCancellation (runId : String) (now : ℤ)
  | evaluateDueSchedules (now : ℤ)
  | applyEvent (runId : String) (attemptNo : ℕ) (event : AttemptEvent) (now : ℤ)
  | observeNode (observation : NodeObservation)
  | registerNode (name : String)
  | replaceAgentBinding (node agentId : String) (acknowledgeExecutionRisk : Bool)

/-- The database a transaction leaves: an error rolls it back. -/
def committed {α : Type} (before : Database) : Except StoreError (α × Database) → Database
  | .ok (_, after) => after
  | .error _ => before

/-- Running one transaction with the callbacks of the server. -/
def StoreOp.run {vendor : Vendor} (db : Database) : StoreOp vendor → Database
  | .apply bundle baseRevision now => committed db (db.apply bundle baseRevision now)
  | .createManualRun mirror requestId now newRunId =>
      committed db (db.createManualRun mirror requestId now newRunId (compilePolicy vendor))
  | .pollAction node agent now newRunId =>
      committed db (db.pollAction node now newRunId (compileDispatch vendor node agent))
  | .requestCancellation runId now =>
      committed db (db.requestCancellation runId now (rearmDocument vendor now))
  | .evaluateDueSchedules now =>
      committed db (db.evaluateDueSchedules now (evaluateSource vendor now))
  | .applyEvent runId attemptNo event now =>
      committed db (db.applyEvent runId attemptNo event now (decideTerminal vendor))
  | .observeNode observation => committed db (db.observeNode observation)
  | .registerNode name => db.registerNode name
  | .replaceAgentBinding node agentId acknowledgeExecutionRisk =>
      committed db (db.replaceAgentBinding node agentId acknowledgeExecutionRisk)

/-- One transaction that is allowed in the state it starts from. -/
def StoreStep {vendor : Vendor} (allowed : Database → StoreOp vendor → Prop)
    (before after : Database) : Prop :=
  ∃ operation, allowed before operation ∧ operation.run before = after

/-- The databases reached from the empty one by allowed transactions. -/
def ReachableBy {vendor : Vendor} (allowed : Database → StoreOp vendor → Prop)
    (db : Database) : Prop :=
  Relation.ReflTransGen (StoreStep allowed) .empty db

/-- The databases reached by any transactions. -/
abbrev Reachable (vendor : Vendor) (db : Database) : Prop :=
  @ReachableBy vendor (fun _ _ => True) db

section Reachability

variable {vendor : Vendor} {allowed : Database → StoreOp vendor → Prop}

/-- The invariant rule: initially true and kept by every allowed transaction. -/
theorem ReachableBy.invariant {holds : Database → Prop} {db : Database}
    (reachable : ReachableBy allowed db) (initial : holds .empty)
    (kept : ∀ before operation, ReachableBy allowed before → holds before →
      allowed before operation → holds (operation.run before)) : holds db := by
  induction reachable with
  | refl => exact initial
  | tail earlier step ih =>
      obtain ⟨operation, permitted, rfl⟩ := step
      exact kept _ operation earlier ih permitted

theorem ReachableBy.step {db : Database} (reachable : ReachableBy allowed db)
    (operation : StoreOp vendor) (permitted : allowed db operation) :
    ReachableBy allowed (operation.run db) :=
  reachable.tail ⟨operation, permitted, rfl⟩

/-- A transaction with no effect on failure: what its success ensures, the state ensures. -/
theorem committed_of_ok {α : Type} {holds : Database → Prop} {before : Database}
    {result : Except StoreError (α × Database)} (initial : holds before)
    (succeeded : ∀ value after, result = .ok (value, after) → holds after) :
    holds (committed before result) := by
  unfold committed
  split
  next value after => exact succeeded value after rfl
  next => exact initial

theorem eq_ok_of_toOption {ε α : Type} {result : Except ε α} {value : α}
    (succeeded : result.toOption = some value) : result = .ok value := by
  cases result with
  | error reason => cases succeeded
  | ok other =>
      cases succeeded
      rfl

end Reachability

/-! ## A small configuration

Two mirrors without a schedule that share a target; the examples and
counterexamples of the store modules run on them.
-/

namespace Sample

/-- The document of a mirror that runs `/bin/true` up to three times. -/
def document (name : MirrorName) : MirrorDocument where
  mirror := ⟨name, true, "", "pool"⟩
  schedule := none
  sync := .command "/bin/true" [] none
  publication := none
  run := ⟨3600, 3, 0⟩

def alpha : MirrorName := ⟨"alpha", by decide⟩

def beta : MirrorName := ⟨"beta", by decide⟩

/-- The canonical text of `document alpha`. -/
@[irreducible]
def alphaToml : String :=
  "[mirror]\nname = \"alpha\"\nenabled = true\ndescription = \"\"\ntarget = \"pool\"\n\n" ++
    "[sync]\ntype = \"command\"\nprogram = \"/bin/true\"\nargs = []\n\n[runner]\ntype = \"process\"\n\n" ++
    "[run]\ntimeout_seconds = 3600\nmax_attempts = 3\nretry_delay_seconds = 0\n"

/-- The canonical text of `document beta`. -/
@[irreducible]
def betaToml : String :=
  "[mirror]\nname = \"beta\"\nenabled = true\ndescription = \"\"\ntarget = \"pool\"\n\n" ++
    "[sync]\ntype = \"command\"\nprogram = \"/bin/true\"\nargs = []\n\n[runner]\ntype = \"process\"\n\n" ++
    "[run]\ntimeout_seconds = 3600\nmax_attempts = 3\nretry_delay_seconds = 0\n"

/-- The libraries on these two texts. The documents have no schedule to evaluate. -/
def vendor : Vendor where
  parseDuration := fun _ => .error "unknown duration"
  nextOccurrence := fun _ _ _ => .error "unknown expression"
  parseDocument := fun text =>
    if text = alphaToml then .ok (document alpha)
    else if text = betaToml then .ok (document beta)
    else .error "invalid document"
  scheduleHash := fun _ => "sha256:"
  specHash := fun spec => "sha256:" ++ spec.targetDir
  textHash := fun text =>
    if text = alphaToml then
      "sha256:1d6df5836b2a2752f76ef4f21cfa58d8540b405351da33ae0b2f826d254bf117"
    else if text = betaToml then
      "sha256:a90258b378371135fbb4bade0108ff8482ccb7eb28ed03e13bc66d04f6947fc5"
    else "sha256:" ++ text

/-- The canonical form of `document alpha` on a node. -/
def alphaOn (node : NodeName) : CanonicalMirror where
  ownerNode := node
  document := document alpha
  canonicalToml := alphaToml
  configHash := vendor.textHash alphaToml

/-- The bundle of one mirror. -/
def single (name : MirrorName) (mirror : CanonicalMirror)
    (named : mirror.document = document name)
    (parses : vendor.parseDocument mirror.canonicalToml = .ok mirror.document)
    (hashed : mirror.configHash = vendor.textHash mirror.canonicalToml) :
    CanonicalBundle vendor where
  mirrors := [(name, mirror)]
  bundleHash := "sha256:" ++ name.value
  ordered := by simp
  named := by simp [named, document]
  targetsSafe := by simp only [List.mem_singleton, forall_eq, named, document]; decide
  policiesBounded := by simp [named, document]
  targetsDisjoint := rfl
  parses := by simpa using parses
  hashed := by simpa using hashed

def alphaBundle (node : NodeName) : CanonicalBundle vendor :=
  single alpha (alphaOn node) rfl (if_pos rfl) rfl

/-- The agent of a node. -/
def agent : AgentProfile := ⟨"/srv/mirrors", none, []⟩

/-! An atomic mirror that runs every hour. -/

def gamma : MirrorName := ⟨"gamma", by decide⟩

def hourly : ScheduleConfig := .interval "3600s"

def timedDocument : MirrorDocument :=
  { document gamma with schedule := some hourly, publication := some .atomic }

/-- The canonical text of `timedDocument`. -/
@[irreducible]
def gammaToml : String :=
  "[mirror]\nname = \"gamma\"\nenabled = true\ndescription = \"\"\ntarget = \"pool\"\n\n" ++
    "[schedule]\ninterval = \"3600s\"\n\n" ++
    "[sync]\ntype = \"command\"\nprogram = \"/bin/true\"\nargs = []\n\n" ++
    "[publication]\nmode = \"atomic\"\n\n[runner]\ntype = \"process\"\n\n" ++
    "[run]\ntimeout_seconds = 3600\nmax_attempts = 3\nretry_delay_seconds = 0\n"

/-- The libraries on this text and this schedule. -/
def timedVendor : Vendor where
  parseDuration := fun text => if text = "3600s" then .ok (3600, 0) else .error "unknown duration"
  nextOccurrence := fun _ _ _ => .error "unknown expression"
  parseDocument := fun text =>
    if text = gammaToml then .ok timedDocument else .error "invalid document"
  scheduleHash := fun schedule =>
    if schedule = hourly then
      "sha256:aacb37baa27e9da9d6c91980296c88afdce06b8e7a84e96480653dcf7f315628"
    else "sha256:"
  specHash := fun spec => "sha256:" ++ spec.targetDir
  textHash := fun text =>
    if text = gammaToml then
      "sha256:079d244495d8818dde89111e736ed3c2dab04037b0fd198506ecaff705cfba23"
    else "sha256:" ++ text

/-- The bundle of `gamma` on a node. -/
def gammaBundle (node : NodeName) : CanonicalBundle timedVendor where
  mirrors := [(gamma, {
    ownerNode := node
    document := timedDocument
    canonicalToml := gammaToml
    configHash := timedVendor.textHash gammaToml })]
  bundleHash := "sha256:gamma"
  ordered := by simp
  named := by simp [timedDocument, document]
  targetsSafe := by simp only [List.mem_singleton, forall_eq, timedDocument, document]; decide
  policiesBounded := by simp [timedDocument, document]
  targetsDisjoint := rfl
  parses := by
    simp only [List.mem_singleton, forall_eq]
    exact if_pos rfl
  hashed := by simp

/-- The agent of a node that publishes atomically. -/
def atomicAgent : AgentProfile := ⟨"/srv/mirrors", some "/srv/publication", [atomicExchangeV1]⟩

/-- A report with nothing but its sequence and state. -/
def report (sequence : ℕ) (state : AttemptState) : AttemptEvent where
  eventSequence := sequence
  state := state
  agentInstanceId := "agent-1"
  acceptedAtMs := none
  startedAtMs := none
  finishedAtMs := none
  exitCode := none
  failureKind := none
  failureMessage := none

end Sample

/-- Running transactions one after another. -/
def StoreOp.runAll {vendor : Vendor} (db : Database) (operations : List (StoreOp vendor)) :
    Database :=
  operations.foldl (fun db operation => operation.run db) db

/-- Each of the transactions is allowed in the state it starts from. -/
def StoreOp.AllAllowed {vendor : Vendor} (allowed : Database → StoreOp vendor → Prop) :
    Database → List (StoreOp vendor) → Prop
  | _, [] => True
  | db, operation :: rest => allowed db operation ∧ AllAllowed allowed (operation.run db) rest

instance StoreOp.decidableAllAllowed {vendor : Vendor} {allowed : Database → StoreOp vendor → Prop}
    [decidable : ∀ db operation, Decidable (allowed db operation)] :
    ∀ (db : Database) (operations : List (StoreOp vendor)),
      Decidable (StoreOp.AllAllowed allowed db operations)
  | _, [] => .isTrue trivial
  | db, operation :: rest =>
      @instDecidableAnd _ _ (decidable db operation) (decidableAllAllowed (operation.run db) rest)

/-- Allowed transactions, one after another, are steps. -/
theorem StoreOp.steps_runAll {vendor : Vendor} {allowed : Database → StoreOp vendor → Prop}
    {db : Database} {operations : List (StoreOp vendor)}
    (permitted : StoreOp.AllAllowed allowed db operations) :
    Relation.ReflTransGen (StoreStep allowed) db (StoreOp.runAll db operations) := by
  induction operations generalizing db with
  | nil => exact .refl
  | cons operation rest ih => exact (ih permitted.2).head ⟨operation, permitted.1, rfl⟩

/-- Every list of transactions is a run. -/
theorem Reachable.runAll {vendor : Vendor} (operations : List (StoreOp vendor)) :
    Reachable vendor (StoreOp.runAll .empty operations) := by
  apply StoreOp.steps_runAll
  generalize Database.empty = db
  induction operations generalizing db with
  | nil => exact trivial
  | cons operation rest ih => exact ⟨trivial, ih _⟩

end LzuMirror
