import LzuMirror.Agent.Spool
import LzuMirror.Server.Following
import LzuMirror.Store.Absorption
import LzuMirror.Store.Binding
import LzuMirror.Store.Credentials

/-!
# The reports of the agents

The handler of an event (`event` in `apps/lmt-server/src/lib.rs`) as the three
transactions it makes: it authenticates the token, asks whether the attempt
belongs to the node of the credential, and applies the event. Handlers of any
number of agents interleave with each other, with the other transactions of the
store and with the issue and revocation of credentials.

A report changes nothing but its attempt, the run of it and the schedule of that
run's mirror, and only for the node that owns the run.
-/

namespace LzuMirror

/-! ## Replies -/

namespace Failure

def unauthorized : Failure := ⟨401, "unauthorized", "valid bearer token required"⟩

def internal : Failure := ⟨500, "internal", "internal server error"⟩

end Failure

/-- The variant name that `Debug` writes. -/
def AttemptState.debug : AttemptState → String
  | .queued => "Queued"
  | .accepted => "Accepted"
  | .running => "Running"
  | .succeeded => "Succeeded"
  | .failed => "Failed"
  | .timedOut => "TimedOut"
  | .cancelled => "Cancelled"
  | .interrupted => "Interrupted"
  | .rejected => "Rejected"

/-- `impl From<StoreError> for Failure`. -/
def StoreError.failure : StoreError → Failure
  | .revisionConflict current =>
      .conflict "config_revision_conflict"
        ("configuration revision conflict: current revision is " ++ toString current)
  | .mirrorBusy runId => .conflict "mirror_busy" ("mirror already has active run " ++ runId)
  | .mirrorNotFound => .notFound "mirror_not_found"
  | .mirrorIneligible => .conflict "mirror_ineligible" "mirror is not managed or enabled"
  | .agentBindingConflict _ _ =>
      .conflict "agent_binding_conflict" "Node is bound to another Agent installation"
  | .bindingReplacementUnsafe =>
      .conflict "binding_replacement_unsafe"
        "Node binding replacement may overlap dispatched work"
  | .credentialNotFound => .notFound "credential_not_found"
  | .attemptNotFound => .notFound "attempt_not_found"
  | .requestConflict =>
      .conflict "state_conflict" "request id was already used for another mirror"
  | .illegalTransition source target =>
      .conflict "state_conflict"
        ("illegal state transition from " ++ source.debug ++ " to " ++ target.debug)
  | .invalidConfig message => .bad "config_invalid" ("configuration is invalid: " ++ message)
  | .database | .worker _ => .internal

/-! ## The handler -/

section Requests

variable (rfc3339 : String → Option ℤ)

/-- `parse_time`, for the instants that RFC 3339 gives the texts. -/
def parseTime : Option String → Except Failure (Option ℤ)
  | none => .ok none
  | some text =>
      match rfc3339 text with
      | none => .error (.bad "invalid_timestamp" "RFC3339 required")
      | some instant => .ok (some instant)

/-- The event of a request. -/
def EventRequest.attemptEvent (request : EventRequest) : Except Failure AttemptEvent := do
  return {
    eventSequence := request.eventSequence
    state := request.state
    agentInstanceId := request.agentInstanceId
    acceptedAtMs := ← parseTime rfc3339 request.acceptedAt
    startedAtMs := ← parseTime rfc3339 request.startedAt
    finishedAtMs := ← parseTime rfc3339 request.finishedAt
    exitCode := request.exitCode
    failureKind := request.failureKind
    failureMessage := request.failureMessage }

variable {rfc3339}

/-- The server reads the sequence and the state as they were sent. -/
theorem EventRequest.attemptEvent_eq_ok {request : EventRequest} {event : AttemptEvent}
    (read : request.attemptEvent rfc3339 = .ok event) :
    event.eventSequence = request.eventSequence ∧ event.state = request.state := by
  unfold EventRequest.attemptEvent at read
  cases accepted : parseTime rfc3339 request.acceptedAt <;>
    cases started : parseTime rfc3339 request.startedAt <;>
      cases finished : parseTime rfc3339 request.finishedAt <;>
        simp only [accepted, started, finished, bind, Except.bind, pure, Except.pure,
          reduceCtorEq, Except.ok.injEq] at read
  subst read
  exact ⟨rfl, rfl⟩

end Requests

/-- `attempt_belongs_to_node`. -/
def Database.attemptBelongsToNode (db : Database) (key : String × ℕ) (node : String) : Bool :=
  db.attempts.any fun attempt => decide (attempt.key = key) &&
    db.runs.any fun run => decide (run.id = attempt.runId) && decide (run.ownerNode = node)

/-- A handler whose token was accepted. -/
structure EventHandler where
  node : String
  key : String × ℕ
  request : EventRequest
  -- `attempt_auth` has let it pass
  authorized : Bool

/-- The store, the credentials, the handlers at work, and the reports that were applied. -/
structure EventServer where
  db : Database
  credentials : CredentialStore
  handlers : ℕ → Option EventHandler
  applied : List (String × String × ℕ)

/-- The steps of the server. -/
inductive EventCommand (vendor : Vendor) where
  | arrive (slot : ℕ) (token : Option String) (key : String × ℕ) (request : EventRequest)
  | authorize (slot : ℕ)
  | apply (slot : ℕ) (now : ℤ)
  | drop (slot : ℕ)
  | transact (operation : StoreOp vendor)
  | credential (call : CredentialCall) (faults : ℕ → Bool)

namespace EventServer

/-- The server before anything has happened. -/
def init : EventServer := ⟨.empty, .empty, fun _ => none, []⟩

/-- The handler in a slot ends, or goes on. -/
def settle (server : EventServer) (slot : ℕ) (handler : Option EventHandler) : EventServer :=
  { server with handlers := Function.update server.handlers slot handler }

variable {vendor : Vendor} (tokenHash : String → String) (rfc3339 : String → Option ℤ)

/-- `agent`: the node whose active credential the token is. -/
def authenticate (server : EventServer) (token : Option String) : Option String :=
  (token.bind fun token => server.credentials.authenticateCredential (tokenHash token)).map (·.1)

/-- One step of the server, with the reply of the handler that it ends. -/
def exec (server : EventServer) :
    EventCommand vendor → Option (Except Failure ℕ) × EventServer
  | .arrive slot token key request =>
      match server.handlers slot with
      | some _ => (none, server)
      | none =>
          match server.authenticate tokenHash token with
          | none => (some (.error .unauthorized), server)
          | some node => (none, server.settle slot (some ⟨node, key, request, false⟩))
  | .authorize slot =>
      match server.handlers slot with
      | none => (none, server)
      | some handler =>
          if server.db.attemptBelongsToNode handler.key handler.node then
            (none, server.settle slot (some { handler with authorized := true }))
          else (some (.error (.notFound "attempt_not_found")), server.settle slot none)
  | .apply slot now =>
      match server.handlers slot with
      | none => (none, server)
      | some handler =>
          if handler.authorized then
            match handler.request.attemptEvent rfc3339 with
            | .error failure => (some (.error failure), server.settle slot none)
            | .ok event =>
                match server.db.applyEvent handler.key.1 handler.key.2 event now
                    (decideTerminal vendor) with
                | .error error => (some (.error error.failure), server.settle slot none)
                | .ok (result, db) =>
                    (some (.ok result.acceptedEventSequence),
                      { server.settle slot none with
                        db
                        applied := (handler.node, handler.key) :: server.applied })
          else (none, server)
  | .drop slot => (none, server.settle slot none)
  | .transact operation => (none, { server with db := operation.run server.db })
  | .credential call faults =>
      (none, { server with credentials := (call.run faults tokenHash server.credentials).2 })

end EventServer

/-- Events go through the handlers. -/
def EventCommand.Regular {vendor : Vendor} : EventCommand vendor → Prop
  | .transact (.applyEvent ..) => False
  | _ => True

/-- The servers reached by regular steps. -/
def EventServer.Reached (vendor : Vendor) (tokenHash : String → String)
    (rfc3339 : String → Option ℤ) (server : EventServer) : Prop :=
  Relation.ReflTransGen (fun before after => ∃ command : EventCommand vendor, command.Regular ∧
    (before.exec tokenHash rfc3339 command).2 = after) .init server

/-- The server after a list of steps. -/
def EventServer.runAll {vendor : Vendor} (tokenHash : String → String)
    (rfc3339 : String → Option ℤ) (server : EventServer)
    (commands : List (EventCommand vendor)) : EventServer :=
  commands.foldl (fun server command => (server.exec tokenHash rfc3339 command).2) server

theorem EventServer.Reached.runAll {vendor : Vendor} {tokenHash : String → String}
    {rfc3339 : String → Option ℤ} {server : EventServer} {commands : List (EventCommand vendor)}
    (reached : server.Reached vendor tokenHash rfc3339)
    (regular : ∀ command ∈ commands, command.Regular) :
    (server.runAll tokenHash rfc3339 commands).Reached vendor tokenHash rfc3339 := by
  induction commands generalizing server with
  | nil => exact reached
  | cons first rest ih =>
      refine ih (reached.tail ⟨first, regular first List.mem_cons_self, rfl⟩) ?_
      exact fun command listed => regular command (List.mem_cons_of_mem _ listed)

/-! ## What a report changes -/

/-- Nothing changes but one attempt, its run and the schedule of that run's mirror. -/
structure Database.ChangesOnly (before after : Database) (key : String × ℕ) : Prop where
  revision : after.revision = before.revision
  mirrors : after.mirrors = before.mirrors
  generations : after.generations = before.generations
  nodes : after.nodes = before.nodes
  attempts : ∀ attempt, attempt.key ≠ key → (attempt ∈ after.attempts ↔ attempt ∈ before.attempts)
  runs : ∀ run, run.id ≠ key.1 → (run ∈ after.runs ↔ run ∈ before.runs)
  schedules : ∀ row, (∀ run ∈ before.runs, run.id = key.1 → row.mirrorName ≠ run.mirrorName) →
    (row ∈ after.schedules ↔ row ∈ before.schedules)

namespace Database.ChangesOnly

variable {vendor : Vendor} {before middle after : Database} {key : String × ℕ} {now : ℤ}

theorem refl (db : Database) (key : String × ℕ) : db.ChangesOnly db key :=
  ⟨rfl, rfl, rfl, rfl, fun _ _ => Iff.rfl, fun _ _ => Iff.rfl, fun _ _ => Iff.rfl⟩

theorem trans (first : before.ChangesOnly middle key) (second : middle.ChangesOnly after key)
    (runs : ∀ run ∈ middle.runs, ∃ old ∈ before.runs, old.id = run.id ∧
      old.mirrorName = run.mirrorName) : before.ChangesOnly after key where
  revision := second.revision.trans first.revision
  mirrors := second.mirrors.trans first.mirrors
  generations := second.generations.trans first.generations
  nodes := second.nodes.trans first.nodes
  attempts attempt other :=
    (second.attempts attempt other).trans (first.attempts attempt other)
  runs run other := (second.runs run other).trans (first.runs run other)
  schedules row apart := by
    refine (second.schedules row fun run mem own => ?_).trans (first.schedules row apart)
    rcases runs run mem with ⟨old, oldMem, named, mirror⟩
    rw [← mirror]
    exact apart old oldMem (named.trans own)

/-- An update of runs that only matches the run of the attempt. -/
theorem of_runs {matching : RunRow → Bool} {set : RunRow → RunRow}
    {keeps : ∀ run, (set run).id = run.id}
    (own : ∀ run, matching run = true → run.id = key.1) :
    before.ChangesOnly { before with runs := before.runs.update matching set keeps } key where
  revision := rfl
  mirrors := rfl
  generations := rfl
  nodes := rfl
  attempts _ _ := Iff.rfl
  runs run other := by
    apply Table.mem_update_of_apart rfl
    · cases matched : matching run with
      | false => rfl
      | true => exact absurd (own run matched) other
    · rintro old matched rfl
      exact other ((keeps old).trans (own old matched))
  schedules _ _ := Iff.rfl

theorem of_rearm {mirror : String} {nextDue : ℤ}
    (own : ∃ run ∈ before.runs, run.id = key.1 ∧ run.mirrorName = mirror) :
    before.ChangesOnly (before.rearmSchedule mirror nextDue now) key where
  revision := rfl
  mirrors := rfl
  generations := rfl
  nodes := rfl
  attempts _ _ := Iff.rfl
  runs _ _ := Iff.rfl
  schedules row apart := by
    rcases own with ⟨run, mem, named, rfl⟩
    have other := apart run mem named
    apply Table.mem_update_of_apart rfl
    · simp [other]
    · rintro old matched rfl
      simp_all

theorem of_record {event : AttemptEvent} :
    before.ChangesOnly (before.recordEvent key event) key where
  revision := rfl
  mirrors := rfl
  generations := rfl
  nodes := rfl
  attempts attempt other := by
    apply Table.mem_update_of_apart rfl
    · simp [other]
    · rintro old matched rfl
      exact other (of_decide_eq_true matched)
  runs _ _ := Iff.rfl
  schedules _ _ := Iff.rfl

theorem of_decision {event : AttemptEvent} {mirror : String} {decision : TerminalDecision}
    (own : ∃ run ∈ before.runs, run.id = key.1 ∧ run.mirrorName = mirror) :
    before.ChangesOnly (before.applyDecision key.1 mirror event event.projection decision now)
      key := by
  unfold Database.applyDecision
  split
  · apply of_runs
    intro run matched
    simp only [Bool.and_eq_true, decide_eq_true_eq] at matched
    exact matched.1
  next state _ =>
    have finished : before.ChangesOnly (before.finishRun key.1 state
        event.projection.runStartedAtMs (event.projection.runFinishedAtMs.getD now) event) key := by
      apply of_runs
      intro run matched
      simp only [Bool.and_eq_true, decide_eq_true_eq] at matched
      exact matched.1
    dsimp only
    split
    · exact finished
    · refine finished.trans (of_rearm ?_) ?_
      · rcases own with ⟨run, mem, named, mirrored⟩
        refine ⟨_, List.mem_map.mpr ⟨run, mem, rfl⟩, ?_, ?_⟩ <;> split <;> assumption
      · intro run mem
        rcases Table.mem_of_map rfl mem with ⟨old, oldMem, rfl⟩
        refine ⟨old, oldMem, ?_⟩
        split <;> exact ⟨rfl, rfl⟩

/-- An event that is applied. -/
theorem of_applies {attempt : AttemptRow} {event : AttemptEvent}
    {result : AttemptEventApplyResult}
    (applies : before.Applies attempt event now (decideTerminal vendor) result after) :
    before.ChangesOnly after attempt.key := by
  cases applies with
  | known => exact .refl before _
  | recorded _ _ projects =>
      have recorded : before.ChangesOnly (before.recordEvent attempt.key event) attempt.key :=
        of_record
      refine recorded.trans ?_ fun run mem => ⟨run, mem, rfl, rfl⟩
      cases projects with
      | nothing => exact .refl _ _
      | start =>
          apply of_runs
          intro run matched
          simp only [Bool.and_eq_true, decide_eq_true_eq] at matched
          exact matched.1
      | decided _ sourced =>
          rcases Database.terminalSource_mirrorName sourced with ⟨run, found, mirrored⟩
          rcases Table.find?_eq_some_iff.mp found with ⟨mem, named⟩
          have own : ∃ run ∈ (before.recordEvent attempt.key event).runs,
              run.id = attempt.key.1 ∧ run.mirrorName = _ := ⟨run, mem, named, mirrored.symm⟩
          exact of_decision own

end Database.ChangesOnly

/-! ## Who may report -/

theorem Database.attemptBelongsToNode_iff {db : Database} {key : String × ℕ} {node : String} :
    db.attemptBelongsToNode key node = true ↔
      (∃ attempt ∈ db.attempts, attempt.key = key) ∧
        ∃ run ∈ db.runs, run.id = key.1 ∧ run.ownerNode = node := by
  simp only [Database.attemptBelongsToNode, Table.any_eq_true, Bool.and_eq_true,
    decide_eq_true_eq]
  constructor
  · rintro ⟨attempt, mem, rfl, run, runMem, named, owner⟩
    exact ⟨⟨attempt, mem, rfl⟩, run, runMem, named, owner⟩
  · rintro ⟨⟨attempt, mem, rfl⟩, run, runMem, named, owner⟩
    exact ⟨attempt, mem, rfl, run, runMem, named, owner⟩

/-- Runs keep their owners. -/
theorem Database.Persists.attemptBelongsToNode {db after : Database} {key : String × ℕ}
    {node : String} (persists : db.Persists after)
    (belongs : db.attemptBelongsToNode key node = true) :
    after.attemptBelongsToNode key node = true := by
  rw [Database.attemptBelongsToNode_iff] at belongs ⊢
  rcases belongs with ⟨⟨attempt, mem, keyed⟩, run, runMem, named, owner⟩
  rcases persists.attempts attempt mem with ⟨later, laterMem, follows⟩
  rcases persists.runs run runMem with ⟨laterRun, laterRunMem, runFollows⟩
  exact ⟨⟨later, laterMem, follows.key.trans keyed⟩, laterRun, laterRunMem,
    runFollows.id.trans named, runFollows.ownerNode.trans owner⟩

namespace EventServer

variable {vendor : Vendor} {tokenHash : String → String} {rfc3339 : String → Option ℤ}

@[simp]
theorem settle_db (server : EventServer) (slot : ℕ) (handler : Option EventHandler) :
    (server.settle slot handler).db = server.db := rfl

@[simp]
theorem settle_handlers_self (server : EventServer) (slot : ℕ) (handler : Option EventHandler) :
    (server.settle slot handler).handlers slot = handler :=
  Function.update_self ..

@[simp]
theorem settle_handlers_of_ne (server : EventServer) {slot other : ℕ}
    (handler : Option EventHandler) (apart : other ≠ slot) :
    (server.settle slot handler).handlers other = server.handlers other :=
  Function.update_of_ne apart ..

/-- The handlers that were let pass, and the reports that were applied, are the owners'. -/
structure Owned (server : EventServer) : Prop where
  handlers : ∀ slot handler, server.handlers slot = some handler → handler.authorized = true →
    server.db.attemptBelongsToNode handler.key handler.node = true
  applied : ∀ report ∈ server.applied,
    server.db.attemptBelongsToNode report.2 report.1 = true

theorem Owned.settle {server : EventServer} (owned : server.Owned) {slot : ℕ}
    {next : Option EventHandler}
    (passes : ∀ handler, next = some handler → handler.authorized = true →
      server.db.attemptBelongsToNode handler.key handler.node = true) :
    (server.settle slot next).Owned where
  handlers other handler found authorized := by
    by_cases same : other = slot
    · subst same
      simp only [settle_handlers_self] at found
      exact passes handler found authorized
    · simp only [settle_handlers_of_ne _ _ same] at found
      exact owned.handlers other handler found authorized
  applied := owned.applied

theorem Owned.persist {server : EventServer} (owned : server.Owned) {db : Database}
    (persists : server.db.Persists db) : { server with db }.Owned where
  handlers slot handler found authorized :=
    persists.attemptBelongsToNode (owned.handlers slot handler found authorized)
  applied report listed := persists.attemptBelongsToNode (owned.applied report listed)

theorem Owned.report {server : EventServer} (owned : server.Owned) {handler : EventHandler}
    (belongs : server.db.attemptBelongsToNode handler.key handler.node = true) :
    { server with applied := (handler.node, handler.key) :: server.applied }.Owned where
  handlers := owned.handlers
  applied := by
    rintro report listed
    rcases List.mem_cons.mp listed with rfl | listed
    · exact belongs
    · exact owned.applied report listed

/-- What a step may do. -/
structure Confines (before after : EventServer) (command : EventCommand vendor)
    (tokenHash : String → String) : Prop where
  -- the store is changed by a report for the owner of the run, and only about it
  changes : after.db = before.db ∨ (∃ operation, command = .transact operation) ∨
    ∃ slot now handler, command = .apply slot now ∧ before.handlers slot = some handler ∧
      before.db.attemptBelongsToNode handler.key handler.node = true ∧
        before.db.ChangesOnly after.db handler.key
  -- a handler starts with an active credential of its node
  arrivals : ∀ slot handler, after.handlers slot = some handler → before.handlers slot = none →
    ∃ token, ∃ row ∈ before.credentials.credentials, row.nodeName = handler.node ∧
      row.tokenHash = tokenHash token ∧ row.revokedAtMs = none

theorem Confines.of_same {before after : EventServer} {command : EventCommand vendor}
    (db : after.db = before.db) (arrivals : ∀ slot handler, after.handlers slot = some handler →
      before.handlers slot ≠ none) : before.Confines after command tokenHash where
  changes := .inl db
  arrivals slot handler found absent := absurd absent (arrivals slot handler found)

/-- A handler that goes on, or ends, was there before. -/
theorem settle_arrivals {server : EventServer} {slot : ℕ} {handler : EventHandler}
    {next : Option EventHandler} (present : server.handlers slot = some handler) :
    ∀ other later, (server.settle slot next).handlers other = some later →
      server.handlers other ≠ none := by
  intro other later found
  by_cases same : other = slot
  · subst same
    simp [present]
  · simp only [settle_handlers_of_ne _ _ same] at found
    simp [found]

/-- What is known of a server and the steps it takes. -/
theorem Owned.exec {server : EventServer} (owned : server.Owned) (command : EventCommand vendor)
    (regular : command.Regular) :
    (server.exec tokenHash rfc3339 command).2.Owned ∧
      server.Confines (server.exec tokenHash rfc3339 command).2 command tokenHash := by
  have idle : ∀ slot handler, server.handlers slot = some handler →
      server.handlers slot ≠ none := fun slot handler found => by simp [found]
  cases command with
  | arrive slot token key request =>
      simp only [EventServer.exec]
      split
      · exact ⟨owned, .of_same rfl idle⟩
      split
      · exact ⟨owned, .of_same rfl idle⟩
      next node authenticated =>
        refine ⟨owned.settle ?_, .inl rfl, ?_⟩
        · rintro handler ⟨⟩ ⟨⟩
        · intro other handler found absent
          by_cases same : other = slot
          · subst same
            simp only [settle_handlers_self, Option.some.injEq] at found
            subst found
            rw [EventServer.authenticate, Option.map_eq_some_iff] at authenticated
            rcases authenticated with ⟨credential, known, rfl⟩
            rcases Option.bind_eq_some_iff.mp known with ⟨text, _, active⟩
            rcases CredentialStore.authenticateCredential_eq_some.mp active with
              ⟨row, member, keyed, hashed, live⟩
            exact ⟨text, row, member, congrArg Prod.fst keyed, hashed, live⟩
          · simp only [settle_handlers_of_ne _ _ same, absent] at found
            cases found
  | authorize slot =>
      simp only [EventServer.exec]
      split
      · exact ⟨owned, .of_same rfl idle⟩
      next handler present =>
        split
        next belongs =>
          refine ⟨owned.settle ?_, .of_same rfl (settle_arrivals present)⟩
          rintro _ ⟨⟩ _
          exact belongs
        · refine ⟨owned.settle ?_, .of_same rfl (settle_arrivals present)⟩
          rintro _ ⟨⟩
  | apply slot now =>
      simp only [EventServer.exec]
      split
      · exact ⟨owned, .of_same rfl idle⟩
      next handler present =>
        have ended : (server.settle slot none).Owned := owned.settle (by rintro _ ⟨⟩)
        split
        next authorized =>
          have belongs := owned.handlers slot handler present authorized
          split
          · exact ⟨ended, .of_same rfl (settle_arrivals present)⟩
          next event _ =>
            split
            · exact ⟨ended, .of_same rfl (settle_arrivals present)⟩
            next result db applied =>
              rcases Database.applyEvent_eq_ok applied with ⟨attempt, mem, keyed, applies⟩
              have persists : server.db.Persists db := by
                have effect : (StoreOp.applyEvent handler.key.1 handler.key.2 event now :
                    StoreOp vendor).run server.db = db := by
                  simp only [StoreOp.run, applied, committed]
                exact effect ▸ StoreOp.persists _ _
              have later := persists.attemptBelongsToNode belongs
              refine ⟨(ended.persist persists).report later, .inr (.inr ?_), ?_⟩
              · have changes : server.db.ChangesOnly db handler.key := by
                  have applied := Database.ChangesOnly.of_applies applies
                  rwa [keyed] at applied
                exact ⟨slot, now, handler, rfl, present, belongs, changes⟩
              · intro other later found absent
                exact absurd absent (settle_arrivals present other later found)
        · exact ⟨owned, .of_same rfl idle⟩
  | drop slot =>
      refine ⟨owned.settle (by rintro _ ⟨⟩), .of_same rfl ?_⟩
      intro other handler found
      by_cases same : other = slot
      · subst same
        simp [EventServer.exec] at found
      · simp only [EventServer.exec, settle_handlers_of_ne _ _ same] at found
        simp [found]
  | transact operation =>
      exact ⟨owned.persist (operation.persists server.db), .inr (.inl ⟨operation, rfl⟩), fun slot
        handler found absent => absurd absent (idle slot handler found)⟩
  | credential call faults =>
      exact ⟨⟨owned.handlers, owned.applied⟩, .of_same rfl idle⟩

theorem Reached.owned {server : EventServer}
    (reached : server.Reached vendor tokenHash rfc3339) : server.Owned := by
  induction reached with
  | refl => exact ⟨by rintro _ _ ⟨⟩, by rintro _ ⟨⟩⟩
  | tail _ step ih =>
      rcases step with ⟨command, regular, rfl⟩
      exact (ih.exec command regular).1

end EventServer

/--
In every run of the server, whatever requests arrive and however their handlers
interleave, a report changes nothing but its attempt, the run of it and the
schedule of that run's mirror, it comes from the node that owns the run, and its
handler started with a credential that was active then.
-/
theorem reports_are_confined (vendor : Vendor) (tokenHash : String → String)
    (rfc3339 : String → Option ℤ) (server : EventServer)
    (reached : server.Reached vendor tokenHash rfc3339)
    (command : EventCommand vendor) (regular : command.Regular) :
    (∀ report ∈ server.applied, server.db.attemptBelongsToNode report.2 report.1 = true) ∧
      server.Confines (server.exec tokenHash rfc3339 command).2 command tokenHash :=
  ⟨reached.owned.applied, (reached.owned.exec command regular).2⟩

namespace Sample

/-- The first report of an accepted attempt. -/
def acceptedRequest : EventRequest where
  eventSequence := 1
  state := .accepted
  agentInstanceId := "agent-1"
  acceptedAt := some "2026-09-03T00:00:00Z"
  startedAt := none
  finishedAt := none
  exitCode := none
  failureKind := none
  failureMessage := none

/-- An attempt is dispatched to a node, whose agent reports it. -/
def reportCommands : List (EventCommand Sample.vendor) :=
  [.transact (.apply (alphaBundle nodeA) 0 1000),
    .transact (.createManualRun "alpha" "request-1" 2000 "run-1"),
    .transact (.pollAction "node-a" agent 3000 "run-2"),
    .credential (.issue "node-a" "credential-1" none "secret" 3000) noFault,
    .arrive 0 (some "secret") ("run-1", 1) acceptedRequest,
    .authorize 0,
    .apply 0 4000]

theorem reportCommands_regular : ∀ command ∈ reportCommands, command.Regular := by
  simp [reportCommands, EventCommand.Regular]

/-- The server that has applied it. -/
def reportedServer : EventServer :=
  EventServer.init.runAll id (fun _ => some 4000) reportCommands

/-- The report is sent once more. -/
def secondReport : EventCommand Sample.vendor :=
  .arrive 1 (some "secret") ("run-1", 1) acceptedRequest

end Sample

theorem reports_are_confined_accepted :
    Sample.reportedServer.applied = [("node-a", "run-1", 1)] ∧
      Sample.reportedServer.Confines
        (Sample.reportedServer.exec id (fun _ => some 4000) Sample.secondReport).2
        Sample.secondReport id :=
  ⟨by decide +kernel, (reports_are_confined Sample.vendor id (fun _ => some 4000)
    Sample.reportedServer (EventServer.Reached.runAll .refl Sample.reportCommands_regular)
    Sample.secondReport trivial).2⟩

end LzuMirror
