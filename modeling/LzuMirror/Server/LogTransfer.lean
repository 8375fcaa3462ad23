import LzuMirror.Agent.Disk
import LzuMirror.Agent.Service
import LzuMirror.Lib.Interleaving
import LzuMirror.Server.Logs

/-!
# The transfer of a log

The agent and the server together, for the log of one attempt. Any number of
the agent's tasks run `reconcile`, each with a copy of the record it has got at
some time, and the agent may crash. A request for the server may be lost, carried
out without its answer arriving, or carried out again at any later time, and each
time it may be cut off. Meanwhile the process writes its log, other tasks of the
agent write the record, and the server lets complete logs expire.

The premise of the transfer is that a log does not grow any more when there is
a record that says that the attempt has ended. The other tasks of the agent
leave the two log fields of the record as they are, or make a new record.
Locks are left out here, so that the tasks interleave in more ways than they can.
-/

namespace LzuMirror

/-- A log, and what the agent and the server have of it. -/
structure LogTransfer where
  log : List UInt8
  ended : Bool
  spool : Option SpoolRecord
  retired : Bool
  removed : Bool
  /-- Every record that has been written, or that a task has tried to write. -/
  copies : List SpoolRecord
  sent : List LogRequest
  store : LogStore
  planned : Bool
  deriving DecidableEq

namespace LogTransfer

def initial : LogTransfer where
  log := []
  ended := false
  spool := none
  retired := false
  removed := false
  copies := []
  sent := []
  store := ⟨none, none, false⟩
  planned := false

variable (state : LogTransfer)

def note (record : SpoolRecord) : LogTransfer :=
  { state with copies := record :: state.copies }

def write (record : SpoolRecord) : LogTransfer :=
  { state.note record with spool := some record }

/-- The first part of `spool::retire`: the record is renamed. -/
def retire : LogTransfer := { state with spool := none, retired := true }

/-- Its second part, which a restart makes up for: the log is removed. -/
def clear : LogTransfer := { state with removed := true }

def send (request : LogRequest) : LogTransfer :=
  { state with sent := request :: state.sent }

variable {state}

/-- What happens without the tasks that run `reconcile`. -/
inductive Happens : LogTransfer → LogTransfer → Prop where
  | grow {before : LogTransfer} (bytes : List UInt8) (running : before.ended = false) :
      Happens before { before with log := before.log ++ bytes }
  | finish {before : LogTransfer} : Happens before { before with ended := true }
  /-- Another task writes the record. -/
  | keep {before after : LogTransfer} {record : SpoolRecord}
      (progress : record.logOffset = 0 ∧ record.logCompleteAcknowledged = false ∨
        ∃ copy ∈ before.copies, record.logOffset = copy.logOffset ∧
          record.logCompleteAcknowledged = copy.logCompleteAcknowledged)
      (final : record.state.isTerminal = true → before.ended = true)
      (attempted : after = before.write record ∨ after = before.note record) :
      Happens before after
  | clear {before : LogTransfer} (renamed : before.retired = true) : Happens before before.clear
  | deliver {before : LogTransfer} {request : LogRequest} {store : LogStore}
      {rest : Program LogOp LogOp.Reply (Except Failure ℕ)} (received : request ∈ before.sent)
      (ran : Program.Reaches LogStore.Step (request.uploadLog.run, before.store) (rest, store)) :
      Happens before { before with store }
  | endAttempt {before : LogTransfer} :
      Happens before { before with store := { before.store with attemptEnded := true } }
  /-- `plan_log_maintenance` chooses among the eligible logs. -/
  | plan {before : LogTransfer} (eligible : before.store.isEligible = true)
      (fresh : before.store.isExpired = false) :
      Happens before { before with planned := true }
  | expire {before : LogTransfer} {store : LogStore}
      {rest : Program LogOp LogOp.Reply (Except Failure Unit)} (chosen : before.planned = true)
      (ran : Program.Reaches LogStore.Step (Logs.expireCandidate.run, before.store)
        (rest, store)) :
      Happens before { before with store }
  | sweep {before : LogTransfer} {store : LogStore}
      {rest : Program LogOp LogOp.Reply (Except Failure Unit)}
      (expired : before.store.isExpired = true)
      (ran : Program.Reaches LogStore.Step (Logs.removeFile.run, before.store) (rest, store)) :
      Happens before { before with store }

/-- What the agent reads of an answer: the status and the header with the next offset. -/
def answer : Except Failure ℕ → Option (Option ℕ)
  | .ok next => some (some next)
  | .error _ => none

/-- A request, with what happens until it is answered or given up. -/
def Requests (before : LogTransfer) (request : LogRequest)
    (reply : Except String (Option (Option ℕ))) (after : LogTransfer) : Prop :=
  ∃ middle, Relation.ReflTransGen Happens (before.send request) middle ∧
    ((Failed reply ∨ reply = .ok none) ∧ after = middle ∨
      ∃ result store, Program.Reaches LogStore.Step (request.uploadLog.run, middle.store)
        (.pure result, store) ∧ reply = .ok (answer result) ∧ after = { middle with store })

/-- What an operation of a task may do. -/
def Step : Program.Semantics AgentOp AgentOp.Reply LogTransfer
  | before, .readSpool, reply, after => after = before ∧
      (Failed reply ∨ ∃ record, before.spool = some record ∧ reply = .ok record)
  | before, .writeSpool record, reply, after => (reply = .ok () ∧ after = before.write record) ∨
      Failed reply ∧ (after = before.note record ∨ after = before.write record)
  | before, .retireSpool, reply, after =>
      (before.spool ≠ none ∧ reply = .ok () ∧ after = before.retire.clear) ∨
        Failed reply ∧ (after = before ∨
          before.spool ≠ none ∧ (after = before.retire ∨ after = before.retire.clear))
  | before, .logLength, reply, after => after = before ∧
      (Failed reply ∨ before.removed = false ∧ reply = .ok (some before.log.length) ∨
        (before.removed = true ∨ before.log = []) ∧ reply = .ok none)
  | before, .readLog offset length, reply, after => after = before ∧
      (Failed reply ∨ before.removed = false ∧ offset + length ≤ before.log.length ∧
        reply = .ok ((before.log.drop offset).take length))
  | before, .putLog offset bytes complete, reply, after =>
      before.Requests ⟨offset, bytes, complete⟩ reply after
  | before, _, _, after => after = before

variable {ι : Type} [DecidableEq ι]

/-- The tasks that run `reconcile`, with the transfer. -/
abbrev System (ι : Type) := Pool ι AgentOp AgentOp.Reply LogTransfer

/-- One step of the agent or of its surroundings. -/
inductive Move (config : AgentConfig) : System ι → System ι → Prop where
  | perform {pool after : System ι} (moved : Pool.Move (fun _ => Step) (fun _ _ => False) pool after) :
      Move config pool after
  | start {pool : System ι} {task : ι} {record : SpoolRecord}
      (idle : pool.tasks task = .pure ()) (copied : record ∈ pool.state.copies) :
      Move config pool
        ⟨Function.update pool.tasks task (discard ((Service.reconcile config).run record)),
          pool.state⟩
  | crash {pool : System ι} : Move config pool ⟨fun _ => .pure (), pool.state⟩
  | happen {pool : System ι} {after : LogTransfer} (happened : Happens pool.state after) :
      Move config pool ⟨pool.tasks, after⟩

/-- The systems in which the log has been transferred so far. -/
def Reachable (config : AgentConfig) (pool : System ι) : Prop :=
  Relation.ReflTransGen (Move config) ⟨fun _ => .pure (), initial⟩ pool

/--
A reader that starts at the beginning and goes on with the offset of the last
page: the offset, what it has received, and whether the last page was complete.
-/
inductive Follows (config : AgentConfig) : System ι → ℕ → List UInt8 → Bool → Prop where
  | start {pool : System ι} (reached : Reachable config pool) : Follows config pool 0 [] false
  | wait {pool after : System ι} {offset : ℕ} {received : List UInt8} {complete : Bool}
      (follows : Follows config pool offset received complete) (moved : Move config pool after) :
      Follows config after offset received complete
  | read {pool : System ι} {offset : ℕ} {received : List UInt8} {complete : Bool}
      {limit : Option ℕ} {page : LogPage} (follows : Follows config pool offset received complete)
      (read : pool.state.store.readLog offset limit = .ok page) :
      Follows config pool page.nextOffset (received ++ page.data) page.complete

/-! ## What the transfer keeps -/

/-- How a transfer goes on. -/
structure Grows (before after : LogTransfer) : Prop where
  log : before.log <+: after.log
  ended : before.ended = true → after.ended = true ∧ after.log = before.log
  store : before.store.Ages after.store
  copies : ∀ record ∈ before.copies, record ∈ after.copies

/-- A step that concerns neither the log nor the server. -/
theorem Grows.still {before after : LogTransfer} (log : after.log = before.log)
    (ended : after.ended = before.ended) (store : after.store = before.store)
    (copies : ∀ record ∈ before.copies, record ∈ after.copies) : before.Grows after where
  log := log ▸ List.prefix_refl _
  ended := fun isEnded => ⟨ended.trans isEnded, log⟩
  store := store ▸ .refl _
  copies := copies

theorem Grows.refl (state : LogTransfer) : state.Grows state := .still rfl rfl rfl fun _ => id

theorem Grows.trans {first second third : LogTransfer} (left : first.Grows second)
    (right : second.Grows third) : first.Grows third where
  log := left.log.trans right.log
  ended := by
    intro ended
    rcases left.ended ended with ⟨stillEnded, same⟩
    rcases right.ended stillEnded with ⟨finallyEnded, stillSame⟩
    exact ⟨finallyEnded, stillSame.trans same⟩
  store := left.store.trans right.store
  copies := fun record copied => right.copies record (left.copies record copied)

/-- What a record of the attempt may say about its log. -/
structure Admits (state : LogTransfer) (record : SpoolRecord) : Prop where
  offset : record.logOffset ≤ state.log.length
  final : record.state.isTerminal = true → state.ended = true
  complete : record.logCompleteAcknowledged = true → state.store.isComplete = true

/-- The invariant of the transfer. -/
structure Exact (state : LogTransfer) : Prop where
  store : state.store.Exact state.log state.ended
  sent : ∀ request ∈ state.sent, request.Genuine state.log state.ended state.store
  copies : ∀ record ∈ state.copies, state.Admits record
  spool : ∀ record, state.spool = some record → record ∈ state.copies
  retired : state.retired = true → state.store.isComplete = true
  removed : state.removed = true → state.retired = true
  planned : state.planned = true → state.store.isEligible = true

theorem exact_initial : initial.Exact where
  store := ⟨by rintro _ ⟨⟩, by rintro _ ⟨⟩, by rintro _ ⟨⟩, by rintro _ ⟨⟩, by rintro _ ⟨⟩⟩
  sent := by simp [initial]
  copies := by simp [initial]
  spool := by simp [initial]
  retired := by simp [initial]
  removed := by simp [initial]
  planned := by simp [initial]

variable {before after : LogTransfer} {record : SpoolRecord} {request : LogRequest}

theorem Grows.admits (grows : before.Grows after) (admits : before.Admits record) :
    after.Admits record where
  offset := admits.offset.trans grows.log.length_le
  final := fun final => (grows.ended (admits.final final)).1
  complete := fun complete => grows.store.complete (admits.complete complete)

theorem Grows.genuine (grows : before.Grows after)
    (genuine : request.Genuine before.log before.ended before.store) :
    request.Genuine after.log after.ended after.store where
  bytes := genuine.bytes.trans (grows.log.drop request.offset)
  complete := by
    intro final
    rcases genuine.complete final with ⟨ended, reaches | already⟩
    · rcases grows.ended ended with ⟨stillEnded, same⟩
      exact ⟨stillEnded, .inl (same ▸ reaches)⟩
    · exact ⟨(grows.ended ended).1, .inr (grows.store.complete already)⟩

/-- A store that is exact for a log is exact for the log as it goes on. -/
theorem Grows.exact_store (grows : before.Grows after) {store : LogStore}
    (exact : store.Exact before.log before.ended) : store.Exact after.log after.ended where
  file := fun bytes held => (exact.file bytes held).trans grows.log
  stored := fun row found =>
    ⟨(exact.stored row found).1.trans grows.log.length_le, (exact.stored row found).2⟩
  present := exact.present
  complete := by
    intro row found complete
    rcases exact.complete row found complete with ⟨ended, counted, whole⟩
    rcases grows.ended ended with ⟨stillEnded, same⟩
    rw [same]
    exact ⟨stillEnded, counted, whole⟩
  expired := exact.expired

theorem Grows.eligible (grows : before.Grows after)
    (eligible : before.store.isEligible = true) : after.store.isEligible = true := by
  rw [LogStore.isEligible, Bool.and_eq_true] at eligible ⊢
  exact ⟨grows.store.complete eligible.1, grows.store.attempt eligible.2⟩

/-- The log and the store may go on by themselves. -/
theorem Exact.advance (exact : before.Exact) {log : List UInt8} {ended : Bool} {store : LogStore}
    (grows : before.Grows { before with log, ended, store }) (stored : store.Exact log ended) :
    Exact { before with log, ended, store } where
  store := stored
  sent := fun request isSent => grows.genuine (exact.sent request isSent)
  copies := fun record copied => grows.admits (exact.copies record copied)
  spool := exact.spool
  retired := fun retired => grows.store.complete (exact.retired retired)
  removed := exact.removed
  planned := fun planned => grows.eligible (exact.planned planned)

/-- The store may go on by itself. -/
theorem Exact.serve (exact : before.Exact) {store : LogStore} (ages : before.store.Ages store)
    (stored : store.Exact before.log before.ended) :
    before.Grows { before with store } ∧ Exact { before with store } := by
  have grows : before.Grows { before with store } :=
    ⟨List.prefix_refl _, fun ended => ⟨ended, rfl⟩, ages, fun _ => id⟩
  exact ⟨grows, exact.advance grows stored⟩

theorem Grows.note (state : LogTransfer) (record : SpoolRecord) : state.Grows (state.note record) :=
  .still rfl rfl rfl fun _ => List.mem_cons_of_mem _

theorem Exact.note (exact : before.Exact) (admits : before.Admits record) :
    (before.note record).Exact where
  store := exact.store
  sent := exact.sent
  copies := by
    intro copy copied
    rcases List.mem_cons.mp copied with rfl | copied
    · exact (Grows.note before copy).admits admits
    · exact (Grows.note before record).admits (exact.copies copy copied)
  spool := fun copy stored => List.mem_cons_of_mem _ (exact.spool copy stored)
  retired := exact.retired
  removed := exact.removed
  planned := exact.planned

theorem Grows.write (state : LogTransfer) (record : SpoolRecord) :
    state.Grows (state.write record) :=
  .still rfl rfl rfl fun _ => List.mem_cons_of_mem _

theorem Exact.write (exact : before.Exact) (admits : before.Admits record) :
    (before.write record).Exact where
  store := exact.store
  sent := exact.sent
  copies := by
    intro copy copied
    rcases List.mem_cons.mp copied with rfl | copied
    · exact (Grows.write before copy).admits admits
    · exact (Grows.write before record).admits (exact.copies copy copied)
  spool := by
    rintro _ ⟨⟩
    exact List.mem_cons_self
  retired := exact.retired
  removed := exact.removed
  planned := exact.planned

theorem Exact.clear (exact : before.Exact) (renamed : before.retired = true) :
    before.Grows before.clear ∧ before.clear.Exact := by
  have grows : before.Grows before.clear :=
    .still rfl rfl rfl fun _ => id
  refine ⟨grows, { exact with copies := ?_, removed := fun _ => renamed }⟩
  exact fun record copied => grows.admits (exact.copies record copied)

theorem Exact.retire (exact : before.Exact) (complete : before.store.isComplete = true) :
    before.Grows before.retire ∧ before.retire.Exact := by
  have grows : before.Grows before.retire :=
    .still rfl rfl rfl fun _ => id
  refine ⟨grows, { exact with copies := ?_, spool := ?_, retired := fun _ => complete, removed := fun _ => rfl }⟩
  · exact fun record copied => grows.admits (exact.copies record copied)
  · rintro _ ⟨⟩

/-- A request of bytes of the log may be carried out any number of times. -/
theorem Exact.upload (exact : before.Exact)
    (genuine : request.Genuine before.log before.ended before.store) {store : LogStore}
    {rest : Program LogOp LogOp.Reply (Except Failure ℕ)}
    (ran : Program.Reaches LogStore.Step (request.uploadLog.run, before.store) (rest, store)) :
    (before.Grows { before with store } ∧ Exact { before with store }) ∧
      before.store.Continues store ∧
      ∀ next, rest = .pure (.ok next) → request.Achieves before.log before.store next store := by
  have runs := LogRequest.uploadLog_runs exact.store genuine
  rcases runs.of_reaches (fun _ => rfl) ⟨exact.store, .refl _⟩ ran with
    ⟨finished, stored, continues⟩
  refine ⟨exact.serve continues.ages stored, continues, ?_⟩
  rintro next rfl
  exact finished

/-- Whatever happens keeps the invariant. -/
theorem Happens.exact (happened : Happens before after) (exact : before.Exact) :
    before.Grows after ∧ after.Exact := by
  cases happened with
  | grow bytes running =>
      have grows : before.Grows { before with log := before.log ++ bytes } :=
        ⟨List.prefix_append _ _, by simp [running], .refl _, fun _ => id⟩
      exact ⟨grows, exact.advance grows (grows.exact_store exact.store)⟩
  | finish =>
      have grows : before.Grows { before with ended := true } :=
        ⟨List.prefix_refl _, fun _ => ⟨rfl, rfl⟩, .refl _, fun _ => id⟩
      exact ⟨grows, exact.advance grows (grows.exact_store exact.store)⟩
  | @keep _ record progress final attempted =>
      have admits : before.Admits record := by
        rcases progress with ⟨atStart, incomplete⟩ | ⟨copy, copied, sameOffset, sameComplete⟩
        · exact ⟨atStart ▸ Nat.zero_le _, final, by simp [incomplete]⟩
        · have known := exact.copies copy copied
          exact ⟨sameOffset ▸ known.offset, final, sameComplete ▸ known.complete⟩
      rcases attempted with rfl | rfl
      · exact ⟨.write before record, exact.write admits⟩
      · exact ⟨.note before record, exact.note admits⟩
  | clear renamed => exact exact.clear renamed
  | deliver received ran => exact (exact.upload (exact.sent _ received) ran).1
  | endAttempt =>
      refine exact.serve ⟨id, fun expired => ⟨expired, .inl rfl⟩, fun _ => rfl⟩ ?_
      exact ⟨exact.store.file, exact.store.stored, exact.store.present, exact.store.complete,
        exact.store.expired⟩
  | plan eligible fresh =>
      have grows : before.Grows { before with planned := true } :=
        .still rfl rfl rfl fun _ => id
      refine ⟨grows, { exact with copies := ?_, planned := fun _ => eligible }⟩
      exact fun record copied => grows.admits (exact.copies record copied)
  | expire chosen ran =>
      have runs := LogStore.expireCandidate_runs exact.store (exact.planned chosen)
      rcases runs.of_reaches (fun _ => rfl) ⟨exact.store, .refl _⟩ ran with ⟨_, stored, ages⟩
      exact exact.serve ages stored
  | sweep expired ran =>
      have runs := LogStore.removeFile_runs exact.store expired
      rcases runs.of_reaches (fun _ => rfl) ⟨exact.store, .refl _⟩ ran with ⟨_, stored, ages⟩
      exact exact.serve ages stored

/-- What happens while a request is under way. -/
theorem exact_of_happening (exact : before.Exact)
    (happening : Relation.ReflTransGen Happens before after) :
    before.Grows after ∧ after.Exact := by
  induction happening with
  | refl => exact ⟨.refl before, exact⟩
  | tail _ happened ih =>
      rcases happened.exact ih.2 with ⟨grows, stillExact⟩
      exact ⟨ih.1.trans grows, stillExact⟩

/-! ## The tasks -/

/-- A task relies on the others to keep the invariant, and the transfer to go on. -/
def setting : Setting LogTransfer where
  step := Step
  rely := Grows
  guarantee := Grows
  invariant := Exact

open Agent

section Rules

variable {state : LogTransfer}

/-- The rule for one operation: `known` is what the task knows before it. -/
theorem holds_operation {operation : AgentOp} {known : LogTransfer → Prop}
    {post : Except String operation.Reply → SpoolRecord → LogTransfer → Prop}
    (stable : ∀ before after, known before → before.Grows after → known after)
    (knows : known state)
    (steps : ∀ before reply after, known before → before.Exact → Step before operation reply after →
      (before.Grows after ∧ after.Exact) ∧ post (.ok reply) record after) :
    Holds setting (Agent.perform operation) post record state := by
  refine holds_perform ?_
  intro before reply after grows exact performed
  exact steps before reply after (stable _ _ knows grows) exact performed

/-- The rule for an operation that leaves the transfer as it is. -/
theorem holds_aside {operation : AgentOp} {known : LogTransfer → Prop}
    {post : Except String operation.Reply → SpoolRecord → LogTransfer → Prop}
    (aside : ∀ before reply after, Step before operation reply after → after = before)
    (stable : ∀ before after, known before → before.Grows after → known after)
    (knows : known state)
    (next : ∀ reply after, known after → after.Exact → Step after operation reply after →
      post (.ok reply) record after) :
    Holds setting (Agent.perform operation) post record state := by
  refine holds_operation stable knows ?_
  intro before reply after known exact performed
  have same := aside before reply after performed
  subst same
  exact ⟨⟨.refl _, exact⟩, next reply _ known exact performed⟩

/-- The copy of a task is one of the records. -/
def Copied (record : SpoolRecord) (state : LogTransfer) : Prop := record ∈ state.copies

theorem Copied.stable (before after : LogTransfer) (copied : Copied record before)
    (grows : before.Grows after) : Copied record after :=
  grows.copies record copied

theorem holds_write {next : SpoolRecord} {known : LogTransfer → Prop}
    {post : Except String Unit → SpoolRecord → LogTransfer → Prop}
    (stable : ∀ before after, known before → before.Grows after → known after)
    (knows : known state)
    (admits : ∀ before, known before → before.Exact → before.Admits next)
    (ok : ∀ after, known after → Copied next after → post (.ok ()) record after)
    (error : ∀ message after, known after → post (.error message) record after) :
    Holds setting (Agent.write next) post record state := by
  refine holds_bind.mpr (holds_operation stable knows ?_)
  rintro before reply after known exact performed
  have admitted := admits before known exact
  rcases performed with ⟨rfl, rfl⟩ | ⟨⟨message, rfl⟩, rfl | rfl⟩
  · have later := stable _ _ known (Grows.write before next)
    exact ⟨⟨.write before next, exact.write admitted⟩, ok _ later List.mem_cons_self⟩
  · have later := stable _ _ known (Grows.note before next)
    exact ⟨⟨.note before next, exact.note admitted⟩, error message _ later⟩
  · have later := stable _ _ known (Grows.write before next)
    exact ⟨⟨.write before next, exact.write admitted⟩, error message _ later⟩

/-- The end of a critical section. -/
theorem release_holds {α : Type} {lock : AgentLock} {result : Except String α}
    (copied : Copied record state) :
    Holds setting (do Agent.perform (.release lock); ofExcept result)
      (fun _ copy after => Copied copy after) record state := by
  refine holds_bind.mpr (holds_aside (fun _ _ _ same => same) Copied.stable copied ?_)
  intro _ after stillCopied _ _
  exact then_ok.mpr (holds_ofExcept.mpr stillCopied)

/-- A change of the latest record keeps the invariant when it keeps what a record may say. -/
theorem updateLatest_holds {change : SpoolRecord → SpoolRecord} {known : LogTransfer → Prop}
    (stable : ∀ before after, known before → before.Grows after → known after)
    (knows : known state) (copied : Copied record state)
    (admits : ∀ latest before, known before → before.Admits latest →
      before.Admits (change latest)) :
    Holds setting (Service.updateLatest change) (fun _ copy after => Copied copy after) record
      state := by
  unfold Service.updateLatest locked
  have stay : ∀ before after, known before ∧ Copied record before → before.Grows after →
      known after ∧ Copied record after :=
    fun before after held grows => ⟨stable _ _ held.1 grows, held.2.stable _ _ grows⟩
  refine holds_bind.mpr (holds_aside (fun _ _ _ same => same) stay ⟨knows, copied⟩ ?_)
  intro _ granted held _ _
  refine then_ok.mpr (holds_bind.mpr (holds_attempt.mpr (holds_bind.mpr
    (holds_aside (fun _ _ _ performed => performed.1) stay held ?_))))
  rintro _ found held exact ⟨_, ⟨message, rfl⟩ | ⟨latest, stored, rfl⟩⟩
  · refine then_ok.mpr (holds_bind.mpr (holds_ofExcept.mpr (then_error.mpr ?_)))
    exact then_ok.mpr (release_holds held.2)
  · refine then_ok.mpr (holds_bind.mpr (holds_ofExcept.mpr (then_ok.mpr ?_)))
    have latestCopied : Copied latest found := exact.spool latest stored
    have stayLatest : ∀ before after, (known before ∧ Copied record before) ∧
        Copied latest before → before.Grows after →
        (known after ∧ Copied record after) ∧ Copied latest after :=
      fun before after held grows => ⟨stay _ _ held.1 grows, held.2.stable _ _ grows⟩
    refine holds_bind.mpr (holds_write stayLatest ⟨held, latestCopied⟩ ?_ ?_ ?_)
    · intro before held exact
      exact admits latest before held.1.1 (exact.copies latest held.2)
    · intro after held changed
      exact then_ok.mpr (holds_setCopy.mpr (then_ok.mpr (release_holds changed)))
    · intro message after held
      exact then_error.mpr (then_ok.mpr (release_holds held.1.2))

theorem reconcileEvent_holds {config : AgentConfig} (copied : Copied record state) :
    Holds setting (Service.reconcileEvent config) (fun _ copy after => Copied copy after) record
      state := by
  unfold Service.reconcileEvent
  refine holds_bind.mpr (holds_copy.mpr (then_ok.mpr ?_))
  split
  · refine holds_bind.mpr (holds_aside (fun _ _ _ same => same) Copied.stable copied ?_)
    intro answer after stillCopied _ _
    refine then_ok.mpr (holds_bind.mpr (holds_ofExcept.mpr ?_))
    rcases answer with message | accepted
    · exact stillCopied
    refine then_ok.mpr ?_
    split
    · refine updateLatest_holds (fun _ _ _ _ => trivial) trivial stillCopied ?_
      exact fun latest before _ admits => ⟨admits.offset, admits.final, admits.complete⟩
    · exact stillCopied
  · exact copied

/-- What a task knows after it has asked for the length of the log. -/
structure Measured (record : SpoolRecord) (length : ℕ) (state : LogTransfer) : Prop where
  copied : Copied record state
  final : record.state.isTerminal = true → state.ended = true ∧
    (length = state.log.length ∨ state.store.isComplete = true)

theorem Measured.stable {length : ℕ} (before after : LogTransfer)
    (measured : Measured record length before) (grows : before.Grows after) :
    Measured record length after where
  copied := measured.copied.stable _ _ grows
  final := by
    intro terminal
    rcases measured.final terminal with ⟨ended, whole | already⟩
    · rcases grows.ended ended with ⟨stillEnded, same⟩
      exact ⟨stillEnded, .inl (same ▸ whole)⟩
    · exact ⟨(grows.ended ended).1, .inr (grows.store.complete already)⟩

/-- What it knows after it has read a chunk. -/
structure Chunked (record : SpoolRecord) (length remaining : ℕ) (bytes : List UInt8)
    (state : LogTransfer) : Prop extends Measured record length state where
  chunk : bytes <+: state.log.drop record.logOffset
  count : bytes.length = remaining

theorem Chunked.stable {length remaining : ℕ} {bytes : List UInt8} (before after : LogTransfer)
    (chunked : Chunked record length remaining bytes before) (grows : before.Grows after) :
    Chunked record length remaining bytes after where
  toMeasured := chunked.toMeasured.stable _ _ grows
  chunk := chunked.chunk.trans (grows.log.drop _)
  count := chunked.count

theorem nextChunk_holds {length remaining : ℕ} (measured : Measured record length state) :
    Holds setting (Service.nextChunk record.logOffset remaining)
      (fun result copy after => copy = record ∧ match result with
        | .ok bytes => Chunked record length remaining bytes after
        | .error _ => Copied record after) record state := by
  unfold Service.nextChunk
  split
  next isEmpty =>
    exact ⟨rfl, measured, List.nil_prefix, isEmpty.symm⟩
  · refine holds_bind.mpr (holds_aside (fun _ _ _ performed => performed.1) Measured.stable
      measured ?_)
    rintro _ after measured exact ⟨_, ⟨message, rfl⟩ | ⟨_, short, rfl⟩⟩
    · exact then_ok.mpr (holds_ofExcept.mpr ⟨rfl, measured.copied⟩)
    · refine then_ok.mpr (holds_ofExcept.mpr ⟨rfl, measured, List.take_prefix _ _, ?_⟩)
      rw [List.length_take, List.length_drop]
      omega

/-- The request that `reconcile` makes of a chunk. -/
theorem Chunked.genuine {length remaining : ℕ} {bytes : List UInt8}
    (chunked : Chunked record length remaining bytes state) :
    LogRequest.Genuine state.log state.ended state.store
      ⟨record.logOffset, bytes, record.state.isTerminal &&
        decide (record.logOffset + remaining = length)⟩ where
  bytes := chunked.chunk
  complete := by
    intro final
    rw [Bool.and_eq_true, decide_eq_true_eq] at final
    rcases chunked.final final.1 with ⟨ended, whole | already⟩
    · refine ⟨ended, .inl ?_⟩
      simp only [chunked.count]
      exact final.2.trans whole
    · exact ⟨ended, .inr already⟩

theorem Grows.send (state : LogTransfer) (request : LogRequest) :
    state.Grows (state.send request) :=
  .still rfl rfl rfl fun _ => id

theorem Exact.send (exact : before.Exact)
    (genuine : request.Genuine before.log before.ended before.store) :
    (before.send request).Exact where
  store := exact.store
  sent := by
    intro other isSent
    rcases List.mem_cons.mp isSent with rfl | isSent
    · exact genuine
    · exact exact.sent other isSent
  copies := fun copy copied => (Grows.send before request).admits (exact.copies copy copied)
  spool := exact.spool
  retired := exact.retired
  removed := exact.removed
  planned := exact.planned

/-- What a task knows of an answer. -/
structure Acknowledged (next : ℕ) (final : Bool) (state : LogTransfer) : Prop where
  within : next ≤ state.log.length
  complete : final = true → state.store.isComplete = true

theorem Acknowledged.stable {next : ℕ} {final : Bool} (before after : LogTransfer)
    (acknowledged : Acknowledged next final before) (grows : before.Grows after) :
    Acknowledged next final after where
  within := acknowledged.within.trans grows.log.length_le
  complete := fun isFinal => grows.store.complete (acknowledged.complete isFinal)

/-- A request keeps the invariant; an answer to it is one of the server's. -/
theorem Requests.exact {reply : Except String (Option (Option ℕ))}
    (requests : before.Requests request reply after) (exact : before.Exact)
    (genuine : request.Genuine before.log before.ended before.store) :
    (before.Grows after ∧ after.Exact) ∧
      ∀ header, reply = .ok (some header) → ∃ next, header = some next ∧
        Acknowledged next request.complete after := by
  rcases requests with ⟨middle, happening, answered⟩
  rcases exact_of_happening (exact.send genuine) happening with ⟨grows, stillExact⟩
  have fromStart := (Grows.send before request).trans grows
  rcases answered with ⟨unanswered, rfl⟩ | ⟨result, store, ran, rfl, rfl⟩
  · refine ⟨⟨fromStart, stillExact⟩, ?_⟩
    rintro header rfl
    rcases unanswered with ⟨message, answered⟩ | answered <;> cases answered
  · rcases stillExact.upload (fromStart.genuine genuine) ran with
      ⟨⟨grows, finallyExact⟩, _, achieves⟩
    refine ⟨⟨fromStart.trans grows, finallyExact⟩, ?_⟩
    rintro header answered
    rcases result with failure | next
    · cases answered
    · cases answered
      exact ⟨next, rfl, (achieves next rfl).within, (achieves next rfl).complete⟩

theorem reconcileLog_holds (copied : Copied record state) :
    Holds setting Service.reconcileLog (fun _ copy after => Copied copy after) record state := by
  unfold Service.reconcileLog
  refine holds_bind.mpr (holds_aside (fun _ _ _ performed => performed.1) Copied.stable copied ?_)
  rintro answer middle stillCopied exact ⟨_, answered⟩
  refine then_ok.mpr (holds_bind.mpr (holds_ofExcept.mpr ?_))
  rcases answer with message | length
  · exact stillCopied
  have measured : Measured record (length.getD 0) middle := by
    refine ⟨stillCopied, fun terminal => ⟨(exact.copies record stillCopied).final terminal, ?_⟩⟩
    rcases answered with ⟨_, ⟨⟩⟩ | ⟨_, ⟨⟩⟩ | ⟨removed | isEmpty, ⟨⟩⟩
    · exact .inl rfl
    · exact .inr (exact.retired (exact.removed removed))
    · simp [isEmpty]
  refine then_ok.mpr (holds_bind.mpr (holds_copy.mpr (then_ok.mpr ?_)))
  generalize length.getD 0 = length at measured ⊢
  split
  · exact stillCopied
  split
  · refine holds_bind.mpr ((nextChunk_holds measured).imp ?_)
    rintro (message | bytes) copy after ⟨rfl, read⟩
    · exact read
    refine then_ok.mpr (holds_bind.mpr (holds_operation Chunked.stable read ?_))
    rintro before reply after chunked exact requests
    rcases Requests.exact requests exact chunked.genuine with ⟨kept, achieved⟩
    refine ⟨kept, ?_⟩
    refine then_ok.mpr (holds_bind.mpr (holds_ofExcept.mpr ?_))
    have finallyCopied := chunked.copied.stable _ _ kept.1
    rcases reply with message | _ | header
    · exact finallyCopied
    · exact finallyCopied
    rcases achieved header rfl with ⟨next, rfl, answered⟩
    refine then_ok.mpr (updateLatest_holds Acknowledged.stable answered finallyCopied ?_)
    intro latest state acknowledged admits
    refine ⟨max_le admits.offset acknowledged.within, admits.final, fun complete => ?_⟩
    rcases Bool.or_eq_true_iff.mp complete with already | final
    · exact admits.complete already
    · exact acknowledged.complete final
  · exact stillCopied

theorem retireIfReady_holds (copied : Copied record state) :
    Holds setting Service.retireIfReady (fun _ copy after => Copied copy after) record state := by
  unfold Service.retireIfReady
  refine holds_bind.mpr (holds_copy.mpr (then_ok.mpr ?_))
  split
  next ready =>
    refine holds_bind.mpr (holds_operation Copied.stable copied ?_)
    rintro before reply after stillCopied exact performed
    have acknowledged : record.logCompleteAcknowledged = true := by
      simp only [SpoolRecord.readyForCleanup, Bool.and_eq_true] at ready
      exact ready.2
    have retire := exact.retire ((exact.copies record stillCopied).complete acknowledged)
    have clear := retire.2.clear rfl
    have cleared := And.intro (retire.1.trans clear.1) clear.2
    have kept : before.Grows after ∧ after.Exact := by
      rcases performed with ⟨_, _, rfl⟩ | ⟨_, rfl | ⟨_, rfl | rfl⟩⟩
      · exact cleared
      · exact ⟨.refl _, exact⟩
      · exact retire
      · exact cleared
    exact ⟨kept, then_ok.mpr (holds_ofExcept.mpr (stillCopied.stable _ _ kept.1))⟩
  next => exact copied

theorem reconcile_holds {config : AgentConfig} (copied : Copied record state) :
    Holds setting (Service.reconcile config) (fun _ copy after => Copied copy after) record
      state := by
  unfold Service.reconcile
  refine holds_bind.mpr ((reconcileEvent_holds copied).imp ?_)
  rintro (message | _) copy after stillCopied
  · exact stillCopied
  refine then_ok.mpr (holds_bind.mpr ((reconcileLog_holds stillCopied).imp ?_))
  rintro (message | _) copy after finallyCopied
  · exact finallyCopied
  exact then_ok.mpr (retireIfReady_holds finallyCopied)

end Rules

/-! ## Whole transfers -/

section Systems

variable {ι : Type} [DecidableEq ι] {config : AgentConfig} {pool later : System ι}

/-- The transfer is exact and every task keeps it so. -/
abbrev Secure (pool : System ι) : Prop :=
  pool.Secure (fun _ => Step) (fun _ => Grows) (fun _ => Grows) Exact (fun _ _ => True)

omit [DecidableEq ι] in
theorem secure_initial : Secure (⟨fun _ => .pure (), initial⟩ : System ι) :=
  ⟨exact_initial, fun _ => trivial⟩

theorem reconcile_safe {state : LogTransfer} (copied : Copied record state) :
    (discard ((Service.reconcile config).run record) : AgentProgram Unit).Safe Step Grows Grows
      Exact (fun _ _ => True) state :=
  Program.safe_bind.mpr (Program.Safe.imp (reconcile_holds copied) fun _ _ _ => trivial)

/-- A step of the system keeps the transfer secure. -/
theorem Secure.step (secure : Secure pool) (moved : Move config pool later) :
    Secure later ∧ pool.state.Grows later.state := by
  cases moved with
  | perform moved =>
      constructor
      · exact secure.move (fun _ => .refl) (fun _ _ _ _ => .trans) (fun _ _ _ _ _ => trivial)
          (fun _ _ _ _ _ _ grows => grows) (fun _ _ _ started => started.elim) moved
      · cases moved with
        | @perform task operation next reply state running performed =>
            have safe := secure.safe task
            rw [running] at safe
            exact (safe _ _ _ (.refl _) secure.valid performed).1.1
        | start _ started => exact started.elim
  | @start task record idle copied =>
      refine ⟨⟨secure.valid, fun other => ?_⟩, .refl _⟩
      by_cases same : other = task
      · subst same
        simpa using reconcile_safe copied
      · simpa only [Function.update_of_ne same] using secure.safe other
  | crash => exact ⟨⟨secure.valid, fun _ => trivial⟩, .refl _⟩
  | happen happened =>
      rcases happened.exact secure.valid with ⟨grows, exact⟩
      refine ⟨⟨exact, fun task => ?_⟩, grows⟩
      exact (secure.safe task).stable (fun _ _ _ => .trans) (fun _ _ _ _ _ => trivial) grows

theorem Secure.steps (secure : Secure pool) (moves : Relation.ReflTransGen (Move config) pool later) :
    Secure later ∧ pool.state.Grows later.state := by
  induction moves with
  | refl => exact ⟨secure, .refl _⟩
  | tail _ moved ih =>
      rcases ih.1.step moved with ⟨stillSecure, grows⟩
      exact ⟨stillSecure, ih.2.trans grows⟩

theorem Reachable.secure (reached : Reachable config pool) : Secure pool :=
  (secure_initial.steps reached).1

/-- A reader has the log up to its offset. -/
theorem Follows.received {offset : ℕ} {received : List UInt8} {complete : Bool}
    (follows : Follows config pool offset received complete) :
    Secure pool ∧ offset ≤ pool.state.log.length ∧ received = pool.state.log.take offset ∧
      (complete = true → pool.state.ended = true ∧ offset = pool.state.log.length) := by
  induction follows with
  | start reached => exact ⟨reached.secure, Nat.zero_le _, rfl, by rintro ⟨⟩⟩
  | wait _ moved ih =>
      rcases ih with ⟨secure, inside, rfl, told⟩
      rcases secure.step moved with ⟨stillSecure, grows⟩
      refine ⟨stillSecure, inside.trans grows.log.length_le, ?_, fun complete => ?_⟩
      · rcases grows.log with ⟨rest, same⟩
        rw [← same, List.take_append_of_le_length inside]
      · rcases told complete with ⟨ended, last⟩
        rcases grows.ended ended with ⟨stillEnded, same⟩
        exact ⟨stillEnded, same ▸ last⟩
  | read _ read ih =>
      rcases ih with ⟨secure, inside, rfl, _⟩
      rcases secure.valid.store.readLog inside read with ⟨continued, _, stillInside, told⟩
      exact ⟨secure, stillInside, continued, told⟩

/-- The log has been transferred exactly so far. -/
structure Transferred (config : AgentConfig) (pool : System ι) : Prop where
  file : ∀ bytes, pool.state.store.file = some bytes → bytes <+: pool.state.log
  stored : ∀ row, pool.state.store.metadata = some row →
    (row.expiredAtMs = none → pool.state.store.file.isSome = true) ∧
      ∀ bytes, pool.state.store.file = some bytes → row.storedBytes ≤ bytes.length
  /-- An upload of a log that has not expired answers with the length of the file. -/
  next : pool.state.store.isExpired = false → ∀ request ∈ pool.state.sent, ∀ next store,
    Program.Reaches LogStore.Step (request.uploadLog.run, pool.state.store)
      (.pure (.ok next), store) → ∃ bytes, store.file = some bytes ∧ next = bytes.length
  complete : ∀ row, pool.state.store.metadata = some row → row.complete = true →
    pool.state.ended = true ∧ ∀ bytes, pool.state.store.file = some bytes → bytes = pool.state.log
  offset : ∀ record, pool.state.spool = some record → record.logOffset ≤ pool.state.log.length
  reader : ∀ offset received complete, Follows config pool offset received complete →
    received.length = offset ∧ received <+: pool.state.log ∧
      (complete = true → pool.state.ended = true ∧ received = pool.state.log)
  /-- An upload of an expired log changes nothing, wherever it is cut off. -/
  expired : pool.state.store.isExpired = true → ∀ request ∈ pool.state.sent, ∀ rest store,
    Program.Reaches LogStore.Step (request.uploadLog.run, pool.state.store) (rest, store) →
      store = pool.state.store
  removed : pool.state.store.isExpired = true → pool.state.store.file = none →
    ∀ later, Relation.ReflTransGen (Move config) pool later → later.state.store.file = none

/--
Whatever requests are lost, repeated or cut off, whatever tasks and crashes
interleave, the log is transferred exactly.
-/
theorem log_transfer_exact (reached : Reachable config pool) : Transferred config pool := by
  have secure := reached.secure
  have exact := secure.valid
  refine ⟨exact.store.file, ?_, ?_, ?_, ?_, ?_, ?_, ?_⟩
  · exact fun row found => ⟨exact.store.present row found, (exact.store.stored row found).2⟩
  · intro fresh request isSent next store ran
    rcases (exact.upload (exact.sent request isSent) ran).2.2 next rfl |>.length fresh with
      ⟨bytes, held, counted⟩
    exact ⟨bytes, held, counted.symm⟩
  · intro row found complete
    rcases exact.store.complete row found complete with ⟨ended, _, whole⟩
    exact ⟨ended, whole⟩
  · exact fun record stored => (exact.copies record (exact.spool record stored)).offset
  · intro offset received complete follows
    rcases follows.received with ⟨_, inside, rfl, told⟩
    refine ⟨List.length_take_of_le inside, List.take_prefix _ _, fun isComplete => ?_⟩
    rcases told isComplete with ⟨ended, rfl⟩
    exact ⟨ended, List.take_length⟩
  · intro expired request isSent rest store ran
    exact (exact.upload (exact.sent request isSent) ran).2.1.expired expired
  · intro expired gone later moves
    rcases (secure.steps moves).2.store.expired expired with ⟨_, same | gone'⟩
    · exact same.trans gone
    · exact gone'

end Systems

namespace Sample

/-- A server whose writes stop after `written` bytes, if that is given. -/
def serve (written : Option ℕ) (store : LogStore) :
    (operation : LogOp) → operation.Reply × LogStore
  | .logMetadata => (.ok store.metadata, store)
  | .fileLength => (.ok (store.file.getD []).length, store)
  | .readExact offset length =>
      if offset + length ≤ (store.file.getD []).length then
        (.ok (((store.file.getD []).drop offset).take length), store)
      else (.error (.io "failed to fill whole buffer"), store)
  | .openFile => (.ok (), store.openFile)
  | .appendFile bytes =>
      match written with
      | none => (.ok (), store.appendFile bytes)
      | some count => (.error (.io "interrupted"), store.appendFile (bytes.take count))
  | .updateLogMetadata storedBytes complete now =>
      (.ok (), store.updateLogMetadata storedBytes complete now)
  | .markLogExpired now => (.ok (), store.markLogExpired now)
  | .removeFile => (.ok (), store.removeFile)
  | .authorize | .createDirAll | .syncData => (.ok (), store)
  | .nowMs => ((0 : ℤ), store)

theorem step_serve (written : Option ℕ) (store : LogStore) (operation : LogOp) :
    LogStore.Step store operation (serve written store operation).1
      (serve written store operation).2 := by
  cases operation with
  | logMetadata | fileLength => exact ⟨rfl, .inl rfl⟩
  | readExact offset length =>
      by_cases enough : offset + length ≤ (store.file.getD []).length
      · simp only [serve, if_pos enough]
        exact ⟨rfl, .inr ⟨enough, rfl⟩⟩
      · simp only [serve, if_neg enough]
        exact ⟨rfl, .inl ⟨_, rfl⟩⟩
  | appendFile bytes =>
      cases written with
      | none => exact .inl ⟨rfl, rfl⟩
      | some count => exact .inr ⟨⟨_, rfl⟩, count, rfl⟩
  | openFile | updateLogMetadata | markLogExpired | removeFile => exact .inl ⟨rfl, rfl⟩
  | authorize | createDirAll | syncData | nowMs => rfl

/-- An upload that runs for at most twenty operations. -/
def uploaded (written : Option ℕ) (request : LogRequest) (store : LogStore) :
    Program LogOp LogOp.Reply (Except Failure ℕ) × LogStore :=
  Program.advance (serve written) 20 (request.uploadLog.run, store)

theorem reaches_uploaded (written : Option ℕ) (request : LogRequest) (store : LogStore) :
    Program.Reaches LogStore.Step (request.uploadLog.run, store) (uploaded written request store) :=
  Program.reaches_advance (step_serve written) 20 _

/-- The answer to a request, which is lost when the server is interrupted. -/
def put (written : Option ℕ) (state : LogTransfer) (request : LogRequest) :
    Option (Except String (Option (Option ℕ)) × LogTransfer) :=
  match written, uploaded written request state.store with
  | some _, (_, store) => some (.error "connection closed", { state.send request with store })
  | none, (.pure result, store) => some (.ok (answer result), { state.send request with store })
  | none, (.perform _ _, _) => none

theorem requests_put {written : Option ℕ} {before after : LogTransfer} {request : LogRequest}
    {reply : Except String (Option (Option ℕ))}
    (answered : put written before request = some (reply, after)) :
    before.Requests request reply after := by
  have ran := reaches_uploaded written request before.store
  unfold put at answered
  generalize uploaded written request before.store = reached at ran answered
  split at answered
  · cases answered
    have received : request ∈ (before.send request).sent := List.mem_cons_self
    exact ⟨_, .single (.deliver received ran), .inl ⟨.inl ⟨_, rfl⟩, rfl⟩⟩
  · cases answered
    exact ⟨_, .refl, .inr ⟨_, _, ran, rfl, rfl⟩⟩
  · cases answered

/-- The answers of a transfer in which only the server can be interrupted. -/
def respond (written : Option ℕ) (state : LogTransfer) :
    (operation : AgentOp) → Option (operation.Reply × LogTransfer)
  | .readSpool => state.spool.map fun record => (.ok record, state)
  | .writeSpool record => some (.ok (), state.write record)
  | .retireSpool => if state.spool = none then none else some (.ok (), state.retire.clear)
  | .logLength => if state.removed then none else some (.ok (some state.log.length), state)
  | .readLog offset length =>
      if !state.removed ∧ offset + length ≤ state.log.length then
        some (.ok ((state.log.drop offset).take length), state)
      else none
  | .putLog offset bytes complete => put written state ⟨offset, bytes, complete⟩
  | .postEvent _ => some (.ok true, state)
  | .acquire _ _ | .release _ => some ((), state)
  | _ => none

theorem step_respond {written : Option ℕ} {before after : LogTransfer} {operation : AgentOp}
    {reply : operation.Reply} (answered : respond written before operation = some (reply, after)) :
    Step before operation reply after := by
  cases operation with
  | readSpool =>
      rcases Option.map_eq_some_iff.mp answered with ⟨record, stored, ⟨⟩⟩
      exact ⟨rfl, .inr ⟨record, stored, rfl⟩⟩
  | writeSpool record =>
      cases answered
      exact .inl ⟨rfl, rfl⟩
  | retireSpool =>
      rcases Option.ite_none_left_eq_some.mp answered with ⟨stored, ⟨⟩⟩
      exact .inl ⟨stored, rfl, rfl⟩
  | logLength =>
      rcases Option.ite_none_left_eq_some.mp answered with ⟨kept, ⟨⟩⟩
      exact ⟨rfl, .inr (.inl ⟨by simpa using kept, rfl⟩)⟩
  | readLog offset length =>
      rcases Option.ite_none_right_eq_some.mp answered with ⟨⟨kept, enough⟩, ⟨⟩⟩
      exact ⟨rfl, .inr ⟨by simpa using kept, enough, rfl⟩⟩
  | putLog offset bytes complete => exact requests_put answered
  | postEvent | acquire | release =>
      cases answered
      rfl
  | _ => cases answered

def config : AgentConfig where
  instanceId := "agent-1"
  mirrorRoot := "/srv/mirrors"
  publicationRoot := none
  publicationMaxPrivateGenerations := none
  publicationReserveBytes := none
  maxConcurrentRuns := 1
  processEnabled := true

def running : SpoolRecord :=
  { SpoolRecord.cancellationTombstone "01K000000000000000000000V2" 1 "spec" "now" with
    state := .running, cancelRequested := false, finishedAt := none }

def finished : SpoolRecord := running.terminal .succeeded (some 0) none none "later"

/-- An agent at rest. -/
def atRest (state : LogTransfer) : System Unit := ⟨fun _ => .pure (), state⟩

/-- One run of `reconcile`, after which the agent stops. -/
def visit (written : Option ℕ) (record : SpoolRecord) (state : LogTransfer) :
    Option LogTransfer :=
  (Pool.runTask (fun _ => respond written) () 40
    ⟨Function.update (atRest state).tasks () (discard ((Service.reconcile config).run record)),
      state⟩).map (·.state)

theorem reachable_visit {written : Option ℕ} {record : SpoolRecord} {state after : LogTransfer}
    (reached : Reachable config (atRest state)) (copied : record ∈ state.copies)
    (visited : visit written record state = some after) :
    Reachable config (atRest after) := by
  rcases Option.map_eq_some_iff.mp visited with ⟨pool, ran, rfl⟩
  have moves := @Pool.move_runTask Unit _ _ _ _ (fun _ => Step) (fun _ _ => False) _
    (fun _ _ _ _ _ answered => step_respond answered) _ _ _ _ ran
  have idle : (atRest state).tasks () = .pure () := rfl
  have started := reached.tail (.start idle copied)
  have performed : Relation.ReflTransGen (Move config) _ pool :=
    Relation.ReflTransGen.mono (fun _ _ => .perform) _ _ moves
  exact (started.trans performed).tail .crash

/-- The server is interrupted after two bytes of three. -/
def interrupted : Option LogTransfer :=
  visit (some 2) running { initial.write running with log := [1, 2, 3] }

/-- The process ends with a fourth byte, and the whole log is sent again. -/
def resumed : Option LogTransfer :=
  interrupted.bind fun state =>
    visit none finished
      (LogTransfer.write { state with log := state.log ++ [4], ended := true } finished)

theorem reachable_interrupted {state : LogTransfer} (stopped : interrupted = some state) :
    Reachable config (atRest state) := by
  have written : Happens initial (initial.write running) :=
    .keep (.inl ⟨rfl, rfl⟩) (by decide) (.inl rfl)
  have start : Reachable config (atRest initial) := .refl
  have kept : Reachable config (atRest (initial.write running)) := start.tail (.happen written)
  have grown := kept.tail (.happen (.grow [1, 2, 3] rfl))
  exact reachable_visit grown List.mem_cons_self stopped

theorem reachable_resumed {state : LogTransfer} (sent : resumed = some state) :
    Reachable config (atRest state) := by
  rcases Option.bind_eq_some_iff.mp sent with ⟨before, stopped, visited⟩
  have running : before.ended = false := by
    have ended : (interrupted.map (·.ended)) = some false := by decide +kernel
    simpa [stopped] using ended
  have grown := (reachable_interrupted stopped).tail (.happen (.grow [4] running))
  have ended := grown.tail (.happen .finish)
  let last : LogTransfer := { before with log := before.log ++ [4], ended := true }
  have written : Happens last (last.write finished) :=
    .keep (.inl ⟨rfl, rfl⟩) (fun _ => rfl) (.inl rfl)
  have kept := ended.tail (.happen written)
  exact reachable_visit kept List.mem_cons_self visited

end Sample

/-- Three bytes of which the server has written two, then all of them with a fourth one. -/
theorem log_transfer_exact_resumed : ∃ state, Sample.resumed = some state ∧
    state.store.readLog 0 none = .ok ⟨[1, 2, 3, 4], 4, true⟩ ∧
    Transferred Sample.config (Sample.atRest state) := by
  have page : (Sample.resumed.map fun state => (state.store.readLog 0 none).toOption) =
      some (some ⟨[1, 2, 3, 4], 4, true⟩) := by
    decide +kernel
  rcases Option.map_eq_some_iff.mp page with ⟨state, sent, read⟩
  refine ⟨state, sent, ?_, log_transfer_exact (Sample.reachable_resumed sent)⟩
  cases answered : state.store.readLog 0 none with
  | error failure => simp [answered, Except.toOption] at read
  | ok page => simpa [answered, Except.toOption] using read

end LogTransfer

end LzuMirror
