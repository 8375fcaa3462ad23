import LzuMirror.Agent.Footprint
import LzuMirror.Agent.Tasks

/-!
# The spool file as the tasks share it

The ledger of an attempt lists who wrote which record to its spool file, latest
first, and where the file was retired. Everything else is answered arbitrarily
here, so whatever the file system, the server and the process do is covered.
Writing the file succeeds; `Terms` restrict the runs that are looked at.

As in `LzuMirror.Agent.Tasks`, the file is written under the acceptance lock and
retired without it, and as long as every record that was written is pristine the
other tasks change nothing but the flag and the acknowledgements. `overtaken`
says whether they have changed the acknowledgements behind the executor's back.
-/

namespace LzuMirror

/-- What a task wrote to the spool file; nothing when it retired the file. -/
structure LedgerEntry where
  task : AgentTask
  record : Option SpoolRecord
  deriving DecidableEq

@[ext]
structure Ledger where
  entries : List LedgerEntry
  holder : Option AgentTask

/-- The same record but for the flag and the acknowledgements. -/
def SpoolRecord.Touches (old new : SpoolRecord) : Prop :=
  ∃ flag sequence offset complete,
    new = { old.reported sequence offset complete with cancelRequested := flag }

/-- The two records have the same acknowledgements. -/
def SpoolRecord.sameAcknowledgements (first second : SpoolRecord) : Bool :=
  decide (first.acknowledgedSequence = second.acknowledgedSequence) &&
    decide (first.logOffset = second.logOffset) &&
    decide (first.logCompleteAcknowledged = second.logCompleteAcknowledged)

/-- A publication that is under way has not ended; a committed one has succeeded. -/
def SpoolRecord.Consistent (record : SpoolRecord) : Prop :=
  match record.phase? with
  | some .preparingExchange | some .readyToCommit | some .preVisibilityRecovery
  | some .visiblePendingDurability => record.state.isTerminal = false
  | some .committedPendingReport => record.state = .succeeded
  | some .executing | some .abandonedFenced | none => True

theorem SpoolRecord.Consistent.live {record : SpoolRecord} {publication : PublicationState}
    (consistent : record.Consistent) (stored : record.publication = some publication)
    (moving : publication.phase.requiresNamespaceRecovery = true)
    (uncommitted : publication.phase ≠ .committedPendingReport) :
    record.state.isTerminal = false := by
  have isPhase : record.phase? = some publication.phase := by
    rw [SpoolRecord.phase?, stored, Option.map_some]
  rw [SpoolRecord.Consistent, isPhase] at consistent
  cases phase : publication.phase with
  | executing | abandonedFenced => simp [phase, PublicationPhase.requiresNamespaceRecovery] at moving
  | committedPendingReport => exact absurd phase uncommitted
  | _ =>
      rw [phase] at consistent
      exact consistent

/-- Without a publication under way there is nothing to be inconsistent with. -/
theorem SpoolRecord.consistent_of_unpublished {record next : SpoolRecord}
    (unpublished : record.requiresPublicationRecovery = false)
    (same : next.publication = record.publication) : next.Consistent := by
  rw [SpoolRecord.requiresPublicationRecovery, ← same] at unpublished
  rw [SpoolRecord.Consistent, SpoolRecord.phase?]
  cases stored : next.publication with
  | none => trivial
  | some publication =>
      rw [stored] at unpublished
      cases phase : publication.phase with
      | executing | abandonedFenced => simp [phase]
      | _ => simp [phase, PublicationPhase.requiresNamespaceRecovery] at unpublished

namespace Ledger

/-- The record in the file after some entries. -/
def stored : List LedgerEntry → Option SpoolRecord
  | [] => none
  | entry :: _ => entry.record

def spool (ledger : Ledger) : Option SpoolRecord := stored ledger.entries

def add (ledger : Ledger) (task : AgentTask) (record : Option SpoolRecord) : Ledger :=
  { ledger with entries := ⟨task, record⟩ :: ledger.entries }

/-- The runs that are looked at: which writes, and which stale copies under the lock. -/
structure Terms where
  writes : Ledger → AgentTask → SpoolRecord → Prop
  enters : Ledger → SpoolRecord → Prop

/-- What an operation of a task may do. -/
def Step (terms : Terms) (task : AgentTask) : Program.Semantics AgentOp AgentOp.Reply Ledger
  | before, .readSpool, reply, after =>
      after = before ∧ ((∃ record, before.spool = some record ∧ reply = .ok record) ∨
        before.spool = none ∧ Failed reply)
  | before, .spoolExists, reply, after => after = before ∧ reply = before.spool.isSome
  | before, .writeSpool record, reply, after =>
      terms.writes before task record ∧ reply = .ok () ∧ after = before.add task (some record)
  | before, .retireSpool, reply, after =>
      before.spool ≠ none ∧ reply = .ok () ∧ after = before.add task none ∨
        Failed reply ∧ (after = before ∨ before.spool ≠ none ∧ after = before.add task none)
  | before, .acquire .acceptance copy, _, after =>
      (∀ record, copy = some record → terms.enters before record) ∧ before.holder = none ∧
        after = { before with holder := some task }
  | before, .release .acceptance, _, after => after = { before with holder := none }
  | before, _, _, after => after = before

/-- The operations that leave the ledger alone. -/
def isAside : AgentOp → Bool
  | .writeSpool _ | .retireSpool | .acquire .acceptance _ | .release .acceptance => false
  | _ => true

theorem Step.of_isAside {terms : Terms} {task : AgentTask} {before after : Ledger}
    {operation : AgentOp} {reply : operation.Reply}
    (performed : Step terms task before operation reply after)
    (aside : isAside operation = true) : after = before := by
  cases operation with
  | readSpool | spoolExists => exact performed.1
  | writeSpool | retireSpool => cases aside
  | acquire lock copy =>
      cases lock with
      | acceptance => cases aside
      | active | mirror => exact performed
  | release lock =>
      cases lock with
      | acceptance => cases aside
      | active | mirror => exact performed
  | _ => exact performed

/-- A record that was written. -/
def Wrote (record : SpoolRecord) (entries : List LedgerEntry) : Prop :=
  ∃ entry ∈ entries, entry.record = some record

/-- The first stage of an attempt. -/
def Untouched (entries : List LedgerEntry) : Prop :=
  ∀ record, Wrote record entries → record.IsPristine

/-- The acknowledgement of the whole log was recorded. -/
def Reported (entries : List LedgerEntry) : Prop :=
  ∃ record, Wrote record entries ∧ record.logCompleteAcknowledged = true

/-- The records that were written, latest first, and who wrote them. -/
def written (entries : List LedgerEntry) : List (AgentTask × SpoolRecord) :=
  entries.filterMap fun entry => entry.record.map fun record => (entry.task, record)

/-- Another task has changed the acknowledgements since the executor wrote last. -/
def overtaken : List LedgerEntry → Bool
  | [] => false
  | entry :: rest =>
      if entry.task = .executor then false
      else overtaken rest || entry.record.any fun new =>
        !(stored rest).any fun old => old.sameAcknowledgements new

/-- A copy that is no further than what was written. -/
structure Seen (record : SpoolRecord) (entries : List LedgerEntry) : Prop where
  ended : record.state.isTerminal = true → ¬Untouched entries
  complete : record.logCompleteAcknowledged = true → Reported entries

section Entries

variable {record : SpoolRecord} {entries later : List LedgerEntry} {task : AgentTask}

theorem Wrote.mono (wrote : Wrote record entries) (grows : entries <:+ later) :
    Wrote record later := by
  rcases wrote with ⟨entry, listed, isRecord⟩
  exact ⟨entry, grows.subset listed, isRecord⟩

theorem Reported.mono (reported : Reported entries) (grows : entries <:+ later) :
    Reported later := by
  rcases reported with ⟨record, wrote, complete⟩
  exact ⟨record, wrote.mono grows, complete⟩

theorem Untouched.anti (untouched : Untouched later) (grows : entries <:+ later) :
    Untouched entries :=
  fun record wrote => untouched record (wrote.mono grows)

theorem Untouched.not_reported (untouched : Untouched entries) : ¬Reported entries := by
  rintro ⟨record, wrote, complete⟩
  rw [(untouched record wrote).2.2] at complete
  cases complete

theorem Wrote.seen (wrote : Wrote record entries) : Seen record entries where
  ended terminal untouched := by
    rw [(untouched record wrote).2.1] at terminal
    cases terminal
  complete isComplete := ⟨record, wrote, isComplete⟩

theorem Seen.mono (seen : Seen record entries) (grows : entries <:+ later) :
    Seen record later where
  ended terminal untouched := seen.ended terminal (untouched.anti grows)
  complete isComplete := (seen.complete isComplete).mono grows

theorem wrote_cons_iff {entry : LedgerEntry} :
    Wrote record (entry :: entries) ↔ entry.record = some record ∨ Wrote record entries := by
  simp [Wrote]

theorem wrote_of_stored (isStored : stored entries = some record) : Wrote record entries := by
  cases entries with
  | nil => cases isStored
  | cons entry rest => exact ⟨entry, List.mem_cons_self, isStored⟩

theorem untouched_cons_iff {entry : LedgerEntry} :
    Untouched (entry :: entries) ↔
      (∀ record, entry.record = some record → record.IsPristine) ∧ Untouched entries := by
  simp [Untouched, wrote_cons_iff, or_imp, forall_and]

end Entries

/-! ## What the tasks promise each other -/

/-- Another task has retired the file, perhaps. -/
def Retires (before after : Ledger) : Prop :=
  ∃ gone : List LedgerEntry, after.entries = gone ++ before.entries ∧
    (∀ entry ∈ gone, entry.record = none) ∧ (¬Reported before.entries → gone = [])

/-- The others leave the executor's record alone, but for the flag and the acknowledgements. -/
structure Spares (before after : Ledger) : Prop where
  untouched : Untouched after.entries
  record : ∀ old, before.spool = some old → ∃ new, after.spool = some new ∧ old.Touches new ∧
    (overtaken after.entries = false → overtaken before.entries = false ∧
      old.sameAcknowledgements new = true)

structure Rely (task : AgentTask) (before after : Ledger) : Prop where
  grows : before.entries <:+ after.entries
  holding : before.holder = some task → after.holder = some task ∧ before.Retires after
  waiting : before.holder ≠ some task → after.holder ≠ some task
  spares : task = .executor → Untouched before.entries → before.Spares after

structure Guarantee (task : AgentTask) (before after : Ledger) : Prop where
  grows : before.entries <:+ after.entries
  excluded : ∀ other, other ≠ task → before.holder = some other →
    after.holder = some other ∧ before.Retires after
  own : ∀ other, other ≠ task → before.holder ≠ some other → after.holder ≠ some other
  spares : task ≠ .executor → Untouched before.entries → before.Spares after

section Promises

variable {before after : Ledger} {task : AgentTask}

theorem touches_refl (record : SpoolRecord) : record.Touches record :=
  ⟨_, _, _, _, rfl⟩

theorem touches_trans {first second third : SpoolRecord} (left : first.Touches second)
    (right : second.Touches third) : first.Touches third := by
  rcases left with ⟨_, _, _, _, rfl⟩
  rcases right with ⟨_, _, _, _, rfl⟩
  exact ⟨_, _, _, _, rfl⟩

theorem sameAcknowledgements_iff {first second : SpoolRecord} :
    first.sameAcknowledgements second = true ↔
      first.acknowledgedSequence = second.acknowledgedSequence ∧
        first.logOffset = second.logOffset ∧
          first.logCompleteAcknowledged = second.logCompleteAcknowledged := by
  simp [SpoolRecord.sameAcknowledgements, and_assoc]

theorem sameAcknowledgements_refl (record : SpoolRecord) :
    record.sameAcknowledgements record = true :=
  sameAcknowledgements_iff.mpr ⟨rfl, rfl, rfl⟩

theorem sameAcknowledgements_trans {first second third : SpoolRecord}
    (left : first.sameAcknowledgements second = true)
    (right : second.sameAcknowledgements third = true) :
    first.sameAcknowledgements third = true := by
  rw [sameAcknowledgements_iff] at left right ⊢
  exact ⟨left.1.trans right.1, left.2.1.trans right.2.1, left.2.2.trans right.2.2⟩

theorem Retires.refl (ledger : Ledger) : ledger.Retires ledger :=
  ⟨[], rfl, by simp, fun _ => rfl⟩

theorem Retires.grows (retires : before.Retires after) : before.entries <:+ after.entries := by
  rcases retires with ⟨gone, entries, _⟩
  exact ⟨gone, entries.symm⟩

theorem wrote_append_iff {gone entries : List LedgerEntry} {record : SpoolRecord}
    (retired : ∀ entry ∈ gone, entry.record = none) :
    Wrote record (gone ++ entries) ↔ Wrote record entries := by
  constructor
  · rintro ⟨entry, listed, isRecord⟩
    rcases List.mem_append.mp listed with listed | listed
    · rw [retired entry listed] at isRecord
      cases isRecord
    · exact ⟨entry, listed, isRecord⟩
  · exact fun wrote => wrote.mono (List.suffix_append _ _)

theorem Retires.written_eq (retires : before.Retires after) :
    written after.entries = written before.entries := by
  rcases retires with ⟨gone, entries, retired, _⟩
  have nothing : written gone = [] := by
    rw [written, List.filterMap_eq_nil_iff]
    intro entry listed
    rw [retired entry listed]
    rfl
  rw [entries, written, List.filterMap_append]
  change written gone ++ written before.entries = _
  rw [nothing, List.nil_append]

theorem Retires.wrote_iff (retires : before.Retires after) {record : SpoolRecord} :
    Wrote record after.entries ↔ Wrote record before.entries := by
  rcases retires with ⟨gone, entries, retired, _⟩
  rw [entries, wrote_append_iff retired]

theorem Retires.untouched_iff (retires : before.Retires after) :
    Untouched after.entries ↔ Untouched before.entries := by
  simp [Untouched, retires.wrote_iff]

theorem Retires.reported_iff (retires : before.Retires after) :
    Reported after.entries ↔ Reported before.entries := by
  simp [Reported, retires.wrote_iff]

theorem Retires.entries_eq (retires : before.Retires after) (unreported : ¬Reported before.entries) :
    after.entries = before.entries := by
  rcases retires with ⟨gone, entries, _, still⟩
  rw [entries, still unreported, List.nil_append]

theorem Retires.spool (retires : before.Retires after) {record : SpoolRecord}
    (isStored : after.spool = some record) : before.spool = some record := by
  rcases retires with ⟨gone, entries, retired, _⟩
  cases gone with
  | nil => rwa [Ledger.spool, entries] at isStored
  | cons entry rest =>
      rw [Ledger.spool, entries] at isStored
      exact absurd isStored (by simp [stored, retired entry List.mem_cons_self])

theorem Retires.trans {last : Ledger} (left : before.Retires after) (right : after.Retires last) :
    before.Retires last := by
  have reported := left.reported_iff
  rcases left with ⟨first, leftEntries, firstRetired, firstStill⟩
  rcases right with ⟨second, rightEntries, secondRetired, secondStill⟩
  refine ⟨second ++ first, by rw [rightEntries, leftEntries, List.append_assoc], ?_, ?_⟩
  · intro entry listed
    rcases List.mem_append.mp listed with listed | listed
    · exact secondRetired entry listed
    · exact firstRetired entry listed
  · intro unreported
    rw [firstStill unreported, secondStill (unreported ∘ reported.mp)]
    rfl

theorem Spares.of_entries_eq (same : after.entries = before.entries)
    (untouched : Untouched before.entries) : before.Spares after := by
  refine ⟨same ▸ untouched, fun old isStored => ⟨old, ?_, touches_refl old, ?_⟩⟩
  · rw [Ledger.spool, same]
    exact isStored
  · rw [same]
    exact fun fresh => ⟨fresh, sameAcknowledgements_refl old⟩

theorem Spares.trans {first second third : Ledger} (left : first.Spares second)
    (right : second.Spares third) : first.Spares third := by
  refine ⟨right.untouched, fun old isStored => ?_⟩
  rcases left.record old isStored with ⟨middle, middleStored, touched, same⟩
  rcases right.record middle middleStored with ⟨last, lastStored, touchedLast, sameLast⟩
  refine ⟨last, lastStored, touches_trans touched touchedLast, fun fresh => ?_⟩
  rcases sameLast fresh with ⟨middleFresh, sameMiddle⟩
  exact ⟨(same middleFresh).1, sameAcknowledgements_trans (same middleFresh).2 sameMiddle⟩

theorem Rely.refl (task : AgentTask) (ledger : Ledger) : Rely task ledger ledger :=
  ⟨List.suffix_rfl, fun held => ⟨held, .refl _⟩, fun waiting => waiting,
    fun _ untouched => .of_entries_eq rfl untouched⟩

theorem Rely.trans {first second third : Ledger} (left : Rely task first second)
    (right : Rely task second third) : Rely task first third where
  grows := left.grows.trans right.grows
  holding held := by
    rcases left.holding held with ⟨still, retires⟩
    rcases right.holding still with ⟨last, retiresLast⟩
    exact ⟨last, retires.trans retiresLast⟩
  waiting waiting := right.waiting (left.waiting waiting)
  spares executor untouched := by
    have spared := left.spares executor untouched
    exact spared.trans (right.spares executor spared.untouched)

theorem Guarantee.rely {actor : AgentTask} (different : actor ≠ task)
    (guaranteed : Guarantee actor before after) : Rely task before after where
  grows := guaranteed.grows
  holding := guaranteed.excluded task different.symm
  waiting := guaranteed.own task different.symm
  spares executor := guaranteed.spares (executor ▸ different)

theorem Guarantee.refl (task : AgentTask) (ledger : Ledger) : Guarantee task ledger ledger :=
  ⟨List.suffix_rfl, fun _ _ held => ⟨held, .refl _⟩, fun _ _ free => free,
    fun _ untouched => .of_entries_eq rfl untouched⟩

/-- Taking and giving back the lock. -/
theorem Guarantee.locks {holder : Option AgentTask}
    (own : ∀ other, other ≠ task → (before.holder = some other ↔ holder = some other)) :
    Guarantee task before { before with holder } where
  grows := List.suffix_rfl
  excluded other different held := ⟨(own other different).mp held, .refl _⟩
  own other different free held := free ((own other different).mpr held)
  spares _ untouched := .of_entries_eq rfl untouched

/-- Writing under the lock. -/
theorem Guarantee.write {record : SpoolRecord} (held : before.holder = some task)
    (spares : task ≠ .executor → Untouched before.entries →
      before.Spares (before.add task (some record))) :
    Guarantee task before (before.add task (some record)) where
  grows := List.suffix_cons _ _
  excluded other different heldByOther := by
    rw [held, Option.some.injEq] at heldByOther
    exact absurd heldByOther.symm different
  own other different _ := by
    change before.holder ≠ some other
    rw [held, ne_eq, Option.some.injEq]
    exact different.symm
  spares

theorem Guarantee.retire (reported : Reported before.entries) :
    Guarantee task before (before.add task none) where
  grows := List.suffix_cons _ _
  excluded other _ held :=
    ⟨held, [⟨task, none⟩], rfl, by simp, fun unreported => absurd reported unreported⟩
  own other _ free := free
  spares _ untouched := absurd reported untouched.not_reported

end Promises

/-! ## The invariant -/

/-- Every record follows the one it overwrites. -/
def Chained (follows : SpoolRecord → SpoolRecord → Prop) : List LedgerEntry → Prop
  | [] => True
  | entry :: rest => Chained follows rest ∧
      ∀ old new, stored rest = some old → entry.record = some new → follows old new

/-- What all tasks keep. -/
structure Valid (follows : SpoolRecord → SpoolRecord → Prop) (ledger : Ledger) : Prop where
  chained : Chained follows ledger.entries
  present : Untouched ledger.entries → ledger.spool ≠ none
  consistent : ∀ record, Wrote record ledger.entries → record.Consistent

section Valid

variable {follows : SpoolRecord → SpoolRecord → Prop} {ledger : Ledger} {record : SpoolRecord}

theorem Valid.write (valid : Valid follows ledger) (task : AgentTask)
    (related : ∀ old, ledger.spool = some old → follows old record)
    (consistent : record.Consistent) : Valid follows (ledger.add task (some record)) where
  chained := by
    refine ⟨valid.chained, ?_⟩
    rintro old new isStored ⟨⟩
    exact related old isStored
  present _ := Option.some_ne_none record
  consistent other wrote := by
    rcases wrote_cons_iff.mp wrote with isRecord | earlier
    · cases isRecord
      exact consistent
    · exact valid.consistent other earlier

theorem Valid.retire (valid : Valid follows ledger) (task : AgentTask)
    (reported : Reported ledger.entries) : Valid follows (ledger.add task none) where
  chained := by
    refine ⟨valid.chained, ?_⟩
    rintro old new _ ⟨⟩
  present untouched := by
    have before := (untouched_cons_iff.mp untouched).2
    exact absurd reported before.not_reported
  consistent other wrote := by
    rcases wrote_cons_iff.mp wrote with isRecord | earlier
    · cases isRecord
    · exact valid.consistent other earlier

end Valid

/-- A task among the others. -/
def setting (terms : Terms) (follows : SpoolRecord → SpoolRecord → Prop) (task : AgentTask) :
    Setting Ledger where
  step := Step terms task
  rely := Rely task
  guarantee := Guarantee task
  invariant := Valid follows

abbrev TaskSafe (terms : Terms) (follows : SpoolRecord → SpoolRecord → Prop) (task : AgentTask)
    {α : Type} (program : AgentProgram α) (post : α → Ledger → Prop) (state : Ledger) : Prop :=
  program.Safe (Step terms task) (Rely task) (Guarantee task) (Valid follows) post state

section Rules

open Agent

variable {terms : Terms} {follows : SpoolRecord → SpoolRecord → Prop} {task : AgentTask}
  {record : SpoolRecord} {state : Ledger}

/-- A program of operations aside keeps what the others cannot change. -/
theorem safe_every {α : Type} {program : AgentProgram α} {kept : α → Prop}
    {assertion : Ledger → Prop}
    (every : program.Every (fun operation => isAside operation = true) kept)
    (stable : ∀ before after, assertion before → Rely task before after → assertion after)
    (holds : assertion state) :
    TaskSafe terms follows task program (fun value after => kept value ∧ assertion after) state := by
  induction program generalizing state with
  | pure value => exact ⟨every, holds⟩
  | perform operation rest ih =>
      intro before reply after relied valid performed
      cases performed.of_isAside every.1
      exact ⟨⟨.refl task _, valid⟩, ih reply (every.2 reply) (stable _ _ holds relied)⟩

theorem safe_aside {operation : AgentOp} {assertion : Ledger → Prop}
    {post : operation.Reply → Ledger → Prop} (aside : isAside operation = true)
    (stable : ∀ before after, assertion before → Rely task before after → assertion after)
    (holds : assertion state) (next : ∀ reply after, assertion after → post reply after) :
    TaskSafe terms follows task (perform operation) post state := by
  intro before reply after relied valid performed
  cases performed.of_isAside aside
  exact ⟨⟨.refl task _, valid⟩, next reply _ (stable _ _ holds relied)⟩

theorem holds_aside {operation : AgentOp} {assertion : Ledger → Prop}
    {post : Except String operation.Reply → SpoolRecord → Ledger → Prop}
    (aside : isAside operation = true)
    (stable : ∀ before after, assertion before → Rely task before after → assertion after)
    (holds : assertion state)
    (next : ∀ reply after, assertion after → post (.ok reply) record after) :
    Holds (setting terms follows task) (Agent.perform operation) post record state :=
  safe_aside aside stable holds next

/-- The acceptance lock is granted. -/
theorem safe_acquire {copy : Option SpoolRecord} {post : Unit → Ledger → Prop}
    (next : ∀ before : Ledger, Rely task state before → before.holder = none →
      Valid follows before → (∀ record, copy = some record → terms.enters before record) →
        post () { before with holder := some task }) :
    TaskSafe terms follows task (perform (.acquire .acceptance copy)) post state := by
  rintro before reply after relied valid ⟨met, free, rfl⟩
  have same : Valid follows { before with holder := some task } :=
    ⟨valid.chained, valid.present, valid.consistent⟩
  refine ⟨⟨.locks ?_, same⟩, next before relied free valid met⟩
  intro other different
  simp [free, different.symm]

theorem safe_release {post : Unit → Ledger → Prop} (held : state.holder = some task)
    (next : ∀ before : Ledger, Rely task state before → state.Retires before →
      Valid follows before → post () { before with holder := none }) :
    TaskSafe terms follows task (perform (.release .acceptance)) post state := by
  rintro before reply after relied valid rfl
  rcases relied.holding held with ⟨still, retires⟩
  have same : Valid follows { before with holder := none } :=
    ⟨valid.chained, valid.present, valid.consistent⟩
  refine ⟨⟨.locks ?_, same⟩, next before relied retires valid⟩
  intro other different
  simp [still, different.symm]

/-- Reading the file. -/
theorem safe_readSpool {post : Except String SpoolRecord → Ledger → Prop}
    (next : ∀ before : Ledger, Rely task state before → Valid follows before →
      (∀ latest, before.spool = some latest → post (.ok latest) before) ∧
        (before.spool = none → ∀ message, post (.error message) before)) :
    TaskSafe terms follows task (perform .readSpool) post state := by
  rintro before reply after relied valid ⟨rfl, answered⟩
  refine ⟨⟨.refl task _, valid⟩, ?_⟩
  rcases answered with ⟨latest, isStored, rfl⟩ | ⟨missing, message, rfl⟩
  · exact (next _ relied valid).1 latest isStored
  · exact (next _ relied valid).2 missing message

/-- Writing the file under the lock. -/
theorem safe_writeSpool {next : SpoolRecord} {post : Except String Unit → Ledger → Prop}
    (held : state.holder = some task) (consistent : next.Consistent)
    (written : ∀ before : Ledger, state.Retires before → before.holder = some task →
      Valid follows before → terms.writes before task next →
        (∀ old, before.spool = some old → follows old next) ∧
          (task ≠ .executor → Untouched before.entries →
            before.Spares (before.add task (some next))) ∧
          post (.ok ()) (before.add task (some next))) :
    TaskSafe terms follows task (perform (.writeSpool next)) post state := by
  rintro before reply after relied valid ⟨permitted, rfl, rfl⟩
  rcases relied.holding held with ⟨still, retires⟩
  rcases written before retires still valid permitted with ⟨related, spares, reached⟩
  exact ⟨⟨.write still spares, valid.write task related consistent⟩, reached⟩

theorem holds_writeSpool {next : SpoolRecord}
    {post : Except String Unit → SpoolRecord → Ledger → Prop}
    (held : state.holder = some task) (consistent : next.Consistent)
    (written : ∀ before : Ledger, state.Retires before → before.holder = some task →
      Valid follows before → terms.writes before task next →
        (∀ old, before.spool = some old → follows old next) ∧
          (task ≠ .executor → Untouched before.entries →
            before.Spares (before.add task (some next))) ∧
          post (.ok ()) record (before.add task (some next))) :
    Holds (setting terms follows task) (Agent.write next) post record state :=
  holds_bind.mpr (@safe_writeSpool terms follows task state next
    (fun reply after => Then (setting terms follows task) ofExcept post (.ok reply) record after)
    held consistent written)

end Rules

end Ledger

end LzuMirror
