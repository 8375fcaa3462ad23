import LzuMirror.Core.Schedule
import LzuMirror.Lib.Fallible
import LzuMirror.Lib.SqliteNumber
import LzuMirror.Lib.Table
import Mathlib.Algebra.Order.BigOperators.Group.List
import Mathlib.Algebra.Order.Group.Int
import Mathlib.Algebra.Order.Ring.Int

/-!
# The counter of stored log bytes

`operational_counters.stored_log_bytes` is computed once by the migration and then
kept by triggers on `attempt_logs`, while `update_log_metadata` and
`mark_log_expired` insert and update the rows. A call is a single statement: when a
trigger fails, the row is not written either.

The states of the attempts are an argument of each call, since other calls change
them in between.
-/

namespace LzuMirror

/-- A row of `attempt_logs`. -/
structure AttemptLog where
  runId : String
  attemptNo : ℕ
  relativePath : String
  storedBytes : ℤ
  complete : Bool
  updatedAtMs : ℤ
  expiredAtMs : Option ℤ
  deriving DecidableEq, Repr

/-- `PRIMARY KEY(run_id,attempt_no)`. -/
def AttemptLog.key (row : AttemptLog) : String × ℕ := (row.runId, row.attemptNo)

/-- `CASE WHEN expired_at_ms IS NULL THEN stored_bytes ELSE 0 END`. -/
def AttemptLog.counted (row : AttemptLog) : ℤ :=
  if row.expiredAtMs = none then row.storedBytes else 0

/-- Why a statement on `attempt_logs` is refused. -/
inductive LogFailure where
  | conversion
  | foreignKey
  | integerOverflow
  | counterType
  | counterCheck
  deriving DecidableEq, Repr

/-- The column of the counter has refused a value. -/
def LogFailure.IsOfCounter : LogFailure → Prop
  | .counterType | .counterCheck => True
  | .conversion | .foreignKey | .integerOverflow => False

/-- The logs and the counter. -/
structure LogDatabase where
  logs : Table AttemptLog.key
  storedLogBytes : ℤ
  deriving DecidableEq

/-- The states of the attempts. -/
abbrev AttemptStates := String × ℕ → Option AttemptState

/-- `stored_log_bytes INTEGER NOT NULL CHECK(stored_log_bytes >= 0)`, of a STRICT table. -/
def setCounter (value : SqliteNumber) : Except LogFailure ℤ :=
  match value.asColumn with
  | none => .error .counterType
  | some counter => if 0 ≤ counter then .ok counter else .error .counterCheck

/-- `SUM(stored_bytes)` over the rows with `expired_at_ms` NULL. -/
def unexpiredBytes (logs : Table AttemptLog.key) : ℤ :=
  ((logs.select fun row => row.expiredAtMs = none).map AttemptLog.storedBytes).sum

/-- The migration that adds the counter. -/
def addCounter (logs : Table AttemptLog.key) : Except LogFailure LogDatabase :=
  let unexpired := logs.select fun row => row.expiredAtMs = none
  match SqliteNumber.sum (unexpired.map AttemptLog.storedBytes) with
  | none => .error .integerOverflow
  | some total => do
      let counter ← setCounter (.integer total)
      return ⟨logs, counter⟩

/-- `attempt_logs_counter_insert`. -/
def attemptLogsCounterInsert (counter : ℤ) (new : AttemptLog) : Except LogFailure ℤ :=
  if new.expiredAtMs = none then
    setCounter ((SqliteNumber.integer counter).add (.integer new.storedBytes))
  else .ok counter

/-- `attempt_logs_counter_update`. -/
def attemptLogsCounterUpdate (counter : ℤ) (old new : AttemptLog) : Except LogFailure ℤ :=
  setCounter (((SqliteNumber.integer counter).add (.integer new.counted)).sub
    (.integer old.counted))

namespace LogDatabase

variable (attempts : AttemptStates)

/-- `update_log_metadata`: an `INSERT`, or the `UPDATE` of its conflict clause. -/
def updateLogMetadata (runId : String) (attemptNo : ℕ) (relativePath : String)
    (storedBytes : ℕ) (complete : Bool) (now : ℤ) (db : LogDatabase) :
    Except LogFailure LogDatabase :=
  if i64Max < storedBytes then .error .conversion
  else
    match db.logs.find? (runId, attemptNo) with
    | none => do
        let new : AttemptLog :=
          { runId, attemptNo, relativePath, storedBytes, complete, updatedAtMs := now
            expiredAtMs := none }
        let counter ← attemptLogsCounterInsert db.storedLogBytes new
        if attempts (runId, attemptNo) = none then .error .foreignKey
        else return ⟨db.logs.put new, counter⟩
    | some old => do
        let new : AttemptLog :=
          { old with storedBytes, complete := old.complete || complete, updatedAtMs := now }
        let counter ← attemptLogsCounterUpdate db.storedLogBytes old new
        return ⟨db.logs.put new, counter⟩

/-- `mark_log_expired`. -/
def markLogExpired (runId : String) (attemptNo : ℕ) (now : ℤ) (db : LogDatabase) :
    Except LogFailure (Bool × LogDatabase) :=
  match db.logs.find? (runId, attemptNo) with
  | none => .ok (false, db)
  | some old =>
      if old.complete && old.expiredAtMs.isNone &&
          (attempts (runId, attemptNo)).any AttemptState.isTerminal then do
        let new : AttemptLog := { old with expiredAtMs := some now }
        let counter ← attemptLogsCounterUpdate db.storedLogBytes old new
        return (true, ⟨db.logs.put new, counter⟩)
      else .ok (false, db)

/-- What the row of a key counts for. -/
def held (db : LogDatabase) (key : String × ℕ) : ℤ :=
  ((db.logs.find? key).map AttemptLog.counted).getD 0

end LogDatabase

/-- One call with its arguments. -/
inductive LogCall where
  | updateLogMetadata (runId : String) (attemptNo : ℕ) (relativePath : String)
      (storedBytes : ℕ) (complete : Bool) (now : ℤ)
  | markLogExpired (runId : String) (attemptNo : ℕ) (now : ℤ)

namespace LogCall

variable (attempts : AttemptStates) (db : LogDatabase)

def perform : LogCall → Except LogFailure LogDatabase
  | .updateLogMetadata runId attemptNo relativePath storedBytes complete now =>
      db.updateLogMetadata attempts runId attemptNo relativePath storedBytes complete now
  | .markLogExpired runId attemptNo now =>
      (db.markLogExpired attempts runId attemptNo now).map Prod.snd

/-- A statement that fails is rolled back. -/
def after (call : LogCall) : LogDatabase :=
  match call.perform attempts db with
  | .ok next => next
  | .error _ => db

/-- The row that a call is about to write. -/
def written : LogCall → Option AttemptLog
  | .updateLogMetadata runId attemptNo relativePath storedBytes complete now =>
      match db.logs.find? (runId, attemptNo) with
      | none =>
          some { runId, attemptNo, relativePath, storedBytes, complete, updatedAtMs := now
                 expiredAtMs := none }
      | some old =>
          some { old with storedBytes, complete := old.complete || complete, updatedAtMs := now }
  | .markLogExpired runId attemptNo now =>
      match db.logs.find? (runId, attemptNo) with
      | none => none
      | some old =>
          if old.complete && old.expiredAtMs.isNone &&
              (attempts (runId, attemptNo)).any AttemptState.isTerminal then
            some { old with expiredAtMs := some now }
          else none

/-- The trigger computes with integers of 64 bits throughout. -/
def IsExact (call : LogCall) : Prop :=
  ∀ new, call.written attempts db = some new →
    IsInt64 (db.storedLogBytes + new.counted) ∧
      IsInt64 (db.storedLogBytes + new.counted - db.held new.key)

/-- The counter and the row that a call writes fit together in 64 bits. -/
def Fits (call : LogCall) : Prop :=
  ∀ new, call.written attempts db = some new → db.storedLogBytes + new.counted ≤ i64Max

instance (call : LogCall) : Decidable (call.Fits attempts db) :=
  inferInstanceAs (Decidable (∀ new ∈ call.written attempts db,
    db.storedLogBytes + new.counted ≤ i64Max))

end LogCall

namespace LogDatabase

/-- The database after a sequence of calls. -/
def runAll (db : LogDatabase) : List (LogCall × AttemptStates) → LogDatabase
  | [] => db
  | (call, attempts) :: rest => (call.after attempts db).runAll rest

/-- Every call of a sequence meets a condition where it is made. -/
def Along (condition : AttemptStates → LogDatabase → LogCall → Prop) (db : LogDatabase) :
    List (LogCall × AttemptStates) → Prop
  | [] => True
  | (call, attempts) :: rest =>
      condition attempts db call ∧ (call.after attempts db).Along condition rest

instance decidableAlong (condition : AttemptStates → LogDatabase → LogCall → Prop)
    [∀ attempts db call, Decidable (condition attempts db call)] :
    ∀ (db : LogDatabase) calls, Decidable (db.Along condition calls)
  | _, [] => isTrue trivial
  | db, (call, attempts) :: rest =>
      have := decidableAlong condition (call.after attempts db) rest
      inferInstanceAs (Decidable (condition attempts db call ∧ _))

/-- The counter is the sum over the unexpired logs. -/
def IsCounted (db : LogDatabase) : Prop := db.storedLogBytes = unexpiredBytes db.logs

/-- No unexpired log has a negative size. -/
def Sized (db : LogDatabase) : Prop :=
  ∀ row ∈ db.logs, row.expiredAtMs = none → 0 ≤ row.storedBytes

end LogDatabase

section Sums

variable {logs : Table AttemptLog.key} {db : LogDatabase} {new : AttemptLog}

theorem unexpiredBytes_eq (logs : Table AttemptLog.key) :
    unexpiredBytes logs = (logs.rows.map AttemptLog.counted).sum := by
  unfold unexpiredBytes Table.select
  induction logs.rows with
  | nil => rfl
  | cons first rest ih =>
      by_cases unexpired : first.expiredAtMs = none <;>
        simp [unexpired, AttemptLog.counted, ih]

/-- Writing a row changes the sum by what it counts for and by what the old one did. -/
theorem unexpiredBytes_put (db : LogDatabase) (new : AttemptLog) :
    unexpiredBytes (db.logs.put new) = unexpiredBytes db.logs + new.counted - db.held new.key := by
  have sums := @Table.sum_put _ _ _ _ db.logs new _ _ AttemptLog.counted
  simp only [unexpiredBytes_eq, LogDatabase.held]
  omega

theorem counted_nonneg (sized : db.Sized) : ∀ value ∈ db.logs.rows.map AttemptLog.counted,
    0 ≤ value := by
  intro value member
  rcases List.mem_map.mp member with ⟨row, rowMem, rfl⟩
  unfold AttemptLog.counted
  split
  next unexpired => exact sized row rowMem unexpired
  next => exact le_refl 0

/-- No row counts for more than all of them. -/
theorem held_bounds (sized : db.Sized) (key : String × ℕ) :
    0 ≤ db.held key ∧ db.held key ≤ unexpiredBytes db.logs := by
  have nonneg := counted_nonneg sized
  have total := List.sum_nonneg nonneg
  rw [unexpiredBytes_eq]
  unfold LogDatabase.held
  cases found : db.logs.find? key with
  | none => exact ⟨le_refl 0, total⟩
  | some row =>
      have member := List.mem_map_of_mem (f := AttemptLog.counted)
        (Table.find?_eq_some_iff.mp found).1
      exact ⟨nonneg _ member, List.single_le_sum nonneg _ member⟩

end Sums

section Steps

variable {attempts : AttemptStates} {db : LogDatabase} {call : LogCall} {new : AttemptLog}

@[simp]
theorem setCounter_integer (n : ℤ) :
    setCounter (.integer n) = if 0 ≤ n then .ok n else .error .counterCheck := rfl

/-- The insertion trigger, where the sum fits. -/
theorem counterInsert_exact {counter : ℤ} (unexpired : new.expiredAtMs = none)
    (fits : IsInt64 (counter + new.counted)) :
    attemptLogsCounterInsert counter new = setCounter (.integer (counter + new.counted)) := by
  have counts : new.counted = new.storedBytes := if_pos unexpired
  rw [counts] at fits ⊢
  rw [attemptLogsCounterInsert, if_pos unexpired, SqliteNumber.add_integer fits]

/-- The update trigger, where the sum and the difference fit. -/
theorem counterUpdate_exact {counter : ℤ} {old : AttemptLog}
    (fits : IsInt64 (counter + new.counted))
    (remains : IsInt64 (counter + new.counted - old.counted)) :
    attemptLogsCounterUpdate counter old new =
      setCounter (.integer (counter + new.counted - old.counted)) := by
  rw [attemptLogsCounterUpdate, SqliteNumber.add_integer fits, SqliteNumber.sub_integer remains]

namespace LogCall

/-- A call that writes nothing changes nothing. -/
theorem perform_of_none (idle : call.written attempts db = none) :
    call.perform attempts db = .ok db := by
  cases call with
  | updateLogMetadata runId attemptNo relativePath storedBytes complete now =>
      simp only [written] at idle
      split at idle <;> cases idle
  | markLogExpired runId attemptNo now =>
      simp only [written] at idle
      unfold perform LogDatabase.markLogExpired
      split at idle
      next absent => simp [absent, Except.map]
      next old found =>
        split at idle
        · cases idle
        next ineligible => simp [found, ineligible, Except.map]

/-- The update of a row, where the counter is exact. -/
theorem update_exact {old : AttemptLog}
    (fits : IsInt64 (db.storedLogBytes + new.counted) ∧
      IsInt64 (db.storedLogBytes + new.counted - db.held new.key))
    (holds : db.held old.key = old.counted) (keyed : new.key = old.key) :
    attemptLogsCounterUpdate db.storedLogBytes old new =
      setCounter (.integer (db.storedLogBytes + new.counted - db.held new.key)) := by
  rw [keyed, holds] at fits ⊢
  exact counterUpdate_exact fits.1 fits.2

/-- A call that writes a row sets the counter to the exact difference, or is refused for
another reason. -/
theorem perform_of_written (writes : call.written attempts db = some new)
    (exact_ : call.IsExact attempts db) :
    (∃ failure, call.perform attempts db = .error failure ∧ ¬failure.IsOfCounter) ∨
      call.perform attempts db = do
        let counter ← setCounter
          (.integer (db.storedLogBytes + new.counted - db.held new.key))
        return ⟨db.logs.put new, counter⟩ := by
  have fits := exact_ new writes
  cases call with
  | updateLogMetadata runId attemptNo relativePath storedBytes complete now =>
      simp only [perform, LogDatabase.updateLogMetadata]
      split
      · exact .inl ⟨.conversion, rfl, not_false⟩
      simp only [written] at writes
      split at writes
      next absent =>
        cases writes
        have none_ : db.held (runId, attemptNo) = 0 := by simp [LogDatabase.held, absent]
        simp only [AttemptLog.key, none_, sub_zero] at fits ⊢
        rw [counterInsert_exact rfl fits.1]
        split
        next unknown =>
          cases counter : setCounter (.integer (db.storedLogBytes + _)) with
          | error failure => exact .inr rfl
          | ok counter => exact .inl ⟨.foreignKey, rfl, not_false⟩
        next => exact .inr rfl
      next old found =>
        cases writes
        have keyed : old.key = (runId, attemptNo) := (Table.find?_eq_some_iff.mp found).2
        have held_ : db.held old.key = old.counted := by simp [LogDatabase.held, keyed, found]
        rw [update_exact fits held_ rfl]
        exact .inr rfl
  | markLogExpired runId attemptNo now =>
      simp only [written] at writes
      split at writes
      · cases writes
      next old found =>
        split at writes
        next eligible =>
          cases writes
          have keyed : old.key = (runId, attemptNo) := (Table.find?_eq_some_iff.mp found).2
          have held_ : db.held old.key = old.counted := by simp [LogDatabase.held, keyed, found]
          right
          simp only [perform, LogDatabase.markLogExpired, found, eligible, if_true]
          rw [update_exact fits held_ rfl]
          cases setCounter (.integer _) <;> rfl
        · cases writes

/-- An exact step keeps the counter at the sum, whether the call fails or not. -/
theorem after_isCounted (counts : db.IsCounted) (exact_ : call.IsExact attempts db) :
    (call.after attempts db).IsCounted := by
  unfold after
  cases writes : call.written attempts db with
  | none =>
      rw [perform_of_none writes]
      exact counts
  | some new =>
      rcases perform_of_written writes exact_ with ⟨failure, fails, _⟩ | performs
      · rw [fails]
        exact counts
      · rw [performs, setCounter_integer]
        by_cases nonneg : 0 ≤ db.storedLogBytes + new.counted - db.held new.key
        · rw [if_pos nonneg]
          have sums := unexpiredBytes_put db new
          rw [← counts] at sums
          exact sums.symm
        · rw [if_neg nonneg]
          exact counts

/-- A call writes a size that is not negative. -/
theorem written_nonneg (writes : call.written attempts db = some new) : 0 ≤ new.counted := by
  unfold AttemptLog.counted
  cases call with
  | updateLogMetadata runId attemptNo relativePath storedBytes complete now =>
      simp only [written] at writes
      split at writes <;> cases writes <;> simp only <;> split <;> simp
  | markLogExpired runId attemptNo now =>
      simp only [written] at writes
      split at writes
      · cases writes
      · split at writes
        · cases writes
          simp
        · cases writes

/-- Among sizes that are not negative, the trigger is exact when the sum fits. -/
theorem exact_of_fits (counts : db.IsCounted) (sized : db.Sized) (fits : call.Fits attempts db) :
    call.IsExact attempts db := by
  intro new writes
  have sumFits := fits new writes
  have nonneg := written_nonneg writes
  have bounds := held_bounds sized new.key
  rw [← counts] at bounds
  simp only [IsInt64, i64Max] at sumFits ⊢
  omega

/-- Then the counter refuses nothing, and the sizes stay. -/
theorem perform_of_fits (counts : db.IsCounted) (sized : db.Sized)
    (fits : call.Fits attempts db) :
    (∃ failure, call.perform attempts db = .error failure ∧ ¬failure.IsOfCounter) ∨
      ∃ next, call.perform attempts db = .ok next ∧ next.Sized := by
  cases writes : call.written attempts db with
  | none => exact .inr ⟨db, perform_of_none writes, sized⟩
  | some new =>
      have nonneg := written_nonneg writes
      have bounds := held_bounds sized new.key
      rw [← counts] at bounds
      rcases perform_of_written writes (exact_of_fits counts sized fits) with other | performs
      · exact .inl other
      · rw [setCounter_integer, if_pos (by omega)] at performs
        refine .inr ⟨_, performs, ?_⟩
        intro row member unexpired
        rcases Table.mem_put.mp member with ⟨old, _⟩ | rfl
        · exact sized row old unexpired
        · simpa [AttemptLog.counted, unexpired] using nonneg

theorem after_sized (counts : db.IsCounted) (sized : db.Sized) (fits : call.Fits attempts db) :
    (call.after attempts db).Sized := by
  unfold after
  rcases perform_of_fits counts sized fits with ⟨failure, fails, _⟩ | ⟨next, performs, kept⟩
  · rw [fails]
    exact sized
  · rw [performs]
    exact kept

end LogCall

end Steps

section Runs

variable {db : LogDatabase} {calls : List (LogCall × AttemptStates)}

namespace LogDatabase

theorem runAll_isCounted (counts : db.IsCounted)
    (exact_ : db.Along LogCall.IsExact calls) :
    (db.runAll calls).IsCounted := by
  induction calls generalizing db with
  | nil => exact counts
  | cons call rest ih => exact ih (LogCall.after_isCounted counts exact_.1) exact_.2

theorem runAll_sized (counts : db.IsCounted) (sized : db.Sized)
    (fits : db.Along LogCall.Fits calls) :
    (db.runAll calls).IsCounted ∧ (db.runAll calls).Sized := by
  induction calls generalizing db with
  | nil => exact ⟨counts, sized⟩
  | cons call rest ih =>
      have exact_ := LogCall.exact_of_fits counts sized fits.1
      exact ih (LogCall.after_isCounted counts exact_) (LogCall.after_sized counts sized fits.1)
        fits.2

end LogDatabase

/-- The migration counts what is there. -/
theorem addCounter_eq_ok {logs : Table AttemptLog.key} (added : addCounter logs = .ok db) :
    db.logs = logs ∧ db.IsCounted := by
  unfold addCounter at added
  simp only at added
  split at added
  · cases added
  next total sums =>
    simp only [bind_eq_ok, setCounter_integer, pure_eq_ok, Except.ok.injEq] at added
    rcases added with ⟨counter, set, rfl⟩
    split at set
    · cases set
      exact ⟨rfl, SqliteNumber.sum_eq_some sums⟩
    · cases set

/-- After the migration the counter is the sum over the unexpired logs for as long as the triggers
compute in 64 bits. With sizes that are not negative that takes no more than that each size fits
beside the counter, and then no call is refused by the counter. -/
theorem stored_log_counter {logs : Table AttemptLog.key} (added : addCounter logs = .ok db)
    (calls : List (LogCall × AttemptStates)) :
    (db.Along LogCall.IsExact calls →
      (db.runAll calls).storedLogBytes = unexpiredBytes (db.runAll calls).logs) ∧
    ((∀ row ∈ logs, row.expiredAtMs = none → 0 ≤ row.storedBytes) →
      db.Along LogCall.Fits calls →
        (db.runAll calls).storedLogBytes = unexpiredBytes (db.runAll calls).logs ∧
          0 ≤ (db.runAll calls).storedLogBytes ∧
          ∀ (call : LogCall) attempts, call.Fits attempts (db.runAll calls) → ∀ failure,
            call.perform attempts (db.runAll calls) = .error failure → ¬failure.IsOfCounter) := by
  rcases addCounter_eq_ok added with ⟨rfl, counts⟩
  refine ⟨LogDatabase.runAll_isCounted counts, ?_⟩
  intro sized fits
  rcases LogDatabase.runAll_sized counts sized fits with ⟨counted, stillSized⟩
  refine ⟨counted, ?_, ?_⟩
  · have bounds := held_bounds stillSized ("", 0)
    rw [counted]
    omega
  · intro call attempts callFits failure fails
    rcases LogCall.perform_of_fits counted stillSized callFits with
      ⟨other, otherFails, kept⟩ | ⟨next, performs, _⟩
    · rw [fails] at otherFails
      cases otherFails
      exact kept
    · rw [fails] at performs
      cases performs

namespace Sample

def ended : AttemptStates := fun _ => some .succeeded

/-- The size of the log of the first attempt of a run. -/
def sizeReport (runId : String) (size : ℕ) : LogCall × AttemptStates :=
  (.updateLogMetadata runId 1 (runId ++ "/1.log") size true 10, ended)

def unlogged : LogDatabase := ⟨.empty, 0⟩

/-- A log that is complete and not expired. -/
def sizedLog (runId : String) (size : ℤ) : AttemptLog :=
  ⟨runId, 1, runId ++ "/1.log", size, true, 5, none⟩

/-- A log of negative size beside one of positive size. -/
def signedLogs : Table AttemptLog.key := ⟨[sizedLog "a" (-5), sizedLog "b" 5], by decide⟩

/-- Two logs are reported, one of them twice, and the other expires. -/
def usualCalls : List (LogCall × AttemptStates) :=
  [sizeReport "a" 10, sizeReport "b" 20, sizeReport "a" 15, (.markLogExpired "b" 1 20, ended)]

theorem usualCalls_counted :
    (unlogged.runAll usualCalls).storedLogBytes = unexpiredBytes (unlogged.runAll usualCalls).logs ∧
      (unlogged.runAll usualCalls).storedLogBytes = 15 :=
  ⟨((stored_log_counter (show addCounter .empty = .ok unlogged from rfl) usualCalls).2
      (fun row member => absurd member Table.not_mem_empty) (by decide +kernel)).1,
    by decide +kernel⟩

/-- A log of as many bytes as 64 bits can count. -/
def filled : LogDatabase := unlogged.runAll [sizeReport "a" (2 ^ 63 - 1)]

/-- That log is reported again, with 100 bytes. -/
def drifted : LogDatabase := unlogged.runAll [sizeReport "a" (2 ^ 63 - 1), sizeReport "a" 100]

/-- Past 64 bits the update trigger computes with doubles, and the counter drifts; the expiry of
the log is then refused. A new log whose size does not fit beside the counter is refused at once,
and so is the expiry of the larger of two logs when the other has a negative size. -/
theorem stored_log_counter_drifts :
    (addCounter .empty = .ok unlogged ∧ drifted.storedLogBytes = 0 ∧
      unexpiredBytes drifted.logs = 100 ∧
      (LogCall.markLogExpired "a" 1 20).perform ended drifted = .error .counterCheck) ∧
    (sizeReport "b" 1).1.perform ended filled = .error .counterType ∧
    (addCounter signedLogs = .ok ⟨signedLogs, 0⟩ ∧
      (LogCall.markLogExpired "b" 1 20).perform ended ⟨signedLogs, 0⟩ =
        .error .counterCheck) := by
  refine ⟨⟨rfl, ?_, ?_, ?_⟩, ?_, ?_, ?_⟩ <;> decide +kernel

end Sample

end Runs

end LzuMirror
