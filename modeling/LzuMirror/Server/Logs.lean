import LzuMirror.Lib.Program
import Mathlib.Data.List.Infix
import Mathlib.Data.List.TakeDrop

/-!
# Run logs on the server

`upload_log`, `append_log`, `read_log` and the expiry of logs
(`apps/lmt-server/src/lib.rs`), for one attempt: its log file, its row of
`attempt_logs` and whether its row of `attempts` has ended. They all run under
the log lock of the attempt, so each of them is a program that runs alone. Any
operation may fail, a failing write may have written any part of its bytes, and
a run may be cut off between any two operations by a crash or a closed connection.

`LogStore.Exact` relates the store to the log the agent sends. Uploading bytes
of that log keeps it, wherever the upload is cut off.
-/

namespace LzuMirror

/-- `Failure`, as far as it concerns logs; the status is the HTTP status code. -/
structure Failure where
  status : ℕ
  code : String
  message : String
  deriving DecidableEq, Repr

namespace Failure

def bad (code message : String) : Failure := ⟨400, code, message⟩

def conflict (code message : String) : Failure := ⟨409, code, message⟩

def gone (code message : String) : Failure := ⟨410, code, message⟩

def io (error : String) : Failure := ⟨500, "log_io_error", error⟩

end Failure

/-- The columns of `attempt_logs`. -/
structure LogMetadata where
  storedBytes : ℕ
  complete : Bool
  updatedAtMs : ℤ
  expiredAtMs : Option ℤ
  deriving DecidableEq, Repr

/-- What the server has of the log of one attempt. -/
structure LogStore where
  file : Option (List UInt8)
  metadata : Option LogMetadata
  attemptEnded : Bool
  deriving DecidableEq, Repr

namespace LogStore

/-- `OpenOptions` with `create` and without `truncate`. -/
def openFile (store : LogStore) : LogStore :=
  { store with file := some (store.file.getD []) }

def appendFile (store : LogStore) (bytes : List UInt8) : LogStore :=
  { store with file := some (store.file.getD [] ++ bytes) }

def removeFile (store : LogStore) : LogStore :=
  { store with file := none }

/-- `Store::update_log_metadata`: a log that is complete stays complete. -/
def updateLogMetadata (store : LogStore) (storedBytes : ℕ) (complete : Bool) (now : ℤ) :
    LogStore :=
  let row : LogMetadata :=
    match store.metadata with
    | none => ⟨storedBytes, complete, now, none⟩
    | some row => ⟨storedBytes, row.complete || complete, now, row.expiredAtMs⟩
  { store with metadata := some row }

/-- `Store::mark_log_expired`. -/
def markLogExpired (store : LogStore) (now : ℤ) : LogStore :=
  match store.metadata with
  | none => store
  | some row =>
      if row.complete && row.expiredAtMs.isNone && store.attemptEnded then
        { store with metadata := some { row with expiredAtMs := some now } }
      else store

def isComplete (store : LogStore) : Bool := store.metadata.any (·.complete)

def isExpired (store : LogStore) : Bool := store.metadata.any (·.expiredAtMs.isSome)

/-- `LogRetentionEntry::eligible`. -/
def isEligible (store : LogStore) : Bool := store.isComplete && store.attemptEnded

end LogStore

inductive LogOp where
  | authorize
  | logMetadata
  | createDirAll
  | openFile
  | fileLength
  | readExact (offset length : ℕ)
  | appendFile (bytes : List UInt8)
  | syncData
  | updateLogMetadata (storedBytes : ℕ) (complete : Bool) (now : ℤ)
  | markLogExpired (now : ℤ)
  | removeFile
  | nowMs

abbrev LogOp.Reply : LogOp → Type
  | .logMetadata => Except Failure (Option LogMetadata)
  | .fileLength => Except Failure ℕ
  | .readExact _ _ => Except Failure (List UInt8)
  | .nowMs => ℤ
  | .authorize | .createDirAll | .openFile | .appendFile _ | .syncData
  | .updateLogMetadata _ _ _ | .markLogExpired _ | .removeFile => Except Failure Unit

abbrev LogM := ExceptT Failure (Program LogOp LogOp.Reply)

namespace Logs

def logMetadata : LogM (Option LogMetadata) := ExceptT.mk (Program.request LogOp.logMetadata)

def fileLength : LogM ℕ := ExceptT.mk (Program.request LogOp.fileLength)

def readExact (offset length : ℕ) : LogM (List UInt8) :=
  ExceptT.mk (Program.request (LogOp.readExact offset length))

def nowMs : LogM ℤ := ExceptT.lift (Program.request LogOp.nowMs)

def authorize : LogM Unit := ExceptT.mk (Program.request LogOp.authorize)

def createDirAll : LogM Unit := ExceptT.mk (Program.request LogOp.createDirAll)

def openFile : LogM Unit := ExceptT.mk (Program.request LogOp.openFile)

def appendFile (bytes : List UInt8) : LogM Unit :=
  ExceptT.mk (Program.request (LogOp.appendFile bytes))

def syncData : LogM Unit := ExceptT.mk (Program.request LogOp.syncData)

def updateLogMetadata (storedBytes : ℕ) (complete : Bool) (now : ℤ) : LogM Unit :=
  ExceptT.mk (Program.request (LogOp.updateLogMetadata storedBytes complete now))

def markLogExpired (now : ℤ) : LogM Unit :=
  ExceptT.mk (Program.request (LogOp.markLogExpired now))

def removeFile : LogM Unit := ExceptT.mk (Program.request LogOp.removeFile)

end Logs

/-- An upload of log bytes. -/
structure LogRequest where
  offset : ℕ
  bytes : List UInt8
  complete : Bool
  deriving DecidableEq, Repr

namespace LogRequest

open Logs

/-- How much of the body is below the end of the file. -/
def overlap (request : LogRequest) (stored : ℕ) : ℕ :=
  min (stored - request.offset) request.bytes.length

/-- The bytes that are new to a file of a length. -/
def tail (request : LogRequest) (stored : ℕ) : List UInt8 :=
  request.bytes.drop (request.overlap stored)

/-- The comparison of the bytes the file has already. -/
def checkOverlap (request : LogRequest) (stored : ℕ) : LogM Unit :=
  if request.overlap stored > 0 then do
    let old ← readExact request.offset (request.overlap stored)
    if old ≠ request.bytes.take (request.overlap stored) then
      throw (.conflict "log_content_conflict" "bytes differ")
  else pure ()

def appendTail (tail : List UInt8) : LogM Unit :=
  if tail = [] then pure ()
  else do
    appendFile tail
    syncData

/-- `append_log` of a log that has not expired. -/
def appendOpen (request : LogRequest) : LogM ℕ := do
  createDirAll
  openFile
  let stored ← fileLength
  if request.offset > stored then throw (.conflict "log_offset_ahead" "future offset")
  else
    request.checkOverlap stored
    appendTail (request.tail stored)
    let next := stored + (request.tail stored).length
    let now ← nowMs
    updateLogMetadata next request.complete now
    return next

/-- `append_log`. -/
def appendLog (request : LogRequest) : LogM ℕ := do
  match ← logMetadata with
  | some row => if row.expiredAtMs.isSome then return row.storedBytes else request.appendOpen
  | none => request.appendOpen

/-- `upload_log`: the offset the agent is told to continue with. -/
def uploadLog (request : LogRequest) : LogM ℕ := do
  authorize
  if request.bytes.length > 1048576 then throw ⟨413, "payload_too_large", "chunk too large"⟩
  else request.appendLog

end LogRequest

namespace Logs

/-- What `execute_log_maintenance` does with a candidate of its plan. -/
def expireCandidate : LogM Unit := do
  let now ← nowMs
  markLogExpired now
  removeFile

end Logs

/-- What `read_log` answers. -/
structure LogPage where
  data : List UInt8
  nextOffset : ℕ
  complete : Bool
  deriving DecidableEq, Repr

/-- `read_log` of the attempt, without its waiting. -/
def LogStore.readLog (store : LogStore) (offset : ℕ) (limit : Option ℕ) :
    Except Failure LogPage :=
  let limit := limit.getD 65536
  if limit = 0 ∨ limit > 1048576 then
    .error (.bad "invalid_log_limit" "limit must be between 1 and 1048576")
  else
    match store.metadata with
    | none => .ok ⟨[], offset, false⟩
    | some row =>
        if row.expiredAtMs.isSome then
          .error (.gone "log_expired" "Run log expired by retention policy")
        else
          match store.file with
          | none => .error ⟨500, "log_missing", "Run log file is missing"⟩
          | some bytes =>
              if offset < row.storedBytes then
                let take := min (row.storedBytes - offset) limit
                if bytes.length < offset + take then .error (.io "failed to fill whole buffer")
                else .ok ⟨(bytes.drop offset).take take, offset + take,
                  row.complete && decide (offset + take ≥ row.storedBytes)⟩
              else .ok ⟨[], offset, row.complete && decide (offset ≥ row.storedBytes)⟩

/-! ## Running the programs -/

/-- A reply that carries a failure. -/
def Fails {α : Type} (reply : Except Failure α) : Prop := ∃ failure, reply = .error failure

namespace LogStore

/-- An operation that only looks. -/
def Answers {α : Type} (store : LogStore) (value : α) (reply : Except Failure α)
    (after : LogStore) : Prop :=
  after = store ∧ (reply = .ok value ∨ Fails reply)

/-- An operation that takes effect, or fails before or after it has. -/
def Attempts (store effect : LogStore) (reply : Except Failure Unit) (after : LogStore) : Prop :=
  (reply = .ok () ∧ after = effect) ∨ Fails reply ∧ (after = store ∨ after = effect)

/-- What an operation may do to the store. -/
def Step : Program.Semantics LogOp LogOp.Reply LogStore
  | store, .logMetadata, reply, after => store.Answers store.metadata reply after
  | store, .fileLength, reply, after => store.Answers (store.file.getD []).length reply after
  | store, .readExact offset length, reply, after =>
      after = store ∧ (Fails reply ∨ offset + length ≤ (store.file.getD []).length ∧
        reply = .ok (((store.file.getD []).drop offset).take length))
  | store, .openFile, reply, after => store.Attempts store.openFile reply after
  | store, .appendFile bytes, reply, after =>
      (reply = .ok () ∧ after = store.appendFile bytes) ∨
        Fails reply ∧ ∃ count, after = store.appendFile (bytes.take count)
  | store, .updateLogMetadata storedBytes complete now, reply, after =>
      store.Attempts (store.updateLogMetadata storedBytes complete now) reply after
  | store, .markLogExpired now, reply, after =>
      store.Attempts (store.markLogExpired now) reply after
  | store, .removeFile, reply, after => store.Attempts store.removeFile reply after
  | store, .authorize, _, after | store, .createDirAll, _, after | store, .syncData, _, after
  | store, .nowMs, _, after => after = store

end LogStore

namespace Logs

section Rules

variable {α β : Type} {valid : LogStore → Prop} {store : LogStore}

/-- Every state of the run is valid, and its end satisfies the postcondition. -/
def Runs (valid : LogStore → Prop) (program : LogM α) (post : Except Failure α → LogStore → Prop)
    (store : LogStore) : Prop :=
  program.run.Safe LogStore.Step Eq (fun _ _ => True) valid post store

/-- A postcondition of the programs that succeed. -/
def OnOk (post : α → LogStore → Prop) : Except Failure α → LogStore → Prop
  | .ok value, after => post value after
  | .error _, _ => True

theorem runs_pure {post : α → LogStore → Prop} {value : α} (held : post value store) :
    Runs valid (pure value) (OnOk post) store :=
  held

theorem runs_throw {post : α → LogStore → Prop} {failure : Failure} :
    Runs valid (throw failure) (OnOk post) store :=
  trivial

theorem runs_bind {program : LogM α} {next : α → LogM β} {post : β → LogStore → Prop}
    (runs : Runs valid program (OnOk fun value after => Runs valid (next value) (OnOk post) after)
      store) :
    Runs valid (program >>= next) (OnOk post) store := by
  refine Program.safe_exceptBind.mpr (Program.Safe.imp runs ?_)
  rintro (failure | value) after held
  · trivial
  · exact held

/-- The rule for one operation. -/
theorem runs_request {operation : LogOp} {post : operation.Reply → LogStore → Prop}
    (steps : ∀ reply after, valid store → LogStore.Step store operation reply after →
      valid after ∧ post reply after) :
    (Program.request operation).Safe LogStore.Step Eq (fun _ _ => True) valid post store := by
  rintro before reply after rfl isValid performed
  rcases steps reply after isValid performed with ⟨kept, held⟩
  exact ⟨⟨trivial, kept⟩, held⟩

/-- The rule for the operations that only look. -/
theorem runs_answer {value : α} {reply : Except Failure α} {after : LogStore}
    {post : α → LogStore → Prop} (held : post value store) (isValid : valid store)
    (answered : store.Answers value reply after) : valid after ∧ OnOk post reply after := by
  rcases answered with ⟨rfl, rfl | ⟨failure, rfl⟩⟩
  · exact ⟨isValid, held⟩
  · exact ⟨isValid, trivial⟩

theorem runs_logMetadata {post : Option LogMetadata → LogStore → Prop}
    (held : post store.metadata store) : Runs valid logMetadata (OnOk post) store :=
  runs_request fun _ _ => runs_answer held

theorem runs_fileLength {post : ℕ → LogStore → Prop}
    (held : post (store.file.getD []).length store) :
    Runs valid fileLength (OnOk post) store :=
  runs_request fun _ _ => runs_answer held

theorem runs_readExact {offset length : ℕ} {post : List UInt8 → LogStore → Prop}
    (held : post (((store.file.getD []).drop offset).take length) store) :
    Runs valid (readExact offset length) (OnOk post) store := by
  refine runs_request ?_
  rintro reply after isValid ⟨rfl, ⟨failure, rfl⟩ | ⟨_, rfl⟩⟩
  · exact ⟨isValid, trivial⟩
  · exact ⟨isValid, held⟩

theorem runs_nowMs {post : ℤ → LogStore → Prop} (held : ∀ now, post now store) :
    Runs valid nowMs (OnOk post) store := by
  refine Program.safe_exceptLift.mpr (runs_request ?_)
  rintro reply after isValid rfl
  exact ⟨isValid, held reply⟩

/-- The rule for the operations that the store does not show. -/
theorem runs_idle {reply : Except Failure Unit} {after : LogStore} {post : Unit → LogStore → Prop}
    (held : post () store) (isValid : valid store) (same : after = store) :
    valid after ∧ OnOk post reply after := by
  subst same
  rcases reply with failure | _
  · exact ⟨isValid, trivial⟩
  · exact ⟨isValid, held⟩

theorem runs_authorize {post : Unit → LogStore → Prop} (held : post () store) :
    Runs valid authorize (OnOk post) store :=
  runs_request fun _ _ => runs_idle held

theorem runs_createDirAll {post : Unit → LogStore → Prop} (held : post () store) :
    Runs valid createDirAll (OnOk post) store :=
  runs_request fun _ _ => runs_idle held

theorem runs_syncData {post : Unit → LogStore → Prop} (held : post () store) :
    Runs valid syncData (OnOk post) store :=
  runs_request fun _ _ => runs_idle held

/-- The rule for the operations that change the store. -/
theorem runs_attempt {effect after : LogStore} {reply : Except Failure Unit}
    {post : Unit → LogStore → Prop} (kept : valid effect) (held : post () effect)
    (isValid : valid store) (attempted : store.Attempts effect reply after) :
    valid after ∧ OnOk post reply after := by
  rcases attempted with ⟨rfl, rfl⟩ | ⟨⟨failure, rfl⟩, rfl | rfl⟩
  · exact ⟨kept, held⟩
  · exact ⟨isValid, trivial⟩
  · exact ⟨kept, trivial⟩

theorem runs_openFile {post : Unit → LogStore → Prop} (kept : valid store.openFile)
    (held : post () store.openFile) : Runs valid openFile (OnOk post) store :=
  runs_request fun _ _ => runs_attempt kept held

theorem runs_updateLogMetadata {storedBytes : ℕ} {complete : Bool} {now : ℤ}
    {post : Unit → LogStore → Prop}
    (kept : valid (store.updateLogMetadata storedBytes complete now))
    (held : post () (store.updateLogMetadata storedBytes complete now)) :
    Runs valid (updateLogMetadata storedBytes complete now) (OnOk post) store :=
  runs_request fun _ _ => runs_attempt kept held

theorem runs_markLogExpired {now : ℤ} {post : Unit → LogStore → Prop}
    (kept : valid (store.markLogExpired now)) (held : post () (store.markLogExpired now)) :
    Runs valid (markLogExpired now) (OnOk post) store :=
  runs_request fun _ _ => runs_attempt kept held

theorem runs_removeFile {post : Unit → LogStore → Prop} (kept : valid store.removeFile)
    (held : post () store.removeFile) : Runs valid removeFile (OnOk post) store :=
  runs_request fun _ _ => runs_attempt kept held

theorem runs_appendFile {bytes : List UInt8} {post : Unit → LogStore → Prop}
    (kept : ∀ count, valid (store.appendFile (bytes.take count)))
    (held : post () (store.appendFile bytes)) :
    Runs valid (appendFile bytes) (OnOk post) store := by
  refine runs_request ?_
  rintro reply after isValid (⟨rfl, rfl⟩ | ⟨⟨failure, rfl⟩, count, rfl⟩)
  · refine ⟨?_, held⟩
    simpa using kept bytes.length
  · exact ⟨kept count, trivial⟩

end Rules

end Logs

/-! ## Uploads of the bytes of a log -/

/-- The store has the log as far as it was sent; `ended` says that the log does not grow. -/
structure LogStore.Exact (log : List UInt8) (ended : Bool) (store : LogStore) : Prop where
  file : ∀ bytes, store.file = some bytes → bytes <+: log
  stored : ∀ row, store.metadata = some row → row.storedBytes ≤ log.length ∧
    ∀ bytes, store.file = some bytes → row.storedBytes ≤ bytes.length
  present : ∀ row, store.metadata = some row → row.expiredAtMs = none →
    store.file.isSome = true
  complete : ∀ row, store.metadata = some row → row.complete = true →
    ended = true ∧ row.storedBytes = log.length ∧ ∀ bytes, store.file = some bytes → bytes = log
  expired : ∀ row, store.metadata = some row → row.expiredAtMs ≠ none → row.complete = true

/-- What an upload may change of the store. -/
structure LogStore.Continues (before after : LogStore) : Prop where
  complete : before.isComplete = true → after.isComplete = true
  expired : before.isExpired = true → after = before
  attempt : after.attemptEnded = before.attemptEnded

/--
The request has bytes of the log. It says that they are the last ones only when
the log has ended with them, or when the server knows it anyway.
-/
structure LogRequest.Genuine (log : List UInt8) (ended : Bool) (store : LogStore)
    (request : LogRequest) : Prop where
  bytes : request.bytes <+: log.drop request.offset
  complete : request.complete = true → ended = true ∧
    (request.offset + request.bytes.length = log.length ∨ store.isComplete = true)

/-- Bytes at an offset of a list, without those that a part of it has already, continue the part. -/
theorem append_drop_isPrefix {α : Type} {whole part bytes : List α} {offset : ℕ}
    (within : part <+: whole) (chunk : bytes <+: whole.drop offset) (reached : offset ≤ part.length) :
    part ++ bytes.drop (part.length - offset) <+: whole := by
  rcases within with ⟨rest, rfl⟩
  rw [List.drop_append_of_le_length reached] at chunk
  refine (List.prefix_append_right_inj part).mpr ?_
  rcases Nat.lt_or_ge bytes.length (part.length - offset) with short | long
  · rw [List.drop_of_length_le short.le]
    exact List.nil_prefix
  · have dropped := chunk.drop (part.length - offset)
    rwa [List.drop_left' (by simp)] at dropped

namespace LogRequest

variable {log : List UInt8} {ended : Bool} {store : LogStore} {request : LogRequest}

theorem tail_eq_drop (stored : ℕ) :
    request.tail stored = request.bytes.drop (stored - request.offset) := by
  rw [tail, overlap]
  rcases Nat.le_total (stored - request.offset) request.bytes.length with short | long
  · rw [min_eq_left short]
  · rw [min_eq_right long, List.drop_length, List.drop_of_length_le long]

theorem length_tail {stored : ℕ} (reached : request.offset ≤ stored) :
    stored + (request.tail stored).length =
      max stored (request.offset + request.bytes.length) := by
  rw [tail_eq_drop, List.length_drop]
  omega

end LogRequest

namespace LogStore

variable {log : List UInt8} {ended complete : Bool} {store : LogStore} {row : LogMetadata}
  {bytes : List UInt8} {now : ℤ}

theorem expiredAtMs_of_not_isExpired (fresh : store.isExpired = false)
    (found : store.metadata = some row) : row.expiredAtMs = none := by
  simpa [isExpired, found] using fresh

theorem Continues.refl (store : LogStore) : store.Continues store :=
  ⟨id, fun _ => rfl, rfl⟩

/-- Changing the file of a log that has not expired. -/
theorem Continues.write (fresh : store.isExpired = false) :
    store.Continues { store with file := some bytes } where
  complete := id
  expired := by simp [fresh]
  attempt := rfl

theorem Continues.record (fresh : store.isExpired = false) {storedBytes : ℕ} :
    store.Continues
      (LogStore.updateLogMetadata { store with file := some bytes } storedBytes complete now) where
  complete := by
    intro already
    cases found : store.metadata with
    | none => simp [isComplete, found] at already
    | some row => simp_all [isComplete, updateLogMetadata]
  expired := by simp [fresh]
  attempt := rfl

/-- The file may grow within the log. -/
theorem Exact.write (exact : store.Exact log ended) (fresh : store.isExpired = false)
    (grown : store.file.getD [] <+: bytes) (within : bytes <+: log) :
    LogStore.Exact log ended { store with file := some bytes } where
  file := by
    rintro _ ⟨⟩
    exact within
  stored := by
    rintro row found
    rcases exact.stored row found with ⟨inLog, inFile⟩
    refine ⟨inLog, ?_⟩
    rintro _ ⟨⟩
    rcases Option.isSome_iff_exists.mp (exact.present row found
      (expiredAtMs_of_not_isExpired fresh found)) with ⟨old, isOld⟩
    rw [isOld] at grown
    exact (inFile old isOld).trans grown.length_le
  present := fun _ _ _ => rfl
  complete := by
    rintro row found isComplete
    rcases exact.complete row found isComplete with ⟨hasEnded, counted, equal⟩
    refine ⟨hasEnded, counted, ?_⟩
    rintro _ ⟨⟩
    rcases Option.isSome_iff_exists.mp (exact.present row found
      (expiredAtMs_of_not_isExpired fresh found)) with ⟨old, isOld⟩
    rw [isOld, Option.getD_some, equal old isOld] at grown
    exact within.eq_of_length_le grown.length_le
  expired := exact.expired

/-- The whole file may be recorded, as complete when it is the whole log. -/
theorem Exact.record (exact : store.Exact log ended) (fresh : store.isExpired = false)
    (held : store.file = some bytes)
    (completes : complete = true → ended = true ∧ bytes = log) :
    (store.updateLogMetadata bytes.length complete now).Exact log ended where
  file := exact.file
  stored := by
    rintro _ ⟨⟩
    have inLog := (exact.file bytes held).length_le
    cases found : store.metadata <;> refine ⟨inLog, ?_⟩ <;>
    · intro other same
      cases held.symm.trans same
      exact le_rfl
  present := by
    rintro _ ⟨⟩ _
    rw [updateLogMetadata, held]
    rfl
  complete := by
    rintro _ ⟨⟩ isComplete
    have whole : ended = true ∧ bytes = log := by
      cases found : store.metadata with
      | none => exact completes (by simpa [found] using isComplete)
      | some row =>
          simp only [found, Bool.or_eq_true] at isComplete
          rcases isComplete with already | now
          · rcases exact.complete row found already with ⟨hasEnded, _, equal⟩
            exact ⟨hasEnded, equal bytes held⟩
          · exact completes now
    rcases whole with ⟨hasEnded, rfl⟩
    refine ⟨hasEnded, ?_, ?_⟩
    · cases store.metadata <;> rfl
    · intro other same
      exact (Option.some.inj (held.symm.trans same)).symm
  expired := by
    rintro _ ⟨⟩ hasExpired
    cases found : store.metadata with
    | none => simp [found] at hasExpired
    | some row =>
        simp only [found] at hasExpired
        exact absurd (expiredAtMs_of_not_isExpired fresh found) hasExpired

end LogStore

namespace LogRequest

open Logs

variable {log : List UInt8} {ended : Bool} {store : LogStore} {request : LogRequest}

/-- Wherever an upload is cut off, the store is exact, and it has changed as uploads may. -/
def Preserves (log : List UInt8) (ended : Bool) (start store : LogStore) : Prop :=
  store.Exact log ended ∧ start.Continues store

/-- What an upload has achieved when it answers with an offset. -/
structure Achieves (log : List UInt8) (start : LogStore) (request : LogRequest) (next : ℕ)
    (store : LogStore) : Prop where
  within : next ≤ log.length
  length : start.isExpired = false → ∃ bytes, store.file = some bytes ∧ bytes.length = next
  complete : request.complete = true → store.isComplete = true

theorem checkOverlap_runs {valid : LogStore → Prop} {stored : ℕ} {post : Unit → LogStore → Prop}
    (held : post () store) : Runs valid (request.checkOverlap stored) (OnOk post) store := by
  unfold checkOverlap
  split
  · refine runs_bind (runs_readExact ?_)
    split
    · exact runs_throw
    · exact runs_pure held
  · exact runs_pure held

theorem appendTail_runs {valid : LogStore → Prop} {tail : List UInt8}
    {post : Unit → LogStore → Prop} {bytes : List UInt8} (present : store.file = some bytes)
    (kept : ∀ count, valid (store.appendFile (tail.take count)))
    (held : post () { store with file := some (bytes ++ tail) }) :
    Runs valid (appendTail tail) (OnOk post) store := by
  unfold appendTail
  split
  next isEmpty =>
    refine runs_pure ?_
    subst isEmpty
    simpa [← present] using held
  · refine runs_bind (runs_appendFile kept (runs_syncData ?_))
    simpa [LogStore.appendFile, present] using held

/-- The file that a final request leaves is the log. -/
theorem Genuine.completes (genuine : request.Genuine log ended store)
    (exact : store.Exact log ended) (fresh : store.isExpired = false)
    (reached : request.offset ≤ (store.file.getD []).length)
    (extended : store.file.getD [] ++ request.tail (store.file.getD []).length <+: log)
    (final : request.complete = true) :
    ended = true ∧ store.file.getD [] ++ request.tail (store.file.getD []).length = log := by
  rcases genuine.complete final with ⟨hasEnded, reaches | already⟩
  · refine ⟨hasEnded, extended.eq_of_length_le ?_⟩
    rw [List.length_append, length_tail reached]
    omega
  · refine ⟨hasEnded, extended.eq_of_length_le ?_⟩
    rcases Option.any_eq_true _ _ |>.mp already with ⟨row, found, isComplete⟩
    rcases Option.isSome_iff_exists.mp (exact.present row found
      (LogStore.expiredAtMs_of_not_isExpired fresh found)) with ⟨old, isOld⟩
    have whole := (exact.complete row found isComplete).2.2 old isOld
    rw [isOld, Option.getD_some, whole, List.length_append]
    exact Nat.le_add_right _ _

theorem appendOpen_runs (exact : store.Exact log ended)
    (genuine : request.Genuine log ended store) (fresh : store.isExpired = false) :
    Runs (Preserves log ended store) request.appendOpen
      (OnOk (Achieves log store request)) store := by
  have within : store.file.getD [] <+: log := by
    cases held : store.file with
    | none => exact List.nil_prefix
    | some bytes => exact exact.file bytes held
  have opened : Preserves log ended store store.openFile :=
    ⟨exact.write fresh (List.prefix_refl _) within, .write fresh⟩
  refine runs_bind (runs_createDirAll (runs_bind (runs_openFile opened ?_)))
  refine runs_bind (runs_fileLength ?_)
  set old := store.file.getD [] with isOld
  change Runs _ (if request.offset > old.length then _ else _) _ _
  split
  · exact runs_throw
  next notAhead =>
    have reached : request.offset ≤ old.length := Nat.le_of_not_lt notAhead
    have extended : old ++ request.tail old.length <+: log := by
      rw [tail_eq_drop]
      exact append_drop_isPrefix within genuine.bytes reached
    refine runs_bind (checkOverlap_runs ?_)
    refine runs_bind (appendTail_runs (show store.openFile.file = some old from rfl)
      (fun count => ?_) ?_)
    · refine ⟨exact.write fresh (List.prefix_append _ _) ?_, .write fresh⟩
      exact ((List.prefix_append_right_inj old).mpr (List.take_prefix _ _)).trans extended
    · have written := exact.write fresh (List.prefix_append old _) extended
      have completes := genuine.completes exact fresh reached extended
      refine runs_bind (runs_nowMs fun now => runs_bind ?_)
      rw [← List.length_append]
      refine runs_updateLogMetadata ⟨written.record fresh rfl completes, .record fresh⟩ ?_
      refine runs_pure ⟨extended.length_le, fun _ => ⟨_, rfl, rfl⟩, fun isComplete => ?_⟩
      cases found : store.metadata <;>
        simp [LogStore.isComplete, LogStore.updateLogMetadata, LogStore.openFile, found,
          isComplete]

/-- `append_log` of bytes of the log. -/
theorem appendLog_runs (exact : store.Exact log ended)
    (genuine : request.Genuine log ended store) :
    Runs (Preserves log ended store) request.appendLog (OnOk (Achieves log store request)) store := by
  refine runs_bind (runs_logMetadata ?_)
  cases found : store.metadata with
  | none => exact appendOpen_runs exact genuine (by simp [LogStore.isExpired, found])
  | some row =>
      change Runs _ (if row.expiredAtMs.isSome then _ else _) _ _
      split
      next hasExpired =>
        have isComplete := exact.expired row found (Option.isSome_iff_ne_none.mp hasExpired)
        refine runs_pure ⟨(exact.stored row found).1, ?_, ?_⟩
        · simp [LogStore.isExpired, found, hasExpired]
        · simp [LogStore.isComplete, found, isComplete]
      next fresh =>
        exact appendOpen_runs exact genuine (by simpa [LogStore.isExpired, found] using fresh)

theorem uploadLog_runs (exact : store.Exact log ended)
    (genuine : request.Genuine log ended store) :
    Runs (Preserves log ended store) request.uploadLog (OnOk (Achieves log store request)) store := by
  refine runs_bind (runs_authorize ?_)
  split
  · exact runs_throw
  · exact appendLog_runs exact genuine

end LogRequest

/-! ## Expiry and reading -/

namespace LogStore

open Logs

variable {log : List UInt8} {ended : Bool} {store : LogStore}

/-- What the server may change of the store. -/
structure Ages (before after : LogStore) : Prop where
  complete : before.isComplete = true → after.isComplete = true
  expired : before.isExpired = true → after.isExpired = true ∧
    (after.file = before.file ∨ after.file = none)
  attempt : before.attemptEnded = true → after.attemptEnded = true

theorem Ages.refl (store : LogStore) : store.Ages store :=
  ⟨id, fun isExpired => ⟨isExpired, .inl rfl⟩, id⟩

theorem Ages.trans {first second third : LogStore} (left : first.Ages second)
    (right : second.Ages third) : first.Ages third where
  complete := right.complete ∘ left.complete
  expired := by
    intro isExpired
    rcases left.expired isExpired with ⟨stillExpired, kept⟩
    rcases right.expired stillExpired with ⟨finallyExpired, same | gone⟩
    · exact ⟨finallyExpired, same ▸ kept⟩
    · exact ⟨finallyExpired, .inr gone⟩
  attempt := right.attempt ∘ left.attempt

theorem Continues.ages {before after : LogStore} (continues : before.Continues after) :
    before.Ages after where
  complete := continues.complete
  expired := by
    intro isExpired
    rw [continues.expired isExpired]
    exact ⟨isExpired, .inl rfl⟩
  attempt := by
    rw [continues.attempt]
    exact id

theorem Exact.mark (exact : store.Exact log ended) (now : ℤ) :
    (store.markLogExpired now).Exact log ended := by
  unfold markLogExpired
  split
  · exact exact
  next row found =>
    split
    next eligible =>
      simp only [Bool.and_eq_true] at eligible
      refine ⟨exact.file, ?_, ?_, ?_, ?_⟩ <;> rintro _ ⟨⟩
      · exact exact.stored row found
      · rintro ⟨⟩
      · exact exact.complete row found
      · exact fun _ => eligible.1.1
    · exact exact

theorem Ages.mark (store : LogStore) (now : ℤ) : store.Ages (store.markLogExpired now) := by
  unfold markLogExpired
  split
  · exact .refl store
  next row found =>
    split
    · refine ⟨?_, fun _ => ⟨rfl, .inl rfl⟩, id⟩
      simp [isComplete, found]
    · exact .refl store

/-- A candidate that was eligible once is expired by its marking. -/
theorem isExpired_markLogExpired (eligible : store.isEligible = true) (now : ℤ) :
    (store.markLogExpired now).isExpired = true := by
  rcases Bool.and_eq_true_iff.mp eligible with ⟨isComplete, attemptEnded⟩
  rcases Option.any_eq_true _ _ |>.mp isComplete with ⟨row, found, complete⟩
  simp only [markLogExpired, found]
  split
  · rfl
  next notMarked =>
    simp only [complete, attemptEnded, Bool.and_true, Bool.true_and] at notMarked
    simpa [isExpired, found] using Option.isSome_iff_ne_none.mpr (by simpa using notMarked)

theorem Exact.remove (exact : store.Exact log ended) (expired : store.isExpired = true) :
    store.removeFile.Exact log ended where
  file := by rintro _ ⟨⟩
  stored := fun row found => ⟨(exact.stored row found).1, by rintro _ ⟨⟩⟩
  present := by
    intro row (found : store.metadata = some row) isFresh
    simp [isExpired, found, isFresh] at expired
  complete := by
    intro row found complete
    rcases exact.complete row found complete with ⟨hasEnded, counted, _⟩
    exact ⟨hasEnded, counted, by rintro _ ⟨⟩⟩
  expired := exact.expired

theorem Ages.remove (expired : store.isExpired = true) : store.Ages store.removeFile :=
  ⟨id, fun _ => ⟨expired, .inr rfl⟩, id⟩

/-- The expiry of a candidate. -/
theorem expireCandidate_runs (exact : store.Exact log ended) (eligible : store.isEligible = true) :
    Runs (fun after => after.Exact log ended ∧ store.Ages after) expireCandidate
      (OnOk fun _ after => after.isExpired = true ∧ after.file = none) store := by
  refine runs_bind (runs_nowMs fun now => runs_bind ?_)
  have marked := isExpired_markLogExpired eligible now
  refine runs_markLogExpired ⟨exact.mark now, .mark store now⟩ ?_
  refine runs_removeFile ⟨(exact.mark now).remove marked, ?_⟩ ⟨marked, rfl⟩
  exact (Ages.mark store now).trans (.remove marked)

/-- The removal of the file of a log that has expired. -/
theorem removeFile_runs (exact : store.Exact log ended) (expired : store.isExpired = true) :
    Runs (fun after => after.Exact log ended ∧ store.Ages after) Logs.removeFile
      (OnOk fun _ after => after.isExpired = true ∧ after.file = none) store :=
  runs_removeFile ⟨exact.remove expired, .remove expired⟩ ⟨expired, rfl⟩

/-- A page continues what was read before it; the last page ends with the log. -/
theorem Exact.readLog (exact : store.Exact log ended) {offset : ℕ} {limit : Option ℕ}
    {page : LogPage} (inside : offset ≤ log.length)
    (read : store.readLog offset limit = .ok page) :
    log.take offset ++ page.data = log.take page.nextOffset ∧
      page.nextOffset = offset + page.data.length ∧ page.nextOffset ≤ log.length ∧
      (page.complete = true → ended = true ∧ page.nextOffset = log.length) := by
  simp only [LogStore.readLog] at read
  split at read
  · cases read
  split at read
  · cases read
    exact ⟨List.append_nil _, rfl, inside, by rintro ⟨⟩⟩
  next row found =>
    split at read
    · cases read
    split at read
    · cases read
    next bytes held =>
      have inFile := (exact.stored row found).2 bytes held
      have inLog := (exact.file bytes held).length_le
      have last : ∀ {next : ℕ}, (row.complete && decide (next ≥ row.storedBytes)) = true →
          next ≤ log.length → ended = true ∧ next = log.length := by
        intro next isComplete inside
        rw [Bool.and_eq_true, decide_eq_true_eq] at isComplete
        rcases exact.complete row found isComplete.1 with ⟨hasEnded, counted, _⟩
        exact ⟨hasEnded, by omega⟩
      split at read
      next below =>
        split at read
        · cases read
        next enough =>
          cases read
          have short := Nat.le_of_not_lt enough
          refine ⟨?_, ?_, short.trans inLog, ?_⟩
          · rcases exact.file bytes held with ⟨rest, rfl⟩
            rw [List.take_append_of_le_length short, List.take_add,
              List.take_append_of_le_length (Nat.le_trans (Nat.le_add_right _ _) short)]
          · simp only [List.length_take, List.length_drop]
            omega
          · exact fun isComplete => last isComplete (short.trans inLog)
      next above =>
        cases read
        exact ⟨List.append_nil _, rfl, inside, fun isComplete => last isComplete inside⟩

end LogStore

end LzuMirror
