import LzuMirror.Lib.Observation
import LzuMirror.Lib.Shortest
import LzuMirror.Server.Logs
import Mathlib.Algebra.Order.Ring.Int
import Mathlib.Data.List.Sort
import Mathlib.Data.Prod.Lex
import Mathlib.Data.String.Basic

/-!
# The retention of logs

`plan_log_maintenance` and `execute_log_maintenance` over the logs of all
attempts. The plan is a pure function of the rows; its two loops are written
over the subtraction they use, so that it can be asked whether a checked one
would have failed.

The executor runs next to uploads and to itself. The log locks are left out, so
that the tasks interleave in more ways than they can: what the executor relies
on is only that a log that is complete, has ended or has expired stays so.
-/

namespace LzuMirror

/-- The primary key of `attempt_logs`. -/
structure LogKey where
  runId : String
  attempt : ℕ
  deriving DecidableEq, Repr

/-- A row of `log_retention_entries`. -/
structure LogRetentionEntry where
  key : LogKey
  storedBytes : ℕ
  updatedAtMs : ℤ
  eligible : Bool
  expiredAtMs : Option ℤ
  deriving DecidableEq, Repr

/-- `LogExpirationView`. -/
structure LogExpiration where
  key : LogKey
  storedBytes : ℕ
  deriving DecidableEq, Repr

structure LogMaintenancePlan where
  storedBytes : ℕ
  expireBytes : ℕ
  candidates : List LogExpiration
  deriving DecidableEq, Repr

/-- The retention is in milliseconds. -/
structure RunLogPolicy where
  retention : Option ℕ
  maxTotalBytes : Option ℕ
  deriving DecidableEq, Repr

namespace LogRetentionEntry

/-- `ORDER BY l.updated_at_ms,l.run_id,l.attempt_no`. -/
def rank (entry : LogRetentionEntry) : ℤ ×ₗ String ×ₗ ℕ :=
  toLex (entry.updatedAtMs, toLex (entry.key.runId, entry.key.attempt))

def view (entry : LogRetentionEntry) : LogExpiration := ⟨entry.key, entry.storedBytes⟩

/-- Neither expired nor out of reach for an expiry. -/
def isOpen (entry : LogRetentionEntry) : Bool := entry.expiredAtMs.isNone && entry.eligible

def past (cutoff : Option ℤ) (entry : LogRetentionEntry) : Bool :=
  cutoff.any fun cutoff => decide (entry.updatedAtMs ≤ cutoff)

end LogRetentionEntry

/-- The two variables of the loops. -/
structure LogProjection where
  projected : ℕ
  candidates : List LogExpiration

namespace LogRetention

/-- `now_ms().saturating_sub(i64::try_from(millis).unwrap_or(i64::MAX))`. -/
def ageCutoff (policy : RunLogPolicy) (now : ℤ) : Option ℤ :=
  policy.retention.map fun retention =>
    max (now - min (retention : ℤ) (2 ^ 63 - 1)) (-2 ^ 63)

section Loops

variable {m : Type → Type} [Monad m] (subtract : ℕ → ℕ → m ℕ)

/-- An entry becomes a candidate. -/
def choose (projection : LogProjection) (entry : LogRetentionEntry) : m LogProjection := do
  let projected ← subtract projection.projected entry.storedBytes
  return ⟨projected, projection.candidates ++ [entry.view]⟩

/-- The loop over the entries that are too old. -/
def expireOld (cutoff : Option ℤ) :
    List LogRetentionEntry → LogProjection → m LogProjection
  | [], projection => return projection
  | entry :: rest, projection =>
      if entry.past cutoff then do
        let next ← choose subtract projection entry
        expireOld cutoff rest next
      else expireOld cutoff rest projection

/-- The loop that goes on until what is left is within the cap. -/
def expireToCap (cap : ℕ) : List LogRetentionEntry → LogProjection → m LogProjection
  | [], projection => return projection
  | entry :: rest, projection =>
      if projection.projected ≤ cap then return projection
      else if projection.candidates.any fun candidate => candidate.key = entry.key then
        expireToCap cap rest projection
      else do
        let next ← choose subtract projection entry
        expireToCap cap rest next

/-- The bytes of the logs that have not expired. -/
def unexpiredBytes (entries : List LogRetentionEntry) : ℕ :=
  weigh LogRetentionEntry.storedBytes (entries.filter fun entry => entry.expiredAtMs.isNone)

/-- `plan_log_maintenance` with a subtraction. -/
def planWith (policy : Option RunLogPolicy) (now : ℤ) (entries : List LogRetentionEntry) :
    m LogMaintenancePlan :=
  let stored := unexpiredBytes entries
  match policy with
  | none => return ⟨stored, 0, []⟩
  | some policy => do
      let isOpen := entries.filter (·.isOpen)
      let aged ← expireOld subtract (ageCutoff policy now) isOpen ⟨stored, []⟩
      let projection ← match policy.maxTotalBytes with
        | none => pure aged
        | some cap => expireToCap subtract cap isOpen aged
      return ⟨stored, weigh LogExpiration.storedBytes projection.candidates,
        projection.candidates⟩

end Loops

/-- `plan_log_maintenance`, whose subtractions saturate. -/
def planLogMaintenance (policy : Option RunLogPolicy) (now : ℤ)
    (entries : List LogRetentionEntry) : LogMaintenancePlan :=
  Id.run (planWith (fun total bytes => pure (total - bytes)) policy now entries)

/-- A subtraction that fails where the other one saturates. -/
def checkedSub (total bytes : ℕ) : Option ℕ :=
  if bytes ≤ total then some (total - bytes) else none

end LogRetention

/-- The logs of the attempts. -/
structure LogShelf where
  attempts : List LogKey
  distinct : attempts.Nodup
  store : LogKey → LogStore

namespace LogShelf

/-- The row of an attempt for the listing, if it has a log. -/
def entry? (shelf : LogShelf) (key : LogKey) : Option LogRetentionEntry :=
  (shelf.store key).metadata.map fun row =>
    ⟨key, row.storedBytes, row.updatedAtMs, (shelf.store key).isEligible, row.expiredAtMs⟩

/-- `Store::log_retention_entries`. -/
def retentionEntries (shelf : LogShelf) : List LogRetentionEntry :=
  (shelf.attempts.filterMap shelf.entry?).insertionSort fun first second =>
    first.rank ≤ second.rank

def put (shelf : LogShelf) (key : LogKey) (store : LogStore) : LogShelf :=
  { shelf with store := Function.update shelf.store key store }

/-- A row of `attempts`. -/
def create (shelf : LogShelf) (key : LogKey) : LogShelf :=
  { shelf with
    attempts := shelf.attempts.insert key
    distinct := shelf.distinct.insert }

end LogShelf

/-- What the tasks of the server do to the logs. -/
inductive ShelfOp where
  | retentionEntries
  | nowMs
  | log (key : LogKey) (operation : LogOp)
  | endAttempt (key : LogKey)
  | createAttempt (key : LogKey)

abbrev ShelfOp.Reply : ShelfOp → Type
  | .retentionEntries => Except Failure (List LogRetentionEntry)
  | .nowMs => ℤ
  | .log _ operation => operation.Reply
  | .endAttempt _ | .createAttempt _ => Unit

abbrev ShelfM := ExceptT Failure (Program ShelfOp ShelfOp.Reply)

namespace LogRetention

def retentionEntries : ShelfM (List LogRetentionEntry) :=
  ExceptT.mk (Program.request ShelfOp.retentionEntries)

def nowMs : ShelfM ℤ := ExceptT.lift (Program.request ShelfOp.nowMs)

/-- A program about one log. -/
def onLog {α : Type} (key : LogKey) (program : LogM α) : ShelfM α :=
  ExceptT.mk (program.run.relabel (ShelfOp.log key) fun _ reply => reply)

/-- The loop over the logs that have expired. -/
def removeExpired : List LogRetentionEntry → ShelfM Unit
  | [] => return ()
  | entry :: rest => do
      onLog entry.key Logs.removeFile
      removeExpired rest

/-- The loop over the candidates of the plan. -/
def expireCandidates : List LogExpiration → ShelfM Unit
  | [] => return ()
  | candidate :: rest => do
      onLog candidate.key Logs.expireCandidate
      expireCandidates rest

/-- `execute_log_maintenance`. -/
def executeLogMaintenance (policy : Option RunLogPolicy) : ShelfM LogMaintenancePlan := do
  let entries ← retentionEntries
  removeExpired (entries.filter (·.expiredAtMs.isSome))
  let entries ← retentionEntries
  let now ← nowMs
  let plan := planLogMaintenance policy now entries
  expireCandidates plan.candidates
  return plan

/-! ## The plan -/

/-- The projection when some more entries are candidates. -/
def extend (projection : LogProjection) (chosen : List LogRetentionEntry) : LogProjection where
  projected := projection.projected - weigh LogRetentionEntry.storedBytes chosen
  candidates := projection.candidates ++ chosen.map (·.view)

@[simp]
theorem extend_nil (projection : LogProjection) : extend projection [] = projection := by
  simp [extend]

@[simp]
theorem extend_extend (projection : LogProjection) (first second : List LogRetentionEntry) :
    extend (extend projection first) second = extend projection (first ++ second) := by
  simp [extend, Nat.sub_sub]

theorem extend_cons (projection : LogProjection) (entry : LogRetentionEntry)
    (rest : List LogRetentionEntry) :
    extend projection (entry :: rest) = extend (extend projection [entry]) rest := by
  rw [extend_extend, List.singleton_append]

/-- Whether an entry is a candidate. -/
def Chosen (projection : LogProjection) (entry : LogRetentionEntry) : Prop :=
  ∃ candidate ∈ projection.candidates, candidate.key = entry.key

section Loops

open LogRetentionEntry (storedBytes)

variable {m : Type → Type} [Monad m] [LawfulMonad m] {subtract : ℕ → ℕ → m ℕ}
  {cutoff : Option ℤ} {cap : ℕ} {entries done rest : List LogRetentionEntry}
  {entry : LogRetentionEntry} {projection : LogProjection}

section Subtracts

variable (subtracts : ∀ total bytes, bytes ≤ total → subtract total bytes = pure (total - bytes))

include subtracts

theorem choose_eq (fits : entry.storedBytes ≤ projection.projected) :
    choose subtract projection entry = pure (extend projection [entry]) := by
  simp [choose, subtracts _ _ fits, extend]

theorem expireOld_eq
    (fits : weigh storedBytes (entries.filter (LogRetentionEntry.past cutoff)) ≤ projection.projected) :
    expireOld subtract cutoff entries projection =
      pure (extend projection (entries.filter (LogRetentionEntry.past cutoff))) := by
  induction entries generalizing projection with
  | nil => simp [expireOld]
  | cons entry rest ih =>
      rw [expireOld]
      split
      next past =>
        rw [List.filter_cons_of_pos past] at fits ⊢
        rw [weigh_cons] at fits
        rw [choose_eq subtracts (Nat.le_trans (Nat.le_add_right _ _) fits), pure_bind, ih,
          ← extend_cons]
        simp only [extend, weigh_cons, weigh_nil]
        omega
      next recent =>
        rw [List.filter_cons_of_neg recent] at fits ⊢
        exact ih fits

/-- Entries that are no candidates yet, and have different keys. -/
theorem expireToCap_eq (fresh : ∀ entry ∈ entries, ¬ Chosen projection entry)
    (distinct : (entries.map (·.key)).Nodup)
    (fits : weigh storedBytes entries ≤ projection.projected) :
    expireToCap subtract cap entries projection =
      pure (extend projection (shed storedBytes cap projection.projected entries)) := by
  induction entries generalizing projection with
  | nil => simp [expireToCap, shed]
  | cons entry rest ih =>
      rw [expireToCap, shed]
      split
      · simp
      · have absent : (projection.candidates.any fun candidate => candidate.key = entry.key) =
            false := by
          simpa [Chosen] using fresh entry List.mem_cons_self
        simp only [absent, Bool.false_eq_true, if_false]
        rw [weigh_cons] at fits
        rw [List.map_cons, List.nodup_cons] at distinct
        have next : ∀ other ∈ rest, ¬ Chosen (extend projection [entry]) other := by
          rintro other mem ⟨candidate, chosen, same⟩
          rcases List.mem_append.mp chosen with chosen | last
          · exact fresh other (List.mem_cons_of_mem _ mem) ⟨candidate, chosen, same⟩
          · cases List.mem_singleton.mp last
            exact distinct.1 (List.mem_map.mpr ⟨other, mem, same.symm⟩)
        have nextFits : weigh LogRetentionEntry.storedBytes rest ≤
            (extend projection [entry]).projected := by
          simp only [extend, weigh_cons, weigh_nil]
          omega
        rw [choose_eq subtracts (Nat.le_trans (Nat.le_add_right _ _) fits), pure_bind,
          ih next distinct.2 nextFits, extend_extend]
        rfl

end Subtracts

omit [LawfulMonad m] in
variable (subtract cap done rest projection) in
/-- The second loop passes over the candidates of the first one. -/
theorem expireToCap_append (chosen : ∀ entry ∈ done, Chosen projection entry) :
    expireToCap subtract cap (done ++ rest) projection =
      expireToCap subtract cap rest projection := by
  induction done with
  | nil => rfl
  | cons entry done ih =>
      rw [List.cons_append, expireToCap]
      split
      next within =>
        cases rest with
        | nil => rfl
        | cons => rw [expireToCap, if_pos within]
      · have present : (projection.candidates.any fun candidate => candidate.key = entry.key) =
            true := by
          simpa [Chosen] using chosen entry List.mem_cons_self
        rw [if_pos present]
        exact ih fun other mem => chosen other (List.mem_cons_of_mem _ mem)

end Loops

section Plan

open LogRetentionEntry (storedBytes)

variable {policy : Option RunLogPolicy} {now : ℤ} {entries : List LogRetentionEntry}

/-- The entries that may expire and that the retention asks for. -/
def required (policy : Option RunLogPolicy) (now : ℤ) (entries : List LogRetentionEntry) :
    List LogRetentionEntry :=
  (entries.filter (·.isOpen)).filter (LogRetentionEntry.past (policy.bind (ageCutoff · now)))

/-- The other entries that may expire. -/
def spare (policy : Option RunLogPolicy) (now : ℤ) (entries : List LogRetentionEntry) :
    List LogRetentionEntry :=
  (entries.filter (·.isOpen)).filter fun entry =>
    !entry.past (policy.bind (ageCutoff · now))

/-- The entries of the plan. -/
def chosen (policy : Option RunLogPolicy) (now : ℤ) (entries : List LogRetentionEntry) :
    List LogRetentionEntry :=
  let old := required policy now entries
  old ++ shedTo storedBytes (policy.bind (·.maxTotalBytes))
    (unexpiredBytes entries - weigh storedBytes old) (spare policy now entries)

/-- The listing: in order, and every log once. -/
structure Listing (entries : List LogRetentionEntry) : Prop where
  ordered : entries.Pairwise fun first second => first.rank ≤ second.rank
  distinct : (entries.map (·.key)).Nodup

theorem Listing.isOpen (listing : Listing entries) : Listing (entries.filter (·.isOpen)) where
  ordered := listing.ordered.filter _
  distinct := listing.distinct.sublist (List.filter_sublist.map _)

theorem Listing.required_append_spare (listing : Listing entries) :
    required policy now entries ++ spare policy now entries = entries.filter (·.isOpen) := by
  apply filter_append_filter_not
  refine listing.isOpen.ordered.imp ?_
  intro first second ordered past
  rcases Option.any_eq_true _ _ |>.mp past with ⟨cutoff, isCutoff, isPast⟩
  have earlier : first.updatedAtMs ≤ second.updatedAtMs := Prod.Lex.monotone_fst _ _ ordered
  simp only [decide_eq_true_eq] at isPast
  simpa [LogRetentionEntry.past, isCutoff] using earlier.trans isPast

theorem weigh_isOpen_le (entries : List LogRetentionEntry) :
    weigh storedBytes (entries.filter (·.isOpen)) ≤ unexpiredBytes entries := by
  apply weigh_le_of_sublist
  refine List.monotone_filter_right entries ?_
  intro entry isOpen
  exact (Bool.and_eq_true_iff.mp isOpen).1

theorem planWith_eq {m : Type → Type} [Monad m] [LawfulMonad m] {subtract : ℕ → ℕ → m ℕ}
    (subtracts : ∀ total bytes, bytes ≤ total → subtract total bytes = pure (total - bytes))
    (listing : Listing entries) :
    planWith subtract policy now entries =
      pure ⟨unexpiredBytes entries, weigh storedBytes (chosen policy now entries),
        (chosen policy now entries).map (·.view)⟩ := by
  cases policy with
  | none => simp [planWith, chosen, required, LogRetentionEntry.past, shedTo]
  | some policy =>
      have split : required (some policy) now entries ++ spare (some policy) now entries =
          entries.filter (·.isOpen) := listing.required_append_spare
      have inTotal := weigh_isOpen_le entries
      rw [← split, weigh_append] at inTotal
      have distinct := listing.isOpen.distinct
      rw [← split, List.map_append, List.nodup_append'] at distinct
      have old : expireOld subtract (ageCutoff policy now) (entries.filter (·.isOpen))
          ⟨unexpiredBytes entries, []⟩ =
            pure (extend ⟨unexpiredBytes entries, []⟩ (required (some policy) now entries)) :=
        expireOld_eq subtracts (Nat.le_trans (Nat.le_add_right _ _) inTotal)
      simp only [planWith, old, pure_bind]
      cases cap : policy.maxTotalBytes with
      | none =>
          simp [chosen, cap, shedTo, extend, weigh_map]
          rfl
      | some limit =>
          have passed := expireToCap_append subtract limit (required (some policy) now entries)
            (spare (some policy) now entries)
            (extend ⟨unexpiredBytes entries, []⟩ (required (some policy) now entries))
            fun entry mem => ⟨entry.view, by simpa [extend] using ⟨entry, mem, rfl⟩, rfl⟩
          rw [split] at passed
          dsimp only
          rw [passed, expireToCap_eq subtracts]
          · simp [chosen, cap, shedTo, extend, weigh_map]
            rfl
          · rintro entry mem ⟨candidate, isCandidate, same⟩
            simp only [extend, List.nil_append, List.mem_map] at isCandidate
            rcases isCandidate with ⟨other, isRequired, rfl⟩
            exact distinct.2.2 (List.mem_map_of_mem isRequired)
              (List.mem_map.mpr ⟨entry, mem, same.symm⟩)
          · exact distinct.2.1
          · simp only [extend]
            omega

/--
The plan is the shortest part of the open entries, oldest first, that contains
every entry the retention asks for and brings the bytes that are left within the
cap, or all of them; and no subtraction saturates on the way.
-/
structure Minimal (policy : Option RunLogPolicy) (now : ℤ) (entries : List LogRetentionEntry)
    (plan : LogMaintenancePlan) : Prop where
  listing : Listing entries
  stored : plan.storedBytes = unexpiredBytes entries
  expire : plan.expireBytes = weigh LogExpiration.storedBytes plan.candidates
  distinct : (plan.candidates.map (·.key)).Nodup
  shortest : ∃ chosen, plan.candidates = chosen.map (·.view) ∧
    ShortestPrefix (Suffices storedBytes (policy.bind (·.maxTotalBytes)) plan.storedBytes
      (required policy now entries)) (entries.filter (·.isOpen)) chosen
  unsaturated : planWith checkedSub policy now entries = some plan

theorem planLogMaintenance_minimal (listing : Listing entries) :
    Minimal policy now entries (planLogMaintenance policy now entries) := by
  have plan : planLogMaintenance policy now entries =
      ⟨unexpiredBytes entries, weigh storedBytes (chosen policy now entries),
        (chosen policy now entries).map (·.view)⟩ :=
    planWith_eq (m := Id) (fun _ _ _ => rfl) listing
  have distinct := listing.isOpen.distinct
  have split : required policy now entries ++ spare policy now entries =
      entries.filter (·.isOpen) := listing.required_append_spare
  rw [← split] at distinct
  have shortest : ShortestPrefix _ _ (chosen policy now entries) :=
    shortestPrefix_shedTo distinct.of_map
  have expire : weigh storedBytes (chosen policy now entries) =
      weigh LogExpiration.storedBytes ((chosen policy now entries).map (·.view)) :=
    (weigh_map LogExpiration.storedBytes LogRetentionEntry.view _).symm
  rw [plan]
  refine ⟨listing, rfl, expire, ?_, ⟨_, rfl, split ▸ shortest⟩, ?_⟩
  · have inside := shortest.isPrefix.sublist.map fun entry : LogRetentionEntry => entry.key
    simpa [LogRetentionEntry.view, Function.comp_def] using distinct.sublist inside
  · refine planWith_eq ?_ listing
    intro total bytes fits
    exact if_pos fits

end Plan

end LogRetention

namespace LogShelf

theorem map_key_filterMap_entry? (shelf : LogShelf) (keys : List LogKey) :
    ((keys.filterMap shelf.entry?).map (·.key)).Sublist keys := by
  induction keys with
  | nil => exact .slnil
  | cons key rest ih =>
      cases found : (shelf.store key).metadata with
      | none => simpa [List.filterMap_cons, entry?, found] using ih.cons key
      | some row => simpa [List.filterMap_cons, entry?, found] using ih.cons_cons key

theorem listing (shelf : LogShelf) : LogRetention.Listing shelf.retentionEntries where
  ordered := List.pairwise_insertionSort _ _
  distinct := by
    have same := (List.perm_insertionSort
      (fun first second : LogRetentionEntry => first.rank ≤ second.rank)
      (shelf.attempts.filterMap shelf.entry?)).map fun entry => entry.key
    rw [retentionEntries, same.nodup_iff]
    exact shelf.distinct.sublist (shelf.map_key_filterMap_entry? shelf.attempts)

theorem mem_retentionEntries {shelf : LogShelf} {entry : LogRetentionEntry}
    (mem : entry ∈ shelf.retentionEntries) :
    ∃ row, (shelf.store entry.key).metadata = some row ∧
      entry.eligible = (shelf.store entry.key).isEligible ∧ entry.expiredAtMs = row.expiredAtMs := by
  rw [retentionEntries, List.mem_insertionSort, List.mem_filterMap] at mem
  rcases mem with ⟨key, -, isEntry⟩
  rcases Option.map_eq_some_iff.mp isEntry with ⟨row, found, rfl⟩
  exact ⟨row, found, rfl, rfl⟩

/-- What an operation may do to the logs. -/
def Step : Program.Semantics ShelfOp ShelfOp.Reply LogShelf
  | before, .retentionEntries, reply, after =>
      after = before ∧ (Fails reply ∨ reply = .ok before.retentionEntries)
  | before, .nowMs, _, after => after = before
  | before, .log key operation, reply, after =>
      ∃ store, LogStore.Step (before.store key) operation reply store ∧ after = before.put key store
  | before, .endAttempt key, _, after =>
      after = before.put key { before.store key with attemptEnded := true }
  | before, .createAttempt key, _, after => after = before.create key

end LogShelf

/-! ## The executor next to other tasks -/

/-- What a log does not lose. -/
structure LogStore.Lasts (before after : LogStore) : Prop where
  complete : before.isComplete = true → after.isComplete = true
  expired : before.isExpired = true → after.isExpired = true
  ended : before.attemptEnded = true → after.attemptEnded = true

namespace LogStore.Lasts

variable {before after : LogStore}

theorem refl (store : LogStore) : store.Lasts store := ⟨id, id, id⟩

theorem trans {first second third : LogStore} (left : first.Lasts second)
    (right : second.Lasts third) : first.Lasts third :=
  ⟨right.complete ∘ left.complete, right.expired ∘ left.expired, right.ended ∘ left.ended⟩

theorem isEligible (lasts : before.Lasts after) (eligible : before.isEligible = true) :
    after.isEligible = true := by
  rw [LogStore.isEligible, Bool.and_eq_true] at eligible ⊢
  exact ⟨lasts.complete eligible.1, lasts.ended eligible.2⟩

theorem of_metadata (metadata : after.metadata = before.metadata)
    (ended : after.attemptEnded = before.attemptEnded) : before.Lasts after := by
  refine ⟨?_, ?_, ended ▸ id⟩
  · simp [isComplete, metadata]
  · simp [isExpired, metadata]

theorem updateLogMetadata (store : LogStore) (storedBytes : ℕ) (complete : Bool) (now : ℤ) :
    store.Lasts (store.updateLogMetadata storedBytes complete now) := by
  refine ⟨?_, ?_, id⟩
  · cases found : store.metadata with
    | none => simp [isComplete, found]
    | some row => simpa [isComplete, LogStore.updateLogMetadata, found] using .inl
  · cases found : store.metadata with
    | none => simp [isExpired, found]
    | some row => simp [isExpired, LogStore.updateLogMetadata, found]

theorem markLogExpired (store : LogStore) (now : ℤ) : store.Lasts (store.markLogExpired now) := by
  have ages := Ages.mark store now
  exact ⟨ages.complete, fun expired => (ages.expired expired).1, ages.attempt⟩

theorem of_attempts {effect : LogStore} {reply : Except Failure Unit}
    (lasts : before.Lasts effect) (attempts : before.Attempts effect reply after) :
    before.Lasts after := by
  rcases attempts with ⟨-, rfl⟩ | ⟨-, rfl | rfl⟩
  · exact lasts
  · exact .refl after
  · exact lasts

/-- No operation on a log takes anything back. -/
theorem of_step {operation : LogOp} {reply : operation.Reply}
    (stepped : Step before operation reply after) : before.Lasts after := by
  cases operation with
  | logMetadata | fileLength | readExact =>
      rcases stepped with ⟨rfl, -⟩
      exact .refl _
  | authorize | createDirAll | syncData | nowMs =>
      cases stepped
      exact .refl _
  | openFile => exact of_attempts (@of_metadata before before.openFile rfl rfl) stepped
  | removeFile => exact of_attempts (@of_metadata before before.removeFile rfl rfl) stepped
  | appendFile bytes =>
      rcases stepped with ⟨-, rfl⟩ | ⟨-, count, rfl⟩
      · exact of_metadata rfl rfl
      · exact of_metadata rfl rfl
  | updateLogMetadata => exact of_attempts (updateLogMetadata before _ _ _) stepped
  | markLogExpired => exact of_attempts (markLogExpired before _) stepped

end LogStore.Lasts

namespace LogStore

/-- Only the removal of a log takes its file away. -/
theorem Step.file {operation : LogOp} {reply : operation.Reply} {before after : LogStore}
    (keeps : operation ≠ .removeFile) (stepped : Step before operation reply after)
    (present : before.file.isSome = true) : after.file.isSome = true := by
  cases operation with
  | removeFile => exact absurd rfl keeps
  | logMetadata | fileLength | readExact =>
      rcases stepped with ⟨rfl, -⟩
      exact present
  | authorize | createDirAll | syncData | nowMs =>
      cases stepped
      exact present
  | appendFile bytes =>
      rcases stepped with ⟨-, rfl⟩ | ⟨-, count, rfl⟩
      · rfl
      · rfl
  | openFile =>
      rcases stepped with ⟨-, rfl⟩ | ⟨-, rfl | rfl⟩
      · rfl
      · exact present
      · rfl
  | updateLogMetadata =>
      rcases stepped with ⟨-, rfl⟩ | ⟨-, rfl | rfl⟩ <;> exact present
  | markLogExpired now =>
      have same : (before.markLogExpired now).file = before.file := by
        simp only [markLogExpired]
        split
        · rfl
        · split <;> rfl
      rcases stepped with ⟨-, rfl⟩ | ⟨-, rfl | rfl⟩
      · exact same ▸ present
      · exact present
      · exact same ▸ present

end LogStore

namespace LogShelf

/-- Every log lasts. -/
def Lasts (before after : LogShelf) : Prop := ∀ key, (before.store key).Lasts (after.store key)

/-- A file is there no more only if its row is marked expired. -/
def RemovesExpiredOnly (before after : LogShelf) : Prop :=
  ∀ key, (before.store key).file.isSome = true → (after.store key).file.isSome = false →
    (before.store key).isExpired = true

/-- What the tasks guarantee to each other. -/
structure Guarantees (before after : LogShelf) : Prop where
  lasts : before.Lasts after
  removes : before.RemovesExpiredOnly after

variable {before after : LogShelf}

theorem Lasts.refl (shelf : LogShelf) : shelf.Lasts shelf := fun _ => .refl _

theorem Lasts.trans {first second third : LogShelf} (left : first.Lasts second)
    (right : second.Lasts third) : first.Lasts third :=
  fun key => (left key).trans (right key)

theorem Guarantees.of_store (same : after.store = before.store) : before.Guarantees after where
  lasts := fun key => same ▸ .refl _
  removes := by
    intro key present absent
    rw [same, present] at absent
    cases absent

/-- One log changes. -/
theorem Guarantees.put {key : LogKey} {store : LogStore}
    (lasts : (before.store key).Lasts store)
    (removes : (before.store key).file.isSome = true → store.file.isSome = false →
      (before.store key).isExpired = true) : before.Guarantees (before.put key store) where
  lasts := by
    intro other
    by_cases same : other = key
    · subst same
      simpa [LogShelf.put] using lasts
    · simpa [LogShelf.put, same] using .refl _
  removes := by
    intro other present absent
    by_cases same : other = key
    · subst same
      exact removes present (by simpa [LogShelf.put] using absent)
    · simp only [LogShelf.put, Function.update_of_ne same, present] at absent
      cases absent

/-- Whatever is not the removal of a log keeps the guarantee. -/
theorem Step.guarantees {operation : ShelfOp} {reply : operation.Reply}
    (keeps : ∀ key, operation ≠ .log key .removeFile) (stepped : Step before operation reply after) :
    before.Guarantees after := by
  cases operation with
  | retentionEntries =>
      rcases stepped with ⟨rfl, -⟩
      exact .of_store rfl
  | nowMs =>
      cases stepped
      exact .of_store rfl
  | createAttempt key =>
      cases stepped
      exact .of_store rfl
  | endAttempt key =>
      cases stepped
      refine .put ⟨id, id, fun _ => rfl⟩ fun present absent => ?_
      rw [present] at absent
      cases absent
  | log key operation =>
      rcases stepped with ⟨store, stepped, rfl⟩
      have isOther : operation ≠ .removeFile := fun same => keeps key (same ▸ rfl)
      refine .put (.of_step stepped) fun present absent => ?_
      rw [stepped.file isOther present] at absent
      cases absent

/-- The removal of a log that has expired. -/
theorem Step.removeFile_guarantees {key : LogKey} {reply : Except Failure Unit}
    (expired : (before.store key).isExpired = true)
    (stepped : Step before (.log key .removeFile) reply after) : before.Guarantees after := by
  rcases stepped with ⟨store, stepped, rfl⟩
  exact .put (.of_step stepped) fun _ _ => expired

end LogShelf

namespace LogRetention

open LogShelf (Lasts Guarantees)

section Rules

variable {α β : Type} {state : LogShelf}

/-- Every step keeps the guarantee, and the end satisfies the postcondition. -/
def Holds (program : ShelfM α) (post : Except Failure α → LogShelf → Prop) (state : LogShelf) :
    Prop :=
  program.run.Safe LogShelf.Step Lasts Guarantees (fun _ => True) post state

/-- A postcondition of the programs that succeed. -/
def OnOk (post : α → LogShelf → Prop) : Except Failure α → LogShelf → Prop
  | .ok value, after => post value after
  | .error _, _ => True

theorem holds_bind {program : ShelfM α} {next : α → ShelfM β} {post : β → LogShelf → Prop}
    (holds : Holds program (OnOk fun value after => Holds (next value) (OnOk post) after) state) :
    Holds (program >>= next) (OnOk post) state := by
  refine Program.safe_exceptBind.mpr (Program.Safe.imp holds ?_)
  rintro (failure | value) after held
  · trivial
  · exact held

theorem holds_pure {post : α → LogShelf → Prop} {value : α} (held : post value state) :
    Holds (pure value) (OnOk post) state :=
  held

theorem holds_retentionEntries {post : List LogRetentionEntry → LogShelf → Prop}
    (held : ∀ after, post after.retentionEntries after) :
    Holds retentionEntries (OnOk post) state := by
  rintro before reply after - - stepped
  refine ⟨⟨stepped.guarantees fun _ => ShelfOp.noConfusion, trivial⟩, ?_⟩
  rcases stepped with ⟨rfl, ⟨failure, rfl⟩ | rfl⟩
  · trivial
  · exact held _

theorem holds_nowMs {post : ℤ → LogShelf → Prop}
    (held : ∀ now after, state.Lasts after → post now after) :
    Holds nowMs (OnOk post) state := by
  rintro before now after lasted - stepped
  refine ⟨⟨stepped.guarantees fun _ => ShelfOp.noConfusion, trivial⟩, ?_⟩
  cases stepped
  exact held now _ lasted

theorem holds_removeFile {key : LogKey} (expired : (state.store key).isExpired = true)
    {post : Unit → LogShelf → Prop} (held : ∀ after, state.Lasts after → post () after) :
    Holds (onLog key Logs.removeFile) (OnOk post) state := by
  rintro before reply after lasted - stepped
  have guaranteed := stepped.removeFile_guarantees ((lasted key).expired expired)
  refine ⟨⟨guaranteed, trivial⟩, ?_⟩
  rcases reply with failure | ⟨⟩
  · trivial
  · exact held after (lasted.trans guaranteed.lasts)

/-- An eligible log is marked before it is removed, whatever the marking reports. -/
theorem holds_expireCandidate {key : LogKey} (eligible : (state.store key).isEligible = true)
    {post : Unit → LogShelf → Prop} (held : ∀ after, state.Lasts after → post () after) :
    Holds (onLog key Logs.expireCandidate) (OnOk post) state := by
  rintro first now second toFirst - stepped
  have clock := stepped.guarantees (by rintro _ ⟨⟩)
  refine ⟨⟨clock, trivial⟩, ?_⟩
  rintro third reply fourth toThird - marked
  have mark := marked.guarantees (by rintro _ ⟨⟩)
  refine ⟨⟨mark, trivial⟩, ?_⟩
  have toThird := (toFirst.trans clock.lasts).trans toThird
  rcases reply with failure | ⟨⟩
  · trivial
  · have expired : (fourth.store key).isExpired = true := by
      rcases marked with ⟨store, ⟨-, rfl⟩ | ⟨⟨_, ⟨⟩⟩, -⟩, rfl⟩
      simpa [LogShelf.put] using
        LogStore.isExpired_markLogExpired ((toThird key).isEligible eligible) now
    exact holds_removeFile expired fun after lasted =>
      held after ((toThird.trans mark.lasts).trans lasted)

end Rules

section Executor

variable {state : LogShelf} {policy : Option RunLogPolicy}

theorem removeExpired_holds {entries : List LogRetentionEntry}
    (expired : ∀ entry ∈ entries, (state.store entry.key).isExpired = true) :
    Holds (removeExpired entries) (OnOk fun _ _ => True) state := by
  induction entries generalizing state with
  | nil => exact holds_pure trivial
  | cons entry rest ih =>
      refine holds_bind (holds_removeFile (expired entry List.mem_cons_self) ?_)
      intro after lasted
      exact ih fun other mem => (lasted other.key).expired (expired other (List.mem_cons_of_mem _ mem))

theorem expireCandidates_holds {candidates : List LogExpiration}
    (eligible : ∀ candidate ∈ candidates, (state.store candidate.key).isEligible = true) :
    Holds (expireCandidates candidates) (OnOk fun _ _ => True) state := by
  induction candidates generalizing state with
  | nil => exact holds_pure trivial
  | cons candidate rest ih =>
      refine holds_bind (holds_expireCandidate (eligible candidate List.mem_cons_self) ?_)
      intro after lasted
      exact ih fun other mem =>
        (lasted other.key).isEligible (eligible other (List.mem_cons_of_mem _ mem))

/-- Whatever is planned was eligible when it was planned. -/
theorem eligible_of_planned {shelf : LogShelf} {now : ℤ} {candidate : LogExpiration}
    (planned : candidate ∈ (planLogMaintenance policy now shelf.retentionEntries).candidates) :
    (shelf.store candidate.key).isEligible = true := by
  have minimal : Minimal policy now shelf.retentionEntries _ :=
    planLogMaintenance_minimal shelf.listing
  rcases minimal.shortest with ⟨chosen, same, shortest⟩
  rw [same, List.mem_map] at planned
  rcases planned with ⟨entry, isChosen, rfl⟩
  have isOpen := shortest.isPrefix.subset isChosen
  rw [List.mem_filter] at isOpen
  rcases LogShelf.mem_retentionEntries isOpen.1 with ⟨row, -, eligible, -⟩
  exact eligible ▸ (Bool.and_eq_true_iff.mp isOpen.2).2

theorem executeLogMaintenance_holds :
    Holds (executeLogMaintenance policy) (OnOk fun _ _ => True) state := by
  refine holds_bind (holds_retentionEntries fun first => holds_bind ?_)
  refine Program.Safe.imp (removeExpired_holds ?_) ?_
  · intro entry mem
    rw [List.mem_filter] at mem
    rcases LogShelf.mem_retentionEntries mem.1 with ⟨row, found, -, expired⟩
    simpa [LogStore.isExpired, found, expired] using mem.2
  · rintro (failure | _) second -
    · trivial
    refine holds_bind (holds_retentionEntries fun third => holds_bind (holds_nowMs ?_))
    intro now fourth lasted
    refine holds_bind (Program.Safe.imp (expireCandidates_holds ?_) ?_)
    · exact fun candidate planned => (lasted candidate.key).isEligible (eligible_of_planned planned)
    · rintro (failure | _) fifth -
      · trivial
      · exact holds_pure trivial

end Executor

section Uploads

variable {α β : Type}

/-- A program that never removes its log. -/
def Leaves (program : LogM α) : Prop :=
  program.run.Every (fun operation => operation ≠ .removeFile) fun _ => True

theorem leaves_pure (value : α) : Leaves (pure value) := trivial

theorem leaves_throw (failure : Failure) : Leaves (throw failure : LogM α) := trivial

/-- An operation other than the removal. -/
theorem leaves_perform {operation : LogOp} (keeps : operation ≠ .removeFile) :
    (Program.request operation : Program LogOp LogOp.Reply _).Every
      (fun operation => operation ≠ .removeFile) fun _ => True :=
  ⟨keeps, fun _ => trivial⟩

theorem leaves_nowMs : Leaves Logs.nowMs := ⟨LogOp.noConfusion, fun _ => trivial⟩

theorem leaves_bind {program : LogM α} {next : α → LogM β} (first : Leaves program)
    (second : ∀ value, Leaves (next value)) : Leaves (program >>= next) := by
  rw [Leaves, ExceptT.run_bind]
  refine Program.every_bind.mpr (first.imp ?_)
  rintro (failure | value) -
  · trivial
  · exact second value

theorem leaves_checkOverlap (request : LogRequest) (stored : ℕ) :
    Leaves (request.checkOverlap stored) := by
  unfold LogRequest.checkOverlap
  split
  · refine leaves_bind (leaves_perform LogOp.noConfusion) fun old => ?_
    split
    · exact leaves_throw _
    · exact leaves_pure _
  · exact leaves_pure _

theorem leaves_appendTail (tail : List UInt8) : Leaves (LogRequest.appendTail tail) := by
  unfold LogRequest.appendTail
  split
  · exact leaves_pure _
  · refine leaves_bind (leaves_perform LogOp.noConfusion) fun _ => ?_
    exact leaves_perform LogOp.noConfusion

theorem leaves_appendOpen (request : LogRequest) : Leaves request.appendOpen := by
  refine leaves_bind (leaves_perform LogOp.noConfusion) fun _ => ?_
  refine leaves_bind (leaves_perform LogOp.noConfusion) fun _ => ?_
  refine leaves_bind (leaves_perform LogOp.noConfusion) fun stored => ?_
  split
  · exact leaves_throw _
  · refine leaves_bind (leaves_checkOverlap request stored) fun _ => ?_
    refine leaves_bind (leaves_appendTail _) fun _ => ?_
    refine leaves_bind leaves_nowMs fun now => ?_
    refine leaves_bind (leaves_perform LogOp.noConfusion) fun _ => ?_
    exact leaves_pure _

theorem leaves_uploadLog (request : LogRequest) : Leaves request.uploadLog := by
  refine leaves_bind (leaves_perform LogOp.noConfusion) fun _ => ?_
  split
  · exact leaves_throw _
  refine leaves_bind (leaves_perform LogOp.noConfusion) fun row => ?_
  cases row with
  | none => exact leaves_appendOpen request
  | some row =>
      dsimp only
      split
      · exact leaves_pure _
      · exact leaves_appendOpen request

end Uploads

/-- What the server does with the logs. -/
inductive ServerWork where
  | maintain (policy : Option RunLogPolicy)
  | upload (key : LogKey) (request : LogRequest)
  | endAttempt (key : LogKey)
  | createAttempt (key : LogKey)

def ServerWork.program : ServerWork → Program ShelfOp ShelfOp.Reply Unit
  | .maintain policy => do
      let _ ← (executeLogMaintenance policy).run
      return ()
  | .upload key request => do
      let _ ← (onLog key request.uploadLog).run
      return ()
  | .endAttempt key => Program.request (ShelfOp.endAttempt key)
  | .createAttempt key => Program.request (ShelfOp.createAttempt key)

section Pools

variable {ι : Type} [DecidableEq ι] {state : LogShelf}

/-- The tasks of the server. -/
abbrev ServerPool (ι : Type) := Pool ι ShelfOp ShelfOp.Reply LogShelf

def Starts (_ : ι) (program : Program ShelfOp ShelfOp.Reply Unit) : Prop :=
  ∃ work : ServerWork, program = work.program

abbrev Move (pool after : ServerPool ι) : Prop :=
  Pool.Move (fun _ => LogShelf.Step) Starts pool after

/-- The pools that come about when the server starts on some logs. -/
def Reachable (pool : ServerPool ι) : Prop :=
  ∃ shelf, Relation.ReflTransGen Move ⟨fun _ => .pure (), shelf⟩ pool

/-- Operations that are no removal keep the guarantee. -/
theorem safe_of_every {α : Type} {program : Program ShelfOp ShelfOp.Reply α}
    (every : program.Every (fun operation => ∀ key, operation ≠ .log key .removeFile) fun _ => True) :
    program.Safe LogShelf.Step Lasts Guarantees (fun _ => True) (fun _ _ => True) state := by
  have framed : ∀ before after : LogShelf, True → Lasts before after → True :=
    fun _ _ _ _ => trivial
  refine (Program.Every.safe framed ?_ every trivial).imp fun _ _ _ => trivial
  intro before operation reply after _ keeps stepped
  exact ⟨⟨stepped.guarantees keeps, trivial⟩, trivial⟩

theorem work_safe (work : ServerWork) :
    work.program.Safe LogShelf.Step Lasts Guarantees (fun _ => True) (fun _ _ => True) state := by
  cases work with
  | maintain policy =>
      have holds : Holds (executeLogMaintenance policy) _ state := executeLogMaintenance_holds
      exact Program.safe_bind.mpr (Program.Safe.imp holds fun _ _ _ => trivial)
  | upload key request =>
      have leaves : request.uploadLog.run.Every (fun operation => operation ≠ .removeFile)
        fun _ => True := leaves_uploadLog request
      have every : (onLog key request.uploadLog).run.Every
          (fun operation => ∀ key, operation ≠ .log key .removeFile) fun _ => True :=
        leaves.relabel _ _ fun operation keeps other same => keeps (by cases same; rfl)
      exact Program.safe_bind.mpr ((safe_of_every every).imp fun _ _ _ => trivial)
  | endAttempt key => exact safe_of_every ⟨fun _ => ShelfOp.noConfusion, fun _ => trivial⟩
  | createAttempt key => exact safe_of_every ⟨fun _ => ShelfOp.noConfusion, fun _ => trivial⟩

abbrev Secure (pool : ServerPool ι) : Prop :=
  pool.Secure (fun _ => LogShelf.Step) (fun _ => Lasts) (fun _ => Guarantees) (fun _ => True)
    fun _ _ => True

theorem Reachable.secure {pool : ServerPool ι} (reached : Reachable pool) : Secure pool := by
  rcases reached with ⟨shelf, moves⟩
  induction moves with
  | refl => exact ⟨trivial, fun _ => trivial⟩
  | tail _ move ih =>
      refine Pool.Secure.move (fun _ => .refl) (fun _ _ _ _ => .trans) (fun _ _ _ _ _ => trivial)
        ?_ ?_ ih move
      · exact fun _ _ _ _ _ _ guaranteed => guaranteed.lasts
      · rintro task program state ⟨work, rfl⟩ - -
        exact work_safe work

/-- No step of any task removes a log that has not expired. -/
theorem Reachable.removes {pool after : ServerPool ι} (reached : Reachable pool)
    (move : Move pool after) : pool.state.RemovesExpiredOnly after.state := by
  rcases reached.secure.guaranteed (fun _ => .refl) move with same | ⟨_, guaranteed⟩
  · rw [same]
    exact (Guarantees.of_store rfl).removes
  · exact guaranteed.removes

/--
Retention. Whatever logs there are, the plan of every policy is the minimal
oldest-first one; and however the executor is interleaved with uploads and other
tasks, a log is removed only when it is marked expired.
-/
theorem retention_minimal_and_safe {pool : ServerPool ι} (reached : Reachable pool)
    (policy : Option RunLogPolicy) (now : ℤ) :
    Minimal policy now pool.state.retentionEntries
        (planLogMaintenance policy now pool.state.retentionEntries) ∧
      ∀ after, Move pool after → pool.state.RemovesExpiredOnly after.state :=
  ⟨planLogMaintenance_minimal pool.state.listing, fun _ => reached.removes⟩

end Pools

end LogRetention

namespace Sample

/-- Two complete logs of ended attempts, updated at the same time. -/
def twoLogs : LogShelf where
  attempts := [⟨"run-b", 1⟩, ⟨"run-a", 1⟩]
  distinct := by decide
  store key := ⟨some [1, 2], some ⟨2, true, if key.runId = "run-c" then 5 else 3, none⟩, true⟩

/-- One of them is enough for a cap of two bytes. -/
def capped : Option RunLogPolicy := some ⟨none, some 2⟩

theorem plan_twoLogs :
    LogRetention.planLogMaintenance capped 10 twoLogs.retentionEntries =
      ⟨4, 2, [⟨⟨"run-a", 1⟩, 2⟩]⟩ := by
  decide +kernel

end Sample

namespace LogRetention

open Sample in
/-- The first run by name is the one whose log expires. -/
theorem retention_of_twoLogs :
    Minimal capped 10 twoLogs.retentionEntries ⟨4, 2, [⟨⟨"run-a", 1⟩, 2⟩]⟩ ∧
      ∀ after, Move ⟨fun _ : Unit => .pure (), twoLogs⟩ after →
        twoLogs.RemovesExpiredOnly after.state :=
  plan_twoLogs ▸ @retention_minimal_and_safe _ _ ⟨fun _ : Unit => .pure (), twoLogs⟩
    ⟨twoLogs, .refl⟩ capped 10

end LogRetention

end LzuMirror
