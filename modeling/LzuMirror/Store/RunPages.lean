import LzuMirror.Lib.Keyset
import LzuMirror.Store.Schema
import Mathlib.Data.Prod.Lex
import Mathlib.Data.String.Basic

/-!
# Pages of runs

`Store::query_runs` and a reader that follows its pages: it asks again below the
last run it was given until a page is short. `Environment` is what happens to the
database between two pages. Runs with a later creation time may be inserted, and
the columns that no filter reads may change.
-/

namespace LzuMirror

/-- `RunRecord`. -/
structure RunRecord where
  id : String
  mirrorName : String
  mirrorGeneration : ℕ
  ownerNode : String
  trigger : RunTrigger
  state : RunState
  createdAtMs : ℤ
  startedAtMs : Option ℤ
  finishedAtMs : Option ℤ
  finalExitCode : Option ℤ
  failureKind : Option String
  failureMessage : Option String
  maxAttempts : ℕ
  retryDelayMs : ℕ
  scheduledForAtMs : Option ℤ
  retryDueAtMs : Option ℤ
  cancelRequestedAtMs : Option ℤ
  deriving DecidableEq, Repr

/-- `map_run`. -/
def RunRow.record (row : RunRow) : RunRecord where
  id := row.id
  mirrorName := row.mirrorName
  mirrorGeneration := row.mirrorGeneration
  ownerNode := row.ownerNode
  trigger := row.trigger
  state := row.state
  createdAtMs := row.createdAtMs
  startedAtMs := row.startedAtMs
  finishedAtMs := row.finishedAtMs
  finalExitCode := row.finalExitCode
  failureKind := row.failureKind
  failureMessage := row.failureMessage
  maxAttempts := row.maxAttempts
  retryDelayMs := row.retryDelayMs
  scheduledForAtMs := row.scheduledForAtMs
  retryDueAtMs := row.retryDueAtMs
  cancelRequestedAtMs := row.cancelRequestedAtMs

/-- `RunQuery`. -/
structure RunQuery where
  mirror : Option String
  node : Option String
  state : Option RunState
  trigger : Option RunTrigger
  limit : ℕ
  before : Option String

/-- The order of the pages: by creation time, then by id. -/
abbrev RunKey := ℤ ×ₗ String

def RunRow.pageKey (row : RunRow) : RunKey := toLex (row.createdAtMs, row.id)

def RunRecord.pageKey (record : RunRecord) : RunKey := toLex (record.createdAtMs, record.id)

/-- The filters of the query. -/
def RunQuery.selects (query : RunQuery) (row : RunRow) : Bool :=
  query.mirror.all (fun mirror => row.mirrorName = mirror) &&
    query.node.all (fun node => row.ownerNode = node) &&
    query.state.all (fun state => row.state = state) &&
    query.trigger.all fun trigger => row.trigger = trigger

namespace Database

/-- `Store::query_runs`. -/
def queryRuns (db : Database) (query : RunQuery) : Except StoreError (List RunRecord) :=
  if query.limit = 0 ∨ 500 < query.limit then
    .error (.invalidConfig "Run query limit must be between 1 and 500")
  else
    let cursor := query.before.bind db.runs.find?
    if query.before.isSome ∧ cursor.isNone then .error .attemptNotFound
    else
      .ok ((pageBelow RunRow.pageKey query.selects (cursor.map RunRow.pageKey) query.limit
        db.runs.rows).map RunRow.record)

/-- What a page in the middle is asked with, and what it is cut from. -/
theorem queryRuns_eq_ok {db : Database} {query : RunQuery} {cursor : Option RunRow}
    (positive : 1 ≤ query.limit) (bounded : query.limit ≤ 500)
    (resolved : query.before.bind db.runs.find? = cursor)
    (found : query.before.isSome = cursor.isSome) :
    db.queryRuns query = .ok ((pageBelow RunRow.pageKey query.selects
      (cursor.map RunRow.pageKey) query.limit db.runs.rows).map RunRow.record) := by
  have inRange : ¬(query.limit = 0 ∨ 500 < query.limit) := by omega
  have resolves : ¬(query.before.isSome = true ∧ cursor.isNone = true) := by
    rw [found]
    cases cursor <;> simp
  simp only [queryRuns, inRange, if_false, resolved, resolves]

end Database

/-- The columns that filters and pages read. -/
structure RunRow.SameFiltered (row other : RunRow) : Prop where
  id : other.id = row.id
  mirrorName : other.mirrorName = row.mirrorName
  ownerNode : other.ownerNode = row.ownerNode
  state : other.state = row.state
  trigger : other.trigger = row.trigger
  createdAtMs : other.createdAtMs = row.createdAtMs

/-- The runs are still there, and the new ones are later than the run a reader has come to. -/
structure Database.GrowsAbove (last : RunRecord) (db after : Database) : Prop where
  kept : ∀ row ∈ db.runs, ∃ other ∈ after.runs, row.SameFiltered other
  added : ∀ other ∈ after.runs, (∃ row ∈ db.runs, row.SameFiltered other) ∨
    last.createdAtMs < other.createdAtMs

/-- What happens to the database after each page, given the last run on it. -/
structure Environment where
  change : ℕ → RunRecord → Database → Database
  grows : ∀ (page : ℕ) (last : RunRecord) (db : Database), db.GrowsAbove last (change page last db)

/-- A reader that asks for pages until one is short; `fuel` bounds the number of pages. -/
def readPages (environment : Environment) (query : RunQuery) :
    ℕ → ℕ → Database → Option String → Option (Except StoreError (List RunRecord))
  | 0, _, _, _ => none
  | fuel + 1, number, db, before =>
      match db.queryRuns { query with before } with
      | .error error => some (.error error)
      | .ok page =>
          if page.length < query.limit then some (.ok page)
          else
            match page.getLast? with
            | none => some (.ok page)
            | some last =>
                (readPages environment query fuel (number + 1)
                  (environment.change number last db) (some last.id)).map
                    fun later => later.map (page ++ ·)

section Reading

variable {db after : Database} {query : RunQuery} {row other : RunRow} {last : RunRecord}

@[simp]
theorem RunRow.record_id (row : RunRow) : row.record.id = row.id := rfl

@[simp]
theorem RunRow.record_pageKey (row : RunRow) : row.record.pageKey = row.pageKey := rfl

theorem RunRow.SameFiltered.pageKey (same : row.SameFiltered other) :
    other.pageKey = row.pageKey := by
  simp [RunRow.pageKey, same.id, same.createdAtMs]

theorem RunRow.SameFiltered.selects (same : row.SameFiltered other) (query : RunQuery) :
    query.selects other = query.selects row := by
  simp [RunQuery.selects, same.mirrorName, same.ownerNode, same.state, same.trigger]

/-- Ids tell runs apart, also with equal creation times. -/
theorem Database.nodup_pageKeys (db : Database) : (db.runs.rows.map RunRow.pageKey).Nodup := by
  have ids : (db.runs.rows.map RunRow.pageKey).map (fun key => (ofLex key).2) =
      db.runs.rows.map RunRow.id := by
    rw [List.map_map]
    rfl
  exact List.Nodup.of_map _ (ids ▸ db.runs.nodup)

/-- Below the run a reader has come to the same runs are selected. -/
theorem Database.GrowsAbove.selected_iff (grows : db.GrowsAbove last after) {wanted : RunKey}
    (below : wanted < last.pageKey) :
    (∃ row ∈ after.runs.rows, query.selects row = true ∧ row.pageKey = wanted) ↔
      ∃ row ∈ db.runs.rows, query.selects row = true ∧ row.pageKey = wanted := by
  constructor
  · rintro ⟨other, member, selected, rfl⟩
    rcases grows.added other member with ⟨row, rowMem, same⟩ | later
    · exact ⟨row, rowMem, (same.selects query).symm.trans selected, same.pageKey.symm⟩
    · have above : last.pageKey < other.pageKey := Prod.Lex.toLex_lt_toLex.mpr (.inl later)
      exact absurd (below.trans above) (lt_irrefl _)
  · rintro ⟨row, member, selected, rfl⟩
    rcases grows.kept row member with ⟨other, otherMem, same⟩
    exact ⟨other, otherMem, (same.selects query).trans selected, same.pageKey⟩

/-- The run a reader has come to can be asked for. -/
theorem Database.GrowsAbove.resolves (grows : db.GrowsAbove row.record after)
    (member : row ∈ db.runs) :
    ∃ other, after.runs.find? row.id = some other ∧ other.pageKey = row.pageKey := by
  rcases grows.kept row member with ⟨other, otherMem, same⟩
  exact ⟨other, Table.find?_eq_some_iff.mpr ⟨otherMem, same.id⟩, same.pageKey⟩

/-- From a cursor on, the reader lists the keys that are left below it. -/
theorem readPages_eq (environment : Environment) (positive : 1 ≤ query.limit)
    (bounded : query.limit ≤ 500) {fuel : ℕ} (number : ℕ) {db : Database} {before : Option String}
    {cursor : Option RunRow} (resolved : before.bind db.runs.find? = cursor)
    (found : before.isSome = cursor.isSome)
    (enough : (keysBelow RunRow.pageKey query.selects (cursor.map RunRow.pageKey)
      db.runs.rows).length < fuel) :
    ∃ listed, readPages environment query fuel number db before = some (.ok listed) ∧
      listed.map RunRecord.pageKey =
        keysBelow RunRow.pageKey query.selects (cursor.map RunRow.pageKey) db.runs.rows := by
  induction fuel generalizing number db before cursor with
  | zero => omega
  | succ fuel ih =>
      have asked : db.queryRuns { query with before } = _ :=
        Database.queryRuns_eq_ok positive bounded resolved found
      have selectsSame : ({ query with before } : RunQuery).selects = query.selects := rfl
      have pageKeys : (pageBelow RunRow.pageKey query.selects (cursor.map RunRow.pageKey) query.limit
          db.runs.rows).map RunRow.pageKey = (keysBelow RunRow.pageKey query.selects
            (cursor.map RunRow.pageKey) db.runs.rows).take query.limit := List.map_take
      have recordKeys : ∀ rows : List RunRow,
          (rows.map RunRow.record).map RunRecord.pageKey = rows.map RunRow.pageKey := by
        intro rows
        rw [List.map_map]
        rfl
      have pageRuns : ∀ row ∈ pageBelow RunRow.pageKey query.selects (cursor.map RunRow.pageKey)
          query.limit db.runs.rows, row ∈ db.runs := fun row member =>
        (mem_rowsBelow.mp (List.mem_of_mem_take member)).1
      rw [readPages, asked]
      simp only [selectsSame, List.length_map]
      generalize pageBelow RunRow.pageKey query.selects (cursor.map RunRow.pageKey) query.limit
        db.runs.rows = page at pageKeys pageRuns ⊢
      have sizes := congrArg List.length pageKeys
      rw [List.length_map, List.length_take] at sizes
      by_cases short : page.length < query.limit
      · rw [if_pos short]
        refine ⟨_, rfl, ?_⟩
        rw [recordKeys, pageKeys, List.take_of_length_le (by omega)]
      · rw [if_neg short]
        have nonempty : page ≠ [] := by
          rintro rfl
          simp only [List.length_nil] at short
          omega
        rcases List.getLast?_isSome.mpr nonempty |> Option.isSome_iff_exists.mp with ⟨last, isLast⟩
        have isLastKey : ((keysBelow RunRow.pageKey query.selects (cursor.map RunRow.pageKey)
            db.runs.rows).take query.limit).getLast? = some last.pageKey := by
          rw [← pageKeys, List.getLast?_map, isLast]
          rfl
        have lastRecord : (page.map RunRow.record).getLast? = some last.record := by
          rw [List.getLast?_map, isLast]
          rfl
        have grows := environment.grows number last.record db
        rcases grows.resolves (pageRuns last (List.mem_of_getLast? isLast)) with
          ⟨other, otherFound, sameKey⟩
        -- the next page is cut from what this page leaves
        have next := keysBelow_next db.nodup_pageKeys (Database.nodup_pageKeys _) isLastKey
          fun wanted below => grows.selected_iff below
        rw [← sameKey] at next
        have shorter : (keysBelow RunRow.pageKey query.selects ((some other).map RunRow.pageKey)
            (environment.change number last.record db).runs.rows).length < fuel := by
          rw [Option.map_some, next, List.length_drop]
          omega
        rcases @ih (number + 1) _ (some last.id) (some other) otherFound rfl shorter with
          ⟨later, reads, laterKeys⟩
        rw [Option.map_some, next] at laterKeys
        refine ⟨page.map RunRow.record ++ later, ?_, ?_⟩
        · simp only [lastRecord]
          rw [RunRow.record_id, reads]
          rfl
        · rw [List.map_append, recordKeys, pageKeys, laterKeys, List.take_append_drop]

/-- A reader that follows the pages from the first one lists the runs that were selected when it
began: each once, the latest first. -/
theorem readPages_complete (environment : Environment) (query : RunQuery) (db : Database)
    (positive : 1 ≤ query.limit) (bounded : query.limit ≤ 500) :
    ∃ enough, ∀ fuel, enough ≤ fuel → ∃ listed,
      readPages environment query fuel 0 db none = some (.ok listed) ∧
        (∀ key, key ∈ listed.map RunRecord.pageKey ↔
          ∃ row ∈ db.runs, query.selects row = true ∧ row.pageKey = key) ∧
        listed.Pairwise fun first second => second.createdAtMs < first.createdAtMs ∨
          second.createdAtMs = first.createdAtMs ∧ second.id < first.id := by
  refine ⟨(keysBelow RunRow.pageKey query.selects none db.runs.rows).length + 1, ?_⟩
  intro fuel enough
  have resolved : (none : Option String).bind db.runs.find? = none := rfl
  rcases readPages_eq environment positive bounded 0 resolved rfl enough with
    ⟨listed, reads, keys⟩
  refine ⟨listed, reads, ?_, ?_⟩
  · intro key
    rw [keys]
    simp [mem_keysBelow, belowCursor, Table.mem_def]
  · have descends : (listed.map RunRecord.pageKey).Pairwise (· > ·) := by
      rw [keys]
      exact keysBelow_descend db.nodup_pageKeys
    exact (List.pairwise_map.mp descends).imp fun before => Prod.Lex.toLex_lt_toLex.mp before

end Reading

namespace Sample

/-- A finished manual run. -/
def listedRun (id : String) (createdAtMs : ℤ) : RunRow where
  id
  mirrorName := "alpha"
  mirrorGeneration := 1
  ownerNode := "node-a"
  trigger := .manual
  state := .succeeded
  createdAtMs
  startedAtMs := none
  finishedAtMs := none
  maxAttempts := 1
  retryDelayMs := 0
  attemptCount := 1
  finalExitCode := none
  failureKind := none
  failureMessage := none
  cancelRequestedAtMs := none
  manualRequestId := none
  scheduledForAtMs := none
  retryDueAtMs := none

/-- Three runs, two of them created at once. -/
def threeRuns : Database :=
  { Database.empty with
    runs := ⟨[listedRun "run-1" 1000, listedRun "run-3" 2000, listedRun "run-2" 2000], by decide⟩ }

/-- A run that arrives while pages are read. -/
def withArrival (number : ℕ) (last : RunRecord) (db : Database) : Database :=
  match db.runs.insert? (listedRun ("late-" ++ toString number) (last.createdAtMs + 1)) with
  | none => db
  | some runs => { db with runs }

theorem sameFiltered_refl (row : RunRow) : row.SameFiltered row := ⟨rfl, rfl, rfl, rfl, rfl, rfl⟩

def arrivals : Environment where
  change := withArrival
  grows := by
    intro number last db
    unfold withArrival
    split
    next => exact ⟨fun row member => ⟨row, member, sameFiltered_refl row⟩,
      fun row member => .inl ⟨row, member, sameFiltered_refl row⟩⟩
    next runs inserted =>
      have members := (Table.insert?_eq_some inserted).2
      constructor
      · exact fun row member => ⟨row, (members row).mpr (.inl member), sameFiltered_refl row⟩
      · intro row member
        rcases (members row).mp member with old | rfl
        · exact .inl ⟨row, old, sameFiltered_refl row⟩
        · right
          simp only [listedRun]
          omega

def twoPerPage : RunQuery := ⟨none, some "node-a", none, some .manual, 2, none⟩

end Sample

open Sample in
theorem threeRuns_complete :
    ∃ enough, ∀ fuel, enough ≤ fuel → ∃ listed,
      readPages arrivals twoPerPage fuel 0 threeRuns none = some (.ok listed) ∧
        (∀ key, key ∈ listed.map RunRecord.pageKey ↔
          ∃ row ∈ threeRuns.runs, twoPerPage.selects row = true ∧ row.pageKey = key) ∧
        listed.Pairwise fun first second => second.createdAtMs < first.createdAtMs ∨
          second.createdAtMs = first.createdAtMs ∧ second.id < first.id :=
  readPages_complete arrivals twoPerPage threeRuns (by decide) (by decide)

end LzuMirror
