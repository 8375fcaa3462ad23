import Mathlib.Algebra.BigOperators.Group.List.Basic
import Mathlib.Data.List.Nodup
import Mathlib.Data.List.Lemmas
import Mathlib.Tactic.Common

/-!
# Tables with a primary key

A table is a finite list of rows in which the primary key occurs at most once.
The uniqueness proof is a field, so a table that violates its primary key cannot
be built: inserting a row under a used key fails, and an update must keep the
key of every row.

The statements are the ones a relational store is driven by: `INSERT`, `UPDATE
… WHERE`, `DELETE … WHERE`, `SELECT … WHERE`, and `SELECT … ORDER BY … LIMIT 1`.
Each comes with its membership lemma; no other module unfolds the list.
-/

namespace LzuMirror

/-- Rows with a unique primary key. -/
structure Table {Key Row : Type} (key : Row → Key) where
  rows : List Row
  nodup : (rows.map key).Nodup
  deriving DecidableEq

namespace Table

variable {Key Row : Type} [DecidableEq Key] {key : Row → Key}

instance : Membership Row (Table key) where
  mem table row := row ∈ table.rows

omit [DecidableEq Key] in
theorem mem_def {table : Table key} {row : Row} : row ∈ table ↔ row ∈ table.rows := Iff.rfl

/-- The table without rows. -/
def empty : Table key := ⟨[], by simp⟩

/-- `SELECT … WHERE <primary key>`. -/
def find? (table : Table key) (wanted : Key) : Option Row :=
  table.rows.find? fun row => key row = wanted

/-- `EXISTS(SELECT 1 … WHERE …)`. -/
def any (table : Table key) (matching : Row → Bool) : Bool :=
  table.rows.any matching

/-- `SELECT … WHERE …`, in table order. -/
def select (table : Table key) (matching : Row → Bool) : List Row :=
  table.rows.filter matching

/-- The first row, in list order, that no other row strictly precedes. -/
def leastBy (precedes : Row → Row → Bool) : List Row → Option Row
  | [] => none
  | row :: rest =>
      match leastBy precedes rest with
      | none => some row
      | some best => if precedes best row then some best else some row

/-- `SELECT … WHERE … ORDER BY … LIMIT 1`. -/
def first (table : Table key) (precedes : Row → Row → Bool) (matching : Row → Bool) :
    Option Row :=
  leastBy precedes (table.select matching)

/-- `INSERT`, which fails when the primary key is taken. -/
def insert? (table : Table key) (row : Row) : Option (Table key) :=
  if fresh : key row ∈ table.rows.map key then none
  else some ⟨table.rows ++ [row], by
    rw [List.map_append, List.nodup_append']
    refine ⟨table.nodup, by simp, ?_⟩
    simpa [List.disjoint_right] using fresh⟩

/-- `UPDATE … SET … WHERE …`; the primary key is never assigned to. -/
def update (table : Table key) (matching : Row → Bool) (set : Row → Row)
    (keeps : ∀ row, key (set row) = key row := by intro row; rfl) : Table key :=
  ⟨table.rows.map fun row => if matching row then set row else row, by
    have same : (table.rows.map fun row => if matching row then set row else row).map key =
        table.rows.map key := by
      rw [List.map_map]
      apply List.map_congr_left
      intro row _
      simp only [Function.comp]
      split
      · exact keeps row
      · rfl
    rw [same]
    exact table.nodup⟩

/-- Two tables row by row: what became of each row, none added and none dropped. -/
def Rowwise (related : Row → Row → Prop) (before after : Table key) : Prop :=
  List.Forall₂ related before.rows after.rows

/-- `INSERT … ON CONFLICT(<primary key>) DO UPDATE` of every column. -/
def put (table : Table key) (row : Row) : Table key :=
  ⟨(table.rows.filter fun other => key other ≠ key row) ++ [row], by
    rw [List.map_append, List.nodup_append']
    refine ⟨table.nodup.sublist ((List.filter_sublist).map key), by simp, ?_⟩
    simp⟩

/-- `DELETE … WHERE …`. -/
def delete (table : Table key) (matching : Row → Bool) : Table key :=
  ⟨table.rows.filter fun row => !matching row, table.nodup.sublist
    ((List.filter_sublist).map key)⟩

section Lemmas

variable {table : Table key} {row other : Row}

omit [DecidableEq Key] in
/-- The primary key identifies its row. -/
theorem eq_of_key_eq (mem : row ∈ table) (otherMem : other ∈ table)
    (same : key row = key other) : row = other :=
  List.inj_on_of_nodup_map table.nodup mem otherMem same

omit [DecidableEq Key] in
@[simp]
theorem not_mem_empty : row ∉ (empty : Table key) := by
  simp [mem_def, empty]

theorem find?_eq_some_iff {wanted : Key} :
    table.find? wanted = some row ↔ row ∈ table ∧ key row = wanted := by
  constructor
  · intro found
    exact ⟨List.mem_of_find?_eq_some found, by simpa using List.find?_some found⟩
  · rintro ⟨mem, rfl⟩
    cases found : table.find? (key row) with
    | none =>
        have absent := List.find?_eq_none.mp found row mem
        simp at absent
    | some best =>
        have bestMem : best ∈ table := List.mem_of_find?_eq_some found
        have bestKey : key best = key row := by simpa using List.find?_some found
        rw [eq_of_key_eq bestMem mem bestKey]

theorem find?_of_mem (mem : row ∈ table) : table.find? (key row) = some row :=
  find?_eq_some_iff.mpr ⟨mem, rfl⟩

omit [DecidableEq Key] in
@[simp]
theorem any_eq_true {matching : Row → Bool} :
    table.any matching = true ↔ ∃ row ∈ table, matching row = true := by
  simp [any, mem_def]

omit [DecidableEq Key] in
@[simp]
theorem any_eq_false {matching : Row → Bool} :
    table.any matching = false ↔ ∀ row ∈ table, matching row = false := by
  simp [any, mem_def]

omit [DecidableEq Key] in
@[simp]
theorem mem_select {matching : Row → Bool} :
    row ∈ table.select matching ↔ row ∈ table ∧ matching row = true := by
  simp [select, mem_def]

theorem mem_of_leastBy {precedes : Row → Row → Bool} {rows : List Row}
    (found : leastBy precedes rows = some row) : row ∈ rows := by
  induction rows generalizing row with
  | nil => simp [leastBy] at found
  | cons head rest ih =>
      simp only [leastBy] at found
      cases tail : leastBy precedes rest with
      | none => simp_all
      | some best =>
          rw [tail] at found
          simp only at found
          split at found
          · cases found
            exact List.mem_cons_of_mem _ (ih tail)
          · cases found
            exact List.mem_cons_self

theorem leastBy_eq_none {precedes : Row → Row → Bool} {rows : List Row} :
    leastBy precedes rows = none ↔ rows = [] := by
  cases rows with
  | nil => simp [leastBy]
  | cons head rest =>
      simp only [leastBy, reduceCtorEq, iff_false]
      cases leastBy precedes rest with
      | none => simp
      | some best => simp only; split <;> simp

omit [DecidableEq Key] in
theorem first_eq_some {precedes : Row → Row → Bool} {matching : Row → Bool}
    (found : table.first precedes matching = some row) : row ∈ table ∧ matching row = true :=
  mem_select.mp (mem_of_leastBy found)

omit [DecidableEq Key] in
theorem first_eq_none {precedes : Row → Row → Bool} {matching : Row → Bool} :
    table.first precedes matching = none ↔ ∀ row ∈ table, matching row = false := by
  simp [first, leastBy_eq_none, select, List.filter_eq_nil_iff, mem_def]

/-- A row under a new key can be inserted. -/
theorem exists_insert? (fresh : ∀ other ∈ table, key other ≠ key row) :
    ∃ next, table.insert? row = some next := by
  have absent : key row ∉ table.rows.map key := by
    rintro used
    rcases List.mem_map.mp used with ⟨other, mem, same⟩
    exact fresh other mem same
  exact ⟨_, dif_neg absent⟩

theorem insert?_eq_some {next : Table key} (inserted : table.insert? row = some next) :
    (∀ other ∈ table, key other ≠ key row) ∧
      ∀ other, other ∈ next ↔ other ∈ table ∨ other = row := by
  unfold insert? at inserted
  split at inserted
  · cases inserted
  next fresh =>
    cases inserted
    refine ⟨?_, ?_⟩
    · intro other mem same
      exact fresh (List.mem_map.mpr ⟨other, mem, same⟩)
    · intro other
      simp [mem_def]

@[simp]
theorem mem_put : other ∈ table.put row ↔ (other ∈ table ∧ key other ≠ key row) ∨ other = row := by
  simp [put, mem_def]

/-- A sum over the rows, with the row of one key taken out. -/
theorem sum_apart {Weight : Type} [AddCommMonoid Weight] (value : Row → Weight) (wanted : Key)
    {rows : List Row} (nodup : (rows.map key).Nodup) :
    ((rows.filter fun other => key other ≠ wanted).map value).sum +
        ((rows.find? fun other => key other = wanted).map value).getD 0 =
      (rows.map value).sum := by
  induction rows with
  | nil => simp
  | cons first rest ih =>
      simp only [List.map_cons, List.nodup_cons] at nodup
      by_cases same : key first = wanted
      · have apart : ∀ other ∈ rest, key other ≠ wanted := by
          intro other mem found
          exact nodup.1 (List.mem_map.mpr ⟨other, mem, found.trans same.symm⟩)
        have kept : rest.filter (fun other => key other ≠ wanted) = rest :=
          List.filter_eq_self.mpr fun other mem => by simpa using apart other mem
        rw [List.filter_cons_of_neg (by simpa using same), kept,
          List.find?_cons_of_pos (by simpa using same), List.map_cons, List.sum_cons, add_comm]
        rfl
      · rw [List.filter_cons_of_pos (by simpa using same),
          List.find?_cons_of_neg (by simpa using same), List.map_cons, List.map_cons,
          List.sum_cons, List.sum_cons, add_assoc, ih nodup.2]

/-- Putting a row replaces the weight of the row of its key. -/
theorem sum_put {Weight : Type} [AddCommMonoid Weight] (value : Row → Weight) :
    ((table.put row).rows.map value).sum + ((table.find? (key row)).map value).getD 0 =
      (table.rows.map value).sum + value row := by
  rw [← sum_apart value (key row) table.nodup]
  simp only [put, find?, List.map_append, List.sum_append, List.map_cons, List.map_nil,
    List.sum_cons, List.sum_nil, add_zero]
  rw [add_right_comm]

omit [DecidableEq Key] in
/-- A row that an update neither matches nor makes. -/
theorem mem_update_of_apart {after : Table key} {matching : Row → Bool} {set : Row → Row}
    (rows : after.rows = table.rows.map fun row => if matching row then set row else row)
    (unmatched : matching row = false) (apart : ∀ old, matching old = true → set old ≠ row) :
    row ∈ after ↔ row ∈ table := by
  simp only [mem_def, rows, List.mem_map]
  constructor
  · rintro ⟨old, mem, made⟩
    split at made
    next matched => exact absurd made (apart old matched)
    next => exact made ▸ mem
  · intro mem
    exact ⟨row, mem, by simp [unmatched]⟩

omit [DecidableEq Key] in
/-- A table whose rows are rewritten one by one. -/
theorem rowwise_of_map {related : Row → Row → Prop} {after : Table key} {rewrite : Row → Row}
    (rows : after.rows = table.rows.map rewrite)
    (pointwise : ∀ row ∈ table, related row (rewrite row)) : Rowwise related table after := by
  unfold Rowwise
  rw [rows, List.forall₂_map_right_iff, List.forall₂_same]
  exact pointwise

omit [DecidableEq Key] in
theorem mem_of_map {after : Table key} {rewrite : Row → Row}
    (rows : after.rows = table.rows.map rewrite) (mem : row ∈ after) :
    ∃ old ∈ table, rewrite old = row := by
  rw [mem_def, rows] at mem
  exact List.mem_map.mp mem

omit [DecidableEq Key] in
theorem Rowwise.imp {related weaker : Row → Row → Prop} {after : Table key}
    (rowwise : Rowwise related table after) (weaken : ∀ a b, related a b → weaker a b) :
    Rowwise weaker table after :=
  List.Forall₂.imp weaken rowwise

omit [DecidableEq Key] in
/-- The rows that are related are rows of the two tables. -/
theorem Rowwise.imp_mem {related weaker : Row → Row → Prop} {after : Table key}
    (rowwise : Rowwise related table after)
    (weaken : ∀ a ∈ table, ∀ b ∈ after, related a b → weaker a b) :
    Rowwise weaker table after := by
  unfold Rowwise at *
  simp only [mem_def] at weaken
  generalize table.rows = oldRows at rowwise weaken ⊢
  generalize after.rows = newRows at rowwise weaken ⊢
  induction rowwise with
  | nil => exact .nil
  | cons head _ ih =>
      refine .cons (weaken _ List.mem_cons_self _ List.mem_cons_self head) (ih ?_)
      intro a aMem b bMem
      exact weaken a (List.mem_cons_of_mem _ aMem) b (List.mem_cons_of_mem _ bMem)

omit [DecidableEq Key] in
theorem Rowwise.and {first second : Row → Row → Prop} {after : Table key}
    (left : Rowwise first table after) (right : Rowwise second table after) :
    Rowwise (fun a b => first a b ∧ second a b) table after := by
  unfold Rowwise at *
  generalize table.rows = oldRows at left right ⊢
  generalize after.rows = newRows at left right ⊢
  induction left with
  | nil => exact .nil
  | cons head _ ih =>
      cases right with
      | cons other rest => exact .cons ⟨head, other⟩ (ih rest)

omit [DecidableEq Key] in
theorem Rowwise.refl {related : Row → Row → Prop} (reflexive : ∀ row, related row row)
    (table : Table key) : Rowwise related table table :=
  List.forall₂_same.mpr fun row _ => reflexive row

omit [DecidableEq Key] in
theorem Rowwise.comp {left right : Row → Row → Prop} {first second third : Table key}
    (before : Rowwise left first second) (after : Rowwise right second third) :
    Rowwise (fun a c => ∃ b, left a b ∧ right b c) first third := by
  unfold Rowwise at *
  generalize first.rows = firstRows at before ⊢
  generalize second.rows = secondRows at before after
  generalize third.rows = lastRows at after ⊢
  induction before generalizing lastRows with
  | nil =>
      cases after
      exact .nil
  | cons head _ ih =>
      cases after with
      | cons next rest => exact .cons ⟨_, head, next⟩ (ih _ rest)

omit [DecidableEq Key] in
theorem Rowwise.trans {related : Row → Row → Prop} {first second third : Table key}
    (transitive : ∀ a b c, related a b → related b c → related a c)
    (left : Rowwise related first second) (right : Rowwise related second third) :
    Rowwise related first third :=
  (left.comp right).imp fun _ _ ⟨_, before, after⟩ => transitive _ _ _ before after

omit [DecidableEq Key] in
/-- Every row of the later table has an origin. -/
theorem Rowwise.origin {related : Row → Row → Prop} {before after : Table key}
    (rowwise : Rowwise related before after) (mem : row ∈ after) :
    ∃ old ∈ before, related old row := by
  unfold Rowwise at rowwise
  simp only [mem_def] at mem ⊢
  generalize before.rows = oldRows at rowwise ⊢
  generalize after.rows = newRows at rowwise mem
  induction rowwise with
  | nil => cases mem
  | cons head _ ih =>
      rcases List.mem_cons.mp mem with rfl | later
      · exact ⟨_, List.mem_cons_self, head⟩
      · obtain ⟨old, oldMem, kept⟩ := ih later
        exact ⟨old, List.mem_cons_of_mem _ oldMem, kept⟩

omit [DecidableEq Key] in
/-- Every row of the earlier table has a successor. -/
theorem Rowwise.successor {related : Row → Row → Prop} {before after : Table key}
    (rowwise : Rowwise related before after) (mem : row ∈ before) :
    ∃ new ∈ after, related row new := by
  have flipped : Rowwise (fun new old => related old new) after before :=
    List.Forall₂.flip rowwise
  exact flipped.origin mem

/-- Rewriting rows rewrites the row stored under each key. -/
theorem find?_of_map {after : Table key} {rewrite : Row → Row} {wanted : Key}
    (rows : after.rows = table.rows.map rewrite) (keeps : ∀ row, key (rewrite row) = key row) :
    after.find? wanted = (table.find? wanted).map rewrite := by
  unfold find?
  rw [rows, List.find?_map]
  congr 2
  funext row
  simp [keeps row]

end Lemmas

end Table

end LzuMirror
