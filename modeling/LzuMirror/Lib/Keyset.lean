import Mathlib.Data.List.Sort
import Mathlib.Tactic.Common

/-!
# Keyset pagination

Pages of the selected rows in descending order of a key, where a page begins
below the last key of the page before. What is left below a cursor is a strictly
descending list of keys: the rest of one page is what the next page is cut from,
as long as nothing changes below the cursor.
-/

namespace LzuMirror

variable {α κ : Type} [LinearOrder κ]

/-- The key is below the cursor; without a cursor every key is. -/
def belowCursor (cursor : Option κ) (key : κ) : Bool := cursor.all fun bound => key < bound

/-- The selected rows below a cursor, the largest key first. -/
def rowsBelow (key : α → κ) (selects : α → Bool) (cursor : Option κ) (rows : List α) : List α :=
  (rows.filter fun row => selects row && belowCursor cursor (key row)).mergeSort
    fun first second => decide (key second ≤ key first)

/-- One page. -/
def pageBelow (key : α → κ) (selects : α → Bool) (cursor : Option κ) (limit : ℕ)
    (rows : List α) : List α :=
  (rowsBelow key selects cursor rows).take limit

/-- The keys that are left below a cursor. -/
def keysBelow (key : α → κ) (selects : α → Bool) (cursor : Option κ) (rows : List α) : List κ :=
  (rowsBelow key selects cursor rows).map key

variable {key : α → κ} {selects : α → Bool} {cursor : Option κ} {rows after : List α} {limit : ℕ}
  {last wanted : κ}

theorem belowCursor_of_lt (below : belowCursor cursor last = true) (smaller : wanted < last) :
    belowCursor cursor wanted = true := by
  cases cursor with
  | none => rfl
  | some bound =>
      simp only [belowCursor, Option.all_some, decide_eq_true_eq] at below ⊢
      exact smaller.trans below

theorem mem_rowsBelow {row : α} :
    row ∈ rowsBelow key selects cursor rows ↔
      row ∈ rows ∧ selects row = true ∧ belowCursor cursor (key row) = true := by
  simp [rowsBelow]

theorem mem_keysBelow :
    wanted ∈ keysBelow key selects cursor rows ↔
      belowCursor cursor wanted = true ∧ ∃ row ∈ rows, selects row = true ∧ key row = wanted := by
  simp only [keysBelow, List.mem_map, mem_rowsBelow]
  constructor
  · rintro ⟨row, ⟨member, selected, below⟩, rfl⟩
    exact ⟨below, row, member, selected, rfl⟩
  · rintro ⟨below, row, member, selected, rfl⟩
    exact ⟨row, ⟨member, selected, below⟩, rfl⟩

/-- With unique keys the keys of the pages strictly descend. -/
theorem keysBelow_descend (unique : (rows.map key).Nodup) :
    (keysBelow key selects cursor rows).Pairwise (· > ·) := by
  have sorted : (rowsBelow key selects cursor rows).Pairwise
      fun first second => key second ≤ key first := by
    have pairs := @List.pairwise_mergeSort α (fun first second => decide (key second ≤ key first))
      (fun _ _ _ before later => by
        simp only [decide_eq_true_eq] at before later ⊢
        exact later.trans before)
      (fun first second => by simpa using le_total (key second) (key first))
      (rows.filter fun row => selects row && belowCursor cursor (key row))
    exact pairs.imp fun before => by simpa using before
  have distinct : ((rowsBelow key selects cursor rows).map key).Nodup := by
    have permuted := (List.mergeSort_perm (rows.filter fun row =>
      selects row && belowCursor cursor (key row)) fun first second =>
        decide (key second ≤ key first)).map key
    exact permuted.nodup_iff.mpr (unique.sublist (List.filter_sublist.map key))
  have weak : (keysBelow key selects cursor rows).Pairwise (· ≥ ·) := List.pairwise_map.mpr sorted
  exact (weak.and distinct).imp fun pair => lt_of_le_of_ne pair.1 pair.2.symm

/-- Strictly descending lists with the same members are the same. -/
theorem eq_of_descend {first second : List κ} (firstDescends : first.Pairwise (· > ·))
    (secondDescends : second.Pairwise (· > ·)) (same : ∀ key, key ∈ first ↔ key ∈ second) :
    first = second := by
  have permuted : first.Perm second :=
    (List.perm_ext_iff_of_nodup (firstDescends.imp fun before => ne_of_gt before)
      (secondDescends.imp fun before => ne_of_gt before)).mpr same
  apply permuted.eq_of_pairwise _ firstDescends secondDescends
  intro left right _ _ before later
  exact absurd (before.trans later) (lt_irrefl _)

/-- Below the last key of a page is what the page leaves. -/
theorem mem_drop_of_getLast {keys : List κ} (descends : keys.Pairwise (· > ·))
    (isLast : (keys.take limit).getLast? = some last) :
    wanted ∈ keys.drop limit ↔ wanted ∈ keys ∧ wanted < last := by
  rcases List.getLast?_eq_some_iff.mp isLast with ⟨front, shape⟩
  have whole : keys = front ++ last :: keys.drop limit := by
    rw [List.append_cons, ← shape, List.take_append_drop]
  rw [whole, List.pairwise_append] at descends
  rcases descends with ⟨_, tail, across⟩
  have smaller : ∀ key ∈ keys.drop limit, key < last := fun key member =>
    List.rel_of_pairwise_cons tail member
  constructor
  · intro member
    exact ⟨List.mem_of_mem_drop member, smaller wanted member⟩
  · rintro ⟨member, less⟩
    rw [whole, List.mem_append, List.mem_cons] at member
    rcases member with inFront | rfl | later
    · exact absurd (less.trans (across wanted inFront last (by simp))) (lt_irrefl _)
    · exact absurd less (lt_irrefl _)
    · exact later

/-- If nothing changes below the last key of a page, the next pages are cut from its rest. -/
theorem keysBelow_next (unique : (rows.map key).Nodup) (uniqueAfter : (after.map key).Nodup)
    (isLast : ((keysBelow key selects cursor rows).take limit).getLast? = some last)
    (kept : ∀ wanted < last, (∃ row ∈ after, selects row = true ∧ key row = wanted) ↔
      ∃ row ∈ rows, selects row = true ∧ key row = wanted) :
    keysBelow key selects (some last) after = (keysBelow key selects cursor rows).drop limit := by
  have descends : (keysBelow key selects cursor rows).Pairwise (· > ·) := keysBelow_descend unique
  have lastMem : last ∈ keysBelow key selects cursor rows :=
    List.mem_of_mem_take (List.mem_of_getLast? isLast)
  have lastBelow := (mem_keysBelow.mp lastMem).1
  apply eq_of_descend (keysBelow_descend uniqueAfter) (descends.sublist (List.drop_sublist _ _))
  intro wanted
  rw [mem_drop_of_getLast descends isLast, mem_keysBelow, mem_keysBelow]
  simp only [belowCursor, Option.all_some, decide_eq_true_eq]
  constructor
  · rintro ⟨less, present⟩
    exact ⟨⟨belowCursor_of_lt lastBelow less, (kept wanted less).mp present⟩, less⟩
  · rintro ⟨⟨_, present⟩, less⟩
    exact ⟨less, (kept wanted less).mpr present⟩

end LzuMirror
