import Mathlib.Data.List.Nodup
import Mathlib.Data.List.Perm.Basic
import Mathlib.Order.Basic
import Mathlib.Order.Lattice
import Mathlib.Tactic.Common

/-!
# Maps as ordered lists

A finite map over ordered keys as the list of its entries in key order. Writing
a key that is there replaces its value. Such a list is determined by the entries
in it, so the order in which fresh keys were written cannot be seen in it.
-/

namespace LzuMirror

variable {κ ι : Type} [LinearOrder κ]

/-- The entry of a key is written; an entry that the key had is replaced. -/
def insertKey (key : κ) (value : ι) : List (κ × ι) → List (κ × ι)
  | [] => [(key, value)]
  | entry :: rest =>
      if key < entry.1 then (key, value) :: entry :: rest
      else if key = entry.1 then (key, value) :: rest
      else entry :: insertKey key value rest

/-- Each key is before those that follow it. -/
def KeyOrdered (entries : List (κ × ι)) : Prop :=
  entries.Pairwise fun first second => first.1 < second.1

variable {key : κ} {value : ι} {entries others : List (κ × ι)}

theorem mem_insertKey {entry : κ × ι} (member : entry ∈ insertKey key value entries) :
    entry = (key, value) ∨ entry ∈ entries := by
  induction entries with
  | nil => simpa [insertKey] using member
  | cons first rest ih =>
      simp only [insertKey] at member
      split at member
      · simpa using member
      · split at member
        · rcases List.mem_cons.mp member with written | inRest
          · exact .inl written
          · exact .inr (by simp [inRest])
        · rcases List.mem_cons.mp member with isFirst | inRest
          · exact .inr (by simp [isFirst])
          · rcases ih inRest with written | old
            · exact .inl written
            · exact .inr (by simp [old])

theorem KeyOrdered.insertKey (ordered : KeyOrdered entries) :
    KeyOrdered (insertKey key value entries) := by
  induction entries with
  | nil => simp [LzuMirror.insertKey, KeyOrdered]
  | cons first rest ih =>
      have afterFirst : ∀ entry ∈ rest, first.1 < entry.1 := fun entry member =>
        List.rel_of_pairwise_cons ordered member
      have restOrdered : KeyOrdered rest := ordered.tail
      simp only [LzuMirror.insertKey]
      split
      next before =>
        apply List.Pairwise.cons _ ordered
        intro entry member
        rcases List.mem_cons.mp member with rfl | inRest
        · exact before
        · exact before.trans (afterFirst entry inRest)
      next notBefore =>
        split
        next same =>
          subst same
          exact List.Pairwise.cons afterFirst restOrdered
        next different =>
          apply List.Pairwise.cons _ (ih restOrdered)
          intro entry member
          rcases mem_insertKey member with rfl | old
          · exact lt_of_le_of_ne (not_lt.mp notBefore) (Ne.symm different)
          · exact afterFirst entry old

/-- A fresh key adds its entry and changes no other. -/
theorem insertKey_perm (fresh : key ∉ entries.map Prod.fst) :
    (insertKey key value entries).Perm ((key, value) :: entries) := by
  induction entries with
  | nil => exact .refl _
  | cons first rest ih =>
      simp only [List.map_cons, List.mem_cons, not_or] at fresh
      simp only [insertKey, fresh.1, if_false]
      split
      · exact .refl _
      · exact ((ih fresh.2).cons first).trans (.swap _ _ _)

/-- The entries of an ordered list determine it. -/
theorem KeyOrdered.eq_of_perm (ordered : KeyOrdered entries) (otherOrdered : KeyOrdered others)
    (permuted : entries.Perm others) : entries = others := by
  apply permuted.eq_of_pairwise _ ordered otherOrdered
  intro first second _ _ before after
  exact absurd (before.trans after) (lt_irrefl _)

theorem KeyOrdered.nodup_keys (ordered : KeyOrdered entries) : (entries.map Prod.fst).Nodup := by
  rw [List.Nodup, List.pairwise_map]
  exact ordered.imp fun before => ne_of_lt before

end LzuMirror
