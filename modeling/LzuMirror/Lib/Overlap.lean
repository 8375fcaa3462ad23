import Mathlib.Data.List.Basic

/-!
# Overlapping lists

Two lists overlap if one is a prefix of the other. For lists of path components
this says that one path is the other or lies above or below it; two paths that
do not overlap name disjoint subtrees.
-/

namespace LzuMirror

variable {α : Type*}

/-- One of two lists is a prefix of the other. -/
def Overlap (first second : List α) : Prop := first <+: second ∨ second <+: first

instance [DecidableEq α] (first second : List α) : Decidable (Overlap first second) :=
  inferInstanceAs (Decidable (_ ∨ _))

namespace Overlap

variable {first second base : List α}

theorem symm (overlap : Overlap first second) : Overlap second first := Or.symm overlap

theorem comm : Overlap first second ↔ Overlap second first := Or.comm

@[simp]
theorem nil_left : Overlap [] second := .inl (List.nil_prefix)

@[simp]
theorem nil_right : Overlap first [] := .inr (List.nil_prefix)

@[simp]
theorem refl : Overlap first first := .inl (List.prefix_refl first)

/-- Below a common directory only the rest counts. -/
@[simp]
theorem append_left : Overlap (base ++ first) (base ++ second) ↔ Overlap first second := by
  simp [Overlap, List.prefix_append_right_inj]

@[simp]
theorem cons {left right : α} :
    Overlap (left :: first) (right :: second) ↔ left = right ∧ Overlap first second := by
  simp only [Overlap, List.cons_prefix_cons]
  constructor
  · rintro (⟨rfl, below⟩ | ⟨rfl, below⟩)
    · exact ⟨rfl, .inl below⟩
    · exact ⟨rfl, .inr below⟩
  · rintro ⟨rfl, below | below⟩
    · exact .inl ⟨rfl, below⟩
    · exact .inr ⟨rfl, below⟩

/-- What overlaps below two directories has overlapping directories. -/
theorem of_append {other : List α} (overlap : Overlap (base ++ first) (other ++ second)) :
    Overlap base other := by
  rcases overlap with below | below
  · exact List.prefix_or_prefix_of_prefix ((List.prefix_append base first).trans below)
      (List.prefix_append other second)
  · exact List.prefix_or_prefix_of_prefix (List.prefix_append base first)
      ((List.prefix_append other second).trans below)

/-- A subtree overlaps whatever a part of it overlaps. -/
theorem of_append_left (overlap : Overlap (base ++ first) second) : Overlap base second :=
  @of_append α first [] base second (by simpa using overlap)

/-- A list that is no prefix of another overlaps the lists below the other only from below. -/
theorem append_iff {other : List α} (apart : ¬other <+: base) :
    Overlap (base ++ first) (other ++ second) ↔
      ∃ between, other = base ++ between ∧ Overlap first (between ++ second) := by
  constructor
  · intro overlap
    rcases of_append overlap with ⟨between, rfl⟩ | below
    · exact ⟨between, rfl, by simpa using overlap⟩
    · exact absurd below apart
  · rintro ⟨between, rfl, overlap⟩
    simpa using overlap

end Overlap

end LzuMirror
