import Mathlib.Data.List.Forall2
import Mathlib.Tactic.Common

/-!
# Computations that may fail

When a computation in `Except` returns a value: every step of it has returned
one. A loop of checks passes when every check does, and a loop that collects
results collects those of every element.
-/

namespace LzuMirror

theorem bind_eq_ok {ε α β : Type} {first : Except ε α} {rest : α → Except ε β} {result : β} :
    (first >>= rest) = .ok result ↔ ∃ value, first = .ok value ∧ rest value = .ok result := by
  cases first <;> simp [bind, Except.bind]

theorem check_bind_eq_ok {ε β : Type} {check : Except ε Unit} {rest : Unit → Except ε β}
    {result : β} : (check >>= rest) = .ok result ↔ check = .ok () ∧ rest () = .ok result := by
  rw [bind_eq_ok]
  exact ⟨fun ⟨(), passes, returns⟩ => ⟨passes, returns⟩,
    fun ⟨passes, returns⟩ => ⟨(), passes, returns⟩⟩

@[simp]
theorem pure_eq_ok {ε α : Type} (value : α) : (pure value : Except ε α) = .ok value := rfl

/-- A loop of checks passes when every check does. -/
theorem forM_eq_ok {ε α : Type} {check : α → Except ε Unit} {list : List α} :
    forM list check = .ok () ↔ ∀ element ∈ list, check element = .ok () := by
  induction list with
  | nil => simp [pure, Except.pure]
  | cons first rest ih =>
      simp [List.forM_cons, check_bind_eq_ok, ih]

theorem mapError_eq_ok {ε δ α : Type} {result : Except ε α} {wrap : ε → δ} {value : α} :
    result.mapError wrap = .ok value ↔ result = .ok value := by
  cases result <;> simp [Except.mapError]

/-- A loop that collects results has one for each element. -/
theorem mapM_eq_ok {ε α β : Type} {read : α → Except ε β} {list : List α} {results : List β} :
    list.mapM read = .ok results ↔
      List.Forall₂ (fun element result => read element = .ok result) list results := by
  induction list generalizing results with
  | nil =>
      rw [List.mapM_nil, pure_eq_ok, Except.ok.injEq, List.forall₂_nil_left_iff, eq_comm]
  | cons first rest ih =>
      simp only [List.mapM_cons, bind_eq_ok, pure_eq_ok, Except.ok.injEq, ih]
      constructor
      · rintro ⟨result, reads, others, restReads, rfl⟩
        exact .cons reads restReads
      · rintro (_ | ⟨reads, restReads⟩)
        exact ⟨_, reads, _, restReads, rfl⟩

section Collecting

variable {ε α β : Type} {read : α → Except ε β} {list : List α} {results : List β}

/-- A loop that has collected its results has read every element. -/
theorem exists_ok_of_mapM (collected : list.mapM read = .ok results) :
    ∀ element ∈ list, ∃ result, read element = .ok result := by
  intro element member
  rcases List.forall₂_iff_get.mp (mapM_eq_ok.mp collected) with ⟨sizes, each⟩
  rcases List.mem_iff_get.mp member with ⟨index, rfl⟩
  exact ⟨_, each index index.isLt (sizes ▸ index.isLt)⟩

/-- A loop that can read every element collects its results. -/
theorem mapM_of_forall (reads : ∀ element ∈ list, ∃ result, read element = .ok result) :
    ∃ results, list.mapM read = .ok results := by
  induction list with
  | nil => exact ⟨[], rfl⟩
  | cons first rest ih =>
      rw [List.forall_mem_cons] at reads
      rcases reads with ⟨⟨result, head⟩, restReads⟩
      rcases ih restReads with ⟨others, collected⟩
      exact ⟨result :: others, by rw [List.mapM_cons, head, collected]; rfl⟩

/-- The results of a loop whose reading gives a known value wherever it succeeds. -/
theorem eq_map_of_mapM {value : α → β} (collected : list.mapM read = .ok results)
    (reads : ∀ element result, read element = .ok result → result = value element) :
    results = list.map value := by
  have each : List.Forall₂ (fun element result => result = value element) list results :=
    (mapM_eq_ok.mp collected).imp fun element result read => reads element result read
  have mapped : List.Forall₂ Eq (list.map value) results :=
    List.forall₂_map_left_iff.mpr (each.imp fun _ _ same => same.symm)
  exact (List.forall₂_eq_eq_eq ▸ mapped : list.map value = results).symm

end Collecting

end LzuMirror
