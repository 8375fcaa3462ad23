import Mathlib.Algebra.BigOperators.Group.List.Basic
import Mathlib.Algebra.Order.BigOperators.Group.List
import Mathlib.Algebra.Order.Group.Nat
import Mathlib.Algebra.Order.Ring.Nat
import Mathlib.Data.List.Infix
import Mathlib.Data.List.Nodup
import Mathlib.Tactic.Common

/-!
# Shortest prefixes

The shortest prefix of a list that meets a requirement, or the whole list when
no prefix does. The requirement here is that certain elements are in the prefix
and that what is not in it weighs little enough; when these elements stand in
front, `shed` finds the prefix in one pass.
-/

namespace LzuMirror

variable {α : Type}

/-- The shortest prefix that meets a requirement, if there is one, else everything. -/
structure ShortestPrefix (meets : List α → Prop) (whole chosen : List α) : Prop where
  isPrefix : chosen <+: whole
  shortest : ∀ other, other <+: whole → meets other → meets chosen ∧ chosen <+: other
  otherwise : (∀ other, other <+: whole → ¬ meets other) → chosen = whole

section Shed

variable (weight : α → ℕ)

/-- The elements in front that are dropped until the total is within the cap. -/
def shed (cap : ℕ) : ℕ → List α → List α
  | _, [] => []
  | total, first :: rest =>
      if total ≤ cap then [] else first :: shed cap (total - weight first) rest

/-- What a list weighs. -/
def weigh (list : List α) : ℕ := (list.map weight).sum

@[simp]
theorem weigh_nil : weigh weight [] = 0 := rfl

@[simp]
theorem weigh_cons (first : α) (rest : List α) :
    weigh weight (first :: rest) = weight first + weigh weight rest :=
  rfl

@[simp]
theorem weigh_append (first second : List α) :
    weigh weight (first ++ second) = weigh weight first + weigh weight second := by
  simp [weigh]

theorem weigh_map {β : Type} (f : β → α) (list : List β) :
    weigh weight (list.map f) = weigh (weight ∘ f) list := by
  simp [weigh]

theorem weigh_le_of_sublist {part whole : List α} (sublist : part.Sublist whole) :
    weigh weight part ≤ weigh weight whole :=
  (sublist.map weight).sum_le_sum fun _ _ => Nat.zero_le _

variable {weight} {cap total : ℕ} {list other : List α}

theorem shed_isPrefix : shed weight cap total list <+: list := by
  induction list generalizing total with
  | nil => exact List.prefix_rfl
  | cons first rest ih =>
      rw [shed]
      split
      · exact List.nil_prefix
      · exact (List.prefix_cons_inj first).mpr ih

/-- Every prefix that would do contains the elements that are dropped, and they do. -/
theorem shed_shortest (isPrefix : other <+: list) (enough : total ≤ cap + weigh weight other) :
    total ≤ cap + weigh weight (shed weight cap total list) ∧
      shed weight cap total list <+: other := by
  induction list generalizing total other with
  | nil =>
      cases List.prefix_nil.mp isPrefix
      exact ⟨enough, List.prefix_rfl⟩
  | cons first rest ih =>
      rw [shed]
      split
      next within => exact ⟨within, List.nil_prefix⟩
      next exceeds =>
        cases other with
        | nil => exact absurd enough exceeds
        | cons head tail =>
            rcases List.cons_prefix_cons.mp isPrefix with ⟨rfl, tailPrefix⟩
            rw [weigh_cons] at enough
            rcases @ih (total - weight head) _ tailPrefix (by omega) with ⟨left, within⟩
            refine ⟨?_, (List.prefix_cons_inj head).mpr within⟩
            rw [weigh_cons]
            omega

/-- When nothing would do, everything is dropped. -/
theorem shed_otherwise (exceeds : cap + weigh weight list < total) :
    shed weight cap total list = list := by
  induction list generalizing total with
  | nil => rfl
  | cons first rest ih =>
      rw [weigh_cons] at exceeds
      rw [shed, if_neg (by omega), ih (by omega)]

end Shed

section Required

variable {weight : α → ℕ} {cap : Option ℕ} {total : ℕ} {first later : List α}

/-- Elements are in the prefix, and what is not in it weighs at most the cap, if there is one. -/
def Suffices (weight : α → ℕ) (cap : Option ℕ) (total : ℕ) (required chosen : List α) : Prop :=
  (∀ element ∈ required, element ∈ chosen) ∧
    ∀ limit, cap = some limit → total - weigh weight chosen ≤ limit

/-- The elements that are dropped after the required ones. -/
def shedTo (weight : α → ℕ) (cap : Option ℕ) (total : ℕ) (list : List α) : List α :=
  match cap with
  | none => []
  | some limit => shed weight limit total list

theorem shedTo_isPrefix {list : List α} : shedTo weight cap total list <+: list := by
  cases cap with
  | none => exact List.nil_prefix
  | some limit => exact shed_isPrefix

/-- A prefix that contains all of a list in front goes on after it. -/
theorem prefix_of_contains {other : List α} (distinct : (first ++ later).Nodup)
    (isPrefix : other <+: first ++ later) (contains : ∀ element ∈ first, element ∈ other) :
    ∃ rest, other = first ++ rest ∧ rest <+: later := by
  rcases List.prefix_or_prefix_of_prefix isPrefix (List.prefix_append first later) with
    shorter | ⟨rest, rfl⟩
  · rcases shorter with ⟨missing, rfl⟩
    cases missing with
    | nil => exact ⟨[], by simp, List.nil_prefix⟩
    | cons element others =>
        have inside := contains element (by simp)
        have apart := (List.nodup_append'.mp (distinct.sublist (List.sublist_append_left _ _))).2.2
        exact absurd List.mem_cons_self (apart inside)
  · exact ⟨rest, rfl, (List.prefix_append_right_inj first).mp isPrefix⟩

/-- Elements that come before all others are in front. -/
theorem filter_append_filter_not {required : α → Bool} {list : List α}
    (ordered : list.Pairwise fun first second => required second = true → required first = true) :
    list.filter required ++ list.filter (fun element => !required element) = list := by
  induction list with
  | nil => rfl
  | cons first rest ih =>
      rcases List.pairwise_cons.mp ordered with ⟨before, restOrdered⟩
      cases isRequired : required first with
      | true => simp [isRequired, ih restOrdered]
      | false =>
          have none : ∀ element ∈ rest, required element = false := by
            intro element mem
            by_contra other
            exact absurd (before element mem (by simpa using other)) (by simp [isRequired])
          have nothing : rest.filter required = [] := by
            simpa [List.filter_eq_nil_iff] using none
          have everything : (rest.filter fun element => !required element) = rest := by
            simpa [List.filter_eq_self] using none
          simp [isRequired, nothing, everything]

/-- Required elements in front, and then as many as have to be dropped. -/
theorem shortestPrefix_shedTo (distinct : (first ++ later).Nodup) :
    ShortestPrefix (Suffices weight cap total first) (first ++ later)
      (first ++ shedTo weight cap (total - weigh weight first) later) where
  isPrefix := (List.prefix_append_right_inj first).mpr shedTo_isPrefix
  shortest := by
    rintro other isPrefix ⟨contains, enough⟩
    rcases prefix_of_contains distinct isPrefix contains with ⟨rest, rfl, restPrefix⟩
    cases cap with
    | none =>
        refine ⟨⟨fun _ mem => List.mem_append_left _ mem, by rintro _ ⟨⟩⟩, ?_⟩
        exact (List.prefix_append_right_inj first).mpr List.nil_prefix
    | some limit =>
        have restEnough : total - weigh weight first ≤ limit + weigh weight rest := by
          have enough := enough limit rfl
          rw [weigh_append] at enough
          omega
        rcases shed_shortest restPrefix restEnough with ⟨left, within⟩
        refine ⟨⟨fun _ mem => List.mem_append_left _ mem, ?_⟩, ?_⟩
        · rintro _ ⟨⟩
          rw [weigh_append, shedTo]
          omega
        · exact (List.prefix_append_right_inj first).mpr within
  otherwise := by
    intro never
    have whole := never _ List.prefix_rfl
    cases cap with
    | none => exact absurd ⟨fun _ mem => List.mem_append_left _ mem, by rintro _ ⟨⟩⟩ whole
    | some limit =>
        have exceeds : limit + weigh weight later < total - weigh weight first := by
          by_contra within
          refine whole ⟨fun _ mem => List.mem_append_left _ mem, ?_⟩
          rintro _ ⟨⟩
          rw [weigh_append]
          omega
        rw [shedTo, shed_otherwise exceeds]

end Required

end LzuMirror
