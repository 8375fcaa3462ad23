import Mathlib.Data.List.Basic
import Mathlib.Data.List.Flatten
import Mathlib.Tactic.Common

/-!
# Words and terminated fields

Two ways to keep several texts in one. The words of a text are its maximal
non-empty runs without a separator; joining words with a separator and reading
them back loses nothing. A terminated text writes the terminator after every
field, and the fields can be empty.
-/

namespace LzuMirror

variable {α β : Type} {separates : α → Bool} {text word : List α}

section Words

/-- The maximal non-empty runs without separators. -/
def wordsBy (separates : α → Bool) (text : List α) : List (List α) :=
  (text.splitOnP separates).filter fun piece => !piece.isEmpty

/-- A text of at least one element none of which separates. -/
def IsWord (separates : α → Bool) (word : List α) : Prop :=
  word ≠ [] ∧ ∀ element ∈ word, separates element = false

@[simp]
theorem wordsBy_nil : wordsBy separates [] = [] := by
  simp [wordsBy]

theorem wordsBy_append_cons (first second : List α) {separator : α}
    (separator_separates : separates separator = true) :
    wordsBy separates (first ++ separator :: second) =
      wordsBy separates first ++ wordsBy separates second := by
  simp [wordsBy, List.splitOnP_append_cons _ _ separator_separates]

theorem IsWord.wordsBy (isWord : IsWord separates word) : wordsBy separates word = [word] := by
  simp [LzuMirror.wordsBy, List.splitOnP_eq_singleton isWord.2, isWord.1]

/-- A text is either free of separators or splits at one. -/
theorem free_or_split (separates : α → Bool) (text : List α) :
    (∀ element ∈ text, separates element = false) ∨
      ∃ first separator second, text = first ++ separator :: second ∧
        separates separator = true := by
  by_cases free : ∀ element ∈ text, separates element = false
  · exact .inl free
  · right
    simp only [not_forall, Bool.not_eq_false] at free
    rcases free with ⟨separator, member, separator_separates⟩
    rcases List.append_of_mem member with ⟨first, second, rfl⟩
    exact ⟨first, separator, second, rfl, separator_separates⟩

/-- Splitting at a separator at a time reaches every text. -/
theorem splitInduction {motive : List α → Prop} (separates : α → Bool)
    (free : ∀ text, (∀ element ∈ text, separates element = false) → motive text)
    (split : ∀ first separator second, separates separator = true → motive first →
      motive second → motive (first ++ separator :: second)) (text : List α) : motive text := by
  rcases free_or_split separates text with free' | ⟨first, separator, second, shape, separates'⟩
  · exact free text free'
  · have size := congrArg List.length shape
    simp only [List.length_append, List.length_cons] at size
    have firstHolds := splitInduction separates free split first
    have secondHolds := splitInduction separates free split second
    rw [shape]
    exact split first separator second separates' firstHolds secondHolds
termination_by text.length

theorem isWord_of_mem_wordsBy (member : word ∈ wordsBy separates text) :
    IsWord separates word ∧ ∀ element ∈ word, element ∈ text := by
  induction text using splitInduction separates with
  | free text free =>
      by_cases empty : text = []
      · simp [empty] at member
      · have isWord : IsWord separates text := ⟨empty, free⟩
        rw [isWord.wordsBy, List.mem_singleton] at member
        subst member
        exact ⟨isWord, fun _ member => member⟩
  | split first separator second separator_separates firstIh secondIh =>
      rw [wordsBy_append_cons _ _ separator_separates, List.mem_append] at member
      rcases member with member | member
      · refine ⟨(firstIh member).1, fun element inside => ?_⟩
        simp [(firstIh member).2 element inside]
      · refine ⟨(secondIh member).1, fun element inside => ?_⟩
        simp [(secondIh member).2 element inside]

theorem intercalate_cons_cons (separator : α) (first second : List α) (rest : List (List α)) :
    [separator].intercalate (first :: second :: rest) =
      first ++ separator :: [separator].intercalate (second :: rest) := by
  simp [List.intercalate]

/-- Words joined with a separator are read back. -/
theorem wordsBy_intercalate {separator : α} (separator_separates : separates separator = true)
    {words : List (List α)} (areWords : ∀ word ∈ words, IsWord separates word) :
    wordsBy separates ([separator].intercalate words) = words := by
  induction words with
  | nil => simp [List.intercalate]
  | cons first rest ih =>
      have firstWord := areWords first (by simp)
      have restWords : ∀ word ∈ rest, IsWord separates word := fun word member =>
        areWords word (by simp [member])
      cases rest with
      | nil => simpa [List.intercalate] using firstWord.wordsBy
      | cons second rest =>
          rw [intercalate_cons_cons, wordsBy_append_cons _ _ separator_separates, firstWord.wordsBy,
            ih restWords, List.singleton_append]

theorem mem_of_mem_intercalate {separator element : α} {words : List (List α)}
    (member : element ∈ [separator].intercalate words) :
    element = separator ∨ ∃ word ∈ words, element ∈ word := by
  induction words with
  | nil => simp [List.intercalate] at member
  | cons first rest ih =>
      cases rest with
      | nil => exact .inr ⟨first, by simp, by simpa [List.intercalate] using member⟩
      | cons second rest =>
          rw [intercalate_cons_cons, List.mem_append, List.mem_cons] at member
          rcases member with inFirst | rfl | later
          · exact .inr ⟨first, by simp, inFirst⟩
          · exact .inl rfl
          · rcases ih later with isSeparator | ⟨word, wordMember, inside⟩
            · exact .inl isSeparator
            · exact .inr ⟨word, by simp [wordMember], inside⟩

/-- With more separators, each word falls into the words of its own. -/
theorem wordsBy_refine {coarse fine : α → Bool}
    (finer : ∀ element, coarse element = true → fine element = true) (text : List α) :
    wordsBy fine text = (wordsBy coarse text).flatMap (wordsBy fine) := by
  induction text using splitInduction coarse with
  | free text free =>
      by_cases empty : text = []
      · simp [empty]
      · have isWord : IsWord coarse text := ⟨empty, free⟩
        simp [isWord.wordsBy]
  | split first separator second separator_separates firstIh secondIh =>
      rw [wordsBy_append_cons _ _ separator_separates,
        wordsBy_append_cons _ _ (finer _ separator_separates), firstIh, secondIh,
        List.flatMap_append]

/-- A substitution that keeps what separates acts word by word. -/
theorem wordsBy_map {after : β → Bool} {substitute : α → β}
    (keeps : ∀ element ∈ text, after (substitute element) = separates element) :
    wordsBy after (text.map substitute) = (wordsBy separates text).map (List.map substitute) := by
  induction text using splitInduction separates with
  | free text free =>
      by_cases empty : text = []
      · simp [empty]
      · have isWord : IsWord separates text := ⟨empty, free⟩
        have mapped : IsWord after (text.map substitute) := by
          refine ⟨by simpa using empty, ?_⟩
          simpa using fun element member => (keeps element member).trans (free element member)
        rw [isWord.wordsBy, mapped.wordsBy, List.map_singleton]
  | split first separator second separator_separates firstIh secondIh =>
      have mapped : after (substitute separator) = true :=
        (keeps separator (by simp)).trans separator_separates
      rw [List.map_append, List.map_cons, wordsBy_append_cons _ _ mapped,
        wordsBy_append_cons _ _ separator_separates, List.map_append,
        firstIh fun element member => keeps element (by simp [member]),
        secondIh fun element member => keeps element (by simp [member])]

end Words

section Terminated

/-- Every field followed by the terminator. -/
def terminated (terminator : α) (fields : List (List α)) : List α :=
  fields.flatMap fun field => field ++ [terminator]

/-- A terminated text determines its fields when none of them has the terminator in it. -/
theorem terminated_injective {terminator : α} {fields others : List (List α)}
    (fieldsFree : ∀ field ∈ fields, terminator ∉ field)
    (othersFree : ∀ field ∈ others, terminator ∉ field)
    (same : terminated terminator fields = terminated terminator others) : fields = others := by
  classical
  -- splitting at the terminator gives the fields back, and an empty rest
  have reads : ∀ {fields : List (List α)}, (∀ field ∈ fields, terminator ∉ field) →
      (terminated terminator fields).splitOnP (fun element => decide (element = terminator)) =
        fields ++ [[]] := by
    intro fields free
    induction fields with
    | nil => simp [terminated]
    | cons first rest ih =>
        have firstFree : ∀ element ∈ first, decide (element = terminator) = false := by
          intro element member
          have different : element ≠ terminator := by
            rintro rfl
            exact free first (by simp) member
          simpa using different
        have cut : terminated terminator (first :: rest) =
            first ++ terminator :: terminated terminator rest := by
          simp [terminated]
        rw [cut, List.splitOnP_append_cons_of_forall_mem firstFree _ (by simp),
          ih fun field member => free field (by simp [member]), List.cons_append]
  have read := reads fieldsFree
  rw [same, reads othersFree] at read
  exact (List.append_cancel_right read).symm

end Terminated

end LzuMirror
