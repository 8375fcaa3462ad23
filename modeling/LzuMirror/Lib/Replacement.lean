import Mathlib.Data.List.Infix
import Mathlib.Tactic.Common

/-!
# Replacing every occurrence of a list

`replaceAll` reads a list once from left to right and puts a replacement in the
place of every occurrence of a wanted list; what it puts there it does not read
again. `replaceAll_first` splits the list at the first occurrence, and
`replaceAll_append` says when two parts can be treated separately: no occurrence
may cross the boundary.

A bracketed list starts and ends with symbols that do not occur inside it. Two
bracketed lists cannot overlap in part, so that the occurrences of several
bracketed lists in one text are independent.
-/

namespace LzuMirror

variable {α : Type*}

section Equations

variable [DecidableEq α]

/-- `str::replace` for a non-empty pattern; `skip` characters belong to the last match. -/
def replaceAll (wanted replacement : List α) : ℕ → List α → List α
  | _, [] => []
  | skip + 1, _ :: rest => replaceAll wanted replacement skip rest
  | 0, character :: rest =>
      if wanted.isPrefixOf (character :: rest) then
        replacement ++ replaceAll wanted replacement (wanted.length - 1) rest
      else character :: replaceAll wanted replacement 0 rest

variable {wanted replacement : List α}

@[simp]
theorem replaceAll_nil (skip : ℕ) : replaceAll wanted replacement skip [] = [] := by
  cases skip <;> rfl

theorem replaceAll_skip (skip : ℕ) (text : List α) :
    replaceAll wanted replacement skip text =
      replaceAll wanted replacement 0 (text.drop skip) := by
  induction text generalizing skip with
  | nil => simp
  | cons character rest ih =>
      cases skip with
      | zero => rfl
      | succ skip => simpa [replaceAll] using ih skip

variable (replacement) in
/-- At an occurrence the replacement is written and the occurrence is passed. -/
theorem replaceAll_match (nonempty : wanted ≠ []) (rest : List α) :
    replaceAll wanted replacement 0 (wanted ++ rest) =
      replacement ++ replaceAll wanted replacement 0 rest := by
  rcases wanted with _ | ⟨first, others⟩
  · exact absurd rfl nonempty
  · have here : (first :: others).isPrefixOf (first :: (others ++ rest)) = true := by
      rw [List.isPrefixOf_iff_prefix, ← List.cons_append]
      exact List.prefix_append _ _
    rw [List.cons_append, replaceAll, if_pos here, replaceAll_skip]
    simp

/-- Elsewhere one symbol is copied. -/
theorem replaceAll_copy {character : α} {rest : List α}
    (elsewhere : ¬wanted <+: character :: rest) :
    replaceAll wanted replacement 0 (character :: rest) =
      character :: replaceAll wanted replacement 0 rest := by
  rw [replaceAll, if_neg (by rwa [List.isPrefixOf_iff_prefix])]

/-- A text without occurrences stays as it is. -/
theorem replaceAll_of_absent {text : List α} (absent : ¬wanted <:+: text) :
    replaceAll wanted replacement 0 text = text := by
  induction text with
  | nil => simp
  | cons character rest ih =>
      have elsewhere : ¬wanted <+: character :: rest := fun here => absent here.isInfix
      have later : ¬wanted <:+: rest := fun occurs => absent (List.infix_cons occurs)
      rw [replaceAll_copy elsewhere, ih later]

variable (replacement) in
/-- The first occurrence splits the text. -/
theorem replaceAll_first (nonempty : wanted ≠ []) {text : List α} (occurs : wanted <:+: text) :
    ∃ before after, text = before ++ wanted ++ after ∧
      replaceAll wanted replacement 0 text =
        before ++ replacement ++ replaceAll wanted replacement 0 after := by
  induction text with
  | nil => exact absurd (List.infix_nil.mp occurs) nonempty
  | cons character rest ih =>
      by_cases here : wanted <+: character :: rest
      · rcases here with ⟨after, spelled⟩
        refine ⟨[], after, by simpa using spelled.symm, ?_⟩
        rw [← spelled, replaceAll_match _ nonempty]
        simp
      · have later : wanted <:+: rest := (List.infix_cons_iff.mp occurs).resolve_left here
        rcases ih later with ⟨before, after, rfl, replaced⟩
        refine ⟨character :: before, after, by simp, ?_⟩
        rw [replaceAll_copy here, replaced]
        simp

/-- Two parts are treated separately if no occurrence crosses the boundary between them. -/
theorem replaceAll_append (nonempty : wanted ≠ []) {first second : List α}
    (apart : ∀ front back, front ≠ [] → back ≠ [] → wanted = front ++ back →
      front <:+ first → ¬back <+: second) :
    replaceAll wanted replacement 0 (first ++ second) =
      replaceAll wanted replacement 0 first ++ replaceAll wanted replacement 0 second := by
  induction length : first.length using Nat.strong_induction_on generalizing first with
  | _ length ih =>
      subst length
      by_cases here : wanted <+: first
      · -- an occurrence at the front is passed as a whole
        rcases here with ⟨after, rfl⟩
        have shorter : after.length < (wanted ++ after).length := by
          have positive := List.length_pos_iff.mpr nonempty
          simp only [List.length_append]
          omega
        have laterApart : ∀ front back, front ≠ [] → back ≠ [] → wanted = front ++ back →
            front <:+ after → ¬back <+: second := by
          intro front back frontNe backNe split suffix
          exact apart front back frontNe backNe split (suffix.trans (List.suffix_append _ _))
        rw [List.append_assoc, replaceAll_match _ nonempty, replaceAll_match _ nonempty,
          ih _ shorter laterApart rfl, List.append_assoc]
      · rcases first with _ | ⟨character, rest⟩
        · simp
        · have elsewhere : ¬wanted <+: character :: (rest ++ second) := by
            intro start
            rw [← List.cons_append] at start
            rcases List.prefix_or_prefix_of_prefix start (List.prefix_append _ second) with
              inside | ⟨back, rfl⟩
            · exact here inside
            · have backNe : back ≠ [] := by
                rintro rfl
                exact here (by simp)
              exact apart _ back (by simp) backNe rfl (List.suffix_refl _)
                ((List.prefix_append_right_inj _).mp start)
          have laterApart : ∀ front back, front ≠ [] → back ≠ [] → wanted = front ++ back →
              front <:+ rest → ¬back <+: second := by
            intro front back frontNe backNe split suffix
            exact apart front back frontNe backNe split (suffix.trans (List.suffix_cons _ _))
          rw [List.cons_append, replaceAll_copy elsewhere, replaceAll_copy here,
            ih rest.length (by simp) laterApart rfl, List.cons_append]

variable (replacement) in
/-- Every replaced occurrence changes the length by the same amount. -/
theorem length_replaceAll (nonempty : wanted ≠ []) (text : List α) :
    ∃ count, (replaceAll wanted replacement 0 text).length + count * wanted.length =
        text.length + count * replacement.length ∧ (wanted <:+: text → 0 < count) := by
  induction length : text.length using Nat.strong_induction_on generalizing text with
  | _ length ih =>
      subst length
      by_cases occurs : wanted <:+: text
      · rcases replaceAll_first replacement nonempty occurs with
          ⟨before, after, rfl, replaced⟩
        have shorter : after.length < (before ++ wanted ++ after).length := by
          have positive := List.length_pos_iff.mpr nonempty
          simp only [List.length_append]
          omega
        rcases ih after.length shorter after rfl with ⟨count, counted, _⟩
        refine ⟨count + 1, ?_, fun _ => by omega⟩
        rw [replaced]
        simp only [List.length_append, Nat.succ_mul]
        omega
      · refine ⟨0, ?_, fun present => absurd present occurs⟩
        rw [replaceAll_of_absent occurs]
        simp

theorem le_length_replaceAll (nonempty : wanted ≠ [])
    (longer : wanted.length ≤ replacement.length) (text : List α) :
    text.length ≤ (replaceAll wanted replacement 0 text).length := by
  rcases length_replaceAll replacement nonempty text with ⟨count, counted, _⟩
  have grown := Nat.mul_le_mul_left count longer
  omega

theorem lt_length_replaceAll (nonempty : wanted ≠ [])
    (longer : wanted.length < replacement.length) {text : List α} (occurs : wanted <:+: text) :
    text.length < (replaceAll wanted replacement 0 text).length := by
  rcases length_replaceAll replacement nonempty text with
    ⟨count, counted, positive⟩
  have grown := Nat.mul_lt_mul_of_pos_left longer (positive occurs)
  omega

/-- Replacing an occurrence by something else changes the text. -/
theorem replaceAll_ne_self (nonempty : wanted ≠ []) (different : replacement ≠ wanted)
    {text : List α} (occurs : wanted <:+: text) :
    replaceAll wanted replacement 0 text ≠ text := by
  intro same
  rcases length_replaceAll replacement nonempty text with
    ⟨count, counted, positive⟩
  have lengths : replacement.length = wanted.length := by
    rw [same] at counted
    exact (Nat.eq_of_mul_eq_mul_left (positive occurs) (by omega)).symm
  rcases replaceAll_first replacement nonempty occurs with
    ⟨before, after, split, replaced⟩
  have aligned : before ++ (replacement ++ replaceAll wanted replacement 0 after) =
      before ++ (wanted ++ after) := by
    rw [← List.append_assoc, ← replaced, same, split, List.append_assoc]
  exact different (List.append_inj_left (List.append_cancel_left aligned) lengths)

end Equations

/-! ## Bracketed lists -/

/-- A list between two symbols that do not occur inside it. -/
structure Bracketed (opening closing : α) (text : List α) : Prop where
  spelled : ∃ body, text = opening :: body ++ [closing] ∧ opening ∉ body ∧ closing ∉ body
  differ : opening ≠ closing

namespace Bracketed

variable {opening closing : α} {text front back wanted : List α}

theorem nonempty (bracketed : Bracketed opening closing text) : text ≠ [] := by
  rcases bracketed.spelled with ⟨body, rfl, _⟩
  simp

/-- A proper front part has the opening and not the closing symbol. -/
theorem front_mem (bracketed : Bracketed opening closing (front ++ back)) (frontNe : front ≠ [])
    (backNe : back ≠ []) : front.head? = some opening ∧ closing ∉ front := by
  rcases bracketed.spelled with ⟨body, spelled, openingOutside, closingOutside⟩
  rcases front with _ | ⟨first, front⟩
  · exact absurd rfl frontNe
  · rcases List.eq_nil_or_concat back with rfl | ⟨back, last, rfl⟩
    · exact absurd rfl backNe
    · simp only [List.concat_eq_append, List.cons_append, List.cons.injEq,
        ← List.append_assoc] at spelled
      rcases spelled with ⟨rfl, inner⟩
      rcases List.append_inj' inner rfl with ⟨rfl, _⟩
      simp only [List.mem_append, not_or] at closingOutside
      simp [closingOutside.1, Ne.symm bracketed.differ]

/-- A proper back part has the closing and not the opening symbol. -/
theorem back_mem (bracketed : Bracketed opening closing (front ++ back)) (frontNe : front ≠ [])
    (backNe : back ≠ []) : closing ∈ back ∧ opening ∉ back := by
  rcases bracketed.spelled with ⟨body, spelled, openingOutside, closingOutside⟩
  rcases front with _ | ⟨first, front⟩
  · exact absurd rfl frontNe
  · rcases List.eq_nil_or_concat back with rfl | ⟨back, last, rfl⟩
    · exact absurd rfl backNe
    · simp only [List.concat_eq_append, List.cons_append, List.cons.injEq,
        ← List.append_assoc] at spelled
      rcases spelled with ⟨rfl, inner⟩
      rcases List.append_inj' inner rfl with ⟨rfl, closes⟩
      simp only [List.mem_append, not_or] at openingOutside
      simp only [List.cons.injEq, and_true] at closes
      simp [openingOutside.2, closes, bracketed.differ]

/-- A bracketed list contains no other one. -/
theorem eq_of_infix (bracketed : Bracketed opening closing text)
    (inner : Bracketed opening closing wanted) (occurs : wanted <:+: text) : wanted = text := by
  rcases inner.spelled with ⟨body, rfl, _⟩
  rcases occurs with ⟨before, after, rfl⟩
  have front : before = [] := by
    by_contra frontNe
    rw [List.append_assoc] at bracketed
    have outside := (bracketed.back_mem frontNe (by simp)).2
    simp at outside
  have back : after = [] := by
    by_contra backNe
    have outside := (bracketed.front_mem (by simp) backNe).2
    simp at outside
  simp [front, back]

variable [DecidableEq α] {replacement : List α}

theorem replaceAll_bracketed (bracketed : Bracketed opening closing text)
    (inner : Bracketed opening closing wanted) :
    replaceAll wanted replacement 0 text = if text = wanted then replacement else text := by
  split
  next same =>
    subst same
    simpa using replaceAll_match replacement bracketed.nonempty []
  next different =>
    exact replaceAll_of_absent fun occurs =>
      different (bracketed.eq_of_infix inner occurs).symm

/-- The parts of a text before, in and after a bracketed list are treated separately. -/
theorem replaceAll_around (bracketed : Bracketed opening closing text)
    (inner : Bracketed opening closing wanted) (before after : List α) :
    replaceAll wanted replacement 0 (before ++ text ++ after) =
      replaceAll wanted replacement 0 before ++
        (if text = wanted then replacement else text) ++
        replaceAll wanted replacement 0 after := by
  rw [replaceAll_append inner.nonempty, replaceAll_append inner.nonempty,
    bracketed.replaceAll_bracketed inner]
  · -- nothing that starts before the opening symbol ends behind it
    rintro front back frontNe backNe rfl _ start
    have outside := (inner.back_mem frontNe backNe).2
    rcases bracketed.spelled with ⟨body, rfl, _⟩
    rcases back with _ | ⟨first, back⟩
    · exact backNe rfl
    · rw [List.cons_append, List.cons_prefix_cons] at start
      exact outside (by simp [start.1])
  · -- nothing that ends behind the closing symbol starts at or before it
    rintro front back frontNe backNe rfl suffix _
    have outside := (inner.front_mem frontNe backNe).2
    rcases bracketed.spelled with ⟨body, rfl, _⟩
    rcases List.eq_nil_or_concat front with rfl | ⟨front, last, rfl⟩
    · exact frontNe rfl
    · rcases suffix with ⟨others, suffix⟩
      rw [List.concat_eq_append, ← List.append_assoc, ← List.append_assoc] at suffix
      have closes := (List.append_inj' suffix rfl).2
      simp only [List.cons.injEq, and_true] at closes
      exact outside (by simp [closes])

end Bracketed

/-! ## Texts put together from screened pieces -/

/-- A piece without brackets, or one that starts with a symbol that stops an occurrence. -/
def Screened (opening closing barrier : α) (piece : List α) : Prop :=
  (opening ∉ piece ∧ closing ∉ piece) ∨ piece.head? = some opening ∨ piece.head? = some barrier

namespace Screened

variable {opening closing barrier : α} {wanted : List α} {pieces : List (List α)}

/-- The end of an occurrence does not stand at the start of screened pieces. -/
theorem not_prefix_flatten {back : List α} (each : ∀ piece ∈ pieces,
      Screened opening closing barrier piece)
    (closes : closing ∈ back) (noOpening : opening ∉ back) (noBarrier : barrier ∉ back) :
    ¬back <+: pieces.flatten := by
  induction pieces generalizing back with
  | nil =>
      intro start
      rw [List.flatten_nil, List.prefix_nil] at start
      simp [start] at closes
  | cons piece rest ih =>
      intro start
      rw [List.flatten_cons] at start
      rcases each piece (by simp) with ⟨_, noClosing⟩ | first | first
      · rcases List.prefix_or_prefix_of_prefix start (List.prefix_append piece _) with
          inside | ⟨later, rfl⟩
        · exact noClosing (inside.subset closes)
        · simp only [List.mem_append, not_or] at closes noOpening noBarrier
          exact ih (fun other otherMem => each other (by simp [otherMem]))
            (closes.resolve_left noClosing) noOpening.2 noBarrier.2
            ((List.prefix_append_right_inj piece).mp start)
      · rcases piece with _ | ⟨head, piece⟩
        · simp at first
        · rcases back with _ | ⟨character, back⟩
          · simp at closes
          · rw [List.cons_append, List.cons_prefix_cons] at start
            simp_all
      · rcases piece with _ | ⟨head, piece⟩
        · simp at first
        · rcases back with _ | ⟨character, back⟩
          · simp at closes
          · rw [List.cons_append, List.cons_prefix_cons] at start
            simp_all

/-- Screened pieces are treated separately. -/
theorem replaceAll_flatten [DecidableEq α] {replacement : List α}
    (bracketed : Bracketed opening closing wanted) (noBarrier : barrier ∉ wanted)
    (each : ∀ piece ∈ pieces, Screened opening closing barrier piece) :
    replaceAll wanted replacement 0 pieces.flatten =
      (pieces.map (replaceAll wanted replacement 0)).flatten := by
  induction pieces with
  | nil => simp
  | cons piece rest ih =>
      have others := fun other otherMem => each other (List.mem_cons_of_mem piece otherMem)
      rw [List.flatten_cons, replaceAll_append bracketed.nonempty, ih others, List.map_cons,
        List.flatten_cons]
      rintro front back frontNe backNe rfl _
      have outside := bracketed.back_mem frontNe backNe
      simp only [List.mem_append, not_or] at noBarrier
      exact not_prefix_flatten others outside.1 outside.2 noBarrier.2

end Screened

/-! ## Templates -/

/-- The text of a template whose holes are filled. -/
def render {κ : Type*} (values : κ → List α) (tokens : List (α ⊕ κ)) : List α :=
  tokens.flatMap (Sum.elim (fun character => [character]) values)

section Templates

variable {κ : Type*} {values others : κ → List α} {tokens : List (α ⊕ κ)}

@[simp]
theorem render_nil : render values [] = [] := rfl

@[simp]
theorem render_literal (character : α) :
    render values (.inl character :: tokens) = character :: render values tokens := rfl

@[simp]
theorem render_hole (hole : κ) :
    render values (.inr hole :: tokens) = values hole ++ render values tokens := rfl

@[simp]
theorem render_append (first second : List (α ⊕ κ)) :
    render values (first ++ second) = render values first ++ render values second := by
  simp [render]

/-- Only the holes that occur count. -/
theorem render_congr (agree : ∀ hole, .inr hole ∈ tokens → values hole = others hole) :
    render values tokens = render others tokens := by
  induction tokens with
  | nil => rfl
  | cons token rest ih =>
      have later := ih fun hole holeMem => agree hole (by simp [holeMem])
      cases token with
      | inl character => simp [later]
      | inr hole => simp [later, agree hole (by simp)]

theorem length_render_le (longer : ∀ hole, .inr hole ∈ tokens →
      (values hole).length ≤ (others hole).length) :
    (render values tokens).length ≤ (render others tokens).length := by
  induction tokens with
  | nil => simp
  | cons token rest ih =>
      have later := ih fun hole holeMem => longer hole (by simp [holeMem])
      cases token with
      | inl character => simpa using later
      | inr hole =>
          have here := longer hole (by simp)
          simp only [render_hole, List.length_append]
          omega

theorem length_render_lt (longer : ∀ hole, .inr hole ∈ tokens →
      (values hole).length ≤ (others hole).length) {hole : κ} (used : .inr hole ∈ tokens)
    (strictly : (values hole).length < (others hole).length) :
    (render values tokens).length < (render others tokens).length := by
  rcases List.append_of_mem used with ⟨before, after, rfl⟩
  have front : (render values before).length ≤ (render others before).length :=
    length_render_le fun hole holeMem => longer hole (by simp [holeMem])
  have back : (render values after).length ≤ (render others after).length :=
    length_render_le fun hole holeMem => longer hole (by simp [holeMem])
  simp only [render_append, render_hole, List.length_append]
  omega

/-- Two fillings of one hole that is used are told apart by the text. -/
theorem render_ne {hole : κ} (used : .inr hole ∈ tokens)
    (agree : ∀ other, other ≠ hole → .inr other ∈ tokens → values other = others other)
    (different : values hole ≠ others hole) : render values tokens ≠ render others tokens := by
  intro same
  have apart : (values hole).length = (others hole).length := by
    by_contra lengths
    rcases Nat.lt_or_gt_of_ne lengths with shorter | longer
    · have grown : (render values tokens).length < (render others tokens).length := length_render_lt
        (fun other otherMem => by
          by_cases here : other = hole
          · rw [here]; omega
          · rw [agree other here otherMem]) used shorter
      rw [same] at grown
      omega
    · have shrunk : (render others tokens).length < (render values tokens).length := length_render_lt
        (fun other otherMem => by
          by_cases here : other = hole
          · rw [here]; omega
          · rw [agree other here otherMem]) used longer
      rw [same] at shrunk
      omega
  -- with equal lengths the texts agree piece by piece
  induction tokens with
  | nil => simp at used
  | cons token rest ih =>
      have later : ∀ other, other ≠ hole → .inr other ∈ rest → values other = others other :=
        fun other elsewhere otherMem => agree other elsewhere (by simp [otherMem])
      cases token with
      | inl character =>
          simp only [render_literal, List.cons.injEq, true_and] at same
          exact ih (by simpa using used) later same
      | inr first =>
          simp only [render_hole] at same
          by_cases here : first = hole
          · subst here
            exact different (List.append_inj_left same apart)
          · have inRest : .inr hole ∈ rest := by
              simpa [Ne.symm here] using used
            rw [agree first here (by simp)] at same
            exact ih inRest later (List.append_cancel_left same)

variable {opening closing : α} {wanted replacement : List α} [DecidableEq α]

variable (values replacement) in
/-- Replacing the text of one hole fills it, if nothing else in the text between two holes that
are still held open looks like it. -/
theorem replaceAll_render [DecidableEq κ] (filled : κ) (held : κ → Prop) [DecidablePred held]
    (bracketed : Bracketed opening closing wanted) (own : values filled = wanted) (open_ : held filled)
    (texts : ∀ hole, held hole → Bracketed opening closing (values hole))
    (distinct : ∀ hole, held hole → values hole = wanted → hole = filled)
    (clear : ∀ run, run <:+: tokens → (∀ hole, .inr hole ∈ run → ¬held hole) →
      ¬wanted <:+: render values run) :
    replaceAll wanted replacement 0 (render values tokens) =
      render (Function.update values filled replacement) tokens := by
  -- the induction carries the run since the last hole that is held open
  suffices filling : ∀ run : List (α ⊕ κ), (∀ hole, .inr hole ∈ run → ¬held hole) →
      (∀ part, part <:+: run ++ tokens → (∀ hole, .inr hole ∈ part → ¬held hole) →
        ¬wanted <:+: render values part) →
      replaceAll wanted replacement 0 (render values (run ++ tokens)) =
        render (Function.update values filled replacement) (run ++ tokens) by
    simpa using filling [] (by simp) (by simpa using clear)
  clear clear
  induction tokens with
  | nil =>
      intro run closed clear
      rw [List.append_nil]
      rw [replaceAll_of_absent (clear run (by simp) closed)]
      apply render_congr
      intro hole holeMem
      have elsewhere : hole ≠ filled := fun here => closed hole holeMem (here ▸ open_)
      simp [elsewhere]
  | cons token rest ih =>
      intro run closed clear
      have moved : run ++ token :: rest = (run ++ [token]) ++ rest := by simp
      cases token with
      | inl character =>
          rw [moved]
          apply ih
          · intro hole holeMem
            exact closed hole (by simpa using holeMem)
          · rwa [← moved]
      | inr hole =>
          by_cases isHeld : held hole
          · have runClear := clear run ⟨[], .inr hole :: rest, by simp⟩ closed
            have later := ih [] (by simp) fun part partIn partClosed =>
              clear part (partIn.trans ⟨run ++ [.inr hole], [], by simp⟩) partClosed
            have runSame : render (Function.update values filled replacement) run =
                render values run := by
              apply render_congr
              intro other otherMem
              have elsewhere : other ≠ filled := fun here => closed other otherMem (here ▸ open_)
              simp [elsewhere]
            simp only [List.nil_append] at later
            rw [render_append, render_hole, ← List.append_assoc,
              (texts hole isHeld).replaceAll_around bracketed, replaceAll_of_absent runClear,
              later, render_append, render_hole, runSame, List.append_assoc]
            by_cases here : hole = filled
            · simp [here, own]
            · have foreign : values hole ≠ wanted := fun same => here (distinct hole isHeld same)
              simp [here, foreign]
          · rw [moved]
            apply ih
            · intro other otherMem
              simp only [List.mem_append, List.mem_singleton, Sum.inr.injEq] at otherMem
              rcases otherMem with inRun | rfl
              · exact closed other inRun
              · exact isHeld
            · rwa [← moved]

/-- In screened values every occurrence lies in one value. -/
theorem replaceAll_render_screened {barrier : α} (bracketed : Bracketed opening closing wanted)
    (noBarrier : barrier ∉ wanted)
    (literals : ∀ character, .inl character ∈ tokens → character ≠ opening ∧ character ≠ closing)
    (screened : ∀ hole, .inr hole ∈ tokens →
      Screened opening closing barrier (values hole)) :
    replaceAll wanted replacement 0 (render values tokens) =
      render (fun hole => replaceAll wanted replacement 0 (values hole)) tokens := by
  have pieces : ∀ piece ∈ tokens.map (Sum.elim (fun character => [character]) values),
      Screened opening closing barrier piece := by
    intro piece pieceMem
    rcases List.mem_map.mp pieceMem with ⟨token, tokenMem, rfl⟩
    cases token with
    | inl character =>
        have plain := literals character tokenMem
        exact .inl (by simp [plain.1.symm, plain.2.symm])
    | inr hole => exact screened hole tokenMem
  have single : ∀ character, .inl character ∈ tokens →
      replaceAll wanted replacement 0 [character] = [character] := by
    intro character characterMem
    apply replaceAll_of_absent
    intro occurs
    rcases bracketed.spelled with ⟨body, rfl, _⟩
    have member := occurs.subset (List.mem_cons_self)
    exact (literals character characterMem).1 (List.mem_singleton.mp member).symm
  rw [render, List.flatMap_def, Screened.replaceAll_flatten bracketed noBarrier pieces, render,
    List.flatMap_def, List.map_map]
  congr 1
  apply List.map_congr_left
  intro token tokenMem
  cases token with
  | inl character => simpa using single character tokenMem
  | inr hole => rfl

end Templates

end LzuMirror
