import LzuMirror.Core.Compilation
import Mathlib.Data.List.TakeWhile

/-!
# Placeholders

`validate_placeholders` and what the `resolve` closure makes of a template.

The closure replaces one placeholder after the other, and each replacement also
reads what the earlier ones have written. `substitutePlaceholders` is the
substitution a template stands for: every placeholder of the template is
replaced and no value is read again.
-/

namespace LzuMirror

/-- The placeholders `validate_placeholders` accepts. -/
inductive Placeholder where
  | mirrorName
  | runId
  | attempt
  | nodeName
  | mirrorRoot
  | targetDir
  | publishedDir
  deriving DecidableEq, Repr

namespace Placeholder

/-- The names in the order in which `resolve` replaces them. -/
def all : List Placeholder :=
  [mirrorName, runId, attempt, nodeName, mirrorRoot, targetDir, publishedDir]

def name : Placeholder → String
  | mirrorName => "mirror_name"
  | runId => "run_id"
  | attempt => "attempt"
  | nodeName => "node_name"
  | mirrorRoot => "mirror_root"
  | targetDir => "target_dir"
  | publishedDir => "published_dir"

/-- The placeholder as it stands in a template. -/
def text (placeholder : Placeholder) : List Char := '\x7b' :: placeholder.name.toList ++ ['\x7d']

end Placeholder

/-- A character that `validate_placeholders` looks for. -/
def isBrace (character : Char) : Bool := character = '\x7b' || character = '\x7d'

/-- The loop of `validate_placeholders`. -/
def validatePlaceholdersFrom (rest : List Char) : Except ConfigError Unit :=
  match _found : rest.dropWhile fun character => !isBrace character with
  | [] => .ok ()
  | brace :: after =>
      if brace = '\x7d' then
        .error (.unsupportedPlaceholder (String.ofList (brace :: after)))
      else
        match _closed : after.dropWhile fun character => character ≠ '\x7d' with
        | [] => .error (.unsupportedPlaceholder (String.ofList after))
        | _ :: others =>
            let placeholder := String.ofList (after.takeWhile fun character => character ≠ '\x7d')
            if placeholder ∈ Placeholder.all.map Placeholder.name then
              validatePlaceholdersFrom others
            else .error (.unsupportedPlaceholder placeholder)
termination_by rest.length
decreasing_by
  have opened : (brace :: after).length ≤ rest.length :=
    _found ▸ (List.dropWhile_suffix fun character => !isBrace character).length_le
  have shorter := (List.dropWhile_suffix (l := after) fun character => character ≠ '\x7d').length_le
  rw [_closed] at shorter
  simp only [List.length_cons] at opened shorter
  omega

/-- `validate_placeholders`. -/
def validatePlaceholders (value : String) : Except ConfigError Unit :=
  validatePlaceholdersFrom value.toList

/-- The characters and placeholders of a template; `skip` characters belong to the last one. -/
def templateTokens : ℕ → List Char → List (Char ⊕ Placeholder)
  | _, [] => []
  | skip + 1, _ :: rest => templateTokens skip rest
  | 0, character :: rest =>
      match Placeholder.all.find? fun placeholder =>
          placeholder.text.isPrefixOf (character :: rest) with
      | some placeholder =>
          .inr placeholder :: templateTokens (placeholder.text.length - 1) rest
      | none => .inl character :: templateTokens 0 rest

/-- The values of the placeholders. -/
def RunSpecContext.placeholderValue (context : RunSpecContext) (targetDir publishedDir : String) :
    Placeholder → String
  | .mirrorName => context.mirrorName.value
  | .runId => context.runId
  | .attempt => toString context.attemptNo
  | .nodeName => context.nodeName.value
  | .mirrorRoot => context.mirrorRoot
  | .targetDir => targetDir
  | .publishedDir => publishedDir

/-- The simultaneous substitution of the placeholders of a template. -/
def substitutePlaceholders (context : RunSpecContext) (targetDir publishedDir value : String) :
    String :=
  String.ofList (render
    (fun placeholder => (context.placeholderValue targetDir publishedDir placeholder).toList)
    (templateTokens 0 value.toList))

section Templates

theorem Placeholder.bracketed (placeholder : Placeholder) :
    Bracketed '\x7b' '\x7d' placeholder.text := by
  refine ⟨⟨placeholder.name.toList, rfl, ?_, ?_⟩, by decide⟩
  · cases placeholder <;> decide
  · cases placeholder <;> decide

theorem Placeholder.text_injective {first second : Placeholder}
    (same : first.text = second.text) : first = second := by
  cases first <;> cases second <;> first | rfl | exact absurd same (by decide)

theorem Placeholder.mem_all (placeholder : Placeholder) : placeholder ∈ Placeholder.all := by
  cases placeholder <;> decide

theorem templateTokens_skip (skip : ℕ) (value : List Char) :
    templateTokens skip value = templateTokens 0 (value.drop skip) := by
  induction value generalizing skip with
  | nil => cases skip <;> rfl
  | cons character rest ih =>
      cases skip with
      | zero => rfl
      | succ skip => simpa [templateTokens] using ih skip

/-- A placeholder is read as itself. -/
theorem templateTokens_hole (placeholder : Placeholder) (rest : List Char) :
    templateTokens 0 (placeholder.text ++ rest) =
      .inr placeholder :: templateTokens 0 rest := by
  have starts : placeholder.text.isPrefixOf (placeholder.text ++ rest) = true :=
    List.isPrefixOf_iff_prefix.mpr (List.prefix_append _ _)
  have only : ∀ other : Placeholder, other.text.isPrefixOf (placeholder.text ++ rest) = true →
      other = placeholder := by
    intro other otherStarts
    rw [List.isPrefixOf_iff_prefix] at otherStarts
    apply Placeholder.text_injective
    rcases List.prefix_or_prefix_of_prefix otherStarts (List.prefix_append _ rest) with
      inside | inside
    · exact placeholder.bracketed.eq_of_infix other.bracketed inside.isInfix
    · exact (other.bracketed.eq_of_infix placeholder.bracketed inside.isInfix).symm
  have found : (Placeholder.all.find? fun other =>
      other.text.isPrefixOf (placeholder.text ++ rest)) = some placeholder := by
    cases search : Placeholder.all.find? fun other =>
        other.text.isPrefixOf (placeholder.text ++ rest) with
    | none =>
        have absent := List.find?_eq_none.mp search placeholder placeholder.mem_all
        exact absurd starts absent
    | some other =>
        have otherStarts := List.find?_some search
        rw [only other otherStarts]
  have spelled : placeholder.text ++ rest =
      '\x7b' :: (placeholder.name.toList ++ ['\x7d'] ++ rest) := by
    simp [Placeholder.text]
  rw [spelled] at found ⊢
  have length : placeholder.text.length - 1 =
      (placeholder.name.toList ++ ['\x7d']).length := by
    simp [Placeholder.text]
  rw [templateTokens, found]
  simp only
  rw [templateTokens_skip, length, List.drop_left]

/-- Other characters stand for themselves. -/
theorem templateTokens_plain {plain : List Char} (unbraced : ∀ character ∈ plain,
      isBrace character = false) (rest : List Char) :
    templateTokens 0 (plain ++ rest) = plain.map .inl ++ templateTokens 0 rest := by
  induction plain with
  | nil => rfl
  | cons character plain ih =>
      have notOpening : character ≠ '\x7b' := by
        rintro rfl
        exact absurd (unbraced '\x7b' (by simp)) (by decide)
      have absent : (Placeholder.all.find? fun placeholder =>
          placeholder.text.isPrefixOf (character :: (plain ++ rest))) = none := by
        rw [List.find?_eq_none]
        intro placeholder _ starts
        rw [List.isPrefixOf_iff_prefix] at starts
        simp only [Placeholder.text, List.cons_append, List.cons_prefix_cons] at starts
        exact notOpening starts.1.symm
      rw [List.cons_append, templateTokens, absent]
      simp [ih fun other otherMem => unbraced other (by simp [otherMem])]

/-- The tokens of a text spell it. -/
structure ReadAs (value : List Char) : Prop where
  spelled : render Placeholder.text (templateTokens 0 value) = value
  unbraced : ∀ character, .inl character ∈ templateTokens 0 value → isBrace character = false

theorem ReadAs.plain {plain rest : List Char} (read : ReadAs rest)
    (unbraced : ∀ character ∈ plain, isBrace character = false) : ReadAs (plain ++ rest) := by
  have literals : ∀ text : List Char,
      render Placeholder.text (text.map .inl) = text := by
    intro text
    induction text with
    | nil => rfl
    | cons character text ih => simpa using ih
  constructor
  · rw [templateTokens_plain unbraced, render_append, literals, read.spelled]
  · intro character member
    rw [templateTokens_plain unbraced, List.mem_append] at member
    rcases member with here | later
    · exact unbraced character (by simpa using here)
    · exact read.unbraced character later

theorem ReadAs.hole {rest : List Char} (read : ReadAs rest) (placeholder : Placeholder) :
    ReadAs (placeholder.text ++ rest) := by
  constructor
  · rw [templateTokens_hole, render_hole, read.spelled]
  · intro character member
    rw [templateTokens_hole] at member
    exact read.unbraced character (by simpa using member)

/-- What the validator accepts is read as a template. -/
theorem readAs_of_accepted {value : List Char}
    (accepted : validatePlaceholdersFrom value = .ok ()) : ReadAs value := by
  induction length : value.length using Nat.strong_induction_on generalizing value with
  | _ length ih =>
      subst length
      have front : ∀ character ∈ value.takeWhile (fun c => !isBrace c),
          isBrace character = false := by
        intro character member
        simpa using List.mem_takeWhile_imp member
      rw [validatePlaceholdersFrom.eq_def] at accepted
      split at accepted
      next found =>
        have whole : value = value.takeWhile (fun c => !isBrace c) ++ [] := by
          rw [← found, List.takeWhile_append_dropWhile]
        rw [whole]
        exact ReadAs.plain ⟨rfl, by simp [templateTokens]⟩ front
      next brace after found =>
        split at accepted
        · cases accepted
        next notClosing =>
          split at accepted
          · cases accepted
          next last others closed =>
            simp only at accepted
            split at accepted
            next known =>
              have opens : brace = '\x7b' := by
                have stops := List.head?_dropWhile_not (fun c => !isBrace c) value
                rw [found] at stops
                simpa [isBrace, notClosing] using stops
              have closes : last = '\x7d' := by
                have stops := List.head?_dropWhile_not (fun c => decide (c ≠ '\x7d')) after
                rw [closed] at stops
                simpa using stops
              rcases List.mem_map.mp known with ⟨placeholder, _, named⟩
              have inside : after = placeholder.name.toList ++ '\x7d' :: others := by
                rw [closes] at closed
                rw [named, String.toList_ofList, ← closed, List.takeWhile_append_dropWhile]
              have whole : value = value.takeWhile (fun c => !isBrace c) ++
                  (placeholder.text ++ others) := by
                have spelled : placeholder.text ++ others = brace :: after := by
                  simp [Placeholder.text, opens, inside]
                rw [spelled, ← found, List.takeWhile_append_dropWhile]
              have shorter : others.length < value.length := by
                rw [whole]
                simp only [List.length_append, Placeholder.text, List.length_cons]
                omega
              rw [whole]
              exact ((ih others.length shorter accepted rfl).hole placeholder).plain front
            · cases accepted

end Templates

section Resolution

/-- What the filled text of a template must not contain for the replacements to be independent: a
placeholder in a stretch of the template between two placeholders that are replaced later. -/
structure Undisturbed (values : Placeholder → List Char) (tokens : List (Char ⊕ Placeholder)) :
    Prop where
  targetDir : ∀ run, run <:+: tokens → .inr .targetDir ∉ run → .inr .publishedDir ∉ run →
    ¬Placeholder.targetDir.text <:+: render values run
  publishedDir : ∀ run, run <:+: tokens → .inr .publishedDir ∉ run →
    ¬Placeholder.publishedDir.text <:+: render values run

/-- The values while the placeholders of a list are not yet replaced. -/
def pendingValues (values : Placeholder → List Char) (pending : List Placeholder)
    (placeholder : Placeholder) : List Char :=
  if placeholder ∈ pending then placeholder.text else values placeholder

variable {values : Placeholder → List Char} {tokens : List (Char ⊕ Placeholder)}

/-- Replacing the first pending placeholder. -/
theorem replaceAll_pending {filled : Placeholder} {pending : List Placeholder}
    (fresh : filled ∉ pending)
    (clear : ∀ run, run <:+: tokens →
      (∀ placeholder ∈ filled :: pending, .inr placeholder ∉ run) →
      ¬filled.text <:+: render values run) :
    replaceAll filled.text (values filled) 0
        (render (pendingValues values (filled :: pending)) tokens) =
      render (pendingValues values pending) tokens := by
  have replaced := replaceAll_render (pendingValues values (filled :: pending)) (values filled)
    filled (fun placeholder => placeholder ∈ filled :: pending) filled.bracketed
    (by simp [pendingValues]) (by simp)
    (fun placeholder isHeld => by
      simp only [pendingValues, isHeld, if_true]
      exact placeholder.bracketed)
    (fun placeholder isHeld same => by
      simp only [pendingValues, isHeld, if_true] at same
      exact Placeholder.text_injective same)
    (fun run runIn closed => by
      have same : render (pendingValues values (filled :: pending)) run = render values run := by
        apply render_congr
        intro placeholder member
        simp [pendingValues, closed placeholder member]
      rw [same]
      exact clear run runIn fun placeholder isHeld member => closed placeholder member isHeld)
  rw [replaced]
  congr 1
  funext placeholder
  by_cases here : placeholder = filled
  · simp [here, pendingValues, fresh]
  · simp [here, pendingValues]

/-- The literals of a template and the values of its first four placeholders have no braces. -/
structure NamesUnbraced (values : Placeholder → List Char) (tokens : List (Char ⊕ Placeholder)) :
    Prop where
  literals : ∀ character, .inl character ∈ tokens → isBrace character = false
  names : ∀ placeholder ∈ [Placeholder.mirrorName, .runId, .attempt, .nodeName],
    ∀ character ∈ values placeholder, isBrace character = false

/-- A stretch of literals and names has no braces. -/
theorem NamesUnbraced.not_infix (unbraced : NamesUnbraced values tokens)
    {run : List (Char ⊕ Placeholder)} (runIn : run <:+: tokens)
    (closed : ∀ placeholder ∈ [Placeholder.mirrorRoot, .targetDir, .publishedDir],
      .inr placeholder ∉ run) (placeholder : Placeholder) :
    ¬placeholder.text <:+: render values run := by
  intro occurs
  have opening : '\x7b' ∈ render values run :=
    occurs.subset (by simp [Placeholder.text])
  rcases List.mem_flatMap.mp opening with ⟨token, tokenMem, inToken⟩
  cases token with
  | inl character =>
      have plain := unbraced.literals character (runIn.subset tokenMem)
      simp only [Sum.elim_inl, List.mem_singleton] at inToken
      simp [← inToken, isBrace] at plain
  | inr hole =>
      have named : hole ∈ [Placeholder.mirrorName, .runId, .attempt, .nodeName] := by
        cases hole <;> first | decide | exact absurd tokenMem (closed _ (by decide))
      have plain := unbraced.names hole named _ inToken
      simp [isBrace] at plain

/-- The replacements before that of `target_dir` are independent. -/
theorem replaceAll_names (unbraced : NamesUnbraced values tokens) :
    replaceAll Placeholder.mirrorRoot.text (values .mirrorRoot) 0
      (replaceAll Placeholder.nodeName.text (values .nodeName) 0
        (replaceAll Placeholder.attempt.text (values .attempt) 0
          (replaceAll Placeholder.runId.text (values .runId) 0
            (replaceAll Placeholder.mirrorName.text (values .mirrorName) 0
              (render Placeholder.text tokens))))) =
      render (pendingValues values [.targetDir, .publishedDir]) tokens := by
  have start : render Placeholder.text tokens =
      render (pendingValues values Placeholder.all) tokens := by
    apply render_congr
    intro placeholder _
    simp [pendingValues, placeholder.mem_all]
  have clear : ∀ (placeholder : Placeholder) (pending : List Placeholder),
      [Placeholder.mirrorRoot, .targetDir, .publishedDir] ⊆ pending →
      ∀ run, run <:+: tokens → (∀ held ∈ pending, .inr held ∉ run) →
        ¬placeholder.text <:+: render values run := by
    intro placeholder pending roots run runIn closed
    exact unbraced.not_infix runIn (fun held heldMem => closed held (roots heldMem)) placeholder
  rw [start, Placeholder.all,
    replaceAll_pending (by decide) (clear .mirrorName _ (by decide)),
    replaceAll_pending (by decide) (clear .runId _ (by decide)),
    replaceAll_pending (by decide) (clear .attempt _ (by decide)),
    replaceAll_pending (by decide) (clear .nodeName _ (by decide)),
    replaceAll_pending (by decide) (clear .mirrorRoot _ (by decide))]

/-- In an undisturbed template all replacements are independent. -/
theorem Undisturbed.replaceAll (undisturbed : Undisturbed values tokens) :
    LzuMirror.replaceAll Placeholder.publishedDir.text (values .publishedDir) 0
        (LzuMirror.replaceAll Placeholder.targetDir.text (values .targetDir) 0
          (render (pendingValues values [.targetDir, .publishedDir]) tokens)) =
      render values tokens := by
  have settled : pendingValues values [] = values := by
    funext placeholder
    simp [pendingValues]
  rw [replaceAll_pending (by decide), replaceAll_pending (by decide), settled]
  · intro run runIn closed
    exact undisturbed.publishedDir run runIn (closed _ (by decide))
  · intro run runIn closed
    exact undisturbed.targetDir run runIn (closed _ (by decide)) (closed _ (by decide))

/-- What the replacements make of roots that start with a slash. -/
def rereadValues (values : Placeholder → List Char) : Placeholder → List Char
  | .mirrorRoot =>
      replaceAll Placeholder.publishedDir.text (values .publishedDir) 0
        (replaceAll Placeholder.targetDir.text (values .targetDir) 0 (values .mirrorRoot))
  | .targetDir =>
      replaceAll Placeholder.publishedDir.text (values .publishedDir) 0 (values .targetDir)
  | placeholder => values placeholder

/-- A root is copied up to its first brace. -/
theorem head?_replaceAll (placeholder : Placeholder) {replacement root : List Char}
    (slash : root.head? = some '/') :
    (replaceAll placeholder.text replacement 0 root).head? = some '/' := by
  rcases root with _ | ⟨first, rest⟩
  · simp at slash
  · have elsewhere : ¬placeholder.text <+: first :: rest := by
      intro start
      simp only [Placeholder.text, List.cons_append, List.cons_prefix_cons] at start
      simp [← start.1] at slash
    rw [replaceAll_copy elsewhere]
    simpa using slash

/-- With roots that start with a slash every replacement acts inside single values. -/
theorem replaceAll_reread (unbraced : NamesUnbraced values tokens)
    (mirrorRoot : (values .mirrorRoot).head? = some '/')
    (targetDir : (values .targetDir).head? = some '/') :
    replaceAll Placeholder.publishedDir.text (values .publishedDir) 0
        (replaceAll Placeholder.targetDir.text (values .targetDir) 0
          (render (pendingValues values [.targetDir, .publishedDir]) tokens)) =
      render (rereadValues values) tokens := by
  have literals : ∀ character, .inl character ∈ tokens →
      character ≠ '\x7b' ∧ character ≠ '\x7d' := by
    intro character member
    simpa [isBrace] using unbraced.literals character member
  have names : ∀ placeholder ∈ [Placeholder.mirrorName, .runId, .attempt, .nodeName],
      '\x7b' ∉ values placeholder ∧ '\x7d' ∉ values placeholder := by
    intro placeholder named
    have plain := unbraced.names placeholder named
    constructor
    · intro opening
      simpa [isBrace] using plain _ opening
    · intro closing
      simpa [isBrace] using plain _ closing
  have kept : ∀ placeholder ∈ [Placeholder.mirrorName, .runId, .attempt, .nodeName],
      ∀ (wanted : Placeholder) (replacement : List Char),
        replaceAll wanted.text replacement 0 (values placeholder) = values placeholder := by
    intro placeholder named wanted replacement
    apply replaceAll_of_absent
    intro occurs
    exact (names placeholder named).1 (occurs.subset (by simp [Placeholder.text]))
  have slashless : ∀ placeholder : Placeholder, '/' ∉ placeholder.text := by
    intro placeholder
    cases placeholder <;> decide
  have opens : ∀ placeholder : Placeholder, placeholder.text.head? = some '\x7b' := by
    intro placeholder
    rfl
  -- the replacement of `target_dir` changes the mirror root and its own placeholder
  have first : replaceAll Placeholder.targetDir.text (values .targetDir) 0
        (render (pendingValues values [.targetDir, .publishedDir]) tokens) =
      render (fun placeholder =>
        replaceAll Placeholder.targetDir.text (values .targetDir) 0
          (pendingValues values [.targetDir, .publishedDir] placeholder)) tokens := by
    apply replaceAll_render_screened Placeholder.targetDir.bracketed (slashless _) literals
    intro placeholder _
    cases placeholder with
    | mirrorName => exact .inl (names .mirrorName (by decide))
    | runId => exact .inl (names .runId (by decide))
    | attempt => exact .inl (names .attempt (by decide))
    | nodeName => exact .inl (names .nodeName (by decide))
    | mirrorRoot => exact .inr (.inr mirrorRoot)
    | targetDir => exact .inr (.inl (opens _))
    | publishedDir => exact .inr (.inl (opens _))
  have own : replaceAll Placeholder.targetDir.text (values .targetDir) 0
      Placeholder.targetDir.text = values .targetDir := by
    simp [Placeholder.targetDir.bracketed.replaceAll_bracketed Placeholder.targetDir.bracketed]
  have other : replaceAll Placeholder.targetDir.text (values .targetDir) 0
      Placeholder.publishedDir.text = Placeholder.publishedDir.text := by
    rw [Placeholder.publishedDir.bracketed.replaceAll_bracketed Placeholder.targetDir.bracketed,
      if_neg (by decide)]
  rw [first, replaceAll_render_screened Placeholder.publishedDir.bracketed (slashless _) literals]
  · apply render_congr
    intro placeholder _
    cases placeholder with
    | mirrorName => simp [pendingValues, rereadValues, kept .mirrorName]
    | runId => simp [pendingValues, rereadValues, kept .runId]
    | attempt => simp [pendingValues, rereadValues, kept .attempt]
    | nodeName => simp [pendingValues, rereadValues, kept .nodeName]
    | mirrorRoot => simp [pendingValues, rereadValues]
    | targetDir => simp [pendingValues, rereadValues, own]
    | publishedDir =>
        simp [pendingValues, rereadValues, other,
          Placeholder.publishedDir.bracketed.replaceAll_bracketed
            Placeholder.publishedDir.bracketed]
  · intro placeholder _
    cases placeholder with
    | mirrorName =>
        exact .inl (by simpa [pendingValues, kept .mirrorName] using names .mirrorName (by decide))
    | runId => exact .inl (by simpa [pendingValues, kept .runId] using names .runId (by decide))
    | attempt =>
        exact .inl (by simpa [pendingValues, kept .attempt] using names .attempt (by decide))
    | nodeName =>
        exact .inl (by simpa [pendingValues, kept .nodeName] using names .nodeName (by decide))
    | mirrorRoot => exact .inr (.inr (head?_replaceAll _ mirrorRoot))
    | targetDir =>
        simp only [pendingValues, List.mem_cons, true_or, if_true, own]
        exact .inr (.inr targetDir)
    | publishedDir =>
        simp only [pendingValues, List.mem_cons, List.not_mem_nil, or_false, or_true, if_true,
          other]
        exact .inr (.inl (opens _))

/-- The values that a template uses have no placeholder that is replaced after them. -/
structure ValuesUnread (values : Placeholder → List Char) (tokens : List (Char ⊕ Placeholder)) :
    Prop where
  mirrorRoot : .inr .mirrorRoot ∈ tokens →
    ¬Placeholder.targetDir.text <:+: values .mirrorRoot ∧
      ¬Placeholder.publishedDir.text <:+: values .mirrorRoot
  targetDir : .inr .targetDir ∈ tokens → ¬Placeholder.publishedDir.text <:+: values .targetDir

/-- How the directories of an attempt depend on the mirror root. -/
structure LongDirectories (values : Placeholder → List Char) : Prop where
  publishedSlash : (values .publishedDir).head? = some '/'
  ofTarget : Placeholder.targetDir.text <:+: values .mirrorRoot →
    Placeholder.targetDir.text.length < (values .targetDir).length ∧
      Placeholder.publishedDir.text.length ≤ (values .publishedDir).length
  ofPublished : Placeholder.publishedDir.text <:+: values .mirrorRoot →
    Placeholder.publishedDir.text.length < (values .publishedDir).length

theorem rereadValues_mirrorRoot (clean : ¬Placeholder.targetDir.text <:+: values .mirrorRoot ∧
      ¬Placeholder.publishedDir.text <:+: values .mirrorRoot) :
    rereadValues values .mirrorRoot = values .mirrorRoot := by
  simp only [rereadValues, replaceAll_of_absent clean.1, replaceAll_of_absent clean.2]

/-- A mirror root with a placeholder in it gets longer. -/
theorem LongDirectories.mirrorRoot_grows (long : LongDirectories values)
    (dirty : Placeholder.targetDir.text <:+: values .mirrorRoot ∨
      Placeholder.publishedDir.text <:+: values .mirrorRoot) :
    (values .mirrorRoot).length < (rereadValues values .mirrorRoot).length ∧
      (values .targetDir).length ≤ (rereadValues values .targetDir).length := by
  have targetNe := Placeholder.targetDir.bracketed.nonempty
  have publishedNe := Placeholder.publishedDir.bracketed.nonempty
  have publishedLong :
      Placeholder.publishedDir.text.length ≤ (values .publishedDir).length := by
    rcases dirty with target | published
    · exact (long.ofTarget target).2
    · exact (long.ofPublished published).le
  refine ⟨?_, le_length_replaceAll publishedNe publishedLong _⟩
  by_cases target : Placeholder.targetDir.text <:+: values .mirrorRoot
  · have grown := lt_length_replaceAll targetNe (long.ofTarget target).1 target
    exact grown.trans_le (le_length_replaceAll publishedNe publishedLong _)
  · have published := dirty.resolve_left target
    simp only [rereadValues, replaceAll_of_absent target]
    exact lt_length_replaceAll publishedNe (long.ofPublished published) published

/-- Reading the values again changes the text exactly if a value that is used has a placeholder
that is replaced after it. -/
theorem render_rereadValues_iff (long : LongDirectories values) :
    render (rereadValues values) tokens = render values tokens ↔ ValuesUnread values tokens := by
  constructor
  · intro same
    have mirrorRoot : .inr .mirrorRoot ∈ tokens →
        ¬Placeholder.targetDir.text <:+: values .mirrorRoot ∧
          ¬Placeholder.publishedDir.text <:+: values .mirrorRoot := by
      intro used
      by_contra dirty
      have grows := long.mirrorRoot_grows (by tauto)
      have longer : (render values tokens).length < (render (rereadValues values) tokens).length :=
        length_render_lt (fun placeholder _ => by
          cases placeholder with
          | mirrorRoot => exact grows.1.le
          | targetDir => exact grows.2
          | mirrorName | runId | attempt | nodeName | publishedDir => exact le_rfl) used grows.1
      rw [same] at longer
      omega
    refine ⟨mirrorRoot, fun used occurs => ?_⟩
    apply @render_ne _ _ (rereadValues values) values _ _ used ?_ ?_ same
    · intro placeholder elsewhere placeholderMem
      cases placeholder with
      | mirrorRoot => exact rereadValues_mirrorRoot (mirrorRoot placeholderMem)
      | targetDir => exact absurd rfl elsewhere
      | mirrorName | runId | attempt | nodeName | publishedDir => rfl
    · apply replaceAll_ne_self Placeholder.publishedDir.bracketed.nonempty _ occurs
      intro own
      have slash := long.publishedSlash
      rw [own] at slash
      exact absurd slash (by decide)
  · intro unread
    apply render_congr
    intro placeholder placeholderMem
    cases placeholder with
    | mirrorRoot => exact rereadValues_mirrorRoot (unread.mirrorRoot placeholderMem)
    | targetDir => exact replaceAll_of_absent (unread.targetDir placeholderMem)
    | mirrorName | runId | attempt | nodeName | publishedDir => rfl

end Resolution

section Compiled

variable {document : MirrorDocument} {context : RunSpecContext} {spec : ProcessRunSpec}
  {value : String}

/-- The values `resolve` inserts for a compiled specification. -/
def compiledValues (document : MirrorDocument) (context : RunSpecContext) (spec : ProcessRunSpec)
    (placeholder : Placeholder) : List Char :=
  (context.placeholderValue spec.targetDir
    (joinText context.mirrorRoot document.mirror.target) placeholder).toList

/-- Names, run ids and attempt numbers have no braces. -/
theorem namesUnbraced (ulid : ulidText context.runId = true)
    (accepted : validatePlaceholders value = .ok ()) :
    NamesUnbraced (compiledValues document context spec) (templateTokens 0 value.toList) := by
  have valid : ∀ name : String, validName name = true →
      ∀ character ∈ name.toList, isBrace character = false := by
    intro name nameValid character member
    unfold validName at nameValid
    split at nameValid
    · cases nameValid
    next first rest spelled =>
      simp only [Bool.and_eq_true, List.all_eq_true] at nameValid
      have allowed := nameValid.2 character (spelled ▸ member)
      cases brace : isBrace character with
      | false => rfl
      | true =>
          simp only [isBrace, Bool.or_eq_true, decide_eq_true_eq] at brace
          rcases brace with rfl | rfl <;> exact absurd allowed (by decide)
  refine ⟨(readAs_of_accepted accepted).unbraced, ?_⟩
  intro placeholder named character member
  simp only [List.mem_cons, List.not_mem_nil, or_false] at named
  rcases named with rfl | rfl | rfl | rfl
  · exact valid _ context.mirrorName.valid character member
  · simp only [ulidText, Bool.and_eq_true, List.all_eq_true] at ulid
    have allowed := ulid.2 character member
    cases brace : isBrace character with
    | false => rfl
    | true =>
        simp only [isBrace, Bool.or_eq_true, decide_eq_true_eq] at brace
        rcases brace with rfl | rfl <;> exact absurd allowed (by decide)
  · have digit := digit_of_mem_toString member
    cases brace : isBrace character with
    | false => rfl
    | true =>
        simp only [isBrace, Bool.or_eq_true, decide_eq_true_eq] at brace
        rcases brace with rfl | rfl <;> exact absurd digit (by decide)
  · exact valid _ context.nodeName.valid character member

/-- The replacements on the tokens of a template. -/
theorem toList_resolvePlaceholders (ulid : ulidText context.runId = true)
    (accepted : validatePlaceholders value = .ok ()) :
    (resolvePlaceholders context spec.targetDir
        (joinText context.mirrorRoot document.mirror.target) value).toList =
      replaceAll Placeholder.publishedDir.text
        (compiledValues document context spec .publishedDir) 0
        (replaceAll Placeholder.targetDir.text (compiledValues document context spec .targetDir) 0
          (render (pendingValues (compiledValues document context spec)
            [.targetDir, .publishedDir]) (templateTokens 0 value.toList))) := by
  rw [← replaceAll_names (namesUnbraced ulid accepted), (readAs_of_accepted accepted).spelled]
  simp only [resolvePlaceholders, replaceText, String.toList_ofList]
  rfl

theorem relative_of_safeTarget {target : String} (safe : safeTarget target = true) :
    Path.isAbsolute target.toList = false ∧ 1 ≤ target.toList.length := by
  simp only [safeTarget, Bool.and_eq_true, Bool.not_eq_true', decide_eq_true_eq] at safe
  refine ⟨safe.1.2, List.length_pos_iff.mpr fun empty => safe.1.1 ?_⟩
  exact String.toList_eq_nil_iff.mp empty

/-- A candidate directory is longer than a placeholder. -/
theorem length_candidateDir (ulid : ulidText context.runId = true) (publicationRoot : String)
    (published : String) : Placeholder.targetDir.text.length <
      (atomicPublicationSpec context publicationRoot published).candidateDir.toList.length := by
  have attempt := attempt_plain ulid context.attemptNo
  have named := List.length_pos_iff.mpr attempt.nonempty
  simp only [atomicPublicationSpec, joinText, String.toList_ofList]
  have attempts := @Path.length_join (Path.join publicationRoot.toList
    context.mirrorName.value.toList) "attempts".toList (by decide)
  have attemptPart := @Path.length_join (Path.join (Path.join publicationRoot.toList
    context.mirrorName.value.toList) "attempts".toList) _ attempt.relative
  have root := @Path.length_join (Path.join (Path.join (Path.join publicationRoot.toList
    context.mirrorName.value.toList) "attempts".toList)
      (context.runId ++ "-" ++ toString context.attemptNo).toList) "root".toList (by decide)
  have lengths : Placeholder.targetDir.text.length = 12 ∧ "root".toList.length = 4 ∧
      "attempts".toList.length = 8 := by decide
  omega

/-- Absolute roots give long directories. -/
theorem longDirectories (safe : safeTarget document.mirror.target = true)
    (ulid : ulidText context.runId = true)
    (mirrorRoot : context.mirrorRoot.toList.head? = some '/')
    (compiled : compileProcessRunSpec document context = .ok spec) :
    LongDirectories (compiledValues document context spec) := by
  rcases relative_of_safeTarget safe with ⟨relative, positive⟩
  have lengths : Placeholder.targetDir.text.length = 12 ∧
      Placeholder.publishedDir.text.length = 15 := by decide
  have room : ∀ placeholder ∈ [Placeholder.targetDir, .publishedDir],
      placeholder.text <:+: context.mirrorRoot.toList →
      placeholder.text.length + 3 ≤
        (compiledValues document context spec .publishedDir).length := by
    intro placeholder _ occurs
    have slashless : '/' ∉ placeholder.text := by
      cases placeholder <;> decide
    have joined := Path.length_join_of_infix mirrorRoot relative slashless
      placeholder.bracketed.nonempty occurs
    simp only [compiledValues, RunSpecContext.placeholderValue, joinText, String.toList_ofList]
    omega
  refine ⟨?_, ?_, ?_⟩
  · simp only [compiledValues, RunSpecContext.placeholderValue, joinText, String.toList_ofList]
    exact Path.head?_join mirrorRoot relative
  · intro occurs
    have published := room .targetDir (by decide) occurs
    refine ⟨?_, by omega⟩
    rcases compiled_targetDir compiled with target | ⟨publicationRoot, _, target⟩
    · simp only [compiledValues, RunSpecContext.placeholderValue] at published ⊢
      rw [target]
      omega
    · simp only [compiledValues, RunSpecContext.placeholderValue]
      rw [target]
      exact length_candidateDir ulid publicationRoot _
  · intro occurs
    have published := room .publishedDir (by decide) occurs
    omega

theorem head?_targetDir (safe : safeTarget document.mirror.target = true)
    (ulid : ulidText context.runId = true)
    (mirrorRoot : context.mirrorRoot.toList.head? = some '/')
    (publicationRoots : ∀ root, context.publicationRoot = some root →
      root.toList.head? = some '/')
    (compiled : compileProcessRunSpec document context = .ok spec) :
    spec.targetDir.toList.head? = some '/' := by
  rcases compiled_targetDir compiled with target | ⟨publicationRoot, configured, target⟩
  · rw [target, joinText, String.toList_ofList]
    exact Path.head?_join mirrorRoot (relative_of_safeTarget safe).1
  · rw [target]
    simp only [atomicPublicationSpec, joinText, String.toList_ofList]
    apply Path.head?_join _ (by decide)
    apply Path.head?_join _ (attempt_plain ulid _).relative
    apply Path.head?_join _ (by decide)
    exact Path.head?_join (publicationRoots publicationRoot configured)
      context.mirrorName.plain.relative

/-- The chained replacements are the simultaneous substitution in undisturbed templates; with
absolute roots exactly if no value that the template uses has a placeholder that is replaced after
it. -/
theorem resolvePlaceholders_single_pass_iff {vendor : Vendor} (bundle : CanonicalBundle vendor)
    {entry : MirrorName × CanonicalMirror} (entryMem : entry ∈ bundle.mirrors)
    {context : RunSpecContext} (ulid : ulidText context.runId = true) {spec : ProcessRunSpec}
    (compiled : compileProcessRunSpec entry.2.document context = .ok spec) {value : String}
    (accepted : validatePlaceholders value = .ok ()) :
    (Undisturbed (compiledValues entry.2.document context spec)
        (templateTokens 0 value.toList) →
      resolvePlaceholders context spec.targetDir
          (joinText context.mirrorRoot entry.2.document.mirror.target) value =
        substitutePlaceholders context spec.targetDir
          (joinText context.mirrorRoot entry.2.document.mirror.target) value) ∧
    (context.mirrorRoot.toList.head? = some '/' →
      (∀ root, context.publicationRoot = some root → root.toList.head? = some '/') →
      (resolvePlaceholders context spec.targetDir
            (joinText context.mirrorRoot entry.2.document.mirror.target) value =
          substitutePlaceholders context spec.targetDir
            (joinText context.mirrorRoot entry.2.document.mirror.target) value ↔
        ValuesUnread (compiledValues entry.2.document context spec)
          (templateTokens 0 value.toList))) := by
  have safe := bundle.targetsSafe entry entryMem
  have resolved := @toList_resolvePlaceholders entry.2.document context spec value ulid accepted
  have whole : substitutePlaceholders context spec.targetDir
      (joinText context.mirrorRoot entry.2.document.mirror.target) value =
        String.ofList (render (compiledValues entry.2.document context spec)
          (templateTokens 0 value.toList)) := rfl
  rw [whole, ← String.toList_inj, resolved, String.toList_ofList]
  constructor
  · exact Undisturbed.replaceAll
  · intro mirrorRoot publicationRoots
    rw [replaceAll_reread (namesUnbraced ulid accepted) mirrorRoot
      (head?_targetDir safe ulid mirrorRoot publicationRoots compiled)]
    exact render_rereadValues_iff (longDirectories safe ulid mirrorRoot compiled)

namespace Sample

/-- A document whose target looks like a placeholder. -/
def bracedDocument : MirrorDocument where
  mirror := ⟨⟨"braced", by decide⟩, true, "", "\x7bpublished_dir\x7d"⟩
  schedule := none
  sync := .command "/bin/sync" ["\x7btarget_dir\x7d"] none
  publication := none
  run := ⟨3600, 1, 0⟩

def bracedVendor : Vendor where
  parseDuration := fun _ => .error "unknown duration"
  nextOccurrence := fun _ _ _ => .error "unknown expression"
  parseDocument := fun _ => .ok bracedDocument
  scheduleHash := fun _ => "sha256:"
  specHash := fun spec => "sha256:" ++ spec.targetDir
  textHash := fun text => "sha256:" ++ text

def braced : MirrorName × CanonicalMirror :=
  (bracedDocument.mirror.name, {
    ownerNode := nodeA
    document := bracedDocument
    canonicalToml := "[mirror]"
    configHash := "sha256:[mirror]" })

def bracedBundle : CanonicalBundle bracedVendor where
  mirrors := [braced]
  bundleHash := "sha256:braced"
  ordered := by simp
  named := by simp [braced]
  targetsSafe := by simp only [List.mem_singleton, forall_eq, braced]; decide
  policiesBounded := by simp [braced, bracedDocument]
  targetsDisjoint := rfl
  parses := by simp [bracedVendor, braced]
  hashed := by simp [bracedVendor, braced]

def bracedContext : RunSpecContext where
  mirrorName := bracedDocument.mirror.name
  runId := "01ARZ3NDEKTSV4RRFFQ69G5FAV"
  attemptNo := 1
  nodeName := nodeA
  mirrorRoot := "/srv/mirrors"
  publicationRoot := none

/-- What the document compiles to. -/
def bracedSpec : ProcessRunSpec :=
  processRunSpec bracedDocument bracedContext
    (joinText "/srv/mirrors" "\x7bpublished_dir\x7d") none

end Sample

open Sample

theorem mirror_root_is_inserted_once :
    resolvePlaceholders bracedContext bracedSpec.targetDir
        (joinText "/srv/mirrors" "\x7bpublished_dir\x7d") "\x7bmirror_root\x7d/\x7brun_id\x7d" =
      substitutePlaceholders bracedContext bracedSpec.targetDir
        (joinText "/srv/mirrors" "\x7bpublished_dir\x7d")
        "\x7bmirror_root\x7d/\x7brun_id\x7d" := by
  have exact_ := (@resolvePlaceholders_single_pass_iff _ bracedBundle braced
    (by simp [bracedBundle]) bracedContext (by decide) bracedSpec rfl
    "\x7bmirror_root\x7d/\x7brun_id\x7d" (by decide +kernel)).2 (by decide)
    (by simp [bracedContext])
  have tokens : templateTokens 0 "\x7bmirror_root\x7d/\x7brun_id\x7d".toList =
      [.inr .mirrorRoot, .inl '/', .inr .runId] := by
    decide +kernel
  apply exact_.mpr
  refine ⟨fun _ => by decide +kernel, fun used => ?_⟩
  rw [tokens] at used
  simp at used

/-- A target that looks like a placeholder is replaced again. -/
theorem target_is_read_again :
    braced ∈ bracedBundle.mirrors ∧
      compileProcessRunSpec bracedDocument bracedContext = .ok bracedSpec ∧
      validatePlaceholders "\x7btarget_dir\x7d" = .ok () ∧
      resolvePlaceholders bracedContext bracedSpec.targetDir
          (joinText "/srv/mirrors" "\x7bpublished_dir\x7d") "\x7btarget_dir\x7d" ≠
        substitutePlaceholders bracedContext bracedSpec.targetDir
          (joinText "/srv/mirrors" "\x7bpublished_dir\x7d") "\x7btarget_dir\x7d" :=
  ⟨by simp [bracedBundle], rfl, by decide +kernel, by decide +kernel⟩

end Compiled

end LzuMirror
