import Mathlib.Data.List.Basic
import Mathlib.Tactic.Common

/-!
# Slash-separated paths

The part of `std::path` that the configuration compiler and the overlap check
use, for Unix paths given as text: `Path::components`, `Path::starts_with`,
`Path::is_absolute`, `Path::join`, `Path::extension` and `Path::file_stem`.

Repeated and trailing slashes and inner `.` pieces do not count as components,
so different texts can name one directory. A leading `.` is a component of its
own, and `..` is kept unresolved.
-/

namespace LzuMirror

/-- `std::path::Component`, without the Windows prefix. -/
inductive Component where
  | rootDir
  | curDir
  | parentDir
  | normal (name : List Char)
  deriving DecidableEq, Repr

/-- `Component::as_os_str`. -/
def Component.text : Component → List Char
  | .rootDir => ['/']
  | .curDir => ['.']
  | .parentDir => ['.', '.']
  | .normal name => name

namespace Path

/-- The pieces of a text between its slashes; there is always at least one. -/
def pieces : List Char → List (List Char)
  | [] => [[]]
  | character :: rest =>
      if character = '/' then [] :: pieces rest
      else
        match pieces rest with
        | [] => [[character]]
        | piece :: others => (character :: piece) :: others

/-- The component a piece stands for when it is not the leading one. -/
def pieceComponent (piece : List Char) : Option Component :=
  if piece = [] ∨ piece = ['.'] then none
  else if piece = ['.', '.'] then some .parentDir
  else some (.normal piece)

/-- `Path::is_absolute`. -/
def isAbsolute (path : List Char) : Bool := path.head? = some '/'

/-- The component only the beginning of a path can have. -/
def leading (path : List Char) : List Component :=
  if isAbsolute path then [.rootDir]
  else if (pieces path).head? = some ['.'] then [.curDir]
  else []

/-- `Path::components`. -/
def components (path : List Char) : List Component :=
  leading path ++ (pieces path).filterMap pieceComponent

/-- `Path::starts_with`: one component list is a prefix of the other. -/
def startsWith (path base : List Char) : Bool :=
  (components base).isPrefixOf (components path)

/-- `Path::join`. -/
def join (base rest : List Char) : List Char :=
  if isAbsolute rest then rest
  else if base = [] then rest
  else if base.getLast? = some '/' then base ++ rest
  else base ++ '/' :: rest

/-- `Path::file_name`. -/
def fileName (path : List Char) : Option (List Char) :=
  match (components path).getLast? with
  | some (.normal name) => some name
  | _ => none

/-- `rsplit_file_at_dot`: what stands before and after the last dot of a file name. -/
def rsplitFileAtDot (file : List Char) : Option (List Char) × Option (List Char) :=
  if file = ['.', '.'] then (some file, none)
  else if '.' ∈ file then
    let before := (file.reverse.dropWhile (· ≠ '.')).tail.reverse
    if before = [] then (some file, none)
    else (some before, some (file.reverse.takeWhile (· ≠ '.')).reverse)
  else (none, some file)

/-- `Path::extension`. -/
def extension (path : List Char) : Option (List Char) :=
  (fileName path).bind fun file =>
    let (before, after) := rsplitFileAtDot file
    before.bind fun _ => after

/-- `Path::file_stem`. -/
def fileStem (path : List Char) : Option (List Char) :=
  (fileName path).bind fun file =>
    let (before, after) := rsplitFileAtDot file
    before.or after

theorem pieces_ne_nil (path : List Char) : pieces path ≠ [] := by
  cases path with
  | nil => simp [pieces]
  | cons character rest =>
      simp only [pieces]
      split
      · simp
      · cases pieces rest <;> simp

theorem pieces_append (first second : List Char) :
    pieces (first ++ '/' :: second) = pieces first ++ pieces second := by
  induction first with
  | nil => simp [pieces]
  | cons character rest ih =>
      simp only [List.cons_append, pieces, ih]
      split
      · rfl
      · cases split : pieces rest with
        | nil => exact absurd split (pieces_ne_nil rest)
        | cons piece others => rfl

/-- Only the part before the first slash decides the leading component. -/
theorem leading_append {first : List Char} (nonempty : first ≠ []) (second : List Char) :
    leading (first ++ '/' :: second) = leading first := by
  have absolute : isAbsolute (first ++ '/' :: second) = isAbsolute first := by
    cases first with
    | nil => exact absurd rfl nonempty
    | cons character rest => rfl
  have head : (pieces (first ++ '/' :: second)).head? = (pieces first).head? := by
    rw [pieces_append]
    cases split : pieces first with
    | nil => exact absurd split (pieces_ne_nil first)
    | cons piece others => rfl
  simp only [leading, absolute, head]

theorem components_append_slash (first second : List Char) (nonempty : first ≠ [])
    (plain : leading second = []) :
    components (first ++ '/' :: second) = components first ++ components second := by
  simp only [components, leading_append nonempty, pieces_append, List.filterMap_append, plain,
    List.nil_append, List.append_assoc]

/-- A path that ends in a slash has the components of the path without it. -/
theorem components_trailing_slash {path : List Char} (nonempty : path ≠ []) :
    components (path ++ ['/']) = components path := by
  have appended := components_append_slash path [] nonempty rfl
  rw [appended]
  simp [components, leading, pieces, pieceComponent, isAbsolute]

/-- Joining a plain relative path appends its components. -/
theorem components_join {base rest : List Char} (plain : leading rest = []) :
    components (join base rest) = components base ++ components rest := by
  have relative : isAbsolute rest = false := by
    unfold leading at plain
    cases absolute : isAbsolute rest
    · rfl
    · simp [absolute] at plain
  unfold join
  simp only [relative, Bool.false_eq_true, if_false]
  split
  next emptyBase =>
    subst emptyBase
    simp [components, leading, pieces, pieceComponent, isAbsolute]
  next nonempty =>
    split
    next slash =>
      obtain ⟨front, rfl⟩ := List.getLast?_eq_some_iff.mp slash
      by_cases root : front = []
      · subst root
        have pieceSplit := pieces_append [] rest
        simp only [List.nil_append] at pieceSplit ⊢
        simp [components, leading, pieceSplit, pieces, pieceComponent, isAbsolute] at plain ⊢
        split at plain <;> simp_all
      · rw [List.append_assoc, List.singleton_append, components_append_slash _ _ root plain,
          components_trailing_slash root]
    · exact components_append_slash base rest nonempty plain

/-- Only the empty text has no components. -/
theorem components_ne_nil {path : List Char} (nonempty : path ≠ []) : components path ≠ [] := by
  cases path with
  | nil => exact absurd rfl nonempty
  | cons character rest =>
      by_cases slash : character = '/'
      · simp [components, leading, isAbsolute, slash]
      · rcases split : pieces rest with _ | ⟨piece, others⟩
        · exact absurd split (pieces_ne_nil rest)
        · have first : pieces (character :: rest) = (character :: piece) :: others := by
            simp [pieces, slash, split]
          by_cases dot : character :: piece = ['.']
          · simp [components, leading, isAbsolute, slash, first, dot]
          · have named : ∃ component, pieceComponent (character :: piece) = some component := by
              simp only [pieceComponent, dot, reduceCtorEq, or_self, if_false]
              split
              · exact ⟨_, rfl⟩
              · exact ⟨_, rfl⟩
            rcases named with ⟨component, named⟩
            simp [components, first, named]

/-- The components of a path tell whether it is absolute. -/
theorem isAbsolute_iff {path : List Char} :
    isAbsolute path = true ↔ (components path).head? = some .rootDir := by
  have notRoot : ∀ (texts : List (List Char)) (component : Component),
      component ∈ texts.filterMap pieceComponent → component ≠ .rootDir := by
    intro texts component member root
    rcases List.mem_filterMap.mp member with ⟨piece, _, named⟩
    unfold pieceComponent at named
    split at named
    · cases named
    · split at named <;> simp_all
  constructor
  · intro absolute
    simp [components, leading, absolute]
  · intro first
    by_contra relative
    simp only [components, leading, relative, if_false] at first
    split at first
    · simp at first
    · exact notRoot _ _ (List.mem_of_mem_head? first) rfl

/-- An absolute path stays one when a relative path is joined to it. -/
theorem head?_join {base rest : List Char} (absolute : base.head? = some '/')
    (relative : isAbsolute rest = false) : (join base rest).head? = some '/' := by
  rcases base with _ | ⟨first, base⟩
  · simp at absolute
  · unfold join
    simp only [relative, Bool.false_eq_true, if_false, reduceCtorEq]
    split <;> simpa using absolute

theorem length_join {base rest : List Char} (relative : isAbsolute rest = false) :
    base.length + rest.length ≤ (join base rest).length := by
  unfold join
  simp only [relative, Bool.false_eq_true, if_false]
  split
  next empty => simp [empty]
  next =>
    split
    · simp
    · simp only [List.length_append, List.length_cons]
      omega

/-- What stands inside an absolute path without its slashes leaves room for two of them. -/
theorem length_join_of_infix {base rest inner : List Char} (absolute : base.head? = some '/')
    (relative : isAbsolute rest = false) (noSlash : '/' ∉ inner) (nonempty : inner ≠ [])
    (occurs : inner <:+: base) :
    inner.length + 2 + rest.length ≤ (join base rest).length := by
  rcases occurs with ⟨before, after, rfl⟩
  have slashBefore : before ≠ [] := by
    rintro rfl
    rcases inner with _ | ⟨first, inner⟩
    · exact nonempty rfl
    · simp only [List.nil_append, List.cons_append, List.head?_cons, Option.some.injEq] at absolute
      exact noSlash (by simp [absolute])
  have positive := List.length_pos_iff.mpr slashBefore
  unfold join
  simp only [relative, Bool.false_eq_true, if_false]
  split
  next empty => simp_all
  next =>
    split
    next slash =>
      have slashAfter : after ≠ [] := by
        rintro rfl
        rw [List.append_nil] at slash
        rw [List.getLast?_append_of_ne_nil _ nonempty] at slash
        exact noSlash (List.mem_of_mem_getLast? slash)
      have more := List.length_pos_iff.mpr slashAfter
      simp only [List.length_append]
      omega
    next =>
      simp only [List.length_append, List.length_cons]
      omega

/-- A text that is one normal component. -/
structure Plain (name : List Char) : Prop where
  nonempty : name ≠ []
  noSlash : '/' ∉ name
  notCurDir : name ≠ ['.']
  notParentDir : name ≠ ['.', '.']

theorem pieces_of_noSlash {name : List Char} (noSlash : '/' ∉ name) : pieces name = [name] := by
  induction name with
  | nil => rfl
  | cons character rest ih =>
      simp only [List.mem_cons, not_or] at noSlash
      simp [pieces, Ne.symm noSlash.1, ih noSlash.2]

theorem Plain.relative {name : List Char} (plain : Plain name) : isAbsolute name = false := by
  cases name with
  | nil => rfl
  | cons character rest =>
      have first : character ≠ '/' := fun slash => plain.noSlash (by simp [slash])
      simp [isAbsolute, first]

theorem Plain.leading {name : List Char} (plain : Plain name) : leading name = [] := by
  simp [Path.leading, plain.relative, pieces_of_noSlash plain.noSlash, plain.notCurDir]

theorem Plain.components {name : List Char} (plain : Plain name) :
    components name = [.normal name] := by
  simp [Path.components, plain.leading, pieces_of_noSlash plain.noSlash, pieceComponent,
    plain.nonempty, plain.notCurDir, plain.notParentDir]

theorem Plain.components_join {name : List Char} (plain : Plain name) (base : List Char) :
    Path.components (join base name) = Path.components base ++ [.normal name] := by
  rw [Path.components_join plain.leading, plain.components]

/-- The last dot of a name with an extension is the one before the extension. -/
theorem rsplitFileAtDot_append {stem extension : List Char} (nonempty : stem ≠ [])
    (noDot : '.' ∉ extension) (named : extension ≠ []) :
    rsplitFileAtDot (stem ++ '.' :: extension) = (some stem, some extension) := by
  have notParentDir : stem ++ '.' :: extension ≠ ['.', '.'] := by
    intro same
    have sizes := congrArg List.length same
    have stemSize := List.length_pos_iff.mpr nonempty
    have extensionSize := List.length_pos_iff.mpr named
    simp only [List.length_append, List.length_cons, List.length_nil] at sizes
    omega
  have free : ∀ character ∈ extension.reverse, decide (character ≠ '.') = true := by
    intro character member
    have different : character ≠ '.' := by
      rintro rfl
      exact noDot (List.mem_reverse.mp member)
    simpa using different
  have reversed : (stem ++ '.' :: extension).reverse =
      extension.reverse ++ '.' :: stem.reverse := by
    simp
  have dropped : (extension.reverse ++ '.' :: stem.reverse).dropWhile (· ≠ '.') =
      '.' :: stem.reverse := by
    rw [List.dropWhile_append_of_pos free]
    simp
  have taken : (extension.reverse ++ '.' :: stem.reverse).takeWhile (· ≠ '.') =
      extension.reverse := by
    rw [List.takeWhile_append_of_pos free]
    simp
  unfold rsplitFileAtDot
  rw [if_neg notParentDir, if_pos (by simp), reversed, dropped, taken]
  simp [nonempty]

theorem fileName_of_components {path name : List Char} {front : List Component}
    (shape : components path = front ++ [.normal name]) : fileName path = some name := by
  simp [fileName, shape]

end Path

end LzuMirror
