import LzuMirror.Core.Config

/-!
# The audited rsync profile

`atomic_rsync_long_option` and `validate_atomic_rsync_args`: the options an
atomic mirror may pass to rsync.

`AtomicRsyncItem` is the grammar the validator stands for. An option that takes
a value takes it after `=` or as the next argument; the loop checks that the
former is not empty and does not check it of the latter, so that the grammar has
the condition on a separate value as a parameter.
-/

namespace LzuMirror

/-- `AtomicRsyncOptionKind`. -/
inductive AtomicRsyncOptionKind where
  | flag
  | value
  | rejected (reason : String)
  deriving DecidableEq, Repr

/-- The long options without a value. -/
def atomicRsyncFlags : List String :=
  ["archive", "recursive", "links", "perms", "times", "group", "owner", "devices", "specials",
    "hard-links", "acls", "xattrs", "numeric-ids", "prune-empty-dirs", "compress", "whole-file",
    "checksum", "size-only", "ignore-times", "protect-args", "itemize-changes", "stats",
    "human-readable", "verbose", "quiet", "progress", "copy-links", "safe-links",
    "copy-unsafe-links"]

/-- The long options with a value. -/
def atomicRsyncValueOptions : List String :=
  ["include", "exclude", "filter", "include-from", "exclude-from", "files-from", "max-size",
    "min-size", "bwlimit", "timeout", "contimeout", "block-size", "checksum-choice",
    "compress-choice"]

/-- The options that refer to what the destination held before. -/
def atomicRsyncHistoryOptions : List String :=
  ["delete", "delete-before", "delete-during", "delete-delay", "delete-after", "delete-excluded",
    "max-delete", "force", "ignore-errors", "existing", "ignore-existing", "ignore-non-existing",
    "update"]

/-- The options that interfere with how the candidate is built. -/
def atomicRsyncOwnedOptions : List String :=
  ["inplace", "append", "append-verify", "write-devices", "link-dest", "copy-dest",
    "compare-dest", "backup", "backup-dir", "suffix", "partial", "partial-dir",
    "remove-source-files", "remove-sent-files", "dry-run", "list-only"]

/-- The letters a bundle of short options is made of. -/
def atomicRsyncShortOptions : List Char :=
  ['a', 'r', 'l', 'p', 't', 'g', 'o', 'D', 'H', 'A', 'X', 'z', 's', 'v', 'q']

/-- `atomic_rsync_long_option`. -/
def atomicRsyncLongOption (name : String) : Option AtomicRsyncOptionKind :=
  if name ∈ atomicRsyncFlags then some .flag
  else if name ∈ atomicRsyncValueOptions then some .value
  else if name ∈ atomicRsyncHistoryOptions then
    some (.rejected "fresh-generation Atomic publication has no existing destination history")
  else if name ∈ atomicRsyncOwnedOptions then
    some (.rejected "option conflicts with LMT-owned Atomic candidate materialization")
  else none

/-- `str::split_once('=')`, with the whole text as the name when there is no `=`. -/
def splitOnceEquals : List Char → List Char × Option (List Char)
  | [] => ([], none)
  | character :: rest =>
      if character = '=' then ([], some rest)
      else ((character :: (splitOnceEquals rest).1), (splitOnceEquals rest).2)

/-- The loop body for a long option: whether its value is the next argument. -/
def readAtomicRsyncLong (long : List Char) : Except String Bool :=
  let (name, inlineValue) := splitOnceEquals long
  match atomicRsyncLongOption (String.ofList name), inlineValue with
  | some .flag, none => .ok false
  | some .flag, some _ => .error "flag does not accept a value"
  | some .value, some value =>
      if value = [] then .error "option requires a value" else .ok false
  | some .value, none => .ok true
  | some (.rejected reason), _ => .error reason
  | none, _ => .error "option is not in the audited Atomic profile"

/-- The loop body up to the look at the next argument. -/
def readAtomicRsyncArgument (argument : List Char) : Except String Bool :=
  match argument with
  | '-' :: '-' :: long => readAtomicRsyncLong long
  | '-' :: short =>
      if short = [] ∨ short.any (fun option => decide (option ∉ atomicRsyncShortOptions)) then
        .error "short option is not in the audited Atomic profile"
      else .ok false
  | _ => .error "positional arguments are owned by LMT"

/-- `value.starts_with('-')`. -/
def startsWithDash (value : String) : Bool := value.toList.head? = some '-'

/-- `validate_atomic_rsync_args`. -/
def validateAtomicRsyncArgs : List String → Except ConfigError Unit
  | [] => .ok ()
  | argument :: rest =>
      match readAtomicRsyncArgument argument.toList with
      | .error reason => .error (.atomicRsyncOption argument reason)
      | .ok false => validateAtomicRsyncArgs rest
      | .ok true =>
          match rest with
          | [] => .error (.atomicRsyncOption argument "option requires a value")
          | value :: others =>
              if startsWithDash value then
                .error (.atomicRsyncOption argument "option requires a value")
              else validateAtomicRsyncArgs others

/-- The items of the grammar, with a condition on separate values. -/
inductive AtomicRsyncItem (separateValue : String → Prop) : List String → Prop where
  | flag {name : String} (listed : name ∈ atomicRsyncFlags) :
      AtomicRsyncItem separateValue ["--" ++ name]
  | short {letters : List Char} (nonempty : letters ≠ [])
      (listed : ∀ letter ∈ letters, letter ∈ atomicRsyncShortOptions) :
      AtomicRsyncItem separateValue ["-" ++ String.ofList letters]
  | inlineValue {name value : String} (listed : name ∈ atomicRsyncValueOptions)
      (nonempty : value ≠ "") :
      AtomicRsyncItem separateValue ["--" ++ name ++ "=" ++ value]
  | nextValue {name value : String} (listed : name ∈ atomicRsyncValueOptions)
      (allowed : separateValue value) (undashed : startsWithDash value = false) :
      AtomicRsyncItem separateValue ["--" ++ name, value]

/-- The arguments that split from left to right into items. -/
def SplitsInto (item : List String → Prop) (args : List String) : Prop :=
  ∃ items : List (List String), (∀ part ∈ items, item part) ∧ items.flatten = args

section Options

theorem atomicRsyncLongOption_flag {name : String} :
    atomicRsyncLongOption name = some .flag ↔ name ∈ atomicRsyncFlags := by
  unfold atomicRsyncLongOption
  split
  next flag => simp [flag]
  next notFlag =>
    simp only [notFlag, iff_false]
    split
    · simp
    · split
      · simp
      · split <;> simp

theorem atomicRsyncLongOption_value {name : String} :
    atomicRsyncLongOption name = some .value ↔ name ∈ atomicRsyncValueOptions := by
  have disjoint : ∀ name ∈ atomicRsyncValueOptions, name ∉ atomicRsyncFlags := by decide
  unfold atomicRsyncLongOption
  split
  next flag =>
    have notValue : name ∉ atomicRsyncValueOptions := fun value => disjoint name value flag
    simp [notValue]
  next =>
    split
    next value => simp [value]
    next notValue =>
      simp only [notValue, iff_false]
      split
      · simp
      · split <;> simp

/-- No listed option contains the sign that separates it from its value. -/
theorem listed_no_equals : ∀ name ∈ atomicRsyncFlags ++ atomicRsyncValueOptions,
    '=' ∉ name.toList := by
  decide

theorem splitOnceEquals_plain {name : List Char} (plain : '=' ∉ name) :
    splitOnceEquals name = (name, none) := by
  induction name with
  | nil => rfl
  | cons character rest ih =>
      simp only [List.mem_cons, not_or] at plain
      simp [splitOnceEquals, Ne.symm plain.1, ih plain.2]

theorem splitOnceEquals_value {name : List Char} (plain : '=' ∉ name) (value : List Char) :
    splitOnceEquals (name ++ '=' :: value) = (name, some value) := by
  induction name with
  | nil => simp [splitOnceEquals]
  | cons character rest ih =>
      simp only [List.mem_cons, not_or] at plain
      simp [splitOnceEquals, Ne.symm plain.1, ih plain.2]

end Options

section Reading

/-- The name and the value a long option is read as. -/
theorem readAtomicRsyncLong_plain {name : String} (plain : '=' ∉ name.toList) :
    readAtomicRsyncLong name.toList =
      match atomicRsyncLongOption name with
      | some .flag => .ok false
      | some .value => .ok true
      | some (.rejected reason) => .error reason
      | none => .error "option is not in the audited Atomic profile" := by
  simp only [readAtomicRsyncLong, splitOnceEquals_plain plain, String.ofList_toList]
  cases atomicRsyncLongOption name with
  | none => rfl
  | some kind => cases kind <;> rfl

theorem readAtomicRsyncLong_value {name value : String} (plain : '=' ∉ name.toList) :
    readAtomicRsyncLong (name ++ "=" ++ value).toList =
      match atomicRsyncLongOption name with
      | some .flag => .error "flag does not accept a value"
      | some .value => if value = "" then .error "option requires a value" else .ok false
      | some (.rejected reason) => .error reason
      | none => .error "option is not in the audited Atomic profile" := by
  have spelled : (name ++ "=" ++ value).toList = name.toList ++ '=' :: value.toList := by
    simp
  simp only [readAtomicRsyncLong, spelled, splitOnceEquals_value plain, String.ofList_toList]
  cases atomicRsyncLongOption name with
  | none => rfl
  | some kind =>
      cases kind with
      | flag => rfl
      | rejected reason => rfl
      | value => simp

/-- Every long option is a name alone or a name with a value. -/
theorem long_cases (long : List Char) :
    (∃ name : String, '=' ∉ name.toList ∧ long = name.toList) ∨
      ∃ name value : String, '=' ∉ name.toList ∧ long = (name ++ "=" ++ value).toList := by
  induction long with
  | nil => exact .inl ⟨"", by simp⟩
  | cons character rest ih =>
      by_cases sign : character = '='
      · exact .inr ⟨"", String.ofList rest, by simp [sign]⟩
      · rcases ih with ⟨name, plain, spelled⟩ | ⟨name, value, plain, spelled⟩
        · exact .inl ⟨String.ofList (character :: name.toList), by
            simp [Ne.symm sign, plain, spelled]⟩
        · exact .inr ⟨String.ofList (character :: name.toList), value, by
            simp [Ne.symm sign, plain, spelled]⟩

variable {separateValue : String → Prop}

/-- An argument that stands for itself is an item. -/
theorem readAtomicRsyncArgument_false {argument : String}
    (read : readAtomicRsyncArgument argument.toList = .ok false) :
    AtomicRsyncItem separateValue [argument] := by
  unfold readAtomicRsyncArgument at read
  split at read
  next long spelled =>
    rcases long_cases long with ⟨name, plain, rfl⟩ | ⟨name, value, plain, rfl⟩
    · have whole : argument = "--" ++ name := String.toList_inj.mp (by simp [spelled])
      rw [readAtomicRsyncLong_plain plain] at read
      rw [whole]
      apply AtomicRsyncItem.flag
      split at read <;> simp_all [atomicRsyncLongOption_flag]
    · have whole : argument = "--" ++ name ++ "=" ++ value :=
        String.toList_inj.mp (by simp [spelled])
      rw [readAtomicRsyncLong_value plain] at read
      rw [whole]
      split at read
      · cases read
      next listed =>
        split at read
        · cases read
        next nonempty => exact .inlineValue (atomicRsyncLongOption_value.mp listed) nonempty
      · cases read
      · cases read
  next short _ spelled =>
    have whole : argument = "-" ++ String.ofList short := String.toList_inj.mp (by simp [spelled])
    split at read
    · cases read
    next listed =>
      simp only [not_or, List.any_eq_true, decide_eq_true_eq, not_exists, not_and, not_not]
        at listed
      rw [whole]
      exact .short listed.1 listed.2
  · cases read

/-- An argument that asks for the next one is a value option. -/
theorem readAtomicRsyncArgument_true {argument : String} :
    readAtomicRsyncArgument argument.toList = .ok true ↔
      ∃ name ∈ atomicRsyncValueOptions, argument = "--" ++ name := by
  constructor
  · intro read
    unfold readAtomicRsyncArgument at read
    split at read
    next long spelled =>
      rcases long_cases long with ⟨name, plain, rfl⟩ | ⟨name, value, plain, rfl⟩
      · rw [readAtomicRsyncLong_plain plain] at read
        refine ⟨name, ?_, String.toList_inj.mp (by simp [spelled])⟩
        split at read <;> simp_all [atomicRsyncLongOption_value]
      · rw [readAtomicRsyncLong_value plain] at read
        split at read
        · cases read
        · split at read <;> cases read
        · cases read
        · cases read
    next => split at read <;> cases read
    · cases read
  · rintro ⟨name, listed, rfl⟩
    have plain := listed_no_equals name (List.mem_append_right _ listed)
    have read : readAtomicRsyncArgument ("--" ++ name).toList =
        readAtomicRsyncLong name.toList := by
      simp [readAtomicRsyncArgument]
    rw [read, readAtomicRsyncLong_plain plain, atomicRsyncLongOption_value.mpr listed]

/-- What follows two dashes is read as a long option. -/
theorem readAtomicRsyncArgument_long (long : String) :
    readAtomicRsyncArgument ("--" ++ long).toList = readAtomicRsyncLong long.toList := by
  simp [readAtomicRsyncArgument]

/-- An item that is one argument is read as itself. -/
theorem AtomicRsyncItem.read_single {argument : String}
    (item : AtomicRsyncItem separateValue [argument]) :
    readAtomicRsyncArgument argument.toList = .ok false := by
  generalize single : [argument] = args at item
  cases item with
  | flag listed =>
      cases single
      have plain := listed_no_equals _ (List.mem_append_left _ listed)
      rw [readAtomicRsyncArgument_long, readAtomicRsyncLong_plain plain,
        atomicRsyncLongOption_flag.mpr listed]
  | @short letters nonempty listed =>
      cases single
      have undashed : '-' ∉ atomicRsyncShortOptions := by decide
      rcases letters with _ | ⟨first, rest⟩
      · exact absurd rfl nonempty
      · have firstListed := listed first (by simp)
        have spelled : ("-" ++ String.ofList (first :: rest)).toList = '-' :: first :: rest := by
          simp
        rw [spelled]
        unfold readAtomicRsyncArgument
        split
        next heq =>
          cases heq
          exact absurd firstListed undashed
        next heq =>
          cases heq
          simpa using listed
        next absent => exact absurd rfl (absent _)
  | @inlineValue name value listed nonempty =>
      cases single
      have plain := listed_no_equals _ (List.mem_append_right _ listed)
      have grouped : "--" ++ name ++ "=" ++ value = "--" ++ (name ++ "=" ++ value) := by
        simp only [String.append_assoc]
      rw [grouped, readAtomicRsyncArgument_long, readAtomicRsyncLong_value plain,
        atomicRsyncLongOption_value.mpr listed]
      simp [nonempty]
  | nextValue listed allowed undashed => cases single

end Reading

section Grammar

variable {separateValue : String → Prop}

theorem SplitsInto.nil {item : List String → Prop} : SplitsInto item [] :=
  ⟨[], by simp, rfl⟩

theorem SplitsInto.cons {item : List String → Prop} {part rest : List String} (first : item part)
    (others : SplitsInto item rest) : SplitsInto item (part ++ rest) := by
  rcases others with ⟨items, each, rfl⟩
  exact ⟨part :: items, by simpa using ⟨first, each⟩, by simp⟩

/-- Every argument of a list that splits belongs to one of its items. -/
theorem SplitsInto.mem {item : List String → Prop} {args : List String}
    (split : SplitsInto item args) {argument : String} (argumentMem : argument ∈ args) :
    ∃ part, item part ∧ argument ∈ part := by
  rcases split with ⟨items, each, rfl⟩
  rcases List.mem_flatten.mp argumentMem with ⟨part, partMem, inPart⟩
  exact ⟨part, each part partMem, inPart⟩

/-- One round of the loop. -/
theorem validateAtomicRsyncArgs_cons (argument : String) (rest : List String) :
    validateAtomicRsyncArgs (argument :: rest) =
      match readAtomicRsyncArgument argument.toList with
      | .error reason => .error (.atomicRsyncOption argument reason)
      | .ok false => validateAtomicRsyncArgs rest
      | .ok true =>
          match rest with
          | [] => .error (.atomicRsyncOption argument "option requires a value")
          | value :: others =>
              if startsWithDash value then
                .error (.atomicRsyncOption argument "option requires a value")
              else validateAtomicRsyncArgs others := by
  rw [validateAtomicRsyncArgs.eq_def]

/-- The loop skips one item and goes on. -/
theorem validateAtomicRsyncArgs_item {part : List String}
    (item : AtomicRsyncItem separateValue part) (rest : List String) :
    validateAtomicRsyncArgs (part ++ rest) = validateAtomicRsyncArgs rest := by
  have single : ∀ argument : String, AtomicRsyncItem separateValue [argument] →
      validateAtomicRsyncArgs (argument :: rest) = validateAtomicRsyncArgs rest := by
    intro argument alone
    rw [validateAtomicRsyncArgs_cons, alone.read_single]
  cases item with
  | flag listed => exact single _ (.flag listed)
  | short nonempty listed => exact single _ (.short nonempty listed)
  | inlineValue listed nonempty => exact single _ (.inlineValue listed nonempty)
  | nextValue listed allowed undashed =>
      have read := readAtomicRsyncArgument_true.mpr ⟨_, listed, rfl⟩
      rw [List.cons_append, validateAtomicRsyncArgs_cons, read]
      simp [undashed]

/-- The validator accepts the grammar in which a separate value may be empty. -/
theorem validateAtomicRsyncArgs_ok {args : List String} :
    validateAtomicRsyncArgs args = .ok () ↔
      SplitsInto (AtomicRsyncItem fun _ => True) args := by
  constructor
  · intro accepted
    induction args using validateAtomicRsyncArgs.induct with
    | case1 => exact .nil
    | case2 argument rest reason read => simp [validateAtomicRsyncArgs_cons, read] at accepted
    | case3 argument rest read ih =>
        simp only [validateAtomicRsyncArgs_cons, read] at accepted
        exact SplitsInto.cons (readAtomicRsyncArgument_false read) (ih accepted)
    | case4 argument read => simp [validateAtomicRsyncArgs_cons, read] at accepted
    | case5 argument read value others dashed =>
        simp [validateAtomicRsyncArgs_cons, read, dashed] at accepted
    | case6 argument read value others undashed ih =>
        simp only [validateAtomicRsyncArgs_cons, read, undashed] at accepted
        rcases readAtomicRsyncArgument_true.mp read with ⟨name, listed, rfl⟩
        exact SplitsInto.cons (.nextValue listed trivial (by simpa using undashed)) (ih accepted)
  · rintro ⟨items, each, rfl⟩
    induction items with
    | nil => rfl
    | cons part rest ih =>
        rw [List.flatten_cons, validateAtomicRsyncArgs_item (each part (by simp))]
        exact ih fun other otherMem => each other (by simp [otherMem])

/-- The first argument of an item starts with a dash and is a listed option. -/
theorem AtomicRsyncItem.head_dashed {argument : String} {rest : List String}
    (item : AtomicRsyncItem separateValue (argument :: rest)) :
    startsWithDash argument = true := by
  generalize spelled : argument :: rest = args at item
  cases item <;> cases spelled <;> simp [startsWithDash]

/-- Without empty separate values no argument at all is empty. -/
theorem splitsInto_nonempty {args : List String} :
    SplitsInto (AtomicRsyncItem (· ≠ "")) args ↔
      SplitsInto (AtomicRsyncItem fun _ => True) args ∧ "" ∉ args := by
  constructor
  · rintro split
    constructor
    · rcases split with ⟨items, each, rfl⟩
      refine ⟨items, fun part partMem => ?_, rfl⟩
      cases each part partMem with
      | flag listed => exact .flag listed
      | short nonempty listed => exact .short nonempty listed
      | inlineValue listed nonempty => exact .inlineValue listed nonempty
      | nextValue listed allowed undashed => exact .nextValue listed trivial undashed
    · intro empty
      rcases split.mem empty with ⟨part, item, inPart⟩
      cases item with
      | flag listed => simp at inPart
      | short nonempty listed => simp at inPart
      | inlineValue listed nonempty => simp at inPart
      | nextValue listed allowed undashed =>
          simp only [List.mem_cons, List.not_mem_nil, or_false] at inPart
          rcases inPart with option | value
          · simp at option
          · exact allowed value.symm
  · rintro ⟨⟨items, each, rfl⟩, nonempty⟩
    refine ⟨items, fun part partMem => ?_, rfl⟩
    cases each part partMem with
    | flag listed => exact .flag listed
    | short nonempty listed => exact .short nonempty listed
    | inlineValue listed nonempty => exact .inlineValue listed nonempty
    | @nextValue name value listed allowed undashed =>
        have member : value ∈ items.flatten :=
          List.mem_flatten.mpr ⟨_, partMem, by simp⟩
        exact .nextValue listed (fun empty => nonempty (empty ▸ member)) undashed

/-- What no accepted list contains. -/
structure OnlyListedOptions (args : List String) : Prop where
  /-- An argument without a dash is the value of the option before it. -/
  noPositional : ∀ {before after : List String} {argument : String},
    args = before ++ argument :: after → startsWithDash argument = false →
      ∃ earlier : List String, ∃ name ∈ atomicRsyncValueOptions, before = earlier ++ ["--" ++ name]
  noBareDashes : "--" ∉ args ∧ "-" ∉ args
  /-- An argument with a dash is an item by itself or a listed option that takes a value. -/
  noOther : ∀ argument ∈ args, startsWithDash argument = true →
    AtomicRsyncItem (· ≠ "") [argument] ∨
      ∃ name ∈ atomicRsyncValueOptions, argument = "--" ++ name

theorem noPositional_of_items {items : List (List String)}
    (each : ∀ part ∈ items, AtomicRsyncItem separateValue part) {before after : List String}
    {argument : String} (located : items.flatten = before ++ argument :: after)
    (undashed : startsWithDash argument = false) :
    ∃ earlier : List String, ∃ name ∈ atomicRsyncValueOptions,
      before = earlier ++ ["--" ++ name] := by
  induction items generalizing before with
  | nil => simp at located
  | cons part rest ih =>
      have others := fun other otherMem => each other (List.mem_cons_of_mem part otherMem)
      have first := each part (by simp)
      rcases part with _ | ⟨head, values⟩
      · cases first
      have dashed := first.head_dashed
      rcases before with _ | ⟨front, before⟩
      · -- the head of an item is no positional argument
        simp only [List.flatten_cons, List.cons_append, List.nil_append, List.cons.injEq] at located
        simp [← located.1, dashed] at undashed
      simp only [List.flatten_cons, List.cons_append, List.cons.injEq] at located
      rcases located with ⟨rfl, located⟩
      generalize spelled : head :: values = args at first
      cases first with
      | flag listed =>
          cases spelled
          rcases ih others located with ⟨earlier, name, listed, rfl⟩
          exact ⟨_ :: earlier, name, listed, rfl⟩
      | short nonempty listed =>
          cases spelled
          rcases ih others located with ⟨earlier, name, listed, rfl⟩
          exact ⟨_ :: earlier, name, listed, rfl⟩
      | inlineValue listed nonempty =>
          cases spelled
          rcases ih others located with ⟨earlier, name, listed, rfl⟩
          exact ⟨_ :: earlier, name, listed, rfl⟩
      | nextValue valueListed allowed valueUndashed =>
          cases spelled
          rcases before with _ | ⟨second, before⟩
          · exact ⟨[], _, valueListed, rfl⟩
          simp only [List.cons_append, List.nil_append, List.cons.injEq] at located
          rcases ih others located.2 with ⟨earlier, name, listed, rfl⟩
          exact ⟨_ :: second :: earlier, name, listed, rfl⟩

theorem onlyListedOptions_of_ok {args : List String}
    (accepted : validateAtomicRsyncArgs args = .ok ()) : OnlyListedOptions args := by
  have split := validateAtomicRsyncArgs_ok.mp accepted
  have listedOption : ∀ argument ∈ args, startsWithDash argument = true →
      AtomicRsyncItem (· ≠ "") [argument] ∨
        ∃ name ∈ atomicRsyncValueOptions, argument = "--" ++ name := by
    intro argument argumentMem dashed
    rcases split.mem argumentMem with ⟨part, item, inPart⟩
    cases item with
    | flag listed => exact .inl (by simpa using List.mem_singleton.mp inPart ▸ .flag listed)
    | short nonempty listed =>
        exact .inl (List.mem_singleton.mp inPart ▸ .short nonempty listed)
    | inlineValue listed nonempty =>
        exact .inl (List.mem_singleton.mp inPart ▸ .inlineValue listed nonempty)
    | nextValue listed allowed undashed =>
        simp only [List.mem_cons, List.not_mem_nil, or_false] at inPart
        rcases inPart with rfl | rfl
        · exact .inr ⟨_, listed, rfl⟩
        · simp [undashed] at dashed
  have rejected : ∀ argument : String, readAtomicRsyncArgument argument.toList ≠ .ok false →
      readAtomicRsyncArgument argument.toList ≠ .ok true → startsWithDash argument = true →
        argument ∉ args := by
    intro argument notItem notOption dashed argumentMem
    rcases listedOption argument argumentMem dashed with item | option
    · exact notItem item.read_single
    · exact notOption (readAtomicRsyncArgument_true.mpr option)
  refine ⟨?_, ⟨?_, ?_⟩, listedOption⟩
  · intro before after argument located undashed
    rcases split with ⟨items, each, flattened⟩
    exact noPositional_of_items each (flattened.trans located) undashed
  · exact rejected "--" (by decide) (by decide) (by decide)
  · exact rejected "-" (by decide) (by decide) (by decide)

/-- The validator accepts exactly the grammar unless an argument of an otherwise well-formed list
is the empty value of the option before it. -/
theorem validateAtomicRsyncArgs_exact_iff (args : List String) :
    ((validateAtomicRsyncArgs args = .ok () ↔ SplitsInto (AtomicRsyncItem (· ≠ "")) args) ∧
        (validateAtomicRsyncArgs args = .ok () → OnlyListedOptions args)) ↔
      ("" ∉ args ∨ ¬SplitsInto (AtomicRsyncItem fun _ => True) args) := by
  have listed : validateAtomicRsyncArgs args = .ok () → OnlyListedOptions args :=
    onlyListedOptions_of_ok
  rw [validateAtomicRsyncArgs_ok, splitsInto_nonempty] at *
  constructor
  · rintro ⟨exactly, _⟩
    by_cases split : SplitsInto (AtomicRsyncItem fun _ => True) args
    · exact .inl (exactly.mp split).2
    · exact .inr split
  · intro condition
    refine ⟨⟨fun split => ⟨split, ?_⟩, And.left⟩, listed⟩
    rcases condition with nonempty | outside
    · exact nonempty
    · exact absurd split outside

/-- A value that is missing after `=` is an error, one that is an empty argument is not. -/
theorem empty_separate_value_is_accepted :
    validateAtomicRsyncArgs ["--timeout", ""] = .ok () ∧
      ¬SplitsInto (AtomicRsyncItem (· ≠ "")) ["--timeout", ""] :=
  ⟨by decide, fun split => absurd (splitsInto_nonempty.mp split).2 (by simp)⟩

example : validateAtomicRsyncArgs ["--timeout="] =
    .error (.atomicRsyncOption "--timeout=" "option requires a value") := by
  decide

end Grammar

end LzuMirror
