import Mathlib.Data.String.Basic
import LzuMirror.Core.Placeholders
import LzuMirror.Core.RsyncProfile
import LzuMirror.Lib.Fallible
import LzuMirror.Lib.Ordered
import LzuMirror.Lib.Words

/-!
# Canonical bundles

`canonicalize_bundle` and `ScheduleConfig::canonicalized`.

A bundle is read file by file into a map. A name that is defined twice
overwrites the earlier mirror, but leaves an error, and the overlap check sees
only what is in the map at the end. What succeeds is therefore described without
the order of the files: `canonicalizeBundle_eq_ok`. The hash is taken over the
entries in name order, every field followed by a NUL.
-/

namespace LzuMirror

/-- The libraries a bundle is read and written with. -/
structure ConfigVendor extends Vendor where
  /-- `toml::to_string`. -/
  serializeDocument : MirrorDocument → Except String String
  /-- `CronParser::parse` of `croner`, with neither seconds nor years. -/
  parseCron : String → Except String Unit
  /-- Whether `chrono_tz` knows a timezone. -/
  knownTimezone : String → Bool
  /-- The upper case of a character outside ASCII. -/
  upperOther : Char → List Char

section Text

/-- `char::is_ascii`. -/
def isAscii (character : Char) : Bool := character.toNat < 128

/-- `char::is_whitespace`: the characters with the property `White_Space`. -/
def isWhitespace (character : Char) : Bool :=
  let code := character.toNat
  (0x09 ≤ code && code ≤ 0x0d) || code = 0x20 || code = 0x85 || code = 0xa0 || code = 0x1680 ||
    (0x2000 ≤ code && code ≤ 0x200a) || code = 0x2028 || code = 0x2029 || code = 0x202f ||
    code = 0x205f || code = 0x3000

/-- `str::split_whitespace`. -/
def splitWhitespace (text : List Char) : List (List Char) := wordsBy isWhitespace text

/-- The upper case of one character. -/
def ConfigVendor.upperChar (vendor : ConfigVendor) (character : Char) : List Char :=
  if isAscii character then [character.toUpper] else vendor.upperOther character

/-- `str::to_uppercase`. -/
def ConfigVendor.toUppercase (vendor : ConfigVendor) (text : List Char) : List Char :=
  text.flatMap vendor.upperChar

end Text

section Schedules

/-- `MONTH_NAMES`. -/
def monthNames : List String :=
  ["JAN", "FEB", "MAR", "APR", "MAY", "JUN", "JUL", "AUG", "SEP", "OCT", "NOV", "DEC"]

/-- `WEEKDAY_NAMES`. -/
def weekdayNames : List String := ["SUN", "MON", "TUE", "WED", "THU", "FRI", "SAT"]

/-- The characters of extended cron expressions. -/
def extendedCron : List Char := ['@', '?', '#', '+']

/-- The alphabetic words of a cron expression. -/
def cronWords (expression : List Char) : List (List Char) :=
  wordsBy (fun character => !character.isAlpha) expression

/-- The check of one word of a cron expression. -/
def ConfigVendor.validateCronWord (vendor : ConfigVendor) (word : List Char) :
    Except String Unit :=
  let word := String.ofList (vendor.toUppercase word)
  if word ∉ monthNames ∧ word ∉ weekdayNames then
    .error ("unsupported cron token " ++ word.quote)
  else .ok ()

/-- `validate_cron`. -/
def ConfigVendor.validateCron (vendor : ConfigVendor) (expression : String) :
    Except String Unit :=
  if (splitWhitespace expression.toList).length ≠ 5 then
    .error "cron must contain exactly five fields"
  else if expression.toList.any extendedCron.contains then
    .error "extended cron syntax is not supported"
  else do
    forM (cronWords expression.toList) vendor.validateCronWord
    vendor.parseCron expression

/-- The timezone check of a schedule. -/
def ConfigVendor.validateTimezone (vendor : ConfigVendor) (timezone : String) :
    Except String Unit :=
  if vendor.knownTimezone timezone then .ok ()
  else .error ("unknown IANA timezone " ++ timezone.quote)

/-- `ScheduleConfig::validate`. -/
def ScheduleConfig.validate (vendor : ConfigVendor) : ScheduleConfig → Except String Unit
  | .interval value => (parseInterval vendor.toCalendar value).map fun _ => ()
  | .cron expression timezone => do
      vendor.validateCron expression
      vendor.validateTimezone timezone

/-- The upper-case fields of a cron expression with one space between them. -/
def ConfigVendor.canonicalCron (vendor : ConfigVendor) (cron : String) : String :=
  String.ofList ([' '].intercalate ((splitWhitespace cron.toList).map vendor.toUppercase))

/-- `ScheduleConfig::canonicalized`. -/
def ScheduleConfig.canonicalized (vendor : ConfigVendor) :
    ScheduleConfig → Except String ScheduleConfig
  | .interval value => do
      let seconds ← parseInterval vendor.toCalendar value
      return .interval (toString seconds ++ "s")
  | .cron expression timezone => do
      vendor.validateCron expression
      vendor.validateTimezone timezone
      return .cron (vendor.canonicalCron expression) timezone

end Schedules

section Documents

/-- The checks of the `sync` section. -/
def validateSync (document : MirrorDocument) : Except ConfigError Unit :=
  match document.sync with
  | .command program args cwd =>
      if program = "" then .error .emptyProgram
      else forM (program :: args ++ cwd.toList) validatePlaceholders
  | .rsync source args =>
      if source = "" then .error .emptyRsyncSource
      else if document.publicationMode = .atomic then validateAtomicRsyncArgs args
      else .ok ()

/-- The checks of the `run` section. -/
def validateRunPolicy (run : RunPolicy) : Except ConfigError Unit :=
  if ¬(1 ≤ run.timeoutSeconds ∧ run.timeoutSeconds ≤ 604800) then .error .invalidTimeout
  else if ¬(1 ≤ run.maxAttempts ∧ run.maxAttempts ≤ 10) then .error .invalidMaxAttempts
  else if 86400 < run.retryDelaySeconds then .error .invalidRetryDelay
  else .ok ()

/-- The check of the `schedule` section. -/
def validateSchedule (vendor : ConfigVendor) (schedule : Option ScheduleConfig) :
    Except ConfigError Unit :=
  match schedule with
  | none => .ok ()
  | some schedule => (schedule.validate vendor).mapError .invalidSchedule

/-- `validate_document`. -/
def validateDocument (vendor : ConfigVendor) (document : MirrorDocument) :
    Except ConfigError Unit :=
  if safeTarget document.mirror.target = false then
    .error (.unsafeTarget document.mirror.target)
  else do
    validateSync document
    validateRunPolicy document.run
    validateSchedule vendor document.schedule

/-- The schedule of a document in its canonical form. -/
def canonicalizeSchedule (vendor : ConfigVendor) (schedule : Option ScheduleConfig) :
    Except ConfigError (Option ScheduleConfig) :=
  match schedule with
  | none => .ok none
  | some schedule => ((schedule.canonicalized vendor).mapError .invalidSchedule).map some

end Documents

section Files

/-- `BundleFile`. -/
structure BundleFile where
  path : String
  contents : String
  deriving DecidableEq, Repr

/-- The path checks of `canonicalize_file`: the node whose file this is. -/
def bundleOwner (path : String) : Except ConfigError NodeName :=
  match Path.components path.toList with
  | [nodes, node, mirrors, _] =>
      if nodes.text ≠ "nodes".toList ∨ mirrors.text ≠ "mirrors".toList ∨
          Path.extension path.toList ≠ some "toml".toList then
        .error (.invalidPath path)
      else if valid : validName (String.ofList node.text) = true then
        .ok ⟨String.ofList node.text, valid⟩
      else .error (.invalidPath path)
  | _ => .error (.invalidPath path)

/-- The file stem has to be the name of the mirror. -/
def validateStem (path : String) (name : MirrorName) : Except ConfigError Unit :=
  let stem := String.ofList ((Path.fileStem path.toList).getD [])
  if stem ≠ name.value then .error (.nameMismatch stem name) else .ok ()

/-- `canonicalize_file`. -/
def canonicalizeFile (vendor : ConfigVendor) (file : BundleFile) :
    Except ConfigError (MirrorName × CanonicalMirror) := do
  let ownerNode ← bundleOwner file.path
  let document ← (vendor.parseDocument file.contents).mapError (.invalidToml file.path)
  validateStem file.path document.mirror.name
  validateDocument vendor document
  let schedule ← canonicalizeSchedule vendor document.schedule
  let document := { document with schedule }
  let canonicalToml ← (vendor.serializeDocument document).mapError (.invalidToml file.path)
  let configHash := vendor.textHash canonicalToml
  return (document.mirror.name, { ownerNode, document, canonicalToml, configHash })

end Files

section Bundles

instance : LinearOrder MirrorName :=
  LinearOrder.lift' MirrorName.value fun first second same => by
    cases first
    cases second
    congr

/-- The mirrors of a bundle in name order. -/
abbrev MirrorMap := List (MirrorName × CanonicalMirror)

/-- One file of the loop: the errors and the map so far. -/
def insertFile (vendor : ConfigVendor) (found : List ConfigError × MirrorMap)
    (file : BundleFile) : List ConfigError × MirrorMap :=
  match canonicalizeFile vendor file with
  | .error reason => (found.1 ++ [reason], found.2)
  | .ok (name, mirror) =>
      let duplicates := if name ∈ found.2.map Prod.fst then [.duplicateMirror name] else []
      (found.1 ++ duplicates, insertKey name mirror found.2)

/-- What one entry feeds to the bundle hash. -/
def entryFields (entry : MirrorName × CanonicalMirror) : List (List Char) :=
  [entry.1.value.toList, entry.2.ownerNode.value.toList, entry.2.canonicalToml.toList]

/-- The text that the bundle hash is taken of. -/
def bundleText (mirrors : MirrorMap) : String :=
  String.ofList (terminated '\x00' (mirrors.flatMap entryFields))

/-- The bytes fed to the bundle hash. -/
def bundleBytes (mirrors : MirrorMap) : ByteArray := (bundleText mirrors).toByteArray

/-- What `canonicalize_bundle` returns. -/
structure BundleContents where
  mirrors : MirrorMap
  bundleHash : String

/-- `canonicalize_bundle`. -/
def canonicalizeBundle (vendor : ConfigVendor) (files : List BundleFile) :
    Except (List ConfigError) BundleContents :=
  let found := files.foldl (insertFile vendor) ([], [])
  let errors := found.1 ++ targetOverlapErrors found.2
  if errors ≠ [] then .error errors
  else .ok { mirrors := found.2, bundleHash := vendor.textHash (bundleText found.2) }

end Bundles

variable {vendor : ConfigVendor}

section Checks

theorem validateCron_eq_ok {expression : String} :
    vendor.validateCron expression = .ok () ↔
      (splitWhitespace expression.toList).length = 5 ∧
        (∀ character ∈ expression.toList, character ∉ extendedCron) ∧
        (∀ word ∈ cronWords expression.toList, vendor.validateCronWord word = .ok ()) ∧
        vendor.parseCron expression = .ok () := by
  unfold ConfigVendor.validateCron
  split
  next other => simp [other]
  next fields =>
    split
    next extended =>
      simp only [List.any_eq_true, List.contains_iff_mem] at extended
      rcases extended with ⟨character, member, isExtended⟩
      simp only [reduceCtorEq, false_iff, not_and]
      intro _ plain
      exact absurd isExtended (plain character member)
    next plain =>
      simp only [List.any_eq_true, List.contains_iff_mem, not_exists, not_and] at plain
      simp only [ne_eq, not_not] at fields
      rw [check_bind_eq_ok, forM_eq_ok]
      exact ⟨fun passes => ⟨fields, plain, passes⟩, fun passes => passes.2.2⟩

theorem validateDocument_eq_ok {document : MirrorDocument} :
    validateDocument vendor document = .ok () ↔
      safeTarget document.mirror.target = true ∧ validateSync document = .ok () ∧
        validateRunPolicy document.run = .ok () ∧
        validateSchedule vendor document.schedule = .ok () := by
  unfold validateDocument
  split
  next notSafe => simp [notSafe]
  next safe => simp [safe, check_bind_eq_ok]

end Checks

section Cron

/-- What holds of the 128 ASCII characters. -/
theorem forall_ascii {motive : Char → Prop} (each : ∀ code, code < 128 → motive (Char.ofNat code))
    {character : Char} (ascii : isAscii character = true) : motive character := by
  have holds := each character.toNat (by simpa [isAscii] using ascii)
  rwa [Char.ofNat_toNat] at holds

/-- The upper case of an ASCII character is read as the character is. -/
structure UpperFacts (character : Char) : Prop where
  ascii : isAscii character.toUpper = true
  idempotent : character.toUpper.toUpper = character.toUpper
  alpha : character.toUpper.isAlpha = character.isAlpha
  whitespace : isWhitespace character.toUpper = isWhitespace character
  extended : character.toUpper ∈ extendedCron → character ∈ extendedCron

theorem upperFacts {character : Char} (ascii : isAscii character = true) :
    UpperFacts character := by
  have facts := forall_ascii (motive := fun character =>
    isAscii character.toUpper = true ∧ character.toUpper.toUpper = character.toUpper ∧
      character.toUpper.isAlpha = character.isAlpha ∧
      isWhitespace character.toUpper = isWhitespace character ∧
      (character.toUpper ∈ extendedCron → character ∈ extendedCron)) (by decide +kernel) ascii
  exact ⟨facts.1, facts.2.1, facts.2.2.1, facts.2.2.2.1, facts.2.2.2.2⟩

theorem isAscii_of_isAlpha {character : Char} (alpha : character.isAlpha = true) :
    isAscii character = true := by
  have letter : (decide ('A'.val ≤ character.val ∧ character.val ≤ 'Z'.val) ||
      (decide ('a'.val ≤ character.val) && decide (character.val ≤ 'z'.val))) = true := alpha
  simp only [Bool.or_eq_true, Bool.and_eq_true, decide_eq_true_eq,
    UInt32.le_iff_toNat_le] at letter
  simp only [isAscii, decide_eq_true_eq]
  have code : character.toNat = character.val.toNat := rfl
  have lastUpper : 'Z'.val.toNat = 90 := rfl
  have lastLower : 'z'.val.toNat = 122 := rfl
  omega

theorem not_isAlpha_of_isWhitespace {character : Char} (space : isWhitespace character = true) :
    character.isAlpha = false := by
  by_contra alpha
  have ascii := isAscii_of_isAlpha (Bool.not_eq_false _ |>.mp alpha)
  have different : isWhitespace character = true → character.isAlpha = false :=
    forall_ascii (motive := fun character =>
      isWhitespace character = true → character.isAlpha = false) (by decide +kernel) ascii
  exact alpha (different space)

theorem toUppercase_of_ascii {text : List Char}
    (ascii : ∀ character ∈ text, isAscii character = true) :
    vendor.toUppercase text = text.map Char.toUpper := by
  induction text with
  | nil => rfl
  | cons first rest ih =>
      have firstAscii := ascii first (by simp)
      have restUpper := ih fun character member => ascii character (by simp [member])
      simp only [ConfigVendor.toUppercase] at restUpper ⊢
      simp [ConfigVendor.upperChar, firstAscii, restUpper]

/-- Apart from the space between its fields, the expression is ASCII. -/
def AsciiFields (expression : String) : Prop :=
  ∀ field ∈ splitWhitespace expression.toList, ∀ character ∈ field, isAscii character = true

variable {expression : String}

theorem splitWhitespace_canonicalCron (ascii : AsciiFields expression) :
    splitWhitespace (vendor.canonicalCron expression).toList =
      (splitWhitespace expression.toList).map (List.map Char.toUpper) := by
  have upper : (splitWhitespace expression.toList).map vendor.toUppercase =
      (splitWhitespace expression.toList).map (List.map Char.toUpper) :=
    List.map_congr_left fun field member => toUppercase_of_ascii (ascii field member)
  unfold ConfigVendor.canonicalCron
  rw [String.toList_ofList, upper]
  apply wordsBy_intercalate (by decide)
  intro word member
  rcases List.mem_map.mp member with ⟨field, fieldMember, rfl⟩
  have isWord := (isWord_of_mem_wordsBy fieldMember).1
  refine ⟨by simpa using isWord.1, ?_⟩
  simp only [List.mem_map, forall_exists_index, and_imp, forall_apply_eq_imp_iff₂]
  intro character inside
  rw [(upperFacts (ascii field fieldMember character inside)).whitespace]
  exact isWord.2 character inside

theorem asciiFields_canonicalCron (ascii : AsciiFields expression) :
    AsciiFields (vendor.canonicalCron expression) := by
  unfold AsciiFields
  rw [splitWhitespace_canonicalCron ascii]
  intro field member
  rcases List.mem_map.mp member with ⟨original, originalMember, rfl⟩
  simp only [List.mem_map, forall_exists_index, and_imp, forall_apply_eq_imp_iff₂]
  intro character inside
  exact (upperFacts (ascii original originalMember character inside)).ascii

theorem canonicalCron_idempotent (ascii : AsciiFields expression) :
    vendor.canonicalCron (vendor.canonicalCron expression) = vendor.canonicalCron expression := by
  have again : (splitWhitespace (vendor.canonicalCron expression).toList).map vendor.toUppercase =
      (splitWhitespace expression.toList).map vendor.toUppercase := by
    rw [splitWhitespace_canonicalCron ascii, List.map_map]
    apply List.map_congr_left
    intro field member
    have upperAscii : ∀ character ∈ field.map Char.toUpper, isAscii character = true := by
      simp only [List.mem_map, forall_exists_index, and_imp, forall_apply_eq_imp_iff₂]
      exact fun character inside => (upperFacts (ascii field member character inside)).ascii
    rw [Function.comp_apply, toUppercase_of_ascii upperAscii,
      toUppercase_of_ascii (ascii field member), List.map_map]
    apply List.map_congr_left
    exact fun character inside => (upperFacts (ascii field member character inside)).idempotent
  rw [ConfigVendor.canonicalCron, again, ConfigVendor.canonicalCron]

theorem cronWords_canonicalCron (ascii : AsciiFields expression) :
    cronWords (vendor.canonicalCron expression).toList =
      (cronWords expression.toList).map (List.map Char.toUpper) := by
  have separated : ∀ text : List Char, cronWords text = (splitWhitespace text).flatMap cronWords :=
    wordsBy_refine fun character space => by simp [not_isAlpha_of_isWhitespace space]
  rw [separated, splitWhitespace_canonicalCron ascii, separated expression.toList,
    List.map_flatMap, List.flatMap_map]
  apply List.flatMap_congr
  intro field member
  apply wordsBy_map
  intro character inside
  rw [(upperFacts (ascii field member character inside)).alpha]

theorem mem_canonicalCron (ascii : AsciiFields expression) {character : Char}
    (member : character ∈ (vendor.canonicalCron expression).toList) :
    character = ' ' ∨ ∃ original ∈ expression.toList,
      isAscii original = true ∧ character = original.toUpper := by
  unfold ConfigVendor.canonicalCron at member
  rw [String.toList_ofList] at member
  rcases mem_of_mem_intercalate member with space | ⟨word, wordMember, inside⟩
  · exact .inl space
  · right
    rcases List.mem_map.mp wordMember with ⟨field, fieldMember, rfl⟩
    rw [toUppercase_of_ascii (ascii field fieldMember)] at inside
    rcases List.mem_map.mp inside with ⟨original, originalMember, rfl⟩
    exact ⟨original, (isWord_of_mem_wordsBy fieldMember).2 original originalMember,
      ascii field fieldMember original originalMember, rfl⟩

theorem validateCronWord_upper {word : List Char}
    (ascii : ∀ character ∈ word, isAscii character = true) :
    vendor.validateCronWord (word.map Char.toUpper) = vendor.validateCronWord word := by
  have upperAscii : ∀ character ∈ word.map Char.toUpper, isAscii character = true := by
    simp only [List.mem_map, forall_exists_index, and_imp, forall_apply_eq_imp_iff₂]
    exact fun character inside => (upperFacts (ascii character inside)).ascii
  have same : vendor.toUppercase (word.map Char.toUpper) = vendor.toUppercase word := by
    rw [toUppercase_of_ascii upperAscii, toUppercase_of_ascii ascii, List.map_map]
    apply List.map_congr_left
    exact fun character inside => (upperFacts (ascii character inside)).idempotent
  simp only [ConfigVendor.validateCronWord, same]

/-- The parsers read back what is written. -/
structure ConfigVendor.RoundTrips (vendor : ConfigVendor) : Prop where
  toml : ∀ document text, vendor.serializeDocument document = .ok text →
    vendor.parseDocument text = .ok document
  /-- `humantime` reads a number of seconds. -/
  duration : ∀ seconds, minIntervalSeconds ≤ seconds → seconds ≤ maxIntervalSeconds →
    vendor.parseDuration (toString seconds ++ "s") = .ok (seconds, 0)
  /-- `croner` rejects a field with a character outside ASCII. -/
  cronAscii : ∀ expression, vendor.parseCron expression = .ok () → AsciiFields expression
  /-- `croner` reads the upper case of the fields, whatever white space is between them. -/
  cron : ∀ expression, vendor.parseCron expression = .ok () →
    vendor.parseCron (vendor.canonicalCron expression) = .ok ()

theorem validateCron_canonicalCron (roundTrips : vendor.RoundTrips)
    (valid : vendor.validateCron expression = .ok ()) :
    vendor.validateCron (vendor.canonicalCron expression) = .ok () := by
  rcases validateCron_eq_ok.mp valid with ⟨fields, plain, words, parses⟩
  have ascii := roundTrips.cronAscii expression parses
  apply validateCron_eq_ok.mpr
  refine ⟨?_, ?_, ?_, roundTrips.cron expression parses⟩
  · rw [splitWhitespace_canonicalCron ascii, List.length_map, fields]
  · intro character member
    rcases mem_canonicalCron ascii member with rfl | ⟨original, inside, originalAscii, rfl⟩
    · decide
    · exact fun isExtended => plain original inside ((upperFacts originalAscii).extended isExtended)
  · rw [cronWords_canonicalCron ascii]
    intro word member
    rcases List.mem_map.mp member with ⟨original, originalMember, rfl⟩
    have isWord := (isWord_of_mem_wordsBy originalMember).1
    have wordAscii : ∀ character ∈ original, isAscii character = true := fun character inside =>
      isAscii_of_isAlpha (by simpa using isWord.2 character inside)
    rw [validateCronWord_upper wordAscii]
    exact words original originalMember

end Cron

section Idempotence

theorem parseInterval_eq_ok {calendar : Calendar} {value : String} {seconds : ℕ} :
    parseInterval calendar value = .ok seconds ↔
      calendar.parseDuration value = .ok (seconds, 0) ∧ minIntervalSeconds ≤ seconds ∧
        seconds ≤ maxIntervalSeconds := by
  unfold parseInterval
  rcases calendar.parseDuration value with reason | ⟨whole, nanos⟩
  · simp [bind, Except.bind]
  · rcases nanos with _ | nanos
    · by_cases bounded : minIntervalSeconds ≤ whole ∧ whole ≤ maxIntervalSeconds
      · simp only [bind, Except.bind, bounded, ne_eq, not_true_eq_false, and_self, if_false,
          pure, Except.pure, Except.ok.injEq, Prod.mk.injEq, and_true]
        constructor
        · rintro rfl
          exact ⟨rfl, bounded⟩
        · exact fun same => same.1
      · simp only [bind, Except.bind, bounded, ne_eq, not_true_eq_false, not_false_eq_true, if_false,
          if_true, Except.ok.injEq, Prod.mk.injEq, and_true, throw, throwThe, MonadExceptOf.throw]
        simp only [reduceCtorEq, false_iff, not_and]
        rintro rfl
        exact not_and.mp bounded
    · simp [bind, Except.bind, throw, throwThe, MonadExceptOf.throw]

variable {schedule canonical : ScheduleConfig}

/-- A schedule in its canonical form stays as it is. -/
theorem canonicalized_idempotent (roundTrips : vendor.RoundTrips)
    (written : schedule.canonicalized vendor = .ok canonical) :
    canonical.validate vendor = .ok () ∧ canonical.canonicalized vendor = .ok canonical := by
  cases schedule with
  | interval value =>
      simp only [ScheduleConfig.canonicalized, bind_eq_ok, pure_eq_ok, Except.ok.injEq] at written
      rcases written with ⟨seconds, reads, rfl⟩
      have bounds := (parseInterval_eq_ok.mp reads).2
      have again : parseInterval vendor.toCalendar (toString seconds ++ "s") = .ok seconds :=
        parseInterval_eq_ok.mpr ⟨roundTrips.duration seconds bounds.1 bounds.2, bounds⟩
      constructor
      · rw [ScheduleConfig.validate, again, Except.map]
      · rw [ScheduleConfig.canonicalized, again]
        rfl
  | cron expression timezone =>
      simp only [ScheduleConfig.canonicalized, check_bind_eq_ok, pure_eq_ok,
        Except.ok.injEq] at written
      rcases written with ⟨valid, known, rfl⟩
      have again := validateCron_canonicalCron roundTrips valid
      have ascii := roundTrips.cronAscii expression (validateCron_eq_ok.mp valid).2.2.2
      simp [ScheduleConfig.validate, ScheduleConfig.canonicalized, check_bind_eq_ok, again, known,
        canonicalCron_idempotent ascii]

theorem canonicalizeSchedule_idempotent (roundTrips : vendor.RoundTrips)
    {schedule canonical : Option ScheduleConfig}
    (written : canonicalizeSchedule vendor schedule = .ok canonical) :
    validateSchedule vendor canonical = .ok () ∧
      canonicalizeSchedule vendor canonical = .ok canonical := by
  cases schedule with
  | none =>
      cases written
      exact ⟨rfl, rfl⟩
  | some schedule =>
      cases form : schedule.canonicalized vendor with
      | error reason => simp [canonicalizeSchedule, form, Except.mapError, Except.map] at written
      | ok again =>
          simp only [canonicalizeSchedule, form, Except.mapError, Except.map,
            Except.ok.injEq] at written
          subst written
          have stays := canonicalized_idempotent roundTrips form
          simp [validateSchedule, canonicalizeSchedule, stays.1, stays.2, Except.mapError,
            Except.map]

/-- The file of a mirror in a bundle. -/
def mirrorPath (owner : NodeName) (name : MirrorName) : String :=
  "nodes/" ++ owner.value ++ "/mirrors/" ++ name.value ++ ".toml"

variable {owner : NodeName} {name : MirrorName}

theorem NodeName.plain (node : NodeName) : Path.Plain node.value.toList :=
  MirrorName.plain ⟨node.value, node.valid⟩

theorem mirrorFile_plain (name : MirrorName) :
    Path.Plain (name.value.toList ++ '.' :: "toml".toList) := by
  have letter : 't' ∈ name.value.toList ++ '.' :: "toml".toList := by simp
  refine ⟨by simp, ?_, ?_, ?_⟩
  · simpa using name.plain.noSlash
  · intro dots
    rw [dots] at letter
    exact absurd letter (by decide)
  · intro dots
    rw [dots] at letter
    exact absurd letter (by decide)

theorem components_mirrorPath :
    Path.components (mirrorPath owner name).toList =
      [.normal "nodes".toList, .normal owner.value.toList, .normal "mirrors".toList,
        .normal (name.value.toList ++ '.' :: "toml".toList)] := by
  have text : (mirrorPath owner name).toList = "nodes".toList ++ '/' :: (owner.value.toList ++
      '/' :: ("mirrors".toList ++ '/' :: (name.value.toList ++ '.' :: "toml".toList))) := by
    simp [mirrorPath]
  have nodes : Path.Plain "nodes".toList := ⟨by decide, by decide, by decide, by decide⟩
  have mirrors : Path.Plain "mirrors".toList := ⟨by decide, by decide, by decide, by decide⟩
  have file := mirrorFile_plain name
  -- below a plain first part the rest is relative, from the last part up
  have leadingLast : Path.leading ("mirrors".toList ++ '/' ::
      (name.value.toList ++ '.' :: "toml".toList)) = [] := by
    rw [Path.leading_append mirrors.nonempty, mirrors.leading]
  have leadingMiddle : Path.leading (owner.value.toList ++ '/' :: ("mirrors".toList ++ '/' ::
      (name.value.toList ++ '.' :: "toml".toList))) = [] := by
    rw [Path.leading_append owner.plain.nonempty, owner.plain.leading]
  rw [text, Path.components_append_slash _ _ nodes.nonempty leadingMiddle,
    Path.components_append_slash _ _ owner.plain.nonempty leadingLast,
    Path.components_append_slash _ _ mirrors.nonempty file.leading, nodes.components,
    owner.plain.components, mirrors.components, file.components]
  rfl

theorem fileName_mirrorPath :
    Path.fileName (mirrorPath owner name).toList =
      some (name.value.toList ++ '.' :: "toml".toList) :=
  Path.fileName_of_components (components_mirrorPath.trans (List.append_cons [_, _] _ _))

theorem splitFile_mirrorPath :
    Path.rsplitFileAtDot (name.value.toList ++ '.' :: "toml".toList) =
      (some name.value.toList, some "toml".toList) :=
  Path.rsplitFileAtDot_append name.plain.nonempty (by decide) (by decide)

theorem bundleOwner_mirrorPath : bundleOwner (mirrorPath owner name) = .ok owner := by
  have extension : Path.extension (mirrorPath owner name).toList = some "toml".toList := by
    rw [Path.extension, fileName_mirrorPath, Option.bind_some, splitFile_mirrorPath]
    rfl
  unfold bundleOwner
  rw [components_mirrorPath]
  simp [Component.text, extension, owner.valid]

theorem validateStem_mirrorPath : validateStem (mirrorPath owner name) name = .ok () := by
  have stem : Path.fileStem (mirrorPath owner name).toList = some name.value.toList := by
    rw [Path.fileStem, fileName_mirrorPath, Option.bind_some, splitFile_mirrorPath]
    rfl
  simp [validateStem, stem]

theorem canonicalizeFile_eq_ok {file : BundleFile} {name : MirrorName}
    {mirror : CanonicalMirror} :
    canonicalizeFile vendor file = .ok (name, mirror) ↔
      ∃ document schedule,
        bundleOwner file.path = .ok mirror.ownerNode ∧
        vendor.parseDocument file.contents = .ok document ∧
        validateStem file.path document.mirror.name = .ok () ∧
        validateDocument vendor document = .ok () ∧
        canonicalizeSchedule vendor document.schedule = .ok schedule ∧
        vendor.serializeDocument { document with schedule } = .ok mirror.canonicalToml ∧
        mirror.document = { document with schedule } ∧
        mirror.configHash = vendor.textHash mirror.canonicalToml ∧
        document.mirror.name = name := by
  simp only [canonicalizeFile, bind_eq_ok, mapError_eq_ok, pure_eq_ok, Except.ok.injEq,
    Prod.mk.injEq]
  constructor
  · rintro ⟨owner, owned, document, parses, ⟨⟩, stem, ⟨⟩, valid, schedule, canonical, toml, writes,
      named, rfl⟩
    exact ⟨document, schedule, owned, parses, stem, valid, canonical, writes, rfl, rfl, named⟩
  · rintro ⟨document, schedule, owned, parses, stem, valid, canonical, writes, same, hash, named⟩
    refine ⟨mirror.ownerNode, owned, document, parses, (), stem, (), valid, schedule, canonical,
      mirror.canonicalToml, writes, named, ?_⟩
    rw [← same, ← hash]

/-- The canonical text of a mirror at its own path is read as the mirror. -/
theorem canonicalizeFile_again (roundTrips : vendor.RoundTrips) {file : BundleFile}
    {name : MirrorName} {mirror : CanonicalMirror}
    (reads : canonicalizeFile vendor file = .ok (name, mirror)) :
    canonicalizeFile vendor ⟨mirrorPath mirror.ownerNode name, mirror.canonicalToml⟩ =
      .ok (name, mirror) := by
  rcases canonicalizeFile_eq_ok.mp reads with
    ⟨document, schedule, -, -, -, valid, canonical, writes, same, hash, rfl⟩
  have stays := canonicalizeSchedule_idempotent roundTrips canonical
  have valid := validateDocument_eq_ok.mp valid
  have again : validateDocument vendor { document with schedule } = .ok () :=
    validateDocument_eq_ok.mpr ⟨valid.1, valid.2.1, valid.2.2.1, stays.1⟩
  apply canonicalizeFile_eq_ok.mpr
  exact ⟨{ document with schedule }, schedule, bundleOwner_mirrorPath,
    roundTrips.toml _ _ writes, validateStem_mirrorPath, again, stays.2, writes, same, hash, rfl⟩

end Idempotence

end LzuMirror
