import LzuMirror.Core.Canonical

/-!
# Laws of canonical bundles

What `canonicalize_bundle` accepts, without the loop: every file reads as an
entry, the entries in name order are the map, and no two targets of one node
overlap. From this the result does not depend on the order of the files, and
the files that `canonicalFiles` writes for a result are read as that result.
-/

namespace LzuMirror

variable {vendor : ConfigVendor} {file : BundleFile} {files others : List BundleFile}
  {entries map : MirrorMap} {contents : BundleContents}

section Loop

/-- The file is the mirror of the entry. -/
def ReadsAs (vendor : ConfigVendor) (file : BundleFile) (entry : MirrorName × CanonicalMirror) :
    Prop :=
  canonicalizeFile vendor file = .ok entry

theorem readsAs_rightUnique : Relator.RightUnique (ReadsAs vendor) := by
  intro file first second readsFirst readsSecond
  unfold ReadsAs at readsFirst readsSecond
  rw [readsFirst] at readsSecond
  exact Except.ok.inj readsSecond

theorem keyOrdered_insertFile {found : List ConfigError × MirrorMap}
    (ordered : KeyOrdered found.2) : KeyOrdered (insertFile vendor found file).2 := by
  unfold insertFile
  split
  · exact ordered
  · exact ordered.insertKey

theorem keyOrdered_foldl {found : List ConfigError × MirrorMap} (ordered : KeyOrdered found.2) :
    KeyOrdered (files.foldl (insertFile vendor) found).2 := by
  induction files generalizing found with
  | nil => exact ordered
  | cons file rest ih => exact ih (keyOrdered_insertFile ordered)

/-- A file that leaves no error adds a fresh entry, which it is read as. -/
theorem insertFile_sound {found : List ConfigError × MirrorMap}
    (clean : (insertFile vendor found file).1 = []) :
    found.1 = [] ∧ ∃ entry, ReadsAs vendor file entry ∧
      (insertFile vendor found file).2.Perm (entry :: found.2) := by
  cases reads : canonicalizeFile vendor file with
  | error reason => simp [insertFile, reads] at clean
  | ok entry =>
      rcases entry with ⟨name, mirror⟩
      by_cases duplicate : name ∈ found.2.map Prod.fst
      · simp only [insertFile, reads, duplicate, if_true] at clean
        simp at clean
      · simp only [insertFile, reads, duplicate, if_false, List.append_nil] at clean ⊢
        exact ⟨clean, (name, mirror), reads, insertKey_perm duplicate⟩

theorem insertFile_complete {found : List ConfigError × MirrorMap}
    {entry : MirrorName × CanonicalMirror} (reads : ReadsAs vendor file entry)
    (fresh : entry.1 ∉ found.2.map Prod.fst) :
    insertFile vendor found file = (found.1, insertKey entry.1 entry.2 found.2) := by
  have result : canonicalizeFile vendor file = .ok (entry.1, entry.2) := reads
  simp only [insertFile, result, fresh, if_false, List.append_nil]

/-- A loop without errors has read every file, each as a fresh entry. -/
theorem foldl_sound {found : List ConfigError × MirrorMap}
    (clean : (files.foldl (insertFile vendor) found).1 = []) :
    found.1 = [] ∧ ∃ entries, List.Forall₂ (ReadsAs vendor) files entries ∧
      (files.foldl (insertFile vendor) found).2.Perm (entries ++ found.2) := by
  induction files generalizing found with
  | nil => exact ⟨clean, [], .nil, .refl _⟩
  | cons file rest ih =>
      rcases ih clean with ⟨restClean, entries, reads, permuted⟩
      rcases insertFile_sound restClean with ⟨before, entry, readsFirst, added⟩
      refine ⟨before, entry :: entries, .cons readsFirst reads, permuted.trans ?_⟩
      exact (added.append_left entries).trans List.perm_middle

/-- Files that read as entries with different names leave no error. -/
theorem foldl_complete (reads : List.Forall₂ (ReadsAs vendor) files entries)
    (distinct : ((entries ++ map).map Prod.fst).Nodup) :
    (files.foldl (insertFile vendor) ([], map)).1 = [] := by
  induction reads generalizing map with
  | nil => rfl
  | @cons file entry rest entries readsFirst reads ih =>
      rw [List.cons_append, List.map_cons, List.nodup_cons] at distinct
      have fresh : entry.1 ∉ map.map Prod.fst := fun member =>
        distinct.1 (by simp only [List.map_append, List.mem_append, member, or_true])
      rw [List.foldl_cons, insertFile_complete readsFirst fresh]
      apply ih
      have permuted : (entries ++ insertKey entry.1 entry.2 map).Perm (entry :: (entries ++ map)) :=
        ((insertKey_perm fresh).append_left entries).trans List.perm_middle
      rw [(permuted.map Prod.fst).nodup_iff, List.map_cons, List.nodup_cons]
      exact distinct

end Loop

/-- What a bundle is accepted as, without an order of its files. -/
structure Describes (vendor : ConfigVendor) (files : List BundleFile) (contents : BundleContents) :
    Prop where
  reads : ∃ entries, List.Forall₂ (ReadsAs vendor) files entries ∧ contents.mirrors.Perm entries
  ordered : KeyOrdered contents.mirrors
  disjoint : targetOverlapErrors contents.mirrors = []
  hashed : contents.bundleHash = vendor.textHash (bundleText contents.mirrors)

theorem canonicalizeBundle_eq_ok :
    canonicalizeBundle vendor files = .ok contents ↔ Describes vendor files contents := by
  have ordered : KeyOrdered (files.foldl (insertFile vendor) ([], [])).2 :=
    keyOrdered_foldl List.Pairwise.nil
  unfold canonicalizeBundle
  constructor
  · intro accepted
    simp only [ne_eq, List.append_eq_nil_iff, ite_not] at accepted
    split at accepted
    next clean =>
      rcases foldl_sound clean.1 with ⟨_, entries, reads, permuted⟩
      cases accepted
      exact ⟨⟨entries, reads, by simpa using permuted⟩, ordered, clean.2, rfl⟩
    next => cases accepted
  · rintro ⟨⟨entries, reads, permuted⟩, contentsOrdered, disjoint, hashed⟩
    have distinct : ((entries ++ []).map Prod.fst).Nodup := by
      rw [List.append_nil, ← (permuted.map Prod.fst).nodup_iff]
      exact contentsOrdered.nodup_keys
    have clean := foldl_complete reads distinct
    rcases foldl_sound clean with ⟨_, found, readsFound, permutedFound⟩
    have sameEntries : found = entries :=
      List.right_unique_forall₂' readsAs_rightUnique readsFound reads
    have same : (files.foldl (insertFile vendor) ([], [])).2 = contents.mirrors := by
      apply ordered.eq_of_perm contentsOrdered
      rw [sameEntries, List.append_nil] at permutedFound
      exact permutedFound.trans permuted.symm
    simp [clean, same, disjoint, ← hashed]

/-- The order of the files is not seen. -/
theorem Describes.perm (describes : Describes vendor files contents)
    (permuted : files.Perm others) : Describes vendor others contents := by
  rcases describes with ⟨⟨entries, reads, sorted⟩, ordered, disjoint, hashed⟩
  rcases List.perm_comp_forall₂ permuted.symm reads with ⟨moved, readsMoved, movedPerm⟩
  exact ⟨⟨moved, readsMoved, sorted.trans movedPerm.symm⟩, ordered, disjoint, hashed⟩

/-- The files of a canonical map, each with the canonical text of its mirror. -/
def canonicalFiles (mirrors : MirrorMap) : List BundleFile :=
  mirrors.map fun (name, mirror) => ⟨mirrorPath mirror.ownerNode name, mirror.canonicalToml⟩

theorem Describes.read_of_mem (describes : Describes vendor files contents)
    {entry : MirrorName × CanonicalMirror} (member : entry ∈ contents.mirrors) :
    ∃ file ∈ files, ReadsAs vendor file entry := by
  rcases describes.reads with ⟨entries, reads, sorted⟩
  have inEntries : entry ∈ entries := sorted.mem_iff.mp member
  rcases List.forall₂_iff_get.mp reads with ⟨sizes, each⟩
  rcases List.get_of_mem inEntries with ⟨index, rfl⟩
  refine ⟨files.get ⟨index, by omega⟩, List.get_mem _ _, ?_⟩
  exact each index _ _

/-- The canonical files of an accepted bundle describe it. -/
theorem Describes.again (describes : Describes vendor files contents)
    (roundTrips : vendor.RoundTrips) :
    Describes vendor (canonicalFiles contents.mirrors) contents := by
  refine ⟨⟨contents.mirrors, ?_, .refl _⟩, describes.ordered, describes.disjoint,
    describes.hashed⟩
  unfold canonicalFiles
  rw [List.forall₂_map_left_iff, List.forall₂_same]
  intro entry member
  rcases describes.read_of_mem member with ⟨file, _, reads⟩
  exact canonicalizeFile_again roundTrips reads

section Encoding

/-- Of a mirror its name, the node that owns it and its canonical text. -/
def provenance (entry : MirrorName × CanonicalMirror) : MirrorName × NodeName × String :=
  (entry.1, entry.2.ownerNode, entry.2.canonicalToml)

theorem noNul_of_validName {value : String} (valid : validName value = true) :
    '\x00' ∉ value.toList := by
  unfold validName at valid
  split at valid
  · cases valid
  next first rest spelled =>
    simp only [Bool.and_eq_true] at valid
    rw [spelled]
    intro nul
    have allowed := List.all_eq_true.mp valid.2 '\x00' nul
    exact absurd allowed (by decide)

theorem noNul_entryFields (tomlFree : ∀ entry ∈ map, '\x00' ∉ entry.2.canonicalToml.toList) :
    ∀ field ∈ map.flatMap entryFields, '\x00' ∉ field := by
  intro field member
  rcases List.mem_flatMap.mp member with ⟨entry, entryMember, fieldMember⟩
  simp only [entryFields, List.mem_cons, List.not_mem_nil, or_false] at fieldMember
  rcases fieldMember with rfl | rfl | rfl
  · exact noNul_of_validName entry.1.valid
  · exact noNul_of_validName entry.2.ownerNode.valid
  · exact tomlFree entry entryMember

theorem provenance_of_entryFields {first second : MirrorMap}
    (same : first.flatMap entryFields = second.flatMap entryFields) :
    first.map provenance = second.map provenance := by
  induction first generalizing second with
  | nil =>
      cases second with
      | nil => rfl
      | cons entry rest => simp [entryFields] at same
  | cons entry rest ih =>
      cases second with
      | nil => simp [entryFields] at same
      | cons other others =>
          simp only [List.flatMap_cons, entryFields, List.cons_append, List.nil_append,
            List.cons.injEq, String.toList_inj] at same
          rcases same with ⟨name, owner, toml, later⟩
          have sameEntry : provenance entry = provenance other := by
            rcases entry with ⟨⟨_, _⟩, ⟨⟨_, _⟩, _, _, _⟩⟩
            rcases other with ⟨⟨_, _⟩, ⟨⟨_, _⟩, _, _, _⟩⟩
            simp_all [provenance]
          rw [List.map_cons, List.map_cons, sameEntry, ih later]

/-- The bytes that are hashed can be read back. -/
theorem provenance_of_bundleBytes {first second : MirrorMap}
    (tomlFree : ∀ entry ∈ first ++ second, '\x00' ∉ entry.2.canonicalToml.toList)
    (same : bundleBytes first = bundleBytes second) :
    first.map provenance = second.map provenance := by
  have texts : bundleText first = bundleText second := String.toByteArray_inj.mp same
  apply provenance_of_entryFields
  apply terminated_injective
  · exact noNul_entryFields fun entry member => tomlFree entry (by simp [member])
  · exact noNul_entryFields fun entry member => tomlFree entry (by simp [member])
  · exact String.ofList_injective texts

end Encoding

section Stored

theorem bounds_of_validateRunPolicy {run : RunPolicy} (valid : validateRunPolicy run = .ok ()) :
    1 ≤ run.maxAttempts ∧ run.maxAttempts ≤ 10 ∧ run.retryDelaySeconds ≤ 86400 := by
  unfold validateRunPolicy at valid
  split at valid
  · cases valid
  · split at valid
    · cases valid
    · split at valid
      · cases valid
      · omega

/-- What an accepted bundle promises of each of its mirrors. -/
structure Checked (vendor : ConfigVendor) (entry : MirrorName × CanonicalMirror) : Prop where
  named : entry.2.document.mirror.name = entry.1
  safe : safeTarget entry.2.document.mirror.target = true
  bounds : 1 ≤ entry.2.document.run.maxAttempts ∧ entry.2.document.run.maxAttempts ≤ 10 ∧
    entry.2.document.run.retryDelaySeconds ≤ 86400
  written : vendor.serializeDocument entry.2.document = .ok entry.2.canonicalToml
  hashed : entry.2.configHash = vendor.textHash entry.2.canonicalToml

theorem ReadsAs.checked {entry : MirrorName × CanonicalMirror}
    (reads : ReadsAs vendor file entry) : Checked vendor entry := by
  rcases entry with ⟨name, mirror⟩
  rcases canonicalizeFile_eq_ok.mp reads with
    ⟨document, schedule, _, _, _, valid, _, writes, same, hash, named⟩
  have valid := validateDocument_eq_ok.mp valid
  refine ⟨?_, ?_, ?_, ?_, hash⟩ <;> simp only [same]
  · exact named
  · exact valid.1
  · exact bounds_of_validateRunPolicy valid.2.2.1
  · exact writes

/-- An accepted bundle is one that the store can be given. -/
theorem Describes.canonicalBundle (describes : Describes vendor files contents)
    (roundTrips : vendor.RoundTrips) :
    ∃ bundle : CanonicalBundle vendor.toVendor,
      bundle.mirrors = contents.mirrors ∧ bundle.bundleHash = contents.bundleHash := by
  have checked : ∀ entry ∈ contents.mirrors, Checked vendor entry := by
    intro entry member
    rcases describes.read_of_mem member with ⟨file, _, reads⟩
    exact reads.checked
  refine ⟨{
    mirrors := contents.mirrors
    bundleHash := contents.bundleHash
    ordered := describes.ordered
    named := fun entry member => (checked entry member).named
    targetsSafe := fun entry member => (checked entry member).safe
    policiesBounded := fun entry member => (checked entry member).bounds
    targetsDisjoint := describes.disjoint
    parses := fun entry member => roundTrips.toml _ _ (checked entry member).written
    hashed := fun entry member => (checked entry member).hashed }, rfl, rfl⟩

end Stored

/-- Canonicalisation does not see the order of the files, keeps apart what differs in a name, an
owner or a text, and leaves its own result as it is. -/
theorem canonicalization_laws (vendor : ConfigVendor) :
    (∀ files others, files.Perm others →
      (canonicalizeBundle vendor files).toOption = (canonicalizeBundle vendor others).toOption) ∧
    (∀ first second : MirrorMap,
      (∀ entry ∈ first ++ second, '\x00' ∉ entry.2.canonicalToml.toList) →
      bundleBytes first = bundleBytes second →
      first.map provenance = second.map provenance) ∧
    (vendor.RoundTrips → ∀ files contents, canonicalizeBundle vendor files = .ok contents →
      canonicalizeBundle vendor (canonicalFiles contents.mirrors) = .ok contents) := by
  refine ⟨?_, ?_, ?_⟩
  · intro files others permuted
    cases result : canonicalizeBundle vendor files with
    | ok contents =>
        have describes := (canonicalizeBundle_eq_ok.mp result).perm permuted
        rw [canonicalizeBundle_eq_ok.mpr describes]
    | error reasons =>
        cases other : canonicalizeBundle vendor others with
        | error otherReasons => rfl
        | ok contents =>
            have describes := (canonicalizeBundle_eq_ok.mp other).perm permuted.symm
            rw [canonicalizeBundle_eq_ok.mpr describes] at result
            cases result
  · exact fun first second => provenance_of_bundleBytes
  · intro roundTrips files contents accepted
    have describes := canonicalizeBundle_eq_ok.mp accepted
    exact canonicalizeBundle_eq_ok.mpr (describes.again roundTrips)

namespace Sample

/-- A mirror of an upstream, on a schedule. -/
def scheduledDocument (name : MirrorName) (schedule : ScheduleConfig) : MirrorDocument where
  mirror := ⟨name, true, "", name.value⟩
  schedule := some schedule
  sync := .rsync "rsync://upstream/pool/" ["-a"]
  publication := none
  run := ⟨3600, 3, 60⟩

def fedora : MirrorName := ⟨"fedora", by decide⟩

def arch : MirrorName := ⟨"arch.iso", by decide⟩

/-- The documents with the texts that the sample library knows for them. -/
def knownDocuments : List (String × MirrorDocument) :=
  [("interval='6h'", scheduledDocument fedora (.interval "6h")),
    ("interval = \"21600s\"", scheduledDocument fedora (.interval "21600s")),
    ("cron='0 4 * * mon'", scheduledDocument arch (.cron "0  4 * * mon" "Asia/Shanghai")),
    ("cron = \"0 4 * * MON\"", scheduledDocument arch (.cron "0 4 * * MON" "Asia/Shanghai"))]

/-- Whole seconds or hours. -/
def readDuration (text : String) : Except String (ℕ × ℕ) :=
  match text.toList.reverse with
  | 's' :: digits => .ok (Nat.ofDigitChars 10 digits.reverse 0, 0)
  | 'h' :: digits => .ok (Nat.ofDigitChars 10 digits.reverse 0 * 3600, 0)
  | _ => .error "unknown duration"

def bundleVendor : ConfigVendor where
  parseDuration := readDuration
  nextOccurrence := fun _ _ _ => .error "unknown expression"
  parseDocument := fun text =>
    match knownDocuments.find? fun known => known.1 = text with
    | some known => .ok known.2
    | none => .error "unknown text"
  scheduleHash := fun _ => "sha256:schedule"
  specHash := fun _ => "sha256:spec"
  textHash := fun text => "sha256:" ++ text
  serializeDocument := fun document =>
    match knownDocuments.find? fun known => known.2 = document with
    | some known => .ok known.1
    | none => .error "unknown document"
  parseCron := fun expression =>
    if (splitWhitespace expression.toList).all fun field => field.all isAscii then .ok ()
    else .error "illegal characters"
  knownTimezone := fun timezone => timezone = "Asia/Shanghai"
  upperOther := fun character => [character]

theorem known_texts :
    ∀ known ∈ knownDocuments,
      knownDocuments.find? (fun other => other.1 = known.1) = some known := by
  decide +kernel

theorem parseCron_eq_ok {expression : String} :
    bundleVendor.parseCron expression = .ok () ↔ AsciiFields expression := by
  simp [bundleVendor, AsciiFields]

theorem roundTrips_bundleVendor : bundleVendor.RoundTrips where
  toml := by
    intro document text written
    simp only [bundleVendor] at written ⊢
    split at written
    next known found =>
      cases written
      have isKnown := List.find?_some found
      simp only [decide_eq_true_eq] at isKnown
      rw [known_texts known (List.mem_of_find?_eq_some found), ← isKnown]
    next => cases written
  duration := by
    intro seconds _ _
    have digits : (toString seconds).toList = Nat.toDigits 10 seconds := Nat.toList_repr
    have reversed : (toString seconds ++ "s").toList.reverse =
        's' :: (toString seconds).toList.reverse := by
      simp
    simp only [bundleVendor, readDuration, reversed, List.reverse_reverse, digits,
      Nat.ofDigitChars_ten_toDigits]
  cronAscii := fun _ => parseCron_eq_ok.mp
  cron := fun _ accepted =>
    parseCron_eq_ok.mpr (asciiFields_canonicalCron (parseCron_eq_ok.mp accepted))

def fedoraFile : BundleFile := ⟨"nodes/node-b/mirrors/fedora.toml", "interval='6h'"⟩

def archFile : BundleFile := ⟨"nodes/node-a//mirrors/./arch.iso.toml", "cron='0 4 * * mon'"⟩

/-- What the two files are, in name order. -/
def twoMirrors : MirrorMap :=
  [(arch, {
      ownerNode := nodeA
      document := scheduledDocument arch (.cron "0 4 * * MON" "Asia/Shanghai")
      canonicalToml := "cron = \"0 4 * * MON\""
      configHash := "sha256:cron = \"0 4 * * MON\"" }),
    (fedora, {
      ownerNode := nodeB
      document := scheduledDocument fedora (.interval "21600s")
      canonicalToml := "interval = \"21600s\""
      configHash := "sha256:interval = \"21600s\"" })]

def twoContents : BundleContents := ⟨twoMirrors, bundleVendor.textHash (bundleText twoMirrors)⟩

/-- The same mirrors without their own hashes. -/
def unhashed : MirrorMap :=
  twoMirrors.map fun entry => (entry.1, { entry.2 with configHash := "" })

end Sample

deriving instance DecidableEq for CanonicalMirror, BundleContents

open Sample in
/-- A bundle of two files. -/
theorem twoFiles_laws :
    canonicalizeBundle bundleVendor [archFile, fedoraFile] = .ok twoContents ∧
      twoMirrors.map provenance = unhashed.map provenance ∧
      canonicalizeBundle bundleVendor (canonicalFiles twoMirrors) = .ok twoContents := by
  have accepted : canonicalizeBundle bundleVendor [fedoraFile, archFile] = .ok twoContents := by
    decide +kernel
  have laws := canonicalization_laws bundleVendor
  refine ⟨?_, ?_, ?_⟩
  · have same := laws.1 [fedoraFile, archFile] [archFile, fedoraFile] (.swap _ _ _)
    rw [accepted] at same
    cases other : canonicalizeBundle bundleVendor [archFile, fedoraFile] with
    | error reasons => simp [other, Except.toOption] at same
    | ok contents => simpa [other, Except.toOption, eq_comm] using same
  · exact laws.2.1 twoMirrors unhashed (by decide +kernel) (by decide +kernel)
  · exact laws.2.2 roundTrips_bundleVendor _ _ accepted

end LzuMirror
