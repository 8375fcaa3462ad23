import LzuMirror.Agent.Collection

/-!
# What the collection of generations keeps

Whatever is removed lies in an entry that no record protects, beside the exchange
directory and not in it; nothing at all is removed unless every record and every
entry could be read; and the generations that are reported are the ones left.

The published directory is below another root. `collection_safe_iff` says which
roots keep it out of the entries.
-/

namespace LzuMirror

/-- A path that a record of the mirror names. -/
def Recorded (spool : List SpoolFile) (mirror : String) (path : PathBuf) : Prop :=
  ∃ file ∈ spool, file.isRecord = true ∧ ∃ record, file.record = .ok record ∧
    path ∈ record.protectedPaths mirror

/-- The directory of the entries. -/
def AtomicPublicationSpec.entriesDir (publication : AtomicPublicationSpec) (gc : Bool) : PathBuf :=
  if gc then publication.gc else publication.attempts

def entriesName (gc : Bool) : String := if gc then "gc" else "attempts"

/-- The compiled scheme of the private directory of a mirror. -/
structure PrivateLayout (publication : AtomicPublicationSpec) (base : PathBuf) : Prop where
  privateDir : publication.privateDir = base
  entries : ∀ gc, publication.entriesDir gc = base ++ [.normal (entriesName gc).toList]
  exchange : publication.exchange = base ++ [.normal "exchange".toList]

/-- The generations in the private directory. -/
def generationsLeft (publication : AtomicPublicationSpec) (tree : FileTree) : ℕ :=
  ((tree.listing publication.attempts).countP fun node =>
      tree.kindAt (generationRoot node.path) = some .directory) +
    (tree.listing publication.gc).length +
    if tree.existsAt publication.exchange then 1 else 0

section Scanning

variable {canonicalUlid : List Char → Bool} {faults : IoFaults} {tree : FileTree} {gc : Bool}
  {node : PathNode Component FileKind} {spoolDir mirror : String} {spool : List SpoolFile}

/-- When the set of protected paths is known, every record could be read. -/
theorem protectedPaths_eq_ok {paths : List PathBuf}
    (known : protectedPaths spoolDir mirror spool = .ok paths) :
    ∀ file ∈ spool, file.isRecord = true →
      ∃ record, file.record = .ok record ∧ ∀ path ∈ record.protectedPaths mirror, path ∈ paths := by
  induction spool generalizing paths with
  | nil => simp
  | cons first rest ih =>
      intro file member isRecord
      unfold protectedPaths at known
      split at known
      next other =>
        rcases List.mem_cons.mp member with rfl | member
        · rw [isRecord] at other
          cases other
        · exact ih known file member isRecord
      next =>
        split at known
        · cases known
        next record read =>
          cases restKnown : protectedPaths spoolDir mirror rest with
          | error error =>
              rw [restKnown] at known
              cases known
          | ok others =>
              rw [restKnown] at known
              cases known
              rcases List.mem_cons.mp member with rfl | member
              · exact ⟨record, read, fun path recorded => List.mem_append_left _ recorded⟩
              · rcases ih restKnown file member isRecord with ⟨record, read, kept⟩
                exact ⟨record, read, fun path recorded =>
                  List.mem_append_right _ (kept path recorded)⟩

/-- What the scan makes of an entry that it accepts. -/
def acceptedEntry (tree : FileTree) (gc : Bool) (node : PathNode Component FileKind) :
    OwnedGenerationEntry :=
  ⟨node.path, gc || decide (tree.kindAt (generationRoot node.path) = some .directory)⟩

/-- What is known of an entry that is accepted. -/
theorem ownedGenerationEntry_eq_ok {entry : OwnedGenerationEntry}
    (accepted : ownedGenerationEntry canonicalUlid faults tree gc node = .ok entry) :
    recognizedName canonicalUlid gc (entryName node.path) = true ∧
      entry = acceptedEntry tree gc node := by
  unfold ownedGenerationEntry at accepted
  split at accepted
  · cases accepted
  split at accepted
  · cases accepted
  next known =>
    simp only [not_or, Bool.not_eq_false] at known
    refine ⟨known.1, ?_⟩
    split at accepted
    next inGc =>
      cases accepted
      simp [acceptedEntry, inGc]
    next outside =>
      split at accepted
      · cases accepted
      · split at accepted <;> cases accepted <;> simp_all [acceptedEntry]

/-- What the scan of a directory finds is one entry for each thing in it. -/
theorem ownedGenerationEntries_eq_ok {root : PathBuf} {entries : List OwnedGenerationEntry}
    (scanned : ownedGenerationEntries canonicalUlid faults tree root gc = .ok entries) :
    (∀ node ∈ tree.listing root, ∃ entry,
        ownedGenerationEntry canonicalUlid faults tree gc node = .ok entry) ∧
      entries.Perm ((tree.listing root).map (acceptedEntry tree gc)) := by
  unfold ownedGenerationEntries at scanned
  unfold FileTree.listing
  split at scanned
  · cases scanned
  split at scanned
  next missing =>
    cases scanned
    simp [missing]
  next directory =>
    rw [if_pos directory]
    cases collected : (tree.entries root).mapM
        (ownedGenerationEntry canonicalUlid faults tree gc) with
    | error error =>
        rw [collected] at scanned
        cases scanned
    | ok owned =>
        rw [collected] at scanned
        cases scanned
        refine ⟨exists_ok_of_mapM collected, ?_⟩
        rw [← eq_map_of_mapM collected fun node entry accepted =>
          (ownedGenerationEntry_eq_ok accepted).2]
        exact List.mergeSort_perm owned _
  · cases scanned

/-- The names that are recognized are names of files. -/
theorem normal_of_recognized {component : Component}
    (recognized : recognizedName canonicalUlid gc component.text = true) :
    component = .normal component.text := by
  cases component with
  | normal name => rfl
  | rootDir => cases gc <;> simp [recognizedName, generationIdentity, rsplitOnceDash,
      Component.text] at recognized
  | curDir => cases gc <;> simp [recognizedName, generationIdentity, rsplitOnceDash,
      Component.text] at recognized
  | parentDir => cases gc <;> simp [recognizedName, generationIdentity, rsplitOnceDash,
      Component.text] at recognized

end Scanning

section Removing

variable {faults : IoFaults} {garbage : List PathBuf} {tree : FileTree}
  {node : PathNode Component FileKind}

theorem removeDirAll_spec (faults : IoFaults) (path : PathBuf) (tree : FileTree) :
    (∀ node ∈ (removeDirAll faults path tree).2, node ∈ tree) ∧
      (∀ node ∈ tree, ¬path <+: node.path → node ∈ (removeDirAll faults path tree).2) ∧
      ((removeDirAll faults path tree).1 = .ok () →
        (removeDirAll faults path tree).2 = tree.prune path) := by
  unfold removeDirAll
  split
  · refine ⟨?_, ?_, fun _ => rfl⟩
    · intro node member
      exact (PathTree.mem_prune.mp member).1
    · intro node member outside
      exact PathTree.mem_prune.mpr ⟨member, outside⟩
  · refine ⟨?_, ?_, fun finished => by cases finished⟩
    · intro node member
      exact (PathTree.mem_delete.mp member).1
    · intro node member outside
      apply PathTree.mem_delete.mpr
      refine ⟨member, ?_⟩
      rw [← List.isPrefixOf_iff_prefix, Bool.not_eq_true] at outside
      simp [outside]

/-- What the loop removes lies in the garbage, and all of it is gone if the loop finishes. -/
theorem removeGarbage_spec (faults : IoFaults) (garbage : List PathBuf) (tree : FileTree) :
    (∀ node ∈ (removeGarbage faults garbage tree).2, node ∈ tree) ∧
      (∀ node ∈ tree, node ∉ (removeGarbage faults garbage tree).2 →
        ∃ path ∈ garbage, path <+: node.path) ∧
      ((removeGarbage faults garbage tree).1 = .ok () →
        (removeGarbage faults garbage tree).2 = tree.pruneAll garbage) := by
  induction garbage generalizing tree with
  | nil => exact ⟨fun _ member => member, fun _ member gone => absurd member gone, fun _ => rfl⟩
  | cons path rest ih =>
      rcases removeDirAll_spec faults path tree with ⟨first, keeps, finishes⟩
      unfold removeGarbage
      split
      next after removed =>
        rw [removed] at first keeps finishes
        rcases ih after with ⟨restFirst, restKeeps, restFinishes⟩
        refine ⟨fun node member => first node (restFirst node member), ?_, ?_⟩
        · intro node member gone
          by_cases inside : path <+: node.path
          · exact ⟨path, List.mem_cons_self, inside⟩
          · rcases restKeeps node (keeps node member inside) gone with ⟨other, otherMem, inOther⟩
            exact ⟨other, List.mem_cons_of_mem _ otherMem, inOther⟩
        · intro finished
          have pruned : after = tree.prune path := finishes rfl
          rw [restFinishes finished, pruned]
          rfl
      next error after removed =>
        rw [removed] at first keeps
        refine ⟨first, ?_, fun finished => by cases finished⟩
        intro node member gone
        refine ⟨path, List.mem_cons_self, ?_⟩
        by_contra outside
        exact gone (keeps node member outside)

/-- Without faults the loop finishes. -/
theorem removeGarbage_none (garbage : List PathBuf) (tree : FileTree) :
    removeGarbage .none garbage tree = (.ok (), tree.pruneAll garbage) := by
  induction garbage generalizing tree with
  | nil => rfl
  | cons path rest ih => exact ih (tree.prune path)

end Removing

section Protecting

variable {canonicalUlid : List Char → Bool} {faults : IoFaults} {spoolDir : String}
  {spool : List SpoolFile} {publication : AtomicPublicationSpec} {tree : FileTree}
  {scan : GenerationScan} {path : PathBuf}

/-- A scan that succeeds has read every record and accepted every entry. -/
theorem scanGenerations_eq_ok
    (scanned : scanGenerations canonicalUlid faults publication spoolDir spool tree = .ok scan) :
    (∀ file ∈ spool, file.isRecord = true → ∃ record, file.record = .ok record ∧
        ∀ path ∈ record.protectedPaths publication.mirror, path ∈ scan.protectedPaths) ∧
      (∀ gc, ∀ node ∈ tree.listing (publication.entriesDir gc), ∃ entry,
        ownedGenerationEntry canonicalUlid faults tree gc node = .ok entry) ∧
      scan.entries.Perm ((tree.listing publication.attempts).map (acceptedEntry tree false) ++
        (tree.listing publication.gc).map (acceptedEntry tree true)) := by
  unfold scanGenerations at scanned
  split at scanned
  · cases scanned
  split at scanned
  · cases scanned
  simp only [bind_eq_ok, pure_eq_ok, Except.ok.injEq] at scanned
  rcases scanned with ⟨paths, known, attempts, attemptsScanned, gc, gcScanned, rfl⟩
  rcases ownedGenerationEntries_eq_ok attemptsScanned with ⟨attemptsAccepted, attemptsPerm⟩
  rcases ownedGenerationEntries_eq_ok gcScanned with ⟨gcAccepted, gcPerm⟩
  refine ⟨protectedPaths_eq_ok known, ?_, attemptsPerm.append gcPerm⟩
  intro gc node member
  cases gc with
  | false => exact attemptsAccepted node member
  | true => exact gcAccepted node member

/-- The garbage is made of entries under recognized names that overlap no protected path. -/
theorem mem_garbage
    (scanned : scanGenerations canonicalUlid faults publication spoolDir spool tree = .ok scan)
    (member : path ∈ scan.garbage) :
    (∃ gc name, recognizedName canonicalUlid gc name = true ∧
        path = publication.entriesDir gc ++ [.normal name]) ∧
      ∀ recorded ∈ scan.protectedPaths, ¬Overlap path recorded := by
  rcases scanGenerations_eq_ok scanned with ⟨_, accepted, perm⟩
  rcases List.mem_map.mp member with ⟨entry, entryMem, rfl⟩
  rcases List.mem_filter.mp entryMem with ⟨found, unkept⟩
  constructor
  · have listed : ∃ gc, ∃ node ∈ tree.listing (publication.entriesDir gc),
        acceptedEntry tree gc node = entry := by
      rcases List.mem_append.mp (perm.mem_iff.mp found) with inAttempts | inGc
      · exact ⟨false, List.mem_map.mp inAttempts⟩
      · exact ⟨true, List.mem_map.mp inGc⟩
    rcases listed with ⟨gc, node, nodeMem, rfl⟩
    rcases accepted gc node nodeMem with ⟨entry, isAccepted⟩
    have recognized := (ownedGenerationEntry_eq_ok isAccepted).1
    unfold FileTree.listing at nodeMem
    split at nodeMem
    · rcases PathTree.mem_entries.mp nodeMem with ⟨_, component, located⟩
      rw [located, entryName, List.getLast?_concat] at recognized
      refine ⟨gc, component.text, recognized, ?_⟩
      rw [← normal_of_recognized recognized]
      exact located
    · cases nodeMem
  · intro recorded recordedMem overlap
    simp only [GenerationScan.keeps, Bool.not_eq_true', List.any_eq_false, Bool.or_eq_true,
      List.isPrefixOf_iff_prefix] at unkept
    exact unkept recorded recordedMem overlap

end Protecting

section Counting

variable {canonicalUlid : List Char → Bool} {faults : IoFaults} {spoolDir : String}
  {spool : List SpoolFile} {publication : AtomicPublicationSpec} {tree : FileTree}
  {scan : GenerationScan} {path base : PathBuf} {gc : Bool} {node : PathNode Component FileKind}

theorem length_garbage (layout : PrivateLayout publication base)
    (scanned : scanGenerations canonicalUlid faults publication spoolDir spool tree = .ok scan)
    (member : path ∈ scan.garbage) : path.length = base.length + 2 := by
  rcases (mem_garbage scanned member).1 with ⟨gc, name, _, rfl⟩
  simp [layout.entries gc]

theorem length_listing (layout : PrivateLayout publication base)
    (member : node ∈ tree.listing (publication.entriesDir gc)) :
    node.path.length = base.length + 2 := by
  unfold FileTree.listing at member
  split at member
  · rcases PathTree.mem_entries.mp member with ⟨_, component, located⟩
    simp [located, layout.entries gc]
  · cases member

/-- Garbage above an entry is the entry. -/
theorem garbage_above_entry (layout : PrivateLayout publication base)
    (scanned : scanGenerations canonicalUlid faults publication spoolDir spool tree = .ok scan)
    (member : node ∈ tree.listing (publication.entriesDir gc)) (below : PathBuf) :
    (∃ removed ∈ scan.garbage, removed <+: node.path ++ below) ↔ node.path ∈ scan.garbage := by
  constructor
  · rintro ⟨removed, removedMem, above⟩
    have sizes : removed.length = node.path.length :=
      (length_garbage layout scanned removedMem).trans (length_listing layout member).symm
    have same : removed = node.path :=
      (List.prefix_of_prefix_length_le above (List.prefix_append _ _) sizes.le).eq_of_length sizes
    exact same ▸ removedMem
  · intro removed
    exact ⟨node.path, removed, List.prefix_append _ _⟩

/-- The entries that are left are the ones that are no garbage. -/
theorem listing_pruneAll (layout : PrivateLayout publication base)
    (scanned : scanGenerations canonicalUlid faults publication spoolDir spool tree = .ok scan)
    (gc : Bool) :
    FileTree.listing (tree.pruneAll scan.garbage) (publication.entriesDir gc) =
      (tree.listing (publication.entriesDir gc)).filter fun node =>
        !scan.garbage.contains node.path := by
  have outside : ∀ removed ∈ scan.garbage, ¬removed <+: publication.entriesDir gc := by
    intro removed member above
    have sizes := above.length_le
    rw [length_garbage layout scanned member, layout.entries gc] at sizes
    simp at sizes
  have filtered : ∀ node ∈ tree.listing (publication.entriesDir gc),
      (scan.garbage.all fun removed => !removed.isPrefixOf node.path) =
        !scan.garbage.contains node.path := by
    intro node member
    have above := garbage_above_entry layout scanned member []
    rw [List.append_nil] at above
    rw [Bool.eq_iff_iff, List.all_eq_true]
    simp only [Bool.not_eq_true', ← Bool.not_eq_true, List.isPrefixOf_iff_prefix,
      List.contains_iff_mem]
    simpa using not_congr above
  unfold FileTree.listing at filtered ⊢
  rw [PathTree.kindAt_pruneAll outside]
  split
  next directory =>
    rw [if_pos directory] at filtered
    rw [PathTree.entries_pruneAll]
    exact List.filter_congr filtered
  next => rfl

/-- The generations in one directory after the removals. -/
theorem countP_listing (layout : PrivateLayout publication base)
    (scanned : scanGenerations canonicalUlid faults publication spoolDir spool tree = .ok scan)
    (gc : Bool) :
    (FileTree.listing (tree.pruneAll scan.garbage) (publication.entriesDir gc)).countP
        (fun node => gc || decide
          ((tree.pruneAll scan.garbage).kindAt (generationRoot node.path) = some .directory)) =
      ((tree.listing (publication.entriesDir gc)).map (acceptedEntry tree gc)).countP fun entry =>
        entry.containsGeneration && !scan.garbage.contains entry.cleanupPath := by
  rw [listing_pruneAll layout scanned, List.countP_filter, List.countP_map]
  apply List.countP_congr
  intro node member
  by_cases removed : node.path ∈ scan.garbage
  · simp [removed, acceptedEntry]
  · have above := garbage_above_entry layout scanned member [.normal "root".toList]
    have kept : ∀ other ∈ scan.garbage, ¬other <+: generationRoot node.path := by
      intro other otherMem prefix_
      exact removed (above.mp ⟨other, otherMem, prefix_⟩)
    simp [removed, acceptedEntry, PathTree.kindAt_pruneAll kept]

/-- The count is that of the generations that are left. -/
theorem generationsLeft_pruneAll (layout : PrivateLayout publication base)
    (scanned : scanGenerations canonicalUlid faults publication spoolDir spool tree = .ok scan) :
    generationsLeft publication (tree.pruneAll scan.garbage) =
      (scan.entries.countP fun entry =>
        entry.containsGeneration && !scan.garbage.contains entry.cleanupPath) +
        if FileTree.existsAt (tree.pruneAll scan.garbage) publication.exchange then 1 else 0 := by
  have attempts := countP_listing layout scanned false
  have gcs := countP_listing layout scanned true
  simp only [Bool.false_or, Bool.true_or, List.countP_true] at attempts gcs
  rw [(scanGenerations_eq_ok scanned).2.2.countP_eq, List.countP_append]
  have attemptsDir : publication.entriesDir false = publication.attempts := rfl
  have gcDir : publication.entriesDir true = publication.gc := rfl
  rw [attemptsDir] at attempts
  rw [gcDir] at gcs
  rw [generationsLeft, attempts, gcs]

end Counting

section Safety

variable {canonicalUlid : List Char → Bool} {faults : IoFaults} {spoolDir : String}
  {spool : List SpoolFile} {publication : AtomicPublicationSpec} {maxPrivateGenerations : UInt32}
  {reserveBytes : ℕ} {statvfs : Except String (ℕ × ℕ)} {tree : FileTree}
  {scan : GenerationScan} {base : PathBuf}

/-- A report has the number of the generations that are counted, and it is within the bound. -/
theorem checkAdmission_eq_ok {report : AdmissionReport}
    (admits : checkAdmission faults publication scan maxPrivateGenerations reserveBytes statvfs
      tree = .ok report) :
    report.remainingPrivateGenerations = remainingGenerations publication scan tree ∧
      remainingGenerations publication scan tree < maxPrivateGenerations.toNat := by
  unfold checkAdmission at admits
  simp only [check_bind_eq_ok] at admits
  rcases admits with ⟨_, admits⟩
  split at admits
  · cases admits
  next within =>
    simp only [bind_eq_ok] at admits
    rcases admits with ⟨⟨blocks, size⟩, _, admits⟩
    simp only at admits
    split at admits
    · cases admits
    split at admits
    · cases admits
    · cases admits
      exact ⟨rfl, Nat.lt_of_not_le within⟩

/-- Within the bound nothing saturates. -/
theorem remainingGenerations_eq
    (within : remainingGenerations publication scan tree < maxPrivateGenerations.toNat) :
    remainingGenerations publication scan tree =
      (scan.entries.countP fun entry =>
        entry.containsGeneration && !scan.garbage.contains entry.cleanupPath) +
        if tree.existsAt publication.exchange then 1 else 0 := by
  have bound : maxPrivateGenerations.toNat ≤ u32Max := by
    have size := maxPrivateGenerations.toNat_lt
    unfold u32Max
    omega
  unfold remainingGenerations at within ⊢
  simp only at within ⊢
  split at within
  · split at within
    next small => simp_all; omega
    next large => omega
  · split at within
    next small => simp_all
    next large => omega

/-- A collection either stops before the first removal or has scanned everything. -/
theorem gcAndCheckLocked_cases {outcome : Except String AdmissionReport × FileTree}
    (ran : gcAndCheckLocked canonicalUlid faults publication spoolDir spool maxPrivateGenerations
      reserveBytes statvfs tree = outcome) :
    (∃ error, outcome = (.error error, tree)) ∨
      ∃ scan, scanGenerations canonicalUlid faults publication spoolDir spool tree = .ok scan ∧
        outcome.2 = (removeGarbage faults scan.garbage tree).2 ∧
        ∀ report, outcome.1 = .ok report → (removeGarbage faults scan.garbage tree).1 = .ok () ∧
          checkAdmission faults publication scan maxPrivateGenerations reserveBytes statvfs
            outcome.2 = .ok report := by
  subst ran
  unfold gcAndCheckLocked
  cases scanned : scanGenerations canonicalUlid faults publication spoolDir spool tree with
  | error error => exact .inl ⟨error, rfl⟩
  | ok scan =>
      refine .inr ⟨scan, rfl, ?_⟩
      simp only
      generalize removeGarbage faults scan.garbage tree = removal
      rcases removal with ⟨_ | _, after⟩
      · exact ⟨rfl, fun report returned => by cases returned⟩
      · exact ⟨rfl, fun report returned => ⟨rfl, returned⟩⟩

end Safety

section Published

/-- What a collection of the private directory of a mirror owes to its surroundings. -/
structure CollectsSafely (canonicalUlid : List Char → Bool) (faults : IoFaults)
    (publication : AtomicPublicationSpec) (spool : List SpoolFile)
    (maxPrivateGenerations : UInt32) (tree : FileTree)
    (outcome : Except String AdmissionReport × FileTree) : Prop where
  onlyRemoves : ∀ node ∈ outcome.2, node ∈ tree
  keepsRecorded : ∀ node ∈ tree, node ∉ outcome.2 →
    ∀ path, Recorded spool publication.mirror path → ¬Overlap node.path path
  keepsExchange : ∀ node ∈ tree, Overlap publication.exchange node.path → node ∈ outcome.2
  keepsPublished : ∀ node ∈ tree,
    PathBuf.ofText publication.publishedDir <+: node.path → node ∈ outcome.2
  failsClosed :
    (∃ file ∈ spool, file.isRecord = true ∧ ∃ error, file.record = .error error) ∨
      (∃ gc, ∃ node ∈ tree.listing (publication.entriesDir gc), ∃ error,
        ownedGenerationEntry canonicalUlid faults tree gc node = .error error) →
      (∃ error, outcome.1 = .error error) ∧ outcome.2 = tree
  counts : ∀ report, outcome.1 = .ok report →
    report.remainingPrivateGenerations = generationsLeft publication outcome.2 ∧
      report.remainingPrivateGenerations < maxPrivateGenerations.toNat

variable {canonicalUlid : List Char → Bool} {faults : IoFaults} {spoolDir : String}
  {spool : List SpoolFile} {publication : AtomicPublicationSpec} {maxPrivateGenerations : UInt32}
  {reserveBytes : ℕ} {statvfs : Except String (ℕ × ℕ)} {tree : FileTree} {base : PathBuf}
  {outcome : Except String AdmissionReport × FileTree}

/-- The exchange directory is beside the entries. -/
theorem exchange_apart (layout : PrivateLayout publication base) (gc : Bool) (name : List Char) :
    ¬Overlap (publication.entriesDir gc ++ [.normal name]) publication.exchange := by
  rw [layout.entries gc, layout.exchange, List.append_assoc, Overlap.append_left]
  cases gc <;> simp [entriesName]

/-- Entries apart from the published directory are collected safely. -/
theorem collectsSafely_of_apart (layout : PrivateLayout publication base)
    (apart : ∀ gc name, recognizedName canonicalUlid gc name = true →
      ¬Overlap (publication.entriesDir gc ++ [.normal name])
        (PathBuf.ofText publication.publishedDir))
    (ran : gcAndCheckLocked canonicalUlid faults publication spoolDir spool maxPrivateGenerations
      reserveBytes statvfs tree = outcome) :
    CollectsSafely canonicalUlid faults publication spool maxPrivateGenerations tree outcome := by
  rcases gcAndCheckLocked_cases ran with ⟨error, rfl⟩ | ⟨scan, scanned, removes, reports⟩
  · refine ⟨?_, ?_, ?_, ?_, ?_, ?_⟩
    · exact fun node member => member
    · exact fun node member gone => absurd member gone
    · exact fun node member _ => member
    · exact fun node member _ => member
    · exact fun _ => ⟨⟨error, rfl⟩, rfl⟩
    · exact fun report returned => by cases returned
  · rcases removeGarbage_spec faults scan.garbage tree with ⟨only, inGarbage, finishes⟩
    rw [← removes] at only inGarbage finishes
    rcases scanGenerations_eq_ok scanned with ⟨readable, accepted, _⟩
    have kept : ∀ path : PathBuf, (∀ removed ∈ scan.garbage, ¬Overlap removed path) →
        ∀ node ∈ tree, Overlap node.path path → node ∈ outcome.2 := by
      intro path clear node member overlap
      by_contra gone
      rcases inGarbage node member gone with ⟨removed, removedMem, below, located⟩
      rw [← located] at overlap
      exact clear removed removedMem overlap.of_append_left
    refine ⟨only, ?_, ?_, ?_, ?_, ?_⟩
    · rintro node member gone path ⟨file, fileMem, isRecord, record, read, recorded⟩ overlap
      apply gone
      apply kept path _ node member overlap
      intro removed removedMem
      rcases readable file fileMem isRecord with ⟨other, otherRead, known⟩
      have same : other = record := Except.ok.inj (otherRead.symm.trans read)
      exact (mem_garbage scanned removedMem).2 path (known path (same ▸ recorded))
    · intro node member overlap
      apply kept publication.exchange _ node member overlap.symm
      intro removed removedMem
      rcases (mem_garbage scanned removedMem).1 with ⟨gc, name, _, rfl⟩
      exact exchange_apart layout gc name
    · intro node member below
      apply kept (PathBuf.ofText publication.publishedDir) _ node member (.inr below)
      intro removed removedMem
      rcases (mem_garbage scanned removedMem).1 with ⟨gc, name, recognized, rfl⟩
      exact apart gc name recognized
    · rintro (⟨file, fileMem, isRecord, error, unread⟩ | ⟨gc, node, nodeMem, error, rejected⟩)
      · rcases readable file fileMem isRecord with ⟨record, read, _⟩
        rw [unread] at read
        cases read
      · rcases accepted gc node nodeMem with ⟨entry, isAccepted⟩
        rw [rejected] at isAccepted
        cases isAccepted
    · intro report returned
      rcases reports report returned with ⟨removed, admits⟩
      rcases checkAdmission_eq_ok admits with ⟨counted, within⟩
      rw [counted]
      refine ⟨?_, within⟩
      rw [remainingGenerations_eq within, finishes removed, generationsLeft_pruneAll layout scanned]

end Published

section Overlapping

variable {canonicalUlid : List Char → Bool} {spoolDir : String}
  {publication : AtomicPublicationSpec} {maxPrivateGenerations : UInt32} {reserveBytes : ℕ}
  {statvfs : Except String (ℕ × ℕ)} {base path : PathBuf} {gc : Bool} {name : List Char}

/-- The directories on the way to a path. -/
abbrev directoriesTo (path : PathBuf) : FileTree := PathTree.chain .directory path

/-- On the way to something in an entry there is no other entry. -/
theorem accepted_directoriesTo (layout : PrivateLayout publication base)
    (recognized : recognizedName canonicalUlid gc name = true)
    (inside : publication.entriesDir gc ++ [.normal name] <+: path) (other : Bool) :
    ∀ node ∈ (directoriesTo path).listing (publication.entriesDir other), ∃ entry,
      ownedGenerationEntry canonicalUlid .none (directoriesTo path) other node = .ok entry := by
  intro node member
  unfold FileTree.listing at member
  split at member
  · rcases PathTree.mem_entries.mp member with ⟨inTree, component, located⟩
    rcases PathTree.mem_chain.mp inTree with ⟨above, directory⟩
    rw [located, layout.entries other] at above
    rw [layout.entries gc] at inside
    have same : base ++ [.normal (entriesName other).toList] ++ [component] =
        base ++ [.normal (entriesName gc).toList] ++ [.normal name] := by
      apply List.IsPrefix.eq_of_length _ (by simp)
      exact List.prefix_of_prefix_length_le above inside (by simp)
    have sameDir : other = gc := by
      cases other <;> cases gc <;> simp [entriesName] at same ⊢
    have named : component = .normal name := by simp [sameDir] at same; exact same
    have entryNamed : entryName node.path = name := by
      simp [entryName, located, named, Component.text]
    unfold ownedGenerationEntry
    simp only [IoFaults.none, entryNamed, sameDir, recognized, directory]
    rw [if_neg (by simp)]
    cases gc with
    | true => exact ⟨_, rfl⟩
    | false =>
        simp only [Bool.false_eq_true, if_false]
        cases found : PathTree.kindAt (directoriesTo path) (generationRoot node.path) with
        | none => exact ⟨_, rfl⟩
        | some kind =>
            rw [PathTree.kindAt_chain found]
            exact ⟨_, rfl⟩
  · cases member

/-- The scan of such a directory finds the entry. -/
theorem ownedGenerationEntries_directoriesTo (layout : PrivateLayout publication base)
    (recognized : recognizedName canonicalUlid gc name = true)
    (inside : publication.entriesDir gc ++ [.normal name] <+: path) (other : Bool) :
    ∃ entries, ownedGenerationEntries canonicalUlid .none (directoriesTo path)
      (publication.entriesDir other) other = .ok entries := by
  have accepted := accepted_directoriesTo layout recognized inside other
  unfold FileTree.listing at accepted
  unfold ownedGenerationEntries
  simp only [IoFaults.none]
  cases found : PathTree.kindAt (directoriesTo path) (publication.entriesDir other) with
  | none => exact ⟨_, rfl⟩
  | some kind =>
      rcases PathTree.kindAt_chain found
      rw [if_pos found] at accepted
      rcases mapM_of_forall accepted with ⟨owned, collected⟩
      simp only [IoFaults.none] at collected
      simp only [collected]
      exact ⟨_, rfl⟩

/-- So it is listed. -/
theorem mem_listing_directoriesTo
    (inside : publication.entriesDir gc ++ [.normal name] <+: path) :
    ⟨publication.entriesDir gc ++ [.normal name], .directory⟩ ∈
      (directoriesTo path).listing (publication.entriesDir gc) := by
  have above : publication.entriesDir gc <+: path := (List.prefix_append _ _).trans inside
  have directoryMem : (⟨publication.entriesDir gc, .directory⟩ : PathNode Component FileKind) ∈
      directoriesTo path := PathTree.mem_chain.mpr ⟨above, rfl⟩
  unfold FileTree.listing
  rw [if_pos (PathTree.kindAt_of_mem directoryMem)]
  exact PathTree.mem_entries.mpr ⟨PathTree.mem_chain.mpr ⟨inside, rfl⟩, _, rfl⟩

variable (spoolDir) in
/-- The scan without records. -/
theorem scanGenerations_directoriesTo (layout : PrivateLayout publication base)
    (recognized : recognizedName canonicalUlid gc name = true)
    (inside : publication.entriesDir gc ++ [.normal name] <+: path) :
    ∃ entries, scanGenerations canonicalUlid .none publication spoolDir [] (directoriesTo path) =
      .ok ⟨[], entries⟩ := by
  rcases ownedGenerationEntries_directoriesTo layout recognized inside false with
    ⟨attempts, attemptsScanned⟩
  rcases ownedGenerationEntries_directoriesTo layout recognized inside true with ⟨gcs, gcScanned⟩
  have attemptsDir : publication.entriesDir false = publication.attempts := rfl
  have gcDir : publication.entriesDir true = publication.gc := rfl
  have parents : publication.gc.parent = some publication.privateDir ∧
      publication.exchange.parent = some publication.privateDir := by
    simp [← gcDir, layout.entries true, layout.exchange, layout.privateDir, PathBuf.parent]
  rw [attemptsDir] at attemptsScanned
  rw [gcDir] at gcScanned
  refine ⟨attempts ++ gcs, ?_⟩
  unfold scanGenerations
  rw [if_neg (by simp [parents])]
  simp only [IoFaults.none] at attemptsScanned gcScanned ⊢
  simp [protectedPaths, attemptsScanned, gcScanned, bind, Except.bind, pure, Except.pure]

/-- A collection without records removes what lies in an entry. -/
theorem removes_directoriesTo (layout : PrivateLayout publication base)
    (recognized : recognizedName canonicalUlid gc name = true)
    (inside : publication.entriesDir gc ++ [.normal name] <+: path) :
    ⟨path, .directory⟩ ∉ (gcAndCheckLocked canonicalUlid .none publication spoolDir []
      maxPrivateGenerations reserveBytes statvfs (directoriesTo path)).2 := by
  rcases scanGenerations_directoriesTo spoolDir layout recognized inside with ⟨entries, scanned⟩
  have garbage : publication.entriesDir gc ++ [.normal name] ∈
      GenerationScan.garbage ⟨[], entries⟩ := by
    have found := List.mem_map_of_mem (f := acceptedEntry (directoriesTo path) gc)
      (mem_listing_directoriesTo inside)
    have member : acceptedEntry (directoriesTo path) gc
        ⟨publication.entriesDir gc ++ [.normal name], .directory⟩ ∈ entries := by
      apply (scanGenerations_eq_ok scanned).2.2.mem_iff.mpr
      cases gc with
      | false => exact List.mem_append_left _ found
      | true => exact List.mem_append_right _ found
    exact List.mem_map.mpr ⟨_, List.mem_filter.mpr ⟨member, rfl⟩, rfl⟩
  unfold gcAndCheckLocked
  rw [scanned]
  simp only [removeGarbage_none]
  intro kept
  exact (PathTree.mem_pruneAll.mp kept).2 _ garbage inside

/-- A published directory that an entry overlaps is not collected safely. -/
theorem not_collectsSafely (layout : PrivateLayout publication base)
    (recognized : recognizedName canonicalUlid gc name = true)
    (overlap : Overlap (publication.entriesDir gc ++ [.normal name])
      (PathBuf.ofText publication.publishedDir)) :
    ∃ tree, ¬CollectsSafely canonicalUlid .none publication [] maxPrivateGenerations tree
      (gcAndCheckLocked canonicalUlid .none publication spoolDir [] maxPrivateGenerations
        reserveBytes statvfs tree) := by
  have deeper : ∃ path, publication.entriesDir gc ++ [.normal name] <+: path ∧
      PathBuf.ofText publication.publishedDir <+: path := by
    rcases overlap with below | below
    · exact ⟨_, below, List.prefix_refl _⟩
    · exact ⟨_, List.prefix_refl _, below⟩
  rcases deeper with ⟨path, inside, published⟩
  refine ⟨directoriesTo path, ?_⟩
  intro safely
  apply removes_directoriesTo layout recognized inside
  exact safely.keepsPublished _ (PathTree.mem_chain.mpr ⟨List.prefix_refl path, rfl⟩) published

end Overlapping

section Compiled

open Sample

variable {config : AgentConfig} {entry : MirrorName × CanonicalMirror} {runId : String}
  {attemptNo : ℕ} {spec : ProcessRunSpec} {publication : AtomicPublicationSpec}

/-- What the server compiles has the private layout of its mirror. -/
theorem CompiledFor.privateLayout (made : CompiledFor config entry runId attemptNo spec)
    (atomic : spec.publication = some publication) {publicationRoot : String}
    (configured : config.publicationRoot = some publicationRoot) :
    PrivateLayout publication
      (PathBuf.ofText publicationRoot ++ [.normal entry.1.value.toList]) := by
  rcases compiled_publication made.compiled atomic with ⟨root, rootConfigured, rfl⟩
  have oneRoot : root = publicationRoot := Option.some.inj (rootConfigured.symm.trans configured)
  subst oneRoot
  have mirror := entry.1.plain
  have attempts : Path.Plain "attempts".toList := ⟨by decide, by decide, by decide, by decide⟩
  have exchange : Path.Plain "exchange".toList := ⟨by decide, by decide, by decide, by decide⟩
  have gcs : Path.Plain "gc".toList := ⟨by decide, by decide, by decide, by decide⟩
  refine ⟨?_, ?_, ?_⟩
  · simp only [AtomicPublicationSpec.privateDir, atomicPublicationSpec, attemptContext, joinText,
      PathBuf.ofText, String.toList_ofList, mirror.components_join]
  · intro gc
    cases gc <;>
      simp only [AtomicPublicationSpec.entriesDir, AtomicPublicationSpec.gc,
        AtomicPublicationSpec.attempts, atomicPublicationSpec, attemptContext, joinText,
        PathBuf.ofText, String.toList_ofList, mirror.components_join, attempts.components_join,
        gcs.components_join, entriesName, Bool.false_eq_true, if_false, if_true]
  · simp only [AtomicPublicationSpec.exchange, atomicPublicationSpec, attemptContext, joinText,
      PathBuf.ofText, String.toList_ofList, mirror.components_join, exchange.components_join]

omit entry config runId attemptNo in
theorem publishedDir_of_atomic (atomic : spec.publication = some publication) :
    publication.publishedDir = spec.publishedDir := by
  simp [ProcessRunSpec.publishedDir, atomic]

/-- The private generations of a mirror are collected safely, whatever the private tree and the
spool hold and whatever fails, exactly when the mirror root does not lie in the private directory
of the mirror so that an entry overlaps the published directory. -/
theorem collection_safe_iff {vendor : Vendor} (bundle : CanonicalBundle vendor)
    {publicationRoot : String} (configured : config.publicationRoot = some publicationRoot)
    (placed : preflightPlacement config.mirrorRoot publicationRoot = true)
    (member : entry ∈ bundle.mirrors) (made : CompiledFor config entry runId attemptNo spec)
    (atomic : spec.publication = some publication) (canonicalUlid : List Char → Bool) :
    (∀ faults spoolDir spool maxPrivateGenerations reserveBytes statvfs tree,
        CollectsSafely canonicalUlid faults publication spool maxPrivateGenerations tree
          (gcAndCheckLocked canonicalUlid faults publication spoolDir spool maxPrivateGenerations
            reserveBytes statvfs tree)) ↔
      ∀ below : PathBuf, PathBuf.ofText config.mirrorRoot =
          PathBuf.ofText publicationRoot ++ .normal entry.1.value.toList :: below →
        ∀ gc name, recognizedName canonicalUlid gc name = true →
          ¬Overlap [.normal (entriesName gc).toList, .normal name]
            (below ++ PathBuf.ofText entry.2.document.mirror.target) := by
  have outside := not_mirrorRoot_prefix placed
  have layout := made.privateLayout atomic configured
  have published := made.publishedDir (bundle.targetsSafe entry member)
  rw [← publishedDir_of_atomic atomic] at published
  constructor
  · intro safe below nested gc name recognized overlap
    have overlaps : Overlap (publication.entriesDir gc ++ [.normal name])
        (PathBuf.ofText publication.publishedDir) := by
      rw [layout.entries gc, published, nested]
      simpa using overlap
    rcases @not_collectsSafely canonicalUlid "" _ 1 0 (.error "") _ gc name layout recognized
      overlaps with ⟨tree, endangered⟩
    exact endangered (safe _ _ _ _ _ _ tree)
  · intro clear faults spoolDir spool maxPrivateGenerations reserveBytes statvfs tree
    apply collectsSafely_of_apart layout _ rfl
    intro gc name recognized overlap
    rw [layout.entries gc, published, List.append_assoc, List.append_assoc] at overlap
    rcases (Overlap.append_iff outside).mp overlap with ⟨between, nested, inner⟩
    rcases between with _ | ⟨first, below⟩
    · exact outside ⟨[], by simp [nested]⟩
    · simp only [List.cons_append, List.nil_append, Overlap.cons] at inner
      rcases inner with ⟨rfl, inner⟩
      exact clear below nested gc name recognized inner

namespace Sample

/-- Run identifiers in the canonical spelling. -/
def canonicalText (text : List Char) : Bool := ulidText (String.ofList text)

/-- A generation that a crashed rotation has left behind. -/
def leftBehind : PathBuf :=
  .ofText "/srv/publication/gamma/gc/previous-01ARZ3NDEKTSV4RRFFQ69G5FAV-1"

theorem sibling_roots_collect_safely :
    CollectsSafely canonicalText .none
      (atomicPublicationSpec (attemptContext (gammaOn nodeA) "/srv/mirrors"
        (some "/srv/publication") someRun 1) "/srv/publication" (joinText "/srv/mirrors" "pool"))
      [] 4 (directoriesTo leftBehind)
      (gcAndCheckLocked canonicalText .none
        (atomicPublicationSpec (attemptContext (gammaOn nodeA) "/srv/mirrors"
          (some "/srv/publication") someRun 1) "/srv/publication" (joinText "/srv/mirrors" "pool"))
        "/var/lib/agent/spool" [] 4 0 (.ok (1, 4096)) (directoriesTo leftBehind)) := by
  apply (collection_safe_iff (gammaBundle nodeA) rfl (by decide) gammaOn_mem
    (gamma_compiledFor "/srv/mirrors" "/srv/publication") rfl canonicalText).mpr
  intro below nested
  have inside : PathBuf.ofText "/srv/publication" <+: PathBuf.ofText "/srv/mirrors" :=
    ⟨_, nested.symm⟩
  exact absurd inside (by decide)

/-- A mirror root under the name of a rotated generation. -/
def rotatedRoot : String := "/srv/gamma/gc/previous-01ARZ3NDEKTSV4RRFFQ69G5FAV-1"

/-- The preflight admits the root, and the collection removes the published directory. -/
theorem published_directory_collected :
    preflightPlacement rotatedRoot "/srv" = true ∧
      gammaOn nodeA ∈ (gammaBundle nodeA).mirrors ∧
      CompiledFor (rootedConfig rotatedRoot "/srv") (gammaOn nodeA) someRun 1
        (gammaSpec rotatedRoot "/srv") ∧
      ∃ publication, (gammaSpec rotatedRoot "/srv").publication = some publication ∧
        ⟨PathBuf.ofText publication.publishedDir, .directory⟩ ∈
          directoriesTo (PathBuf.ofText publication.publishedDir) ∧
        ⟨PathBuf.ofText publication.publishedDir, .directory⟩ ∉
          (gcAndCheckLocked canonicalText .none publication "/var/lib/agent/spool" [] 4 0
            (.ok (1, 4096)) (directoriesTo (PathBuf.ofText publication.publishedDir))).2 := by
  have made := gamma_compiledFor rotatedRoot "/srv"
  have layout := made.privateLayout rfl rfl
  have recognized : recognizedName canonicalText true
      "previous-01ARZ3NDEKTSV4RRFFQ69G5FAV-1".toList = true := by decide +kernel
  refine ⟨by decide, gammaOn_mem, made, _, rfl, ?_, ?_⟩
  · exact PathTree.mem_chain.mpr ⟨List.prefix_refl _, rfl⟩
  · exact removes_directoriesTo layout recognized (by decide)

end Sample

end Compiled

end LzuMirror
