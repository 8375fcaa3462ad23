import LzuMirror.Agent.SpoolFiles

/-!
# What a crash leaves in the spool directory

A crash inside `spool::write` or `spool::retire` leaves files beside the state
file. A start of the agent should not be able to tell: it should do exactly what
it does for the record before the call, or for the record after it.

Two directories that differ in such files are followed through a start with the
same answers (`Disguise`). A file that cannot be read is passed over, but a
temporary file that is complete is a record to `recover`, and so is a log that
happens to be one: `recover` looks at the contents of every file, where
`reconcile_all` looks at the extension first.
-/

namespace LzuMirror

/-- `state_path`. -/
def statePath (stem : String) : SpoolPath := ⟨stem, .json⟩

/-- There is no file, or its contents are no record. -/
def StateFile.NoRecord (file : Option StateFile) : Prop :=
  ∀ record, file ≠ some (.record record)

/-- Where a call for the state file of a key was cut off. -/
inductive SpoolCrash where
  | write (record : SpoolRecord) (stage : WriteStage)
  | retire (stage : RetireStage)

namespace SpoolCrash

variable (toVec : SpoolRecord → List UInt8) (files : SpoolFiles) (stem : String)

/-- The directory the crash leaves. -/
def left : SpoolCrash → SpoolFiles
  | .write record stage => files.writing toVec (statePath stem) record stage
  | .retire stage => files.retiring (statePath stem) stage

/-- The directory after the call, had it not been cut off. -/
def completed : SpoolCrash → SpoolFiles
  | .write record _ => files.writing toVec (statePath stem) record .renamed
  | .retire _ => files.retiring (statePath stem) (.renamed true true)

end SpoolCrash

section Statement

variable (config : AgentConfig) (toVec : SpoolRecord → List UInt8)

/-- What can be seen of a start with some rounds of the background loop. -/
def SpoolFiles.Shows (count : ℕ) (files : SpoolFiles) (seen : List SpoolEvent) : Prop :=
  ∃ after, (SpoolVisit.restart config count).Observes (SpoolFiles.Step toVec) SpoolOp.observe
    files seen () after

/--
A directory is taken for one that holds exactly the record of another: the key
has no second record, the agent can do the same things with the same answers,
the events it sends among them, and does them all through the state file.
-/
structure SpoolFiles.ActsAs (stem : String) (files clean : SpoolFiles) : Prop where
  sole : ∀ path record, path.stem = stem → path.extension ≠ .retired →
    files path = some (.record record) → path = statePath stem
  unretired : (files (statePath stem)).isSome = true → files ⟨stem, .retired⟩ = none
  held : files (statePath stem) = clean (statePath stem)
  behaviour : ∀ count seen,
    files.Shows config toVec count seen ↔ clean.Shows config toVec count seen
  through : ∀ count seen, files.Shows config toVec count seen →
    ∀ event ∈ seen, event.path.stem = stem → event.path = statePath stem

/--
The directory a crash leaves acts as the one before the call or as the one after
it, each without a temporary file.
-/
def SpoolCrash.Atomic (files : SpoolFiles) (stem : String) (crash : SpoolCrash) : Prop :=
  SpoolFiles.ActsAs config toVec stem (crash.left toVec files stem)
      (files.remove ⟨stem, .tmp⟩) ∨
    SpoolFiles.ActsAs config toVec stem (crash.left toVec files stem)
      ((crash.completed toVec files stem).remove ⟨stem, .tmp⟩)

/--
The crash leaves no complete temporary file: it falls into the writing of that
file or after its rename, and an earlier crash has left none either. Beside that,
the log is no record, and there is no retired file beside a state file.
-/
def SpoolCrash.Harmless (files : SpoolFiles) (stem : String) : SpoolCrash → Prop
  | .write record (.filling length) =>
      length < (toVec record).length ∧ StateFile.NoRecord (files ⟨stem, .log⟩) ∧
        (files (statePath stem) = none ∨ files ⟨stem, .retired⟩ = none)
  | .write _ .renamed =>
      StateFile.NoRecord (files ⟨stem, .log⟩) ∧ files ⟨stem, .retired⟩ = none
  | .write _ .begun | .retire .begun =>
      StateFile.NoRecord (files ⟨stem, .tmp⟩) ∧ StateFile.NoRecord (files ⟨stem, .log⟩) ∧
        (files (statePath stem) = none ∨ files ⟨stem, .retired⟩ = none)
  | .retire (.renamed logRemoved _) =>
      StateFile.NoRecord (files ⟨stem, .tmp⟩) ∧
        (logRemoved = true ∨ StateFile.NoRecord (files ⟨stem, .log⟩))

end Statement

/-! ## The effect of the calls on single files -/

namespace SpoolFiles

variable {toVec : SpoolRecord → List UInt8} {files other after : SpoolFiles} {path file : SpoolPath}
  {record : SpoolRecord}

@[simp]
theorem remove_apply : files.remove path file = if file = path then none else files file :=
  Function.update_apply files path none file

theorem writing_filling {length : ℕ} :
    files.writing toVec path record (.filling length) file =
      if file = path.withExtension .tmp then some (filled toVec record length) else files file :=
  Function.update_apply files _ _ file

theorem writing_renamed :
    files.writing toVec path record .renamed file =
      if file = path then some (.record record)
      else if file = path.withExtension .tmp then none else files file := by
  simp only [writing, rename, create, remove, Function.update_apply, if_true]
  split
  · rfl
  · split <;> rfl

theorem retiring_renamed {logRemoved retiredRemoved : Bool} :
    files.retiring path (.renamed logRemoved retiredRemoved) file =
      if file = path.withExtension .retired then (if retiredRemoved then none else files path)
      else if file = path.logPath ∧ logRemoved then none
      else if file = path then none else files file := by
  have apart : path.withExtension .retired ≠ path.logPath := by
    simp [SpoolPath.logPath, SpoolPath.withExtension]
  cases logRemoved <;> cases retiredRemoved <;>
    simp only [retiring, rename, remove] <;> grind

theorem noRecord_filled {length : ℕ} (short : length < (toVec record).length) :
    StateFile.NoRecord (some (filled toVec record length)) := by
  simp [filled, short, StateFile.NoRecord]

/--
Two directories take the same step at a path: a file they do not both keep is the
same in both and belongs to the key of the path, and the step makes no second
record of it.
-/
def Alike (path : SpoolPath) (files other after otherAfter : SpoolFiles) : Prop :=
  ∀ file, after file = files file ∧ otherAfter file = other file ∨
    after file = otherAfter file ∧ file.stem = path.stem ∧
      (file ≠ path → file.extension ≠ .retired → StateFile.NoRecord (after file))

theorem alike_refl : Alike path files other files other := fun _ => .inl ⟨rfl, rfl⟩

theorem alike_writing_renamed :
    Alike path files other (files.writing toVec path record .renamed)
      (other.writing toVec path record .renamed) := by
  intro file
  rw [writing_renamed, writing_renamed]
  by_cases atPath : file = path
  · subst atPath
    exact .inr ⟨by simp, rfl, fun elsewhere => absurd rfl elsewhere⟩
  · by_cases temporary : file = path.withExtension .tmp
    · subst temporary
      exact .inr ⟨by simp [atPath], rfl, fun _ _ => by simp [atPath, StateFile.NoRecord]⟩
    · exact .inl ⟨by simp [atPath, temporary], by simp [atPath, temporary]⟩

theorem alike_writing_filling {length : ℕ} (short : length < (toVec record).length) :
    Alike path files other (files.writing toVec path record (.filling length))
      (other.writing toVec path record (.filling length)) := by
  intro file
  rw [writing_filling, writing_filling]
  by_cases temporary : file = path.withExtension .tmp
  · subst temporary
    refine .inr ⟨by simp, rfl, fun _ _ => ?_⟩
    simpa using noRecord_filled short
  · exact .inl ⟨by simp [temporary], by simp [temporary]⟩

theorem alike_retiring (same : files path = other path)
    (sameLog : files path.logPath = other path.logPath) (stage : RetireStage) :
    Alike path files other (files.retiring path stage) (other.retiring path stage) := by
  cases stage with
  | begun => exact alike_refl
  | renamed logRemoved retiredRemoved =>
      intro file
      rw [retiring_renamed, retiring_renamed]
      by_cases retired : file = path.withExtension .retired
      · subst retired
        exact .inr ⟨by simp [same], rfl, fun _ unretired => absurd rfl unretired⟩
      · by_cases log : file = path.logPath
        · subst log
          by_cases removed : logRemoved = true
          · exact .inr ⟨by simp [retired, removed], rfl, fun _ _ => by
              simp [retired, removed, StateFile.NoRecord]⟩
          · by_cases atPath : path.logPath = path
            · exact .inr ⟨by simp only [same, sameLog], rfl, fun elsewhere => absurd atPath elsewhere⟩
            · exact .inl ⟨by simp [retired, removed, atPath], by simp [retired, removed, atPath]⟩
        · by_cases atPath : file = path
          · subst atPath
            exact .inr ⟨by simp [retired, log], rfl, fun elsewhere => absurd rfl elsewhere⟩
          · exact .inl ⟨by simp [retired, log, atPath], by simp [retired, log, atPath]⟩

/-- An operation for the record at a path reads its file and its log, and nothing else. -/
theorem step_alike {operation : AgentOp} {reply : operation.Reply}
    (same : files path = other path) (sameLog : files path.logPath = other path.logPath)
    (performed : Step toVec files (.at path operation) reply after) :
    ∃ otherAfter, Step toVec other (.at path operation) reply otherAfter ∧
      Alike path files other after otherAfter := by
  cases operation with
  | readSpool =>
      rcases performed with ⟨rfl, read⟩
      exact ⟨other, ⟨rfl, by rwa [← same]⟩, alike_refl⟩
  | spoolExists =>
      rcases performed with ⟨rfl, present⟩
      exact ⟨other, ⟨rfl, by rwa [← same]⟩, alike_refl⟩
  | writeSpool record =>
      rcases performed with rfl | ⟨failed, rfl | ⟨length, short, rfl⟩⟩
      · exact ⟨_, .inl rfl, alike_writing_renamed⟩
      · exact ⟨other, .inr ⟨failed, .inl rfl⟩, alike_refl⟩
      · exact ⟨_, .inr ⟨failed, .inr ⟨length, short, rfl⟩⟩, alike_writing_filling short⟩
  | retireSpool =>
      rcases performed with ⟨present, rfl⟩ | ⟨failed, rfl | ⟨present, stage, rfl⟩⟩
      · exact ⟨_, .inl ⟨by rwa [← same], rfl⟩, alike_retiring same sameLog _⟩
      · exact ⟨other, .inr ⟨failed, .inl rfl⟩, alike_refl⟩
      · exact ⟨_, .inr ⟨failed, .inr ⟨by rwa [← same], stage, rfl⟩⟩,
          alike_retiring same sameLog stage⟩
  | logLength =>
      rcases performed with ⟨rfl, length⟩
      exact ⟨other, ⟨rfl, by rwa [← sameLog]⟩, alike_refl⟩
  | readLog offset length =>
      rcases performed with ⟨rfl, chunk⟩
      exact ⟨other, ⟨rfl, by rwa [← sameLog]⟩, alike_refl⟩
  | _ =>
      cases performed
      exact ⟨other, rfl, alike_refl⟩

end SpoolFiles

/-! ## Following a start from another directory -/

/-- The operations of a visit to files that are not noise. -/
def SpoolOp.Audible (noise : List SpoolPath) (operation : SpoolOp) : Prop :=
  ∃ path ∉ noise, path.extension ≠ .retired ∧ (∃ inner, operation = .at path inner) ∨
    path.extension = .retired ∧
      (operation = .removeFile path.logPath ∨ operation = .removeFile path)

section Disguise

variable (config : AgentConfig) (toVec : SpoolRecord → List UInt8)

/-- The runs of a visit. -/
abbrev SpoolRun {α : Type} (program : SpoolProgram α) :=
  program.Observes (SpoolFiles.Step toVec) SpoolOp.observe

/--
A relation between directories that the agent cannot tell apart: an operation on
a file outside the noise has the same answers on both sides, and a visit of
`recover` to a file of the noise shows nothing and keeps the relation.
-/
structure Disguise (noise : List SpoolPath) (related : SpoolFiles → SpoolFiles → Prop) :
    Prop where
  nodup : noise.Nodup
  absent : ∀ {files other}, related files other → ∀ path ∈ noise, path.extension = .json →
    files path = none
  symm : ∀ {files other}, related files other → related other files
  trans : ∀ {first second third}, related first second → related second third →
    related first third
  listed : ∀ {files other}, related files other → ∀ path ∉ noise,
    (files path).isSome = (other path).isSome
  follows : ∀ files other operation reply after, related files other →
    SpoolOp.Audible noise operation → SpoolFiles.Step toVec files operation reply after →
      ∃ otherAfter, SpoolFiles.Step toVec other operation reply otherAfter ∧
        related after otherAfter
  quiet : ∀ path ∈ noise, ∀ {files other seen after}, related files other →
    SpoolRun toVec (SpoolVisit.recoverFile config path) files seen () after →
      seen = [] ∧ related after other
  idle : ∀ path ∈ noise, ∀ {files other}, related files other →
    ∃ after, SpoolRun toVec (SpoolVisit.recoverFile config path) files [] () after ∧
      related after other

end Disguise

namespace SpoolVisit

variable {config : AgentConfig} {toVec : SpoolRecord → List UInt8} {noise : List SpoolPath}
  {related : SpoolFiles → SpoolFiles → Prop} {files other after : SpoolFiles}
  {seen : List SpoolEvent}

theorem every_at {α : Type} (program : AgentProgram α) {path : SpoolPath} (outside : path ∉ noise)
    (unretired : path.extension ≠ .retired) :
    (AgentProgram.at program path).Every (SpoolOp.Audible noise) fun _ => True :=
  (Program.every_true program).relabel _ _ fun inner _ =>
    ⟨path, outside, .inl ⟨unretired, inner, rfl⟩⟩

theorem every_recoverFile {path : SpoolPath} (outside : path ∉ noise) :
    (recoverFile config path).Every (SpoolOp.Audible noise) fun _ => True := by
  unfold recoverFile
  split
  next retired =>
    exact ⟨⟨path, outside, .inr ⟨retired, .inl rfl⟩⟩, fun _ =>
      ⟨⟨path, outside, .inr ⟨retired, .inr rfl⟩⟩, fun _ => trivial⟩⟩
  next unretired => exact every_at _ outside unretired

/-- Only what is done for a record is seen, and that is not done for a retired one. -/
def Shown (noise : List SpoolPath) (event : SpoolEvent) : Prop :=
  event.path ∉ noise ∧ event.path.extension ≠ .retired

theorem shown_observe (operation : SpoolOp) (reply : operation.Reply)
    (audible : operation.Audible noise) :
    ∀ event ∈ SpoolOp.observe operation reply, Shown noise event := by
  rcases audible with ⟨path, outside, ⟨unretired, inner, rfl⟩ | ⟨_, rfl | rfl⟩⟩
  · intro event shown
    have same : event.path = path := by
      unfold SpoolOp.observe at shown
      split at shown <;> simp_all
    rw [Shown, same]
    exact ⟨outside, unretired⟩
  · simp [SpoolOp.observe]
  · simp [SpoolOp.observe]

/-- A visit to a file, as `recover` or `reconcile_all` makes it. -/
structure Visits (noise : List SpoolPath) (related : SpoolFiles → SpoolFiles → Prop)
    (toVec : SpoolRecord → List UInt8) (select : SpoolPath → Bool)
    (visit : SpoolPath → SpoolProgram Unit) : Prop where
  every : ∀ path ∉ noise, select path = true →
    (visit path).Every (SpoolOp.Audible noise) fun _ => True
  quiet : ∀ path ∈ noise, select path = true → ∀ {files other seen after}, related files other →
    SpoolRun toVec (visit path) files seen () after → seen = [] ∧ related after other
  idle : ∀ path ∈ noise, select path = true → ∀ {files other}, related files other →
    ∃ after, SpoolRun toVec (visit path) files [] () after ∧ related after other

variable {select : SpoolPath → Bool} {visit : SpoolPath → SpoolProgram Unit}

/-- The loop without its visits to the noise. -/
theorem each_forget (disguise : Disguise config toVec noise related)
    (visits : Visits noise related toVec select visit) {paths : List SpoolPath}
    (selected : ∀ path ∈ paths, select path = true) (start : related files other)
    (run : SpoolRun toVec (each visit paths) files seen () after) :
    (∃ otherAfter, SpoolRun toVec (each visit (paths.filter (· ∉ noise))) other seen () otherAfter ∧
      related after otherAfter) ∧ ∀ event ∈ seen, Shown noise event := by
  induction paths generalizing files other seen with
  | nil =>
      cases run
      exact ⟨⟨other, .pure () other, start⟩, by simp⟩
  | cons path rest ih =>
      rcases Program.Observes.of_bind run with ⟨first, second, ⟨⟩, middle, rfl, visited, looped⟩
      have selectedRest : ∀ path ∈ rest, select path = true :=
        fun path among => selected path (List.mem_cons_of_mem _ among)
      by_cases inside : path ∈ noise
      · rcases visits.quiet path inside (selected path List.mem_cons_self) start visited with
          ⟨rfl, kept⟩
        simpa [inside] using ih selectedRest kept looped
      · have every := visits.every path inside (selected path List.mem_cons_self)
        rcases visited.simulate disguise.follows every start with ⟨otherMiddle, followed, kept⟩
        rcases ih selectedRest kept looped with ⟨⟨otherAfter, rest, final⟩, shown⟩
        refine ⟨⟨otherAfter, ?_, final⟩, ?_⟩
        · rw [List.filter_cons_of_pos (by simpa using inside)]
          exact followed.bind rest
        · intro event among
          rcases List.mem_append.mp among with now | later
          · exact visited.forall_seen shown_observe every event now
          · exact shown event later

/-- The loop with visits to the noise between the others. -/
theorem each_insert (disguise : Disguise config toVec noise related)
    (visits : Visits noise related toVec select visit) {paths : List SpoolPath}
    (selected : ∀ path ∈ paths, select path = true) (start : related files other)
    (run : SpoolRun toVec (each visit (paths.filter (· ∉ noise))) files seen () after) :
    ∃ otherAfter, SpoolRun toVec (each visit paths) other seen () otherAfter ∧
      related after otherAfter := by
  induction paths generalizing files other seen with
  | nil =>
      cases run
      exact ⟨other, .pure () other, start⟩
  | cons path rest ih =>
      have selectedRest : ∀ path ∈ rest, select path = true :=
        fun path among => selected path (List.mem_cons_of_mem _ among)
      by_cases inside : path ∈ noise
      · rw [List.filter_cons_of_neg (by simpa using inside)] at run
        rcases visits.idle path inside (selected path List.mem_cons_self)
          (disguise.symm start) with ⟨middle, visited, kept⟩
        rcases ih selectedRest (disguise.symm kept) run with ⟨otherAfter, rest, final⟩
        exact ⟨otherAfter, visited.bind rest, final⟩
      · rw [List.filter_cons_of_pos (by simpa using inside)] at run
        rcases Program.Observes.of_bind run with ⟨first, second, ⟨⟩, middle, rfl, visited, looped⟩
        have every := visits.every path inside (selected path List.mem_cons_self)
        rcases visited.simulate disguise.follows every start with
          ⟨otherMiddle, followed, kept⟩
        rcases ih selectedRest kept looped with ⟨otherAfter, rest, final⟩
        exact ⟨otherAfter, followed.bind rest, final⟩

/-- A listing of one directory gives one of the other, the same outside the noise. -/
theorem lists_other (disguise : Disguise config toVec noise related) (start : related files other)
    {paths : List SpoolPath} (lists : files.Lists paths) :
    ∃ otherPaths, other.Lists otherPaths ∧
      otherPaths.filter (· ∉ noise) = paths.filter (· ∉ noise) := by
  refine ⟨noise.filter (fun path => (other path).isSome) ++ paths.filter (· ∉ noise), ⟨?_, ?_⟩, ?_⟩
  · apply List.Nodup.append (disguise.nodup.filter _) (lists.1.filter _)
    intro path inside outside
    simp only [List.mem_filter, decide_eq_true_eq] at inside outside
    exact outside.2 inside.1
  · intro path
    have listed := lists.2 path
    by_cases inside : path ∈ noise
    · simp [inside]
    · simp [inside, listed, disguise.listed start path inside]
  · simp only [List.filter_append, List.filter_filter, Bool.and_self]
    rw [List.filter_eq_nil_iff.mpr (by simp +contextual), List.nil_append]

theorem overFiles_follows (disguise : Disguise config toVec noise related)
    (visits : Visits noise related toVec select visit) (start : related files other)
    (run : SpoolRun toVec (overFiles select visit) files seen () after) :
    (∃ otherAfter, SpoolRun toVec (overFiles select visit) other seen () otherAfter ∧
      related after otherAfter) ∧ ∀ event ∈ seen, Shown noise event := by
  rcases Program.Observes.of_bind run with ⟨first, second, listed, middle, rfl, read, looped⟩
  cases read with
  | perform performed done =>
      cases done
      rcases performed with ⟨rfl, ⟨message, rfl⟩ | ⟨paths, rfl, lists⟩⟩
      · cases looped
        refine ⟨⟨other, ?_, start⟩, by simp [SpoolOp.observe]⟩
        exact .perform ⟨rfl, .inl ⟨message, rfl⟩⟩ (.pure () other)
      · have selected : ∀ paths : List SpoolPath, ∀ path ∈ paths.filter select, select path = true :=
          fun paths path among => (List.mem_filter.mp among).2
        rcases each_forget disguise visits (selected paths) start looped with
          ⟨⟨between, forgotten, kept⟩, shown⟩
        rcases lists_other disguise start lists with ⟨otherPaths, otherLists, same⟩
        have commuted : (otherPaths.filter select).filter (· ∉ noise) =
            (paths.filter select).filter (· ∉ noise) := by
          rw [List.filter_comm, same, List.filter_comm]
        rw [← commuted] at forgotten
        rcases each_insert disguise visits (selected otherPaths)
          (disguise.trans (disguise.symm start) start) forgotten with ⟨otherAfter, inserted, final⟩
        refine ⟨⟨otherAfter, ?_, ?_⟩, by simpa [SpoolOp.observe] using shown⟩
        · exact .perform ⟨rfl, .inr ⟨otherPaths, rfl, otherLists⟩⟩ inserted
        · exact disguise.trans kept final

/-- A missing file is passed over. -/
theorem reconcileAll_quiet {path : SpoolPath} (absent : files path = none)
    (run : SpoolRun toVec (AgentProgram.at (Service.reconcileAll config) path) files seen ()
      after) : seen = [] ∧ after = files := by
  cases run with
  | perform performed rest =>
      rcases performed with ⟨rfl, ⟨record, readable, _⟩ | ⟨message, rfl⟩⟩
      · simp [absent] at readable
      · cases rest
        exact ⟨rfl, rfl⟩

theorem reconcileAll_idle {path : SpoolPath} :
    SpoolRun toVec (AgentProgram.at (Service.reconcileAll config) path) files [] () files := by
  have failed : SpoolFiles.Step toVec files (.at path .readSpool) (.error "") files :=
    ⟨rfl, .inr ⟨"", rfl⟩⟩
  exact .unseen failed rfl (.pure () files)

theorem recover_visits (disguise : Disguise config toVec noise related) :
    Visits noise related toVec (fun _ => true) (recoverFile config) where
  every := fun _ outside _ => every_recoverFile outside
  quiet := fun path inside _ => disguise.quiet path inside
  idle := fun path inside _ => disguise.idle path inside

theorem reconcileAll_visits (disguise : Disguise config toVec noise related) :
    Visits noise related toVec (fun path => path.extension == .json)
      (AgentProgram.at (Service.reconcileAll config)) where
  every := fun path outside selected => by
    refine every_at _ outside ?_
    simp only [beq_iff_eq] at selected
    simp [selected]
  quiet := by
    intro path inside selected files other seen after start run
    have absent := disguise.absent start path inside (by simpa using selected)
    rcases reconcileAll_quiet absent run with ⟨rfl, rfl⟩
    exact ⟨rfl, start⟩
  idle := fun path _ _ files _ start => ⟨files, reconcileAll_idle, start⟩

theorem rounds_follows (disguise : Disguise config toVec noise related) (count : ℕ)
    (start : related files other) (run : SpoolRun toVec (rounds config count) files seen () after) :
    (∃ otherAfter, SpoolRun toVec (rounds config count) other seen () otherAfter ∧
      related after otherAfter) ∧ ∀ event ∈ seen, Shown noise event := by
  induction count generalizing files other seen with
  | zero =>
      cases run
      exact ⟨⟨other, .pure () other, start⟩, by simp⟩
  | succ count ih =>
      rcases Program.Observes.of_bind run with ⟨first, second, ⟨⟩, middle, rfl, visited, looped⟩
      rcases overFiles_follows disguise (reconcileAll_visits disguise) start visited with
        ⟨⟨otherMiddle, followed, kept⟩, shownFirst⟩
      rcases ih kept looped with ⟨⟨otherAfter, rest, final⟩, shown⟩
      refine ⟨⟨otherAfter, followed.bind rest, final⟩, ?_⟩
      intro event among
      exact (List.mem_append.mp among).elim (shownFirst event) (shown event)

theorem restart_follows (disguise : Disguise config toVec noise related) {count : ℕ}
    (start : related files other) (shows : files.Shows config toVec count seen) :
    other.Shows config toVec count seen ∧ ∀ event ∈ seen, Shown noise event := by
  rcases shows with ⟨after, run⟩
  rcases Program.Observes.of_bind run with ⟨first, second, ⟨⟩, middle, rfl, visited, looped⟩
  rcases overFiles_follows disguise (recover_visits disguise) start visited with
    ⟨⟨otherMiddle, followed, kept⟩, shownFirst⟩
  rcases rounds_follows disguise count kept looped with ⟨⟨otherAfter, rest, -⟩, shown⟩
  refine ⟨⟨otherAfter, followed.bind rest⟩, ?_⟩
  intro event among
  exact (List.mem_append.mp among).elim (shownFirst event) (shown event)

end SpoolVisit

/-! ## The two disguises -/

namespace SpoolFiles

variable {config : AgentConfig} {toVec : SpoolRecord → List UInt8} {stem : String}
  {files other after : SpoolFiles} {path : SpoolPath} {seen : List SpoolEvent}

/-- A file that is no record is passed over. -/
theorem recoverFile_quiet (unretired : path.extension ≠ .retired)
    (unreadable : StateFile.NoRecord (files path))
    (run : SpoolRun toVec (SpoolVisit.recoverFile config path) files seen () after) :
    seen = [] ∧ after = files := by
  rw [SpoolVisit.recoverFile, if_neg unretired] at run
  cases run with
  | perform performed rest =>
      rcases performed with ⟨rfl, ⟨record, readable, _⟩ | ⟨message, rfl⟩⟩
      · exact absurd readable (unreadable record)
      · cases rest
        exact ⟨rfl, rfl⟩

theorem recoverFile_idle (unretired : path.extension ≠ .retired) :
    SpoolRun toVec (SpoolVisit.recoverFile config path) files [] () files := by
  rw [SpoolVisit.recoverFile, if_neg unretired]
  have failed : Step toVec files (.at path .readSpool) (.error "") files := ⟨rfl, .inr ⟨"", rfl⟩⟩
  exact .unseen failed rfl (.pure () files)

/-- The same record, log and retired file, with temporary files that are no records. -/
structure Twin (stem : String) (files other : SpoolFiles) : Prop where
  same : ∀ path, path ≠ ⟨stem, .tmp⟩ → files path = other path
  log : StateFile.NoRecord (files ⟨stem, .log⟩)
  tmp : StateFile.NoRecord (files ⟨stem, .tmp⟩)
  otherTmp : StateFile.NoRecord (other ⟨stem, .tmp⟩)

/-- No state file on either side, and nothing else that is a record. -/
structure Gone (stem : String) (files other : SpoolFiles) : Prop where
  same : ∀ path, path.stem ≠ stem → files path = other path
  state : files (statePath stem) = none
  otherState : other (statePath stem) = none
  tmp : StateFile.NoRecord (files ⟨stem, .tmp⟩)
  otherTmp : StateFile.NoRecord (other ⟨stem, .tmp⟩)
  log : StateFile.NoRecord (files ⟨stem, .log⟩)
  otherLog : StateFile.NoRecord (other ⟨stem, .log⟩)

theorem noRecord_remove (none : StateFile.NoRecord (files path)) (removed : SpoolPath) :
    StateFile.NoRecord (files.remove removed path) := by
  rw [remove_apply]
  split
  · simp [StateFile.NoRecord]
  · exact none

theorem Twin.symm (twin : Twin stem files other) : Twin stem other files where
  same := fun path elsewhere => (twin.same path elsewhere).symm
  log := by
    rw [← twin.same _ (by simp)]
    exact twin.log
  tmp := twin.otherTmp
  otherTmp := twin.tmp

theorem Twin.remove (twin : Twin stem files other) (removed : SpoolPath) :
    Twin stem (files.remove removed) (other.remove removed) where
  same := fun path elsewhere => by simp [twin.same path elsewhere]
  log := noRecord_remove twin.log removed
  tmp := noRecord_remove twin.tmp removed
  otherTmp := noRecord_remove twin.otherTmp removed

theorem Twin.alike {otherAfter : SpoolFiles} (twin : Twin stem files other)
    (outside : path ∉ ([⟨stem, .tmp⟩, ⟨stem, .log⟩] : List SpoolPath))
    (alike : Alike path files other after otherAfter) : Twin stem after otherAfter := by
  simp only [List.mem_cons, List.not_mem_nil, or_false, not_or] at outside
  have tmp : StateFile.NoRecord (after ⟨stem, .tmp⟩) ∧
      StateFile.NoRecord (otherAfter ⟨stem, .tmp⟩) := by
    rcases alike ⟨stem, .tmp⟩ with ⟨kept, otherKept⟩ | ⟨equal, -, single⟩
    · rw [kept, otherKept]
      exact ⟨twin.tmp, twin.otherTmp⟩
    · have none := single (Ne.symm outside.1) (by simp)
      exact ⟨none, equal ▸ none⟩
  refine ⟨?_, ?_, tmp.1, tmp.2⟩
  · intro file elsewhere
    rcases alike file with ⟨kept, otherKept⟩ | ⟨equal, -⟩
    · rw [kept, otherKept]
      exact twin.same file elsewhere
    · exact equal
  · rcases alike ⟨stem, .log⟩ with ⟨kept, -⟩ | ⟨-, -, single⟩
    · rw [kept]
      exact twin.log
    · exact single (Ne.symm outside.2) (by simp)

/-- A removal has the same answers where the file is the same. -/
theorem step_removeFile {reply : Except String Unit} (same : files path = other path)
    (performed : Step toVec files (.removeFile path) reply after) :
    Step toVec other (.removeFile path) reply other ∧ after = files ∨
      Step toVec other (.removeFile path) reply (other.remove path) ∧ after = files.remove path := by
  rcases performed with ⟨rfl, present, rfl⟩ | ⟨failed, rfl⟩
  · exact .inr ⟨.inl ⟨rfl, by rwa [← same], rfl⟩, rfl⟩
  · exact .inl ⟨.inr ⟨failed, rfl⟩, rfl⟩

theorem Twin.follows (twin : Twin stem files other) {operation : SpoolOp}
    {reply : operation.Reply}
    (audible : operation.Audible [⟨stem, .tmp⟩, ⟨stem, .log⟩])
    (performed : Step toVec files operation reply after) :
    ∃ otherAfter, Step toVec other operation reply otherAfter ∧ Twin stem after otherAfter := by
  have removal : ∀ {path : SpoolPath} {reply : Except String Unit}, path.extension ≠ .tmp →
      Step toVec files (.removeFile path) reply after →
        ∃ otherAfter, Step toVec other (.removeFile path) reply otherAfter ∧
          Twin stem after otherAfter := by
    intro path reply elsewhere performed
    have same := twin.same path (fun atTmp => elsewhere (by rw [atTmp]))
    rcases step_removeFile same performed with ⟨followed, rfl⟩ | ⟨followed, rfl⟩
    · exact ⟨other, followed, twin⟩
    · exact ⟨other.remove path, followed, twin.remove path⟩
  rcases audible with ⟨path, outside, ⟨_, inner, rfl⟩ | ⟨retired, rfl | rfl⟩⟩
  · have atPath : files path = other path :=
      twin.same path (fun atTmp => outside (by simp [atTmp]))
    have atLog : files path.logPath = other path.logPath :=
      twin.same _ (by simp [SpoolPath.logPath, SpoolPath.withExtension])
    rcases step_alike atPath atLog performed with ⟨otherAfter, followed, alike⟩
    exact ⟨otherAfter, followed, twin.alike outside alike⟩
  · exact removal (by simp [SpoolPath.logPath, SpoolPath.withExtension]) performed
  · exact removal (by simp [retired]) performed

/-- The temporary file and the log are noise while neither is a record. -/
theorem twin_disguise :
    Disguise config toVec [⟨stem, .tmp⟩, ⟨stem, .log⟩] (Twin stem) where
  nodup := by simp
  absent := by simp
  symm := Twin.symm
  trans := fun first second =>
    ⟨fun path elsewhere => (first.same path elsewhere).trans (second.same path elsewhere),
      first.log, first.tmp, second.otherTmp⟩
  listed := fun twin path outside => by
    rw [twin.same path (fun atTmp => outside (by simp [atTmp]))]
  follows := fun _ _ _ _ _ twin audible performed => twin.follows audible performed
  quiet := by
    intro path inside files other seen after twin run
    simp only [List.mem_cons, List.not_mem_nil, or_false] at inside
    rcases inside with rfl | rfl
    · rcases recoverFile_quiet (by simp) twin.tmp run with ⟨rfl, rfl⟩
      exact ⟨rfl, twin⟩
    · rcases recoverFile_quiet (by simp) twin.log run with ⟨rfl, rfl⟩
      exact ⟨rfl, twin⟩
  idle := by
    intro path inside files other twin
    simp only [List.mem_cons, List.not_mem_nil, or_false] at inside
    rcases inside with rfl | rfl
    · exact ⟨files, recoverFile_idle (by simp), twin⟩
    · exact ⟨files, recoverFile_idle (by simp), twin⟩

theorem Gone.symm (gone : Gone stem files other) : Gone stem other files where
  same := fun path elsewhere => (gone.same path elsewhere).symm
  state := gone.otherState
  otherState := gone.state
  tmp := gone.otherTmp
  otherTmp := gone.tmp
  log := gone.otherLog
  otherLog := gone.log

/-- Whatever happens to the other keys happens on both sides. -/
theorem Gone.elsewhere {otherAfter : SpoolFiles} (gone : Gone stem files other)
    (kept : ∀ path, path.stem = stem → after path = files path ∧ otherAfter path = other path)
    (equal : ∀ path, path.stem ≠ stem → after path = otherAfter path) :
    Gone stem after otherAfter where
  same := equal
  state := by
    rw [(kept (statePath stem) rfl).1]
    exact gone.state
  otherState := by
    rw [(kept (statePath stem) rfl).2]
    exact gone.otherState
  tmp := by
    rw [(kept ⟨stem, .tmp⟩ rfl).1]
    exact gone.tmp
  otherTmp := by
    rw [(kept ⟨stem, .tmp⟩ rfl).2]
    exact gone.otherTmp
  log := by
    rw [(kept ⟨stem, .log⟩ rfl).1]
    exact gone.log
  otherLog := by
    rw [(kept ⟨stem, .log⟩ rfl).2]
    exact gone.otherLog

/-- On one side files of the key may go. -/
theorem Gone.removed (gone : Gone stem files other) (atStem : path.stem = stem) :
    Gone stem (files.remove path) other where
  same := fun file elsewhere => by
    rw [remove_apply, if_neg (fun atPath => elsewhere (by rw [atPath, atStem]))]
    exact gone.same file elsewhere
  state := by simp [gone.state]
  otherState := gone.otherState
  tmp := noRecord_remove gone.tmp path
  otherTmp := gone.otherTmp
  log := noRecord_remove gone.log path
  otherLog := gone.otherLog

/-- All files of a key. -/
def keyFiles (stem : String) : List SpoolPath :=
  [statePath stem, ⟨stem, .tmp⟩, ⟨stem, .log⟩, ⟨stem, .retired⟩]

theorem mem_keyFiles : path ∈ keyFiles stem ↔ path.stem = stem := by
  rcases path with ⟨name, extension⟩
  cases extension <;> simp [keyFiles, statePath]

theorem Gone.follows (gone : Gone stem files other) {operation : SpoolOp}
    {reply : operation.Reply} (audible : operation.Audible (keyFiles stem))
    (performed : Step toVec files operation reply after) :
    ∃ otherAfter, Step toVec other operation reply otherAfter ∧ Gone stem after otherAfter := by
  have removal : ∀ {path : SpoolPath} {reply : Except String Unit}, path.stem ≠ stem →
      Step toVec files (.removeFile path) reply after →
        ∃ otherAfter, Step toVec other (.removeFile path) reply otherAfter ∧
          Gone stem after otherAfter := by
    intro path reply elsewhere performed
    rcases step_removeFile (gone.same path elsewhere) performed with
      ⟨followed, rfl⟩ | ⟨followed, rfl⟩
    · exact ⟨other, followed, gone⟩
    · refine ⟨other.remove path, followed, gone.elsewhere ?_ ?_⟩
      · intro file atStem
        have apart : file ≠ path := fun atPath => elsewhere (by rw [← atPath, atStem])
        simp [apart]
      · intro file apart
        simp [gone.same file apart]
  rcases audible with ⟨path, outside, audible⟩
  rw [mem_keyFiles] at outside
  rcases audible with ⟨_, inner, rfl⟩ | ⟨_, rfl | rfl⟩
  · rcases step_alike (gone.same path outside) (gone.same _ outside) performed with
      ⟨otherAfter, followed, alike⟩
    refine ⟨otherAfter, followed, gone.elsewhere ?_ ?_⟩
    · intro file atStem
      rcases alike file with kept | ⟨-, atPath, -⟩
      · exact kept
      · exact absurd (atPath ▸ atStem) outside
    · intro file apart
      rcases alike file with ⟨kept, otherKept⟩ | ⟨equal, -⟩
      · rw [kept, otherKept]
        exact gone.same file apart
      · exact equal
  · exact removal outside performed
  · exact removal outside performed

/-- Clearing away the retired file of a key shows nothing. -/
theorem Gone.cleared (gone : Gone stem files other) (retired : path.extension = .retired)
    (atStem : path.stem = stem)
    (run : SpoolRun toVec (SpoolVisit.recoverFile config path) files seen () after) :
    seen = [] ∧ Gone stem after other := by
  have removal : ∀ {files after : SpoolFiles} {reply : Except String Unit} (path : SpoolPath),
      Gone stem files other → path.stem = stem →
        Step toVec files (.removeFile path) reply after → Gone stem after other := by
    intro files after reply path gone atStem performed
    rcases performed with ⟨-, -, rfl⟩ | ⟨-, rfl⟩
    · exact gone.removed atStem
    · exact gone
  rw [SpoolVisit.recoverFile, if_pos retired] at run
  cases run with
  | perform first rest =>
      cases rest with
      | perform second rest =>
          cases rest
          exact ⟨rfl, removal _ (removal path.logPath gone atStem first) atStem second⟩

theorem recoverFile_cleared (retired : path.extension = .retired) :
    SpoolRun toVec (SpoolVisit.recoverFile config path) files [] () files := by
  rw [SpoolVisit.recoverFile, if_pos retired]
  have failed : ∀ path, Step toVec files (.removeFile path) (.error "") files :=
    fun _ => .inr ⟨⟨"", rfl⟩, rfl⟩
  exact .unseen (failed _) rfl (.unseen (failed _) rfl (.pure () files))

/-- Without a state file every file of a key is noise. -/
theorem gone_disguise : Disguise config toVec (keyFiles stem) (Gone stem) where
  nodup := by simp [keyFiles, statePath]
  absent := by
    intro files other gone path inside isState
    rw [mem_keyFiles] at inside
    have same : path = statePath stem := by
      rcases path with ⟨name, extension⟩
      simp_all [statePath]
    rw [same]
    exact gone.state
  symm := Gone.symm
  trans := fun first second =>
    ⟨fun path elsewhere => (first.same path elsewhere).trans (second.same path elsewhere),
      first.state, second.otherState, first.tmp, second.otherTmp, first.log, second.otherLog⟩
  listed := fun gone path outside => by
    rw [gone.same path (fun atStem => outside (mem_keyFiles.mpr atStem))]
  follows := fun _ _ _ _ _ gone audible performed => gone.follows audible performed
  quiet := by
    intro path inside files other seen after gone run
    have atStem := mem_keyFiles.mp inside
    by_cases retired : path.extension = .retired
    · exact gone.cleared retired atStem run
    · have unreadable : StateFile.NoRecord (files path) := by
        rcases path with ⟨name, extension⟩
        cases atStem
        cases extension
        · have state := gone.state
          simp only [statePath] at state
          simp [state, StateFile.NoRecord]
        · exact gone.tmp
        · exact gone.log
        · exact absurd rfl retired
      rcases recoverFile_quiet retired unreadable run with ⟨rfl, rfl⟩
      exact ⟨rfl, gone⟩
  idle := by
    intro path inside files other gone
    by_cases retired : path.extension = .retired
    · exact ⟨files, recoverFile_cleared retired, gone⟩
    · exact ⟨files, recoverFile_idle retired, gone⟩

theorem Twin.actsAs (twin : Twin stem files other) (unretired : files ⟨stem, .retired⟩ = none) :
    ActsAs config toVec stem files other where
  sole := by
    rintro ⟨name, extension⟩ record rfl visible readable
    cases extension
    · rfl
    · exact absurd readable (twin.tmp record)
    · exact absurd readable (twin.log record)
    · exact absurd rfl visible
  unretired := fun _ => unretired
  held := twin.same _ (by simp [statePath])
  behaviour := fun _ _ =>
    ⟨fun shows => (SpoolVisit.restart_follows twin_disguise twin shows).1,
      fun shows => (SpoolVisit.restart_follows twin_disguise twin.symm shows).1⟩
  through := by
    intro count seen shows event among atStem
    have shown := (SpoolVisit.restart_follows twin_disguise twin shows).2 event among
    rcases event with ⟨⟨name, extension⟩, operation, reply⟩
    cases atStem
    cases extension <;> simp_all [SpoolVisit.Shown, statePath]

theorem Gone.actsAs (gone : Gone stem files other) : ActsAs config toVec stem files other where
  sole := by
    rintro ⟨name, extension⟩ record rfl visible readable
    cases extension
    · rfl
    · exact absurd readable (gone.tmp record)
    · exact absurd readable (gone.log record)
    · exact absurd rfl visible
  unretired := fun present => by simp [gone.state] at present
  held := gone.state.trans gone.otherState.symm
  behaviour := fun _ _ =>
    ⟨fun shows => (SpoolVisit.restart_follows gone_disguise gone shows).1,
      fun shows => (SpoolVisit.restart_follows gone_disguise gone.symm shows).1⟩
  through := by
    intro count seen shows event among atStem
    have shown := (SpoolVisit.restart_follows gone_disguise gone shows).2 event among
    exact absurd (mem_keyFiles.mpr atStem) shown.1

/-! ## The crash points -/

theorem noRecord_none : StateFile.NoRecord none := by simp [StateFile.NoRecord]

/-- A directory that differs from a clean one in its temporary file. -/
theorem actsAs_of_tmp (same : ∀ path, path ≠ ⟨stem, .tmp⟩ → files path = other path)
    (tmp : StateFile.NoRecord (files ⟨stem, .tmp⟩))
    (otherTmp : StateFile.NoRecord (other ⟨stem, .tmp⟩))
    (log : StateFile.NoRecord (files ⟨stem, .log⟩))
    (single : files (statePath stem) = none ∨ files ⟨stem, .retired⟩ = none) :
    ActsAs config toVec stem files other := by
  rcases single with absent | unretired
  · refine Gone.actsAs ⟨fun path elsewhere => ?_, absent, ?_, tmp, otherTmp, log, ?_⟩
    · exact same path (fun atTmp => elsewhere (by rw [atTmp]))
    · rw [← same _ (by simp [statePath])]
      exact absent
    · rw [← same _ (by simp)]
      exact log
  · exact Twin.actsAs ⟨same, log, tmp, otherTmp⟩ unretired

theorem writing_self (record : SpoolRecord) (length : ℕ) :
    files.writing toVec (statePath stem) record (.filling length) ⟨stem, .tmp⟩ =
      some (filled toVec record length) := by
  simp [writing_filling, statePath, SpoolPath.withExtension]

theorem writing_elsewhere {record : SpoolRecord} {length : ℕ} (elsewhere : path ≠ ⟨stem, .tmp⟩) :
    files.writing toVec (statePath stem) record (.filling length) path = files path := by
  simp [writing_filling, statePath, SpoolPath.withExtension, elsewhere]

theorem retiring_log {logRemoved retiredRemoved : Bool} :
    files.retiring (statePath stem) (.renamed logRemoved retiredRemoved) ⟨stem, .log⟩ =
      if logRemoved = true then none else files ⟨stem, .log⟩ := by
  simp [retiring_renamed, statePath, SpoolPath.withExtension, SpoolPath.logPath]

end SpoolFiles

namespace SpoolCrash

variable {config : AgentConfig} {toVec : SpoolRecord → List UInt8} {files : SpoolFiles}
  {stem : String} {crash : SpoolCrash}

open SpoolFiles

theorem Harmless.atomic (harmless : crash.Harmless toVec files stem) :
    crash.Atomic config toVec files stem := by
  have removed : ∀ files : SpoolFiles, StateFile.NoRecord (files.remove ⟨stem, .tmp⟩ ⟨stem, .tmp⟩) := by
    simp [StateFile.NoRecord]
  have unmoved : ∀ files : SpoolFiles, ∀ path, path ≠ ⟨stem, .tmp⟩ →
      files path = files.remove ⟨stem, .tmp⟩ path := by
    intro files path elsewhere
    rw [remove_apply, if_neg elsewhere]
  cases crash with
  | write record stage =>
      cases stage with
      | begun =>
          rcases harmless with ⟨tmp, log, single⟩
          exact .inl (actsAs_of_tmp (unmoved files) tmp (removed files) log single)
      | filling length =>
          rcases harmless with ⟨short, log, single⟩
          refine .inl (actsAs_of_tmp (fun path elsewhere => ?_) ?_ (removed files) ?_ ?_)
          · exact (writing_elsewhere elsewhere).trans (unmoved files path elsewhere)
          · rw [left, writing_self]
            exact noRecord_filled short
          · rw [left, writing_elsewhere (by simp)]
            exact log
          · rw [left, writing_elsewhere (by simp [statePath]), writing_elsewhere (by simp)]
            exact single
      | renamed =>
          rcases harmless with ⟨log, unretired⟩
          refine .inr (actsAs_of_tmp (unmoved _) ?_ (removed _) ?_ (.inr ?_))
          · rw [left, writing_renamed]
            simp [statePath, SpoolPath.withExtension, StateFile.NoRecord]
          · rw [left, writing_renamed]
            simpa [statePath, SpoolPath.withExtension] using log
          · rw [left, writing_renamed]
            simpa [statePath, SpoolPath.withExtension] using unretired
  | retire stage =>
      cases stage with
      | begun =>
          rcases harmless with ⟨tmp, log, single⟩
          exact .inl (actsAs_of_tmp (unmoved files) tmp (removed files) log single)
      | renamed logRemoved retiredRemoved =>
          rcases harmless with ⟨tmp, log⟩
          have stateGone : ∀ logGone retiredGone : Bool,
              files.retiring (statePath stem) (.renamed logGone retiredGone) (statePath stem) =
                none := by
            simp [retiring_renamed, statePath, SpoolPath.withExtension, SpoolPath.logPath]
          refine .inr (Gone.actsAs ⟨?_, stateGone _ _, ?_, ?_, removed _, ?_, ?_⟩)
          · rintro ⟨name, extension⟩ elsewhere
            have apart : name ≠ stem := elsewhere
            simp [left, completed, retiring_renamed, statePath, SpoolPath.withExtension,
              SpoolPath.logPath, apart]
          · rw [remove_apply, completed, stateGone, ite_self]
          · simpa [left, retiring_renamed, statePath, SpoolPath.withExtension,
              SpoolPath.logPath] using tmp
          · rw [left, retiring_log]
            rcases log with removed | log
            · rw [if_pos removed]
              exact noRecord_none
            · split
              · exact noRecord_none
              · exact log
          · rw [completed]
            refine noRecord_remove ?_ _
            rw [retiring_log]
            exact noRecord_none

/-- Conversely, a file that should not be there is a second record of the key. -/
theorem harmless_of_actsAs {clean : SpoolFiles}
    (acts : ActsAs config toVec stem (crash.left toVec files stem) clean) :
    crash.Harmless toVec files stem := by
  have tmp : StateFile.NoRecord (crash.left toVec files stem ⟨stem, .tmp⟩) := by
    intro record readable
    have same := acts.sole _ record rfl (by simp) readable
    simp [statePath] at same
  have log : StateFile.NoRecord (crash.left toVec files stem ⟨stem, .log⟩) := by
    intro record readable
    have same := acts.sole _ record rfl (by simp) readable
    simp [statePath] at same
  have single : crash.left toVec files stem (statePath stem) = none ∨
      crash.left toVec files stem ⟨stem, .retired⟩ = none := by
    rw [← Option.not_isSome_iff_eq_none]
    exact or_iff_not_imp_left.mpr fun present => acts.unretired (not_not.mp present)
  cases crash with
  | write record stage =>
      cases stage with
      | begun => exact ⟨tmp, log, single⟩
      | filling length =>
          rw [left, writing_self] at tmp
          rw [left, writing_elsewhere (by simp)] at log
          rw [left, writing_elsewhere (by simp [statePath]), writing_elsewhere (by simp)] at single
          refine ⟨?_, log, single⟩
          by_contra complete
          exact tmp record (by rw [filled, if_neg complete])
      | renamed =>
          rw [left, writing_renamed] at log
          rw [left, writing_renamed, writing_renamed] at single
          refine ⟨?_, ?_⟩
          · simpa [statePath, SpoolPath.withExtension] using log
          · simpa [statePath, SpoolPath.withExtension] using single
  | retire stage =>
      cases stage with
      | begun => exact ⟨tmp, log, single⟩
      | renamed logRemoved retiredRemoved =>
          rw [left, retiring_log] at log
          refine ⟨?_, ?_⟩
          · simpa [left, retiring_renamed, statePath, SpoolPath.withExtension,
              SpoolPath.logPath] using tmp
          · by_cases removed : logRemoved = true
            · exact .inl removed
            · rw [if_neg removed] at log
              exact .inr log

end SpoolCrash

/--
For every spool directory and every point at which a crash cuts off a write or a
retirement of a key's record: a restart acts as it does without the temporary
file, on the old record or on the new one, exactly when the crash has left no
complete temporary file, no log that reads as a record and no retired file beside
the state file.
-/
theorem spool_crash_atomic_iff (config : AgentConfig) (toVec : SpoolRecord → List UInt8)
    (files : SpoolFiles) (stem : String) (crash : SpoolCrash) :
    crash.Atomic config toVec files stem ↔ crash.Harmless toVec files stem :=
  ⟨fun atomic => atomic.elim SpoolCrash.harmless_of_actsAs SpoolCrash.harmless_of_actsAs,
    SpoolCrash.Harmless.atomic⟩

namespace Sample

/-- A direct execution that runs, as the server knows. -/
def runningRecord : SpoolRecord :=
  { SpoolRecord.acceptedWithIdentity "run-1" 1 "sha256:1" none directSpec "2026-09-03T00:00:00Z" with
    state := .running
    sequence := 2
    acknowledgedSequence := 2
    startedAt := some "2026-09-03T00:00:01Z" }

/-- Its successful end. -/
def succeededRecord : SpoolRecord :=
  runningRecord.terminal .succeeded (some 0) none none "2026-09-03T00:10:00Z"

def toVec (_ : SpoolRecord) : List UInt8 := [123, 125]

/-- The spool directory of an agent with one execution. -/
def oneRecord : SpoolFiles := fun path =>
  if path = statePath "run-1-1" then some (.record runningRecord) else none

/-- The crash between the last byte of the temporary file and its rename. -/
def beforeRename : SpoolCrash := .write succeededRecord (.filling 2)

/-- The temporary file comes before the state file in a listing. -/
def listing (files : SpoolFiles) : List SpoolPath :=
  (SpoolFiles.keyFiles "run-1-1").reverse.filter fun path => (files path).isSome

/-- Every operation on the files of the execution succeeds, and so does every request. -/
def answer (files : SpoolFiles) : (operation : SpoolOp) → operation.Reply × SpoolFiles
  | .readDir => (.ok (listing files), files)
  | .removeFile path =>
      if (files path).isSome then (.ok (), files.remove path) else (.error "no such file", files)
  | .at path .readSpool =>
      match files path with
      | some (.record record) => (.ok record, files)
      | _ => (.error "no such file", files)
  | .at path .spoolExists => ((files path).isSome, files)
  | .at path (.writeSpool record) =>
      if path.stem = "run-1-1" then (.ok (), files.writing toVec path record .renamed)
      else (.error "no such file", files)
  | .at path .retireSpool =>
      if path.stem = "run-1-1" ∧ (files path).isSome then
        (.ok (), files.retiring path (.renamed true true))
      else (.error "no such file", files)
  | .at path .logLength =>
      (.ok ((files path.logPath).map fun file => (file.bytes toVec).length), files)
  | .at _ (.readLog _ _) => (.error "no such file", files)
  | .at _ operation => ((Disk.answer (fun _ => ⟨0, 0⟩) ⟨none, fun _ => none, []⟩ operation).1, files)

/-- The only files are those of the execution. -/
def OneKey (files : SpoolFiles) : Prop := ∀ path, path.stem ≠ "run-1-1" → files path = none

theorem OneKey.lists {files : SpoolFiles} (one : OneKey files) : files.Lists (listing files) := by
  refine ⟨List.Nodup.filter _ (by decide), fun path => ?_⟩
  rw [listing, List.mem_filter, List.mem_reverse, SpoolFiles.mem_keyFiles]
  by_cases atStem : path.stem = "run-1-1"
  · simp [atStem]
  · simp [atStem, one path atStem]

theorem step_answer (files : SpoolFiles) (operation : SpoolOp) (one : OneKey files) :
    SpoolFiles.Step toVec files operation (answer files operation).1 (answer files operation).2 ∧
      OneKey (answer files operation).2 := by
  cases operation with
  | readDir => exact ⟨⟨rfl, .inr ⟨_, rfl, one.lists⟩⟩, one⟩
  | removeFile path =>
      by_cases present : (files path).isSome = true
      · simp only [answer, present, if_true]
        refine ⟨.inl ⟨rfl, present, rfl⟩, fun file elsewhere => ?_⟩
        rw [SpoolFiles.remove_apply, one file elsewhere, ite_self]
      · simp only [answer, present]
        exact ⟨.inr ⟨⟨_, rfl⟩, rfl⟩, one⟩
  | «at» path operation =>
      cases operation with
      | readSpool =>
          simp only [answer]
          split
          next record readable => exact ⟨⟨rfl, .inl ⟨record, readable, rfl⟩⟩, one⟩
          · exact ⟨⟨rfl, .inr ⟨_, rfl⟩⟩, one⟩
      | writeSpool record =>
          by_cases atStem : path.stem = "run-1-1"
          · simp only [answer, atStem, if_true]
            refine ⟨.inl rfl, fun file elsewhere => ?_⟩
            have apart : file ≠ path := fun same => elsewhere (by rw [same, atStem])
            rw [SpoolFiles.writing_renamed, if_neg apart, one file elsewhere, ite_self]
          · simp only [answer, atStem, if_false]
            exact ⟨.inr ⟨⟨_, rfl⟩, .inl rfl⟩, one⟩
      | retireSpool =>
          by_cases present : path.stem = "run-1-1" ∧ (files path).isSome = true
          · simp only [answer, present, and_self, if_true]
            refine ⟨.inl ⟨present.2, rfl⟩, fun file elsewhere => ?_⟩
            have apart : file.stem ≠ path.stem := fun same => elsewhere (same.trans present.1)
            rw [SpoolFiles.retiring_renamed, one file elsewhere]
            simp only [if_true, ite_self]
          · simp only [answer, present, if_false]
            exact ⟨.inr ⟨⟨_, rfl⟩, .inl rfl⟩, one⟩
      | spoolExists => exact ⟨⟨rfl, rfl⟩, one⟩
      | logLength => exact ⟨⟨rfl, .inr rfl⟩, one⟩
      | readLog offset length => exact ⟨⟨rfl, .inl ⟨_, rfl⟩⟩, one⟩
      | _ => exact ⟨rfl, one⟩

/-- The event of a request, with the key it is sent for. -/
def posted : SpoolEvent → Option (String × ℕ × AttemptState)
  | ⟨path, .postEvent event, _⟩ => some (path.stem, event.eventSequence, event.state)
  | _ => none

/-- The restart after the crash, when all requests arrive. -/
def restarted : List SpoolEvent :=
  ((SpoolVisit.restart roomyConfig 1).respond SpoolOp.observe answer
    (beforeRename.left toVec oneRecord "run-1-1")).1

theorem shows_restarted :
    (beforeRename.left toVec oneRecord "run-1-1").Shows roomyConfig toVec 1 restarted := by
  have start : OneKey (beforeRename.left toVec oneRecord "run-1-1") := by
    intro path elsewhere
    have apart : path ≠ statePath "run-1-1" ∧ path ≠ ⟨"run-1-1", .tmp⟩ :=
      ⟨fun same => elsewhere (by rw [same]; rfl), fun same => elsewhere (by rw [same])⟩
    simp [beforeRename, SpoolCrash.left, SpoolFiles.writing_elsewhere apart.2, oneRecord, apart.1]
  exact ⟨_, Program.observes_respond step_answer _ start⟩

end Sample

/--
A crash before the rename leaves the running record and its successful end. The
restart reports the execution as succeeded from the temporary file, and as
interrupted from the state file, under the same sequence number.
-/
theorem complete_temporary_file_is_a_second_record :
    ¬Sample.beforeRename.Atomic Sample.roomyConfig Sample.toVec Sample.oneRecord "run-1-1" ∧
      ∃ seen, (Sample.beforeRename.left Sample.toVec Sample.oneRecord "run-1-1").Shows
          Sample.roomyConfig Sample.toVec 1 seen ∧
        seen.filterMap Sample.posted =
          [("run-1-1", 3, .succeeded), ("run-1-1", 3, .interrupted)] := by
  constructor
  · intro atomic
    have harmless : Sample.beforeRename.Harmless Sample.toVec Sample.oneRecord "run-1-1" :=
      atomic.elim SpoolCrash.harmless_of_actsAs SpoolCrash.harmless_of_actsAs
    exact absurd harmless.1 (by decide)
  · exact ⟨Sample.restarted, Sample.shows_restarted, by decide +kernel⟩

end LzuMirror
