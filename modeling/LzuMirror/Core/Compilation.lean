import LzuMirror.Core.Config

/-!
# What a compiled specification is made of

The parts of `compile_process_run_spec` by their equations, and the names that
it joins onto the roots: a mirror name and the name of an attempt are each one
normal component, and the latter determines the attempt.
-/

namespace LzuMirror

/-- The characters of a ULID. -/
def ulidAlphabet : List Char := "0123456789ABCDEFGHJKMNPQRSTVWXYZ".toList

/-- The texts `RunId` is displayed as. -/
def ulidText (value : String) : Bool :=
  decide (value.toList.length = 26) &&
    value.toList.all fun character => ulidAlphabet.contains character

section Names

theorem digit_of_mem_toString {number : ℕ} {character : Char}
    (member : character ∈ (toString number).toList) : character.isDigit = true := by
  have digits : (toString number).toList = Nat.toDigits 10 number := Nat.toList_repr
  rw [digits] at member
  exact Nat.isDigit_of_mem_toDigits (by omega) (by omega) member

theorem toString_injective {first second : ℕ}
    (same : (toString first).toList = (toString second).toList) : first = second := by
  have digits : Nat.toDigits 10 first = Nat.toDigits 10 second := by
    simpa [Nat.toString_eq_repr, Nat.toList_repr] using same
  rw [← @Nat.ofDigitChars_ten_toDigits first, digits, Nat.ofDigitChars_ten_toDigits]

theorem MirrorName.plain (name : MirrorName) : Path.Plain name.value.toList := by
  have valid := name.valid
  unfold validName at valid
  split at valid
  · cases valid
  next first rest spelled =>
    simp only [Bool.and_eq_true, decide_eq_true_eq] at valid
    rcases valid with ⟨⟨_, alphanumeric⟩, each⟩
    have notSlash : '/' ∉ first :: rest := by
      intro slash
      have allowed := List.all_eq_true.mp each '/' slash
      exact absurd allowed (by decide)
    have notDot : first ≠ '.' := by
      rintro rfl
      exact absurd alphanumeric (by decide)
    rw [spelled]
    exact ⟨by simp, notSlash, by simp [notDot], by simp [notDot]⟩

theorem noSlash_of_ulidText {runId : String} (ulid : ulidText runId = true) :
    '/' ∉ runId.toList := by
  simp only [ulidText, Bool.and_eq_true, List.all_eq_true] at ulid
  intro slash
  exact absurd (ulid.2 '/' slash) (by decide)

theorem attempt_plain {runId : String} (ulid : ulidText runId = true) (attemptNo : ℕ) :
    Path.Plain (runId ++ "-" ++ toString attemptNo).toList := by
  have dash : '-' ∈ (runId ++ "-" ++ toString attemptNo).toList := by simp
  refine ⟨?_, ?_, ?_, ?_⟩
  · exact List.ne_nil_of_mem dash
  · simp only [String.toList_append, List.mem_append, not_or]
    refine ⟨⟨noSlash_of_ulidText ulid, by decide⟩, fun slash => ?_⟩
    exact absurd (digit_of_mem_toString slash) (by decide)
  · intro dots
    rw [dots] at dash
    exact absurd dash (by decide)
  · intro dots
    rw [dots] at dash
    exact absurd dash (by decide)

/-- The directory name of an attempt determines the attempt. -/
theorem attempt_injective {first second : String} (firstUlid : ulidText first = true)
    (secondUlid : ulidText second = true) {firstNo secondNo : ℕ}
    (same : (first ++ "-" ++ toString firstNo).toList =
      (second ++ "-" ++ toString secondNo).toList) :
    first = second ∧ firstNo = secondNo := by
  simp only [ulidText, Bool.and_eq_true, decide_eq_true_eq] at firstUlid secondUlid
  simp only [String.toList_append, List.append_assoc] at same
  rcases List.append_inj same (firstUlid.1.trans secondUlid.1.symm) with ⟨runs, numbers⟩
  exact ⟨String.toList_inj.mp runs, toString_injective (List.append_cancel_left numbers)⟩

end Names

section Compiled

variable {document : MirrorDocument} {context : RunSpecContext} {spec : ProcessRunSpec}
  {publication : AtomicPublicationSpec}

theorem compiled_eq (compiled : compileProcessRunSpec document context = .ok spec) :
    ∃ section_, compilePublication document context
        (joinText context.mirrorRoot document.mirror.target) = .ok section_ ∧
      spec = processRunSpec document context
        (joinText context.mirrorRoot document.mirror.target) section_ := by
  simp only [compileProcessRunSpec] at compiled
  cases section_ : compilePublication document context
      (joinText context.mirrorRoot document.mirror.target) with
  | error reason =>
      rw [section_] at compiled
      cases compiled
  | ok publication =>
      rw [section_] at compiled
      cases compiled
      exact ⟨publication, rfl, rfl⟩

@[simp]
theorem processRunSpec_publication (published : String) (section_ : Option AtomicPublicationSpec) :
    (processRunSpec document context published section_).publication = section_ := by
  cases sync : document.sync <;> simp [processRunSpec]

@[simp]
theorem processRunSpec_targetDir (published : String) (section_ : Option AtomicPublicationSpec) :
    (processRunSpec document context published section_).targetDir =
      (section_.map (·.candidateDir)).getD published := by
  cases sync : document.sync <;> simp [processRunSpec]

@[simp]
theorem processRunSpec_runner (published : String) (section_ : Option AtomicPublicationSpec) :
    (processRunSpec document context published section_).runner = "process" := by
  cases sync : document.sync <;> simp [processRunSpec]

/-- The publication section of a compiled specification. -/
theorem compiled_publication (compiled : compileProcessRunSpec document context = .ok spec)
    (atomic : spec.publication = some publication) :
    ∃ publicationRoot, context.publicationRoot = some publicationRoot ∧
      publication = atomicPublicationSpec context publicationRoot
        (joinText context.mirrorRoot document.mirror.target) := by
  rcases compiled_eq compiled with ⟨section_, sectionOk, rfl⟩
  rw [processRunSpec_publication] at atomic
  subst atomic
  unfold compilePublication at sectionOk
  split at sectionOk
  · cases sectionOk
  · cases sectionOk
  next publicationRoot _ configured =>
    cases sectionOk
    exact ⟨publicationRoot, configured, rfl⟩

/-- An attempt writes into the published directory or into its private candidate. -/
theorem compiled_targetDir (compiled : compileProcessRunSpec document context = .ok spec) :
    spec.targetDir = joinText context.mirrorRoot document.mirror.target ∨
      ∃ publicationRoot, context.publicationRoot = some publicationRoot ∧
        spec.targetDir = (atomicPublicationSpec context publicationRoot
          (joinText context.mirrorRoot document.mirror.target)).candidateDir := by
  cases atomic : spec.publication with
  | none =>
      rcases compiled_eq compiled with ⟨section_, _, rfl⟩
      rw [processRunSpec_publication] at atomic
      simp [atomic]
  | some publication =>
      rcases compiled_publication compiled atomic with ⟨publicationRoot, configured, rfl⟩
      rcases compiled_eq compiled with ⟨section_, _, rfl⟩
      rw [processRunSpec_publication] at atomic
      exact .inr ⟨publicationRoot, configured, by simp [atomic]⟩

end Compiled

end LzuMirror
