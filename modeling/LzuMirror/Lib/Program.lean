import Mathlib.Data.Nat.Notation
import Mathlib.Logic.Relation

/-!
# Effectful programs and interference

A program is a finite tree of operations: each operation is answered by the
environment and the answer selects the rest of the program. Nothing here fixes
what the operations are or what they do. A *semantics* is a relation
`step before operation reply after`, so failure, loss and delay are extra
replies of the same operation, and the same program text can be run with or
without them.

`Program.Safe` is the proof rule of the development. It says that a program,
started in a state and disturbed between any two of its operations by steps of
a `rely` relation, only makes steps of a `guarantee` relation and keeps an
invariant. A crash discards the rest of the program, so an invariant that holds
after every operation also holds wherever a crash happens.
-/

namespace LzuMirror

/-- A finite tree of operations with the replies that select its branches. -/
inductive Program (Op : Type) (Reply : Op → Type) (α : Type) where
  | pure (value : α)
  | perform (operation : Op) (next : Reply operation → Program Op Reply α)

namespace Program

variable {Op : Type} {Reply : Op → Type} {α β γ : Type}

/-- Sequential composition. -/
def bind (program : Program Op Reply α) (next : α → Program Op Reply β) :
    Program Op Reply β :=
  match program with
  | .pure value => next value
  | .perform operation rest => .perform operation fun reply => (rest reply).bind next

instance : Monad (Program Op Reply) where
  pure := .pure
  bind := .bind

theorem bind_pure_id (program : Program Op Reply α) : program.bind .pure = program := by
  induction program with
  | pure value => rfl
  | perform operation rest ih =>
      simp only [bind]
      congr 1
      funext reply
      exact ih reply

theorem bind_assoc (program : Program Op Reply α) (first : α → Program Op Reply β)
    (second : β → Program Op Reply γ) :
    (program.bind first).bind second = program.bind fun value => (first value).bind second := by
  induction program with
  | pure value => rfl
  | perform operation rest ih =>
      simp only [bind]
      congr 1
      funext reply
      exact ih reply

instance : LawfulMonad (Program Op Reply) :=
  LawfulMonad.mk' (Program Op Reply) bind_pure_id (fun _ _ => rfl) bind_assoc

/-- Whether the program has come to its end. -/
def isDone : Program Op Reply α → Bool
  | .pure _ => true
  | .perform _ _ => false

/-- The program that performs one operation and returns its reply. -/
def request (operation : Op) : Program Op Reply (Reply operation) :=
  .perform operation .pure

section Semantics

variable {σ : Type}

/-- What an operation may do: its reply and the state it leaves. -/
abbrev Semantics (Op : Type) (Reply : Op → Type) (σ : Type) :=
  σ → (operation : Op) → Reply operation → σ → Prop

/-- One operation of a running program. -/
inductive Next (step : Semantics Op Reply σ) :
    Program Op Reply α × σ → Program Op Reply α × σ → Prop where
  | perform {operation : Op} {next : Reply operation → Program Op Reply α}
      {before after : σ} {reply : Reply operation}
      (performed : step before operation reply after) :
      Next step (.perform operation next, before) (next reply, after)

/-- Running a program undisturbed, up to any of its operations. -/
abbrev Reaches (step : Semantics Op Reply σ) :
    Program Op Reply α × σ → Program Op Reply α × σ → Prop :=
  Relation.ReflTransGen (Next step)

/--
Safety of a program under interference. Before each operation the state may
change by `rely`; the operation itself must be a `guarantee` step that keeps
`invariant`, and the continuation must be safe afterwards.
-/
def Safe (step : Semantics Op Reply σ) (rely guarantee : σ → σ → Prop)
    (invariant : σ → Prop) (post : α → σ → Prop) : Program Op Reply α → σ → Prop
  | .pure value, state => post value state
  | .perform operation next, state =>
      ∀ before reply after, rely state before → invariant before →
        step before operation reply after →
          (guarantee before after ∧ invariant after) ∧
            (next reply).Safe step rely guarantee invariant post after

variable {step : Semantics Op Reply σ} {rely guarantee : σ → σ → Prop}
  {invariant : σ → Prop}

/-- The sequencing rule: the first program's postcondition is the safety of the second. -/
theorem safe_bind {post : β → σ → Prop} {program : Program Op Reply α}
    {next : α → Program Op Reply β} {state : σ} :
    (program >>= next).Safe step rely guarantee invariant post state ↔
      program.Safe step rely guarantee invariant
        (fun value after => (next value).Safe step rely guarantee invariant post after) state := by
  change (program.bind next).Safe step rely guarantee invariant post state ↔ _
  induction program generalizing state with
  | pure value => exact Iff.rfl
  | perform operation rest ih =>
      simp only [bind, Safe]
      apply forall_congr'
      intro before
      apply forall_congr'
      intro reply
      apply forall_congr'
      intro after
      simp only [ih]

/-- The sequencing rule for programs that return early on an error. -/
theorem safe_exceptBind {ε : Type} {post : Except ε β → σ → Prop}
    {program : ExceptT ε (Program Op Reply) α} {next : α → ExceptT ε (Program Op Reply) β}
    {state : σ} :
    (program >>= next).run.Safe step rely guarantee invariant post state ↔
      program.run.Safe step rely guarantee invariant
        (fun result after => match result with
          | .ok value => (next value).run.Safe step rely guarantee invariant post after
          | .error error => post (.error error) after) state := by
  rw [ExceptT.run_bind, safe_bind]
  apply iff_of_eq
  congr 1
  funext result after
  cases result <;> rfl

theorem safe_exceptLift {ε : Type} {post : Except ε α → σ → Prop} {program : Program Op Reply α}
    {state : σ} :
    (ExceptT.lift program : ExceptT ε (Program Op Reply) α).run.Safe step rely guarantee invariant
        post state ↔
      program.Safe step rely guarantee invariant (fun value => post (.ok value)) state :=
  safe_bind

/-- Weakening: a smaller rely, fewer steps, a larger guarantee and postcondition. -/
theorem Safe.mono {step' : Semantics Op Reply σ} {rely' guarantee' : σ → σ → Prop}
    {post post' : α → σ → Prop} {program : Program Op Reply α} {state : σ}
    (safe : program.Safe step rely guarantee invariant post state)
    (relyLe : ∀ before after, rely' before after → rely before after)
    (stepLe : ∀ before operation reply after, invariant before →
      step' before operation reply after → step before operation reply after)
    (guaranteeLe : ∀ before after, invariant before → invariant after →
      guarantee before after → guarantee' before after)
    (postLe : ∀ value after, post value after → post' value after) :
    program.Safe step' rely' guarantee' invariant post' state := by
  induction program generalizing state with
  | pure value => exact postLe value state safe
  | perform operation rest ih =>
      intro before reply after relied valid performed
      have ⟨⟨kept, validAfter⟩, restSafe⟩ := safe before reply after (relyLe _ _ relied) valid
        (stepLe _ _ _ _ valid performed)
      exact ⟨⟨guaranteeLe _ _ valid validAfter kept, validAfter⟩, ih reply restSafe⟩

theorem Safe.imp {post post' : α → σ → Prop} {program : Program Op Reply α} {state : σ}
    (safe : program.Safe step rely guarantee invariant post state)
    (postLe : ∀ value after, post value after → post' value after) :
    program.Safe step rely guarantee invariant post' state :=
  safe.mono (fun _ _ relied => relied) (fun _ _ _ _ _ performed => performed)
    (fun _ _ _ _ kept => kept) postLe

/-- A program that still has operations to perform tolerates interference. -/
theorem Safe.stable {post : α → σ → Prop} {program : Program Op Reply α} {state after : σ}
    (transitive : ∀ a b c, rely a b → rely b c → rely a c)
    (postStable : ∀ value a b, post value a → rely a b → post value b)
    (safe : program.Safe step rely guarantee invariant post state)
    (relied : rely state after) :
    program.Safe step rely guarantee invariant post after := by
  cases program with
  | pure value => exact postStable value state after safe relied
  | perform operation rest =>
      intro before reply final relied' valid performed
      exact safe before reply final (transitive _ _ _ relied relied') valid performed

/--
Soundness for a program that runs alone: every state it passes through, hence
every state a crash can leave, satisfies the invariant, and the operations are
guarantee steps.
-/
theorem Safe.of_reaches {post : α → σ → Prop} {program rest : Program Op Reply α}
    {state after : σ} (reflexive : ∀ a, rely a a)
    (safe : program.Safe step rely guarantee invariant post state) (valid : invariant state)
    (reached : Reaches step (program, state) (rest, after)) :
    rest.Safe step rely guarantee invariant post after ∧ invariant after := by
  generalize start : (program, state) = first at reached
  generalize stop : (rest, after) = last at reached
  induction reached generalizing rest after with
  | refl =>
      subst start
      obtain ⟨rfl, rfl⟩ := Prod.mk.inj stop
      exact ⟨safe, valid⟩
  | tail _ move ih =>
      cases move with
      | perform performed =>
          obtain ⟨rfl, rfl⟩ := Prod.mk.inj stop
          have ⟨middleSafe, middleValid⟩ := ih rfl
          have ⟨⟨_, validAfter⟩, restSafe⟩ :=
            middleSafe _ _ _ (reflexive _) middleValid performed
          exact ⟨restSafe, validAfter⟩

/-- A program goes on after its first part as it would without it. -/
theorem Reaches.bind {program rest : Program Op Reply α} {state after : σ}
    (reached : Reaches step (program, state) (rest, after)) (next : α → Program Op Reply β) :
    Reaches step (program >>= next, state) (rest >>= next, after) := by
  have lifted := reached.lift (fun configuration : Program Op Reply α × σ =>
    (configuration.1 >>= next, configuration.2)) (p := Next step) ?_
  · exact lifted
  · intro before after move
    cases move with
    | perform performed => exact .perform performed

section Answered

variable (answer : σ → (operation : Op) → Reply operation × σ)

/-- The first operations of a program, answered by a function. -/
def advance : ℕ → Program Op Reply α × σ → Program Op Reply α × σ
  | 0, configuration => configuration
  | _ + 1, (.pure value, state) => (.pure value, state)
  | fuel + 1, (.perform operation next, state) =>
      advance fuel (next (answer state operation).1, (answer state operation).2)

variable {answer} (sound : ∀ state operation,
  step state operation (answer state operation).1 (answer state operation).2)

include sound in
theorem reaches_advance (fuel : ℕ) (configuration : Program Op Reply α × σ) :
    Reaches step configuration (advance answer fuel configuration) := by
  induction fuel generalizing configuration with
  | zero => exact .refl
  | succ fuel ih =>
      rcases configuration with ⟨_ | ⟨operation, next⟩, state⟩
      · exact .refl
      · exact .head (.perform (sound state operation)) (ih _)

include sound in
/-- Programs are finite: one that is always answered runs to its end. -/
theorem exists_completion (program : Program Op Reply α) (state : σ) :
    ∃ value after, Reaches step (program, state) (.pure value, after) := by
  induction program generalizing state with
  | pure value => exact ⟨value, state, .refl⟩
  | perform operation rest ih =>
      rcases ih (answer state operation).1 (answer state operation).2 with ⟨value, after, reached⟩
      exact ⟨value, after, .head (.perform (sound state operation)) reached⟩

end Answered

end Semantics

end Program

end LzuMirror
