import LzuMirror.Lib.Program
import Mathlib.Logic.Function.Basic

/-!
# Interleaved programs

A pool of tasks over one shared state. In each move one task performs its next
operation, or a task that has come to its end starts a new program. What an
operation does may depend on the task that performs it, as it does for locks.

`Pool.Secure.move` is the parallel rule: when what each task guarantees is what
the others rely on, the safety of the single programs is the safety of the pool.

`Program.Every` bounds the operations of a program whatever the answers are, and
`Safe.within` carries the safety of a program that runs alone over to a larger
state, in which the program is protected from interference.
-/

namespace LzuMirror

namespace Program

variable {Op : Type} {Reply : Op → Type} {α β : Type}

/-- Every operation of the program is allowed and every result satisfies `post`. -/
def Every (allowed : Op → Prop) (post : α → Prop) : Program Op Reply α → Prop
  | .pure value => post value
  | .perform operation next => allowed operation ∧ ∀ reply, (next reply).Every allowed post

theorem every_true (program : Program Op Reply α) :
    program.Every (fun _ => True) fun _ => True := by
  induction program with
  | pure value => trivial
  | perform operation rest ih => exact ⟨trivial, ih⟩

theorem Every.imp {allowed : Op → Prop} {post post' : α → Prop} {program : Program Op Reply α}
    (every : program.Every allowed post) (implied : ∀ value, post value → post' value) :
    program.Every allowed post' := by
  induction program with
  | pure value => exact implied value every
  | perform operation rest ih => exact ⟨every.1, fun reply => ih reply (every.2 reply)⟩

theorem Every.and {allowed other : Op → Prop} {post post' : α → Prop}
    {program : Program Op Reply α} (left : program.Every allowed post)
    (right : program.Every other post') :
    program.Every allowed fun value => post value ∧ post' value := by
  induction program with
  | pure value => exact ⟨left, right⟩
  | perform operation rest ih =>
      exact ⟨left.1, fun reply => ih reply (left.2 reply) (right.2 reply)⟩

theorem every_bind {allowed : Op → Prop} {post : β → Prop} {program : Program Op Reply α}
    {next : α → Program Op Reply β} :
    (program >>= next).Every allowed post ↔
      program.Every allowed fun value => (next value).Every allowed post := by
  change (program.bind next).Every allowed post ↔ _
  induction program with
  | pure value => exact Iff.rfl
  | perform operation rest ih =>
      simp only [bind, Every, ih]

/-! ## Programs whose replies are known -/

section Given

variable {given : (operation : Op) → Reply operation → Prop} {allowed : Op → Prop}

/-- Every operation is allowed as long as the replies are what is given. -/
def EveryGiven (given : (operation : Op) → Reply operation → Prop) (allowed : Op → Prop)
    (post : α → Prop) : Program Op Reply α → Prop
  | .pure value => post value
  | .perform operation next => allowed operation ∧ ∀ reply, given operation reply →
      (next reply).EveryGiven given allowed post

theorem Every.toGiven {post : α → Prop} {program : Program Op Reply α}
    (every : program.Every allowed post) : program.EveryGiven given allowed post := by
  induction program with
  | pure value => exact every
  | perform operation rest ih => exact ⟨every.1, fun reply _ => ih reply (every.2 reply)⟩

theorem EveryGiven.every {post : α → Prop} {program : Program Op Reply α}
    (every : program.EveryGiven (fun _ _ => True) allowed post) : program.Every allowed post := by
  induction program with
  | pure value => exact every
  | perform operation rest ih => exact ⟨every.1, fun reply => ih reply (every.2 reply trivial)⟩

theorem EveryGiven.imp {post post' : α → Prop} {program : Program Op Reply α}
    (every : program.EveryGiven given allowed post) (implied : ∀ value, post value → post' value) :
    program.EveryGiven given allowed post' := by
  induction program with
  | pure value => exact implied value every
  | perform operation rest ih =>
      exact ⟨every.1, fun reply told => ih reply (every.2 reply told)⟩

/-- More is known of the replies, and more is allowed. -/
theorem EveryGiven.weaken {known : (operation : Op) → Reply operation → Prop}
    {permitted : Op → Prop} {post : α → Prop} {program : Program Op Reply α}
    (every : program.EveryGiven given allowed post)
    (replies : ∀ operation reply, known operation reply → given operation reply)
    (operations : ∀ operation, allowed operation → permitted operation) :
    program.EveryGiven known permitted post := by
  induction program with
  | pure value => exact every
  | perform operation rest ih =>
      exact ⟨operations _ every.1, fun reply told => ih reply (every.2 reply (replies _ _ told))⟩

theorem everyGiven_bind {post : β → Prop} {program : Program Op Reply α}
    {next : α → Program Op Reply β} :
    (program >>= next).EveryGiven given allowed post ↔
      program.EveryGiven given allowed fun value => (next value).EveryGiven given allowed post := by
  change (program.bind next).EveryGiven given allowed post ↔ _
  induction program with
  | pure value => exact Iff.rfl
  | perform operation rest ih =>
      simp only [bind, EveryGiven, ih]

theorem everyGiven_ite {post : α → Prop} {condition : Prop} [Decidable condition]
    {first second : Program Op Reply α}
    (met : condition → first.EveryGiven given allowed post)
    (unmet : ¬condition → second.EveryGiven given allowed post) :
    (if condition then first else second).EveryGiven given allowed post := by
  split
  next holds => exact met holds
  next fails => exact unmet fails

/-- An invariant that gives the replies makes the program safe among others that keep it. -/
theorem EveryGiven.safe {σ : Type} {step : Semantics Op Reply σ}
    {rely guarantee : σ → σ → Prop} {invariant : σ → Prop} {post : α → Prop}
    (steps : ∀ before operation reply after, invariant before → allowed operation →
      step before operation reply after →
        (guarantee before after ∧ invariant after) ∧ given operation reply)
    {program : Program Op Reply α} {state : σ} (every : program.EveryGiven given allowed post) :
    program.Safe step rely guarantee invariant (fun value _ => post value) state := by
  induction program generalizing state with
  | pure value => exact every
  | perform operation rest ih =>
      intro before reply after _ valid performed
      rcases steps before operation reply after valid every.1 performed with ⟨kept, told⟩
      exact ⟨kept, ih reply (every.2 reply told)⟩

end Given

/-- A program whose operations all keep a frame is safe, whatever else it does. -/
theorem Every.safe {σ : Type} {step : Semantics Op Reply σ} {frame : σ → Prop}
    {allowed : Op → Prop} {rely guarantee : σ → σ → Prop} {invariant : σ → Prop}
    {post : α → Prop}
    (stable : ∀ state after, frame state → rely state after → frame after)
    (steps : ∀ before operation reply after, frame before → allowed operation →
      step before operation reply after →
        (guarantee before after ∧ invariant after) ∧ frame after)
    {program : Program Op Reply α} {state : σ} (every : program.Every allowed post)
    (framed : frame state) :
    program.Safe step rely guarantee invariant (fun value after => post value ∧ frame after)
      state := by
  induction program generalizing state with
  | pure value => exact ⟨every, framed⟩
  | perform operation rest ih =>
      intro before reply after relied _ performed
      rcases steps before operation reply after (stable _ _ framed relied) every.1 performed with
        ⟨kept, framedAfter⟩
      exact ⟨kept, ih reply (every.2 reply) framedAfter⟩

/-- What every allowed operation keeps holds wherever the program gets to. -/
theorem Every.of_reaches {σ : Type} {step : Semantics Op Reply σ} {frame : σ → Prop}
    {allowed : Op → Prop} {post : α → Prop}
    (steps : ∀ before operation reply after, frame before → allowed operation →
      step before operation reply after → frame after)
    {program rest : Program Op Reply α} {state after : σ} (every : program.Every allowed post)
    (framed : frame state) (reached : Reaches step (program, state) (rest, after)) :
    frame after := by
  have safe : program.Safe step Eq (fun _ _ => True) frame (fun value after => post value ∧ frame after)
      state := every.safe (fun _ _ framed same => same ▸ framed)
    (fun before operation reply after framed permitted performed =>
      have kept := steps before operation reply after framed permitted performed
      ⟨⟨trivial, kept⟩, kept⟩) framed
  exact (safe.of_reaches (fun _ => rfl) framed reached).2

/--
A program that is safe alone is safe in a larger state, as long as a frame
condition keeps the others away from the part it works on.
-/
theorem Safe.within {σ τ : Type} {inner : Semantics Op Reply τ} {outer : Semantics Op Reply σ}
    {view : σ → τ} {frame : σ → Prop} {allowed : Op → Prop} {valid : τ → Prop}
    {rely guarantee : σ → σ → Prop} {invariant : σ → Prop} {post : α → τ → Prop}
    {kept : α → Prop}
    (protected_ : ∀ state after, frame state → rely state after →
      view after = view state ∧ frame after)
    (steps : ∀ before operation reply after, frame before → allowed operation →
      valid (view before) → outer before operation reply after →
        inner (view before) operation reply (view after) ∧
          (valid (view after) → frame after ∧ guarantee before after ∧ invariant after))
    {program : Program Op Reply α} {state : σ}
    (safe : program.Safe inner Eq (fun _ _ => True) valid post (view state))
    (every : program.Every allowed kept) (valid_ : valid (view state)) (framed : frame state) :
    program.Safe outer rely guarantee invariant
      (fun value after => (post value (view after) ∧ kept value) ∧ valid (view after) ∧
        frame after) state := by
  induction program generalizing state with
  | pure value => exact ⟨⟨safe, every⟩, valid_, framed⟩
  | perform operation rest ih =>
      intro before reply after relied _ performed
      rcases protected_ state before framed relied with ⟨same, framedBefore⟩
      rw [← same] at safe valid_
      rcases steps before operation reply after framedBefore every.1 valid_ performed with
        ⟨innerStep, keeps⟩
      rcases safe _ _ _ rfl valid_ innerStep with ⟨⟨_, validAfter⟩, restSafe⟩
      rcases keeps validAfter with ⟨framedAfter, guaranteed, kept⟩
      exact ⟨⟨guaranteed, kept⟩, ih reply restSafe (every.2 reply) validAfter framedAfter⟩

end Program

/-- Tasks and the state they share. -/
structure Pool (ι Op : Type) (Reply : Op → Type) (σ : Type) where
  tasks : ι → Program Op Reply Unit
  state : σ

namespace Pool

variable {ι Op : Type} {Reply : Op → Type} {σ : Type} [DecidableEq ι]
  (step : ι → Program.Semantics Op Reply σ) (starts : ι → Program Op Reply Unit → Prop)

/-- One operation of one task, or the start of a program. -/
inductive Move : Pool ι Op Reply σ → Pool ι Op Reply σ → Prop where
  | perform {pool : Pool ι Op Reply σ} {task : ι} {operation : Op}
      {next : Reply operation → Program Op Reply Unit} {reply : Reply operation} {after : σ}
      (running : pool.tasks task = .perform operation next)
      (performed : step task pool.state operation reply after) :
      Move pool ⟨Function.update pool.tasks task (next reply), after⟩
  | start {pool : Pool ι Op Reply σ} {task : ι} {program : Program Op Reply Unit}
      (idle : pool.tasks task = .pure ()) (started : starts task program) :
      Move pool ⟨Function.update pool.tasks task program, pool.state⟩

/--
Every task is safe from where it is now, and leaves a state in which it may
`rest` when it comes to its end.
-/
structure Secure (rely guarantee : ι → σ → σ → Prop) (invariant : σ → Prop)
    (rest : ι → σ → Prop) (pool : Pool ι Op Reply σ) : Prop where
  valid : invariant pool.state
  safe : ∀ task, (pool.tasks task).Safe (step task) (rely task) (guarantee task) invariant
    (fun _ state => rest task state) pool.state

variable {step starts} {rely guarantee : ι → σ → σ → Prop} {invariant : σ → Prop}
  {rest : ι → σ → Prop}

/-- The parallel rule. -/
theorem Secure.move {pool after : Pool ι Op Reply σ}
    (reflexive : ∀ task state, rely task state state)
    (transitive : ∀ task a b c, rely task a b → rely task b c → rely task a c)
    (stable : ∀ task a b, rest task a → rely task a b → rest task b)
    (compatible : ∀ actor task before after, actor ≠ task → invariant before →
      guarantee actor before after → rely task before after)
    (startsSafe : ∀ task program state, starts task program → invariant state →
      rest task state → program.Safe (step task) (rely task) (guarantee task) invariant
        (fun _ state => rest task state) state)
    (secure : pool.Secure step rely guarantee invariant rest)
    (move : Move step starts pool after) : after.Secure step rely guarantee invariant rest := by
  cases move with
  | @perform actor operation next reply state running performed =>
      have actorSafe := secure.safe actor
      rw [running] at actorSafe
      rcases actorSafe _ _ _ (reflexive actor _) secure.valid performed with
        ⟨⟨guaranteed, kept⟩, restSafe⟩
      refine ⟨kept, fun task => ?_⟩
      by_cases same : task = actor
      · subst same
        simpa using restSafe
      · simp only [Function.update_of_ne same]
        exact (secure.safe task).stable (transitive task) (fun _ => stable task)
          (compatible actor task _ _ (Ne.symm same) secure.valid guaranteed)
  | @start starter program idle started =>
      refine ⟨secure.valid, fun task => ?_⟩
      by_cases same : task = starter
      · subst same
        have resting := secure.safe task
        rw [idle] at resting
        simpa using startsSafe task program _ started secure.valid resting
      · simpa only [Function.update_of_ne same] using secure.safe task

/-- What changes the shared state is a step that some task guarantees. -/
theorem Secure.guaranteed {pool after : Pool ι Op Reply σ}
    (reflexive : ∀ task state, rely task state state)
    (secure : pool.Secure step rely guarantee invariant rest) (move : Move step starts pool after) :
    after.state = pool.state ∨ ∃ task, guarantee task pool.state after.state := by
  cases move with
  | @perform actor operation next reply state running performed =>
      have actorSafe := secure.safe actor
      rw [running] at actorSafe
      have guaranteed := (actorSafe _ _ _ (reflexive actor _) secure.valid performed).1.1
      exact .inr ⟨actor, guaranteed⟩
  | start => exact .inl rfl

/-- One task runs while the others wait. -/
theorem moves_reaches {pool : Pool ι Op Reply σ} {task : ι} {program rest : Program Op Reply Unit}
    {after : σ} (running : pool.tasks task = program)
    (reached : Program.Reaches (step task) (program, pool.state) (rest, after)) :
    Relation.ReflTransGen (Move step starts) pool ⟨Function.update pool.tasks task rest, after⟩ := by
  generalize last : (rest, after) = configuration at reached
  induction reached generalizing rest after with
  | refl =>
      cases last
      rw [← running, Function.update_eq_self]
  | tail _ next ih =>
      cases next with
      | @perform operation following before _ reply performed =>
          cases last
          let middle : Pool ι Op Reply σ :=
            ⟨Function.update pool.tasks task (.perform operation following), before⟩
          have moved : Move step starts middle
              ⟨Function.update middle.tasks task (following reply), after⟩ :=
            .perform (Function.update_self ..) performed
          rw [Function.update_idem] at moved
          exact (ih rfl).tail moved

section Scheduled

variable (answer : ι → σ → (operation : Op) → Option (Reply operation × σ))

/-- The next operations of one task, answered by a function; `none` when it is blocked. -/
def runTask (task : ι) : ℕ → Pool ι Op Reply σ → Option (Pool ι Op Reply σ)
  | 0, pool => some pool
  | fuel + 1, pool =>
      match pool.tasks task with
      | .pure () => some pool
      | .perform operation next =>
          match answer task pool.state operation with
          | none => none
          | some (reply, after) =>
              runTask task fuel ⟨Function.update pool.tasks task (next reply), after⟩

variable {answer}

theorem move_runTask
    (sound : ∀ task state operation reply after,
      answer task state operation = some (reply, after) → step task state operation reply after)
    {task : ι} {fuel : ℕ} {pool after : Pool ι Op Reply σ}
    (ran : runTask answer task fuel pool = some after) :
    Relation.ReflTransGen (Move step starts) pool after := by
  induction fuel generalizing pool with
  | zero =>
      cases ran
      exact .refl
  | succ fuel ih =>
      rw [runTask] at ran
      split at ran
      · cases ran
        exact .refl
      next operation next running =>
        split at ran
        · cases ran
        next reply middle answered =>
          exact .head (.perform running (sound _ _ _ _ _ answered)) (ih ran)

/-- The other tasks play no part in it. -/
theorem reaches_runTask
    (sound : ∀ task state operation reply after,
      answer task state operation = some (reply, after) → step task state operation reply after)
    {task : ι} {fuel : ℕ} {pool after : Pool ι Op Reply σ}
    (ran : runTask answer task fuel pool = some after) :
    Program.Reaches (step task) (pool.tasks task, pool.state) (after.tasks task, after.state) := by
  induction fuel generalizing pool with
  | zero =>
      cases ran
      exact .refl
  | succ fuel ih =>
      rw [runTask] at ran
      split at ran
      · cases ran
        exact .refl
      next operation next running =>
        split at ran
        · cases ran
        next reply middle answered =>
          have reached := ih ran
          simp only [Function.update_self] at reached
          rw [running]
          exact .head (.perform (sound _ _ _ _ _ answered)) reached

end Scheduled

end Pool

end LzuMirror
