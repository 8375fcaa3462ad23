import LzuMirror.Lib.Interleaving

/-!
# What is seen of a run

A complete run of a program shows a list of events, some operations showing
none. Two states have the same behaviour when the same lists can be seen from
both. `Observes.simulate` is the rule for that: a relation between states that
every allowed operation can follow with the same reply.

`Program.relabel` runs a program inside a larger set of operations.
-/

namespace LzuMirror

namespace Program

variable {Op : Type} {Reply : Op → Type} {α β σ Event : Type}

section Observes

variable (step : Semantics Op Reply σ)
  (observe : (operation : Op) → Reply operation → List Event)

/-- A complete run with the events it shows, its result and the state it leaves. -/
inductive Observes : Program Op Reply α → σ → List Event → α → σ → Prop where
  | pure (value : α) (state : σ) : Observes (.pure value) state [] value state
  | perform {operation : Op} {next : Reply operation → Program Op Reply α}
      {before after final : σ} {reply : Reply operation} {seen : List Event} {value : α}
      (performed : step before operation reply after)
      (rest : Observes (next reply) after seen value final) :
      Observes (.perform operation next) before (observe operation reply ++ seen) value final

variable {step observe}

theorem Observes.unseen {operation : Op} {next : Reply operation → Program Op Reply α}
    {before after final : σ} {reply : Reply operation} {seen : List Event} {value : α}
    (performed : step before operation reply after) (silent : observe operation reply = [])
    (rest : (next reply).Observes step observe after seen value final) :
    (Program.perform operation next).Observes step observe before seen value final := by
  have run := Observes.perform performed rest
  rwa [silent, List.nil_append] at run

theorem Observes.bind {program : Program Op Reply α} {next : α → Program Op Reply β}
    {before middle after : σ} {seen seenNext : List Event} {value : α} {result : β}
    (first : program.Observes step observe before seen value middle)
    (second : (next value).Observes step observe middle seenNext result after) :
    (program >>= next).Observes step observe before (seen ++ seenNext) result after := by
  induction first with
  | pure value state => exact second
  | perform performed rest ih =>
      rw [List.append_assoc]
      exact .perform performed (ih second)

/-- The run of a composed program is a run of its first part and one of its second. -/
theorem Observes.of_bind {program : Program Op Reply α} {next : α → Program Op Reply β}
    {before after : σ} {seen : List Event} {result : β}
    (run : (program >>= next).Observes step observe before seen result after) :
    ∃ seenFirst seenNext value middle, seen = seenFirst ++ seenNext ∧
      program.Observes step observe before seenFirst value middle ∧
      (next value).Observes step observe middle seenNext result after := by
  change (program.bind next).Observes step observe before seen result after at run
  induction program generalizing before seen with
  | pure value => exact ⟨[], seen, value, before, rfl, .pure value before, run⟩
  | perform operation rest ih =>
      cases run with
      | perform performed run =>
          rcases ih _ run with ⟨seenFirst, seenNext, value, middle, rfl, first, second⟩
          exact ⟨_, seenNext, value, middle, (List.append_assoc _ _ _).symm,
            .perform performed first, second⟩

/-- The simulation rule: the same replies are possible from the related state. -/
theorem Observes.simulate {related : σ → σ → Prop} {allowed : Op → Prop} {post : α → Prop}
    (steps : ∀ before other operation reply after, related before other → allowed operation →
      step before operation reply after →
        ∃ otherAfter, step other operation reply otherAfter ∧ related after otherAfter)
    {program : Program Op Reply α} {before other after : σ} {seen : List Event} {value : α}
    (every : program.Every allowed post) (start : related before other)
    (run : program.Observes step observe before seen value after) :
    ∃ otherAfter, program.Observes step observe other seen value otherAfter ∧
      related after otherAfter := by
  induction run generalizing other with
  | pure value state => exact ⟨other, .pure value other, start⟩
  | perform performed rest ih =>
      rcases steps _ _ _ _ _ start every.1 performed with ⟨middle, followed, related⟩
      rcases ih (every.2 _) related with ⟨otherAfter, run, final⟩
      exact ⟨otherAfter, .perform followed run, final⟩

/-- What is seen of a program comes from its operations. -/
theorem Observes.forall_seen {allowed : Op → Prop} {post : α → Prop} {shown : Event → Prop}
    (shows : ∀ operation reply, allowed operation → ∀ event ∈ observe operation reply, shown event)
    {program : Program Op Reply α} {before after : σ} {seen : List Event} {value : α}
    (every : program.Every allowed post)
    (run : program.Observes step observe before seen value after) : ∀ event ∈ seen, shown event := by
  induction run with
  | pure value state => simp
  | perform performed rest ih =>
      intro event shown
      rcases List.mem_append.mp shown with now | later
      · exact shows _ _ every.1 event now
      · exact ih (every.2 _) event later

section Answered

variable (observe) (answer : σ → (operation : Op) → Reply operation × σ)

/-- The run in which a function gives the answers. -/
def respond : Program Op Reply α → σ → List Event × α × σ
  | .pure value, state => ([], value, state)
  | .perform operation next, state =>
      let reply := (answer state operation).1
      let rest := (next reply).respond (answer state operation).2
      (observe operation reply ++ rest.1, rest.2)

variable {observe answer} {valid : σ → Prop}

theorem observes_respond
    (sound : ∀ state operation, valid state →
      step state operation (answer state operation).1 (answer state operation).2 ∧
        valid (answer state operation).2)
    (program : Program Op Reply α) {state : σ} (start : valid state) :
    program.Observes step observe state (program.respond observe answer state).1
      (program.respond observe answer state).2.1 (program.respond observe answer state).2.2 := by
  induction program generalizing state with
  | pure value => exact .pure value state
  | perform operation rest ih =>
      rcases sound state operation start with ⟨performed, kept⟩
      exact .perform performed (ih _ kept)

end Answered

end Observes

section Relabel

variable {Op' : Type} {Reply' : Op' → Type} (label : Op → Op')
  (answer : (operation : Op) → Reply' (label operation) → Reply operation)

/-- The same program with its operations under other names. -/
def relabel : Program Op Reply α → Program Op' Reply' α
  | .pure value => .pure value
  | .perform operation next =>
      .perform (label operation) fun reply => (next (answer operation reply)).relabel

theorem Every.relabel {inner : Op → Prop} {outer : Op' → Prop} {post : α → Prop}
    {program : Program Op Reply α} (every : program.Every inner post)
    (labels : ∀ operation, inner operation → outer (label operation)) :
    (program.relabel label answer).Every outer post := by
  induction program with
  | pure value => exact every
  | perform operation rest ih =>
      exact ⟨labels operation every.1, fun reply => ih _ (every.2 _)⟩

end Relabel

end Program

end LzuMirror
