import LzuMirror.Lib.Interleaving

/-!
# Programs that obey a protocol

A protocol is an automaton over operations and their replies that says in each of its
states which operations are permitted. A program obeys it when it asks for no other
operation, whatever the replies are.

In a pool every task may be at another state of the protocol. `Pool.Obeys.move` keeps
track of them, where what one task does leaves the others where they are.
-/

namespace LzuMirror

structure Protocol (Op : Type) (Reply : Op → Type) (Q : Type) where
  permits : Q → Op → Prop
  after : Q → (operation : Op) → Reply operation → Q

namespace Program

variable {Op : Type} {Reply : Op → Type} {Q α β : Type} (protocol : Protocol Op Reply Q)

/-- Only permitted operations are performed, and every end satisfies `post`. -/
def Obeys (post : α → Q → Prop) : Program Op Reply α → Q → Prop
  | .pure value, at_ => post value at_
  | .perform operation next, at_ => protocol.permits at_ operation ∧
      ∀ reply, (next reply).Obeys post (protocol.after at_ operation reply)

variable {protocol} {post : α → Q → Prop} {at_ : Q}

theorem obeys_bind {post : β → Q → Prop} {program : Program Op Reply α}
    {next : α → Program Op Reply β} :
    (program >>= next).Obeys protocol post at_ ↔
      program.Obeys protocol (fun value later => (next value).Obeys protocol post later) at_ := by
  change (program.bind next).Obeys protocol post at_ ↔ _
  induction program generalizing at_ with
  | pure value => exact Iff.rfl
  | perform operation rest ih => simp only [bind, Obeys, ih]

theorem Obeys.imp {weaker : α → Q → Prop} {program : Program Op Reply α}
    (obeys : program.Obeys protocol post at_)
    (implied : ∀ value later, post value later → weaker value later) :
    program.Obeys protocol weaker at_ := by
  induction program generalizing at_ with
  | pure value => exact implied value at_ obeys
  | perform operation rest ih => exact ⟨obeys.1, fun reply => ih reply (obeys.2 reply)⟩

/-- Operations that are permitted and leave the protocol where it is. -/
theorem Every.obeys {allowed : Op → Prop} {post : α → Prop} {program : Program Op Reply α}
    (every : program.Every allowed post)
    (stays : ∀ operation, allowed operation → protocol.permits at_ operation ∧
      ∀ reply, protocol.after at_ operation reply = at_) :
    program.Obeys protocol (fun value later => post value ∧ later = at_) at_ := by
  induction program with
  | pure value => exact ⟨every, rfl⟩
  | perform operation rest ih =>
      rcases stays operation every.1 with ⟨permitted, same⟩
      refine ⟨permitted, fun reply => ?_⟩
      rw [same reply]
      exact ih reply (every.2 reply)

/-- A state that permits everything and is never left. -/
theorem obeys_final (program : Program Op Reply α)
    (final : ∀ operation, protocol.permits at_ operation ∧
      ∀ reply, protocol.after at_ operation reply = at_) :
    program.Obeys protocol (fun _ later => later = at_) at_ :=
  (program.every_true.obeys fun operation _ => final operation).imp fun _ _ ends => ends.2

end Program

namespace Pool

variable {ι Op Q σ : Type} {Reply : Op → Type} [DecidableEq ι]
  {step : ι → Program.Semantics Op Reply σ} {starts : ι → Program Op Reply Unit → Prop}
  {protocol : Protocol Op Reply Q} {view : ι → σ → Q} {rest : Q → Prop}

/-- Every task obeys from where the shared state sees it. -/
def Obeys (protocol : Protocol Op Reply Q) (view : ι → σ → Q) (rest : Q → Prop)
    (pool : Pool ι Op Reply σ) : Prop :=
  ∀ task, (pool.tasks task).Obeys protocol (fun _ later => rest later) (view task pool.state)

theorem Obeys.move {pool after : Pool ι Op Reply σ}
    (sees : ∀ task before operation reply after, step task before operation reply after →
      view task after = protocol.after (view task before) operation reply ∧
        ∀ other, other ≠ task → view other after = view other before)
    (begins : ∀ task program at_, starts task program → rest at_ →
      program.Obeys protocol (fun _ later => rest later) at_)
    (obeys : pool.Obeys protocol view rest) (moved : Move step starts pool after) :
    after.Obeys protocol view rest := by
  intro other
  cases moved with
  | @perform task operation next reply state running performed =>
      rcases sees _ _ _ _ _ performed with ⟨own, others⟩
      by_cases same : other = task
      · have obeyed := obeys task
        rw [running] at obeyed
        simpa [same, own] using obeyed.2 reply
      · simpa [Function.update_of_ne same, others other same] using obeys other
  | @start task program idle started =>
      by_cases same : other = task
      · have rests := obeys task
        rw [idle] at rests
        simpa [same] using begins task program _ started rests
      · simpa [Function.update_of_ne same] using obeys other

end Pool

end LzuMirror
