import LzuMirror.Core.Compilation
import LzuMirror.Lib.Registry

/-!
# The locks of the mirrors and of the logs

`MirrorLocks` of the agent and `log_locks` of the server are registries of locks:
`acquire` and `attempt_log_lock` sweep the map of weak references, take over or make the
lock of their key and wait for it. The other modules of this development take such a lock
for an entry of a table of holders; here both registries are shown to be such tables.
-/

namespace LzuMirror

/-- `MirrorLocks`, for the calls of `acquire`. -/
abbrev MirrorLocks (ι : Type) : Type := Registry ι String

/-- `AppState::log_locks`, for the calls of `attempt_log_lock`. -/
abbrev LogLocks (ι : Type) : Type := Registry ι String

/-- The key of `attempt_log_lock`. -/
def attemptLogKey (runId : String) (attempt : ℕ) : String := runId ++ "-" ++ toString attempt

theorem takeWhile_digits (number : ℕ) (rest : List Char) :
    ((toString number).toList.reverse ++ '-' :: rest).takeWhile Char.isDigit =
      (toString number).toList.reverse := by
  have digits : ∀ digit ∈ (toString number).toList.reverse, digit.isDigit = true := by
    intro digit member
    exact digit_of_mem_toString (List.mem_reverse.mp member)
  rw [List.takeWhile_append_of_pos digits]
  simp

/-- No digit is a hyphen, so the last hyphen ends the id, whatever the id is. -/
theorem attemptLogKey_inj {runId other : String} {attempt number : ℕ} :
    attemptLogKey runId attempt = attemptLogKey other number ↔
      runId = other ∧ attempt = number := by
  constructor
  · intro same
    have texts : (toString attempt).toList.reverse ++ '-' :: runId.toList.reverse =
        (toString number).toList.reverse ++ '-' :: other.toList.reverse := by
      have reversed := congrArg (fun text => text.toList.reverse) same
      simpa [attemptLogKey] using reversed
    have numbers := congrArg (List.takeWhile Char.isDigit) texts
    rw [takeWhile_digits, takeWhile_digits] at numbers
    rw [numbers, List.append_cancel_left_eq, List.cons.injEq] at texts
    exact ⟨String.toList_inj.mp (List.reverse_injective texts.2),
      toString_injective (List.reverse_injective numbers)⟩
  · rintro ⟨rfl, rfl⟩
    rfl

namespace Registry

variable {ι : Type} [DecidableEq ι]

/-- A registry from which a table of locks cannot be told. -/
structure IsTable (locks : Registry ι String) : Prop where
  turns : ∀ after, Step locks after → Turns locks.holder after.holder
  enters : ∀ handle ∈ locks.handles, locks.holder handle.key = none →
    ∃ after, Step locks after ∧
      after.holder = Function.update locks.holder handle.key (some handle.caller)
  inside : ∀ handle ∈ locks.handles, handle.inside = true →
    locks.holder handle.key = some handle.caller
  few : locks.entries.length ≤ locks.peak + 1

theorem Reachable.isTable {locks : Registry ι String} (reachable : locks.Reachable) :
    locks.IsTable := by
  have sound := reachable.sound
  refine ⟨fun after => sound.turns, fun handle present none => ?_,
    fun handle present inside => ?_, ?_⟩
  · have free := (sound.free_iff present).mpr none
    exact ⟨_, .lock handle present free, sound.holder_enters present free⟩
  · exact sound.holder_eq_some.mpr ⟨handle, present, rfl, rfl, inside⟩
  · have few := sound.few
    split at few
    · omega
    · exact few

end Registry

/--
`MirrorLocks` is a table with one lock for each mirror, and `log_locks` one with a lock
for each attempt: a caller that has a handle can have the lock whenever nobody has it,
and never otherwise. The maps stay within one entry of the most handles there were.
-/
theorem locks_are_tables {ι : Type} [DecidableEq ι] {mirrors : MirrorLocks ι} {logs : LogLocks ι}
    (mirrorsReachable : mirrors.Reachable) (logsReachable : logs.Reachable) :
    mirrors.IsTable ∧ logs.IsTable ∧
      ∀ handle ∈ logs.handles, ∀ other ∈ logs.handles, ∀ runId attempt otherId number,
        handle.key = attemptLogKey runId attempt → other.key = attemptLogKey otherId number →
        handle.inside = true → other.inside = true →
        (handle = other ↔ runId = otherId ∧ attempt = number) := by
  refine ⟨mirrorsReachable.isTable, logsReachable.isTable, ?_⟩
  intro handle present other too runId attempt otherId number keyed alsoKeyed inside alsoInside
  have sound := logsReachable.sound
  rw [← attemptLogKey_inj, ← keyed, ← alsoKeyed]
  constructor
  · rintro rfl
    rfl
  · intro same
    exact sound.exclusive handle present other too (sound.lock_of_key present too same)
      inside alsoInside

/-- One caller has the lock of the key, and another one waits for it. -/
theorem reachable_contended : ∃ locks : Registry ℕ String, locks.Reachable ∧
    locks.handles = [⟨1, "R-1", 0, false⟩, ⟨0, "R-1", 0, true⟩] := by
  have swept : Registry.Reachable _ :=
    .tail .refl (.sweep 0 "R-1" rfl fun handle present => by cases present)
  have found : Registry.Reachable _ := .tail swept (.lookUp 0 "R-1" rfl)
  have locked : Registry.Reachable _ :=
    .tail found (.lock ⟨0, "R-1", 0, false⟩ (by decide) (by decide))
  have sweptAgain : Registry.Reachable _ := .tail locked (.sweep 1 "R-1" rfl (by decide))
  have foundAgain : Registry.Reachable _ := .tail sweptAgain (.lookUp 1 "R-1" rfl)
  exact ⟨_, foundAgain, by decide⟩

theorem locks_are_tables_contended : ∃ logs : LogLocks ℕ, logs.IsTable ∧
    logs.holder (attemptLogKey "R" 1) = some 0 := by
  rcases reachable_contended with ⟨logs, reachable, handles⟩
  have tables := (@locks_are_tables ℕ _ logs logs reachable reachable).2.1
  exact ⟨logs, tables, tables.inside ⟨0, "R-1", 0, true⟩ (by simp [handles]) rfl⟩

end LzuMirror
