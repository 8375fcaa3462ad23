import LzuMirror.Store.Binding
import LzuMirror.Store.Delivery
import LzuMirror.Store.Eligibility

/-!
# The first event of an attempt

A dispatched attempt is `queued` until its first event is applied; while it is,
`poll_action` hands it out again. No transaction takes an attempt back to
`queued`, so an attempt that has left is never handed out once more.
-/

namespace LzuMirror

/-- An event of the attempt was applied. -/
def Database.HasLeft (db : Database) (key : String × ℕ) : Prop :=
  ∃ attempt ∈ db.attempts, attempt.key = key ∧ attempt.state ≠ .queued

/-- A queued attempt has no events yet. -/
def Database.Unheard (db : Database) (key : String × ℕ) : Prop :=
  ∀ attempt ∈ db.attempts, attempt.key = key → attempt.state = .queued →
    attempt.lastEventSequence = 0

/-- What is queued has the events it had. -/
def Database.KeepsQueued (db after : Database) (key : String × ℕ) : Prop :=
  ∀ attempt ∈ after.attempts, attempt.key = key → attempt.state = .queued →
    attempt.lastEventSequence = 0 ∨ ∃ old ∈ db.attempts, old.key = key ∧ old.state = .queued ∧
      old.lastEventSequence = attempt.lastEventSequence

section Handover

variable {vendor : Vendor} {db after : Database} {key : String × ℕ} {now : ℤ}

theorem Database.HasLeft.persist (left : db.HasLeft key) (persists : db.Persists after) :
    after.HasLeft key := by
  rcases left with ⟨attempt, mem, keyed, gone⟩
  rcases persists.attempts attempt mem with ⟨later, laterMem, follows⟩
  exact ⟨later, laterMem, follows.key.trans keyed, follows.started gone⟩

theorem Database.KeepsQueued.unheard (keeps : db.KeepsQueued after key) (unheard : db.Unheard key) :
    after.Unheard key := by
  intro attempt mem keyed queued
  rcases keeps attempt mem keyed queued with none | ⟨old, oldMem, oldKeyed, oldQueued, same⟩
  · exact none
  · rw [← same]
    exact unheard old oldMem oldKeyed oldQueued

theorem Database.KeepsQueued.of_attempts (same : after.attempts = db.attempts) :
    db.KeepsQueued after key := by
  intro attempt mem keyed queued
  rw [same] at mem
  exact .inr ⟨attempt, mem, keyed, queued, rfl⟩

theorem Database.KeepsQueued.trans {first second third : Database}
    (left : first.KeepsQueued second key) (right : second.KeepsQueued third key) :
    first.KeepsQueued third key := by
  intro attempt mem keyed queued
  rcases right attempt mem keyed queued with none | ⟨old, oldMem, oldKeyed, oldQueued, same⟩
  · exact .inl none
  · rw [← same]
    exact left old oldMem oldKeyed oldQueued

/-- An update of other columns, or one after which the attempt is not queued. -/
theorem Database.KeepsQueued.of_update {matching : AttemptRow → Bool}
    {set : AttemptRow → AttemptRow}
    (rows : after.attempts.rows =
      db.attempts.rows.map fun attempt => if matching attempt then set attempt else attempt)
    (keys : ∀ attempt, (set attempt).key = attempt.key)
    (sets : ∀ attempt, matching attempt = true → attempt.key = key → (set attempt).state = .queued →
      attempt.state = .queued ∧ (set attempt).lastEventSequence = attempt.lastEventSequence) :
    db.KeepsQueued after key := by
  intro attempt mem keyed queued
  rcases Table.mem_of_map rows mem with ⟨old, oldMem, rfl⟩
  right
  split at keyed
  next matched =>
    simp only [matched, if_true] at queued ⊢
    have oldKeyed := (keys old).symm.trans keyed
    have kept := sets old matched oldKeyed queued
    exact ⟨old, oldMem, oldKeyed, kept.1, kept.2.symm⟩
  next unmatched =>
    simp only [unmatched] at queued ⊢
    exact ⟨old, oldMem, keyed, queued, rfl⟩

theorem configSteps_keepQueued {bundle : CanonicalBundle vendor} {changes : List ConfigChange}
    (steps : Relation.ReflTransGen (ConfigStep bundle changes) db after) :
    db.KeepsQueued after key := by
  induction steps with
  | refl => exact .of_attempts rfl
  | tail _ step ih =>
      apply ih.trans
      cases step with
      | bookkeeping | unmanage | upsert | finalizeRetries => exact .of_attempts rfl
      | cancelPending =>
          apply Database.KeepsQueued.of_update rfl
          · exact fun _ => rfl
          · rintro _ _ _ ⟨⟩

theorem Database.Polls.keepsQueued {node : String} {action : Option PollAction}
    {compile : DispatchSource → Except StoreError (Option CompiledDispatch)}
    (polls : db.Polls node now compile action after) : db.KeepsQueued after key := by
  cases polls with
  | nothing | cancel => exact .of_attempts rfl
  | redeliver =>
      apply Database.KeepsQueued.of_update rfl
      · exact fun _ => rfl
      · exact fun _ _ _ queued => ⟨queued, rfl⟩
  | dispatch selects _ _ _ persists =>
      rcases Database.persistDispatch_eq_ok persists with ⟨_, _, _, _, _, members⟩
      intro attempt mem keyed queued
      rcases (members attempt).mp mem with old | rfl
      · exact .inr ⟨attempt, selects.attempts ▸ old, keyed, queued, rfl⟩
      · exact .inl rfl

theorem Database.Cancels.keepsQueued {runId : String} {rearm : String → Except StoreError (Option ℤ)}
    (cancels : db.Cancels runId now rearm after) : db.KeepsQueued after key := by
  cases cancels with
  | ended | requested => exact .of_attempts rfl
  | undispatched =>
      apply Database.KeepsQueued.of_update rfl
      · exact fun _ => rfl
      · rintro _ _ _ ⟨⟩

theorem Database.Projects.attempts {runId : String} {attemptNo : ℕ} {event : AttemptEvent}
    {retryScheduled : Bool}
    (projects : db.Projects runId attemptNo event now (decideTerminal vendor) retryScheduled
      after) : after.attempts = db.attempts := by
  cases projects with
  | nothing | start => rfl
  | decided => exact Database.applyDecision_attempts

/-- An event of the attempt takes it out of `queued`. -/
theorem Database.Applies.keepsQueued {attempt : AttemptRow} {event : AttemptEvent}
    {result : AttemptEventApplyResult}
    (applies : db.Applies attempt event now (decideTerminal vendor) result after)
    (moves : attempt.key = key → event.state ≠ .queued) : db.KeepsQueued after key := by
  cases applies with
  | known => exact .of_attempts rfl
  | recorded _ _ projects =>
      have recorded : db.KeepsQueued (db.recordEvent attempt.key event) key := by
        apply Database.KeepsQueued.of_update rfl
        · exact fun _ => rfl
        · intro other matched keyed queued
          have own : attempt.key = key := (of_decide_eq_true matched).symm.trans keyed
          exact absurd queued (moves own)
      exact recorded.trans (.of_attempts projects.attempts)

theorem StoreOp.keepsQueued (operation : StoreOp vendor) (db : Database)
    (moves : ∀ event now, operation = .applyEvent key.1 key.2 event now →
      event.state ≠ .queued) : db.KeepsQueued (operation.run db) key := by
  have effect := operation.run_effect db
  generalize operation.run db = after at effect
  cases effect with
  | unchanged | bookkeeping => exact .of_attempts rfl
  | configured _ _ _ applied => exact configSteps_keepQueued (Database.apply_steps applied)
  | created creates => exact .of_attempts creates.inserts.runs.2.1
  | polled polls => exact polls.keepsQueued
  | cancelled cancels => exact cancels.keepsQueued
  | reported mem keyed applies =>
      apply applies.keepsQueued
      rintro rfl
      exact moves _ _ (by rw [keyed])

/-- The server accepts nothing about an attempt that stays in `queued`. -/
theorem Database.hasLeft_of_applyEvent {event : AttemptEvent} {result : AttemptEventApplyResult}
    (unheard : db.Unheard key) (numbered : 0 < event.eventSequence)
    (moves : event.state ≠ .queued)
    (applied : db.applyEvent key.1 key.2 event now (decideTerminal vendor) = .ok (result, after)) :
    after.HasLeft key := by
  rcases Database.applyEvent_eq_ok applied with ⟨attempt, mem, keyed, applies⟩
  cases applies with
  | known old =>
      refine ⟨attempt, mem, keyed, fun queued => ?_⟩
      have unreported := unheard attempt mem keyed queued
      omega
  | recorded _ _ projects =>
      refine ⟨attempt.record event, ?_, keyed, moves⟩
      rw [projects.attempts, Table.mem_def]
      refine List.mem_map.mpr ⟨attempt, mem, ?_⟩
      simp

/-- An attempt that has left is not handed out any more. -/
theorem Database.HasLeft.not_handed_out {node mirrorName specHash : String}
    {spec : ProcessRunSpec}
    {compile : DispatchSource → Except StoreError (Option CompiledDispatch)}
    (left : db.HasLeft key)
    (polls : db.Polls node now compile
      (some (.startAttempt key.1 key.2 mirrorName specHash spec)) after) : False := by
  rcases left with ⟨other, otherMem, keyed, gone⟩
  generalize answered : some (PollAction.startAttempt key.1 key.2 mirrorName specHash spec) =
    action at polls
  cases polls with
  | nothing | cancel => cases answered
  | redeliver mem queued =>
      simp only [Option.some.injEq, PollAction.startAttempt.injEq] at answered
      have same := Table.eq_of_key_eq otherMem mem
        (keyed.trans (Prod.ext answered.1 answered.2.1))
      exact gone (same ▸ queued)
  | dispatch selects _ _ _ persists =>
      rcases Database.persistDispatch_eq_ok persists with ⟨fresh, started, _⟩
      rw [started] at answered
      simp only [Option.some.injEq, PollAction.startAttempt.injEq] at answered
      exact fresh other (selects.attempts.symm ▸ otherMem)
        (keyed.trans (Prod.ext answered.1 answered.2.1))

end Handover

end LzuMirror
