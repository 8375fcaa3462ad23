import Mathlib.Data.List.Nodup
import Mathlib.Data.List.Perm.Subperm
import Mathlib.Logic.Function.Basic
import Mathlib.Logic.Relation

/-!
# Locks by key, with weak references

A registry hands out one lock for each key. It refers to the locks weakly: a lock
lives as long as some caller has a handle on it, and the entries of the locks that
are gone are swept before each look-up. Handles are dropped at any time, also between
the sweep and the look-up.

From outside this is a table of locks, one for each key: `Step.turns` and
`Sound.lockable_iff` are the two directions of that. The entries stay as few as the
handles are.
-/

namespace LzuMirror

/-- A reference to a lock that keeps it alive. -/
structure Handle (ι κ : Type) where
  caller : ι
  key : κ
  lock : ℕ
  -- the caller has the lock
  inside : Bool
  deriving DecidableEq, Repr

structure Registry (ι κ : Type) where
  entries : List (κ × ℕ)
  handles : List (Handle ι κ)
  -- the caller that has swept the entries and looks one up next
  looking : Option (ι × κ)
  -- the locks that were made
  made : ℕ
  -- the most handles that there were at once
  peak : ℕ
  deriving DecidableEq, Repr

namespace Registry

variable {ι κ : Type}

def empty : Registry ι κ := ⟨[], [], none, 0, 0⟩

def strongCount (registry : Registry ι κ) (lock : ℕ) : ℕ :=
  registry.handles.countP fun handle => handle.lock = lock

/-- The entries whose locks are alive. -/
def retained (registry : Registry ι κ) : List (κ × ℕ) :=
  registry.entries.filter fun entry => 0 < registry.strongCount entry.2

/-- The lock of the key, unless there is none or it is gone. -/
def upgrade [DecidableEq κ] (registry : Registry ι κ) (key : κ) : Option ℕ :=
  ((registry.entries.find? fun entry => entry.1 = key).map Prod.snd).filter fun lock =>
    0 < registry.strongCount lock

def addHandle (registry : Registry ι κ) (caller : ι) (key : κ) (lock : ℕ) : Registry ι κ :=
  { registry with
    handles := ⟨caller, key, lock, false⟩ :: registry.handles
    peak := max registry.peak (registry.handles.length + 1) }

/-- The caller gets a handle on the lock of the key, or on a new one. -/
def lookUp [DecidableEq κ] (registry : Registry ι κ) (caller : ι) (key : κ) : Registry ι κ :=
  match registry.upgrade key with
  | some lock => { registry.addHandle caller key lock with looking := none }
  | none =>
      { registry.addHandle caller key registry.made with
        entries := (key, registry.made) :: registry.entries.filter fun entry => entry.1 ≠ key
        looking := none
        made := registry.made + 1 }

def setInside [DecidableEq ι] (registry : Registry ι κ) (caller : ι) (inside : Bool) : Registry ι κ :=
  { registry with
    handles := registry.handles.map fun handle =>
      if handle.caller = caller then { handle with inside } else handle }

def drop [DecidableEq ι] (registry : Registry ι κ) (caller : ι) : Registry ι κ :=
  { registry with handles := registry.handles.filter fun handle => handle.caller ≠ caller }

/-- Nobody has the lock. -/
def Free (registry : Registry ι κ) (lock : ℕ) : Prop :=
  ∀ handle ∈ registry.handles, handle.lock = lock → handle.inside = false

instance (registry : Registry ι κ) (lock : ℕ) : Decidable (registry.Free lock) :=
  inferInstanceAs (Decidable (∀ handle ∈ registry.handles, _ → _))

section

variable [DecidableEq ι] [DecidableEq κ]

/-- A caller has one handle at a time; whoever wants several locks counts several times. -/
inductive Step : Registry ι κ → Registry ι κ → Prop where
  | sweep {before : Registry ι κ} (caller : ι) (key : κ) (alone : before.looking = none)
      (new : ∀ handle ∈ before.handles, handle.caller ≠ caller) :
      Step before { before with entries := before.retained, looking := some (caller, key) }
  | lookUp {before : Registry ι κ} (caller : ι) (key : κ)
      (looking : before.looking = some (caller, key)) :
      Step before (before.lookUp caller key)
  | lock {before : Registry ι κ} (handle : Handle ι κ) (present : handle ∈ before.handles)
      (free : before.Free handle.lock) :
      Step before (before.setInside handle.caller true)
  | unlock {before : Registry ι κ} (handle : Handle ι κ) (present : handle ∈ before.handles)
      (inside : handle.inside = true) :
      Step before (before.setInside handle.caller false)
  /-- The caller is done with the lock, or does not wait for it any longer. -/
  | drop {before : Registry ι κ} (handle : Handle ι κ) (present : handle ∈ before.handles) :
      Step before (before.drop handle.caller)

/-- The registries that can be reached. -/
def Reachable (registry : Registry ι κ) : Prop := Relation.ReflTransGen Step empty registry

end

/-! ## What holds of a registry -/

structure Sound (registry : Registry ι κ) : Prop where
  keys : (registry.entries.map Prod.fst).Nodup
  locks : (registry.entries.map Prod.snd).Nodup
  callers : (registry.handles.map Handle.caller).Nodup
  new : ∀ caller key, registry.looking = some (caller, key) →
    ∀ handle ∈ registry.handles, handle.caller ≠ caller
  -- no live lock is swept, and none is replaced
  registered : ∀ handle ∈ registry.handles, (handle.key, handle.lock) ∈ registry.entries
  older : ∀ entry ∈ registry.entries, entry.2 < registry.made
  exclusive : ∀ handle ∈ registry.handles, ∀ other ∈ registry.handles,
    handle.lock = other.lock → handle.inside = true → other.inside = true → handle = other
  peak : registry.handles.length ≤ registry.peak
  few : registry.entries.length ≤ registry.peak + if registry.looking.isSome then 0 else 1

variable {registry before after : Registry ι κ} {caller : ι} {key : κ} {lock : ℕ}

theorem strongCount_pos :
    0 < registry.strongCount lock ↔ ∃ handle ∈ registry.handles, handle.lock = lock := by
  simp [strongCount, List.countP_pos_iff]

theorem mem_retained {entry : κ × ℕ} : entry ∈ registry.retained ↔
    entry ∈ registry.entries ∧ ∃ handle ∈ registry.handles, handle.lock = entry.2 := by
  simp [retained, strongCount_pos]

theorem Sound.key_of_lock (sound : registry.Sound) {handle other : Handle ι κ}
    (present : handle ∈ registry.handles) (too : other ∈ registry.handles)
    (same : handle.lock = other.lock) : handle.key = other.key := by
  have first := sound.registered handle present
  have second := sound.registered other too
  have equal := List.inj_on_of_nodup_map sound.locks first second same
  exact congrArg Prod.fst equal

theorem Sound.lock_of_key (sound : registry.Sound) {handle other : Handle ι κ}
    (present : handle ∈ registry.handles) (too : other ∈ registry.handles)
    (same : handle.key = other.key) : handle.lock = other.lock := by
  have first := sound.registered handle present
  have second := sound.registered other too
  have equal := List.inj_on_of_nodup_map sound.keys first second same
  exact congrArg Prod.snd equal

theorem Sound.handle_of_caller (sound : registry.Sound) {handle other : Handle ι κ}
    (present : handle ∈ registry.handles) (too : other ∈ registry.handles)
    (same : handle.caller = other.caller) : handle = other :=
  List.inj_on_of_nodup_map sound.callers present too same

/-- Each entry that is left after a sweep has a handle of its own. -/
theorem Sound.length_retained (sound : registry.Sound) :
    registry.retained.length ≤ registry.handles.length := by
  have nodup : (registry.retained.map Prod.snd).Nodup :=
    sound.locks.sublist (List.filter_sublist.map Prod.snd)
  have covered : registry.retained.map Prod.snd ⊆ registry.handles.map Handle.lock := by
    intro lock listed
    rcases List.mem_map.mp listed with ⟨entry, kept, rfl⟩
    rcases (mem_retained.mp kept).2 with ⟨handle, present, same⟩
    exact List.mem_map.mpr ⟨handle, present, same⟩
  simpa using (List.Nodup.subperm nodup covered).length_le

theorem sound_empty : (empty : Registry ι κ).Sound where
  keys := List.nodup_nil
  locks := List.nodup_nil
  callers := List.nodup_nil
  new := by simp [empty]
  registered := by simp [empty]
  older := by simp [empty]
  exclusive := by simp [empty]
  peak := Nat.le_refl _
  few := Nat.zero_le _

theorem Sound.sweep (sound : registry.Sound)
    (new : ∀ handle ∈ registry.handles, handle.caller ≠ caller) :
    Sound { registry with entries := registry.retained, looking := some (caller, key) } where
  keys := sound.keys.sublist (List.filter_sublist.map Prod.fst)
  locks := sound.locks.sublist (List.filter_sublist.map Prod.snd)
  callers := sound.callers
  new := by
    intro other wanted same
    cases same
    exact new
  registered handle present :=
    mem_retained.mpr ⟨sound.registered handle present, handle, present, rfl⟩
  older entry kept := sound.older entry (mem_retained.mp kept).1
  exclusive := sound.exclusive
  peak := sound.peak
  few := by simpa using Nat.le_trans sound.length_retained sound.peak

section LookUp

variable [DecidableEq κ]

theorem mem_of_upgrade (found : registry.upgrade key = some lock) :
    (key, lock) ∈ registry.entries ∧ ∃ handle ∈ registry.handles, handle.lock = lock := by
  simp only [upgrade, Option.filter_eq_some_iff, Option.map_eq_some_iff, decide_eq_true_eq] at found
  rcases found with ⟨⟨entry, first, rfl⟩, alive⟩
  have same := List.find?_some first
  simp only [decide_eq_true_eq] at same
  subst same
  exact ⟨List.mem_of_find?_eq_some first, strongCount_pos.mp alive⟩

/-- A new lock is made only for a key that nobody has a handle for. -/
theorem Sound.unused (sound : registry.Sound) (missing : registry.upgrade key = none)
    {handle : Handle ι κ} (present : handle ∈ registry.handles) : handle.key ≠ key := by
  rintro rfl
  have listed := sound.registered handle present
  cases first : registry.entries.find? fun entry => entry.1 = handle.key with
  | none =>
      have absent := List.find?_eq_none.mp first _ listed
      simp at absent
  | some entry =>
      have same := List.find?_some first
      simp only [decide_eq_true_eq] at same
      have equal := List.inj_on_of_nodup_map sound.keys (List.mem_of_find?_eq_some first) listed same
      simp only [upgrade, first, equal, Option.map_some, Option.filter_eq_none_iff] at missing
      have alive := strongCount_pos.mpr ⟨handle, present, rfl⟩
      have gone := missing handle.lock rfl
      simp only [decide_eq_true_eq] at gone
      exact gone alive

theorem Sound.lookUp (sound : registry.Sound) (looking : registry.looking = some (caller, key)) :
    (registry.lookUp caller key).Sound := by
  have new := sound.new caller key looking
  have callers : (caller :: registry.handles.map Handle.caller).Nodup := by
    refine List.nodup_cons.mpr ⟨?_, sound.callers⟩
    simpa using new
  have length := sound.peak
  have few := sound.few
  simp only [looking, Option.isSome_some, if_true, Nat.add_zero] at few
  unfold Registry.lookUp
  split
  next lock found =>
    rcases mem_of_upgrade found with ⟨listed, alive⟩
    refine ⟨sound.keys, sound.locks, callers, by simp, ?_, sound.older, ?_, ?_, ?_⟩
    · intro handle present
      rcases List.mem_cons.mp present with rfl | present
      · exact listed
      · exact sound.registered handle present
    · intro handle present other too same inside alsoInside
      rcases List.mem_cons.mp present with rfl | present
      · cases inside
      · rcases List.mem_cons.mp too with rfl | too
        · cases alsoInside
        · exact sound.exclusive handle present other too same inside alsoInside
    · exact Nat.le_max_right _ _
    · simp only [addHandle, Option.isSome_none, Bool.false_eq_true, if_false]
      omega
  next missing =>
    have others (entry : κ × ℕ) : entry ∈ registry.entries.filter (fun entry => entry.1 ≠ key) ↔
        entry ∈ registry.entries ∧ entry.1 ≠ key := by simp
    refine ⟨?_, ?_, callers, by simp, ?_, ?_, ?_, ?_, ?_⟩
    · refine List.nodup_cons.mpr ⟨?_, sound.keys.sublist (List.filter_sublist.map Prod.fst)⟩
      simp
    · refine List.nodup_cons.mpr ⟨?_, sound.locks.sublist (List.filter_sublist.map Prod.snd)⟩
      intro listed
      rcases List.mem_map.mp listed with ⟨entry, kept, same⟩
      have older := sound.older entry ((others entry).mp kept).1
      omega
    · intro handle present
      rcases List.mem_cons.mp present with rfl | present
      · exact List.mem_cons_self
      · apply List.mem_cons_of_mem
        exact (others _).mpr ⟨sound.registered handle present, sound.unused missing present⟩
    · intro entry listed
      rcases List.mem_cons.mp listed with rfl | listed
      · exact Nat.lt_succ_self _
      · exact Nat.lt_succ_of_lt (sound.older entry ((others entry).mp listed).1)
    · intro handle present other too same inside alsoInside
      rcases List.mem_cons.mp present with rfl | present
      · cases inside
      · rcases List.mem_cons.mp too with rfl | too
        · cases alsoInside
        · exact sound.exclusive handle present other too same inside alsoInside
    · exact Nat.le_max_right _ _
    · have shorter := registry.entries.length_filter_le fun entry => entry.1 ≠ key
      simp only [addHandle, List.length_cons, Option.isSome_none, Bool.false_eq_true, if_false]
      omega

theorem mem_lookUp {handle : Handle ι κ} (inside : handle.inside = true) :
    handle ∈ (registry.lookUp caller key).handles ↔ handle ∈ registry.handles := by
  unfold lookUp
  split <;> simp only [addHandle, List.mem_cons, or_iff_right_iff_imp] <;> rintro rfl <;> cases inside

end LookUp

section Inside

variable [DecidableEq ι]

theorem mem_setInside {handle : Handle ι κ} {inside : Bool} :
    handle ∈ (registry.setInside caller inside).handles ↔ ∃ old ∈ registry.handles,
      handle = if old.caller = caller then { old with inside } else old := by
  simp [setInside, eq_comm]

theorem mem_unlocked {handle : Handle ι κ} (inside : handle.inside = true) :
    handle ∈ (registry.setInside caller false).handles ↔
      handle ∈ registry.handles ∧ handle.caller ≠ caller := by
  rw [mem_setInside]
  constructor
  · rintro ⟨old, was, rfl⟩
    by_cases mine : old.caller = caller
    · simp [mine] at inside
    · simp only [if_neg mine]
      exact ⟨was, mine⟩
  · rintro ⟨was, notMine⟩
    exact ⟨handle, was, by simp [notMine]⟩

/-- All but the exclusion holds of the registry whatever the callers do with their locks. -/
theorem Sound.setInside {inside : Bool} (sound : registry.Sound)
    (exclusive : ∀ handle ∈ (registry.setInside caller inside).handles,
      ∀ other ∈ (registry.setInside caller inside).handles, handle.lock = other.lock →
        handle.inside = true → other.inside = true → handle = other) :
    (registry.setInside caller inside).Sound where
  keys := sound.keys
  locks := sound.locks
  callers := by
    have same : (registry.setInside caller inside).handles.map Handle.caller =
        registry.handles.map Handle.caller := by
      simp only [Registry.setInside, List.map_map]
      apply List.map_congr_left
      intro handle present
      simp only [Function.comp_apply]
      split <;> rfl
    rw [same]
    exact sound.callers
  new := by
    intro other wanted looking handle present
    rcases mem_setInside.mp present with ⟨old, was, rfl⟩
    have new := sound.new other wanted looking old was
    split <;> exact new
  registered handle present := by
    rcases mem_setInside.mp present with ⟨old, was, rfl⟩
    have registered := sound.registered old was
    split <;> exact registered
  older := sound.older
  exclusive := exclusive
  peak := by simpa [Registry.setInside] using sound.peak
  few := sound.few

theorem Sound.enters (sound : registry.Sound) {handle : Handle ι κ}
    (present : handle ∈ registry.handles) (free : registry.Free handle.lock) :
    (registry.setInside handle.caller true).Sound := by
  apply sound.setInside
  intro first listed second too same inside alsoInside
  rcases mem_setInside.mp listed with ⟨old, was, rfl⟩
  rcases mem_setInside.mp too with ⟨other, wasToo, rfl⟩
  by_cases mine : old.caller = handle.caller
  · cases sound.handle_of_caller was present mine
    by_cases alsoMine : other.caller = handle.caller
    · cases sound.handle_of_caller wasToo was alsoMine
      rfl
    · simp only [↓reduceIte, if_neg alsoMine] at same alsoInside
      cases alsoInside.symm.trans (free other wasToo same.symm)
  · by_cases alsoMine : other.caller = handle.caller
    · cases sound.handle_of_caller wasToo present alsoMine
      simp only [↓reduceIte, if_neg mine] at same inside
      cases inside.symm.trans (free old was same)
    · simp only [if_neg mine, if_neg alsoMine] at same inside alsoInside ⊢
      exact sound.exclusive old was other wasToo same inside alsoInside

theorem Sound.unlock (sound : registry.Sound) (caller : ι) :
    (registry.setInside caller false).Sound := by
  apply sound.setInside
  intro first listed second too same inside alsoInside
  rcases mem_setInside.mp listed with ⟨old, was, rfl⟩
  rcases mem_setInside.mp too with ⟨other, wasToo, rfl⟩
  have notMine : old.caller ≠ caller := by
    intro mine
    simp [mine] at inside
  have notMineToo : other.caller ≠ caller := by
    intro mine
    simp [mine] at alsoInside
  simp only [if_neg notMine, if_neg notMineToo] at same inside alsoInside ⊢
  exact sound.exclusive old was other wasToo same inside alsoInside

theorem Sound.drop (sound : registry.Sound) (caller : ι) : (registry.drop caller).Sound where
  keys := sound.keys
  locks := sound.locks
  callers := sound.callers.sublist (List.filter_sublist.map Handle.caller)
  new other wanted looking handle present :=
    sound.new other wanted looking handle (List.mem_of_mem_filter present)
  registered handle present := sound.registered handle (List.mem_of_mem_filter present)
  older := sound.older
  exclusive handle present other too :=
    sound.exclusive handle (List.mem_of_mem_filter present) other (List.mem_of_mem_filter too)
  peak := Nat.le_trans (List.length_filter_le _ _) sound.peak
  few := sound.few

theorem Sound.step [DecidableEq κ] (sound : before.Sound) (step : Step before after) :
    after.Sound := by
  cases step with
  | sweep caller key alone new => exact sound.sweep new
  | lookUp caller key looking => exact sound.lookUp looking
  | lock handle present free => exact sound.enters present free
  | unlock handle present inside => exact sound.unlock handle.caller
  | drop handle present => exact sound.drop handle.caller

theorem Reachable.sound [DecidableEq κ] (reachable : registry.Reachable) : registry.Sound := by
  induction reachable with
  | refl => exact sound_empty
  | tail _ step ih => exact ih.step step

end Inside

/-! ## The table of locks -/

section Table

variable [DecidableEq κ]

/-- The caller that has the lock of the key. -/
def holder (registry : Registry ι κ) (key : κ) : Option ι :=
  (registry.handles.find? fun handle => handle.key = key ∧ handle.inside = true).map Handle.caller

/-- What may happen to the callers that have locks. -/
inductive Turns : (κ → Option ι) → (κ → Option ι) → Prop where
  | stay {holder : κ → Option ι} : Turns holder holder
  | acquire {holder : κ → Option ι} (caller : ι) (key : κ) (free : holder key = none) :
      Turns holder (Function.update holder key (some caller))
  | release {holder : κ → Option ι} (caller : ι) (key : κ) (held : holder key = some caller) :
      Turns holder (Function.update holder key none)

theorem Sound.holder_eq_some (sound : registry.Sound) :
    registry.holder key = some caller ↔ ∃ handle ∈ registry.handles,
      handle.caller = caller ∧ handle.key = key ∧ handle.inside = true := by
  constructor
  · intro held
    rcases Option.map_eq_some_iff.mp held with ⟨handle, first, rfl⟩
    have found := List.find?_some first
    simp only [decide_eq_true_eq] at found
    exact ⟨handle, List.mem_of_find?_eq_some first, rfl, found⟩
  · rintro ⟨handle, present, rfl, rfl, inside⟩
    cases first : registry.handles.find? fun other =>
        other.key = handle.key ∧ other.inside = true with
    | none =>
        have absent := List.find?_eq_none.mp first handle present
        simp [inside] at absent
    | some other =>
        have found := List.find?_some first
        simp only [decide_eq_true_eq] at found
        have too := List.mem_of_find?_eq_some first
        have same := sound.lock_of_key too present found.1
        have equal := sound.exclusive other too handle present same found.2 inside
        simp only [holder, first, Option.map_some, equal]

theorem holder_eq_none : registry.holder key = none ↔
    ∀ handle ∈ registry.handles, handle.key = key → handle.inside = false := by
  simp [holder]

/-- A caller can have its lock as soon as nobody has a lock of the same key. -/
theorem Sound.free_iff (sound : registry.Sound) {handle : Handle ι κ}
    (present : handle ∈ registry.handles) :
    registry.Free handle.lock ↔ registry.holder handle.key = none := by
  rw [holder_eq_none]
  constructor
  · intro free other too same
    exact free other too (sound.lock_of_key too present same)
  · intro none other too same
    exact none other too (sound.key_of_lock too present same)

/-- Handles without the lock come and go. -/
theorem holder_congr (sound : before.Sound) (kept : after.Sound)
    (same : ∀ handle : Handle ι κ, handle.inside = true →
      (handle ∈ after.handles ↔ handle ∈ before.handles)) : after.holder = before.holder := by
  funext key
  apply Option.ext
  intro caller
  rw [kept.holder_eq_some, sound.holder_eq_some]
  constructor
  · rintro ⟨handle, present, mine, keyed, inside⟩
    exact ⟨handle, (same handle inside).mp present, mine, keyed, inside⟩
  · rintro ⟨handle, present, mine, keyed, inside⟩
    exact ⟨handle, (same handle inside).mpr present, mine, keyed, inside⟩

/-- A handle with the lock loses it, or is dropped. -/
theorem Sound.holder_leaves (sound : before.Sound) (kept : after.Sound) {handle : Handle ι κ}
    (present : handle ∈ before.handles) (inside : handle.inside = true)
    (others : ∀ other : Handle ι κ, other.inside = true →
      (other ∈ after.handles ↔ other ∈ before.handles ∧ other.caller ≠ handle.caller)) :
    after.holder = Function.update before.holder handle.key none := by
  funext key
  apply Option.ext
  intro caller
  rw [kept.holder_eq_some]
  rcases eq_or_ne key handle.key with rfl | apart
  · rw [Function.update_self]
    constructor
    · rintro ⟨other, listed, rfl, keyed, alsoInside⟩
      rcases (others other alsoInside).mp listed with ⟨was, notMine⟩
      have same := sound.exclusive other was handle present (sound.lock_of_key was present keyed)
        alsoInside inside
      exact absurd (congrArg Handle.caller same) notMine
    · intro impossible
      cases impossible
  · rw [Function.update_of_ne apart, sound.holder_eq_some]
    constructor
    · rintro ⟨other, listed, rfl, rfl, alsoInside⟩
      exact ⟨other, ((others other alsoInside).mp listed).1, rfl, rfl, alsoInside⟩
    · rintro ⟨other, was, rfl, rfl, alsoInside⟩
      refine ⟨other, (others other alsoInside).mpr ⟨was, ?_⟩, rfl, rfl, alsoInside⟩
      intro mine
      cases sound.handle_of_caller was present mine
      exact apart rfl

variable [DecidableEq ι]

theorem Sound.holder_enters (sound : before.Sound) {handle : Handle ι κ}
    (present : handle ∈ before.handles) (free : before.Free handle.lock) :
    (before.setInside handle.caller true).holder =
      Function.update before.holder handle.key (some handle.caller) := by
  have kept := sound.enters present free
  funext key
  apply Option.ext
  intro caller
  rw [kept.holder_eq_some]
  rcases eq_or_ne key handle.key with rfl | apart
  · rw [Function.update_self]
    constructor
    · rintro ⟨first, listed, rfl, keyed, inside⟩
      rcases mem_setInside.mp listed with ⟨old, was, rfl⟩
      by_cases mine : old.caller = handle.caller
      · simp [mine]
      · simp only [if_neg mine] at keyed inside
        cases inside.symm.trans (free old was (sound.lock_of_key was present keyed))
    · intro mine
      cases mine
      exact ⟨{ handle with inside := true }, mem_setInside.mpr ⟨handle, present, by simp⟩,
        rfl, rfl, rfl⟩
  · rw [Function.update_of_ne apart, sound.holder_eq_some]
    constructor
    · rintro ⟨first, listed, rfl, rfl, inside⟩
      rcases mem_setInside.mp listed with ⟨old, was, rfl⟩
      by_cases mine : old.caller = handle.caller
      · cases sound.handle_of_caller was present mine
        simp at apart
      · simp only [if_neg mine] at inside ⊢
        exact ⟨old, was, rfl, rfl, inside⟩
    · rintro ⟨old, was, rfl, rfl, inside⟩
      have notMine : old.caller ≠ handle.caller := by
        intro mine
        cases sound.handle_of_caller was present mine
        exact apart rfl
      exact ⟨old, mem_setInside.mpr ⟨old, was, by simp [notMine]⟩, rfl, rfl, inside⟩

/-- Each step of the registry is one of the table, or leaves it as it is. -/
theorem Sound.turns (sound : before.Sound) (step : Step before after) :
    Turns before.holder after.holder := by
  have kept := sound.step step
  cases step with
  | sweep caller key alone new => exact .stay
  | lookUp caller key looking =>
      rw [holder_congr sound kept fun handle inside => mem_lookUp inside]
      exact .stay
  | lock handle present free =>
      rw [sound.holder_enters present free]
      exact .acquire _ _ ((sound.free_iff present).mp free)
  | unlock handle present inside =>
      rw [sound.holder_leaves kept present inside fun other => mem_unlocked]
      exact .release handle.caller _ (sound.holder_eq_some.mpr ⟨handle, present, rfl, rfl, inside⟩)
  | drop handle present =>
      have others (other : Handle ι κ) : other ∈ (before.drop handle.caller).handles ↔
          other ∈ before.handles ∧ other.caller ≠ handle.caller := by
        simp [Registry.drop]
      cases inside : handle.inside with
      | true =>
          rw [sound.holder_leaves kept present inside fun other _ => others other]
          exact .release handle.caller _
            (sound.holder_eq_some.mpr ⟨handle, present, rfl, rfl, inside⟩)
      | false =>
          rw [holder_congr sound kept fun other alsoInside => ?_]
          · exact .stay
          · rw [others, and_iff_left_iff_imp]
            intro was mine
            cases sound.handle_of_caller was present mine
            cases inside.symm.trans alsoInside

end Table

end Registry

end LzuMirror
