import Mathlib.Logic.Function.Basic
import Mathlib.Tactic.Common

/-!
# Directories under a loss of power

A directory maps names to files. What is done to it is visible at once, but a file
keeps its content over a loss of power only once it was synced, and the directory
its entries. After a loss each name shows one of the entries it has had since the
directory was synced last, each name on its own, and a file that was not synced has
any content.

`Certain` is the proof rule: a property of all entries that a name may show after a
loss. It is what a program keeps that can be cut off anywhere.
-/

namespace LzuMirror

/-- A file, and whether its content is on the medium. -/
structure StoredFile (β : Type*) where
  content : β
  synced : Bool
  deriving DecidableEq, Repr

/-- The visible entries, and those before them since the directory was synced last. -/
structure Directory (ν β : Type*) where
  entries : ν → Option (StoredFile β)
  past : List (ν → Option (StoredFile β))

namespace Directory

variable {ν β : Type*}

/-- No files. -/
def empty : Directory ν β := ⟨fun _ => none, []⟩

/-- The directory after a change of its entries. -/
def change (directory : Directory ν β) (entries : ν → Option (StoredFile β)) : Directory ν β :=
  ⟨entries, directory.entries :: directory.past⟩

/-- `File::sync_all` of the directory. -/
def sync (directory : Directory ν β) : Directory ν β := { directory with past := [] }

section Changes

variable [DecidableEq ν] (directory : Directory ν β)

/-- The file is created, or gets another content. -/
def store (name : ν) (content : β) : Directory ν β :=
  directory.change (Function.update directory.entries name (some ⟨content, false⟩))

/-- `File::sync_all`; the entry before it counts among those that may be shown. -/
def syncFile (name : ν) : Directory ν β :=
  directory.change (Function.update directory.entries name
    ((directory.entries name).map fun file => { file with synced := true }))

/-- `fs::rename`, which replaces the destination. -/
def rename (source destination : ν) : Directory ν β :=
  directory.change (Function.update
    (Function.update directory.entries destination (directory.entries source)) source none)

/-- `fs::hard_link`, for a file that is not written any more. -/
def link (source destination : ν) : Directory ν β :=
  directory.change (Function.update directory.entries destination (directory.entries source))

/-- `fs::remove_file`. -/
def remove (name : ν) : Directory ν β :=
  directory.change (Function.update directory.entries name none)

end Changes

/-- An entry that the name may show after a loss of power. -/
def Shows (directory : Directory ν β) (name : ν) (entry : Option (StoredFile β)) : Prop :=
  entry = directory.entries name ∨ ∃ entries ∈ directory.past, entry = entries name

/-- What a loss of power leaves of an entry. -/
inductive Survives : Option (StoredFile β) → Option (StoredFile β) → Prop where
  | absent : Survives none none
  | kept {content : β} : Survives (some ⟨content, true⟩) (some ⟨content, true⟩)
  | damaged {content other : β} : Survives (some ⟨content, false⟩) (some ⟨other, true⟩)

/-- A loss of power. -/
structure Lost (before after : Directory ν β) : Prop where
  survives : ∀ name, ∃ entry, before.Shows name entry ∧ Survives entry (after.entries name)
  settled : after.past = []

/-! ## What a name may show -/

/-- Whatever the name shows after a loss has the property. -/
def Certain (directory : Directory ν β) (name : ν) (property : Option (StoredFile β) → Prop) :
    Prop :=
  ∀ entry, directory.Shows name entry → property entry

/-- The name shows this content, now and after a loss. -/
def Durable (directory : Directory ν β) (name : ν) (content : β) : Prop :=
  directory.Certain name fun entry => entry = some ⟨content, true⟩

section Certain

variable {directory after : Directory ν β} {name : ν} {content : β}
  {property weaker : Option (StoredFile β) → Prop}

theorem Certain.now (certain : directory.Certain name property) :
    property (directory.entries name) :=
  certain _ (.inl rfl)

theorem Certain.imp (certain : directory.Certain name property)
    (implied : ∀ entry, property entry → weaker entry) : directory.Certain name weaker :=
  fun entry shows => implied entry (certain entry shows)

@[simp]
theorem shows_change {entries : ν → Option (StoredFile β)} {entry : Option (StoredFile β)} :
    (directory.change entries).Shows name entry ↔
      entry = entries name ∨ directory.Shows name entry := by
  simp [Shows, change]

@[simp]
theorem shows_sync {entry : Option (StoredFile β)} :
    directory.sync.Shows name entry ↔ entry = directory.entries name := by
  simp [Shows, sync]

theorem Certain.change (certain : directory.Certain name property)
    {entries : ν → Option (StoredFile β)} (holds : property (entries name)) :
    (directory.change entries).Certain name property := by
  intro entry shows
  rcases shows_change.mp shows with rfl | earlier
  · exact holds
  · exact certain entry earlier

/-- A change of other names. -/
theorem Certain.elsewhere (certain : directory.Certain name property)
    {entries : ν → Option (StoredFile β)} (same : entries name = directory.entries name) :
    (directory.change entries).Certain name property :=
  certain.change (same ▸ certain.now)

/-- Of what it may show, a synced directory shows what it has. -/
theorem certain_sync :
    directory.sync.Certain name property ↔ property (directory.entries name) := by
  simp [Certain]

theorem Certain.sync (certain : directory.Certain name property) :
    directory.sync.Certain name property :=
  certain_sync.mpr certain.now

theorem Certain.lost (certain : directory.Certain name property) (lost : directory.Lost after)
    (robust : ∀ entry left, property entry → Survives entry left → weaker left) :
    after.Certain name weaker := by
  rcases lost.survives name with ⟨entry, shows, survives⟩
  intro left shown
  rcases shown with rfl | ⟨entries, listed, _⟩
  · exact robust _ _ (certain entry shows) survives
  · rw [lost.settled] at listed
    cases listed

theorem Durable.entry (durable : directory.Durable name content) :
    directory.entries name = some ⟨content, true⟩ :=
  Certain.now durable

theorem Durable.lost (durable : directory.Durable name content) (lost : directory.Lost after) :
    after.Durable name content := by
  refine Certain.lost durable lost ?_
  rintro _ left rfl survives
  cases survives
  rfl

theorem durable_sync : directory.sync.Durable name content ↔
    directory.entries name = some ⟨content, true⟩ :=
  certain_sync

end Certain

/-! ## What is left alone -/

/-- The name has the entry it had, and shows nothing new after a loss. -/
structure Leaves (name : ν) (before after : Directory ν β) : Prop where
  entries : after.entries name = before.entries name
  shows : ∀ entry, after.Shows name entry → before.Shows name entry

section Leaves

variable {before middle after : Directory ν β} {name : ν}
  {property : Option (StoredFile β) → Prop}

theorem Leaves.refl (directory : Directory ν β) : Leaves name directory directory :=
  ⟨rfl, fun _ shows => shows⟩

theorem Leaves.trans (first : Leaves name before middle) (second : Leaves name middle after) :
    Leaves name before after :=
  ⟨second.entries.trans first.entries, fun entry shows =>
    first.shows entry (second.shows entry shows)⟩

theorem Leaves.certain (leaves : Leaves name before after)
    (certain : before.Certain name property) : after.Certain name property :=
  fun entry shows => certain entry (leaves.shows entry shows)

theorem leaves_change {entries : ν → Option (StoredFile β)}
    (same : entries name = before.entries name) : Leaves name before (before.change entries) where
  entries := same
  shows entry shows := by
    rcases shows_change.mp shows with rfl | earlier
    · exact .inl same
    · exact earlier

theorem leaves_sync : Leaves name before before.sync where
  entries := rfl
  shows _ shows := .inl (shows_sync.mp shows)

variable [DecidableEq ν] {other source destination : ν}

theorem leaves_store {content : β} (apart : name ≠ other) :
    Leaves name before (before.store other content) :=
  leaves_change (Function.update_of_ne apart _ _)

theorem leaves_syncFile (apart : name ≠ other) : Leaves name before (before.syncFile other) :=
  leaves_change (Function.update_of_ne apart _ _)

theorem leaves_rename (fromSource : name ≠ source) (fromDestination : name ≠ destination) :
    Leaves name before (before.rename source destination) := by
  refine leaves_change ?_
  rw [Function.update_of_ne fromSource, Function.update_of_ne fromDestination]

theorem leaves_link (apart : name ≠ destination) :
    Leaves name before (before.link source destination) :=
  leaves_change (Function.update_of_ne apart _ _)

theorem leaves_remove (apart : name ≠ other) : Leaves name before (before.remove other) :=
  leaves_change (Function.update_of_ne apart _ _)

end Leaves

section Entries

variable [DecidableEq ν] {directory : Directory ν β} {name source destination : ν}

@[simp]
theorem store_entries {content : β} :
    (directory.store name content).entries name = some ⟨content, false⟩ := by
  simp [store, change]

@[simp]
theorem syncFile_entries : (directory.syncFile name).entries name =
    (directory.entries name).map fun file => { file with synced := true } := by
  simp [syncFile, change]

theorem rename_entries (apart : destination ≠ source) :
    (directory.rename source destination).entries destination = directory.entries source := by
  simp [rename, change, Function.update_of_ne apart]

@[simp]
theorem link_entries :
    (directory.link source destination).entries destination = directory.entries source := by
  simp [link, change]

end Entries

end Directory

end LzuMirror
