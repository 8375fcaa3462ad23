import Mathlib.Data.Nat.Notation
import Mathlib.Tactic.Common

/-!
# Processes under a subreaper

The processes below a program that is a subreaper. The program has the number 0. A
process that exits stays as a zombie until its parent waits for it, and its children
become children of the subreaper. A forked process is in the group of its parent; it may
leave that group for one of its own, and nobody enters a group that exists. Every number
is used once, and a signal reaches every member of a group.

A group whose members do not run stays like that. A group that nobody has left is held
together by the subreaper: as long as it has a member, one of its members is a child of
the subreaper, so that the subreaper can tell by waiting when the group is gone.
-/

namespace LzuMirror

inductive ProcessStatus where
  | running
  -- a SIGKILL is pending, and no instruction of the process is executed any more
  | killed
  | zombie
  deriving DecidableEq, Repr

structure Process where
  pid : ℕ
  parent : ℕ
  group : ℕ
  status : ProcessStatus
  deriving DecidableEq, Repr

/-- The table of the processes; `next` and what follows has not been used as a number. -/
structure ProcessTable where
  processes : List Process
  next : ℕ
  positive : 0 < next
  numbered : ∀ process ∈ processes, process.parent < process.pid ∧ process.pid < next ∧
    process.group ≤ process.pid
  distinct : ∀ process ∈ processes, ∀ other ∈ processes, process.pid = other.pid →
    process = other
  adopted : ∀ process ∈ processes, process.parent = 0 ∨
    ∃ parent ∈ processes, parent.pid = process.parent ∧ parent.status ≠ .zombie

namespace ProcessTable

def empty : ProcessTable where
  processes := []
  next := 1
  positive := by simp
  numbered := by simp
  distinct := by simp
  adopted := by simp

instance : Membership Process ProcessTable := ⟨fun table process => process ∈ table.processes⟩

theorem mem_def {table : ProcessTable} {process : Process} :
    process ∈ table ↔ process ∈ table.processes := Iff.rfl

/-- A new process. -/
def add (table : ProcessTable) (parent group : ℕ) (below : parent < table.next)
    (known : group ≤ table.next)
    (alive : parent = 0 ∨ ∃ process ∈ table, process.pid = parent ∧ process.status ≠ .zombie) :
    ProcessTable where
  processes := ⟨table.next, parent, group, .running⟩ :: table.processes
  next := table.next + 1
  positive := by simp
  numbered := by
    intro process member
    rcases List.mem_cons.mp member with rfl | earlier
    · exact ⟨below, by simp, known⟩
    · have bounds := table.numbered process earlier
      omega
  distinct := by
    intro process member other otherMember same
    rcases List.mem_cons.mp member with rfl | earlier
    · rcases List.mem_cons.mp otherMember with rfl | otherEarlier
      · rfl
      · have bounds := table.numbered other otherEarlier
        simp only at same
        omega
    · have bounds := table.numbered process earlier
      rcases List.mem_cons.mp otherMember with rfl | otherEarlier
      · simp only at same
        omega
      · exact table.distinct process earlier other otherEarlier same
  adopted := by
    intro process member
    rcases List.mem_cons.mp member with rfl | earlier
    · rcases alive with isAgent | ⟨parent, listed, pid, status⟩
      · exact .inl isAgent
      · exact .inr ⟨parent, List.mem_cons_of_mem _ listed, pid, status⟩
    · rcases table.adopted process earlier with isAgent | ⟨parent, listed, pid, status⟩
      · exact .inl isAgent
      · exact .inr ⟨parent, List.mem_cons_of_mem _ listed, pid, status⟩

/-- A child of the subreaper, in a group of its own. -/
def spawn (table : ProcessTable) : ProcessTable :=
  table.add 0 table.next table.positive (Nat.le_refl _) (.inl rfl)

def fork (table : ProcessTable) (parent : Process) (member : parent ∈ table)
    (running : parent.status = .running) : ProcessTable :=
  table.add parent.pid parent.group (table.numbered parent member).2.1
    (Nat.le_of_lt (Nat.lt_of_le_of_lt (table.numbered parent member).2.2
      (table.numbered parent member).2.1))
    (.inr ⟨parent, member, rfl, by simp [running]⟩)

/-- A change of the processes that moves none of them below another one. -/
structure Rewrite (table : ProcessTable) where
  set : Process → Process
  pid : ∀ process, (set process).pid = process.pid
  group : ∀ process, process.group ≤ process.pid → (set process).group ≤ process.pid
  parent : ∀ process ∈ table, (set process).parent = 0 ∨
    (set process).parent = process.parent ∧ ∀ other ∈ table, other.pid = process.parent →
      other.status ≠ .zombie → (set other).status ≠ .zombie

def rewrite (table : ProcessTable) (change : table.Rewrite) : ProcessTable where
  processes := table.processes.map change.set
  next := table.next
  positive := table.positive
  numbered := by
    intro process member
    rcases List.mem_map.mp member with ⟨old, listed, rfl⟩
    have bounds := table.numbered old listed
    rw [change.pid]
    refine ⟨?_, bounds.2.1, change.group old bounds.2.2⟩
    rcases change.parent old listed with adopted | ⟨same, _⟩ <;> omega
  distinct := by
    intro process member other otherMember same
    rcases List.mem_map.mp member with ⟨old, listed, rfl⟩
    rcases List.mem_map.mp otherMember with ⟨otherOld, otherListed, rfl⟩
    rw [change.pid, change.pid] at same
    rw [table.distinct old listed otherOld otherListed same]
  adopted := by
    intro process member
    rcases List.mem_map.mp member with ⟨old, listed, rfl⟩
    rcases change.parent old listed with adopted | ⟨same, alive⟩
    · exact .inl adopted
    · rw [same]
      rcases table.adopted old listed with isAgent | ⟨parent, parentListed, pid, status⟩
      · exact .inl isAgent
      · refine .inr ⟨change.set parent, List.mem_map_of_mem parentListed, ?_, ?_⟩
        · rw [change.pid, pid]
        · exact alive parent parentListed pid status

/-- `killpg` with SIGKILL. -/
def kill (table : ProcessTable) (group : ℕ) : ProcessTable :=
  table.rewrite {
    set := fun process =>
      if process.group = group ∧ process.status = .running then { process with status := .killed }
      else process
    pid := by
      intro process
      split <;> rfl
    group := by
      intro process bound
      split <;> exact bound
    parent := by
      intro process _
      refine .inr ⟨by split <;> rfl, fun other _ _ alive => ?_⟩
      split
      · simp
      · exact alive }

/-- The process leaves its group. -/
def leave (table : ProcessTable) (pid : ℕ) : ProcessTable :=
  table.rewrite {
    set := fun process =>
      if process.pid = pid then { process with group := process.pid } else process
    pid := by
      intro process
      split <;> rfl
    group := by
      intro process bound
      split
      · exact Nat.le_refl _
      · exact bound
    parent := by
      intro process _
      refine .inr ⟨by split <;> rfl, fun other _ _ alive => ?_⟩
      split <;> exact alive }

/-- The process exits, and the subreaper gets its children. -/
def exit (table : ProcessTable) (pid : ℕ) : ProcessTable :=
  table.rewrite {
    set := fun process =>
      if process.pid = pid then { process with status := .zombie }
      else if process.parent = pid then { process with parent := 0 } else process
    pid := by
      intro process
      split
      · rfl
      · split <;> rfl
    group := by
      intro process bound
      split
      · exact bound
      · split <;> exact bound
    parent := by
      intro process member
      have bounds := table.numbered process member
      split
      next same =>
        refine .inr ⟨rfl, fun other _ above alive => ?_⟩
        have apart : other.pid ≠ pid := by omega
        simp only [apart, if_false]
        split <;> exact alive
      next =>
        split
        · exact .inl rfl
        next other_ =>
          refine .inr ⟨rfl, fun other _ above alive => ?_⟩
          have apart : other.pid ≠ pid := above ▸ other_
          simp only [apart, if_false]
          split <;> exact alive }

/-- A zombie is waited for. -/
def reap (table : ProcessTable) (pid : ℕ)
    (zombie : ∀ process ∈ table, process.pid = pid → process.status = .zombie) : ProcessTable where
  processes := table.processes.filter fun process => process.pid ≠ pid
  next := table.next
  positive := table.positive
  numbered process member := table.numbered process (List.mem_filter.mp member).1
  distinct process member other otherMember :=
    table.distinct process (List.mem_filter.mp member).1 other (List.mem_filter.mp otherMember).1
  adopted := by
    intro process member
    rcases table.adopted process (List.mem_filter.mp member).1 with
      isAgent | ⟨parent, listed, above, status⟩
    · exact .inl isAgent
    · refine .inr ⟨parent, List.mem_filter.mpr ⟨listed, ?_⟩, above, status⟩
      simp only [decide_eq_true_eq]
      intro same
      exact status (zombie parent listed same)

/-- `killpg` finds a member. -/
def hasGroup (table : ProcessTable) (group : ℕ) : Bool :=
  table.processes.any fun process => process.group = group

/-- What `waitpid` with `WNOHANG` tells the subreaper of a group. -/
inductive WaitStatus where
  | reaped (pid : ℕ)
  | stillAlive
  | noChild
  deriving DecidableEq, Repr

def waitGroup (table : ProcessTable) (group : ℕ) : WaitStatus :=
  match table.processes.find? fun process =>
      process.parent = 0 ∧ process.group = group ∧ process.status = .zombie with
  | some process => .reaped process.pid
  | none =>
      if table.processes.any fun process => process.parent = 0 ∧ process.group = group then
        .stillAlive
      else .noChild

/-- A zombie child with this number. -/
def IsZombie (table : ProcessTable) (parent pid : ℕ) : Prop :=
  ∃ process ∈ table, process.pid = pid ∧ process.parent = parent ∧ process.status = .zombie

instance (table : ProcessTable) (parent pid : ℕ) : Decidable (table.IsZombie parent pid) :=
  inferInstanceAs (Decidable (∃ process ∈ table.processes, process.pid = pid ∧
    process.parent = parent ∧ process.status = .zombie))

theorem IsZombie.only {table : ProcessTable} {parent pid : ℕ} (zombie : table.IsZombie parent pid) :
    ∀ process ∈ table, process.pid = pid → process.status = .zombie := by
  rcases zombie with ⟨known, listed, same, _, status⟩
  intro process member samePid
  rw [table.distinct process member known listed (samePid.trans same.symm), status]

/-- What the processes do by themselves; the list has the groups that are left. -/
inductive Step : ProcessTable → List ℕ → ProcessTable → Prop where
  | fork {table : ProcessTable} {parent : Process} (member : parent ∈ table)
      (running : parent.status = .running) : Step table [] (table.fork parent member running)
  | exit {table : ProcessTable} {process : Process} (member : process ∈ table)
      (alive : process.status ≠ .zombie) : Step table [] (table.exit process.pid)
  | wait {table : ProcessTable} {parent : Process} {pid : ℕ} (member : parent ∈ table)
      (running : parent.status = .running) (zombie : table.IsZombie parent.pid pid) :
      Step table [] (table.reap pid zombie.only)
  | leave {table : ProcessTable} {process : Process} (member : process ∈ table)
      (running : process.status = .running) (follows : process.group ≠ process.pid) :
      Step table [process.group] (table.leave process.pid)

section Members

variable {table : ProcessTable} {process : Process} {group pid : ℕ}

@[simp]
theorem mem_spawn : process ∈ table.spawn ↔
    process = ⟨table.next, 0, table.next, .running⟩ ∨ process ∈ table := List.mem_cons

@[simp]
theorem mem_fork {parent : Process} {member : parent ∈ table}
    {running : parent.status = .running} : process ∈ table.fork parent member running ↔
      process = ⟨table.next, parent.pid, parent.group, .running⟩ ∨ process ∈ table := List.mem_cons

@[simp]
theorem mem_reap {zombie : ∀ process ∈ table, process.pid = pid → process.status = .zombie} :
    process ∈ table.reap pid zombie ↔ process ∈ table ∧ process.pid ≠ pid := by
  simp [mem_def, reap]

theorem mem_kill : process ∈ table.kill group ↔ ∃ old ∈ table,
    (if old.group = group ∧ old.status = .running then { old with status := .killed } else old) =
      process := List.mem_map

theorem mem_leave : process ∈ table.leave pid ↔ ∃ old ∈ table,
    (if old.pid = pid then { old with group := old.pid } else old) = process := List.mem_map

theorem mem_exit : process ∈ table.exit pid ↔ ∃ old ∈ table,
    (if old.pid = pid then { old with status := .zombie }
      else if old.parent = pid then { old with parent := 0 } else old) = process := List.mem_map

theorem waitGroup_eq_reaped (waited : table.waitGroup group = .reaped pid) :
    ∃ process ∈ table, process.pid = pid ∧ process.parent = 0 ∧ process.group = group ∧
      process.status = .zombie := by
  unfold waitGroup at waited
  split at waited
  next process found =>
    cases waited
    have fits := List.find?_some found
    simp only [decide_eq_true_eq] at fits
    exact ⟨process, List.mem_of_find?_eq_some found, rfl, fits⟩
  next =>
    split at waited <;> cases waited

theorem waitGroup_eq_noChild (waited : table.waitGroup group = .noChild) :
    ∀ process ∈ table, process.parent = 0 → process.group ≠ group := by
  unfold waitGroup at waited
  split at waited
  · cases waited
  next =>
    split at waited
    · cases waited
    next none =>
      intro process member isChild same
      apply none
      exact List.any_eq_true.mpr ⟨process, member, by simp [isChild, same]⟩

theorem hasGroup_eq_false :
    table.hasGroup group = false ↔ ∀ process ∈ table, process.group ≠ group := by
  simp [hasGroup, mem_def]

end Members

/-! ## What becomes of a group -/

/-- No member runs. -/
def Silent (table : ProcessTable) (group : ℕ) : Prop :=
  ∀ process ∈ table, process.group = group → process.status ≠ .running

/-- There is no member. -/
def Vacant (table : ProcessTable) (group : ℕ) : Prop :=
  ∀ process ∈ table, process.group ≠ group

/-- The process with the number of the group is in it. -/
structure Led (table : ProcessTable) (group : ℕ) : Prop where
  known : group < table.next
  leader : ∀ process ∈ table, process.pid = group → process.group = group

/-- Every member is a child of the subreaper or of a member that has not exited. -/
def Kin (table : ProcessTable) (group : ℕ) : Prop :=
  ∀ process ∈ table, process.group = group → process.parent = 0 ∨
    ∃ parent ∈ table, parent.pid = process.parent ∧ parent.group = group ∧
      parent.status ≠ .zombie

/-- The subreaper has a child with this number. -/
def HasChild (table : ProcessTable) (pid : ℕ) : Prop :=
  ∃ process ∈ table, process.pid = pid ∧ process.parent = 0

/-- Where a process of the later table is from. -/
def Stems (before : ProcessTable) (process : Process) : Prop :=
  (∃ old ∈ before, old.pid = process.pid ∧
    (process.group = old.group ∨ process.group = process.pid) ∧
      (process.status = .running → old.status = .running)) ∨
    (before.next ≤ process.pid ∧ (process.group = process.pid ∨
      ∃ parent ∈ before, parent.group = process.group ∧ parent.status = .running))

/-- No process enters a group that was there. -/
structure Follows (before after : ProcessTable) : Prop where
  next : before.next ≤ after.next
  stems : ∀ process ∈ after, before.Stems process

section Groups

variable {before after : ProcessTable} {group pid : ℕ}

theorem stems_of_mem {process : Process} (member : process ∈ before) : before.Stems process :=
  .inl ⟨process, member, rfl, .inl rfl, fun running => running⟩

theorem Follows.refl (table : ProcessTable) : table.Follows table :=
  ⟨Nat.le_refl _, fun _ member => stems_of_mem member⟩

theorem follows_spawn : before.Follows before.spawn where
  next := Nat.le_succ _
  stems process member := by
    rcases mem_spawn.mp member with rfl | earlier
    · exact .inr ⟨Nat.le_refl _, .inl rfl⟩
    · exact stems_of_mem earlier

theorem follows_kill : before.Follows (before.kill group) where
  next := Nat.le_refl _
  stems process member := by
    rcases mem_kill.mp member with ⟨old, listed, rfl⟩
    refine .inl ⟨old, listed, ?_⟩
    split
    · exact ⟨rfl, .inl rfl, fun impossible => by cases impossible⟩
    · exact ⟨rfl, .inl rfl, fun running => running⟩

theorem follows_reap {zombie : ∀ other ∈ before, other.pid = pid → other.status = .zombie} :
    before.Follows (before.reap pid zombie) where
  next := Nat.le_refl _
  stems _ member := stems_of_mem (mem_reap.mp member).1

theorem Step.follows {left : List ℕ} (step : Step before left after) : before.Follows after := by
  cases step with
  | @fork parent member running =>
      refine ⟨Nat.le_succ _, fun process listed => ?_⟩
      rcases mem_fork.mp listed with rfl | earlier
      · exact .inr ⟨Nat.le_refl _, .inr ⟨parent, member, rfl, running⟩⟩
      · exact stems_of_mem earlier
  | exit member alive =>
      refine ⟨Nat.le_refl _, fun process listed => ?_⟩
      rcases mem_exit.mp listed with ⟨old, oldMem, rfl⟩
      refine .inl ⟨old, oldMem, ?_⟩
      split
      · exact ⟨rfl, .inl rfl, fun impossible => by cases impossible⟩
      · split <;> exact ⟨rfl, .inl rfl, fun running => running⟩
  | wait member running zombie => exact follows_reap
  | leave member running =>
      refine ⟨Nat.le_refl _, fun process listed => ?_⟩
      rcases mem_leave.mp listed with ⟨old, oldMem, rfl⟩
      refine .inl ⟨old, oldMem, ?_⟩
      split
      · exact ⟨rfl, .inr rfl, fun running => running⟩
      · exact ⟨rfl, .inl rfl, fun running => running⟩

theorem Led.follows (led : before.Led group) (follows : before.Follows after) :
    after.Led group where
  known := Nat.lt_of_lt_of_le led.known follows.next
  leader process member named := by
    have known := led.known
    rcases follows.stems process member with ⟨old, listed, same, moved, _⟩ | ⟨new, _⟩
    · have leads := led.leader old listed (same.trans named)
      omega
    · omega

theorem Silent.follows (silent : before.Silent group) (led : before.Led group)
    (follows : before.Follows after) : after.Silent group := by
  intro process member grouped running
  have known := led.known
  rcases follows.stems process member with
    ⟨old, listed, same, moved, ran⟩ | ⟨new, own | ⟨parent, listed, same, ran⟩⟩
  · have stays : old.group = group := by
      rcases moved with kept | own
      · exact kept.symm.trans grouped
      · exact led.leader old listed (same.trans (own.symm.trans grouped))
    exact silent old listed stays (ran running)
  · omega
  · exact silent parent listed (same.trans grouped) ran

theorem Vacant.follows (vacant : before.Vacant group) (led : before.Led group)
    (follows : before.Follows after) : after.Vacant group := by
  intro process member grouped
  have known := led.known
  rcases follows.stems process member with
    ⟨old, listed, same, moved, _⟩ | ⟨new, own | ⟨parent, listed, same, _⟩⟩
  · rcases moved with kept | own
    · exact vacant old listed (kept.symm.trans grouped)
    · exact vacant old listed (led.leader old listed (same.trans (own.symm.trans grouped)))
  · omega
  · exact vacant parent listed (same.trans grouped)

theorem led_spawn : before.spawn.Led before.next where
  known := Nat.lt_succ_self _
  leader process member named := by
    rcases mem_spawn.mp member with rfl | earlier
    · rfl
    · have bounds := before.numbered process earlier
      omega

/-- A SIGKILL silences the group. -/
theorem silent_kill : (before.kill group).Silent group := by
  intro _ member grouped running
  rcases mem_kill.mp member with ⟨old, listed, rfl⟩
  split at running
  · cases running
  next other =>
    rw [if_neg other] at grouped
    exact other ⟨grouped, running⟩

/-! ### Kin -/

theorem kin_spawn_self : before.spawn.Kin before.next := by
  intro process member grouped
  rcases mem_spawn.mp member with rfl | earlier
  · exact .inl rfl
  · have bounds := before.numbered process earlier
    omega

theorem Kin.spawn (kin : before.Kin group) (led : before.Led group) : before.spawn.Kin group := by
  intro process member grouped
  have known := led.known
  rcases mem_spawn.mp member with rfl | earlier
  · simp only at grouped
    omega
  · rcases kin process earlier grouped with isChild | ⟨parent, listed, above, same, alive⟩
    · exact .inl isChild
    · exact .inr ⟨parent, mem_spawn.mpr (.inr listed), above, same, alive⟩

theorem Kin.kill (kin : before.Kin group) (other : ℕ) : (before.kill other).Kin group := by
  intro process member grouped
  rcases mem_kill.mp member with ⟨old, listed, rfl⟩
  have sameGroup : old.group = group := by
    split at grouped <;> exact grouped
  rcases kin old listed sameGroup with isChild | ⟨parent, parentListed, above, same, alive⟩
  · left
    split <;> exact isChild
  · refine .inr ⟨_, mem_kill.mpr ⟨parent, parentListed, rfl⟩, ?_, ?_, ?_⟩
    · split <;> split <;> exact above
    · split <;> exact same
    · split
      · simp
      · exact alive

theorem Kin.reap (kin : before.Kin group)
    {zombie : ∀ process ∈ before, process.pid = pid → process.status = .zombie} :
    (before.reap pid zombie).Kin group := by
  intro process member grouped
  rcases kin process (mem_reap.mp member).1 grouped with
    isChild | ⟨parent, listed, above, same, alive⟩
  · exact .inl isChild
  · refine .inr ⟨parent, mem_reap.mpr ⟨listed, fun named => ?_⟩, above, same, alive⟩
    exact alive (zombie parent listed named)

theorem Kin.exit (kin : before.Kin group) : (before.exit pid).Kin group := by
  intro process member grouped
  rcases mem_exit.mp member with ⟨old, listed, rfl⟩
  have bounds := before.numbered old listed
  have sameGroup : old.group = group := by
    split at grouped
    · exact grouped
    · split at grouped <;> exact grouped
  rcases kin old listed sameGroup with isChild | ⟨parent, parentListed, above, same, alive⟩
  · left
    split
    · exact isChild
    · split
      · rfl
      · exact isChild
  -- a child of the process that exits is handed over, and the parent of any other one stays
  by_cases orphaned : old.pid ≠ pid ∧ old.parent = pid
  · left
    rw [if_neg orphaned.1, if_pos orphaned.2]
  · right
    have apart : parent.pid ≠ pid := by omega
    refine ⟨_, mem_exit.mpr ⟨parent, parentListed, rfl⟩, ?_, ?_, ?_⟩
    · rw [if_neg apart]
      by_cases itself : old.pid = pid
      · rw [if_pos itself]
        split <;> exact above
      · have kept : old.parent ≠ pid := fun gone => orphaned ⟨itself, gone⟩
        rw [if_neg itself, if_neg kept]
        split <;> exact above
    · rw [if_neg apart]
      split <;> exact same
    · rw [if_neg apart]
      split <;> exact alive

/-- The processes by themselves keep a group together that none of them leaves. -/
theorem Kin.step (kin : before.Kin group) (led : before.Led group) {left : List ℕ}
    (step : Step before left after) (stays : group ∉ left) : after.Kin group := by
  cases step with
  | @fork parent member running =>
      intro process listed grouped
      rcases mem_fork.mp listed with rfl | earlier
      · refine .inr ⟨parent, mem_fork.mpr (.inr member), rfl, grouped, ?_⟩
        simp [running]
      · rcases kin process earlier grouped with isChild | ⟨above, aboveListed, rest⟩
        · exact .inl isChild
        · exact .inr ⟨above, mem_fork.mpr (.inr aboveListed), rest⟩
  | exit member alive => exact kin.exit
  | wait member running zombie => exact kin.reap
  | @leave leaver member running _ =>
      simp only [List.mem_singleton] at stays
      intro process listed grouped
      rcases mem_leave.mp listed with ⟨old, oldListed, rfl⟩
      have other : old.pid ≠ leaver.pid := by
        intro same
        rw [if_pos same] at grouped
        have leads := led.leader old oldListed grouped
        rw [before.distinct old oldListed leaver member same] at leads
        exact stays leads.symm
      rw [if_neg other] at grouped ⊢
      rcases kin old oldListed grouped with isChild | ⟨parent, parentListed, above, same, alive⟩
      · exact .inl isChild
      · have apart : parent.pid ≠ leaver.pid := by
          intro named
          rw [before.distinct parent parentListed leaver member named] at same
          exact stays same.symm
        exact .inr ⟨parent, mem_leave.mpr ⟨parent, parentListed, if_neg apart⟩, above, same, alive⟩

/-- A group that is held together ends with the last child of the subreaper. -/
theorem Kin.vacant (kin : before.Kin group)
    (none : ∀ process ∈ before, process.parent = 0 → process.group ≠ group) :
    before.Vacant group := by
  -- the parent of a member has a smaller number
  have below : ∀ bound, ∀ process ∈ before, process.pid < bound → process.group ≠ group := by
    intro bound
    induction bound with
    | zero => simp
    | succ bound ih =>
        intro process member small grouped
        rcases kin process member grouped with isChild | ⟨parent, listed, above, same, _⟩
        · exact none process member isChild grouped
        · have bounds := before.numbered process member
          exact ih parent listed (by omega) same
  intro process member
  exact below (process.pid + 1) process member (Nat.lt_succ_self _)

/-! ### Children of the subreaper -/

theorem hasChild_spawn : before.spawn.HasChild before.next :=
  ⟨_, mem_spawn.mpr (.inl rfl), rfl, rfl⟩

theorem HasChild.spawn (child : before.HasChild pid) : before.spawn.HasChild pid := by
  rcases child with ⟨process, member, named, isChild⟩
  exact ⟨process, mem_spawn.mpr (.inr member), named, isChild⟩

theorem HasChild.kill (child : before.HasChild pid) (group : ℕ) :
    (before.kill group).HasChild pid := by
  rcases child with ⟨process, member, named, isChild⟩
  refine ⟨_, mem_kill.mpr ⟨process, member, rfl⟩, ?_, ?_⟩
  · split <;> exact named
  · split <;> exact isChild

theorem HasChild.reap (child : before.HasChild pid) {other : ℕ} (apart : pid ≠ other)
    {zombie : ∀ process ∈ before, process.pid = other → process.status = .zombie} :
    (before.reap other zombie).HasChild pid := by
  rcases child with ⟨process, member, named, isChild⟩
  exact ⟨process, mem_reap.mpr ⟨member, named.trans_ne apart⟩, named, isChild⟩

/-- Only the subreaper waits for its children. -/
theorem HasChild.step (child : before.HasChild pid) {left : List ℕ}
    (step : Step before left after) : after.HasChild pid := by
  rcases child with ⟨process, member, named, isChild⟩
  cases step with
  | fork => exact ⟨process, mem_fork.mpr (.inr member), named, isChild⟩
  | exit =>
      refine ⟨_, mem_exit.mpr ⟨process, member, rfl⟩, ?_, ?_⟩
      · split
        · exact named
        · split <;> exact named
      · split
        · exact isChild
        · split
          · rfl
          · exact isChild
  | @wait parent other parentMem running zombie =>
      rcases zombie with ⟨dead, listed, rfl, ofParent, status⟩
      refine ⟨process, mem_reap.mpr ⟨member, fun same => ?_⟩, named, isChild⟩
      rw [before.distinct process member dead listed same] at isChild
      have bounds := before.numbered parent parentMem
      omega
  | leave =>
      refine ⟨_, mem_leave.mpr ⟨process, member, rfl⟩, ?_, ?_⟩
      · split <;> exact named
      · split <;> exact isChild

/-- No process by itself comes to be killed. -/
theorem Step.killed {left : List ℕ} (step : Step before left after) {process : Process}
    (member : process ∈ after) (killed : process.status = .killed) :
    ∃ old ∈ before, old.group = process.group ∧ old.status = .killed := by
  cases step with
  | fork =>
      rcases mem_fork.mp member with rfl | earlier
      · cases killed
      · exact ⟨process, earlier, rfl, killed⟩
  | exit =>
      rcases mem_exit.mp member with ⟨old, listed, rfl⟩
      refine ⟨old, listed, ?_⟩
      split at killed
      · cases killed
      next other =>
        rw [if_neg other]
        split at killed
        next orphaned =>
          rw [if_pos orphaned]
          exact ⟨rfl, killed⟩
        next kept =>
          rw [if_neg kept]
          exact ⟨rfl, killed⟩
  | wait => exact ⟨process, (mem_reap.mp member).1, rfl, killed⟩
  | @leave leaver leaverMem running _ =>
      rcases mem_leave.mp member with ⟨old, listed, rfl⟩
      have other : old.pid ≠ leaver.pid := by
        intro same
        rw [if_pos same] at killed
        rw [before.distinct old listed leaver leaverMem same, running] at killed
        cases killed
      rw [if_neg other] at killed ⊢
      exact ⟨old, listed, rfl, killed⟩

theorem killed_of_reap {zombie : ∀ process ∈ before, process.pid = pid → process.status = .zombie}
    {process : Process} (member : process ∈ before.reap pid zombie)
    (killed : process.status = .killed) :
    ∃ old ∈ before, old.group = process.group ∧ old.status = .killed :=
  ⟨process, (mem_reap.mp member).1, rfl, killed⟩

theorem killed_of_kill {process : Process} (member : process ∈ before.kill group)
    (killed : process.status = .killed) :
    process.group = group ∨ ∃ old ∈ before, old.group = process.group ∧ old.status = .killed := by
  rcases mem_kill.mp member with ⟨old, listed, rfl⟩
  split at killed
  next reached =>
    rw [if_pos reached]
    exact .inl reached.1
  next missed =>
    rw [if_neg missed]
    exact .inr ⟨old, listed, rfl, killed⟩

end Groups

end ProcessTable

end LzuMirror
