import LzuMirror.Lib.Overlap
import LzuMirror.Lib.Table

/-!
# Trees addressed by paths

A finite tree as the table of its nodes, each under the path that leads to it.
Pruning a path removes the node there and everything below it; a path that does
not lie there keeps its node, and a directory loses just the entries that do.
-/

namespace LzuMirror

/-- A node with the path that leads to it. -/
structure PathNode (κ ν : Type) where
  path : List κ
  kind : ν
  deriving DecidableEq

/-- Nodes with different paths. -/
abbrev PathTree (κ ν : Type) := Table fun node : PathNode κ ν => node.path

namespace PathTree

variable {κ ν : Type} [DecidableEq κ]

/-- What stands at a path. -/
def kindAt (tree : PathTree κ ν) (path : List κ) : Option ν :=
  (tree.find? path).map (·.kind)

/-- The nodes directly below a path. -/
def entries (tree : PathTree κ ν) (directory : List κ) : List (PathNode κ ν) :=
  tree.select fun node => decide (node.path ≠ []) && decide (node.path.dropLast = directory)

/-- The tree without the node at a path and what lies below it. -/
def prune (path : List κ) (tree : PathTree κ ν) : PathTree κ ν :=
  tree.delete fun node => path.isPrefixOf node.path

/-- Several subtrees removed one after another. -/
def pruneAll (paths : List (List κ)) (tree : PathTree κ ν) : PathTree κ ν :=
  paths.foldl (fun tree path => prune path tree) tree

/-- The nodes on the way to a path, all of one kind. -/
def chain (kind : ν) (path : List κ) : PathTree κ ν :=
  ⟨(List.range (path.length + 1)).map fun depth => ⟨path.take depth, kind⟩, by
    rw [List.map_map]
    apply List.Nodup.map_on _ List.nodup_range
    intro first firstMem second secondMem same
    have sizes := congrArg List.length same
    simp only [List.mem_range] at firstMem secondMem
    simp only [Function.comp, List.length_take] at sizes
    omega⟩

variable {tree : PathTree κ ν} {node : PathNode κ ν} {path directory : List κ}
  {paths : List (List κ)}

theorem mem_entries :
    node ∈ tree.entries directory ↔ node ∈ tree ∧ ∃ name, node.path = directory ++ [name] := by
  simp only [entries, Table.mem_select, Bool.and_eq_true, decide_eq_true_eq]
  apply and_congr_right
  intro _
  constructor
  · rintro ⟨nonempty, rfl⟩
    exact ⟨_, (List.dropLast_append_getLast nonempty).symm⟩
  · rintro ⟨name, shape⟩
    simp [shape]

omit [DecidableEq κ] in
theorem mem_chain {kind : ν} : node ∈ chain kind path ↔ node.path <+: path ∧ node.kind = kind := by
  simp only [chain, Table.mem_def, List.mem_map, List.mem_range]
  constructor
  · rintro ⟨depth, _, rfl⟩
    exact ⟨List.take_prefix depth path, rfl⟩
  · rintro ⟨above, rfl⟩
    refine ⟨node.path.length, Nat.lt_succ_of_le above.length_le, ?_⟩
    rw [← List.prefix_iff_eq_take.mp above]

theorem kindAt_chain {kind found : ν} (known : (chain kind path).kindAt directory = some found) :
    found = kind := by
  rcases Option.map_eq_some_iff.mp known with ⟨node, located, rfl⟩
  exact (mem_chain.mp (Table.find?_eq_some_iff.mp located).1).2

theorem kindAt_of_mem (member : node ∈ tree) : tree.kindAt node.path = some node.kind := by
  have found : tree.find? node.path = some node := Table.find?_of_mem member
  simp [kindAt, found]

omit [DecidableEq κ] in
theorem mem_delete {matching : PathNode κ ν → Bool} :
    node ∈ tree.delete matching ↔ node ∈ tree ∧ matching node = false := by
  simp [Table.delete, Table.mem_def]

@[simp]
theorem mem_prune : node ∈ prune path tree ↔ node ∈ tree ∧ ¬path <+: node.path := by
  rw [prune, mem_delete, ← List.isPrefixOf_iff_prefix, Bool.not_eq_true]

@[simp]
theorem pruneAll_cons : pruneAll (path :: paths) tree = pruneAll paths (prune path tree) := rfl

theorem mem_pruneAll :
    node ∈ pruneAll paths tree ↔ node ∈ tree ∧ ∀ path ∈ paths, ¬path <+: node.path := by
  induction paths generalizing tree with
  | nil => simp [pruneAll]
  | cons first rest ih => rw [pruneAll_cons, ih, mem_prune, List.forall_mem_cons, and_assoc]

/-- A subtree that is kept keeps what is at its top. -/
theorem kindAt_pruneAll (kept : ∀ removed ∈ paths, ¬removed <+: path) :
    (pruneAll paths tree).kindAt path = tree.kindAt path := by
  have same : (pruneAll paths tree).find? path = tree.find? path := by
    apply Option.ext
    intro node
    rw [Table.find?_eq_some_iff, Table.find?_eq_some_iff, mem_pruneAll]
    constructor
    · rintro ⟨⟨member, _⟩, here⟩
      exact ⟨member, here⟩
    · rintro ⟨member, rfl⟩
      exact ⟨⟨member, kept⟩, rfl⟩
  simp [kindAt, same]

/-- A directory loses the entries in the subtrees that are removed. -/
theorem entries_pruneAll :
    (pruneAll paths tree).entries directory =
      (tree.entries directory).filter fun node =>
        paths.all fun removed => !removed.isPrefixOf node.path := by
  induction paths generalizing tree with
  | nil => simp [pruneAll]
  | cons first rest ih =>
      rw [pruneAll_cons, ih]
      simp only [entries, prune, Table.select, Table.delete, List.filter_filter, List.all_cons]
      apply List.filter_congr
      intro node _
      ac_rfl

end PathTree

end LzuMirror
