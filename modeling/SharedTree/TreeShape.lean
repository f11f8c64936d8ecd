import SharedTree.Identity
import SharedTree.Ordinal.Basic

/-!
The shape of a tree as far as ordering needs it: the parent and the position of each node. Parents
need not form a tree; a chain of parents is followed until it ends or comes back to a node already
passed.
-/

namespace SharedTree

/-- Parents and positions of the nodes of a tree. Only a listed node has a parent, so that a chain
of parents ends or repeats itself. -/
structure TreeShape where
  nodes : List Handle
  parent : Handle → Option Handle
  ordinal : Handle → Option Ordinal
  listed : ∀ h, (parent h).isSome → h ∈ nodes

namespace TreeShape

/-- One step of a path: a node with its position. -/
abbrev Step := Option Ordinal × Handle

/-- The nodes from a node up, the node itself first, at most `fuel` of them and none that was
passed. -/
def climb (tree : TreeShape) : (fuel : Nat) → (passed : List Handle) → Handle → List Step
  | 0, _, _ => []
  | fuel + 1, passed, h =>
    if h ∈ passed then []
    else (tree.ordinal h, h) ::
      match tree.parent h with
      | none => []
      | some p => tree.climb fuel (h :: passed) p

/-- The path to a node from the topmost node above it. There are no more steps than listed nodes,
and one for the node where a chain of parents leaves the tree. -/
def path (tree : TreeShape) (h : Handle) : List Step :=
  (tree.climb (tree.nodes.length + 1) [] h).reverse

/-- One row of a tree given as a list. -/
structure Row where
  handle : Handle
  parent : Option Handle
  ordinal : Option Ordinal

/-- The shape given by a list; of two rows with one handle the last counts. -/
def ofList (rows : List Row) : TreeShape where
  nodes := rows.map (·.handle)
  parent h := (rows.reverse.find? (·.handle = h)).bind (·.parent)
  ordinal h := (rows.reverse.find? (·.handle = h)).bind (·.ordinal)
  listed h found := by
    cases search : rows.reverse.find? (·.handle = h) with
    | none => simp [search] at found
    | some row =>
      have member := List.mem_of_find?_eq_some search
      have same := List.find?_some search
      simp only [decide_eq_true_eq] at same
      exact List.mem_map.2 ⟨row, List.mem_reverse.1 member, same⟩

end TreeShape

end SharedTree
