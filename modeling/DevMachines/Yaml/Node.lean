import DevMachines.Yaml.Tag

/-!
# Nodes of a document

A document is a tree of tagged nodes.  Every node has a label of its own, and an `alias` is a leaf
that names the label of the node it stands for.  So the tree is finite even where the document goes
round in a circle.
-/

namespace DevMachines.Yaml

/-- A node of a document. -/
inductive Node where
  | scalar (label : Nat) (tag : String) (text : String)
  | sequence (label : Nat) (tag : String) (items : List Node)
  | mapping (label : Nat) (tag : String) (entries : List (Node × Node))
  | alias (label : Nat)
  deriving Inhabited, Repr

namespace Node

mutual

/-- The node with a label, if the tree has it. -/
def find? (label : Nat) : Node → Option Node
  | .scalar l t s => if l = label then some (.scalar l t s) else none
  | .sequence l t items =>
      if l = label then some (.sequence l t items) else findItems? label items
  | .mapping l t entries =>
      if l = label then some (.mapping l t entries) else findEntries? label entries
  | .alias _ => none

/-- The node with a label in a list of trees. -/
def findItems? (label : Nat) : List Node → Option Node
  | [] => none
  | n :: rest => match find? label n with
      | some found => some found
      | none => findItems? label rest

/-- The node with a label in a list of entries. -/
def findEntries? (label : Nat) : List (Node × Node) → Option Node
  | [] => none
  | (k, v) :: rest => match find? label k with
      | some found => some found
      | none => match find? label v with
          | some found => some found
          | none => findEntries? label rest

end

mutual

/-- The number of nodes of a tree. -/
def size : Node → Nat
  | .scalar .. => 1
  | .sequence _ _ items => sizeItems items + 1
  | .mapping _ _ entries => sizeEntries entries + 1
  | .alias _ => 1

/-- The number of nodes of a list of trees. -/
def sizeItems : List Node → Nat
  | [] => 0
  | n :: rest => size n + sizeItems rest

/-- The number of nodes of a list of entries. -/
def sizeEntries : List (Node × Node) → Nat
  | [] => 0
  | (k, v) :: rest => size k + size v + sizeEntries rest

end

/-- The tag of a node; an alias has none of its own. -/
def tag : Node → String
  | .scalar _ t _ => t
  | .sequence _ t _ => t
  | .mapping _ t _ => t
  | .alias _ => ""

/-- The node that a node stands for in a document: itself, unless it is an alias. -/
def deref (n document : Node) : Node :=
  match n with
  | .alias label => (find? label document).getD (.alias label)
  | n => n

end Node
end DevMachines.Yaml
