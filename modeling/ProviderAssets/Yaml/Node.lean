import ProviderAssets.Yaml.Fault
import ProviderAssets.Yaml.Token

/-!
# Documents as trees

A document is a tree of scalars, sequences and mappings, with aliases that stand for anchored
nodes. Where a text breaks off because of a fault its tree ends in `missing` nodes, so that what
comes before the fault can still be looked at in order.
-/

namespace ProviderAssets.Yaml

/-- What every node has. -/
structure NodeInfo where
  /-- Where it begins. -/
  mark : Mark
  /-- The number of its anchor. -/
  anchor : Option Nat := none
  /-- Its tag. -/
  tag : Option String := none
  deriving Inhabited

/-- A node. -/
inductive Node where
  /-- The contents of a text without any document; the mark is its end. -/
  | absent (mark : Mark)
  /-- The place where the text breaks off. -/
  | missing
  /-- Another mention of the node with the given anchor. -/
  | aliasOf (mark : Mark) (anchor : Nat)
  | scalar (info : NodeInfo) (text : String) (style : ScalarStyle)
  | sequence (info : NodeInfo) (items : List Node)
  | mapping (info : NodeInfo) (entries : List (Node × Node))
  deriving Inhabited

namespace Node

/-- Where a node begins. -/
def mark : Node → Mark
  | missing => Mark.start
  | absent mark => mark
  | aliasOf mark _ => mark
  | scalar info _ _ | sequence info _ | mapping info _ => info.mark

mutual

/-- The number of scalars and aliases, and of beginnings and ends of collections, in a node. -/
def size : Node → Nat
  | absent _ => 1
  | missing => 0
  | aliasOf _ _ | scalar _ _ _ => 1
  | sequence _ items => 1 + sizeOfItems items
  | mapping _ entries => 1 + sizeOfEntries entries

/-- The size of the items of a sequence and of its end. -/
def sizeOfItems : List Node → Nat
  | [] => 1
  | [missing] => 0
  | x :: xs => x.size + sizeOfItems xs

/-- The size of the entries of a mapping and of its end. -/
def sizeOfEntries : List (Node × Node) → Nat
  | [] => 1
  | [(missing, _)] => 0
  | (k, v) :: rest => k.size + v.size + sizeOfEntries rest

end

mutual

/-- The anchored nodes of a node with their numbers, in the order in which they begin. -/
def anchored : Node → List (Nat × Node)
  | absent _ | missing | aliasOf _ _ => []
  | n@(scalar info _ _) => info.anchor.toList.map (·, n)
  | n@(sequence info items) => info.anchor.toList.map (·, n) ++ anchoredItems items
  | n@(mapping info entries) => info.anchor.toList.map (·, n) ++ anchoredEntries entries

/-- The anchored nodes among the items of a sequence. -/
def anchoredItems : List Node → List (Nat × Node)
  | [] => []
  | x :: xs => x.anchored ++ anchoredItems xs

/-- The anchored nodes among the entries of a mapping. -/
def anchoredEntries : List (Node × Node) → List (Nat × Node)
  | [] => []
  | (k, v) :: rest => k.anchored ++ v.anchored ++ anchoredEntries rest

end

end Node

/-- A document. -/
structure Document where
  /-- The node that all others are in. -/
  root : Node
  /-- The fault that ends the document, if there is one. -/
  fault : Option Fault := none
  deriving Inhabited

end ProviderAssets.Yaml
