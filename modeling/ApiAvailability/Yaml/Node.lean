import ApiAvailability.Yaml.Token

/-!
# Yaml/Node — the tree of a YAML document

An anchor gives a node a number, under which an alias stands for the node. When a number is given
twice, the later node has it, for the aliases before it as well.
-/

namespace ApiAvailability.Yaml

/-- **The nodes of a document.** -/
inductive Node where
  /-- Stands for the node with this number. -/
  | reference (number : Nat)
  | scalar (anchor : Option Nat) (tag : Option Tag) (style : Style) (text : String)
  | sequence (anchor : Option Nat) (items : List Node)
  | mapping (anchor : Option Nat) (pairs : List (Node × Node))
  deriving Inhabited

namespace Node

/-- The node where nothing is written. -/
def empty : Node := scalar none none .plain ""

mutual

/-- The nodes with a number in a node, in the order of their beginnings. -/
def anchored : Node → List (Nat × Node)
  | reference _ => []
  | scalar a tag style text => a.toList.map (·, scalar a tag style text)
  | sequence a items => a.toList.map (·, sequence a items) ++ anchoredItems items
  | mapping a pairs => a.toList.map (·, mapping a pairs) ++ anchoredPairs pairs

/-- The nodes with a number in some nodes. -/
def anchoredItems : List Node → List (Nat × Node)
  | [] => []
  | n :: ns => anchored n ++ anchoredItems ns

/-- The nodes with a number in some pairs of nodes. -/
def anchoredPairs : List (Node × Node) → List (Nat × Node)
  | [] => []
  | (k, v) :: ps => anchored k ++ anchored v ++ anchoredPairs ps

end

mutual

/-- **The extent of a node**: one for each alias and scalar in it, and two for each sequence and
mapping, which begins and ends. -/
def extent : Node → Nat
  | reference _ => 1
  | scalar .. => 1
  | sequence _ items => 2 + extentItems items
  | mapping _ pairs => 2 + extentPairs pairs

/-- The extent of some nodes. -/
def extentItems : List Node → Nat
  | [] => 0
  | n :: ns => extent n + extentItems ns

/-- The extent of some pairs of nodes. -/
def extentPairs : List (Node × Node) → Nat
  | [] => 0
  | (k, v) :: ps => extent k + extent v + extentPairs ps

end

end Node

end ApiAvailability.Yaml
