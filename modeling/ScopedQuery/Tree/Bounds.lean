set_option autoImplicit false

namespace ScopedQuery.Tree

structure Bounds where
  lft : Int64
  rgt : Int64
  deriving DecidableEq

def Bounds.contains (a b : Bounds) : Bool := a.lft < b.lft && b.rgt < a.rgt

inductive Range where
  | inside (bounds : Bounds)
  | enclosing (bounds : Bounds)

structure Node where
  name : String
  lft : Int64
  rgt : Int64

def Node.bounds (n : Node) : Bounds := ⟨n.lft, n.rgt⟩

def Node.isOrdered (n : Node) : Bool := n.lft < n.rgt

/-- The nodes in a range, in the order of the range. Nodes with the same left end keep their
order. -/
def nodesIn (nodes : List Node) : Range → List Node
  | .inside b =>
    (nodes.filter fun n => b.contains n.bounds).mergeSort fun m n => m.lft ≤ n.lft
  | .enclosing b =>
    (nodes.filter fun n => n.bounds.contains b).mergeSort fun m n => n.lft ≤ m.lft

end ScopedQuery.Tree
