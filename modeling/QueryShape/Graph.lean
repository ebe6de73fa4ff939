import QueryShape.Annotation

/-!
# The graph of shapes

Each distinct shape that can be reached from a root is one node. Nodes refer to each other by number,
and children come before their parents.
-/

set_option autoImplicit false

namespace QueryShape

/-- The field that tells the branches of a union apart. -/
def typenameField : String := "__typename"

/-- How a field takes part in its node; a nested shape without members has no node. -/
inductive FieldKind where
  | scalar
  /-- The nested selections stand in braces under the field. -/
  | object (nested : Option Nat)
  /-- The nested selections stand in place of the field. -/
  | inline (nested : Option Nat)
deriving DecidableEq, Repr, Inhabited

namespace FieldKind

def nested? : FieldKind → Option Nat
  | scalar => none
  | object n => n
  | inline n => n

def isInline : FieldKind → Bool
  | inline _ => true
  | _ => false

end FieldKind

structure Field where
  /-- The name in the response, `alias:name` with an alias. -/
  name : String
  kind : FieldKind
  arguments : OrderedMap String Argument
deriving Repr, Inhabited

structure Node where
  id : String
  name : Option String
  fields : List Field
  isUnion : Bool
  /-- How many fields refer to the node; one for the root. A number of 32 bits holds the count of every
  graph with fewer than `2 ^ 32` fields; no bound is set here. -/
  uses : Nat
deriving Repr, Inhabited

/-- The name, or the id where there is none. -/
def Node.label (n : Node) : String := n.name.getD n.id

structure Graph where
  nodes : Array Node := #[]
  /-- Nothing if the root shape has no members. -/
  root : Option Nat := none
deriving Repr, Inhabited

namespace Graph

abbrev size (g : Graph) : Nat := g.nodes.size

/-- The number of the first node with an id. -/
def find? (g : Graph) (id : String) : Option Nat := g.nodes.findIdx? (·.id == id)

def node (g : Graph) (k : Fin g.size) : Node := g.nodes[k]

/-- The node that a field of node `k` refers to. Children have smaller numbers than their parents, so a
number that is not smaller refers to none. -/
def child? (g : Graph) (k : Fin g.size) (f : Field) : Option { i : Fin g.size // i.val < k.val } :=
  f.kind.nested?.bind fun i =>
    if h : i < k.val then some ⟨⟨i, Nat.lt_trans h k.isLt⟩, h⟩ else none

end Graph

end QueryShape
