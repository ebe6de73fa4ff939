import QueryShape.Proofs.VisitInv

/-!
# Unfolding graphs

A shape tree is a shape with everything below it written out and nothing shared. `unfoldAt` reads
the tree of a node off a graph. `unfoldAt_eq_some` is its equation where fields refer to earlier
nodes, and `unfoldAt_extends` says that the tree of a node stays as it is while an extraction goes on.
-/

set_option autoImplicit false

namespace QueryShape

mutual

inductive ShapeTree where
  | mk (id : String) (name : Option String) (isUnion : Bool) (fields : List FieldTree)

inductive FieldTree where
  | mk (name : String) (kind : KindTree) (arguments : OrderedMap String Argument)

/-- How a field takes part in its shape, as `FieldKind`. -/
inductive KindTree where
  | scalar
  | object (nested : Option ShapeTree)
  | inline (nested : Option ShapeTree)

end

def FieldKind.unfold (tree : Nat → Option ShapeTree) : FieldKind → KindTree
  | .scalar => .scalar
  | .object nested => .object (nested.bind tree)
  | .inline nested => .inline (nested.bind tree)

def Field.unfold (tree : Nat → Option ShapeTree) (f : Field) : FieldTree :=
  .mk f.name (f.kind.unfold tree) f.arguments

/-- A node with the trees of the nodes it refers to. -/
def Node.unfold (tree : Nat → Option ShapeTree) (n : Node) : ShapeTree :=
  .mk n.id n.name n.isUnion (n.fields.map (·.unfold tree))

/-- The tree of node `k`. A reference that does not go to an earlier node has no tree. -/
def unfoldAt (nodes : Array Node) (k : Nat) : Option ShapeTree :=
  nodes[k]?.map (·.unfold fun i => if _h : i < k then unfoldAt nodes i else none)
termination_by k

/-- The tree of the root. -/
def Graph.unfolding (g : Graph) : Option ShapeTree := g.root.bind (unfoldAt g.nodes)

theorem FieldKind.unfold_congr {kind : FieldKind} {tree tree' : Nat → Option ShapeTree}
    (h : ∀ i, kind.nested? = some i → tree i = tree' i) : kind.unfold tree = kind.unfold tree' := by
  rcases kind with _ | (_ | i) | (_ | i)
  · rfl
  · rfl
  · simp only [unfold, Option.bind_some, h i rfl]
  · rfl
  · simp only [unfold, Option.bind_some, h i rfl]

theorem Node.unfold_congr {n : Node} {tree tree' : Nat → Option ShapeTree}
    (h : ∀ f ∈ n.fields, ∀ i, f.kind.nested? = some i → tree i = tree' i) :
    n.unfold tree = n.unfold tree' := by
  simp only [unfold, ShapeTree.mk.injEq, true_and, List.map_inj_left]
  intro f hf
  simp only [Field.unfold, FieldKind.unfold_congr (h f hf)]

theorem Node.Grows.unfold {n n' : Node} (h : n.Grows n') (tree : Nat → Option ShapeTree) :
    n'.unfold tree = n.unfold tree := by
  obtain ⟨u, -, rfl⟩ := h
  rfl

theorem unfoldAt_eq_some {nodes : Array Node} {k : Nat} {n : Node} (hn : nodes[k]? = some n)
    (hb : ∀ f ∈ n.fields, ∀ i, f.kind.nested? = some i → i < k) :
    unfoldAt nodes k = some (n.unfold (unfoldAt nodes)) := by
  rw [unfoldAt, hn, Option.map_some]
  congr 1
  exact Node.unfold_congr fun f hf i hi => dif_pos (hb f hf i hi)

theorem unfoldAt_extends {st st' : Extraction} (h : st.Extends st') {k : Nat}
    (hk : k < st.nodes.size) : unfoldAt st'.nodes k = unfoldAt st.nodes k := by
  induction k using Nat.strongRecOn with
  | _ k ih =>
    obtain ⟨n', hn', hg⟩ := h.nodes k _ (Array.getElem?_eq_getElem hk)
    rw [unfoldAt, unfoldAt, hn', Array.getElem?_eq_getElem hk, Option.map_some, Option.map_some,
      hg.unfold]
    congr 1
    refine Node.unfold_congr fun f _ i _ => ?_
    split
    · exact ih i ‹_› (by omega)
    · rfl

end QueryShape
