import QueryShape.Event
import QueryShape.FragmentName
import QueryShape.Proofs.Outline
import QueryShape.VariableSlot

/-!
# From a graph to an outline

The walk makes the outline of a graph: it goes the way of the writer, and puts trees together where the
writer puts down text. It knows nothing of levels and indentation.
-/

set_option autoImplicit false

namespace QueryShape

/-- What a walk has come to. -/
structure Walk where
  /-- The names of the fields from the root to here. -/
  path : List String := []
  fragments : List FragmentOutline := []
  vars : List VariableSlot := []
  events : Array Event := #[]

namespace Walk

/-- A step of the walk; the state is there also after a failure. -/
abbrev Step := ExceptT Failure (StateM Walk)

def log (e : Event) : Step Unit := modify fun w => { w with events := w.events.push e }

/-- Goes to a field below the first `depth` names of the path. -/
def goTo (depth : Nat) (name : String) : Step Unit :=
  modify fun w => { w with path := w.path.take depth ++ [name] }

/-- Cuts the path back to its length before the step, also after a failure. -/
def restoring {α : Type} (step : Step α) : Step α := fun w =>
  let (r, w') := step.run w
  (r, { w' with path := w'.path.take w.path.length })

/-! ## Variables -/

/-- Takes note of a use of a variable, and gives its name. -/
def useVariable (key : String) (explicitName : Option String) (type : Option String)
    (default : Option Value) : Step String := do
  let w ← get
  let name := explicitName.getD (placeName w.path key)
  let path := Failure.pathText w.path
  match w.vars.find? (·.entry.name == name) with
  | none =>
    log (.newVariable name w.path)
    modify fun w =>
      { w with vars := w.vars ++ [⟨⟨name, type, [path], default⟩, explicitName.isSome⟩] }
  | some slot =>
    liftExcept (slot.checkUse explicitName.isSome type w.path)
    log (.reusedVariable name w.path)
    modify fun w => { w with vars := VariableSlot.addUse w.vars name path }
  pure name
where
  liftExcept : Except Failure Unit → Step Unit
    | .ok _ => pure ()
    | .error e => throw e

/-- What is written for the arguments of a field; a literal without text is left out. -/
def arguments : List (String × Argument) → Step (List (String × Operand))
  | [] => pure []
  | (key, .literal value _) :: rest => do
    let text := value.literalText
    let operands ← arguments rest
    pure (if text.isEmpty then operands else (key, .literal text) :: operands)
  | (key, .variable name type default) :: rest => do
    let used ← useVariable key name type default
    let operands ← arguments rest
    pure ((key, .variable used name.isSome) :: operands)

/-! ## Fragments -/

/-- The fragment of a node that is used more than once. -/
def fragmentOf? (w : Walk) (node : Node) : Option FragmentOutline :=
  if 1 < node.uses then w.fragments.find? (·.shapeId == node.id) else none

/-- The fragments with one more at the end. A fragment of the same shape is replaced where it stands. -/
def putFragment : List FragmentOutline → FragmentOutline → List FragmentOutline
  | [], f => [f]
  | f' :: fs, f => if f'.shapeId = f.shapeId then f :: fs else f' :: putFragment fs f

/-- Makes the selections of a node a fragment, and gives its name. -/
def register (node : Node) (selections : List Selection) : Step String := do
  let w ← get
  let base := fragmentName node.id
  let name := freshName (w.fragments.map (·.name)) base
  if name ≠ base then log (.numberedFragment node.id name)
  log (.registeredFragment node.id name)
  modify fun w =>
    { w with fragments := putFragment w.fragments ⟨node.id, name, node.name.getD name, selections⟩ }
  pure name

/-! ## Nodes and fields -/

mutual

/-- A node in braces. -/
def group (g : Graph) (k : Fin g.size) : Step Group := do
  let node := g.node k
  match fragmentOf? (← get) node with
  | some f =>
    log (.spreadFragment node.id f.name)
    pure (.spread f.name)
  | none =>
    let selections ← fields g k node.fields
    if 1 < node.uses then
      let name ← register node selections
      pure (.spread name)
    else pure (.block selections)
termination_by (k.val, 1, 0)

/-- A node whose selections stand in place of a field. -/
def splice (g : Graph) (k : Fin g.size) : Step (List Selection) := do
  let node := g.node k
  match fragmentOf? (← get) node with
  | some f =>
    log (.spreadFragment node.id f.name)
    pure [.spread f.name]
  | none => fields g k node.fields
termination_by (k.val, 1, 0)

/-- Fields of node `k`, one after the other. -/
def fields (g : Graph) (k : Fin g.size) (fs : List Field) : Step (List Selection) :=
  restoring do fieldsFrom g k (← get).path.length fs
termination_by (k.val, 0, fs.length + 2)

/-- Fields of node `k` below the first `depth` names of the path. The name of the last field stays on
the path. -/
def fieldsFrom (g : Graph) (k : Fin g.size) (depth : Nat) : List Field → Step (List Selection)
  | [] => pure []
  | f :: fs => do
    goTo depth f.name
    let here ← (if (g.node k).isUnion then branch g k f else field g k f)
    let rest ← fieldsFrom g k depth fs
    pure (here ++ rest)
termination_by fs => (k.val, 0, fs.length + 1)

/-- A field of a node that is no union. -/
def field (g : Graph) (k : Fin g.size) (f : Field) : Step (List Selection) := do
  if f.kind.isInline then
    match g.child? k f with
    | some ⟨i, _⟩ => splice g i
    | none => pure []
  else
    let operands ← arguments f.arguments
    match g.child? k f with
    | some ⟨i, _⟩ => pure [.nested f.name operands (← group g i)]
    | none => pure [.leaf f.name operands]
termination_by (k.val, 0, 0)

/-- A field of a union: the discriminator, or the branch of a shape. -/
def branch (g : Graph) (k : Fin g.size) (f : Field) : Step (List Selection) := do
  if f.name = typenameField then pure [.leaf f.name []]
  else
    match g.child? k f with
    | none => throw (.scalarBranch f.name (g.node k).label (← get).path)
    | some ⟨i, _⟩ =>
      match (g.node i).name with
      | none => throw (.anonymousBranch f.name (← get).path)
      | some type => pure [.branch type (← group g i)]
termination_by (k.val, 0, 0)

end

end Walk

namespace Outline

/-- The outline of a graph, and what happened on the way. -/
def ofGraphLogged (g : Graph) : Except Failure Outline × Array Event :=
  match g.root with
  | none => (.error .nothing, #[])
  | some k =>
    if h : k < g.size then
      let (r, w) := (Walk.group g ⟨k, h⟩).run.run {}
      (r.map fun root => ⟨root, w.vars.map (·.entry), w.fragments⟩, w.events)
    else (.error .nothing, #[])

def ofGraph (g : Graph) : Except Failure Outline := (ofGraphLogged g).1

end Outline

end QueryShape
