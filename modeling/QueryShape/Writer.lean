import QueryShape.Event
import QueryShape.FragmentName
import QueryShape.Indent
import QueryShape.VariableSlot

/-!
# Writing selections

The writer goes through a graph from its root, depth first, and writes the selections as it goes. A node
that several fields use becomes a fragment where it first has to stand in braces, and every later use
spreads that fragment; before that, and wherever a node is used once, its selections are written out.
Variables are collected in the order of their first use.
-/

set_option autoImplicit false

namespace QueryShape

/-- What a writer has come to. -/
structure Writer where
  indent : Indent
  /-- The names of the fields from the root to here. -/
  path : List String := []
  /-- The fragments by the ids of their shapes. -/
  fragments : OrderedMap String Fragment := []
  vars : List VariableSlot := []
  events : Array Event := #[]

namespace Writer

/-- A step of the writer; the state is there also after a failure. -/
abbrev Step := ExceptT Failure (StateM Writer)

def log (e : Event) : Step Unit := modify fun t => { t with events := t.events.push e }

/-- The indentation of a level. -/
def indentAt (level : Nat) : Step String :=
  modifyGet fun t =>
    let (text, indent) := t.indent.read level
    (text, { t with indent })

/-- Goes to a field below the first `depth` names of the path. -/
def goTo (depth : Nat) (name : String) : Step Unit :=
  modify fun t => { t with path := t.path.take depth ++ [name] }

/-- Cuts the path back to its length before the step, also after a failure. -/
def restoring {α : Type} (step : Step α) : Step α := fun t =>
  let (r, t') := step.run t
  (r, { t' with path := t'.path.take t.path.length })

/-! ## Arguments -/

/-- Takes note of a use of a variable, and gives its name. -/
def useVariable (key : String) (explicitName : Option String) (type : Option String)
    (default : Option Value) : Step String := do
  let t ← get
  let name := variableName t.path key explicitName
  let path := Failure.pathText t.path
  match t.vars.find? (·.entry.name == name) with
  | none =>
    log (.newVariable name t.path)
    modify fun t =>
      { t with vars := t.vars ++ [⟨⟨name, type, [path], default⟩, explicitName.isSome⟩] }
  | some slot =>
    match slot.checkUse explicitName.isSome type t.path with
    | .error e => throw e
    | .ok _ =>
      log (.reusedVariable name t.path)
      modify fun t => { t with vars := VariableSlot.addUse t.vars name path }
  pure name

/-- The text of an argument; there may be none for a literal. -/
def argument (key : String) : Argument → Step String
  | .literal value _ => pure value.literalText
  | .variable name type default => do
    let used ← useVariable key name type default
    pure ("$" ++ used)

/-- The arguments with text, each after its key. -/
def argumentParts : List (String × Argument) → Step (List String)
  | [] => pure []
  | (key, a) :: rest => do
    let value ← argument key a
    let parts ← argumentParts rest
    pure (if value.isEmpty then parts else (key ++ ": " ++ value) :: parts)

/-- The arguments of a field in parentheses, or nothing if none has text. -/
def arguments (f : Field) : Step String := do
  let parts ← argumentParts f.arguments
  pure (if parts.isEmpty then "" else "(" ++ ", ".intercalate parts ++ ")")

/-! ## Fragments -/

/-- The fragment of a node that is used more than once. -/
def fragmentOf? (t : Writer) (node : Node) : Option Fragment :=
  if 1 < node.uses then t.fragments.find? node.id else none

/-- Makes the selections of a node, in braces, a fragment, and gives its name. A fragment of the same
shape is replaced where it stands. -/
def register (node : Node) (braces : String) : Step String := do
  let t ← get
  let base := fragmentName node.id
  let name := freshName (t.fragments.map (·.2.name)) base
  let type := node.name.getD name
  if name ≠ base then log (.numberedFragment node.id name)
  log (.registeredFragment node.id name)
  let definition : Fragment := ⟨name, type, "fragment " ++ name ++ " on " ++ type ++ braces⟩
  modify fun t => { t with fragments := t.fragments.insert node.id definition }
  pure name

/-! ## Nodes and fields -/

mutual

/-- The selections of a node. Where the node stands in place of a field, they have no braces; a member
of a union has braces all the same. The level is that of the field the node belongs to. -/
def selectionSet (g : Graph) (k : Fin g.size) (inline unionMember : Bool) (level : Nat) :
    Step String := do
  let node := g.node k
  let braced := !inline || unionMember
  match (← get).fragmentOf? node with
  | some f =>
    log (.spreadFragment node.id f.name)
    if braced then pure ("\x7b ..." ++ f.name ++ " \x7d")
    else
      let indent ← indentAt (level + 1)
      pure ("\n" ++ indent ++ "..." ++ f.name)
  | none =>
    if braced then
      -- the text of a fragment starts at the margin
      let level := if 1 < node.uses then 0 else level
      let inner ← fields g k level node.fields
      let indent ← indentAt level
      let braces := "\x7b" ++ inner ++ "\n" ++ indent ++ "\x7d"
      if 1 < node.uses then
        let name ← register node braces
        pure ("\x7b ..." ++ name ++ " \x7d")
      else pure braces
    else fields g k level node.fields
termination_by (k.val, 1, 0)

/-- Fields of node `k`, one after the other. -/
def fields (g : Graph) (k : Fin g.size) (level : Nat) (fs : List Field) : Step String :=
  restoring do fieldsFrom g k level (← get).path.length fs
termination_by (k.val, 0, fs.length + 2)

/-- Fields of node `k` below the first `depth` names of the path. The name of the last field stays on
the path. -/
def fieldsFrom (g : Graph) (k : Fin g.size) (level depth : Nat) : List Field → Step String
  | [] => pure ""
  | f :: fs => do
    goTo depth f.name
    let here ← (if (g.node k).isUnion then unionBranch g k level f else field g k level f)
    let rest ← fieldsFrom g k level depth fs
    pure (here ++ rest)
termination_by fs => (k.val, 0, fs.length + 1)

/-- A field of a node that is no union. -/
def field (g : Graph) (k : Fin g.size) (level : Nat) (f : Field) : Step String := do
  if f.kind.isInline then
    match g.child? k f with
    | some ⟨i, _⟩ => selectionSet g i true false level
    | none => pure ""
  else
    let indent ← indentAt (level + 1)
    let clause ← arguments f
    match g.child? k f with
    | some ⟨i, _⟩ =>
      let set ← selectionSet g i false false (level + 1)
      pure ("\n" ++ indent ++ f.name ++ clause ++ set)
    | none => pure ("\n" ++ indent ++ f.name ++ clause)
termination_by (k.val, 0, 0)

/-- A field of a union: the discriminator, or the branch of a shape. -/
def unionBranch (g : Graph) (k : Fin g.size) (level : Nat) (f : Field) : Step String := do
  let indent ← indentAt (level + 1)
  if f.name = typenameField then pure ("\n" ++ indent ++ f.name)
  else
    match g.child? k f with
    | none => throw (.scalarBranch f.name (g.node k).label (← get).path)
    | some ⟨i, _⟩ =>
      match (g.node i).name with
      | none => throw (.anonymousBranch f.name (← get).path)
      | some type =>
        let set ← selectionSet g i f.kind.isInline true (level + 1)
        pure ("\n" ++ indent ++ "... on " ++ type ++ " " ++ set)
termination_by (k.val, 0, 0)

end

/-- The operation with this text for its root. -/
def finish (t : Writer) (body : String) : Compiled :=
  ⟨body, t.vars.map (·.entry), t.fragments.map (·.2)⟩

end Writer

end QueryShape
