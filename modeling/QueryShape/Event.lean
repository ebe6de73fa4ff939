import QueryShape.Graph

/-!
# Events

What happens on the way from shapes to a document, for those who want to follow it.
-/

set_option autoImplicit false

namespace QueryShape

inductive Event where
  | usedIndent (unit : String)
  | loadedCatalog (path : String)
  | compilingCatalog (path root : String)
  | reusedShape (shape : String) (uses : Nat)
  | emptyShape (shape : String)
  | extractedShape (shape : String) (fields : Nat) (isUnion : Bool)
  | resolvedField (shape field : String) (kind : FieldKind)
  | spreadFragment (shape fragment : String)
  | numberedFragment (shape fragment : String)
  | registeredFragment (shape fragment : String)
  | newVariable (name : String) (path : List String)
  | reusedVariable (name : String) (path : List String)
deriving DecidableEq, Repr

end QueryShape
