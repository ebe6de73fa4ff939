import QueryShape.Data.OrderedMap

/-!
# Shapes

A shape describes a record of data by its members. Shapes refer to each other by keys into a table, so
that a finite table can describe recursive data. What identifies a shape is its id; several keys may
lead to shapes with one id.
-/

set_option autoImplicit false

namespace QueryShape

/-- The type of a member, as far as it matters for selecting data. -/
inductive TypeRef (κ : Type) where
  | scalar
  | shape (key : κ)
  | optional (type : TypeRef κ)
  | list (type : TypeRef κ)
deriving DecidableEq, Repr, Inhabited

/-- The shape inside all wrappers. -/
def TypeRef.shape? {κ : Type} : TypeRef κ → Option κ
  | scalar => none
  | shape key => some key
  | optional t => t.shape?
  | list t => t.shape?

structure Member (κ : Type) where
  ident : String
  /-- The annotation, still as text. -/
  tag : Option String := none
  /-- The name of the field where there is no annotation. -/
  fallbackName : Option String := none
  /-- Whether the members of the type become members of the shape itself. -/
  embedded : Bool := false
  type : TypeRef κ := .scalar
deriving DecidableEq, Repr, Inhabited

structure Shape (κ : Type) where
  id : String
  /-- The name of the GraphQL type; an anonymous shape has none. -/
  name : Option String
  members : List (Member κ)
deriving DecidableEq, Repr, Inhabited

/-- A finite table of shapes. -/
structure ShapeTable (κ : Type) where
  entries : OrderedMap κ (Shape κ) := []

namespace ShapeTable

variable {κ : Type} [DecidableEq κ]

def find? (t : ShapeTable κ) (key : κ) : Option (Shape κ) := OrderedMap.find? t.entries key

/-- The shape that a type refers to. A key without an entry refers to none. -/
def shapeOf? (t : ShapeTable κ) (type : TypeRef κ) : Option (Shape κ) := type.shape?.bind t.find?

def ids (t : ShapeTable κ) : List String := t.entries.map (·.2.id)

theorem id_mem_ids_of_find? {t : ShapeTable κ} {key : κ} {s : Shape κ} (h : t.find? key = some s) :
    s.id ∈ t.ids := by
  unfold find? at h
  unfold ids
  generalize t.entries = entries at h
  induction entries with
  | nil => simp [OrderedMap.find?] at h
  | cons e es ih =>
    simp only [OrderedMap.find?] at h
    split at h
    · cases h; simp
    · exact List.mem_cons_of_mem _ (ih h)

theorem id_mem_ids_of_shapeOf? {t : ShapeTable κ} {type : TypeRef κ} {s : Shape κ}
    (h : t.shapeOf? type = some s) : s.id ∈ t.ids := by
  obtain ⟨key, _, hk⟩ := Option.bind_eq_some_iff.1 h
  exact id_mem_ids_of_find? hk

end ShapeTable

end QueryShape
