import Mathlib
import QueryShape.Proofs.CatalogTable
import QueryShape.Proofs.VisitRenaming

/-!
# Catalogs with the same shapes

Two layouts whose fields differ only in the texts of types, and whose corresponding types lead to the
same places, have tables with the same places and corresponding shapes (`CatalogLayout.renaming_table`).
The ids may differ by a renaming that goes along with the dots of anonymous shapes.
-/

set_option autoImplicit false

namespace QueryShape

/-- Fields that are equal but for the texts of their types, at every depth. Corresponding types are
related by `same`. -/
inductive SameFields (same : Option String → Option String → Prop) :
    List FieldLayout → List FieldLayout → Prop
  | nil : SameFields same [] []
  | plain {name : String} {tag type type' : Option String} {embedded : Bool}
      {fields fields' : List FieldLayout} : same type type' → SameFields same fields fields' →
      SameFields same (⟨name, tag, type, embedded, none⟩ :: fields)
        (⟨name, tag, type', embedded, none⟩ :: fields')
  | spelled {name : String} {tag type type' : Option String} {embedded : Bool}
      {inner inner' fields fields' : List FieldLayout} : same type type' →
      SameFields same inner inner' → SameFields same fields fields' →
      SameFields same (⟨name, tag, type, embedded, some inner⟩ :: fields)
        (⟨name, tag, type', embedded, some inner'⟩ :: fields')

theorem SameFields.refl {same : Option String → Option String → Prop} (hsame : ∀ type, same type type) :
    (fields : List FieldLayout) → SameFields same fields fields
  | [] => .nil
  | ⟨_, _, type, _, none⟩ :: fields => .plain (hsame type) (refl hsame fields)
  | ⟨_, _, type, _, some inner⟩ :: fields =>
    .spelled (hsame type) (refl hsame inner) (refl hsame fields)

/-- Shapes of the same names with such fields. -/
def SameShapes (same : Option String → Option String → Prop)
    (shapes shapes' : OrderedMap String ShapeLayout) : Prop :=
  List.Forall₂ (fun e e' => e'.1 = e.1 ∧ SameFields same e.2 e'.2) shapes shapes'

theorem SameShapes.refl {same : Option String → Option String → Prop}
    (hsame : ∀ type, same type type) (shapes : OrderedMap String ShapeLayout) :
    SameShapes same shapes shapes :=
  List.forall₂_same.2 fun e _ => ⟨rfl, .refl hsame e.2⟩

theorem SameShapes.keys_eq {same : Option String → Option String → Prop}
    {shapes shapes' : OrderedMap String ShapeLayout} (h : SameShapes same shapes shapes') :
    OrderedMap.keys shapes' = OrderedMap.keys shapes := by
  induction h with
  | nil => rfl
  | cons he _ ih =>
    simp only [OrderedMap.keys, List.map_cons] at ih ⊢
    rw [he.1, ih]

theorem OrderedMap.rel_find? {κ α β : Type} [DecidableEq κ] {R : α → β → Prop} {m : OrderedMap κ α}
    {m' : OrderedMap κ β} (h : List.Forall₂ (fun e e' => e'.1 = e.1 ∧ R e.2 e'.2) m m') (key : κ) :
    Option.Rel R (find? m key) (find? m' key) := by
  induction h with
  | nil => exact .none
  | @cons e e' m m' he _ ih =>
    rw [find?, find?, he.1]
    split
    · exact .some he.2
    · exact ih

namespace CatalogLayout

/-- The place that the text of a type leads to. -/
def placeOf? (c : CatalogLayout) (type : Option String) : Option ShapePlace :=
  (type.bind TypeText.read?).bind fun t => (c.typeRef t).shape?

theorem shape?_typeRef_eq (c : CatalogLayout) (t : TypeText) : (c.typeRef t).shape? =
    if t.innermost ∈ OrderedMap.keys c.shapes then some ⟨t.innermost, []⟩ else none := by
  induction t with
  | named name =>
    have hiff := OrderedMap.contains_iff_mem_keys c.shapes name
    by_cases hname : name ∈ OrderedMap.keys c.shapes
    · rw [typeRef, if_pos (hiff.2 hname), TypeText.innermost, if_pos hname]
      rfl
    · rw [typeRef, if_neg (mt hiff.1 hname), TypeText.innermost, if_neg hname]
      rfl
  | list item ih => exact ih
  | optional type ih => exact ih

/-- The places depend on the names of the shapes only. -/
theorem placeOf?_congr {c c' : CatalogLayout}
    (h : OrderedMap.keys c'.shapes = OrderedMap.keys c.shapes) (type : Option String) :
    c.placeOf? type = c'.placeOf? type := by
  simp only [placeOf?, shape?_typeRef_eq, h]

theorem shape?_fieldType (c : CatalogLayout) (place : ShapePlace) (name : String)
    (tag type : Option String) (embedded : Bool) :
    (c.fieldType place ⟨name, tag, type, embedded, none⟩).shape? = c.placeOf? type := by
  simp only [fieldType, placeOf?]
  cases type.bind TypeText.read? <;> rfl

section
variable {c c' : CatalogLayout} {σ : String → String} {fields fields' : List FieldLayout}

theorem members_correspond (h : SameFields (fun a b => c.placeOf? a = c'.placeOf? b) fields fields')
    (place : Nat → ShapePlace) : List.Forall₂ (Member.Corresponds Eq)
      (fields.mapIdx fun i f => c.member (place i) f)
      (fields'.mapIdx fun i f => c'.member (place i) f) := by
  have hrefl : ∀ key : Option ShapePlace, Option.Rel Eq key key := by
    intro key
    cases key with
    | none => exact .none
    | some key => exact .some rfl
  induction h generalizing place with
  | nil => exact .nil
  | plain htype _ ih =>
    rw [List.mapIdx_cons, List.mapIdx_cons]
    refine .cons ⟨rfl, rfl, rfl, rfl, ?_⟩ (ih fun i => place (i + 1))
    simp only [member, shape?_fieldType, htype]
    exact hrefl _
  | spelled _ _ _ _ ih =>
    rw [List.mapIdx_cons, List.mapIdx_cons]
    exact .cons ⟨rfl, rfl, rfl, rfl, hrefl _⟩ (ih fun i => place (i + 1))

theorem shapeAt_corresponds (h : SameFields (fun a b => c.placeOf? a = c'.placeOf? b) fields fields')
    (place : ShapePlace) (id : String) (name : Option String) :
    Shape.Corresponds σ Eq (c.shapeAt place id name fields) (c'.shapeAt place (σ id) name fields') :=
  ⟨rfl, rfl, members_correspond h place.child⟩

theorem innerShapes_correspond (hdot : ∀ id name, σ (id ++ "." ++ name) = σ id ++ "." ++ name)
    (h : SameFields (fun a b => c.placeOf? a = c'.placeOf? b) fields fields') (place : ShapePlace)
    (id : String) (i : Nat) :
    List.Forall₂ (fun e e' => e'.1 = e.1 ∧ Shape.Corresponds σ Eq e.2 e'.2)
      (c.innerShapes place id i fields) (c'.innerShapes place (σ id) i fields') := by
  induction h generalizing place id i with
  | nil =>
    rw [innerShapes, innerShapes]
    exact .nil
  | plain _ _ ih =>
    simp only [innerShapes, List.nil_append]
    exact ih place id (i + 1)
  | spelled _ hin _ ihin ih =>
    simp only [innerShapes, List.cons_append, ← hdot]
    exact .cons ⟨rfl, shapeAt_corresponds hin _ _ none⟩
      (List.rel_append (ihin _ _ 0) (ih place id (i + 1)))

theorem shapesOf_correspond (hdot : ∀ id name, σ (id ++ "." ++ name) = σ id ++ "." ++ name)
    (hid : ∀ name, c'.shapeId name = σ (c.shapeId name))
    (h : SameFields (fun a b => c.placeOf? a = c'.placeOf? b) fields fields') (name : String) :
    List.Forall₂ (fun e e' => e'.1 = e.1 ∧ Shape.Corresponds σ Eq e.2 e'.2)
      (c.shapesOf name fields) (c'.shapesOf name fields') := by
  rw [shapesOf, shapesOf, hid]
  exact .cons ⟨rfl, shapeAt_corresponds h _ _ (some name)⟩ (innerShapes_correspond hdot h _ _ 0)

/-- The tables have the same places, with the same shapes but for their ids. -/
theorem renaming_table (hinj : Function.Injective σ)
    (hdot : ∀ id name, σ (id ++ "." ++ name) = σ id ++ "." ++ name)
    (hid : ∀ name, c'.shapeId name = σ (c.shapeId name))
    (h : SameShapes (fun a b => c.placeOf? a = c'.placeOf? b) c.shapes c'.shapes) :
    Renaming c.table.find? c'.table.find? σ Eq := by
  have htable : ∀ {shapes shapes'}, SameShapes (fun a b => c.placeOf? a = c'.placeOf? b) shapes shapes' →
      List.Forall₂ (fun e e' => e'.1 = e.1 ∧ Shape.Corresponds σ Eq e.2 e'.2)
        (shapes.flatMap fun e => c.shapesOf e.1 e.2) (shapes'.flatMap fun e => c'.shapesOf e.1 e.2) := by
    intro shapes shapes' hs
    induction hs with
    | nil => exact .nil
    | @cons e e' shapes shapes' he _ ih =>
      obtain ⟨_, fields⟩ := e
      obtain ⟨_, fields'⟩ := e'
      obtain ⟨rfl, he⟩ := he
      rw [List.flatMap_cons, List.flatMap_cons]
      exact List.rel_append (shapesOf_correspond hdot hid he _) ih
  refine ⟨hinj, ?_⟩
  rintro place _ rfl
  exact OrderedMap.rel_find? (htable h) place

end

end CatalogLayout

end QueryShape
