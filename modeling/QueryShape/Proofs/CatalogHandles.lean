import Mathlib
import QueryShape.Proofs.CatalogIdentity
import QueryShape.Proofs.VisitRenaming

/-!
# Shapes that are described on demand

The shapes of a catalog need no table: a `ShapeHandle` holds what it takes to describe a shape, and the
description has handles on the shapes inside. The ids of anonymous shapes are put together on the way,
and a recursive catalog can be followed for ever. Still a handle that is met stands at a place of the
table (`StandsAt`), so there are no other ids than those of the table, and extraction on demand is
extraction from the table (`CatalogLayout.renaming_describe`).

`extraction_terminates` puts together what is known of the end of extractions, from tables and on
demand.
-/

set_option autoImplicit false

namespace QueryShape

theorem dotted_concat (id : String) (names : List String) (name : String) :
    dotted id (names ++ [name]) = dotted id names ++ "." ++ name := by
  simp [dotted, List.foldl_append]

/-- What it takes to describe a shape of a catalog. -/
structure ShapeHandle where
  id : String
  name : Option String
  fields : List FieldLayout

namespace CatalogLayout

/-- The handle of a named shape. -/
def handle? (c : CatalogLayout) (name : String) : Option ShapeHandle :=
  (OrderedMap.find? c.shapes name).map fun fields => ⟨c.shapeId name, some name, fields⟩

/-- What a type refers to: a name that is not one of the shapes stands for scalars. -/
def handleRef (c : CatalogLayout) : TypeText → TypeRef ShapeHandle
  | .named name =>
    match c.handle? name with
    | some h => .shape h
    | none => .scalar
  | .list item => .list (c.handleRef item)
  | .optional type => .optional (c.handleRef type)

/-- The type of a field of the shape with this id. -/
def handleType (c : CatalogLayout) (id : String) (f : FieldLayout) : TypeRef ShapeHandle :=
  match f.shape, f.type.bind TypeText.read? with
  | some fields, _ => .shape ⟨id ++ "." ++ f.name, none, fields⟩
  | none, some t => c.handleRef t
  | none, none => .scalar

/-- The shape of a handle, with handles on the shapes that its members refer to. -/
def describe (c : CatalogLayout) (h : ShapeHandle) : Shape ShapeHandle where
  id := h.id
  name := h.name
  members := h.fields.map fun f =>
    { ident := f.name, tag := f.tag, embedded := f.embedded, type := c.handleType h.id f }

/-- A member of the shape of `h` has a type that leads to `h'`. -/
def HandleRefers (c : CatalogLayout) (h h' : ShapeHandle) : Prop :=
  ∃ m ∈ (c.describe h).members, m.type.shape? = some h'

/-! ## Handles and places -/

/-- The handle is on the shape that stands at the place. -/
structure StandsAt (c : CatalogLayout) (place : ShapePlace) (h : ShapeHandle) : Prop where
  name : h.name = if place.path = [] then some place.name else none
  descends : ∃ fields names, OrderedMap.find? c.shapes place.name = some fields ∧
    Descends (fun _ => True) fields place.path names h.fields ∧
    h.id = dotted (c.shapeId place.name) names

variable {c : CatalogLayout} {place : ShapePlace} {h : ShapeHandle}

theorem StandsAt.find? (hp : c.StandsAt place h) :
    c.table.find? place = some (c.shapeAt place h.id h.name h.fields) := by
  obtain ⟨fields, names, hf, hd, hid⟩ := hp.descends
  rw [c.find?_table hf hd, ← c.dotted_shapeId, ← hid, ← hp.name]

theorem StandsAt.named {name : String} (hh : c.handle? name = some h) : c.StandsAt ⟨name, []⟩ h := by
  obtain ⟨fields, hf, rfl⟩ := Option.map_eq_some_iff.1 hh
  exact ⟨rfl, fields, [], hf, .nil, rfl⟩

/-- The shape inside a field stands one step further. -/
theorem StandsAt.child (hp : c.StandsAt place h) {i : Nat} {f : FieldLayout}
    {inner : List FieldLayout} (hf : h.fields[i]? = some f) (hs : f.shape = some inner) :
    c.StandsAt (place.child i) ⟨h.id ++ "." ++ f.name, none, inner⟩ := by
  obtain ⟨fields, names, hfields, hd, hid⟩ := hp.descends
  refine ⟨?_, fields, names ++ [f.name], hfields, hd.snoc trivial hf hs, ?_⟩
  · simp [ShapePlace.child]
  · show h.id ++ "." ++ f.name = dotted (c.shapeId place.name) (names ++ [f.name])
    rw [dotted_concat, hid]

theorem handle?_of_contains {name : String} (hc : OrderedMap.contains c.shapes name = true) :
    ∃ h, c.handle? name = some h := by
  obtain ⟨fields, hf⟩ := OrderedMap.find?_of_contains hc
  exact ⟨_, by rw [handle?, hf, Option.map_some]⟩

theorem handle?_eq_none {name : String} (hc : OrderedMap.contains c.shapes name = false) :
    c.handle? name = none := by
  rw [handle?, Option.map_eq_none_iff]
  apply OrderedMap.find?_eq_none
  intro hm
  obtain ⟨e, he, rfl⟩ := List.mem_map.1 hm
  simp only [OrderedMap.contains, List.any_eq_false] at hc
  exact hc e he (by simp)

theorem rel_typeRef (c : CatalogLayout) (t : TypeText) :
    Option.Rel c.StandsAt (c.typeRef t).shape? (c.handleRef t).shape? := by
  induction t with
  | named name =>
    rw [typeRef, handleRef]
    cases hc : OrderedMap.contains c.shapes name with
    | true =>
      obtain ⟨h, hh⟩ := handle?_of_contains hc
      rw [hh]
      exact .some (.named hh)
    | false =>
      rw [handle?_eq_none hc]
      exact .none
  | list item ih => exact ih
  | optional type ih => exact ih

theorem StandsAt.rel_type (hp : c.StandsAt place h) {i : Nat} {f : FieldLayout}
    (hf : h.fields[i]? = some f) :
    Option.Rel c.StandsAt (c.fieldType (place.child i) f).shape? (c.handleType h.id f).shape? := by
  unfold fieldType handleType
  cases hs : f.shape with
  | some inner => exact .some (hp.child hf hs)
  | none =>
    cases f.type.bind TypeText.read? with
    | some t => exact c.rel_typeRef t
    | none => exact .none

/-- A description has what the table has at the place of the handle. -/
theorem StandsAt.corresponds (hp : c.StandsAt place h) :
    Shape.Corresponds id c.StandsAt (c.shapeAt place h.id h.name h.fields) (c.describe h) := by
  refine ⟨rfl, rfl, List.forall₂_iff_get.2 ⟨?_, ?_⟩⟩
  · simp [shapeAt, describe]
  · intro i hi hi'
    have hlt : i < h.fields.length := by simpa [describe] using hi'
    have hmember : (c.shapeAt place h.id h.name h.fields).members.get ⟨i, hi⟩ =
        c.member (place.child i) (h.fields.get ⟨i, hlt⟩) := by
      simp [shapeAt]
    have hdescribed : (c.describe h).members.get ⟨i, hi'⟩ =
        { ident := (h.fields.get ⟨i, hlt⟩).name, tag := (h.fields.get ⟨i, hlt⟩).tag,
          embedded := (h.fields.get ⟨i, hlt⟩).embedded,
          type := c.handleType h.id (h.fields.get ⟨i, hlt⟩) } := by
      simp [describe]
    rw [hmember, hdescribed]
    exact ⟨rfl, rfl, rfl, rfl, hp.rel_type (List.getElem?_eq_getElem hlt)⟩

/-- Descriptions on demand and the table say the same of all that is met. -/
theorem renaming_describe (c : CatalogLayout) :
    Renaming c.table.find? (fun h => some (c.describe h)) id c.StandsAt where
  injective := Function.injective_id
  shapes place h hp := by
    rw [hp.find?]
    exact .some hp.corresponds

/-- What a handle leads to stands at a place, too. -/
theorem StandsAt.refers (hp : c.StandsAt place h) {h' : ShapeHandle} (hr : c.HandleRefers h h') :
    ∃ place', c.StandsAt place' h' := by
  obtain ⟨m, hm, hkey⟩ := hr
  obtain ⟨f, hf, rfl⟩ := List.mem_map.1 hm
  obtain ⟨i, hi⟩ := List.mem_iff_getElem?.1 hf
  have htype := hp.rel_type hi
  rw [show (c.handleType h.id f).shape? = some h' from hkey] at htype
  revert htype
  generalize (c.fieldType (place.child i) f).shape? = key
  intro htype
  cases htype with
  | some hp' => exact ⟨_, hp'⟩

theorem StandsAt.id_mem_ids (hp : c.StandsAt place h) : h.id ∈ c.table.ids :=
  ShapeTable.id_mem_ids_of_find? hp.find?

end CatalogLayout

namespace Catalog

theorem handle?_of_mem_names (c : Catalog) {name : String} (hn : name ∈ c.names) :
    ∃ h, c.layout.handle? name = some h :=
  CatalogLayout.handle?_of_contains ((OrderedMap.contains_iff_mem_keys _ name).2 hn)

/-- The root of a catalog is one of its shapes. -/
theorem root_mem_names (c : Catalog) : c.layout.root ∈ c.names := by
  have hc := c.checked
  unfold CatalogLayout.check at hc
  split at hc
  · rename_i hroot
    exact (OrderedMap.contains_iff_mem_keys ..).1 hroot
  · cases hc

end Catalog

open Extraction in
/-- Extraction ends, from a table and on demand. The relation of a visit to the visits that it makes is
well founded; the ids in progress are different from each other and not more than the table has; and the
plain recursion, cut off one step beyond that number, has a result, which is that of the extraction. -/
theorem extraction_terminates :
    (∀ (κ : Type) [DecidableEq κ] (t : ShapeTable κ) (root : κ),
      (WellFounded fun c' c : Call κ => Calls t c c') ∧
      (∀ s c, t.find? root = some s → Relation.ReflTransGen (Calls t) (.initial s) c →
        (c.state.active.Nodup ∧ c.state.active.length ≤ t.idCount) ∧
        (c.Expands → (c.state.opened c.shape.id).active.Nodup ∧
          (c.state.opened c.shape.id).active.length ≤ t.idCount)) ∧
      Graph.extractWithin t.find? (t.idCount + 1) root = some (Graph.extract t root)) ∧
    ∀ c : Catalog, c.layout.root ∈ c.names ∧ ∀ name ∈ c.names, ∃ h, c.layout.handle? name = some h ∧
      (∀ h', Relation.ReflTransGen c.layout.HandleRefers h h' → h'.id ∈ c.table.ids) ∧
      Graph.extractWithin (fun h => some (c.layout.describe h)) (c.table.idCount + 1) h =
        some (Graph.extract c.table ⟨name, []⟩) := by
  refine ⟨?_, fun c => ⟨c.root_mem_names, ?_⟩⟩
  · intro κ _ t root
    refine ⟨Calls.wellFounded t, ?_, Graph.extractWithin_eq t root (Nat.lt_succ_self _)⟩
    intro s c hs hc
    obtain ⟨hp, hid⟩ := InProgress.of_calls (ShapeTable.id_mem_ids_of_find? hs) hc
    refine ⟨⟨hp.nodup, hp.length_le⟩, fun he => ?_⟩
    have hopened := hp.opened he.notActive hid
    exact ⟨hopened.nodup, hopened.length_le⟩
  · intro name hn
    obtain ⟨h, hh⟩ := c.handle?_of_mem_names hn
    have hp := CatalogLayout.StandsAt.named hh
    refine ⟨h, hh, ?_, ?_⟩
    · intro h' hr
      have hplace : ∃ place, c.layout.StandsAt place h' := by
        induction hr with
        | refl => exact ⟨_, hp⟩
        | tail _ hstep ih =>
          obtain ⟨place, hplace⟩ := ih
          exact hplace.refers hstep
      obtain ⟨place, hplace⟩ := hplace
      exact hplace.id_mem_ids
    · have htable : Graph.extractWithin c.layout.table.find? (c.table.idCount + 1) ⟨name, []⟩ =
          some (Graph.extract c.table ⟨name, []⟩) :=
        Graph.extractWithin_eq c.table ⟨name, []⟩ (Nat.lt_succ_self _)
      rw [Graph.extractWithin_renamed c.layout.renaming_describe hp, htable, Option.map_some,
        renamedResult_id]

/-- The edges of a node lead back to nodes: the anonymous shape inside refers to the one around it. -/
def edgesCatalog : Catalog where
  layout :=
    { space := "t", root := "Node",
      shapes := [("Node", [⟨"key", none, none, false, none⟩,
        ⟨"edges", none, none, false, some [⟨"node", none, some "[Node!]", false, none⟩]⟩])] }
  checked := by cbv

set_option maxRecDepth 100000 in
theorem extract_edges : Graph.extract edgesCatalog.table ⟨"Node", []⟩ =
    .error (.cycle ["t.Node", "t.Node.edges", "t.Node"]) := by cbv

/-- The description of a node goes on for ever, and two ids are all there are. -/
theorem extraction_terminates_edges : ∃ h, edgesCatalog.layout.handle? "Node" = some h ∧
    (∀ h', Relation.ReflTransGen edgesCatalog.layout.HandleRefers h h' →
      h'.id ∈ ["t.Node", "t.Node.edges"]) ∧
    Graph.extractWithin (fun h => some (edgesCatalog.layout.describe h)) 3 h =
      some (.error (.cycle ["t.Node", "t.Node.edges", "t.Node"])) := by
  have hids : edgesCatalog.table.ids = ["t.Node", "t.Node.edges"] := by cbv
  have hcount : edgesCatalog.table.idCount = 2 := by
    rw [ShapeTable.idCount, hids]
    decide
  have hname : "Node" ∈ edgesCatalog.names := by decide
  obtain ⟨h, hh, hmet, hend⟩ := (extraction_terminates.2 edgesCatalog).2 "Node" hname
  rw [hids] at hmet
  rw [hcount, extract_edges] at hend
  exact ⟨h, hh, hmet, hend⟩

end QueryShape
