import QueryShape.Event
import QueryShape.Failure
import QueryShape.Shape
import QueryShape.Annotation.Reader

/-!
# Extracting the graph

`Graph.extract` visits the shapes of a table from a root, depth first. Each id is expanded once; when
it is met again, its node is used again. An id that is met while it is being expanded closes a cycle,
which is an error. The ids being expanded are distinct ids of the table, so the visit ends: each
expansion leaves fewer ids that can still be expanded.

Reading the annotations and naming the fields happens on the way, member by member, so the first error
in visiting order is the one reported.
-/

set_option autoImplicit false

namespace QueryShape

/-- The name of a member's field, and whether the field is the discriminator of a union. -/
def Member.fieldName {κ : Type} (m : Member κ) (shapeId : String) :
    Option Annotation → Except Failure (String × Bool)
  | none => .ok (m.fallbackName.getD m.ident, false)
  | some a =>
    let name :=
      match a.name with
      | some name => name
      | none => if a.isUnion then typenameField else a.namingFlag?.getD m.ident
    let discriminator := a.isUnion && name == typenameField
    match a.alias?.filter (· ≠ "") with
    | none => .ok (name, discriminator)
    | some other =>
      if discriminator then .error (.aliasedDiscriminator shapeId m.ident)
      else .ok (other ++ ":" ++ name, false)

/-- The annotation of a member, read. -/
def Member.readTag {κ : Type} (m : Member κ) (shapeId : String) :
    Except Failure (Option Annotation) :=
  match m.tag with
  | none => .ok none
  | some tag =>
    match Annotation.read tag with
    | .ok a => .ok (some a)
    | .error e => .error (.malformedTag shapeId m.ident e)

/-- Whether the field of a member is replaced by the fields of its type. -/
def Member.isInline {κ : Type} (m : Member κ) (a : Option Annotation) : Bool :=
  m.embedded || a.any (·.isInline)

/-- What an extraction has come to. -/
structure Extraction where
  /-- The ids that are being expanded, outermost first. -/
  active : List String := []
  nodes : Array Node := #[]
  /-- The ids that are done, with their nodes; an id without members has none. -/
  finished : OrderedMap String (Option Nat) := []
  events : Array Event := #[]

namespace Extraction

def log (st : Extraction) (e : Event) : Extraction := { st with events := st.events.push e }

/-- One more use of a shape that is done. -/
def reuse (st : Extraction) (id : String) : Option Nat → Extraction
  | none => st
  | some k =>
    let nodes := st.nodes.modify k fun n => { n with uses := n.uses + 1 }
    { st with nodes := nodes }.log (.reusedShape id (nodes[k]?.elim 0 (·.uses)))

/-- Puts down a shape whose fields are known: a new node, or none if there are no fields. -/
def finish {κ : Type} (st : Extraction) (s : Shape κ) (fields : List Field) (isUnion : Bool) :
    Option Nat × Extraction :=
  if fields.isEmpty then
    (none, { st with finished := (s.id, none) :: st.finished }.log (.emptyShape s.id))
  else
    let k := st.nodes.size
    (some k,
      { st with
        nodes := st.nodes.push ⟨s.id, s.name, fields, isUnion, 1⟩
        finished := (s.id, some k) :: st.finished }.log
        (.extractedShape s.id fields.length isUnion))

/-- The ids from the first occurrence of `id` on, and `id` once more. -/
def cycleAt (active : List String) (id : String) : List String :=
  active.dropWhile (· ≠ id) ++ [id]

/-- How many entries of the table have an id that is not being expanded. -/
def pending {κ : Type} [DecidableEq κ] (t : ShapeTable κ) (active : List String) : Nat :=
  t.ids.countP (· ∉ active)

theorem countP_notMem_append_lt {ids active : List String} {id : String} (hm : id ∈ ids)
    (hn : id ∉ active) : ids.countP (· ∉ active ++ [id]) < ids.countP (· ∉ active) := by
  have hle : ∀ l : List String, l.countP (· ∉ active ++ [id]) ≤ l.countP (· ∉ active) := fun l =>
    List.countP_mono_left fun x _ h => by simp_all
  induction ids with
  | nil => simp at hm
  | cons x xs ih =>
    simp only [List.countP_cons]
    rcases List.mem_cons.1 hm with rfl | hx
    · have := hle xs
      simp [hn]
      simpa using Nat.lt_succ_of_le this
    · have hlt := ih hx
      have : (if decide (x ∉ active ++ [id]) = true then 1 else 0) ≤
          (if decide (x ∉ active) = true then 1 else 0) := by
        by_cases h : x ∈ active <;> simp [h]
        split <;> omega
      omega

theorem pending_append_lt {κ : Type} [DecidableEq κ] {t : ShapeTable κ} {active : List String}
    {id : String} (hm : id ∈ t.ids) (hn : id ∉ active) :
    pending t (active ++ [id]) < pending t active :=
  countP_notMem_append_lt hm hn

/-- Takes back the id that was opened last. -/
def release (st : Extraction) : Extraction := { st with active := st.active.dropLast }

theorem active_release {st st' : Extraction} {id : String} (h : st'.active = st.active ++ [id]) :
    st'.release.active = st.active := by
  show st'.active.dropLast = st.active
  rw [h, List.dropLast_concat]

/-- An answer together with the state reached, in which the same ids are being expanded as before. -/
abbrev Visit (st : Extraction) (α : Type) :=
  { r : Except Failure α × Extraction // r.2.active = st.active }

theorem active_reuse (st : Extraction) (id : String) (k : Option Nat) :
    (st.reuse id k).active = st.active := by
  cases k <;> rfl

theorem active_finish {κ : Type} (st : Extraction) (s : Shape κ) (fields : List Field) (isUnion : Bool) :
    (st.finish s fields isUnion).2.active = st.active := by
  unfold finish; split <;> rfl

section
variable {κ : Type} [DecidableEq κ]

mutual

/-- The node of a shape, which is expanded unless it is done already. -/
def visit (t : ShapeTable κ) (s : Shape κ) (hs : s.id ∈ t.ids) (st : Extraction) :
    Visit st (Option Nat) :=
  if ha : s.id ∈ st.active then
    ⟨(.error (.cycle (cycleAt st.active s.id)), st), rfl⟩
  else
    match OrderedMap.find? st.finished s.id with
    | some k => ⟨(.ok k, st.reuse s.id k), active_reuse st s.id k⟩
    | none =>
      have := pending_append_lt hs ha
      let opened := { st with active := st.active ++ [s.id] }
      match visitMembers t s.id s.members opened with
      | ⟨(.error e, st'), h⟩ => ⟨(.error e, st'.release), active_release h⟩
      | ⟨(.ok (fields, isUnion), st'), h⟩ =>
        let done := st'.release.finish s fields isUnion
        ⟨(.ok done.1, done.2),
          (active_finish st'.release s fields isUnion).trans (active_release h)⟩
termination_by (pending t st.active, 0)

/-- The fields of the members, and whether one of them makes the shape a union. -/
def visitMembers (t : ShapeTable κ) (shapeId : String) (members : List (Member κ))
    (st : Extraction) : Visit st (List Field × Bool) :=
  match members with
  | [] => ⟨(.ok ([], false), st), rfl⟩
  | m :: ms =>
    match m.readTag shapeId with
    | .error e => ⟨(.error e, st), rfl⟩
    | .ok tag =>
      match m.fieldName shapeId tag with
      | .error e => ⟨(.error e, st), rfl⟩
      | .ok (name, discriminator) =>
        let inline := m.isInline tag
        let nested : Visit st FieldKind :=
          match hs : t.shapeOf? m.type with
          | none => ⟨(.ok (if inline then .inline none else .scalar), st), rfl⟩
          | some s =>
            match visit t s (ShapeTable.id_mem_ids_of_shapeOf? hs) st with
            | ⟨(.error e, st'), h⟩ => ⟨(.error e, st'), h⟩
            | ⟨(.ok k, st'), h⟩ => ⟨(.ok (if inline then .inline k else .object k), st'), h⟩
        match nested with
        | ⟨(.error e, st₁), h₁⟩ => ⟨(.error e, st₁), h₁⟩
        | ⟨(.ok kind, st₁), h₁⟩ =>
          let logged := st₁.log (.resolvedField shapeId name kind)
          match visitMembers t shapeId ms logged with
          | ⟨(.error e, st₂), h₂⟩ => ⟨(.error e, st₂), h₂.trans h₁⟩
          | ⟨(.ok (fields, isUnion), st₂), h₂⟩ =>
            let arguments := tag.elim [] (·.arguments)
            ⟨(.ok (⟨name, kind, arguments⟩ :: fields, discriminator || isUnion), st₂), h₂.trans h₁⟩
termination_by (pending t st.active, members.length)
decreasing_by
  · exact Prod.Lex.right _ (Nat.zero_lt_succ _)
  · have h : logged.active = st.active := h₁
    rw [h]
    exact Prod.Lex.right _ (Nat.lt_succ_self _)

end

end

end Extraction

namespace Graph

variable {κ : Type} [DecidableEq κ]

/-- The graph of the shapes that can be reached from a root, and what happened on the way, which is
known also where there is no graph. -/
def extractLogged (t : ShapeTable κ) (root : κ) : Except Failure Graph × Array Event :=
  match h : t.find? root with
  | none => (.ok {}, #[])
  | some s =>
    let (r, st) := (Extraction.visit t s (ShapeTable.id_mem_ids_of_find? h) {}).val
    (r.map fun k => ⟨st.nodes, k⟩, st.events)

/-- The graph of the shapes that can be reached from a root. -/
def extract (t : ShapeTable κ) (root : κ) : Except Failure Graph := (extractLogged t root).1

end Graph

end QueryShape
