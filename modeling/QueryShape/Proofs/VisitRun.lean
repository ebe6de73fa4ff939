import QueryShape.Graph.Extraction

/-!
# Runs of the extraction

`Visits t st s r st'`: a visit of shape `s` that starts in `st` gives `r` and ends in `st'`;
`VisitsMembers` says the same for a list of members. `Extraction.visit` follows the rules
(`visits_visit`). The rules do not say why a visit comes to an end, and what holds of extractions is
proved by induction on them.
-/

set_option autoImplicit false

namespace QueryShape

/-- What the annotation of a member says about its field. -/
structure FieldHead where
  name : String
  discriminator : Bool
  inline : Bool
  arguments : OrderedMap String Argument

namespace FieldHead

/-- The kind of a field whose type refers to no shape. -/
def leafKind (h : FieldHead) : FieldKind := if h.inline then .inline none else .scalar

/-- The kind of a field whose type refers to a shape with this node. -/
def shapeKind (h : FieldHead) (k : Option Nat) : FieldKind :=
  if h.inline then .inline k else .object k

theorem nested?_leafKind (h : FieldHead) : h.leafKind.nested? = none := by
  unfold leafKind; split <;> rfl

theorem nested?_shapeKind (h : FieldHead) (k : Option Nat) : (h.shapeKind k).nested? = k := by
  unfold shapeKind; split <;> rfl

/-- The fields with one more in front. -/
def addTo (h : FieldHead) (kind : FieldKind) (rest : List Field × Bool) : List Field × Bool :=
  (⟨h.name, kind, h.arguments⟩ :: rest.1, h.discriminator || rest.2)

end FieldHead

/-- The annotation of a member, read and resolved. -/
def Member.head {κ : Type} (m : Member κ) (shapeId : String) : Except Failure FieldHead :=
  match m.readTag shapeId with
  | .error e => .error e
  | .ok tag =>
    match m.fieldName shapeId tag with
    | .error e => .error e
    | .ok (name, discriminator) =>
      .ok ⟨name, discriminator, m.isInline tag, tag.elim [] (·.arguments)⟩

theorem Member.head_of_fieldName {κ : Type} {m : Member κ} {id name : String}
    {tag : Option Annotation} {discriminator : Bool} (ht : m.readTag id = .ok tag)
    (hn : m.fieldName id tag = .ok (name, discriminator)) :
    m.head id = .ok ⟨name, discriminator, m.isInline tag, tag.elim [] (·.arguments)⟩ := by
  simp only [Member.head, ht, hn]

/-- An annotation fails because it cannot be read, or because it gives a discriminator another name. -/
theorem Member.error_of_head {κ : Type} {m : Member κ} {id : String} {e : Failure}
    (h : m.head id = .error e) :
    (∃ fault, e = .malformedTag id m.ident fault) ∨ e = .aliasedDiscriminator id m.ident := by
  unfold Member.head at h
  split at h
  · rename_i e' hread
    cases h
    unfold Member.readTag at hread
    split at hread
    · cases hread
    · split at hread
      · cases hread
      · cases hread
        exact .inl ⟨_, rfl⟩
  · rename_i tag _
    split at h
    · rename_i e' hname
      cases h
      cases tag with
      | none => cases hname
      | some a =>
        simp only [Member.fieldName] at hname
        generalize a.alias?.filter (· ≠ "") = other at hname
        generalize (a.isUnion && _) = discriminator at hname
        cases other <;> cases discriminator <;> cases hname
        exact .inr rfl
    · cases h

namespace Extraction

variable {κ : Type} [DecidableEq κ]

/-- The state in which the members of a shape are visited. -/
def opened (st : Extraction) (id : String) : Extraction := { st with active := st.active ++ [id] }

/-- The state with the ids being expanded as in `st`. -/
def closedAs (st' st : Extraction) : Extraction := { st' with active := st.active }

/-- Where the members have left the ids being expanded as they found them, the id taken back is that
of their shape. -/
theorem release_eq_closedAs {st st' : Extraction} {id : String}
    (h : st'.active = (st.opened id).active) : st'.release = st'.closedAs st := by
  have ha : st'.active.dropLast = st.active := active_release h
  rw [release, closedAs, ha]

mutual

inductive Visits (t : ShapeTable κ) :
    Extraction → Shape κ → Except Failure (Option Nat) → Extraction → Prop
  | cycle {st : Extraction} {s : Shape κ} : s.id ∈ st.active →
      Visits t st s (.error (.cycle (cycleAt st.active s.id))) st
  | reused {st : Extraction} {s : Shape κ} {k : Option Nat} : s.id ∉ st.active →
      OrderedMap.find? st.finished s.id = some k → Visits t st s (.ok k) (st.reuse s.id k)
  | failed {st st' : Extraction} {s : Shape κ} {e : Failure} : s.id ∉ st.active →
      OrderedMap.find? st.finished s.id = none →
      VisitsMembers t (st.opened s.id) s.id s.members (.error e) st' →
      Visits t st s (.error e) (st'.closedAs st)
  | expanded {st st' : Extraction} {s : Shape κ} {fields : List Field} {isUnion : Bool} :
      s.id ∉ st.active → OrderedMap.find? st.finished s.id = none →
      VisitsMembers t (st.opened s.id) s.id s.members (.ok (fields, isUnion)) st' →
      Visits t st s (.ok ((st'.closedAs st).finish s fields isUnion).1)
        ((st'.closedAs st).finish s fields isUnion).2

inductive VisitsMembers (t : ShapeTable κ) :
    Extraction → String → List (Member κ) → Except Failure (List Field × Bool) → Extraction → Prop
  | nil {st : Extraction} {id : String} : VisitsMembers t st id [] (.ok ([], false)) st
  | headFails {st : Extraction} {id : String} {m : Member κ} {ms : List (Member κ)} {e : Failure} :
      m.head id = .error e → VisitsMembers t st id (m :: ms) (.error e) st
  | shapeFails {st st' : Extraction} {id : String} {m : Member κ} {ms : List (Member κ)}
      {h : FieldHead} {s : Shape κ} {e : Failure} :
      m.head id = .ok h → t.shapeOf? m.type = some s → Visits t st s (.error e) st' →
      VisitsMembers t st id (m :: ms) (.error e) st'
  | leaf {st st' : Extraction} {id : String} {m : Member κ} {ms : List (Member κ)}
      {h : FieldHead} {out : Except Failure (List Field × Bool)} :
      m.head id = .ok h → t.shapeOf? m.type = none →
      VisitsMembers t (st.log (.resolvedField id h.name h.leafKind)) id ms out st' →
      VisitsMembers t st id (m :: ms) (out.map (h.addTo h.leafKind)) st'
  | shape {st st₁ st' : Extraction} {id : String} {m : Member κ} {ms : List (Member κ)}
      {h : FieldHead} {s : Shape κ} {k : Option Nat} {out : Except Failure (List Field × Bool)} :
      m.head id = .ok h → t.shapeOf? m.type = some s → Visits t st s (.ok k) st₁ →
      VisitsMembers t (st₁.log (.resolvedField id h.name (h.shapeKind k))) id ms out st' →
      VisitsMembers t st id (m :: ms) (out.map (h.addTo (h.shapeKind k))) st'

end

mutual

theorem visits_visit (t : ShapeTable κ) (s : Shape κ) (hs : s.id ∈ t.ids) (st : Extraction) :
    Visits t st s (visit t s hs st).val.1 (visit t s hs st).val.2 := by
  rw [visit]
  split
  · exact .cycle ‹_›
  · rename_i ha
    split
    · exact .reused ha ‹_›
    · rename_i hf
      have := pending_append_lt hs ha
      have hm := visitsMembers_visitMembers t s.id s.members (st.opened s.id)
      dsimp only
      split
      · rename_i e st' hactive heq
        rw [show visitMembers t s.id s.members (st.opened s.id) = _ from heq] at hm
        have hfailed := Visits.failed ha hf hm
        rwa [← release_eq_closedAs hactive] at hfailed
      · rename_i fields isUnion st' hactive heq
        rw [show visitMembers t s.id s.members (st.opened s.id) = _ from heq] at hm
        have hexpanded := Visits.expanded ha hf hm
        rwa [← release_eq_closedAs hactive] at hexpanded
termination_by (pending t st.active, 0)

theorem visitsMembers_visitMembers (t : ShapeTable κ) (id : String) (members : List (Member κ))
    (st : Extraction) :
    VisitsMembers t st id members (visitMembers t id members st).val.1
      (visitMembers t id members st).val.2 := by
  match members with
  | [] => rw [visitMembers]; exact .nil
  | m :: ms =>
    rw [visitMembers]
    split
    · rename_i e ht
      exact .headFails (by simp only [Member.head, ht])
    · rename_i tag ht
      split
      · rename_i e hn
        exact .headFails (by simp only [Member.head, ht, hn])
      · rename_i name discriminator hn
        have hh := Member.head_of_fieldName ht hn
        dsimp only
        split
        · rename_i e st₁ h₁ heq
          split at heq
          · simp at heq
          · rename_i s' hs
            have hv := visits_visit t s' (ShapeTable.id_mem_ids_of_shapeOf? hs) st
            split at heq
            · rename_i hve
              rw [hve] at hv
              cases heq
              exact .shapeFails hh hs hv
            · simp at heq
        · rename_i kind st₁ h₁ heq
          have ha : (st₁.log (.resolvedField id name kind)).active = st.active := h₁
          have hm := visitsMembers_visitMembers t id ms (st₁.log (.resolvedField id name kind))
          split at heq
          · rename_i hs
            cases heq
            have hl := VisitsMembers.leaf hh hs hm
            split <;> rename_i hmr <;> rw [hmr] at hl <;> exact hl
          · rename_i s' hs
            have hv := visits_visit t s' (ShapeTable.id_mem_ids_of_shapeOf? hs) st
            split at heq
            · simp at heq
            · rename_i hve
              rw [hve] at hv
              cases heq
              have hl := VisitsMembers.shape hh hs hv hm
              split <;> rename_i hmr <;> rw [hmr] at hl <;> exact hl
termination_by (pending t st.active, members.length)
decreasing_by
  · exact Prod.Lex.right _ (by simp)
  · rw [ha]
    exact Prod.Lex.right _ (by simp)
  · exact Prod.Lex.right _ (by simp)

end

end Extraction

end QueryShape
