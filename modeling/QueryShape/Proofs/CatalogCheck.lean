import Mathlib
import QueryShape.Proofs.CatalogHandles

/-!
# What the check of a catalog finds

A field has a position in a layout: the number of its shape, and the numbers of the fields that lead to
it. The order of the text, where a shape inside a field comes right after the field, is the
lexicographic order of positions. The check reports the first field with a fault, wherever it stands
(`CatalogLayout.verdict_shapes`). So no fault is left in the catalogs that there are, and what is made
of their fields is what the fields say: `catalog_check_exact`.
-/

set_option autoImplicit false

namespace QueryShape

/-- What is wrong with a field of the shape with this label. -/
inductive Fault (label : String) (f : FieldLayout) : CatalogError → Prop
  | conflict {text : String} {fields : List FieldLayout} : f.type = some text →
      f.shape = some fields → Fault label f (.conflictingField label f.name)
  | unreadable {text : String} : f.type = some text → f.shape = none →
      TypeText.read? text = none → Fault label f (.invalidType label f.name text)

theorem Fault.unique {label : String} {f : FieldLayout} {e e' : CatalogError} (h : Fault label f e)
    (h' : Fault label f e') : e = e' := by
  cases h <;> cases h' <;> simp_all

/-- Fields, each with a position and the label of its shape. -/
abbrev FieldSet := List Nat → String → FieldLayout → Prop

namespace FieldSet

def Sound (S : FieldSet) : Prop := ∀ p label f, S p label f → ∀ e, ¬ Fault label f e

/-- The error is that of the first field with a fault. -/
def FirstFault (S : FieldSet) (e : CatalogError) : Prop :=
  ∃ p label f, S p label f ∧ Fault label f e ∧
    ∀ p' label' f', S p' label' f' → p' < p → ∀ e', ¬ Fault label' f' e'

/-- What a check of the fields has to say. -/
def Verdict (S : FieldSet) : Except CatalogError Unit → Prop
  | .ok () => S.Sound
  | .error e => S.FirstFault e

variable {A B S : FieldSet} {r r' : Except CatalogError Unit}

/-- A check after the other: the second one is of fields further on. -/
theorem Verdict.andThen (hA : A.Verdict r) (hB : B.Verdict r')
    (hS : ∀ p label f, S p label f ↔ A p label f ∨ B p label f)
    (hlt : ∀ p label f p' label' f', A p label f → B p' label' f' → p < p') :
    S.Verdict (r >>= fun _ => r') := by
  cases r with
  | error e =>
    obtain ⟨p, label, f, hf, he, hfirst⟩ := hA
    refine ⟨p, label, f, (hS _ _ _).2 (.inl hf), he, fun p' label' f' hf' hp => ?_⟩
    rcases (hS _ _ _).1 hf' with hf' | hf'
    · exact hfirst p' label' f' hf' hp
    · exact absurd hp (lt_asymm (hlt _ _ _ _ _ _ hf hf'))
  | ok u =>
    cases r' with
    | error e =>
      obtain ⟨p, label, f, hf, he, hfirst⟩ := hB
      refine ⟨p, label, f, (hS _ _ _).2 (.inr hf), he, fun p' label' f' hf' hp => ?_⟩
      rcases (hS _ _ _).1 hf' with hf' | hf'
      · exact hA p' label' f' hf'
      · exact hfirst p' label' f' hf' hp
    | ok u =>
      intro p label f hf
      rcases (hS _ _ _).1 hf with hf | hf
      · exact hA p label f hf
      · exact hB p label f hf

/-- The positions may change, if their order does not. -/
theorem Verdict.moved (h : A.Verdict r) {move : List Nat → List Nat}
    (hmove : ∀ p q, move p < move q → p < q)
    (hS : ∀ p label f, S p label f ↔ ∃ q, p = move q ∧ A q label f) : S.Verdict r := by
  cases r with
  | error e =>
    obtain ⟨p, label, f, hf, he, hfirst⟩ := h
    refine ⟨move p, label, f, (hS _ _ _).2 ⟨p, rfl, hf⟩, he, fun p' label' f' hf' hp => ?_⟩
    obtain ⟨q, rfl, hq⟩ := (hS _ _ _).1 hf'
    exact hfirst q label' f' hq (hmove _ _ hp)
  | ok u =>
    intro p label f hf
    obtain ⟨q, -, hq⟩ := (hS _ _ _).1 hf
    exact h q label f hq

/-- Where a position tells the field, there is one first fault. -/
theorem FirstFault.unique (hS : ∀ p label label' f f', S p label f → S p label' f' →
      label = label' ∧ f = f') {e e' : CatalogError} (h : S.FirstFault e) (h' : S.FirstFault e') :
    e = e' := by
  obtain ⟨p, label, f, hf, he, hfirst⟩ := h
  obtain ⟨p', label', f', hf', he', hfirst'⟩ := h'
  rcases lt_trichotomy p p' with hp | rfl | hp
  · exact absurd he (hfirst' _ _ _ hf hp e)
  · obtain ⟨rfl, rfl⟩ := hS _ _ _ _ _ hf hf'
    exact he.unique he'
  · exact absurd he' (hfirst _ _ _ hf' hp e')

theorem Verdict.eq_error_iff (h : S.Verdict r) (hS : ∀ p label label' f f', S p label f →
      S p label' f' → label = label' ∧ f = f') (e : CatalogError) :
    r = .error e ↔ S.FirstFault e := by
  constructor
  · rintro rfl
    exact h
  · intro hfirst
    cases r with
    | error e' => rw [FirstFault.unique hS h hfirst]
    | ok u =>
      obtain ⟨p, label, f, hf, he, -⟩ := hfirst
      exact absurd he (h p label f hf e)

theorem Verdict.eq_ok_iff (h : S.Verdict r) : r = .ok () ↔ S.Sound := by
  constructor
  · rintro rfl
    exact h
  · intro hsound
    cases r with
    | ok u => rfl
    | error e =>
      obtain ⟨p, label, f, hf, he, -⟩ := h
      exact absurd he (hsound p label f hf e)

end FieldSet

/-! ## Fields of a shape -/

/-- The position one further in the outermost list. -/
def nextPosition : List Nat → List Nat
  | [] => []
  | i :: p => (i + 1) :: p

theorem lt_of_nextPosition_lt (p q : List Nat) (h : nextPosition p < nextPosition q) : p < q := by
  cases p <;> cases q <;> simp_all [nextPosition, List.cons_lt_cons_iff]

theorem lt_of_cons_lt_cons (i : Nat) (p q : List Nat) (h : i :: p < i :: q) : p < q := by
  simpa [List.cons_lt_cons_iff] using h

/-- The fields of a shape and, at any depth, those of the shapes inside it. The label of a shape inside
is made of the names on the way. -/
def FieldsWithin (shape : String) (fields : List FieldLayout) : FieldSet := fun p label f =>
  ∃ path names last i, Descends (fun _ => True) fields path names last ∧ last[i]? = some f ∧
    p = path ++ [i] ∧ label = dotted shape names

/-- The same for the shape inside a field. -/
def FieldsInside (shape : String) (f : FieldLayout) : FieldSet := fun p label g =>
  ∃ q, p = 0 :: q ∧ ∃ inner, f.shape = some inner ∧
    FieldsWithin (shape ++ "." ++ f.name) inner q label g

theorem FieldsWithin.ne_nil {shape label : String} {fields : List FieldLayout} {p : List Nat}
    {f : FieldLayout} (h : FieldsWithin shape fields p label f) : p ≠ [] := by
  obtain ⟨path, names, last, i, -, -, rfl, -⟩ := h
  simp

theorem fieldsWithin_nil {shape label : String} {p : List Nat} {f : FieldLayout} :
    ¬ FieldsWithin shape [] p label f := by
  rintro ⟨path, names, last, i, hd, hf, -, -⟩
  cases hd with
  | nil => cases hf
  | cons _ hg _ _ => cases hg

/-- A field of a list is the first one, inside the first one, or one of the others. -/
theorem fieldsWithin_cons {shape : String} {f : FieldLayout} {fs : List FieldLayout} {p : List Nat}
    {label : String} {g : FieldLayout} : FieldsWithin shape (f :: fs) p label g ↔
      ((p = [0] ∧ label = shape ∧ g = f) ∨ FieldsInside shape f p label g) ∨
        ∃ q, p = nextPosition q ∧ FieldsWithin shape fs q label g := by
  constructor
  · rintro ⟨path, names, last, i, hd, hg, rfl, rfl⟩
    cases hd with
    | nil =>
      cases i with
      | zero =>
        cases hg
        exact .inl (.inl ⟨rfl, rfl, rfl⟩)
      | succ i => exact .inr ⟨[i], rfl, [], [], fs, i, .nil, hg, rfl, rfl⟩
    | @cons _ inner _ j f' path names _ hf' hs hd =>
      cases j with
      | zero =>
        cases hf'
        exact .inl (.inr ⟨path ++ [i], rfl, inner, hs, path, names, last, i, hd, hg, rfl, rfl⟩)
      | succ j =>
        exact .inr ⟨j :: path ++ [i], rfl, j :: path, f'.name :: names, last, i,
          .cons trivial hf' hs hd, hg, rfl, rfl⟩
  · rintro ((⟨rfl, rfl, rfl⟩ | ⟨q, rfl, inner, hs, path, names, last, i, hd, hg, rfl, rfl⟩) |
      ⟨q, rfl, path, names, last, i, hd, hg, rfl, rfl⟩)
    · exact ⟨[], [], g :: fs, 0, .nil, rfl, rfl, rfl⟩
    · exact ⟨0 :: path, f.name :: names, last, i, .cons trivial rfl hs hd, hg, rfl, rfl⟩
    · cases hd with
      | nil => exact ⟨[], [], f :: fs, i + 1, .nil, hg, rfl, rfl⟩
      | @cons _ inner _ j f' path names _ hf' hs hd =>
        exact ⟨(j + 1) :: path, f'.name :: names, last, i, .cons trivial hf' hs hd, hg, rfl, rfl⟩

theorem Descends.unique {ok : List FieldLayout → Prop} {fields last last' : List FieldLayout}
    {path : List Nat} {names names' : List String} (h : Descends ok fields path names last)
    (h' : Descends ok fields path names' last') : names = names' ∧ last = last' := by
  induction h generalizing names' with
  | nil =>
    cases h'
    exact ⟨rfl, rfl⟩
  | cons _ hf hs _ ih =>
    cases h' with
    | cons _ hf' hs' h' =>
      cases hf.symm.trans hf'
      cases hs.symm.trans hs'
      obtain ⟨rfl, rfl⟩ := ih h'
      exact ⟨rfl, rfl⟩

theorem FieldsWithin.unique {shape label label' : String} {fields : List FieldLayout} {p : List Nat}
    {f f' : FieldLayout} (h : FieldsWithin shape fields p label f)
    (h' : FieldsWithin shape fields p label' f') : label = label' ∧ f = f' := by
  obtain ⟨path, names, last, i, hd, hf, rfl, rfl⟩ := h
  obtain ⟨path', names', last', i', hd', hf', hp, rfl⟩ := h'
  obtain ⟨rfl, hi⟩ := List.append_inj' hp rfl
  cases hi
  obtain ⟨rfl, rfl⟩ := hd.unique hd'
  exact ⟨rfl, Option.some.inj (hf.symm.trans hf')⟩

namespace CatalogLayout

/-- The part of the check that is of a field alone. -/
def checkField (shape : String) (f : FieldLayout) : Except CatalogError Unit :=
  match f.type with
  | none => .ok ()
  | some text =>
    if f.shape.isSome then .error (.conflictingField shape f.name)
    else if (TypeText.read? text).isNone then .error (.invalidType shape f.name text)
    else .ok ()

/-- The part that is of the shape inside. -/
def checkInside (shape : String) (f : FieldLayout) : Except CatalogError Unit :=
  match f.shape with
  | some fields => checkFields (shape ++ "." ++ f.name) fields
  | none => .ok ()

theorem checkFields_cons (shape : String) (f : FieldLayout) (fs : List FieldLayout) :
    checkFields shape (f :: fs) =
      (checkField shape f >>= fun _ => checkInside shape f) >>= fun _ => checkFields shape fs := by
  obtain ⟨name, tag, _ | text, embedded, _ | fields⟩ := f
  · rw [checkFields]
    rfl
  · rw [checkFields]
    rfl
  · rw [checkFields, checkField]
    dsimp only
    split <;> rfl
  · rw [checkFields]
    rfl

theorem verdict_checkField (shape : String) (f : FieldLayout) :
    FieldSet.Verdict (fun p label g => p = [0] ∧ label = shape ∧ g = f) (checkField shape f) := by
  have hfirst : ∀ {e : CatalogError}, Fault shape f e →
      FieldSet.FirstFault (fun p label g => p = [0] ∧ label = shape ∧ g = f) e := by
    intro e he
    refine ⟨[0], shape, f, ⟨rfl, rfl, rfl⟩, he, ?_⟩
    rintro p' label' f' ⟨rfl, -, -⟩ hp
    exact absurd hp (lt_irrefl _)
  unfold checkField
  split
  · rename_i ht
    rintro p label g ⟨rfl, rfl, rfl⟩ e he
    cases he <;> simp_all
  · rename_i text ht
    cases hs : f.shape with
    | some fields => exact hfirst (.conflict ht hs)
    | none =>
      cases hread : TypeText.read? text with
      | none => exact hfirst (.unreadable ht hs hread)
      | some t =>
        rintro p label g ⟨rfl, rfl, rfl⟩ e he
        cases he <;> simp_all

/-- One step: a field, what is inside, and the fields after it. -/
theorem verdict_cons {shape : String} {f : FieldLayout} {fs : List FieldLayout}
    (hinside : (FieldsInside shape f).Verdict (checkInside shape f))
    (hrest : (FieldsWithin shape fs).Verdict (checkFields shape fs)) :
    (FieldsWithin shape (f :: fs)).Verdict (checkFields shape (f :: fs)) := by
  rw [checkFields_cons]
  have hmoved : FieldSet.Verdict (fun p label g => ∃ q, p = nextPosition q ∧
      FieldsWithin shape fs q label g) (checkFields shape fs) :=
    hrest.moved lt_of_nextPosition_lt fun _ _ _ => Iff.rfl
  refine ((verdict_checkField shape f).andThen hinside (fun _ _ _ => Iff.rfl) ?_).andThen hmoved
    (fun _ _ _ => fieldsWithin_cons) ?_
  -- what is inside a field comes after the field, and before the fields that follow
  · rintro p label g p' label' g' ⟨rfl, -, -⟩ ⟨q, rfl, inner, -, hq⟩
    obtain ⟨i, q', rfl⟩ := List.exists_cons_of_ne_nil hq.ne_nil
    simp
  · rintro p label g p' label' g' hp ⟨q, rfl, hq⟩
    obtain ⟨i, q', rfl⟩ := List.exists_cons_of_ne_nil hq.ne_nil
    have hzero : ∃ q, p = 0 :: q := by
      rcases hp with ⟨rfl, -, -⟩ | ⟨q, rfl, -⟩
      · exact ⟨[], rfl⟩
      · exact ⟨q, rfl⟩
    obtain ⟨q, rfl⟩ := hzero
    simp [nextPosition, List.cons_lt_cons_iff]

/-- The check of the fields of a shape finds the first fault in them. -/
theorem verdict_fields (shape : String) :
    (fields : List FieldLayout) → (FieldsWithin shape fields).Verdict (checkFields shape fields)
  | [] => by
    rw [checkFields]
    exact fun p label f h => absurd h fieldsWithin_nil
  | ⟨name, tag, type, embedded, none⟩ :: rest => by
    refine verdict_cons ?_ (verdict_fields shape rest)
    rintro p label g ⟨q, -, inner, hs, -⟩
    cases hs
  | ⟨name, tag, type, embedded, some inner⟩ :: rest => by
    refine verdict_cons ?_ (verdict_fields shape rest)
    refine (verdict_fields (shape ++ "." ++ name) inner).moved (lt_of_cons_lt_cons 0) ?_
    intro p label g
    simp [FieldsInside]

/-! ## Fields of a catalog -/

/-- The fields of all shapes, at any depth. -/
def fieldsOf (shapes : OrderedMap String ShapeLayout) : FieldSet := fun p label f =>
  ∃ n name fields q, shapes[n]? = some (name, fields) ∧ p = n :: q ∧
    FieldsWithin name fields q label f

theorem fieldsOf_cons {name : String} {fields : ShapeLayout}
    {shapes : OrderedMap String ShapeLayout} {p : List Nat} {label : String} {f : FieldLayout} :
    fieldsOf ((name, fields) :: shapes) p label f ↔
      (∃ q, p = 0 :: q ∧ FieldsWithin name fields q label f) ∨
        ∃ q, p = nextPosition q ∧ fieldsOf shapes q label f := by
  constructor
  · rintro ⟨n, name', fields', q, hn, rfl, hq⟩
    cases n with
    | zero =>
      cases hn
      exact .inl ⟨q, rfl, hq⟩
    | succ n => exact .inr ⟨n :: q, rfl, n, name', fields', q, hn, rfl, hq⟩
  · rintro (⟨q, rfl, hq⟩ | ⟨_, rfl, n, name', fields', q, hn, rfl, hq⟩)
    · exact ⟨0, name, fields, q, rfl, rfl, hq⟩
    · exact ⟨n + 1, name', fields', q, hn, rfl, hq⟩

theorem fieldsOf_unique {shapes : OrderedMap String ShapeLayout} (p : List Nat)
    (label label' : String) (f f' : FieldLayout) (h : fieldsOf shapes p label f)
    (h' : fieldsOf shapes p label' f') : label = label' ∧ f = f' := by
  obtain ⟨n, name, fields, q, hn, rfl, hq⟩ := h
  obtain ⟨n', name', fields', q', hn', hp, hq'⟩ := h'
  cases hp
  cases hn.symm.trans hn'
  exact hq.unique hq'

/-- The check of the shapes finds the first fault in their fields. -/
theorem verdict_shapes (shapes : OrderedMap String ShapeLayout) : (fieldsOf shapes).Verdict
    (shapes.forM fun (name, fields) => checkFields name fields) := by
  induction shapes with
  | nil =>
    rintro p label f ⟨n, name, fields, q, hn, -, -⟩
    cases hn
  | cons e shapes ih =>
    obtain ⟨name, fields⟩ := e
    have hfields : FieldSet.Verdict (fun p label f => ∃ q, p = 0 :: q ∧
        FieldsWithin name fields q label f) (checkFields name fields) :=
      (verdict_fields name fields).moved (lt_of_cons_lt_cons 0) fun _ _ _ => Iff.rfl
    have hshapes : FieldSet.Verdict (fun p label f => ∃ q, p = nextPosition q ∧
        fieldsOf shapes q label f) (shapes.forM fun (name, fields) => checkFields name fields) :=
      ih.moved lt_of_nextPosition_lt fun _ _ _ => Iff.rfl
    refine hfields.andThen hshapes (fun _ _ _ => fieldsOf_cons) ?_
    rintro p label f p' label' f' ⟨q, rfl, -⟩ ⟨_, rfl, n, name', fields', q', -, rfl, -⟩
    simp [nextPosition, List.cons_lt_cons_iff]

theorem check_eq_error_iff (l : CatalogLayout) (e : CatalogError) : l.check = .error e ↔
    (l.root ∉ OrderedMap.keys l.shapes ∧ e = .unknownShape l.root) ∨
      (l.root ∈ OrderedMap.keys l.shapes ∧ (fieldsOf l.shapes).FirstFault e) := by
  rw [← OrderedMap.contains_iff_mem_keys, check]
  split
  · rename_i hroot
    simpa [hroot] using (verdict_shapes l.shapes).eq_error_iff fieldsOf_unique e
  · rename_i hroot
    simp [hroot, eq_comm]

theorem check_eq_ok_iff (l : CatalogLayout) : l.check = .ok () ↔
    l.root ∈ OrderedMap.keys l.shapes ∧ (fieldsOf l.shapes).Sound := by
  rw [← OrderedMap.contains_iff_mem_keys, check]
  split
  · rename_i hroot
    simpa [hroot] using (verdict_shapes l.shapes).eq_ok_iff
  · rename_i hroot
    simp [hroot]

/-! ## What is made of the fields -/

/-- Where the type of a member comes from: the shape inside the field, which stands at the place, or the
type that the text of the field is read as. It is scalar by default only where the field has neither. -/
inductive TypeGiven (c : CatalogLayout) (place : ShapePlace) (id : String) (f : FieldLayout) :
    TypeRef ShapePlace → Prop
  | inner {fields : List FieldLayout} : f.type = none → f.shape = some fields →
      c.table.find? place = some (c.shapeAt place (id ++ "." ++ f.name) none fields) →
      TypeGiven c place id f (.shape place)
  | read {text : String} {t : TypeText} : f.type = some text → f.shape = none →
      TypeText.read? text = some t → TypeGiven c place id f (c.typeRef t)
  | absent : f.type = none → f.shape = none → TypeGiven c place id f .scalar

variable {c : CatalogLayout} {place : ShapePlace} {h : ShapeHandle}

/-- The fields of a shape at a place are among the fields of the catalog. -/
theorem StandsAt.mem_fieldsOf (hp : c.StandsAt place h) {i : Nat} {f : FieldLayout}
    (hf : h.fields[i]? = some f) : ∃ p label, fieldsOf c.shapes p label f := by
  obtain ⟨fields, names, hfields, hd, -⟩ := hp.descends
  obtain ⟨n, hn⟩ := List.mem_iff_getElem?.1 (OrderedMap.mem_of_find? hfields)
  exact ⟨n :: (place.path ++ [i]), dotted place.name names, n, place.name, fields, _, hn, rfl,
    place.path, names, h.fields, i, hd, hf, rfl, rfl⟩

theorem StandsAt.typeGiven (hp : c.StandsAt place h) (hsound : (fieldsOf c.shapes).Sound)
    {i : Nat} {f : FieldLayout} (hf : h.fields[i]? = some f) :
    c.TypeGiven (place.child i) h.id f (c.fieldType (place.child i) f) := by
  obtain ⟨p, label, hmem⟩ := hp.mem_fieldsOf hf
  have hfault := hsound p label f hmem
  unfold fieldType
  cases hs : f.shape with
  | some fields =>
    cases ht : f.type with
    | some text => exact absurd (.conflict ht hs) (hfault _)
    | none => exact .inner ht hs (hp.child hf hs).find?
  | none =>
    cases ht : f.type with
    | none => exact .absent ht hs
    | some text =>
      cases hread : TypeText.read? text with
      | none => exact absurd (.unreadable ht hs hread) (hfault _)
      | some t =>
        rw [Option.bind_some, hread]
        exact .read ht hs hread

/-- What the types lead to stands in the layout. -/
theorem StandsAt.of_leads {root : ShapePlace} (hroot : ∃ h, c.StandsAt root h)
    (hl : c.table.Leads root place) : ∃ h, c.StandsAt place h := by
  induction hl with
  | root => exact hroot
  | @step key key' s m _ hf hm hs ih =>
    obtain ⟨h, hp⟩ := ih
    cases hp.find?.symm.trans hf
    obtain ⟨i, hi, rfl⟩ := List.mem_mapIdx.1 hm
    have htype := hp.rel_type (List.getElem?_eq_getElem hi)
    rw [show (c.fieldType (key.child i) _).shape? = some key' from hs] at htype
    generalize (c.handleType h.id _).shape? = other at htype
    cases htype with
    | some hp' => exact ⟨_, hp'⟩

end CatalogLayout

namespace Catalog

theorem ofLayout_eq_error_iff {l : CatalogLayout} {e : CatalogError} :
    ofLayout l = .error e ↔ l.check = .error e := by
  unfold ofLayout
  split
  · rename_i h
    simp [h]
  · rename_i e' h
    simp [h]

theorem exists_ofLayout_eq_ok_iff {l : CatalogLayout} :
    (∃ c, ofLayout l = .ok c) ↔ l.check = .ok () := by
  unfold ofLayout
  split
  · rename_i h
    simp [h]
  · rename_i e h
    simp [h]

theorem layout_of_ofLayout {l : CatalogLayout} {c : Catalog} (h : ofLayout l = .ok c) :
    c.layout = l := by
  unfold ofLayout at h
  split at h
  · cases h
    rfl
  · cases h

end Catalog

/-- A layout makes a catalog if and only if its root is one of its shapes and no field has a fault, at
any depth of any shape. Else the error is that of the root, and then of the first fault. In a catalog
the root stands for the shape of its name, and whatever types lead to is there; the type of each member
is what its field says, and its text was read. -/
theorem catalog_check_exact (l : CatalogLayout) :
    (∀ e, Catalog.ofLayout l = .error e ↔
      (l.root ∉ OrderedMap.keys l.shapes ∧ e = .unknownShape l.root) ∨
        (l.root ∈ OrderedMap.keys l.shapes ∧ (CatalogLayout.fieldsOf l.shapes).FirstFault e)) ∧
    ((∃ c, Catalog.ofLayout l = .ok c) ↔
      l.root ∈ OrderedMap.keys l.shapes ∧ (CatalogLayout.fieldsOf l.shapes).Sound) ∧
    ∀ c, Catalog.ofLayout l = .ok c → c.layout = l ∧
      (∃ fields, OrderedMap.find? l.shapes l.root = some fields ∧
        c.table.find? c.root = some (l.shapeAt c.root (l.shapeId l.root) (some l.root) fields)) ∧
      ∀ name ∈ c.names, ∀ place, c.table.Leads ⟨name, []⟩ place →
        ∃ h, l.StandsAt place h ∧
          c.table.find? place = some (l.shapeAt place h.id h.name h.fields) ∧
          ∀ i m, (l.shapeAt place h.id h.name h.fields).members[i]? = some m →
            ∃ f, h.fields[i]? = some f ∧ l.TypeGiven (place.child i) h.id f m.type := by
  refine ⟨fun e => Catalog.ofLayout_eq_error_iff.trans (l.check_eq_error_iff e),
    Catalog.exists_ofLayout_eq_ok_iff.trans l.check_eq_ok_iff, fun c hc => ?_⟩
  obtain rfl := Catalog.layout_of_ofLayout hc
  have hsound := (c.layout.check_eq_ok_iff.1 c.checked).2
  refine ⟨rfl, ?_, fun name hn place hl => ?_⟩
  · obtain ⟨h, hh⟩ := c.handle?_of_mem_names c.root_mem_names
    have hroot := CatalogLayout.StandsAt.named hh
    obtain ⟨fields, hf, rfl⟩ := Option.map_eq_some_iff.1 hh
    exact ⟨fields, hf, hroot.find?⟩
  · obtain ⟨h, hh⟩ := c.handle?_of_mem_names hn
    obtain ⟨h, hp⟩ := CatalogLayout.StandsAt.of_leads ⟨h, .named hh⟩ hl
    refine ⟨h, hp, hp.find?, fun i m hm => ?_⟩
    simp only [CatalogLayout.shapeAt, List.getElem?_mapIdx] at hm
    obtain ⟨f, hf, rfl⟩ := Option.map_eq_some_iff.1 hm
    exact ⟨f, hf, hp.typeGiven hsound hf⟩

/-- The shape with faults is not used: a type inside it cannot be read, and after it a field has both a
type and a shape. -/
def faultyLayout : CatalogLayout :=
  { root := "Q",
    shapes := [("Q", [⟨"id", none, some "ID!", false, none⟩]),
      ("Unused", [⟨"page", none, none, false, some [⟨"size", none, some "Int", false, none⟩,
          ⟨"items", none, some "[Item", false, none⟩]⟩,
        ⟨"both", none, some "Q", false, some []⟩])] }

theorem catalog_check_exact_faulty :
    Catalog.ofLayout faultyLayout = .error (.invalidType "Unused.page" "items" "[Item") ∧
    (CatalogLayout.fieldsOf faultyLayout.shapes).FirstFault
      (.invalidType "Unused.page" "items" "[Item") ∧
    Catalog.ofLayout libraryCatalog.layout = .ok libraryCatalog ∧
    libraryCatalog.table.Leads ⟨"Query", []⟩ ⟨"Query", [1]⟩ ∧
    ∃ h, libraryCatalog.layout.StandsAt ⟨"Query", [1]⟩ h ∧
      libraryCatalog.table.find? ⟨"Query", [1]⟩ =
        some (libraryCatalog.layout.shapeAt ⟨"Query", [1]⟩ h.id h.name h.fields) := by
  have herror : Catalog.ofLayout faultyLayout =
      .error (.invalidType "Unused.page" "items" "[Item") :=
    Catalog.ofLayout_eq_error_iff.2 (by cbv)
  have hroot : faultyLayout.root ∈ OrderedMap.keys faultyLayout.shapes := by decide
  have hfirst := (((catalog_check_exact faultyLayout).1 _).1 herror).resolve_left fun h => h.1 hroot
  have hok : Catalog.ofLayout libraryCatalog.layout = .ok libraryCatalog := by
    obtain ⟨c, hc⟩ := Catalog.exists_ofLayout_eq_ok_iff.2 libraryCatalog.checked
    obtain ⟨layout, checked⟩ := c
    obtain rfl := Catalog.layout_of_ofLayout hc
    exact hc
  have hquery : libraryCatalog.table.find? ⟨"Query", []⟩ = some ⟨"lib.Query", some "Query",
      [{ ident := "books", type := .list (.shape ⟨"Book", []⟩) },
        { ident := "page", type := .shape ⟨"Query", [1]⟩ }]⟩ := by cbv
  have hleads : libraryCatalog.table.Leads ⟨"Query", []⟩ ⟨"Query", [1]⟩ :=
    .step .root hquery (List.mem_cons_of_mem _ List.mem_cons_self) rfl
  obtain ⟨-, -, hplaces⟩ := (catalog_check_exact libraryCatalog.layout).2.2 libraryCatalog hok
  obtain ⟨h, hp, hfind, -⟩ := hplaces "Query" (by decide) ⟨"Query", [1]⟩ hleads
  exact ⟨herror, hfirst.2, hok, hleads, h, hp, hfind⟩

end QueryShape
