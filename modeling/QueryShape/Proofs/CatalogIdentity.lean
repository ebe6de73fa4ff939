import QueryShape.Proofs.CatalogTable
import QueryShape.Proofs.ReachablePart

/-!
# Ids of catalog shapes

The id of an anonymous shape is made of names with dots between them, and nothing keeps these apart: a
name may have dots, and two fields of one shape may have the same name. `places_identified`: where the
anonymous shapes of each shape stand in fields with different names without dots, an id belongs to one
place. Then extraction shares what is defined once only.
-/

set_option autoImplicit false

namespace QueryShape

/-- The type of the member is an anonymous shape, which is spelled out in the member. -/
def Member.spellsOut (m : Member ShapePlace) : Bool :=
  match m.type with
  | .shape place => !place.path.isEmpty
  | _ => false

/-- The members that spell out shapes have different names, without dots. -/
structure Shape.PlainNames (s : Shape ShapePlace) : Prop where
  dotless : ∀ m ∈ s.members, m.spellsOut = true → '.' ∉ m.ident.toList
  distinct : s.members.Pairwise fun m m' =>
    m.spellsOut = true → m'.spellsOut = true → m.ident ≠ m'.ident

instance (s : Shape ShapePlace) : Decidable s.PlainNames :=
  decidable_of_iff ((∀ m ∈ s.members, m.spellsOut = true → '.' ∉ m.ident.toList) ∧
    s.members.Pairwise fun m m' => m.spellsOut = true → m'.spellsOut = true → m.ident ≠ m'.ident)
    ⟨fun h => ⟨h.1, h.2⟩, fun h => ⟨h.dotless, h.distinct⟩⟩

/-- The same of the fields of a layout. -/
structure PlainFields (fields : List FieldLayout) : Prop where
  dotless : ∀ (i : Nat) (f : FieldLayout), fields[i]? = some f → f.shape.isSome = true →
    '.' ∉ f.name.toList
  distinct : ∀ (i j : Nat) (f f' : FieldLayout), fields[i]? = some f → fields[j]? = some f' →
    f.shape.isSome = true → f'.shape.isSome = true → f.name = f'.name → i = j

namespace CatalogLayout

variable {c : CatalogLayout}

theorem path_of_typeRef {t : TypeText} {place : ShapePlace} (h : c.typeRef t = .shape place) :
    place.path = [] := by
  cases t with
  | named name =>
    rw [typeRef] at h
    split at h <;> cases h
    rfl
  | list item => cases h
  | optional type => cases h

theorem shape?_typeRef {t : TypeText} {place : ShapePlace}
    (h : (c.typeRef t).shape? = some place) :
    place = ⟨t.innermost, []⟩ ∧ OrderedMap.contains c.shapes t.innermost = true := by
  induction t with
  | named name =>
    rw [typeRef] at h
    split at h
    · rename_i hc
      cases h
      exact ⟨rfl, hc⟩
    · cases h
  | list item ih => exact ih h
  | optional type ih => exact ih h

theorem spellsOut_member (place : ShapePlace) (i : Nat) (f : FieldLayout) :
    (c.member (place.child i) f).spellsOut = f.shape.isSome := by
  unfold member Member.spellsOut fieldType
  dsimp only
  cases f.shape with
  | some fields => simp [ShapePlace.child]
  | none =>
    cases f.type.bind TypeText.read? with
    | none => rfl
    | some t =>
      dsimp only
      cases ht : c.typeRef t with
      | shape place => simp [path_of_typeRef ht]
      | _ => rfl

theorem plainFields_of_shapeAt {place : ShapePlace} {id : String} {name : Option String}
    {fields : List FieldLayout} (h : (c.shapeAt place id name fields).PlainNames) :
    PlainFields fields := by
  have hmember : ∀ (i : Nat) (f : FieldLayout), fields[i]? = some f →
      (c.shapeAt place id name fields).members[i]? = some (c.member (place.child i) f) := by
    intro i f hf
    simp [shapeAt, List.getElem?_mapIdx, hf]
  have hlt : ∀ (i j : Nat) (f f' : FieldLayout), fields[i]? = some f → fields[j]? = some f' →
      f.shape.isSome = true → f'.shape.isSome = true → f.name = f'.name → ¬ i < j := by
    intro i j f f' hi hj hs hs' hn hij
    obtain ⟨hi', hi⟩ := List.getElem?_eq_some_iff.1 (hmember i f hi)
    obtain ⟨hj', hj⟩ := List.getElem?_eq_some_iff.1 (hmember j f' hj)
    have hd := List.pairwise_iff_getElem.1 h.distinct i j hi' hj' hij
    rw [hi, hj, spellsOut_member, spellsOut_member] at hd
    exact hd hs hs' hn
  refine ⟨?_, ?_⟩
  · intro i f hf hs
    refine h.dotless _ (List.mem_of_getElem? (hmember i f hf)) ?_
    rw [spellsOut_member]
    exact hs
  · intro i j f f' hi hj hs hs' hn
    have h₁ := hlt i j f f' hi hj hs hs' hn
    have h₂ := hlt j i f' f hj hi hs' hs hn.symm
    omega

end CatalogLayout

/-! ## Paths and names -/

theorem Descends.dotless {fields last : List FieldLayout} {path : List Nat} {names : List String}
    (h : Descends PlainFields fields path names last) : ∀ name ∈ names, '.' ∉ name.toList := by
  induction h with
  | nil => simp
  | cons hp hf hs _ ih =>
    rw [List.forall_mem_cons]
    exact ⟨hp.dotless _ _ hf (by rw [hs]; rfl), ih⟩

/-- The names tell the path. -/
theorem Descends.path_unique {fields last last' : List FieldLayout} {path path' : List Nat}
    {names : List String} (h : Descends PlainFields fields path names last)
    (h' : Descends PlainFields fields path' names last') : path = path' := by
  induction h generalizing path' with
  | nil =>
    cases h'
    rfl
  | @cons fields inner last i f path names hp hf hs _ ih =>
    generalize hnames : f.name :: names = names' at h'
    cases h' with
    | nil => cases hnames
    | @cons _ inner' _ j f' path' names' _ hf' hs' h' =>
      obtain ⟨hn, rfl⟩ := List.cons.inj hnames
      obtain rfl : i = j := hp.distinct i j f f' hf hf' (by rw [hs]; rfl) (by rw [hs']; rfl) hn
      cases hf.symm.trans hf'
      cases hs.symm.trans hs'
      rw [ih h']

theorem OrderedMap.find?_of_contains {κ α : Type} [DecidableEq κ] {m : OrderedMap κ α} {key : κ}
    (h : contains m key = true) : ∃ v, find? m key = some v := by
  induction m with
  | nil => cases h
  | cons e m ih =>
    rw [find?]
    split
    · exact ⟨_, rfl⟩
    · rename_i hne
      apply ih
      simpa [contains, hne] using h

/-! ## Places that are met -/

section
variable {c : CatalogLayout} {root : ShapePlace}

/-- All that is known of a place that the root leads to. -/
structure Located (c : CatalogLayout) (place : ShapePlace) (names : List String)
    (last : List FieldLayout) : Prop where
  descends : ∃ fields, OrderedMap.find? c.shapes place.name = some fields ∧
    Descends PlainFields fields place.path names last
  dotless : '.' ∉ place.name.toList

theorem Located.find? {place : ShapePlace} {names : List String} {last : List FieldLayout}
    (h : Located c place names last) : c.table.find? place =
      some (c.shapeAt place (c.idOf (place.name :: names))
        (if place.path = [] then some place.name else none) last) := by
  obtain ⟨fields, hf, hd⟩ := h.descends
  exact c.find?_table hf hd

theorem Located.named {name : String} (hc : OrderedMap.contains c.shapes name = true)
    (hdot : '.' ∉ name.toList) : ∃ last, Located c ⟨name, []⟩ [] last := by
  obtain ⟨fields, hf⟩ := OrderedMap.find?_of_contains hc
  exact ⟨fields, ⟨fields, hf, .nil⟩, hdot⟩

/-- The type of a field leads to a shape inside the field or to a named shape. -/
theorem Located.step {place place' : ShapePlace} {names : List String} {last : List FieldLayout}
    (h : Located c place names last) (hp : PlainFields last) {i : Nat} {f : FieldLayout}
    (hf : last[i]? = some f) (hs : (c.fieldType (place.child i) f).shape? = some place') :
    ∃ names' last', Located c place' names' last' := by
  unfold CatalogLayout.fieldType at hs
  split at hs
  · rename_i inner hshape
    cases hs
    obtain ⟨fields, hfields, hd⟩ := h.descends
    exact ⟨_, inner, ⟨fields, hfields, hd.snoc hp hf hshape⟩, h.dotless⟩
  · rename_i t _ ht
    obtain ⟨text, -, hread⟩ := Option.bind_eq_some_iff.1 ht
    obtain ⟨rfl, hc⟩ := CatalogLayout.shape?_typeRef hs
    exact ⟨[], Located.named hc (TypeText.notMem_innermost hread)⟩
  · cases hs

theorem Located.of_leads {names : List String} {last : List FieldLayout}
    (hroot : Located c root names last)
    (hplain : ∀ place s, c.table.Leads root place → c.table.find? place = some s → s.PlainNames)
    {place : ShapePlace} (h : c.table.Leads root place) :
    ∃ names last, Located c place names last := by
  induction h with
  | root => exact ⟨names, last, hroot⟩
  | @step key key' s m hl hf hm hs ih =>
    obtain ⟨names, last, hkey⟩ := ih
    have hp := hplain key s hl hf
    cases hkey.find?.symm.trans hf
    obtain ⟨i, hi, rfl⟩ := List.mem_mapIdx.1 hm
    exact hkey.step (CatalogLayout.plainFields_of_shapeAt hp) (List.getElem?_eq_getElem hi) hs

/-- One id, one place. -/
theorem Located.unique {place place' : ShapePlace} {names names' : List String}
    {last last' : List FieldLayout} (h : Located c place names last)
    (h' : Located c place' names' last')
    (hid : c.idOf (place.name :: names) = c.idOf (place'.name :: names')) : place = place' := by
  obtain ⟨fields, hf, hd⟩ := h.descends
  obtain ⟨fields', hf', hd'⟩ := h'.descends
  have hdot : ∀ name ∈ place.name :: names, '.' ∉ name.toList := by
    rw [List.forall_mem_cons]
    exact ⟨h.dotless, hd.dotless⟩
  have hdot' : ∀ name ∈ place'.name :: names', '.' ∉ name.toList := by
    rw [List.forall_mem_cons]
    exact ⟨h'.dotless, hd'.dotless⟩
  obtain ⟨hname, rfl⟩ := List.cons.inj
    (c.idOf_inj (List.cons_ne_nil _ _) (List.cons_ne_nil _ _) hdot hdot' hid)
  rw [hname, hf'] at hf
  cases hf
  obtain ⟨name, path⟩ := place
  obtain ⟨name', path'⟩ := place'
  cases hname
  exact congrArg (ShapePlace.mk name) (hd.path_unique hd')

end

/-- Where the names of anonymous shapes are plain, an id that is met belongs to one place. Sharing by
id then leaves out nothing that is defined, and finds no cycle that the definitions do not have. -/
theorem places_identified {c : Catalog} {name : String} {root : ShapePlace}
    (hroot : c.find name = .ok root) (hdot : '.' ∉ name.toList)
    (hplain : ∀ place s, c.table.Leads root place → c.table.find? place = some s → s.PlainNames) :
    (∀ place place' s s', c.table.Leads root place → c.table.Leads root place' →
      c.table.find? place = some s → c.table.find? place' = some s' → s.id = s'.id →
      place = place' ∧ s = s') ∧
    (∀ tree, (∃ g, Graph.extract c.table root = .ok g ∧ g.unfolding = tree) ↔
      ∃ depth, c.table.expansion depth root = some tree) ∧
    ∀ ids, Graph.extract c.table root = .error (.cycle ids) → c.table.IsCycle root ids ∧
      ∃ s, c.table.ReachableFrom root s ∧ Relation.TransGen c.table.Refers s s := by
  obtain ⟨hcontains, rfl⟩ :
      OrderedMap.contains c.layout.shapes name = true ∧ root = ⟨name, []⟩ := by
    unfold Catalog.find at hroot
    split at hroot
    · rename_i hcontains
      cases hroot
      exact ⟨hcontains, rfl⟩
    · cases hroot
  obtain ⟨last, hlast⟩ := Located.named hcontains hdot
  have hone : ∀ place place' s s', c.table.Leads ⟨name, []⟩ place →
      c.table.Leads ⟨name, []⟩ place' → c.table.find? place = some s →
      c.table.find? place' = some s' → s.id = s'.id → place = place' ∧ s = s' := by
    intro place place' s s' hl hl' hs hs' hid
    obtain ⟨names, fields, h⟩ := hlast.of_leads hplain hl
    obtain ⟨names', fields', h'⟩ := hlast.of_leads hplain hl'
    obtain rfl : place = place' := by
      cases h.find?.symm.trans hs
      cases h'.find?.symm.trans hs'
      exact h.unique h' hid
    exact ⟨rfl, Option.some.inj (hs.symm.trans hs')⟩
  have hcoherent : c.table.CoherentBelow ⟨name, []⟩ := by
    intro place place' s s' hl hl' hs hs' hid
    obtain ⟨-, rfl⟩ := hone place place' s s' hl hl' hs hs' hid
    exact ⟨rfl, rfl⟩
  exact ⟨hone, ShapeTable.extract_iff_expansion_below hcoherent,
    fun ids => ShapeTable.isCycle_below hcoherent⟩

/-- Pages of books, and a page in each book. -/
def libraryCatalog : Catalog where
  layout :=
    { space := "lib", root := "Query",
      shapes :=
        [("Query", [⟨"books", none, some "[Book!]", false, none⟩,
          ⟨"page", none, none, false, some [⟨"size", none, none, false, none⟩,
            ⟨"next", none, none, false, some [⟨"book", none, some "Book", false, none⟩]⟩]⟩]),
        ("Book", [⟨"title", none, none, false, none⟩,
          ⟨"page", none, none, false, some [⟨"number", none, none, false, none⟩]⟩])] }
  checked := by cbv

theorem plainNames_library : libraryCatalog.table.entries.all (fun e => decide e.2.PlainNames) := by
  cbv

theorem places_identified_library : libraryCatalog.find "Query" = .ok ⟨"Query", []⟩ ∧
    '.' ∉ "Query".toList ∧
    (∀ place s, libraryCatalog.table.Leads ⟨"Query", []⟩ place →
      libraryCatalog.table.find? place = some s → s.PlainNames) ∧
    ∀ place place' s s', libraryCatalog.table.Leads ⟨"Query", []⟩ place →
      libraryCatalog.table.Leads ⟨"Query", []⟩ place' → libraryCatalog.table.find? place = some s →
      libraryCatalog.table.find? place' = some s' → s.id = s'.id → place = place' ∧ s = s' := by
  have hfind : libraryCatalog.find "Query" = .ok ⟨"Query", []⟩ := by cbv
  have hdot : '.' ∉ "Query".toList := by decide
  have hplain : ∀ place s, libraryCatalog.table.Leads ⟨"Query", []⟩ place →
      libraryCatalog.table.find? place = some s → s.PlainNames := by
    intro place s _ hs
    have h := List.all_eq_true.1 plainNames_library _ (OrderedMap.mem_of_find? hs)
    exact of_decide_eq_true h
  exact ⟨hfind, hdot, hplain, (places_identified hfind hdot hplain).1⟩

/-- Two fields have one name, under different aliases, and spell out different shapes. -/
def aliasCatalog : Catalog where
  layout :=
    { root := "Q",
      shapes := [("Q",
        [⟨"item", some "item,alias=a", none, false, some [⟨"x", none, none, false, none⟩]⟩,
        ⟨"item", some "item,alias=b", none, false, some [⟨"y", none, none, false, none⟩]⟩])] }
  checked := by cbv

def aliasGraph : Graph where
  nodes := #[⟨"Q.item", none, [⟨"x", .scalar, []⟩], false, 2⟩,
    ⟨"Q", some "Q", [⟨"a:item", .object (some 0), []⟩, ⟨"b:item", .object (some 0), []⟩],
      false, 1⟩]
  root := some 1

set_option maxRecDepth 100000 in
theorem extract_alias : Graph.extract aliasCatalog.table ⟨"Q", []⟩ = .ok aliasGraph := by cbv

/-- A shape inside `A` has the id of the root. -/
def dottedCatalog : Catalog where
  layout :=
    { root := "A.b",
      shapes := [("A.b", [⟨"x", none, some "A", false, none⟩]),
        ("A", [⟨"b", none, none, false, some [⟨"y", none, none, false, none⟩]⟩])] }
  checked := by cbv

set_option maxRecDepth 100000 in
theorem extract_dotted : Graph.extract dottedCatalog.table ⟨"A.b", []⟩ =
    .error (.cycle ["A.b", "A", "A.b"]) := by cbv

set_option maxRecDepth 100000 in
theorem expansion_dotted : ∃ tree, dottedCatalog.table.expansion 3 ⟨"A.b", []⟩ = some tree :=
  ⟨some (.mk "A.b" (some "A.b") false [.mk "x" (.object (some (.mk "A" (some "A") false
    [.mk "b" (.object (some (.mk "A.b" none false [.mk "y" .scalar []]))) []]))) []]), by cbv⟩

/-- Two places that are met have one id: with equal names of fields the shape at the second is lost,
and with a dot in a name a cycle is reported where the shapes can be written out. -/
theorem places_conflated : aliasCatalog.find "Q" = .ok ⟨"Q", []⟩ ∧
    (∃ s s', aliasCatalog.table.Leads ⟨"Q", []⟩ ⟨"Q", [0]⟩ ∧
      aliasCatalog.table.Leads ⟨"Q", []⟩ ⟨"Q", [1]⟩ ∧
      aliasCatalog.table.find? ⟨"Q", [0]⟩ = some s ∧ aliasCatalog.table.find? ⟨"Q", [1]⟩ = some s' ∧
      s.id = s'.id ∧ s.members ≠ s'.members) ∧
    Graph.extract aliasCatalog.table ⟨"Q", []⟩ = .ok aliasGraph ∧
    dottedCatalog.find "A.b" = .ok ⟨"A.b", []⟩ ∧
    Graph.extract dottedCatalog.table ⟨"A.b", []⟩ = .error (.cycle ["A.b", "A", "A.b"]) ∧
    ∃ tree, dottedCatalog.table.expansion 3 ⟨"A.b", []⟩ = some tree := by
  have hq : aliasCatalog.table.find? ⟨"Q", []⟩ = some ⟨"Q", some "Q",
      [{ ident := "item", tag := some "item,alias=a", type := .shape ⟨"Q", [0]⟩ },
      { ident := "item", tag := some "item,alias=b", type := .shape ⟨"Q", [1]⟩ }]⟩ := by cbv
  refine ⟨by cbv, ?_, extract_alias, by cbv, extract_dotted, expansion_dotted⟩
  refine ⟨⟨"Q.item", none, [{ ident := "x" }]⟩, ⟨"Q.item", none, [{ ident := "y" }]⟩, ?_, ?_, by cbv,
    by cbv, rfl, by decide⟩
  · exact .step .root hq List.mem_cons_self rfl
  · exact .step .root hq (List.mem_cons_of_mem _ List.mem_cons_self) rfl

end QueryShape
