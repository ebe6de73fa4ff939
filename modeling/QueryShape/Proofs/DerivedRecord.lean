import Mathlib
import QueryShape.Proofs.AttributeMarks

/-!
# Members of declared records

`derive_record` says which members the shape of a declared record has, which attributes and items leave it
as it is wherever they stand, and why a record has no shape.
-/

set_option autoImplicit false

namespace QueryShape

/-! ## Fields -/

namespace FieldDeclaration

/-- The items of all lists of a field with the path `family`. -/
def items (family : String) (f : FieldDeclaration) : List Attribute :=
  f.attributes.flatMap (·.itemsOf family)

/-- Whether the word `w` is an item of such a list. -/
def hasWord (family w : String) (f : FieldDeclaration) : Bool := (f.items family).any (·.isWord w)

def isShown (f : FieldDeclaration) : Bool := !f.hasWord "graphql" "skip" && !f.hasWord "serde" "skip"

/-- All `serde` items of the field have paths of names. -/
def WellNamed (f : FieldDeclaration) : Prop := ∀ a ∈ f.attributes, a.WellNamed

/-- The member is that of the field, as its attributes say. -/
structure Describes (f : FieldDeclaration) (m : DerivedMember) : Prop where
  ident : m.ident = if m.embedded then f.type.innermostName
    else String.ofList (Text.camelCase (plainName f.name).toList)
  embedded : m.embedded = (f.hasWord "graphql" "flatten" || f.hasWord "serde" "flatten")
  type : m.type = if f.hasWord "graphql" "scalar" then none else some f.type
  tag : m.tag = ((f.items "graphql").filterMap (·.assigned? "tag")).getLast?
  fallbackName : m.fallbackName = ((f.items "serde").filterMap (·.assigned? "rename")).getLast?

/-- What the attributes of a field come to. -/
def marks (f : FieldDeclaration) : Marks := Marks.after {} (f.items "graphql") (f.items "serde")

theorem describes_member (f : FieldDeclaration) : f.Describes (f.member f.marks) where
  ident := rfl
  embedded := by simp [member, marks, Marks.after, hasWord]
  type := by simp [member, marks, Marks.after, hasWord]
  tag := by simp [member, marks, Marks.after]
  fallbackName := by simp [member, marks, Marks.after]

theorem skip_marks (f : FieldDeclaration) : f.marks.skip = !f.isShown := by
  simp [marks, Marks.after, isShown, hasWord]

theorem outcome_member? (f : FieldDeclaration) :
    Outcome f.member? (f.attributes.all fun a => a.isNamed && a.isAccepted)
      (if f.isShown then some (f.member f.marks) else none) := by
  have hskip := f.skip_marks
  rw [← Bool.and_true (f.attributes.all _)]
  refine (Marks.outcome_ofAttributes f.attributes).bind ?_
  show Outcome (pure (if f.marks.skip then none else some (f.member f.marks))) true _
  cases hs : f.isShown with
  | true =>
    rw [hskip, hs]
    exact outcome_ok _
  | false =>
    rw [hskip, hs]
    exact outcome_ok _

end FieldDeclaration

/-! ## Declarations -/

namespace Declaration

/-- Whether a declaration may have the attribute. -/
def isAccepted (a : Attribute) : Bool :=
  !(a.path = "graphql") || a.isList && a.listed.all (·.isContainerItem)

/-- All `serde` items of the fields have paths of names. -/
def WellNamed (d : Declaration) : Prop :=
  ∀ fields, d.body = .record fields → ∀ f ∈ fields, f.WellNamed

theorem scan_name : TypeToken.scan "name".toList = [.word "name"] := by decide +kernel

/-- The name that items give; the last one counts. -/
def nameAfter (n : Option String) (items : List Attribute) : Option String :=
  ((items.filterMap (·.assigned? "name")).getLast?).or n

theorem nameAfter_nameAfter (n : Option String) (l l' : List Attribute) :
    nameAfter (nameAfter n l) l' = nameAfter n (l ++ l') := by
  unfold nameAfter
  rw [List.filterMap_append, List.getLast?_append, Option.or_assoc]

theorem isContainerItem_of_ne {a : Attribute} (h : a.path ≠ "name") : a.isContainerItem = false := by
  cases a with
  | word path => rfl
  | assign path value =>
    cases value with
    | text s => exact congrArg Option.isSome (if_neg h)
    | other => rfl
  | list path items => rfl

theorem outcome_takeName (n : Option String) (i : AttributeItem) :
    Outcome (takeName n i) i.content.isContainerItem (nameAfter n [i.content]) := by
  unfold takeName
  by_cases hp : i.path = "name"
  · rw [AttributeItem.checkWords_of_word (hp ▸ scan_name), if_pos hp]
    obtain ⟨content, ends⟩ := i
    cases content with
    | word path => exact outcome_error _ _
    | assign path value =>
      obtain rfl : path = "name" := hp
      cases value with
      | text s => exact outcome_ok _
      | other => exact outcome_error _ _
    | list path items => exact outcome_error _ _
  · rw [if_neg hp, isContainerItem_of_ne hp]
    cases i.checkWords with
    | error e => exact outcome_error _ _
    | ok u => exact outcome_error _ _

theorem outcome_givenName (d : Declaration) :
    Outcome d.givenName (d.attributes.all isAccepted)
      (nameAfter none (d.attributes.flatMap (·.itemsOf "graphql"))) := by
  refine outcome_foldlM (fun n (l : List Attribute) => nameAfter n (l.flatMap (·.itemsOf "graphql")))
    (fun n => rfl) (fun n a l => ?_) d.attributes (fun n a _ => ?_) none
  · rw [nameAfter_nameAfter]
    simp only [List.flatMap_cons, List.flatMap_nil, List.append_nil]
  · rw [List.flatMap_singleton]
    unfold isAccepted Attribute.itemsOf
    by_cases hg : a.path = "graphql"
    · rw [if_pos hg, if_pos hg, decide_eq_true hg]
      refine a.outcome_items fun path l hl => ?_
      subst hl
      exact outcome_contents _ nameAfter (fun _ => rfl) (fun n x l => nameAfter_nameAfter n [x] l)
        outcome_takeName l n
    · rw [if_neg hg, if_neg hg, decide_eq_false hg]
      exact outcome_ok n

theorem outcome_members {d : Declaration} {fields : List FieldDeclaration}
    (hbody : d.body = .record fields) :
    Outcome d.members (fields.all fun f => f.attributes.all fun a => a.isNamed && a.isAccepted)
      ((fields.filter (·.isShown)).map fun f => f.member f.marks) := by
  have hfields := outcome_mapM fields fun f _ => f.outcome_member?
  unfold members
  rw [hbody, ← Bool.and_true (fields.all _)]
  refine hfields.bind ?_
  have hlist : (fields.map fun f => if f.isShown then some (f.member f.marks) else none).filterMap id =
      (fields.filter (·.isShown)).map fun f => f.member f.marks := by
    rw [List.filterMap_map, ← List.filterMap_eq_map, List.filterMap_filter]
    rfl
  rw [← hlist]
  exact outcome_ok _

theorem outcome_derive {d : Declaration} {fields : List FieldDeclaration}
    (hbody : d.body = .record fields) :
    Outcome d.derive (!d.hasLifetime && (d.attributes.all isAccepted &&
        fields.all fun f => f.attributes.all fun a => a.isNamed && a.isAccepted))
      ⟨(nameAfter none (d.attributes.flatMap (·.itemsOf "graphql"))).getD d.name,
        (fields.filter (·.isShown)).map fun f => f.member f.marks⟩ := by
  unfold derive
  cases hl : d.hasLifetime with
  | true => exact outcome_error _ _
  | false =>
    rw [if_neg Bool.false_ne_true, Bool.not_false, Bool.true_and]
    refine d.outcome_givenName.bind ?_
    rw [← Bool.and_true (fields.all _)]
    exact (outcome_members hbody).bind (outcome_ok _)

theorem describes_of_derive {d : Declaration} {fields : List FieldDeclaration} {s : DerivedShape}
    (hbody : d.body = .record fields) (hd : d.derive = .ok s) :
    List.Forall₂ FieldDeclaration.Describes (fields.filter (·.isShown)) s.members := by
  rw [(outcome_derive hbody).eq_of_ok hd, List.forall₂_map_right_iff]
  exact List.forall₂_same.2 fun f _ => f.describes_member

/-! ## Refusals -/

/-- Why a record has no shape. -/
inductive Refused (d : Declaration) (fields : List FieldDeclaration) : Prop where
  | lifetime {name : String} (h : .lifetime name ∈ d.parameters)
  /-- A `graphql` attribute of the declaration is no list. -/
  | containerList {a : Attribute} (ha : a ∈ d.attributes) (hp : a.path = "graphql")
      (h : a.isList = false)
  /-- An item of such a list is not `name` with a text. -/
  | containerItem {a x : Attribute} (ha : a ∈ d.attributes) (hx : x ∈ a.itemsOf "graphql")
      (h : ∀ s, x ≠ .assign "name" (.text s))
  /-- A `graphql` or `serde` attribute of a field is no list. -/
  | fieldList {f : FieldDeclaration} {a : Attribute} (hf : f ∈ fields) (ha : a ∈ f.attributes)
      (hp : a.path = "graphql" ∨ a.path = "serde") (h : a.isList = false)
  /-- An item of a `graphql` list is not `tag` with a text, and none of the other words. -/
  | fieldItem {f : FieldDeclaration} {x : Attribute} (hf : f ∈ fields) (hx : x ∈ f.items "graphql")
      (htag : ∀ s, x ≠ .assign "tag" (.text s))
      (hwords : ∀ w ∈ ["flatten", "skip", "scalar"], x ≠ .word w)
  /-- A `serde` list renames the field to something that is no text. -/
  | rename {f : FieldDeclaration} (hf : f ∈ fields) (h : .assign "rename" .other ∈ f.items "serde")

theorem hasLifetime_iff (d : Declaration) :
    d.hasLifetime = true ↔ ∃ name, .lifetime name ∈ d.parameters := by
  unfold hasLifetime
  rw [List.any_eq_true]
  constructor
  · rintro ⟨p, hp, h⟩
    cases p with
    | lifetime name => exact ⟨name, hp⟩
    | type name bounds => cases h
    | const name => cases h
  · rintro ⟨name, hp⟩
    exact ⟨.lifetime name, hp, rfl⟩

theorem isAccepted_eq_false_iff {a : Attribute} :
    isAccepted a = false ↔ a.path = "graphql" ∧
      (a.isList = false ∨ ∃ x ∈ a.itemsOf "graphql", x.isContainerItem = false) := by
  simp only [Attribute.mem_itemsOf]
  unfold isAccepted
  by_cases hg : a.path = "graphql"
  · cases a.isList <;> simp [hg]
  · simp [hg]

theorem refused_iff {d : Declaration} {fields : List FieldDeclaration}
    (h : ∀ f ∈ fields, f.WellNamed) :
    (!d.hasLifetime && (d.attributes.all isAccepted &&
      fields.all fun f => f.attributes.all fun a => a.isNamed && a.isAccepted)) = false ↔
      d.Refused fields := by
  have hnamed : ∀ {f a}, f ∈ fields → a ∈ f.attributes → (a.isNamed && a.isAccepted) = a.isAccepted := by
    intro f a hf ha
    rw [isNamed_of_wellNamed (h f hf a ha), Bool.true_and]
  rw [Bool.and_eq_false_iff, Bool.and_eq_false_iff, Bool.not_eq_false', List.all_eq_false,
    List.all_eq_false, hasLifetime_iff]
  constructor
  · rintro (⟨name, h⟩ | ⟨a, ha, h⟩ | ⟨f, hf, h⟩)
    · exact .lifetime h
    · obtain ⟨hp, h⟩ := isAccepted_eq_false_iff.1 (Bool.eq_false_of_not_eq_true h)
      obtain h | ⟨x, hx, h⟩ := h
      · exact .containerList ha hp h
      · exact .containerItem ha hx (Attribute.isContainerItem_eq_false_iff.1 h)
    · obtain ⟨a, ha, h⟩ := List.all_eq_false.1 (Bool.eq_false_of_not_eq_true h)
      obtain ⟨hp, h⟩ | ⟨x, hx, h⟩ | h :=
        Attribute.isAccepted_eq_false_iff.1 (Bool.eq_false_of_not_eq_true (hnamed hf ha ▸ h))
      · exact .fieldList hf ha hp h
      · obtain ⟨htag, hwords⟩ := Attribute.isFieldItem_eq_false_iff.1 h
        exact .fieldItem hf (List.mem_flatMap.2 ⟨a, ha, hx⟩) htag hwords
      · exact .rename hf (List.mem_flatMap.2 ⟨a, ha, h⟩)
  · have hcontainer : ∀ {a}, a ∈ d.attributes → isAccepted a = false →
        ∃ a ∈ d.attributes, ¬ isAccepted a = true := fun ha h => ⟨_, ha, Bool.not_eq_true _ ▸ h⟩
    have hfield : ∀ {f a}, f ∈ fields → a ∈ f.attributes → a.isAccepted = false →
        ∃ f ∈ fields, ¬ (f.attributes.all fun a => a.isNamed && a.isAccepted) = true := by
      intro f a hf ha h
      refine ⟨f, hf, Bool.not_eq_true _ ▸ List.all_eq_false.2 ⟨a, ha, ?_⟩⟩
      rw [hnamed hf ha, h]
      exact Bool.false_ne_true
    intro h
    cases h with
    | lifetime h => exact .inl ⟨_, h⟩
    | containerList ha hp h =>
      exact .inr (.inl (hcontainer ha (isAccepted_eq_false_iff.2 ⟨hp, .inl h⟩)))
    | containerItem ha hx h =>
      exact .inr (.inl (hcontainer ha (isAccepted_eq_false_iff.2 ⟨(Attribute.mem_itemsOf.1 hx).1,
        .inr ⟨_, hx, Attribute.isContainerItem_eq_false_iff.2 h⟩⟩)))
    | fieldList hf ha hp h =>
      exact .inr (.inr (hfield hf ha (Attribute.isAccepted_eq_false_iff.2 (.inl ⟨hp, h⟩))))
    | fieldItem hf hx htag hwords =>
      obtain ⟨a, ha, hx⟩ := List.mem_flatMap.1 hx
      exact .inr (.inr (hfield hf ha (Attribute.isAccepted_eq_false_iff.2
        (.inr (.inl ⟨_, hx, Attribute.isFieldItem_eq_false_iff.2 ⟨htag, hwords⟩⟩)))))
    | rename hf h =>
      obtain ⟨a, ha, hx⟩ := List.mem_flatMap.1 h
      exact .inr (.inr (hfield hf ha (Attribute.isAccepted_eq_false_iff.2 (.inr (.inr hx)))))

/-! ## Insertions -/

/-- Something that says nothing of a field is put among its attributes. -/
inductive FieldInsertion : List Attribute → List Attribute → Prop where
  | other {as bs : List Attribute} {a : Attribute} (hg : a.path ≠ "graphql")
      (hs : a.path ≠ "serde") : FieldInsertion (as ++ bs) (as ++ a :: bs)
  | item {as bs xs ys : List Attribute} {x : Attribute} (hx : x.isIdle = true) (hpath : x.path ≠ "") :
      FieldInsertion (as ++ .list "serde" (xs ++ ys) :: bs) (as ++ .list "serde" (xs ++ x :: ys) :: bs)

/-- Something that says nothing is put among the attributes of a declaration or of one of its fields. -/
inductive Insertion (d : Declaration) : Declaration → Prop where
  | container {as bs : List Attribute} {a : Attribute} (h : d.attributes = as ++ bs)
      (ha : a.path ≠ "graphql") : Insertion d { d with attributes := as ++ a :: bs }
  | field {fs gs : List FieldDeclaration} {f : FieldDeclaration} {attributes : List Attribute}
      (h : d.body = .record (fs ++ f :: gs)) (hi : FieldInsertion f.attributes attributes) :
      Insertion d { d with body := .record (fs ++ { f with attributes := attributes } :: gs) }

theorem ofAttributes_insert {as bs : List Attribute} (h : FieldInsertion as bs)
    (hb : ∀ b ∈ bs, b.WellNamed) : Marks.ofAttributes bs = Marks.ofAttributes as := by
  unfold Marks.ofAttributes
  cases h with
  | @other as bs a hg hs =>
    rw [List.foldlM_append, List.foldlM_append]
    congr 1
    funext m
    rw [List.foldlM_cons, Marks.take, if_neg hg, if_neg hs]
    rfl
  | @item as bs xs ys x hx hpath =>
    have hlist := hb (.list "serde" (xs ++ x :: ys)) (by simp)
    rw [List.foldlM_append, List.foldlM_append]
    congr 1
    funext m
    rw [List.foldlM_cons, List.foldlM_cons, Marks.take_insert m hx hpath hlist]

theorem derive_insert {d d' : Declaration} (h : d.Insertion d') (hw : d'.WellNamed) :
    d'.derive = d.derive := by
  cases h with
  | @container as bs a h ha =>
    have hname : givenName { d with attributes := as ++ a :: bs } = d.givenName := by
      unfold givenName
      rw [h, List.foldlM_append, List.foldlM_append]
      congr 1
      funext n
      rw [List.foldlM_cons, if_neg ha]
      rfl
    unfold derive
    rw [hname]
    rfl
  | @field fs gs f attributes h hi =>
    have hmember : FieldDeclaration.member? { f with attributes := attributes } = f.member? := by
      unfold FieldDeclaration.member?
      rw [ofAttributes_insert hi (hw _ rfl { f with attributes := attributes } (by simp))]
      rfl
    have hmembers : members { d with body := .record (fs ++ { f with attributes := attributes } :: gs) } =
        d.members := by
      unfold members
      rw [h]
      simp only [List.mapM_append, List.mapM_cons, hmember]
    unfold derive
    rw [hmembers]
    rfl

/-- The shape of a record has a member for every field that is not skipped, in order, as the attributes of
the field say. Whatever else is put among the attributes leaves the shape, or the error, as it is. -/
theorem derive_record (d : Declaration) {fields : List FieldDeclaration} (hbody : d.body = .record fields)
    (hw : d.WellNamed) :
    (∀ s, d.derive = .ok s →
      List.Forall₂ FieldDeclaration.Describes (fields.filter (·.isShown)) s.members) ∧
    (∀ d', d.Insertion d' → d'.WellNamed → d'.derive = d.derive) ∧
    ((∃ e, d.derive = .error e) ↔ d.Refused fields) := by
  exact ⟨fun s hs => describes_of_derive hbody hs, fun d' hi hw' => derive_insert hi hw',
    (outcome_derive hbody).error_iff.trans (refused_iff (hw fields hbody))⟩

theorem wellNamed_of_words {d : Declaration} {fields : List FieldDeclaration}
    (hbody : d.body = .record fields)
    (h : ∀ f ∈ fields, ∀ x ∈ f.items "serde",
      TypeToken.scan x.path.toList = [.word x.path] ∧ isPathWord x.path = true) : d.WellNamed := by
  intro fields' hbody' f hf a ha hp x hx
  cases hbody.symm.trans hbody'
  obtain ⟨hscan, hword⟩ := h f hf x (List.mem_flatMap.2 ⟨a, ha, Attribute.mem_itemsOf.2 ⟨hp, hx⟩⟩)
  rw [hscan]
  exact .names hword .nil

/-- A field that is renamed after other options, one that is skipped and one that is embedded. -/
def issueFields (options : List Attribute) : List FieldDeclaration :=
  [⟨"created", .path ["String"] [],
      [.list "serde" (options ++ [.assign "rename" (.text "createdAt")])]⟩,
    ⟨"secret", .path ["String"] [], [.list "serde" [.assign "with" (.text "hidden"), .word "skip"]]⟩,
    ⟨"meta", .path ["Option"] [.path ["Meta"] []],
      [.assign "doc" (.text "Shared."), .list "graphql" [.word "flatten"]]⟩]

def issueDeclaration (options : List Attribute) : Declaration :=
  { name := "Issue", body := .record (issueFields options) }

theorem derive_record_issue :
    ∃ s, (issueDeclaration [.word "default"]).derive = .ok s ∧
      List.Forall₂ FieldDeclaration.Describes
        ((issueFields [.word "default"]).filter (·.isShown)) s.members ∧
      (issueDeclaration [.assign "alias" (.text "made"), .word "default"]).derive = .ok s := by
  have hw : (issueDeclaration [.word "default"]).WellNamed := wellNamed_of_words rfl (by decide +kernel)
  have hw' : (issueDeclaration [.assign "alias" (.text "made"), .word "default"]).WellNamed :=
    wellNamed_of_words rfl (by decide +kernel)
  have hok := (outcome_derive (d := issueDeclaration [.word "default"]) rfl).eq_ok (by decide +kernel)
  have hi : (issueDeclaration [.word "default"]).Insertion
      (issueDeclaration [.assign "alias" (.text "made"), .word "default"]) :=
    @Insertion.field _ [] _ ⟨"created", _, _⟩ _ rfl (@FieldInsertion.item [] [] [] _ _ rfl (by decide))
  obtain ⟨hmembers, hinsert, -⟩ := derive_record (issueDeclaration [.word "default"]) rfl hw
  exact ⟨_, hok, hmembers _ hok, (hinsert _ hi hw').trans hok⟩

end Declaration

end QueryShape
