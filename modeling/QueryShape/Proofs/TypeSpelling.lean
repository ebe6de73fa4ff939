import Mathlib
import QueryShape.Proofs.AnnotationToken
import QueryShape.Proofs.CatalogCorrespondence
import QueryShape.Proofs.CatalogIdentity
import QueryShape.Proofs.WalkRun

/-!
# What the type of a catalog field tells

Of the type of a field only the name inside its wrappers counts, and that only if it is the name of a
shape: `type_spelling_irrelevant`. What is left of the text of a type without brackets, marks and white
space is the name that it is read with (`TypeText.innermost_eq`).
-/

set_option autoImplicit false

namespace QueryShape

namespace TypeText

open Text

/-- The characters that are written around the name in a type. -/
def isWrapping (c : Char) : Bool := c == '[' || c == ']' || c == '!' || c == '?' || isBlank c

def unwrapped (cs : List Char) : List Char := cs.filter fun c => !isWrapping c

/-- The text of a type without brackets, marks and white space. -/
def bareName (text : String) : String := String.ofList (unwrapped text.toList)

theorem isWrapping_of_isBlank {c : Char} (h : isBlank c = true) : isWrapping c = true := by
  simp [isWrapping, h]

theorem unwrapped_append (cs ds : List Char) :
    unwrapped (cs ++ ds) = unwrapped cs ++ unwrapped ds := List.filter_append ..

theorem unwrapped_dropWhile (cs : List Char) : unwrapped (cs.dropWhile isBlank) = unwrapped cs := by
  induction cs with
  | nil => rfl
  | cons c cs ih =>
    by_cases hc : isBlank c = true
    · rw [List.dropWhile_cons_of_pos hc, ih]
      simp [unwrapped, isWrapping_of_isBlank hc]
    · rw [List.dropWhile_cons_of_neg hc]

theorem unwrapped_trim (cs : List Char) : unwrapped (trim cs) = unwrapped cs := by
  unfold trim
  calc unwrapped ((cs.dropWhile isBlank).reverse.dropWhile isBlank).reverse
      = (unwrapped ((cs.dropWhile isBlank).reverse.dropWhile isBlank)).reverse :=
        List.filter_reverse ..
    _ = (unwrapped (cs.dropWhile isBlank).reverse).reverse := by rw [unwrapped_dropWhile]
    _ = unwrapped (cs.dropWhile isBlank) := by
        rw [unwrapped, List.filter_reverse, List.reverse_reverse]
        rfl
    _ = unwrapped cs := unwrapped_dropWhile cs

theorem unwrapped_dropLast {cs : List Char} {c : Char} (h : cs.getLast? = some c)
    (hc : isWrapping c = true) : unwrapped cs.dropLast = unwrapped cs := by
  conv_rhs => rw [← List.dropLast_append_getLast? c h]
  rw [unwrapped_append]
  simp [unwrapped, hc]

theorem isWrapping_of_isNameChar {c : Char} (h : isNameChar c = true) : isWrapping c = false := by
  have hblank := Annotation.isBlank_of_isNameChar h
  have hne : ∀ x ∈ ['[', ']', '!', '?'], c ≠ x := by
    rintro x hx rfl
    simp only [List.mem_cons, List.not_mem_nil, or_false] at hx
    rcases hx with rfl | rfl | rfl | rfl <;> cases h
  simp_all [isWrapping]

theorem unwrapped_of_isName {cs : List Char} (h : isName cs = true) : unwrapped cs = cs := by
  apply List.filter_eq_self.2
  intro c hc
  rw [isWrapping_of_isNameChar (isNameChar_of_isName h c hc), Bool.not_false]

mutual

theorem innermost_readChars? {cs : List Char} {t : TypeText} (h : readChars? cs = some t) :
    t.innermost = String.ofList (unwrapped cs) := by
  have := length_trim_le cs
  rw [readChars?] at h
  rw [← unwrapped_trim]
  split at h
  · rename_i hlast
    obtain ⟨t', ht', rfl⟩ := Option.map_eq_some_iff.1 h
    rw [innermost, innermost_readBare? ht', unwrapped_dropLast hlast rfl]
  · split at h
    · rename_i hlast
      rw [innermost_readBare? h, unwrapped_dropLast hlast rfl]
    · exact innermost_readBare? h
termination_by 2 * cs.length + 1

theorem innermost_readBare? {cs : List Char} {t : TypeText} (h : readBare? cs = some t) :
    t.innermost = String.ofList (unwrapped cs) := by
  rw [readBare?] at h
  split at h
  · rename_i inner htrim
    have := length_lt_of_trim htrim
    split at h
    · rename_i hlast
      obtain ⟨t', ht', rfl⟩ := Option.map_eq_some_iff.1 h
      have hopen : unwrapped ('[' :: inner) = unwrapped inner := rfl
      rw [innermost, innermost_readChars? ht', unwrapped_dropLast hlast rfl, ← unwrapped_trim cs,
        htrim, hopen]
    · cases h
  · split at h
    · rename_i hname
      cases h
      rw [innermost, ← unwrapped_trim cs, unwrapped_of_isName hname]
    · cases h
termination_by 2 * cs.length

end

/-- A type that can be read is read with what is left of its text. -/
theorem innermost_eq {text : String} {t : TypeText} (h : read? text = some t) :
    t.innermost = bareName text := innermost_readChars? h

end TypeText

/-- The type is left out, or what it names is not among the names. -/
def NamesNoneOf (names : List String) (type : Option String) : Prop :=
  ∀ text, type = some text → TypeText.bareName text ∉ names

/-- Types that name the same, or nothing among the names. -/
inductive SameType (names : List String) : Option String → Option String → Prop
  | named {text text' : String} : TypeText.bareName text = TypeText.bareName text' →
      SameType names (some text) (some text')
  | unnamed {type type' : Option String} : NamesNoneOf names type → NamesNoneOf names type' →
      SameType names type type'

/-- Catalogs that are equal but for the types of their fields, corresponding types naming the same. -/
structure Catalog.SameButTypes (c c' : Catalog) : Prop where
  space : c'.layout.space = c.layout.space
  root : c'.layout.root = c.layout.root
  shapes : SameShapes (SameType c.names) c.layout.shapes c'.layout.shapes

/-! ## Types that were checked -/

def Readable (type : Option String) : Prop :=
  ∀ text, type = some text → ∃ t, TypeText.read? text = some t

namespace CatalogLayout

theorem readable_of_isNone {text : String} (h : ¬ (TypeText.read? text).isNone = true) :
    Readable (some text) := by
  rintro _ ⟨⟩
  exact Option.ne_none_iff_exists'.1 fun hnone => h (Option.isNone_iff_eq_none.2 hnone)

theorem readable_none : Readable none := by
  intro text h
  cases h

/-- What checked fields are known by may use that their types can be read. -/
theorem sameFields_of_checked {same same' : Option String → Option String → Prop}
    (himp : ∀ type type', Readable type → Readable type' → same type type' → same' type type')
    {fields fields' : List FieldLayout} (h : SameFields same fields fields') {shape shape' : String}
    (hc : checkFields shape fields = .ok ()) (hc' : checkFields shape' fields' = .ok ()) :
    SameFields same' fields fields' := by
  induction h generalizing shape shape' with
  | nil => exact .nil
  | @plain name tag type type' embedded fields fields' htype _ ih =>
    have hread : ∀ {shape : String} {type : Option String} {fields : List FieldLayout},
        checkFields shape (⟨name, tag, type, embedded, none⟩ :: fields) = .ok () →
        Readable type ∧ checkFields shape fields = .ok () := by
      intro shape type fields hc
      cases type with
      | none =>
        rw [checkFields] at hc
        exact ⟨readable_none, hc⟩
      | some text =>
        rw [checkFields] at hc
        split at hc
        · cases hc
        · rename_i hr
          exact ⟨readable_of_isNone hr, hc⟩
    obtain ⟨hr, hc⟩ := hread hc
    obtain ⟨hr', hc'⟩ := hread hc'
    exact .plain (himp _ _ hr hr' htype) (ih hc hc')
  | @spelled name tag type type' embedded inner inner' fields fields' htype _ _ ihin ih =>
    -- a field with a shape of its own has no type
    have hsplit : ∀ {shape : String} {type : Option String} {inner fields : List FieldLayout},
        checkFields shape (⟨name, tag, type, embedded, some inner⟩ :: fields) = .ok () →
        type = none ∧ checkFields (shape ++ "." ++ name) inner = .ok () ∧
          checkFields shape fields = .ok () := by
      intro shape type inner fields hc
      cases type with
      | some text =>
        rw [checkFields] at hc
        cases hc
      | none =>
        rw [checkFields] at hc
        cases hin : checkFields (shape ++ "." ++ name) inner with
        | error e =>
          rw [hin] at hc
          cases hc
        | ok u =>
          rw [hin] at hc
          exact ⟨rfl, rfl, hc⟩
    obtain ⟨rfl, hin, hc⟩ := hsplit hc
    obtain ⟨rfl, hin', hc'⟩ := hsplit hc'
    exact .spelled (himp _ _ readable_none readable_none htype) (ihin hin hin') (ih hc hc')

theorem checkFields_of_forM {shapes : OrderedMap String ShapeLayout}
    (h : (shapes.forM fun (name, fields) => checkFields name fields) = .ok ()) :
    ∀ e ∈ shapes, checkFields e.1 e.2 = .ok () := by
  induction shapes with
  | nil => simp
  | cons e shapes ih =>
    have hcons : ((e :: shapes).forM fun (name, fields) => checkFields name fields) =
        (checkFields e.1 e.2).bind fun _ =>
          shapes.forM fun (name, fields) => checkFields name fields := rfl
    rw [hcons] at h
    cases he : checkFields e.1 e.2 with
    | error err =>
      rw [he] at h
      cases h
    | ok u =>
      rw [he] at h
      intro e' he'
      rcases List.mem_cons.1 he' with rfl | he'
      · exact he
      · exact ih h e' he'

theorem checkFields_of_check {c : CatalogLayout} (h : c.check = .ok ()) :
    ∀ e ∈ c.shapes, checkFields e.1 e.2 = .ok () := by
  rw [check] at h
  split at h
  · exact checkFields_of_forM h
  · cases h

theorem sameShapes_of_checked {same same' : Option String → Option String → Prop}
    (himp : ∀ type type', Readable type → Readable type' → same type type' → same' type type')
    {shapes shapes' : OrderedMap String ShapeLayout} (h : SameShapes same shapes shapes')
    (hc : ∀ e ∈ shapes, checkFields e.1 e.2 = .ok ())
    (hc' : ∀ e ∈ shapes', checkFields e.1 e.2 = .ok ()) : SameShapes same' shapes shapes' := by
  induction h with
  | nil => exact .nil
  | cons he _ ih =>
    refine .cons ⟨he.1, sameFields_of_checked himp he.2 (hc _ List.mem_cons_self)
      (hc' _ List.mem_cons_self)⟩ (ih ?_ ?_)
    · intro e h
      exact hc e (List.mem_cons_of_mem _ h)
    · intro e h
      exact hc' e (List.mem_cons_of_mem _ h)

/-! ## The places of types -/

theorem placeOf?_some (c : CatalogLayout) {text : String} (h : Readable (some text)) :
    c.placeOf? (some text) = if TypeText.bareName text ∈ OrderedMap.keys c.shapes then
      some ⟨TypeText.bareName text, []⟩ else none := by
  obtain ⟨t, ht⟩ := h text rfl
  rw [placeOf?, Option.bind_some, ht, Option.bind_some, shape?_typeRef_eq, TypeText.innermost_eq ht]

theorem placeOf?_unnamed (c : CatalogLayout) {type : Option String} (hr : Readable type)
    (hn : NamesNoneOf (OrderedMap.keys c.shapes) type) : c.placeOf? type = none := by
  cases type with
  | none => rfl
  | some text => rw [placeOf?_some c hr, if_neg (hn text rfl)]

theorem placeOf?_eq {c c' : CatalogLayout}
    (hkeys : OrderedMap.keys c'.shapes = OrderedMap.keys c.shapes) {type type' : Option String}
    (hr : Readable type) (hr' : Readable type') (h : SameType (OrderedMap.keys c.shapes) type type') :
    c.placeOf? type = c'.placeOf? type' := by
  cases h with
  | named hname => rw [placeOf?_some c hr, placeOf?_some c' hr', hname, hkeys]
  | unnamed hn hn' =>
    rw [placeOf?_unnamed c hr hn, placeOf?_unnamed c' hr' (by rwa [hkeys])]

end CatalogLayout

/-- Types are compared by their names only, and those that name no shape count as left out. -/
theorem type_spelling_irrelevant {c c' : Catalog} (h : c.SameButTypes c') (unit name : String) :
    c'.find name = c.find name ∧ ∀ root, c.find name = .ok root →
      c'.table.compile unit (some root) = c.table.compile unit (some root) := by
  have hkeys : OrderedMap.keys c'.layout.shapes = OrderedMap.keys c.layout.shapes :=
    h.shapes.keys_eq
  have hshapes := CatalogLayout.sameShapes_of_checked
    (fun _ _ hr hr' => CatalogLayout.placeOf?_eq hkeys hr hr') h.shapes
    (CatalogLayout.checkFields_of_check c.checked) (CatalogLayout.checkFields_of_check c'.checked)
  have hid : ∀ name, c'.layout.shapeId name = id (c.layout.shapeId name) := by
    intro name
    rw [id, CatalogLayout.shapeId, CatalogLayout.shapeId, h.space]
  have hren := CatalogLayout.renaming_table Function.injective_id (fun _ _ => rfl) hid hshapes
  refine ⟨?_, ?_⟩
  · have hcontains : OrderedMap.contains c'.layout.shapes name =
        OrderedMap.contains c.layout.shapes name := by
      rw [Bool.eq_iff_iff, OrderedMap.contains_iff_mem_keys, OrderedMap.contains_iff_mem_keys, hkeys]
    rw [Catalog.find, Catalog.find, hcontains]
  · intro root _
    have hextract : Graph.extract c'.table root = Graph.extract c.table root := by
      rw [← renamedResult_id (Graph.extract c.table root)]
      exact Graph.extract_renamed hren rfl
    rw [ShapeTable.compile_eq_bind, ShapeTable.compile_eq_bind, hextract]

/-- The catalog of the library with its types spelled out in another way. -/
def respelledCatalog : Catalog where
  layout :=
    { space := "lib", root := "Query",
      shapes :=
        [("Query", [⟨"books", none, some " [ [Book ?]! ]", false, none⟩,
          ⟨"page", none, none, false, some [⟨"size", none, some "[Int!]", false, none⟩,
            ⟨"next", none, none, false, some [⟨"book", none, some "[Book]!", false, none⟩]⟩]⟩]),
        ("Book", [⟨"title", none, some "String", false, none⟩,
          ⟨"page", none, none, false, some [⟨"number", none, some "Float?", false, none⟩]⟩])] }
  checked := by cbv

theorem sameButTypes_respelled : libraryCatalog.SameButTypes respelledCatalog := by
  have hnone : NamesNoneOf libraryCatalog.names none := by
    intro text h
    cases h
  have hscalar : ∀ text, TypeText.bareName text ∉ libraryCatalog.names →
      SameType libraryCatalog.names none (some text) := by
    intro text htext
    refine .unnamed hnone ?_
    rintro _ ⟨⟩
    exact htext
  refine ⟨rfl, rfl, .cons ⟨rfl, ?_⟩ (.cons ⟨rfl, ?_⟩ .nil)⟩
  · exact .plain (.named (by decide)) (.spelled (.unnamed hnone hnone)
      (.plain (hscalar _ (by decide)) (.spelled (.unnamed hnone hnone)
        (.plain (.named (by decide)) .nil) .nil)) .nil)
  · exact .plain (hscalar _ (by decide)) (.spelled (.unnamed hnone hnone)
      (.plain (hscalar _ (by decide)) .nil) .nil)

theorem type_spelling_irrelevant_respelled : libraryCatalog.SameButTypes respelledCatalog ∧
    libraryCatalog.find "Query" = .ok ⟨"Query", []⟩ ∧
    respelledCatalog.table.compile defaultIndent (some ⟨"Query", []⟩) =
      libraryCatalog.table.compile defaultIndent (some ⟨"Query", []⟩) := by
  have hfind : libraryCatalog.find "Query" = .ok ⟨"Query", []⟩ := by cbv
  exact ⟨sameButTypes_respelled, hfind,
    (type_spelling_irrelevant sameButTypes_respelled defaultIndent "Query").2 _ hfind⟩

end QueryShape
