import QueryShape.Catalog
import QueryShape.Proofs.OrderedMap

/-!
# The shapes of a catalog

`Descends` follows a path of positions from the fields of a named shape into the shapes inside them.
The table of a catalog has a shape at each place that can be reached so, and its id is made of the
names on the way (`CatalogLayout.find?_table`). Names without dots can be read back from such an id
(`CatalogLayout.idOf_inj`), and the names of types have none (`TypeText.notMem_innermost`).
-/

set_option autoImplicit false

namespace QueryShape

theorem OrderedMap.find?_append {κ α : Type} [DecidableEq κ] (m m' : OrderedMap κ α) (key : κ) :
    find? (m ++ m') key = (find? m key).or (find? m' key) := by
  induction m with
  | nil => rfl
  | cons e m ih =>
    simp only [List.cons_append, find?]
    split
    · rfl
    · exact ih

/-- The path leads from fields to the fields inside that it ends with. The names are those of the
fields on the way, and `ok` holds of all lists of fields but the last. -/
inductive Descends (ok : List FieldLayout → Prop) :
    List FieldLayout → List Nat → List String → List FieldLayout → Prop
  | nil {fields : List FieldLayout} : Descends ok fields [] [] fields
  | cons {fields inner last : List FieldLayout} {i : Nat} {f : FieldLayout} {path : List Nat}
      {names : List String} : ok fields → fields[i]? = some f → f.shape = some inner →
      Descends ok inner path names last → Descends ok fields (i :: path) (f.name :: names) last

theorem Descends.snoc {ok : List FieldLayout → Prop} {fields inner last : List FieldLayout}
    {path : List Nat} {names : List String} (h : Descends ok fields path names last)
    (hok : ok last) {i : Nat} {f : FieldLayout} (hf : last[i]? = some f) (hs : f.shape = some inner) :
    Descends ok fields (path ++ [i]) (names ++ [f.name]) inner := by
  induction h with
  | nil => exact .cons hok hf hs .nil
  | cons hok' hf' hs' _ ih => exact .cons hok' hf' hs' (ih hok hf)

/-- An id with names after it. -/
def dotted (id : String) (names : List String) : String :=
  names.foldl (fun id name => id ++ "." ++ name) id

namespace CatalogLayout

/-! ## Places in the table -/

/-- The entries for the field with number `i` of the shape at a place. -/
def fieldShapes (c : CatalogLayout) (place : ShapePlace) (id : String) (i : Nat) (f : FieldLayout) :
    List (ShapePlace × Shape ShapePlace) :=
  match f.shape with
  | some fields => (place.child i, c.shapeAt (place.child i) (id ++ "." ++ f.name) none fields) ::
      c.innerShapes (place.child i) (id ++ "." ++ f.name) 0 fields
  | none => []

theorem innerShapes_cons (c : CatalogLayout) (place : ShapePlace) (id : String) (i : Nat)
    (f : FieldLayout) (fs : List FieldLayout) : c.innerShapes place id i (f :: fs) =
      c.fieldShapes place id i f ++ c.innerShapes place id (i + 1) fs := by
  obtain ⟨name, tag, type, embedded, _ | fields⟩ := f <;>
    simp only [innerShapes, fieldShapes]

/-- The keys of the shapes inside the shape at a place extend the place. -/
theorem key_of_mem_innerShapes (c : CatalogLayout) (place : ShapePlace) (id : String) (i : Nat)
    (e : ShapePlace × Shape ShapePlace) :
    (fields : List FieldLayout) → e ∈ c.innerShapes place id i fields →
      ∃ n path, i ≤ n ∧ e.1 = ⟨place.name, place.path ++ n :: path⟩
  | [], h => by
    rw [innerShapes] at h
    cases h
  | ⟨name, tag, type, embedded, none⟩ :: rest, h => by
    simp only [innerShapes, List.nil_append] at h
    obtain ⟨n, path, hn, he⟩ := key_of_mem_innerShapes c place id (i + 1) e rest h
    exact ⟨n, path, Nat.le_of_succ_le hn, he⟩
  | ⟨name, tag, type, embedded, some inner⟩ :: rest, h => by
    simp only [innerShapes, List.cons_append, List.mem_cons, List.mem_append] at h
    rcases h with rfl | h | h
    · exact ⟨i, [], Nat.le_refl i, rfl⟩
    · obtain ⟨n, path, -, he⟩ := key_of_mem_innerShapes c (place.child i) _ 0 e inner h
      refine ⟨i, n :: path, Nat.le_refl i, ?_⟩
      rw [he, ShapePlace.child, List.append_assoc]
      rfl
    · obtain ⟨n, path, hn, he⟩ := key_of_mem_innerShapes c place id (i + 1) e rest h
      exact ⟨n, path, Nat.le_of_succ_le hn, he⟩

/-- Those for the field with number `i` extend the place by `i`. -/
theorem key_of_mem_fieldShapes (c : CatalogLayout) {place : ShapePlace} {id : String} {i : Nat}
    {f : FieldLayout} {e : ShapePlace × Shape ShapePlace} (h : e ∈ c.fieldShapes place id i f) :
    ∃ path, e.1 = ⟨place.name, place.path ++ i :: path⟩ := by
  unfold fieldShapes at h
  split at h
  · rename_i inner _
    rcases List.mem_cons.1 h with rfl | h
    · exact ⟨[], rfl⟩
    · obtain ⟨n, path, -, he⟩ := key_of_mem_innerShapes c (place.child i) _ 0 e inner h
      refine ⟨n :: path, ?_⟩
      rw [he, ShapePlace.child, List.append_assoc]
      rfl
  · cases h

theorem find?_fieldShapes_ne (c : CatalogLayout) {place : ShapePlace} {id : String} {i n : Nat}
    {f : FieldLayout} {path : List Nat} (h : i ≠ n) : OrderedMap.find? (c.fieldShapes place id i f)
      ⟨place.name, place.path ++ n :: path⟩ = none := by
  apply OrderedMap.find?_eq_none
  intro hm
  obtain ⟨e, he, hkey⟩ := List.mem_map.1 hm
  obtain ⟨path', hpath⟩ := c.key_of_mem_fieldShapes he
  rw [hpath] at hkey
  have := List.append_cancel_left (congrArg ShapePlace.path hkey)
  exact h (List.cons.inj this).1

/-- What stands inside a field is looked up among the entries for the field. -/
theorem find?_innerShapes (c : CatalogLayout) (place : ShapePlace) (id : String) (path : List Nat)
    {i j : Nat} {fields : List FieldLayout} {f : FieldLayout} (hf : fields[j]? = some f) :
    OrderedMap.find? (c.innerShapes place id i fields) ⟨place.name, place.path ++ (i + j) :: path⟩ =
      OrderedMap.find? (c.fieldShapes place id (i + j) f)
        ⟨place.name, place.path ++ (i + j) :: path⟩ := by
  induction fields generalizing i j with
  | nil => cases hf
  | cons f' fs ih =>
    rw [innerShapes_cons, OrderedMap.find?_append]
    cases j with
    | zero =>
      cases hf
      -- the later fields have greater numbers
      have hnone : OrderedMap.find? (c.innerShapes place id (i + 1) fs)
          ⟨place.name, place.path ++ (i + 0) :: path⟩ = none := by
        apply OrderedMap.find?_eq_none
        intro hm
        obtain ⟨e, he, hkey⟩ := List.mem_map.1 hm
        obtain ⟨n, path', hn, hpath⟩ := c.key_of_mem_innerShapes place id (i + 1) e fs he
        rw [hpath] at hkey
        have := (List.cons.inj (List.append_cancel_left (congrArg ShapePlace.path hkey))).1
        omega
      rw [hnone, Option.or_none]
      rfl
    | succ j =>
      rw [c.find?_fieldShapes_ne (by omega), Option.none_or]
      have := ih (i := i + 1) (j := j) hf
      rwa [show i + 1 + j = i + (j + 1) by omega] at this

theorem find?_innerShapes_of_descends (c : CatalogLayout) {ok : List FieldLayout → Prop}
    {fields last : List FieldLayout} {path : List Nat} {names : List String}
    (h : Descends ok fields path names last) (hne : path ≠ []) (place : ShapePlace) (id : String) :
    OrderedMap.find? (c.innerShapes place id 0 fields) ⟨place.name, place.path ++ path⟩ =
      some (c.shapeAt ⟨place.name, place.path ++ path⟩ (dotted id names) none last) := by
  induction h generalizing place id with
  | nil => exact absurd rfl hne
  | @cons fields inner last i f path names _ hf hs h ih =>
    have hat := c.find?_innerShapes place id path (i := 0) hf
    rw [Nat.zero_add] at hat
    rw [hat, fieldShapes, hs]
    cases h with
    | nil => exact if_pos rfl
    | @cons _ _ _ j f' path names hok hf' hs' h =>
      have hkey : place.child i ≠ ⟨place.name, place.path ++ i :: j :: path⟩ := by
        intro he
        have := congrArg List.length (congrArg ShapePlace.path he)
        simp [ShapePlace.child] at this
      have hin := ih (List.cons_ne_nil j path) (place.child i) (id ++ "." ++ f.name)
      rw [ShapePlace.child, List.append_assoc] at hin
      exact (if_neg hkey).trans hin

theorem name_of_mem_shapesOf (c : CatalogLayout) {name : String} {fields : ShapeLayout}
    {e : ShapePlace × Shape ShapePlace} (h : e ∈ c.shapesOf name fields) : e.1.name = name := by
  rcases List.mem_cons.1 h with rfl | h
  · rfl
  · obtain ⟨n, path, -, he⟩ := c.key_of_mem_innerShapes _ _ _ e fields h
    rw [he]

/-- A place is looked up among the entries for the first shape of its name. -/
theorem find?_flatMap_shapesOf (c : CatalogLayout) {shapes : OrderedMap String ShapeLayout}
    {fields : ShapeLayout} {place : ShapePlace} {s : Shape ShapePlace}
    (hf : OrderedMap.find? shapes place.name = some fields)
    (hs : OrderedMap.find? (c.shapesOf place.name fields) place = some s) :
    OrderedMap.find? (shapes.flatMap fun (name, fields) => c.shapesOf name fields) place = some s := by
  induction shapes with
  | nil => cases hf
  | cons e shapes ih =>
    obtain ⟨name, fields'⟩ := e
    rw [List.flatMap_cons, OrderedMap.find?_append]
    rw [OrderedMap.find?] at hf
    split at hf
    · rename_i hname
      cases hf
      rw [hname, hs, Option.some_or]
    · rename_i hname
      have hnone : OrderedMap.find? (c.shapesOf name fields') place = none := by
        apply OrderedMap.find?_eq_none
        intro hm
        obtain ⟨e, he, hkey⟩ := List.mem_map.1 hm
        rw [← hkey, c.name_of_mem_shapesOf he] at hname
        exact hname rfl
      rw [hnone, Option.none_or]
      exact ih hf

/-- The id of the shape that the names lead to, first the name of a shape and then those of fields. -/
def idOf (c : CatalogLayout) (names : List String) : String :=
  (if c.space.isEmpty then "" else c.space ++ ".") ++ ".".intercalate names

theorem intercalate_append_cons (x y : String) (names : List String) :
    ".".intercalate ((x ++ y) :: names) = x ++ ".".intercalate (y :: names) := by
  cases names with
  | nil => simp
  | cons name names => simp only [String.intercalate_cons_cons, String.append_assoc]

theorem dotted_eq (id : String) (names : List String) :
    dotted id names = ".".intercalate (id :: names) := by
  induction names generalizing id with
  | nil => simp [dotted]
  | cons name names ih =>
    have h := ih (id ++ "." ++ name)
    rw [intercalate_append_cons] at h
    rw [String.intercalate_cons_cons, ← h]
    rfl

theorem dotted_shapeId (c : CatalogLayout) (name : String) (names : List String) :
    dotted (c.shapeId name) names = c.idOf (name :: names) := by
  rw [dotted_eq, shapeId, idOf]
  split
  · rw [String.empty_append]
  · rw [intercalate_append_cons]

/-- The table has a shape at each place inside a named shape. -/
theorem find?_table (c : CatalogLayout) {ok : List FieldLayout → Prop} {place : ShapePlace}
    {fields last : List FieldLayout} {names : List String}
    (hf : OrderedMap.find? c.shapes place.name = some fields)
    (h : Descends ok fields place.path names last) :
    c.table.find? place = some (c.shapeAt place (c.idOf (place.name :: names))
      (if place.path = [] then some place.name else none) last) := by
  refine c.find?_flatMap_shapesOf hf ?_
  obtain ⟨name, path⟩ := place
  rw [← dotted_shapeId]
  dsimp only at h ⊢
  cases path with
  | nil =>
    cases h
    exact if_pos rfl
  | cons i path =>
    have hne : (⟨name, []⟩ : ShapePlace) ≠ ⟨name, i :: path⟩ := by simp
    rw [shapesOf, OrderedMap.find?, if_neg hne, if_neg (List.cons_ne_nil i path)]
    exact c.find?_innerShapes_of_descends h (List.cons_ne_nil i path) ⟨name, []⟩ _

/-! ## Ids and names -/

/-- Names without dots can be told from the id. -/
theorem idOf_inj (c : CatalogLayout) {names names' : List String} (hne : names ≠ [])
    (hne' : names' ≠ []) (hdot : ∀ name ∈ names, '.' ∉ name.toList)
    (hdot' : ∀ name ∈ names', '.' ∉ name.toList) (h : c.idOf names = c.idOf names') :
    names = names' := by
  have hjoined : ['.'].intercalate (names.map String.toList) =
      ['.'].intercalate (names'.map String.toList) := by
    have htext := congrArg String.toList ((String.append_right_inj _).1 h)
    rwa [String.toList_intercalate, String.toList_intercalate] at htext
  -- splitting at the dots gives the names back
  have hsplit : ∀ ns : List String, ns ≠ [] → (∀ name ∈ ns, '.' ∉ name.toList) →
      List.splitOn '.' (['.'].intercalate (ns.map String.toList)) = ns.map String.toList := by
    intro ns hns hdot
    refine List.splitOn_intercalate '.' ?_ ?_
    · intro l hl
      obtain ⟨name, hname, rfl⟩ := List.mem_map.1 hl
      exact hdot name hname
    · intro hnil
      exact hns (List.map_eq_nil_iff.1 hnil)
  have htexts := hsplit names hne hdot
  rw [hjoined, hsplit names' hne' hdot'] at htexts
  exact (List.map_injective_iff.2 fun _ _ => String.toList_inj.1) htexts.symm

end CatalogLayout

namespace TypeText

open Text

theorem notMem_of_isName {cs : List Char} (h : isName cs = true) : '.' ∉ cs := by
  cases cs with
  | nil => cases h
  | cons c cs =>
    simp only [isName, Bool.and_eq_true, List.all_eq_true] at h
    intro hm
    have hdot : isNameChar '.' = true := by
      rcases List.mem_cons.1 hm with rfl | hm
      · exact isNameChar_of_isNameStart h.1
      · exact h.2 _ hm
    exact absurd hdot (by decide)

mutual

theorem notMem_readChars? {cs : List Char} {t : TypeText} (h : readChars? cs = some t) :
    '.' ∉ t.innermost.toList := by
  have := length_trim_le cs
  rw [readChars?] at h
  split at h
  · obtain ⟨t', ht', rfl⟩ := Option.map_eq_some_iff.1 h
    rw [innermost]
    exact notMem_readBare? ht'
  · split at h
    · exact notMem_readBare? h
    · exact notMem_readBare? h
termination_by 2 * cs.length + 1

theorem notMem_readBare? {cs : List Char} {t : TypeText} (h : readBare? cs = some t) :
    '.' ∉ t.innermost.toList := by
  rw [readBare?] at h
  split at h
  · rename_i inner htrim
    have := length_lt_of_trim htrim
    split at h
    · obtain ⟨t', ht', rfl⟩ := Option.map_eq_some_iff.1 h
      rw [innermost]
      exact notMem_readChars? ht'
    · cases h
  · split at h
    · rename_i hname
      cases h
      rw [innermost, String.toList_ofList]
      exact notMem_of_isName hname
    · cases h
termination_by 2 * cs.length

end

theorem notMem_innermost {text : String} {t : TypeText} (h : read? text = some t) :
    '.' ∉ t.innermost.toList := notMem_readChars? h

end TypeText

end QueryShape
