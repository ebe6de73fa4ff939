import Mathlib
import QueryShape.Catalog.Format
import QueryShape.Proofs.JsonRoundTrip
import QueryShape.Proofs.OrderedMap

/-!
# Writing a layout and reading it again

A layout is read back from its text if there is room for its depth (`decode?_toJson` for fields and for
catalogs), and whatever a text says, the layout that is read from it can be written in the same room
(`fits_of_decode?`): `layout_round_trip`.

The second part is not plain. Where the fields of a shape are left out, the written form has an array
that the text need not have. But the levels go round in three, a field, its shape and the array in that,
and the limit is one more than a multiple of three. So where there is room for a shape, there is room for
its array: `Phase` says at which of the three the levels that are left come to an end.
-/

set_option autoImplicit false

namespace QueryShape

namespace Json

mutual

/-- How many objects and arrays stand inside each other. -/
def depth : Json → Nat
  | null => 0
  | bool _ => 0
  | number _ => 0
  | string _ => 0
  | array items => depthOfItems items + 1
  | object fields => depthOfFields fields + 1
  | unreadable => 0

def depthOfItems : List Json → Nat
  | [] => 0
  | j :: js => max (depth j) (depthOfItems js)

def depthOfFields : List (String × Json) → Nat
  | [] => 0
  | (_, j) :: fs => max (depth j) (depthOfFields fs)

end

theorem depthOfFields_append (fs fs' : List (String × Json)) :
    depthOfFields (fs ++ fs') = max (depthOfFields fs) (depthOfFields fs') := by
  induction fs with
  | nil => simp [depthOfFields]
  | cons f fs ih => simp only [List.cons_append, depthOfFields, ih, Nat.max_assoc]

theorem depthOfFields_optional (name : String) (s : Option String) :
    depthOfFields (Json.optional name (s.map string)) = 0 := by
  cases s <;> rfl

end Json

namespace Leniency

variable {l l' : Leniency} {d r : Nat}

/-- There is room for `d` objects and arrays inside each other. -/
def Fits (l : Leniency) (d : Nat) : Prop := ∀ n, l.depth = some n → d ≤ n

/-- The number of levels that are left is `r` but for a multiple of three. -/
def Phase (l : Leniency) (r : Nat) : Prop := ∀ n, l.depth = some n → n % 3 = r

theorem Fits.mono {d' : Nat} (h : l.Fits d) (hd : d' ≤ d) : l.Fits d' :=
  fun n hn => Nat.le_trans hd (h n hn)

theorem fits_max {d' : Nat} : l.Fits (max d d') ↔ l.Fits d ∧ l.Fits d' := by
  constructor
  · exact fun h => ⟨h.mono (Nat.le_max_left _ _), h.mono (Nat.le_max_right _ _)⟩
  · exact fun h n hn => Nat.max_le.2 ⟨h.1 n hn, h.2 n hn⟩

theorem fits_zero (l : Leniency) : l.Fits 0 := fun _ _ => Nat.zero_le _

theorem Phase.fits (h : l.Phase r) : l.Fits r := fun n hn => h n hn ▸ Nat.mod_le n 3

theorem depth_of_enter? (h : l.enter? = some l') : l.depth = l'.depth.map (· + 1) := by
  obtain ⟨_ | _ | n, b⟩ := l <;> cases h <;> rfl

/-- An object or array takes one level. -/
theorem fits_of_enter? (h : l.enter? = some l') : l'.Fits d ↔ l.Fits (d + 1) := by
  simp only [Fits, depth_of_enter? h, Option.map_eq_some_iff]
  constructor
  · rintro hd _ ⟨n, hn, rfl⟩
    exact Nat.succ_le_succ (hd n hn)
  · exact fun hd n hn => Nat.le_of_succ_le_succ (hd (n + 1) ⟨n, hn, rfl⟩)

theorem Phase.enter? (hp : l.Phase r) (h : l.enter? = some l') : l'.Phase ((r + 2) % 3) := by
  intro n hn
  have := hp (n + 1) (by rw [depth_of_enter? h, hn]; rfl)
  omega

theorem Fits.enter? (h : l.Fits (d + 1)) : ∃ l', l.enter? = some l' ∧ l'.Fits d := by
  cases he : l.enter? with
  | some l' => exact ⟨l', rfl, (fits_of_enter? he).2 h⟩
  | none =>
    obtain ⟨_ | _ | n, b⟩ := l
    · cases he
    · exact absurd (h 0 rfl) (by omega)
    · cases he

end Leniency

/-! ## Reading what is written -/

theorem ShapeLayout.depth_toJson (fields : ShapeLayout) :
    (ShapeLayout.toJson fields).depth = Json.depthOfItems (FieldLayout.listToJson fields) + 2 := by
  simp [ShapeLayout.toJson, Json.depth, Json.depthOfFields]

/-- A shape is written in an object and an array. -/
theorem ShapeLayout.decodeOptional?_toJson {l l₁ l₂ : Leniency} (h₁ : l.enter? = some l₁)
    (h₂ : l₁.enter? = some l₂) (fields : ShapeLayout) :
    ShapeLayout.decodeOptional? l (ShapeLayout.toJson fields) =
      (ShapeLayout.fieldList? l₂ (FieldLayout.listToJson fields)).map some := by
  simp only [ShapeLayout.toJson, ShapeLayout.decodeOptional?, ShapeLayout.fromEntries?,
    ShapeLayout.fields?, h₁, h₂, Option.bind_eq_bind, Option.bind_some, if_pos]
  cases ShapeLayout.fieldList? l₂ (FieldLayout.listToJson fields) <;> rfl

namespace FieldLayout

theorem shapeToJson_some (fields : ShapeLayout) :
    shapeToJson (some fields) = [("shape", ShapeLayout.toJson fields)] := rfl

theorem depth_shapeToJson (fields : ShapeLayout) :
    Json.depthOfFields (shapeToJson (some fields)) = (ShapeLayout.toJson fields).depth :=
  Nat.max_zero _

theorem depth_toJson (f : FieldLayout) :
    f.toJson.depth = Json.depthOfFields (shapeToJson f.shape) + 1 := by
  obtain ⟨name, tag, type, embedded, shape⟩ := f
  simp only [toJson, Json.depth, Json.depthOfFields_append, Json.depthOfFields_optional,
    Json.depthOfFields, Nat.max_self, Nat.zero_max]

/-- The values that come before the shape. -/
theorem fromEntries?_plain (l : Leniency) (name : String) (tag type : Option String) (embedded : Bool)
    (rest : List (String × Json)) :
    fromEntries? l {} ([("name", .string name)] ++ Json.optional "tag" (tag.map .string) ++
        Json.optional "type" (type.map .string) ++ [("embedded", .bool embedded)] ++ rest) =
      fromEntries? l ⟨some name, tag.map some, type.map some, some embedded, none⟩ rest := by
  cases tag <;> cases type <;>
    simp [fromEntries?, Draft.put?, assign?, Json.optional, Json.string?, Json.optionalString?,
      Json.bool?]

end FieldLayout

mutual

/-- A field is read back, if its written form fits. -/
theorem FieldLayout.decode?_toJson : (f : FieldLayout) → ∀ {l : Leniency}, l.Fits f.toJson.depth →
    FieldLayout.decode? l f.toJson = some f
  | ⟨name, tag, type, embedded, shape⟩, l, h => by
    rw [FieldLayout.depth_toJson] at h
    obtain ⟨l', hl, h⟩ := h.enter?
    rw [FieldLayout.toJson, FieldLayout.decode?, hl, Option.bind_eq_bind, Option.bind_some,
      FieldLayout.fromEntries?_plain, FieldLayout.fromEntries?_shapeToJson shape h rfl]
    cases tag <;> cases type <;> cases shape <;> rfl

theorem FieldLayout.fromEntries?_shapeToJson : (shape : Option (List FieldLayout)) →
    ∀ {l : Leniency} {d : FieldLayout.Draft},
      l.Fits (Json.depthOfFields (FieldLayout.shapeToJson shape)) → d.shape = none →
      FieldLayout.fromEntries? l d (FieldLayout.shapeToJson shape) =
        some { d with shape := shape.map some }
  | none, l, d, _, hd => by
    rw [FieldLayout.shapeToJson, FieldLayout.fromEntries?, Option.map_none, ← hd]
  | some fields, l, d, h, hd => by
    rw [FieldLayout.depth_shapeToJson, ShapeLayout.depth_toJson] at h
    obtain ⟨l₁, h₁, h⟩ := h.enter?
    obtain ⟨l₂, h₂, h⟩ := h.enter?
    rw [FieldLayout.shapeToJson_some, FieldLayout.fromEntries?, if_pos rfl,
      ShapeLayout.decodeOptional?_toJson h₁ h₂, ShapeLayout.fieldList?_listToJson fields h, hd]
    rfl

theorem ShapeLayout.fieldList?_listToJson : (fs : List FieldLayout) → ∀ {l : Leniency},
    l.Fits (Json.depthOfItems (FieldLayout.listToJson fs)) →
      ShapeLayout.fieldList? l (FieldLayout.listToJson fs) = some fs
  | [], _, _ => rfl
  | f :: fs, l, h => by
    rw [FieldLayout.listToJson, Json.depthOfItems, Leniency.fits_max] at h
    rw [FieldLayout.listToJson, ShapeLayout.fieldList?, FieldLayout.decode?_toJson f h.1,
      ShapeLayout.fieldList?_listToJson fs h.2]
    rfl

end

/-! ## Writing what is read -/

theorem assign?_eq_some {α : Type} {old new out : Option α} (h : assign? old new = some out) :
    ∃ a, out = some a ∧ new = some a := by
  unfold assign? at h
  split at h
  · cases h
    exact ⟨_, rfl, rfl⟩
  · cases h

namespace FieldLayout.Draft

/-- The shape that has been read so far fits, when it is written. -/
def Fits (d : Draft) (l : Leniency) : Prop :=
  l.Fits (Json.depthOfFields (shapeToJson (d.shape.getD none)))

theorem fits_empty (l : Leniency) : Fits {} l := l.fits_zero

theorem shape_of_put? {d d' : Draft} {key : String} {j : Json} (h : d.put? key j = some d') :
    d'.shape = d.shape := by
  unfold put? at h
  split_ifs at h
  iterate 4
    obtain ⟨_, _, rfl⟩ := Option.map_eq_some_iff.1 h
    rfl
  cases h
  rfl

theorem Fits.put? {d d' : Draft} {l : Leniency} {key : String} {j : Json} (hd : d.Fits l)
    (h : d.put? key j = some d') : d'.Fits l := by
  rwa [Fits, shape_of_put? h]

theorem Fits.finish? {d : Draft} {l l' : Leniency} {f : FieldLayout} (hd : d.Fits l')
    (hl : l.enter? = some l') (h : d.finish? = some f) : l.Fits f.toJson.depth := by
  obtain ⟨name, _, rfl⟩ := Option.map_eq_some_iff.1 h
  rw [depth_toJson]
  exact (Leniency.fits_of_enter? hl).1 hd

end FieldLayout.Draft

mutual

theorem FieldLayout.fits_of_decode? : (j : Json) → ∀ {l : Leniency} {f : FieldLayout}, l.Phase 0 →
    FieldLayout.decode? l j = some f → l.Fits f.toJson.depth
  | .object entries, l, f, hp, h => by
    simp only [FieldLayout.decode?, Option.bind_eq_bind, Option.bind_eq_some_iff] at h
    obtain ⟨l', hl, d, hd, hf⟩ := h
    exact (FieldLayout.fits_of_fromEntries? entries (hp.enter? hl) (FieldLayout.Draft.fits_empty l')
      hd).finish? hl hf
  | .array items, l, f, hp, h => by
    simp only [FieldLayout.decode?, Option.bind_eq_bind, Option.bind_eq_some_iff] at h
    obtain ⟨l', hl, d, hd, hf⟩ := h
    exact (FieldLayout.fits_of_fromItems? items (hp.enter? hl) (FieldLayout.Draft.fits_empty l')
      hd).finish? hl hf
  | .null, _, _, _, h | .bool _, _, _, _, h | .number _, _, _, _, h | .string _, _, _, _, h
  | .unreadable, _, _, _, h => nomatch h

theorem FieldLayout.fits_of_fromEntries? : (entries : List (String × Json)) → ∀ {l : Leniency}
    {d d' : FieldLayout.Draft}, l.Phase 2 → d.Fits l →
      FieldLayout.fromEntries? l d entries = some d' → d'.Fits l
  | [], l, d, d', _, hd, h => by
    cases h
    exact hd
  | (key, j) :: rest, l, d, d', hp, hd, h => by
    rw [FieldLayout.fromEntries?] at h
    split at h
    · obtain ⟨d₁, hd₁, h⟩ := Option.bind_eq_some_iff.1 h
      obtain ⟨new, hn, rfl⟩ := Option.map_eq_some_iff.1 hd₁
      obtain ⟨shape, rfl, hs⟩ := assign?_eq_some hn
      refine FieldLayout.fits_of_fromEntries? rest hp ?_ h
      exact ShapeLayout.fits_of_decodeOptional? j hp hs
    · obtain ⟨d₁, hd₁, h⟩ := Option.bind_eq_some_iff.1 h
      exact FieldLayout.fits_of_fromEntries? rest hp (hd.put? hd₁) h

theorem FieldLayout.fits_of_fromItems? : (items : List Json) → ∀ {l : Leniency}
    {d d' : FieldLayout.Draft} {keys : List String}, l.Phase 2 → d.Fits l →
      FieldLayout.fromItems? l d keys items = some d' → d'.Fits l
  | [], l, d, d', keys, _, hd, h => by
    cases keys <;> cases h <;> exact hd
  | j :: rest, l, d, d', key :: keys, hp, hd, h => by
    simp only [FieldLayout.fromItems?, Option.bind_eq_bind, Option.bind_eq_some_iff] at h
    obtain ⟨d₁, hd₁, h⟩ := h
    exact FieldLayout.fits_of_fromItems? rest hp (hd.put? hd₁) h
  | j :: rest, l, d, d', [], hp, hd, h => by
    simp only [FieldLayout.fromItems?, Option.bind_eq_bind, Option.bind_eq_some_iff] at h
    obtain ⟨shape, hs, h⟩ := h
    split at h
    · cases h
      exact ShapeLayout.fits_of_decodeOptional? j hp hs
    · cases h

theorem ShapeLayout.fits_of_decodeOptional? : (j : Json) → ∀ {l : Leniency}
    {shape : Option (List FieldLayout)}, l.Phase 2 → ShapeLayout.decodeOptional? l j = some shape →
      l.Fits (Json.depthOfFields (FieldLayout.shapeToJson shape))
  | .null, l, shape, _, h => by
    cases h
    exact l.fits_zero
  | .object entries, l, shape, hp, h => by
    simp only [ShapeLayout.decodeOptional?, Option.bind_eq_bind, Option.bind_eq_some_iff,
      Option.map_eq_map, Option.map_eq_some_iff] at h
    obtain ⟨l', hl, fields, hf, rfl⟩ := h
    rw [FieldLayout.depth_shapeToJson, ShapeLayout.depth_toJson]
    refine (Leniency.fits_of_enter? hl).1 (ShapeLayout.fits_of_fromEntries? entries (hp.enter? hl) ?_ hf)
    -- The fields may be left out, and there is room for the empty array that is written for them.
    exact (hp.enter? hl).fits
  | .array items, l, shape, hp, h => by
    simp only [ShapeLayout.decodeOptional?, Option.bind_eq_bind, Option.bind_eq_some_iff,
      Option.map_eq_map, Option.map_eq_some_iff] at h
    obtain ⟨l', hl, fields, hf, rfl⟩ := h
    rw [FieldLayout.depth_shapeToJson, ShapeLayout.depth_toJson]
    exact (Leniency.fits_of_enter? hl).1 (ShapeLayout.fits_of_fromItems? items (hp.enter? hl) hf)
  | .bool _, _, _, _, h | .number _, _, _, _, h | .string _, _, _, _, h
  | .unreadable, _, _, _, h => nomatch h

theorem ShapeLayout.fits_of_fromEntries? : (entries : List (String × Json)) → ∀ {l : Leniency}
    {known : Option (List FieldLayout)} {fields : List FieldLayout}, l.Phase 1 →
      l.Fits (Json.depthOfItems (FieldLayout.listToJson (known.getD [])) + 1) →
      ShapeLayout.fromEntries? l known entries = some fields →
        l.Fits (Json.depthOfItems (FieldLayout.listToJson fields) + 1)
  | [], l, known, fields, _, hk, h => by
    cases h
    exact hk
  | (key, j) :: rest, l, known, fields, hp, hk, h => by
    rw [ShapeLayout.fromEntries?] at h
    split at h
    · obtain ⟨new, hn, h⟩ := Option.bind_eq_some_iff.1 h
      obtain ⟨fs, rfl, hf⟩ := assign?_eq_some hn
      refine ShapeLayout.fits_of_fromEntries? rest hp ?_ h
      exact ShapeLayout.fits_of_fields? j hp hf
    · exact ShapeLayout.fits_of_fromEntries? rest hp hk h

theorem ShapeLayout.fits_of_fromItems? : (items : List Json) → ∀ {l : Leniency}
    {fields : List FieldLayout}, l.Phase 1 → ShapeLayout.fromItems? l items = some fields →
      l.Fits (Json.depthOfItems (FieldLayout.listToJson fields) + 1)
  | [], l, fields, hp, h => by
    cases h
    -- Room for an empty array, as above.
    exact hp.fits
  | j :: rest, l, fields, hp, h => by
    simp only [ShapeLayout.fromItems?, Option.bind_eq_bind, Option.bind_eq_some_iff] at h
    obtain ⟨fs, hfs, h⟩ := h
    split at h
    · cases h
      exact ShapeLayout.fits_of_fields? j hp hfs
    · cases h

theorem ShapeLayout.fits_of_fields? : (j : Json) → ∀ {l : Leniency} {fields : List FieldLayout},
    l.Phase 1 → ShapeLayout.fields? l j = some fields →
      l.Fits (Json.depthOfItems (FieldLayout.listToJson fields) + 1)
  | .array items, l, fields, hp, h => by
    simp only [ShapeLayout.fields?, Option.bind_eq_bind, Option.bind_eq_some_iff] at h
    obtain ⟨l', hl, h⟩ := h
    exact (Leniency.fits_of_enter? hl).1 (ShapeLayout.fits_of_fieldList? items (hp.enter? hl) h)
  | .null, _, _, _, h | .bool _, _, _, _, h | .number _, _, _, _, h | .string _, _, _, _, h
  | .object _, _, _, _, h | .unreadable, _, _, _, h => nomatch h

theorem ShapeLayout.fits_of_fieldList? : (js : List Json) → ∀ {l : Leniency}
    {fields : List FieldLayout}, l.Phase 0 → ShapeLayout.fieldList? l js = some fields →
      l.Fits (Json.depthOfItems (FieldLayout.listToJson fields))
  | [], l, fields, _, h => by
    cases h
    exact l.fits_zero
  | j :: js, l, fields, hp, h => by
    simp only [ShapeLayout.fieldList?, Option.bind_eq_bind, Option.bind_eq_some_iff] at h
    obtain ⟨f, hf, fs, hfs, h⟩ := h
    cases h
    rw [FieldLayout.listToJson, Json.depthOfItems, Leniency.fits_max]
    exact ⟨FieldLayout.fits_of_decode? j hp hf, ShapeLayout.fits_of_fieldList? js hp hfs⟩

end

/-! ## Named shapes -/

/-- A shape is read back, if its written form fits. -/
theorem ShapeLayout.decode?_toJson {l : Leniency} {fields : ShapeLayout}
    (h : l.Fits (ShapeLayout.toJson fields).depth) :
    ShapeLayout.decode? l (ShapeLayout.toJson fields) = some fields := by
  rw [ShapeLayout.depth_toJson] at h
  obtain ⟨l₁, h₁, h⟩ := h.enter?
  obtain ⟨l₂, h₂, h⟩ := h.enter?
  rw [ShapeLayout.decode?, ShapeLayout.decodeOptional?_toJson h₁ h₂,
    ShapeLayout.fieldList?_listToJson fields h]
  rfl

theorem ShapeLayout.fits_of_decode? {l : Leniency} {j : Json} {fields : ShapeLayout} (hp : l.Phase 2)
    (h : ShapeLayout.decode? l j = some fields) : l.Fits (ShapeLayout.toJson fields).depth := by
  obtain ⟨_, hs, rfl⟩ := Option.bind_eq_some_iff.1 h
  rw [← FieldLayout.depth_shapeToJson]
  exact ShapeLayout.fits_of_decodeOptional? j hp hs

namespace CatalogLayout

variable {l l' : Leniency} {c : CatalogLayout} {shapes : OrderedMap String ShapeLayout}

/-- The written forms of named shapes. -/
def shapesToJson (shapes : OrderedMap String ShapeLayout) : List (String × Json) :=
  shapes.map fun e => (e.1, ShapeLayout.toJson e.2)

theorem fits_shapesToJson : l.Fits (Json.depthOfFields (shapesToJson shapes)) ↔
    ∀ e ∈ shapes, l.Fits (ShapeLayout.toJson e.2).depth := by
  induction shapes with
  | nil => exact ⟨fun _ _ he => absurd he List.not_mem_nil, fun _ => l.fits_zero⟩
  | cons e shapes ih =>
    rw [List.forall_mem_cons, ← ih, ← Leniency.fits_max]
    rfl

/-- A shape with its name. -/
def namedShape? (l : Leniency) (e : String × Json) : Option (String × ShapeLayout) :=
  (ShapeLayout.decode? l e.2).map (e.1, ·)

theorem decodeShapes?_object (hl : l.enter? = some l') (entries : List (String × Json)) :
    decodeShapes? l (.object entries) = (entries.mapM (namedShape? l')).map OrderedMap.ofList := by
  rw [decodeShapes?, hl, Option.bind_eq_bind, Option.bind_some, Option.bind_eq_bind]
  exact (Option.map_eq_bind ..).symm

theorem mapM_shapesToJson (h : l.Fits (Json.depthOfFields (shapesToJson shapes))) :
    (shapesToJson shapes).mapM (namedShape? l) = some shapes := by
  rw [fits_shapesToJson] at h
  induction shapes with
  | nil => rfl
  | cons e shapes ih =>
    obtain ⟨he, h⟩ := List.forall_mem_cons.1 h
    have hhead : namedShape? l (e.1, ShapeLayout.toJson e.2) = some e := by
      rw [namedShape?, ShapeLayout.decode?_toJson he]
      rfl
    rw [shapesToJson] at ih
    rw [shapesToJson, List.map_cons, List.mapM_cons, hhead, ih h]
    rfl

theorem decode?_of_mem_mapM {entries : List (String × Json)} {es : List (String × ShapeLayout)}
    (h : entries.mapM (namedShape? l) = some es) :
    ∀ e ∈ es, ∃ j, ShapeLayout.decode? l j = some e.2 := by
  induction entries generalizing es with
  | nil =>
    cases h
    exact fun _ he => absurd he List.not_mem_nil
  | cons entry entries ih =>
    simp only [List.mapM_cons, Option.bind_eq_bind, Option.bind_eq_some_iff] at h
    obtain ⟨e, he, es, hes, h⟩ := h
    cases h
    obtain ⟨fields, hf, rfl⟩ := Option.map_eq_some_iff.1 he
    exact List.forall_mem_cons.2 ⟨⟨entry.2, hf⟩, ih hes⟩

/-- Named shapes have different names, and there is room for writing them. -/
structure Sound (l : Leniency) (shapes : OrderedMap String ShapeLayout) : Prop where
  nodup : (OrderedMap.keys shapes).Nodup
  fits : l.Fits (Json.depthOfFields (shapesToJson shapes) + 1)

theorem sound_of_decodeShapes? {j : Json} (hp : l.Phase 0) (h : decodeShapes? l j = some shapes) :
    Sound l shapes := by
  cases j with
  | object entries =>
    cases hl : l.enter? with
    | none => simp [decodeShapes?, hl] at h
    | some l' =>
      rw [decodeShapes?_object hl, Option.map_eq_some_iff] at h
      obtain ⟨es, hes, rfl⟩ := h
      refine ⟨?_, (Leniency.fits_of_enter? hl).1 (fits_shapesToJson.2 fun e he => ?_)⟩
      · rw [OrderedMap.keys_ofList]
        exact nodup_eraseDups _
      · obtain ⟨j, hj⟩ := decode?_of_mem_mapM hes e (OrderedMap.mem_of_mem_ofList he)
        exact ShapeLayout.fits_of_decode? (hp.enter? hl) hj
  | _ => cases h

/-! ## Catalogs -/

theorem toJson_eq (c : CatalogLayout) :
    c.toJson = .object [("namespace", .string c.space), ("root", .string c.root),
      ("shapes", .object (shapesToJson c.shapes))] := rfl

theorem depth_toJson (c : CatalogLayout) :
    c.toJson.depth = Json.depthOfFields (shapesToJson c.shapes) + 2 := by
  simp [toJson_eq, Json.depth, Json.depthOfFields]

/-- A catalog is read back, if its written form fits; shapes with one name become one. -/
theorem decode?_toJson (h : l.Fits c.toJson.depth) :
    decode? l c.toJson = some { c with shapes := OrderedMap.ofList c.shapes } := by
  rw [depth_toJson] at h
  obtain ⟨l₁, h₁, h⟩ := h.enter?
  obtain ⟨l₂, h₂, h⟩ := h.enter?
  have hshapes : decodeShapes? l₁ (.object (shapesToJson c.shapes)) =
      some (OrderedMap.ofList c.shapes) := by
    rw [decodeShapes?_object h₂, mapM_shapesToJson h, Option.map_some]
  simp [toJson_eq, decode?, h₁, Draft.put?, assign?, Json.string?, hshapes, Draft.finish?]

/-- The shapes that have been read so far are sound. -/
def Draft.Sound (l : Leniency) (d : Draft) : Prop :=
  ∀ shapes, d.shapes = some shapes → CatalogLayout.Sound l shapes

theorem Draft.Sound.put? {d d' : Draft} {key : String} {j : Json} (hp : l.Phase 0) (hd : d.Sound l)
    (h : d.put? l key j = some d') : d'.Sound l := by
  unfold Draft.put? at h
  split_ifs at h
  · obtain ⟨_, _, rfl⟩ := Option.map_eq_some_iff.1 h
    exact hd
  · obtain ⟨_, _, rfl⟩ := Option.map_eq_some_iff.1 h
    exact hd
  · obtain ⟨_, hnew, rfl⟩ := Option.map_eq_some_iff.1 h
    obtain ⟨shapes, rfl, hs⟩ := assign?_eq_some hnew
    rintro _ ⟨⟩
    exact sound_of_decodeShapes? hp hs
  · cases h
    exact hd

theorem Draft.Sound.foldlM {d d' : Draft} (hp : l.Phase 0) (hd : d.Sound l)
    (entries : List (String × Json))
    (h : entries.foldlM (fun d e => d.put? l e.1 e.2) d = some d') : d'.Sound l := by
  induction entries generalizing d with
  | nil =>
    cases h
    exact hd
  | cons e entries ih =>
    rw [List.foldlM_cons, Option.bind_eq_bind, Option.bind_eq_some_iff] at h
    obtain ⟨d₁, hd₁, h⟩ := h
    exact ih (hd.put? hp hd₁) h

theorem Draft.Sound.finish? {d : Draft} (hfits : l.Fits 1) (hd : d.Sound l)
    (h : d.finish? = some c) : CatalogLayout.Sound l c.shapes := by
  obtain ⟨root, _, rfl⟩ := Option.map_eq_some_iff.1 h
  cases hs : d.shapes with
  | none => exact ⟨List.nodup_nil, hfits⟩
  | some shapes => exact hd shapes hs

/-- What is read of a catalog can be written: in its place there is room for the object and the array
around fields, even where they were left out. -/
theorem fits_of_decode? {j : Json} (hp : l.Phase 1) (hfits : l.Fits 2) (h : decode? l j = some c) :
    (OrderedMap.keys c.shapes).Nodup ∧ l.Fits c.toJson.depth := by
  have hsound : ∃ l', l.enter? = some l' ∧ CatalogLayout.Sound l' c.shapes := by
    obtain ⟨l', hl, hfits⟩ := hfits.enter?
    have hp' : l'.Phase 0 := hp.enter? hl
    have hstart : ({} : Draft).Sound l' := nofun
    cases j with
    | object entries =>
      rw [decode?, hl, Option.bind_eq_bind, Option.bind_some, Option.bind_eq_bind] at h
      obtain ⟨d, hd, h⟩ := Option.bind_eq_some_iff.1 h
      exact ⟨l', hl, (hstart.foldlM hp' entries hd).finish? hfits h⟩
    | array items =>
      rw [decode?, hl, Option.bind_eq_bind, Option.bind_some] at h
      split at h
      · obtain ⟨d, hd, h⟩ := Option.bind_eq_some_iff.1 h
        exact ⟨l', hl, (hstart.foldlM hp' (fieldNames.zip items) hd).finish? hfits h⟩
      · cases h
    | _ => cases h
  obtain ⟨l', hl, hs⟩ := hsound
  rw [depth_toJson]
  exact ⟨hs.nodup, (Leniency.fits_of_enter? hl).1 hs.fits⟩

end CatalogLayout

/-! ## Texts -/

theorem Json.havePlain_append (fs fs' : List (String × Json)) :
    havePlain (fs ++ fs') = (havePlain fs && havePlain fs') := by
  induction fs with
  | nil => rfl
  | cons f fs ih => simp only [List.cons_append, havePlain, ih, Bool.and_assoc]

theorem Json.havePlain_optional (name : String) (s : Option String) :
    havePlain (Json.optional name (s.map string)) = true := by
  cases s <;> rfl

mutual

theorem FieldLayout.isPlain_toJson : (f : FieldLayout) → f.toJson.isPlain = true
  | ⟨name, tag, type, embedded, shape⟩ => by
    simp only [FieldLayout.toJson, Json.isPlain, Json.havePlain_append, Json.havePlain_optional,
      FieldLayout.havePlain_shapeToJson shape, Json.havePlain, Bool.and_self]

theorem FieldLayout.havePlain_shapeToJson : (shape : Option (List FieldLayout)) →
    Json.havePlain (FieldLayout.shapeToJson shape) = true
  | none => rfl
  | some fields => by
    simp only [FieldLayout.shapeToJson, Json.havePlain, Json.isPlain,
      FieldLayout.arePlain_listToJson fields, Bool.and_self]

theorem FieldLayout.arePlain_listToJson : (fs : List FieldLayout) →
    Json.arePlain (FieldLayout.listToJson fs) = true
  | [] => rfl
  | f :: fs => by
    simp only [FieldLayout.listToJson, Json.arePlain, FieldLayout.isPlain_toJson f,
      FieldLayout.arePlain_listToJson fs, Bool.and_self]

end

namespace CatalogLayout

variable {c : CatalogLayout} {text : String}

theorem havePlain_shapesToJson (shapes : OrderedMap String ShapeLayout) :
    Json.havePlain (shapesToJson shapes) = true := by
  induction shapes with
  | nil => rfl
  | cons e shapes ih =>
    have hshape : (ShapeLayout.toJson e.2).isPlain = true := by
      simp only [ShapeLayout.toJson, Json.isPlain, Json.havePlain, FieldLayout.arePlain_listToJson,
        Bool.and_self]
    rw [shapesToJson] at ih
    simp only [shapesToJson, List.map_cons, Json.havePlain, hshape, ih, Bool.and_self]

theorem isPlain_toJson (c : CatalogLayout) : c.toJson.isPlain = true := by
  simp only [toJson_eq, Json.isPlain, Json.havePlain, havePlain_shapesToJson, Bool.and_self]

theorem ofText_eq_ok {format : CatalogFormat} :
    ofText format text = .ok c ↔ (format.tree? text).bind (decode? format.leniency) = some c := by
  unfold ofText
  split
  · rename_i h
    rw [h]
    exact ⟨fun he => congrArg some (Except.ok.inj he), fun he => congrArg Except.ok (Option.some.inj he)⟩
  · rename_i h
    rw [h]
    exact ⟨nofun, nofun⟩

theorem fits_json {d : Nat} : CatalogFormat.json.leniency.Fits d ↔ d ≤ 127 :=
  ⟨fun h => h 127 rfl, fun h _ hn => Option.some.inj hn ▸ h⟩

theorem phase_json : CatalogFormat.json.leniency.Phase 1 := fun _ hn => Option.some.inj hn ▸ rfl

/-- The text of a layout within the limit is read as the layout. -/
theorem ofText_of_depth (hd : (OrderedMap.keys c.shapes).Nodup) (h : c.toJson.depth ≤ 127) :
    ofText .json c.jsonText = .ok c := by
  rw [ofText_eq_ok]
  change (Json.read? c.toJson.compact).bind _ = _
  rw [Json.read?_compact c.isPlain_toJson, Option.bind_some, decode?_toJson (fits_json.2 h),
    OrderedMap.ofList_of_nodup hd]

/-- A layout that is read from a text is within the limit, and no name is given twice. -/
theorem within_of_ofText (h : ofText .json text = .ok c) :
    (OrderedMap.keys c.shapes).Nodup ∧ c.toJson.depth ≤ 127 := by
  obtain ⟨j, _, hj⟩ := Option.bind_eq_some_iff.1 (ofText_eq_ok.1 h)
  obtain ⟨hd, hfits⟩ := fits_of_decode? phase_json (fits_json.2 (by decide)) hj
  exact ⟨hd, fits_json.1 hfits⟩

end CatalogLayout

/-- A layout whose shapes have different names is read back from its text exactly if at most 127 objects
and arrays stand inside each other in it. Every layout that is read from a text is such a layout: writing
it and reading it again gives the same layout, and the same catalog or the same error. -/
theorem layout_round_trip :
    (∀ c : CatalogLayout, (OrderedMap.keys c.shapes).Nodup →
      (CatalogLayout.ofText .json c.jsonText = .ok c ↔ c.toJson.depth ≤ 127)) ∧
    ∀ (text : String) (c : CatalogLayout), CatalogLayout.ofText .json text = .ok c →
      (OrderedMap.keys c.shapes).Nodup ∧ CatalogLayout.ofText .json c.jsonText = .ok c ∧
        Catalog.ofText .json c.jsonText = Catalog.ofText .json text := by
  refine ⟨fun c hd => ⟨fun h => ?_, fun h => ?_⟩, fun text c h => ?_⟩
  · exact (CatalogLayout.within_of_ofText h).2
  · exact CatalogLayout.ofText_of_depth hd h
  · obtain ⟨hd, hdepth⟩ := CatalogLayout.within_of_ofText h
    have hagain := CatalogLayout.ofText_of_depth hd hdepth
    refine ⟨hd, hagain, ?_⟩
    rw [Catalog.ofText, Catalog.ofText, hagain, h]

namespace CatalogLayout

/-- Records as arrays, nulls, unknown and omitted fields, and a shape that is given twice. -/
def looseText : String :=
  "\x7b\"root\":\"Q\",\"shapes\":\x7b\"Q\":\x7b\x7d,\"U\":[[[\"id\",null,\"ID!\"]]],\"Q\":\x7b\"x\":1," ++
    "\"fields\":[\x7b\"name\":\"u\",\"shape\":[[]]\x7d,[\"\\u0001\\\"\",null,null,true]]\x7d\x7d,\"y\":[]\x7d"

def looseLayout : CatalogLayout where
  root := "Q"
  shapes := [("Q", [{ name := "u", shape := some [] }, { name := "\x01\"", embedded := true }]),
    ("U", [{ name := "id", type := some "ID!" }])]

theorem ofText_loose : ofText .json looseText = .ok looseLayout := by
  cbv

end CatalogLayout

theorem layout_round_trip_loose :
    CatalogLayout.looseLayout.toJson.depth = 7 ∧
    (OrderedMap.keys CatalogLayout.looseLayout.shapes).Nodup ∧
    (CatalogLayout.ofText .json CatalogLayout.looseLayout.jsonText = .ok CatalogLayout.looseLayout ↔
      CatalogLayout.looseLayout.toJson.depth ≤ 127) ∧
    CatalogLayout.ofText .json CatalogLayout.looseText = .ok CatalogLayout.looseLayout ∧
    Catalog.ofText .json CatalogLayout.looseLayout.jsonText =
      Catalog.ofText .json CatalogLayout.looseText :=
  ⟨rfl, by decide, layout_round_trip.1 CatalogLayout.looseLayout (by decide),
    CatalogLayout.ofText_loose,
    (layout_round_trip.2 CatalogLayout.looseText CatalogLayout.looseLayout
      CatalogLayout.ofText_loose).2.2⟩

end QueryShape
