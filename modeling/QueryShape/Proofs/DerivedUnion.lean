import Mathlib
import QueryShape.Declaration.Derive
import QueryShape.Proofs.NodeOrigin
import QueryShape.Proofs.UnionBranches

/-!
# Unions of declarations

The shape of a declared union has a discriminator and a member for each variant that is not skipped.
`derived_union_branches` says what compiling it comes to, variant by variant. Shapes are known by their
ids, so what counts for a variant is the shape that stands for all shapes with the id of its own; where
two variants have different shapes with one id, one of them is not seen (`shared_id_branches`).
-/

set_option autoImplicit false

namespace QueryShape

/-! ## Derived members -/

/-- The name and the type of a variant that is not skipped. -/
def VariantDeclaration.shown? (v : VariantDeclaration) : Option (String × TypeExpr) :=
  match Marks.ofAttributes v.attributes, v.payload with
  | .ok m, .positional [type] => if m.skip then none else some (v.name, type)
  | _, _ => none

/-- The variants of a union that are not skipped, in order. -/
def shownVariants (variants : List VariantDeclaration) : List (String × TypeExpr) :=
  variants.filterMap VariantDeclaration.shown?

/-- The member of a variant. -/
def variantMember (v : String × TypeExpr) : DerivedMember :=
  { ident := v.1, embedded := true, type := some v.2 }

theorem VariantDeclaration.member?_eq {v : VariantDeclaration} {m : Option DerivedMember}
    (h : v.member? = .ok m) : m = v.shown?.map variantMember := by
  unfold VariantDeclaration.member? at h
  unfold VariantDeclaration.shown?
  cases ha : Marks.ofAttributes v.attributes with
  | error e =>
    rw [ha] at h
    cases h
  | ok marks =>
    rw [ha] at h
    simp only [bind, Except.bind] at h
    split at h
    · rename_i hskip
      cases h
      split <;> simp_all
    · rename_i hskip
      split at h
      · rename_i type hp
        cases h
        simp only [hp, if_neg hskip]
        rfl
      · cases h

theorem filterMap_of_mapM {variants : List VariantDeclaration} {ms : List (Option DerivedMember)}
    (h : variants.mapM (·.member?) = .ok ms) :
    ms.filterMap id = (shownVariants variants).map variantMember := by
  induction variants generalizing ms with
  | nil =>
    cases h
    rfl
  | cons v variants ih =>
    rw [List.mapM_cons] at h
    cases hv : v.member? with
    | error e =>
      rw [hv] at h
      cases h
    | ok m =>
      rw [hv] at h
      cases hrest : variants.mapM (·.member?) with
      | error e =>
        rw [hrest] at h
        cases h
      | ok rest =>
        rw [hrest] at h
        cases h
        rw [VariantDeclaration.member?_eq hv, shownVariants, List.filterMap_cons, List.filterMap_cons]
        cases v.shown? with
        | none => exact ih hrest
        | some shown => exact congrArg (variantMember shown :: ·) (ih hrest)

theorem members_of_derive {d : Declaration} {variants : List VariantDeclaration} {ds : DerivedShape}
    (hbody : d.body = .union variants) (hd : d.derive = .ok ds) :
    ds.members = discriminator :: (shownVariants variants).map variantMember := by
  have hmembers : d.members = .ok ds.members := by
    unfold Declaration.derive at hd
    split at hd
    · cases hd
    · cases hname : d.givenName with
      | error e =>
        rw [hname] at hd
        cases hd
      | ok name =>
        rw [hname] at hd
        cases hm : d.members with
        | error e =>
          rw [hm] at hd
          cases hd
        | ok ms =>
          rw [hm] at hd
          cases hd
          rfl
  simp only [Declaration.members, hbody] at hmembers
  cases hm : variants.mapM (·.member?) with
  | error e =>
    rw [hm] at hmembers
    cases hmembers
  | ok ms =>
    rw [hm] at hmembers
    rw [← Except.ok.inj hmembers, filterMap_of_mapM hm]

theorem shown_name_mem {variants : List VariantDeclaration} {v : String × TypeExpr}
    (h : v ∈ shownVariants variants) : ∃ v' ∈ variants, v'.name = v.1 := by
  obtain ⟨v', hv', hs⟩ := List.mem_filterMap.1 h
  refine ⟨v', hv', ?_⟩
  unfold VariantDeclaration.shown? at hs
  split at hs
  · split at hs
    · cases hs
    · cases hs
      rfl
  · cases hs

/-! ## The members of the shape -/

section
variable {κ : Type}

/-- The member that a derived member becomes. -/
def DerivedMember.toMember (resolve : TypeExpr → TypeRef κ) (m : DerivedMember) : Member κ :=
  { ident := m.ident, tag := m.tag, fallbackName := m.fallbackName, embedded := m.embedded,
    type := m.type.elim .scalar resolve }

set_option maxRecDepth 100000 in
theorem read_discriminator : Annotation.read "__typename,union" =
    .ok { flags := [⟨"__typename", none⟩, ⟨"union", none⟩] } := by cbv

theorem head_discriminator (resolve : TypeExpr → TypeRef κ) (id : String) :
    (discriminator.toMember resolve).head id = .ok ⟨typenameField, true, false, []⟩ := by
  have htag : (discriminator.toMember resolve).readTag id =
      .ok (some { flags := [⟨"__typename", none⟩, ⟨"union", none⟩] }) := by
    have hsome : (discriminator.toMember resolve).tag = some "__typename,union" := rfl
    rw [Member.readTag, hsome]
    dsimp only
    rw [read_discriminator]
  exact Member.head_of_fieldName htag rfl

end

/-! ## The graph -/

section
variable {κ : Type} [DecidableEq κ] {t : ShapeTable κ} {root : κ} {resolve : TypeExpr → TypeRef κ}

/-- The field of a variant in the node of its union. It has a node unless the type leads to no shape, or
a shape without members stands for the one that it leads to. -/
structure VariantField (t : ShapeTable κ) (resolve : TypeExpr → TypeRef κ)
    (standIn : String → Shape κ) (g : Graph) (k : Fin g.size) (v : String × TypeExpr) (f : Field) :
    Prop where
  name : f.name = v.1
  missing : g.child? k f = none ↔
    ∀ s, t.shapeOf? (resolve v.2) = some s → (standIn s.id).members = []
  named : ∀ i, g.child? k f = some i →
    ∃ s, t.shapeOf? (resolve v.2) = some s ∧ (g.node i).name = (standIn s.id).name

theorem variantField_of_fieldOf {st : Extraction} {g : Graph} (hg : g.Arranged) {k : Fin g.size}
    {standIn : String → Shape κ} (hnodes : g.nodes = st.nodes)
    (hstand : ∀ id entry, OrderedMap.find? st.finished id = some entry →
      Extraction.Origin t root st.nodes id entry (standIn id))
    {id : String} {v : String × TypeExpr} {f : Field} (hk : f ∈ (g.node k).fields)
    (h : Extraction.FieldOf t st.finished id ((variantMember v).toMember resolve) f) :
    VariantField t resolve standIn g k v f := by
  cases h with
  | leaf hh hs =>
    cases hh
    have hs : t.shapeOf? (resolve v.2) = none := hs
    refine ⟨rfl, ⟨fun _ s hs' => ?_, fun _ => rfl⟩, fun i hi => ?_⟩
    · rw [hs] at hs'
      cases hs'
    · cases hi
  | @shape _ s entry hh hs hf =>
    cases hh
    have hs : t.shapeOf? (resolve v.2) = some s := hs
    have horigin := hstand s.id entry hf
    refine ⟨rfl, ?_, fun i hi => ⟨s, hs, ?_⟩⟩
    · constructor
      · intro hc s' hs'
        cases hs.symm.trans hs'
        exact horigin.empty.1 (hg.nested?_eq_none hk hc)
      · intro hempty
        obtain rfl := horigin.empty.2 (hempty s hs)
        rfl
    · have hentry : entry = some i.val.val := Graph.nested?_of_child? hi
      obtain ⟨n, hn, hname⟩ := horigin.name _ hentry
      rw [← hnodes, Graph.node_eq i.val] at hn
      rw [Option.some.inj hn, hname]

/-- The node of the union has the discriminator and a field for each variant that is not skipped. -/
theorem union_of_extract {ds : DerivedShape} {shown : List (String × TypeExpr)} {id : String}
    {g : Graph} (hm : ds.members = discriminator :: shown.map variantMember)
    (hroot : t.find? root = some (ds.toShape id resolve)) (hg : Graph.extract t root = .ok g) :
    ∃ (k : Fin g.size) (fields : List Field) (standIn : String → Shape κ), g.root = some k.val ∧
      g.node k = ⟨id, some ds.name, ⟨typenameField, .scalar, []⟩ :: fields, true, 1⟩ ∧
      (∀ v ∈ shown, ∀ s, t.shapeOf? (resolve v.2) = some s →
        t.ReachableFrom root (standIn s.id) ∧ (standIn s.id).id = s.id) ∧
      List.Forall₂ (VariantField t resolve standIn g k) shown fields := by
  have hmembers : (ds.toShape id resolve).members = discriminator.toMember resolve ::
      shown.map fun v => (variantMember v).toMember resolve := by
    show ds.members.map (·.toMember resolve) = _
    rw [hm, List.map_cons, List.map_map]
    rfl
  obtain ⟨k, all, isUnion, st, st₁, hk, hnode, hnodes, horigin, hfields, hvisits⟩ :=
    Extraction.root_of_extract hroot hg (by rw [hmembers]; exact List.cons_ne_nil _ _)
  rw [hmembers] at hfields hvisits
  have hunion := hvisits.isUnion_of_head (head_discriminator resolve _) rfl
  have hstand : ∀ id, ∃ s, ∀ entry, OrderedMap.find? st.finished id = some entry →
      Extraction.Origin t root st.nodes id entry s := by
    intro id
    cases he : OrderedMap.find? st.finished id with
    | none => exact ⟨default, fun _ h => by cases h⟩
    | some entry =>
      obtain ⟨s, hs⟩ := horigin id entry he
      exact ⟨s, fun _ h => by cases h; exact hs⟩
  choose standIn hstand using hstand
  obtain ⟨f, fields, hf, hrest, rfl⟩ := List.forall₂_cons_left_iff.1 hfields
  have hfirst : f = ⟨typenameField, .scalar, []⟩ := by
    cases hf with
    | leaf hh hs =>
      cases hh.symm.trans (head_discriminator resolve _)
      rfl
    | shape hh hs => cases hs
  subst hfirst hunion
  rw [List.forall₂_map_left_iff] at hrest
  have hpair : List.Forall₂ (fun v f => (∀ s, t.shapeOf? (resolve v.2) = some s →
      t.ReachableFrom root (standIn s.id) ∧ (standIn s.id).id = s.id) ∧
        VariantField t resolve standIn g k v f) shown fields := by
    refine List.forall₂_iff_zip.2 ⟨hrest.length_eq, fun {v f} hvf => ?_⟩
    have hf := List.forall₂_zip hrest hvf
    have hmem : f ∈ (g.node k).fields := by
      rw [hnode]
      exact List.mem_cons_of_mem _ (List.of_mem_zip hvf).2
    refine ⟨fun s hs => ?_, variantField_of_fieldOf (Graph.arranged_extract hg) hnodes hstand hmem hf⟩
    cases hf with
    | leaf _ hs' => cases hs.symm.trans hs'
    | shape _ hs' hentry =>
      cases hs.symm.trans hs'
      have horigin := hstand s.id _ hentry
      exact ⟨horigin.reachable, horigin.id_eq⟩
  obtain ⟨hstands, hvariants⟩ := (List.forall₂_and_left _ _).1 hpair
  exact ⟨k, fields, standIn, hk, hnode, hstands, hvariants⟩

end

/-! ## Compiling -/

theorem exists_of_forall₂_append {α β : Type} {R : α → β → Prop} {as cs : List α} {a : α}
    {l : List β} (h : List.Forall₂ R (as ++ a :: cs) l) :
    ∃ bs b ds, l = bs ++ b :: ds ∧ bs.length = as.length ∧ R a b := by
  induction as generalizing l with
  | nil =>
    obtain ⟨b, ds, hab, -, rfl⟩ := List.forall₂_cons_left_iff.1 h
    exact ⟨[], b, ds, rfl, rfl, hab⟩
  | cons a' as ih =>
    obtain ⟨b', l', -, hl, rfl⟩ := List.forall₂_cons_left_iff.1 h
    obtain ⟨bs, b, ds, rfl, hlen, hab⟩ := ih hl
    exact ⟨b' :: bs, b, ds, rfl, congrArg (· + 1) hlen, hab⟩

/-- The failure of an extraction is never one at a member of a union. -/
theorem branchPath?_of_extract {κ : Type} [DecidableEq κ] {t : ShapeTable κ} {root : κ} {e : Failure}
    (h : Graph.extract t root = .error e) : e.branchPath? = none := by
  cases hf : t.find? root with
  | none => cases (Extraction.extract_missing hf).symm.trans h
  | some s =>
    obtain ⟨r, st, hv, he⟩ := Extraction.extract_eq hf
    rw [he] at h
    cases r with
    | ok k => cases h
    | error e' =>
      cases h
      rcases hv.isCycle_or_headError .initial (.start hf) e rfl with
        ⟨ids, rfl, -⟩ | ⟨s', -, m, -, hh⟩
      · rfl
      · rcases Member.error_of_head hh with ⟨fault, rfl⟩ | rfl
        · rfl
        · rfl

section
variable {κ : Type} [DecidableEq κ] {t : ShapeTable κ} {resolve : TypeExpr → TypeRef κ}
  {standIn : String → Shape κ} {g : Graph} {k : Fin g.size} {shown : List (String × TypeExpr)}
  {fields : List Field}

theorem variants_of_fields (hv : List.Forall₂ (VariantField t resolve standIn g k) shown fields)
    {before after : List Field} {f : Field} (hf : fields = before ++ f :: after) :
    ∃ before' v after', shown = before' ++ v :: after' ∧ before'.length = before.length ∧
      VariantField t resolve standIn g k v f := by
  subst hf
  exact exists_of_forall₂_append (List.Forall₂.flip hv)

theorem names_of_fields (hv : List.Forall₂ (VariantField t resolve standIn g k) shown fields) :
    fields.map (·.name) = shown.map (·.1) := by
  induction hv with
  | nil => rfl
  | cons hvf _ ih => rw [List.map_cons, List.map_cons, hvf.name, ih]

/-- A failure at a member of the union itself comes from a variant. -/
theorem exists_of_variant_failure (hg : g.Arranged)
    (hf : (g.node k).fields = ⟨typenameField, .scalar, []⟩ :: fields)
    (hu : (g.node k).isUnion = true)
    (hv : List.Forall₂ (VariantField t resolve standIn g k) shown fields) {e : Failure}
    {name : String} (h : Walk.Failed (Walk.fields g k (g.node k).fields) {} e)
    (hp : e.branchPath? = some [name]) :
    ∃ before v after f, shown = before ++ v :: after ∧ VariantField t resolve standIn g k v f ∧
      (∃ ss w, Walk.Ran (Walk.fields g k ((g.node k).fields.take (before.length + 1))) {} ss w) ∧
      (g.child? k f = none ∧ e = .scalarBranch f.name (g.node k).label [f.name] ∨
        ∃ i, g.child? k f = some i ∧ (g.node i).name = none ∧
          e = .anonymousBranch f.name [f.name]) := by
  obtain ⟨before, f, after, ss, w, hsplit, hran, hname, hcase⟩ :=
    Walk.exists_of_own_failure hg hu (Walk.Stands.initial g) h hp rfl
  rw [hf] at hsplit
  cases before with
  | nil =>
    obtain ⟨rfl, -⟩ := List.cons.inj hsplit
    exact absurd rfl hname
  | cons f₀ before =>
    rw [List.cons_append] at hsplit
    obtain ⟨rfl, hrest⟩ := List.cons.inj hsplit
    obtain ⟨before', v, after', hshown, hlen, hvf⟩ := variants_of_fields hv hrest
    refine ⟨before', v, after', f, hshown, hvf, ⟨ss, w, ?_⟩, hcase⟩
    rwa [hf, hrest, hlen, List.take_succ_cons, List.take_left]

/-- The union fails at a variant that has no node, if the walk comes to it. -/
theorem failed_of_variant (hg : g.Arranged)
    (hf : (g.node k).fields = ⟨typenameField, .scalar, []⟩ :: fields)
    (hu : (g.node k).isUnion = true) (hn : ∀ v ∈ shown, v.1 ≠ typenameField)
    (hv : List.Forall₂ (VariantField t resolve standIn g k) shown fields)
    {before after : List (String × TypeExpr)} {v : String × TypeExpr}
    (hshown : shown = before ++ v :: after)
    (hempty : ∀ s, t.shapeOf? (resolve v.2) = some s → (standIn s.id).members = [])
    {ss : List Selection} {w : Walk}
    (hran : Walk.Ran (Walk.fields g k ((g.node k).fields.take (before.length + 1))) {} ss w) :
    Walk.Failed (Walk.fields g k (g.node k).fields) {}
      (.scalarBranch v.1 (g.node k).label [v.1]) := by
  subst hshown
  obtain ⟨before', f, after', rfl, hlen, hvf⟩ := exists_of_forall₂_append hv
  rw [hf, ← hlen, List.take_succ_cons, List.take_left] at hran
  have hname : f.name ≠ typenameField := by
    rw [hvf.name]
    exact hn v (List.mem_append_right _ List.mem_cons_self)
  rw [hf, ← hvf.name]
  exact Walk.fields_failed_of_child? hg hu (Walk.Stands.initial g) hran hname
    (hvf.missing.2 hempty)

theorem branches_of_variants (hg : g.Arranged) (hk : g.root = some k.val)
    (hf : (g.node k).fields = ⟨typenameField, .scalar, []⟩ :: fields)
    (hu : (g.node k).isUnion = true) (h1 : (g.node k).uses = 1)
    (hn : ∀ v ∈ shown, v.1 ≠ typenameField)
    (hv : List.Forall₂ (VariantField t resolve standIn g k) shown fields) {o : Outline}
    (ho : Outline.ofGraph g = .ok o) :
    ∃ branches, o.root = .block (.leaf typenameField [] :: branches) ∧
      List.Forall₂ (fun v b => ∃ s type group, t.shapeOf? (resolve v.2) = some s ∧
        (standIn s.id).name = some type ∧ b = .branch type group) shown branches := by
  have hnames : ∀ f ∈ fields, f.name ≠ typenameField := by
    intro f hmem
    have hname : f.name ∈ shown.map (·.1) := by
      rw [← names_of_fields hv]
      exact List.mem_map_of_mem hmem
    obtain ⟨v, hmem', hv'⟩ := List.mem_map.1 hname
    rw [← hv']
    exact hn v hmem'
  obtain ⟨branches, hroot, hbranches⟩ :=
    Outline.branches_of_ofGraph hg hk hf hu h1 rfl hnames ho
  refine ⟨branches, hroot, ?_⟩
  clear hroot ho hnames hn hf
  induction hv generalizing branches with
  | nil =>
    cases hbranches
    exact .nil
  | cons hvf _ ih =>
    obtain ⟨b, rest, ⟨i, type, group, hc, ht, rfl⟩, hrest, rfl⟩ :=
      List.forall₂_cons_left_iff.1 hbranches
    obtain ⟨s, hs, hname⟩ := hvf.named i hc
    exact .cons ⟨s, type, group, hs, hname.symm.trans ht, rfl⟩ (ih rest hrest)

end

/-- What compiling a union as the root `k` comes to, variant by variant. The shape that stands for all
shapes with an id is `standIn` of it. A failure at a member of the union itself, and not below it, has a
path of one name. -/
structure CompilesAsUnion {κ : Type} [DecidableEq κ] (t : ShapeTable κ) (root : κ)
    (resolve : TypeExpr → TypeRef κ) (shown : List (String × TypeExpr)) (unit : String) (g : Graph)
    (k : Fin g.size) (standIn : String → Shape κ) : Prop where
  isRoot : g.root = some k.val
  isUnion : (g.node k).isUnion = true
  fields : (g.node k).fields.map (·.name) = typenameField :: shown.map (·.1)
  stands : ∀ v ∈ shown, ∀ s, t.shapeOf? (resolve v.2) = some s →
    t.ReachableFrom root (standIn s.id) ∧ (standIn s.id).id = s.id
  /-- Where all variants have names, none is reported as anonymous. -/
  named : (∀ v ∈ shown, ∀ s, t.shapeOf? (resolve v.2) = some s → (standIn s.id).name ≠ none) →
    ∀ field name, t.compile unit (some root) ≠ .error (.anonymousBranch field [name])
  /-- The variant that is reported as no shape has no members, and the walk comes to it. -/
  scalar : ∀ field, (∃ shape name,
      t.compile unit (some root) = .error (.scalarBranch field shape [name])) ↔
    ∃ before v after, shown = before ++ v :: after ∧ v.1 = field ∧
      (∀ s, t.shapeOf? (resolve v.2) = some s → (standIn s.id).members = []) ∧
      ∃ ss w, Walk.Ran (Walk.fields g k ((g.node k).fields.take (before.length + 1))) {} ss w
  branches : ∀ c, t.compile unit (some root) = .ok c → ∃ o branches, Outline.ofGraph g = .ok o ∧
    c = o.print unit ∧ o.root = .block (.leaf typenameField [] :: branches) ∧
    List.Forall₂ (fun v b => ∃ s type group, t.shapeOf? (resolve v.2) = some s ∧
      (standIn s.id).name = some type ∧ b = .branch type group) shown branches

/-- A declared union compiles as a union, whatever its types refer to. -/
theorem derived_union_branches {κ : Type} [DecidableEq κ] {t : ShapeTable κ} {root : κ}
    {d : Declaration} {variants : List VariantDeclaration} {ds : DerivedShape} {id : String}
    {resolve : TypeExpr → TypeRef κ} (hbody : d.body = .union variants) (hd : d.derive = .ok ds)
    (hnames : ∀ v ∈ variants, v.name ≠ typenameField)
    (hroot : t.find? root = some (ds.toShape id resolve)) (unit : String) :
    (∀ e, Graph.extract t root = .error e →
      t.compile unit (some root) = .error e ∧ e.branchPath? = none) ∧
    ∀ g, Graph.extract t root = .ok g → ∃ k standIn,
      CompilesAsUnion t root resolve (shownVariants variants) unit g k standIn := by
  refine ⟨fun e he => ⟨?_, branchPath?_of_extract he⟩, fun g hg => ?_⟩
  · rw [ShapeTable.compile_eq_bind, he]
    rfl
  have hmembers := members_of_derive hbody hd
  obtain ⟨k, fields, standIn, hk, hnode, hstands, hvariants⟩ := union_of_extract hmembers hroot hg
  have harranged := Graph.arranged_extract hg
  have hfields : (g.node k).fields = ⟨typenameField, .scalar, []⟩ :: fields := by rw [hnode]
  have hunion : (g.node k).isUnion = true := by rw [hnode]
  have huses : (g.node k).uses = 1 := by rw [hnode]
  have hshown : ∀ v ∈ shownVariants variants, v.1 ≠ typenameField := by
    intro v hv
    obtain ⟨v', hv', hname⟩ := shown_name_mem hv
    rw [← hname]
    exact hnames v' hv'
  have herror : ∀ e, t.compile unit (some root) = .error e ↔
      Walk.Failed (Walk.fields g k (g.node k).fields) {} e := by
    intro e
    rw [ShapeTable.compile_eq unit hg, Graph.compile_eq_error, Outline.ofGraph_eq_error hk huses]
  refine ⟨k, standIn, hk, hunion, ?_, hstands, ?_, fun field => ⟨?_, ?_⟩, fun c hc => ?_⟩
  · rw [hfields, List.map_cons, names_of_fields hvariants]
  · intro hnamed field name herr
    obtain ⟨before, v, after, f, hsplit, hvf, -, hcase⟩ := exists_of_variant_failure harranged hfields
      hunion hvariants ((herror _).1 herr) rfl
    rcases hcase with ⟨-, he⟩ | ⟨i, hc, hnone, -⟩
    · cases he
    · obtain ⟨s, hs, hname⟩ := hvf.named i hc
      refine hnamed v ?_ s hs (hname.symm.trans hnone)
      rw [hsplit]
      exact List.mem_append_right _ List.mem_cons_self
  · rintro ⟨shape, name, herr⟩
    obtain ⟨before, v, after, f, hsplit, hvf, hran, hcase⟩ := exists_of_variant_failure harranged hfields
      hunion hvariants ((herror _).1 herr) rfl
    rcases hcase with ⟨hc, he⟩ | ⟨i, -, -, he⟩
    · cases he
      exact ⟨before, v, after, hsplit, hvf.name.symm, hvf.missing.1 hc, hran⟩
    · cases he
  · rintro ⟨before, v, after, hsplit, rfl, hempty, ss, w, hran⟩
    exact ⟨_, _, (herror _).2
      (failed_of_variant harranged hfields hunion hshown hvariants hsplit hempty hran)⟩
  · rw [ShapeTable.compile_eq unit hg] at hc
    obtain ⟨o, ho, rfl⟩ := Graph.outline_of_compile hc
    obtain ⟨branches, hblock, hbranches⟩ :=
      branches_of_variants (Graph.arranged_extract hg) hk hfields hunion huses hshown hvariants ho
    exact ⟨o, branches, ho, rfl, hblock, hbranches⟩

/-- Articles and videos, and a variant that is skipped. -/
def contentVariants : List VariantDeclaration :=
  [⟨"Article", .positional [.path ["Article"] []], []⟩,
    ⟨"Hidden", .unit, [.list "graphql" [.word "skip"]]⟩,
    ⟨"Video", .positional [.path ["Option"] [.path ["Video"] []]], []⟩]

def contentDeclaration : Declaration := { name := "Content", body := .union contentVariants }

def contentShape : DerivedShape where
  name := "Content"
  members := [discriminator, variantMember ("Article", .path ["Article"] []),
    variantMember ("Video", .path ["Option"] [.path ["Video"] []])]

/-- Types refer to the shapes of their names. -/
def contentType : TypeExpr → TypeRef String
  | .path ["Option"] [.path [name] []] => .optional (.shape name)
  | .path [name] [] => .shape name
  | _ => .scalar

theorem marks_skip :
    Marks.ofAttributes [.list "graphql" [.word "skip"]] = .ok { skip := true } := by
  decide +kernel

theorem derive_content : contentDeclaration.derive = .ok contentShape := by
  have hhidden : VariantDeclaration.member? ⟨"Hidden", .unit, [.list "graphql" [.word "skip"]]⟩ =
      .ok none := by
    rw [VariantDeclaration.member?, marks_skip]
    rfl
  have hmembers : contentDeclaration.members = .ok contentShape.members := by
    simp only [Declaration.members, contentDeclaration, contentVariants, List.mapM_cons, hhidden]
    rfl
  rw [Declaration.derive, hmembers]
  rfl

theorem shown_content : shownVariants contentVariants = [("Article", .path ["Article"] []),
    ("Video", .path ["Option"] [.path ["Video"] []])] := by
  simp only [shownVariants, contentVariants, List.filterMap_cons, VariantDeclaration.shown?,
    marks_skip]
  rfl

theorem names_content : ∀ v ∈ contentVariants, v.name ≠ typenameField := by decide

def contentTable : ShapeTable String :=
  ⟨[("Content", contentShape.toShape "C" contentType),
    ("Article", ⟨"A", some "Article", [{ ident := "title", tag := some "title(in: $lang:Lang)" }]⟩),
    ("Video", ⟨"V", some "Video", [{ ident := "url" }]⟩)]⟩

def contentGraph : Graph where
  nodes := #[⟨"A", some "Article",
      [⟨"title", .scalar, [("in", .variable (some "lang") (some "Lang") none)]⟩], false, 1⟩,
    ⟨"V", some "Video", [⟨"url", .scalar, []⟩], false, 1⟩,
    ⟨"C", some "Content", [⟨"__typename", .scalar, []⟩, ⟨"Article", .inline (some 0), []⟩,
      ⟨"Video", .inline (some 1), []⟩], true, 1⟩]
  root := some 2

set_option maxRecDepth 100000 in
theorem extract_content : Graph.extract contentTable "Content" = .ok contentGraph := by cbv

def contentCompiled : Compiled where
  body := "\x7b\n  __typename\n  ... on Article \x7b\n    title(in: $lang)\n  \x7d\n" ++
    "  ... on Video \x7b\n    url\n  \x7d\n\x7d"
  vars := [⟨"lang", some "Lang", ["Article/title"], none⟩]
  fragments := []

set_option maxRecDepth 100000 in
theorem compile_content : contentTable.compile "  " (some "Content") = .ok contentCompiled := by cbv

theorem derived_union_content : contentDeclaration.body = .union contentVariants ∧
    contentDeclaration.derive = .ok contentShape ∧
    (∀ v ∈ contentVariants, v.name ≠ typenameField) ∧
    contentTable.find? "Content" = some (contentShape.toShape "C" contentType) ∧
    Graph.extract contentTable "Content" = .ok contentGraph ∧
    contentTable.compile "  " (some "Content") = .ok contentCompiled ∧
    ∃ k standIn, CompilesAsUnion contentTable "Content" contentType (shownVariants contentVariants)
      "  " contentGraph k standIn :=
  ⟨rfl, derive_content, names_content, rfl, extract_content, compile_content,
    (derived_union_branches rfl derive_content names_content rfl "  ").2 _ extract_content⟩

/-- The shapes of both variants have one id, and the shape of videos has no members. -/
def sharedTable : ShapeTable String :=
  ⟨[("Content", contentShape.toShape "C" contentType),
    ("Article", ⟨"P", some "Article", [{ ident := "title" }]⟩), ("Video", ⟨"P", some "Video", []⟩)]⟩

set_option maxRecDepth 100000 in
/-- The shape of articles stands for that of videos, and the union compiles. -/
theorem shared_id_branches : contentDeclaration.body = .union contentVariants ∧
    contentDeclaration.derive = .ok contentShape ∧
    (∀ v ∈ contentVariants, v.name ≠ typenameField) ∧
    sharedTable.find? "Content" = some (contentShape.toShape "C" contentType) ∧
    shownVariants contentVariants = [("Article", .path ["Article"] []),
      ("Video", .path ["Option"] [.path ["Video"] []])] ∧
    sharedTable.shapeOf? (contentType (.path ["Option"] [.path ["Video"] []])) =
      some ⟨"P", some "Video", []⟩ ∧
    sharedTable.compile "  " (some "Content") = .ok
      ⟨"\x7b\n  __typename\n  ... on Article \x7b ...P \x7d\n  ... on Article \x7b ...P \x7d\n\x7d", [],
        [⟨"P", "Article", "fragment P on Article\x7b\n  title\n\x7d"⟩]⟩ :=
  ⟨rfl, derive_content, names_content, rfl, shown_content, rfl, by cbv⟩

end QueryShape
