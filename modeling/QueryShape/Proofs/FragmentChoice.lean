import QueryShape.Proofs.FragmentTable

/-!
# Which shapes become fragments

`Graph.Visited` and `Graph.Braced` say by the graph alone which nodes an operation takes in and which
of them stand in braces. A `Site` is a place of the operation where a reference is written;
`TargetShows`, `FieldsShow` and `FieldShows` read the sites off selections and graph side by side, and
leave open where the selections of a node are written out, registered or spread.
`fragments_chosen`: the walk makes fragments of just the nodes that are used more than once and stand
in braces somewhere. In braces they are always spread, and in place of a field once they are
registered.

`Traced` is what each part of the walk keeps. The fragments of a part come from its own sites, and
where a node is written its references are among the sites (`Covers`). So the sites of the whole walk
are the references of all visited nodes (`Traced.covers`).
-/

set_option autoImplicit false

namespace QueryShape

namespace Graph

/-- Field `f` of node `k` refers to node `i`. The discriminator of a union refers to nothing. -/
structure Refers (g : Graph) (k : Fin g.size) (f : Field) (i : Fin g.size) : Prop where
  field : f ∈ (g.node k).fields
  nested : f.kind.nested? = some i.val
  notTypename : ¬ ((g.node k).isUnion = true ∧ f.name = typenameField)

inductive Visited (g : Graph) : Fin g.size → Prop
  | root {k : Fin g.size} : g.root = some k.val → Visited g k
  | step {k i : Fin g.size} {f : Field} : Visited g k → g.Refers k f i → Visited g i

/-- Whether what field `f` of node `k` refers to stands in braces. -/
def braces (g : Graph) (k : Fin g.size) (f : Field) : Bool := (g.node k).isUnion || !f.kind.isInline

/-- Node `i` stands in braces somewhere. -/
def Braced (g : Graph) (i : Fin g.size) : Prop :=
  ∃ k f, g.Visited k ∧ g.Refers k f i ∧ g.braces k f = true

/-- One of the fragments selects node `i`. -/
def HasFragment (g : Graph) (table : List FragmentOutline) (i : Fin g.size) : Prop :=
  ∃ f ∈ table, f.shapeId = (g.node i).id

end Graph

/-! ## Sites -/

inductive Form where
  /-- The selections themselves. -/
  | written
  | spread (fragment : String)
deriving DecidableEq, Repr

/-- The group of a node that is shown in this form with these selections. -/
def Form.group (form : Form) (selections : List Selection) : Group :=
  match form with
  | written => .block selections
  | spread fragment => .spread fragment

/-- A place where the reference of a field is written. -/
structure Site (g : Graph) where
  parent : Fin g.size
  field : Field
  target : Fin g.size
  form : Form
  /-- The fragments registered when the walk comes to the place. -/
  earlier : List FragmentOutline

def Site.braced {g : Graph} (s : Site g) : Bool := g.braces s.parent s.field

/-- What field `f` of node `k` shows of the node it refers to. -/
inductive Places (g : Graph) (k : Fin g.size) (f : Field) (form : Form)
    (selections : List Selection) : List Selection → Prop
  | splice : (g.node k).isUnion = false → f.kind.isInline = true →
      Places g k f form selections selections
  | nested {operands : List (String × Operand)} : (g.node k).isUnion = false →
      f.kind.isInline = false →
      Places g k f form selections [.nested f.name operands (form.group selections)]
  | branch {type : String} : (g.node k).isUnion = true →
      Places g k f form selections [.branch type (form.group selections)]

mutual

/-- Node `k` is shown in a form, from fragments `T` to fragments `T'`. -/
inductive TargetShows (g : Graph) : List FragmentOutline → Fin g.size → Form → List Selection →
    List FragmentOutline → List (Site g) → Prop
  | spread {T : List FragmentOutline} {k : Fin g.size} {f : FragmentOutline} : f ∈ T →
      f.shapeId = (g.node k).id → TargetShows g T k (.spread f.name) [.spread f.name] T []
  | written {T T' : List FragmentOutline} {k : Fin g.size} {ss : List Selection}
      {sites : List (Site g)} : FieldsShow g T k (g.node k).fields ss T' sites →
      TargetShows g T k .written ss T' sites
  | registered {T T' : List FragmentOutline} {k : Fin g.size} {f : FragmentOutline}
      {sites : List (Site g)} : FieldsShow g T k (g.node k).fields f.selections T' sites →
      f.shapeId = (g.node k).id →
      TargetShows g T k (.spread f.name) [.spread f.name] (T' ++ [f]) sites

inductive FieldsShow (g : Graph) : List FragmentOutline → Fin g.size → List Field →
    List Selection → List FragmentOutline → List (Site g) → Prop
  | nil {T : List FragmentOutline} {k : Fin g.size} : FieldsShow g T k [] [] T []
  | cons {T T₁ T' : List FragmentOutline} {k : Fin g.size} {f : Field} {fs : List Field}
      {here rest : List Selection} {sites sites' : List (Site g)} :
      FieldShows g T k f here T₁ sites → FieldsShow g T₁ k fs rest T' sites' →
      FieldsShow g T k (f :: fs) (here ++ rest) T' (sites ++ sites')

inductive FieldShows (g : Graph) : List FragmentOutline → Fin g.size → Field → List Selection →
    List FragmentOutline → List (Site g) → Prop
  | nothing {T : List FragmentOutline} {k : Fin g.size} {f : Field} : (∀ i, ¬ g.Refers k f i) →
      FieldShows g T k f [] T []
  | leaf {T : List FragmentOutline} {k : Fin g.size} {f : Field}
      {operands : List (String × Operand)} : (∀ i, ¬ g.Refers k f i) →
      FieldShows g T k f [.leaf f.name operands] T []
  | reference {T T' : List FragmentOutline} {k i : Fin g.size} {f : Field} {form : Form}
      {ss here : List Selection} {sites : List (Site g)} : g.Refers k f i →
      TargetShows g T i form ss T' sites → Places g k f form ss here →
      FieldShows g T k f here T' (⟨k, f, i, form, T⟩ :: sites)

end

/-- At the site the fragment of the node among `table` is spread, if there is one. -/
def Site.Spreads {g : Graph} (s : Site g) (table : List FragmentOutline) : Prop :=
  ∀ name, s.form = .spread name ↔ ∃ f ∈ table, f.shapeId = (g.node s.target).id ∧ f.name = name

/-! ## What a part of the walk keeps -/

/-- The references of these fields of node `k` are among the sites. -/
def CoversFields {g : Graph} (sites : List (Site g)) (k : Fin g.size) (fs : List Field) : Prop :=
  ∀ f ∈ fs, ∀ i, g.Refers k f i → ∃ s ∈ sites, s.parent = k ∧ s.field = f ∧ s.target = i

theorem CoversFields.mono {g : Graph} {sites sites' : List (Site g)} {k : Fin g.size}
    {fs : List Field} (h : CoversFields sites k fs) (hs : sites ⊆ sites') :
    CoversFields sites' k fs := by
  intro f hf i hr
  obtain ⟨s, hm, hs'⟩ := h f hf i hr
  exact ⟨s, hs hm, hs'⟩

theorem CoversFields.cons {g : Graph} {sites : List (Site g)} {k : Fin g.size} {f : Field}
    {fs : List Field} (h : CoversFields sites k [f]) (hs : CoversFields sites k fs) :
    CoversFields sites k (f :: fs) := by
  intro f' hf' i hr
  rcases List.mem_cons.1 hf' with rfl | hf'
  · exact h f' (List.mem_singleton.2 rfl) i hr
  · exact hs f' hf' i hr

/-- All references of node `k` are among the sites. -/
abbrev Covers {g : Graph} (sites : List (Site g)) (k : Fin g.size) : Prop :=
  CoversFields sites k (g.node k).fields

/-- One fragment for a node, and only for nodes that are used more than once. -/
structure Registered (g : Graph) (table : List FragmentOutline) : Prop where
  nodup : (table.map (·.shapeId)).Nodup
  reused : ∀ f ∈ table, ∃ i : Fin g.size, f.shapeId = (g.node i).id ∧ 1 < (g.node i).uses

namespace Registered

variable {g : Graph} {table : List FragmentOutline}

theorem nil (g : Graph) : Registered g [] :=
  ⟨List.nodup_nil, fun _ hf => (List.not_mem_nil hf).elim⟩

theorem snoc (h : Registered g table) {f : FragmentOutline} {k : Fin g.size}
    (hid : f.shapeId = (g.node k).id) (hu : 1 < (g.node k).uses)
    (hn : ¬ g.HasFragment table k) : Registered g (table ++ [f]) := by
  refine ⟨nodup_map_snoc h.nodup fun hm => ?_, fun f' hf' => ?_⟩
  · obtain ⟨f', hf', he⟩ := List.mem_map.1 hm
    exact hn ⟨f', hf', he.trans hid⟩
  · rcases List.mem_append.1 hf' with hf' | hf'
    · exact h.reused f' hf'
    · obtain rfl := List.mem_singleton.1 hf'
      exact ⟨k, hid, hu⟩

theorem uses_of_hasFragment (hg : g.Arranged) (h : Registered g table) {k : Fin g.size}
    (hk : g.HasFragment table k) : 1 < (g.node k).uses := by
  obtain ⟨f, hf, hid⟩ := hk
  obtain ⟨i, hi, hu⟩ := h.reused f hf
  obtain rfl := hg.inj i k (hi.symm.trans hid)
  exact hu

theorem not_hasFragment (hg : g.Arranged) {w : Walk} (h : Registered g w.fragments)
    {k : Fin g.size} (hf : Walk.fragmentOf? w (g.node k) = none) :
    ¬ g.HasFragment w.fragments k := by
  intro hk
  have hu := h.uses_of_hasFragment hg hk
  obtain ⟨f, hm, hid⟩ := hk
  exact Walk.fragmentOf?_eq_none hf hu f hm hid

/-- A site that spreads a fragment of its node spreads the only one there is. -/
theorem spreads (h : Registered g table) {s : Site g} {f : FragmentOutline} (hf : f ∈ table)
    (hid : f.shapeId = (g.node s.target).id) (hs : s.form = .spread f.name) :
    s.Spreads table := by
  intro name
  rw [hs]
  constructor
  · intro he
    cases he
    exact ⟨f, hf, hid, rfl⟩
  · rintro ⟨f', hf', hid', rfl⟩
    obtain rfl := List.inj_on_of_nodup_map h.nodup hf hf' (hid.trans hid'.symm)
    rfl

end Registered

theorem Site.spreads_of_written {g : Graph} {s : Site g} {table : List FragmentOutline}
    (hs : s.form = .written) (hn : ¬ g.HasFragment table s.target) : s.Spreads table := by
  intro name
  rw [hs]
  constructor
  · intro he
    cases he
  · rintro ⟨f, hf, hid, -⟩
    exact absurd ⟨f, hf, hid⟩ hn

/-- Whatever fragments come later, a node that is used more than once is spread at the site. -/
def Site.SpreadsReused {g : Graph} (s : Site g) (table : List FragmentOutline) : Prop :=
  if 1 < (g.node s.target).uses then
    ∃ f ∈ table, f.shapeId = (g.node s.target).id ∧ s.form = .spread f.name
  else s.form = .written

theorem Site.SpreadsReused.mono {g : Graph} {s : Site g} {table table' : List FragmentOutline}
    (h : s.SpreadsReused table) (ht : table ⊆ table') : s.SpreadsReused table' := by
  unfold SpreadsReused at h ⊢
  split
  · rename_i hu
    rw [if_pos hu] at h
    obtain ⟨f, hf, hs⟩ := h
    exact ⟨f, ht hf, hs⟩
  · rename_i hu
    rwa [if_neg hu] at h

theorem Site.SpreadsReused.spreads {g : Graph} (hg : g.Arranged) {s : Site g}
    {table : List FragmentOutline} (h : s.SpreadsReused table) (ht : Registered g table) :
    s.Spreads table := by
  unfold SpreadsReused at h
  split at h
  · obtain ⟨f, hf, hid, hs⟩ := h
    exact ht.spreads hf hid hs
  · rename_i hu
    exact Site.spreads_of_written h fun hk => hu (ht.uses_of_hasFragment hg hk)

/-- A part of the walk takes the fragments `T` to `T'`, at sites of nodes below `n`. -/
structure Traced (g : Graph) (n : Nat) (T T' : List FragmentOutline) (sites : List (Site g)) :
    Prop where
  registered : Registered g T'
  grows : T <+: T'
  below : ∀ s ∈ sites, s.target.val < n
  visited : ∀ s ∈ sites, g.Visited s.parent ∧ g.Refers s.parent s.field s.target
  /-- A node whose selections are not written in this part has a fragment from before. -/
  covered : ∀ s ∈ sites, g.HasFragment T s.target ∨ Covers sites s.target
  fresh : ∀ f ∈ T', f ∈ T ∨ ∃ s ∈ sites, s.braced = true ∧
    f.shapeId = (g.node s.target).id ∧ Covers sites s.target
  braced : ∀ s ∈ sites, s.braced = true → s.SpreadsReused T'
  inline : ∀ s ∈ sites, s.braced = false → s.Spreads s.earlier

namespace Traced

variable {g : Graph} {n : Nat} {T T₁ T' : List FragmentOutline} {sites sites' : List (Site g)}

theorem refl (n : Nat) (h : Registered g T) : Traced g n T T [] where
  registered := h
  grows := List.prefix_refl _
  below _ hs := (List.not_mem_nil hs).elim
  visited _ hs := (List.not_mem_nil hs).elim
  covered _ hs := (List.not_mem_nil hs).elim
  fresh _ hf := .inl hf
  braced _ hs := (List.not_mem_nil hs).elim
  inline _ hs := (List.not_mem_nil hs).elim

/-- A node that got its fragment in this part is covered by it. -/
theorem hasFragment_or_covers (hg : g.Arranged) (h : Traced g n T T' sites) {k : Fin g.size}
    (hk : g.HasFragment T' k) : g.HasFragment T k ∨ (k.val < n ∧ Covers sites k) := by
  obtain ⟨f, hf, hid⟩ := hk
  rcases h.fresh f hf with hf | ⟨s, hs, -, hid', hc⟩
  · exact .inl ⟨f, hf, hid⟩
  · obtain rfl := hg.inj s.target k (hid'.symm.trans hid)
    exact .inr ⟨h.below s hs, hc⟩

theorem append (hg : g.Arranged) (h₁ : Traced g n T T₁ sites) (h₂ : Traced g n T₁ T' sites') :
    Traced g n T T' (sites ++ sites') := by
  have hl : sites ⊆ sites ++ sites' := List.subset_append_left _ _
  have hr : sites' ⊆ sites ++ sites' := List.subset_append_right _ _
  refine ⟨h₂.registered, h₁.grows.trans h₂.grows, fun s hs => ?_, fun s hs => ?_, fun s hs => ?_,
    fun f hf => ?_, fun s hs => ?_, fun s hs => ?_⟩
  · exact (List.mem_append.1 hs).elim (h₁.below s) (h₂.below s)
  · exact (List.mem_append.1 hs).elim (h₁.visited s) (h₂.visited s)
  · rcases List.mem_append.1 hs with hs | hs
    · exact (h₁.covered s hs).imp_right (·.mono hl)
    · rcases h₂.covered s hs with hk | hc
      · exact (h₁.hasFragment_or_covers hg hk).imp_right (·.2.mono hl)
      · exact .inr (hc.mono hr)
  · rcases h₂.fresh f hf with hf | ⟨s, hs, hb, hid, hc⟩
    · rcases h₁.fresh f hf with hf | ⟨s, hs, hb, hid, hc⟩
      · exact .inl hf
      · exact .inr ⟨s, hl hs, hb, hid, hc.mono hl⟩
    · exact .inr ⟨s, hr hs, hb, hid, hc.mono hr⟩
  · intro hb
    rcases List.mem_append.1 hs with hs | hs
    · exact (h₁.braced s hs hb).mono h₂.grows.subset
    · exact h₂.braced s hs hb
  · exact (List.mem_append.1 hs).elim (h₁.inline s) (h₂.inline s)

/-- One more site, for a node whose own part is done. -/
theorem site (s : Site g) (h : Traced g s.target T T₁ sites) (hreg : Registered g T')
    (hg : T₁ <+: T') (hv : g.Visited s.parent ∧ g.Refers s.parent s.field s.target)
    (hlt : s.target.val < s.parent.val) (hc : g.HasFragment T s.target ∨ Covers sites s.target)
    (hf : ∀ f ∈ T', f ∈ T₁ ∨ s.braced = true ∧ f.shapeId = (g.node s.target).id ∧
      Covers sites s.target)
    (hb : s.braced = true → s.SpreadsReused T') (hi : s.braced = false → s.Spreads s.earlier) :
    Traced g s.parent T T' (s :: sites) := by
  have hsub : sites ⊆ s :: sites := List.subset_cons_self _ _
  refine ⟨hreg, h.grows.trans hg, ?_, ?_, ?_, fun f hm => ?_, ?_, ?_⟩
  · rw [List.forall_mem_cons]
    exact ⟨hlt, fun s' hs' => Nat.lt_trans (h.below s' hs') hlt⟩
  · rw [List.forall_mem_cons]
    exact ⟨hv, h.visited⟩
  · rw [List.forall_mem_cons]
    exact ⟨hc.imp_right (·.mono hsub), fun s' hs' => (h.covered s' hs').imp_right (·.mono hsub)⟩
  · rcases hf f hm with hm | ⟨hsb, hid, hcov⟩
    · rcases h.fresh f hm with hm | ⟨s', hs', hb', hid', hc'⟩
      · exact .inl hm
      · exact .inr ⟨s', hsub hs', hb', hid', hc'.mono hsub⟩
    · exact .inr ⟨s, List.mem_cons_self, hsb, hid, hcov.mono hsub⟩
  · rw [List.forall_mem_cons]
    exact ⟨hb, fun s' hs' hb' => (h.braced s' hs' hb').mono hg.subset⟩
  · rw [List.forall_mem_cons]
    exact ⟨hi, h.inline⟩

section
variable {k i : Fin g.size} {f : Field} (hv : g.Visited k) (hr : g.Refers k f i)
  (hlt : i.val < k.val)
include hv hr hlt

theorem spread (h : Registered g T) {fragment : FragmentOutline} (hf : fragment ∈ T)
    (hid : fragment.shapeId = (g.node i).id) (hu : 1 < (g.node i).uses) :
    Traced g k T T [⟨k, f, i, .spread fragment.name, T⟩] := by
  refine site ⟨k, f, i, .spread fragment.name, T⟩ (refl _ h) h (List.prefix_refl _) ⟨hv, hr⟩ hlt
    (.inl ⟨fragment, hf, hid⟩) (fun _ hm => .inl hm) (fun _ => ?_) fun _ => h.spreads hf hid rfl
  rw [Site.SpreadsReused, if_pos hu]
  exact ⟨fragment, hf, hid, rfl⟩

theorem written (h : Traced g i T T' sites) (hc : Covers sites i)
    (hn : ¬ g.HasFragment T i) (hu : g.braces k f = true → ¬ 1 < (g.node i).uses) :
    Traced g k T T' (⟨k, f, i, .written, T⟩ :: sites) := by
  refine site ⟨k, f, i, .written, T⟩ h h.registered (List.prefix_refl _) ⟨hv, hr⟩ hlt (.inr hc)
    (fun _ hm => .inl hm) (fun hb => ?_) fun _ => Site.spreads_of_written rfl hn
  rw [Site.SpreadsReused, if_neg (hu hb)]

/-- The part below a node does not register the node, so it is registered once. -/
theorem register (hg : g.Arranged) (h : Traced g i T T₁ sites) (hc : Covers sites i)
    (hn : ¬ g.HasFragment T i) (hu : 1 < (g.node i).uses) (hb : g.braces k f = true)
    {fragment : FragmentOutline} (hid : fragment.shapeId = (g.node i).id) :
    Traced g k T (T₁ ++ [fragment]) (⟨k, f, i, .spread fragment.name, T⟩ :: sites) := by
  have hn₁ : ¬ g.HasFragment T₁ i := by
    intro hk
    rcases h.hasFragment_or_covers hg hk with hk | ⟨hlt, -⟩
    · exact hn hk
    · exact Nat.lt_irrefl _ hlt
  refine site ⟨k, f, i, .spread fragment.name, T⟩ h (h.registered.snoc hid hu hn₁)
    (List.prefix_append _ _) ⟨hv, hr⟩ hlt (.inr hc) (fun f' hf' => ?_) (fun _ => ?_) fun hb' => ?_
  · refine (List.mem_append.1 hf').imp_right fun hf' => ?_
    obtain rfl := List.mem_singleton.1 hf'
    exact ⟨hb, hid, hc⟩
  · rw [Site.SpreadsReused, if_pos hu]
    exact ⟨fragment, List.mem_concat_self, hid, rfl⟩
  · rw [Site.braced, hb] at hb'
    cases hb'

end

end Traced

/-! ## The walk -/

namespace Graph

theorem refers_of_child? {g : Graph} {k : Fin g.size} {f : Field}
    {i : { i : Fin g.size // i.val < k.val }} (hf : f ∈ (g.node k).fields)
    (hc : g.child? k f = some i) (hu : (g.node k).isUnion = false ∨ f.name ≠ typenameField) :
    g.Refers k f i.val := by
  refine ⟨hf, nested?_of_child? hc, ?_⟩
  rintro ⟨hu', hn⟩
  rcases hu with hu | hu
  · rw [hu] at hu'
    cases hu'
  · exact hu hn

theorem Arranged.not_refers {g : Graph} (hg : g.Arranged) {k : Fin g.size} {f : Field}
    (hf : f ∈ (g.node k).fields) (hc : g.child? k f = none) (i : Fin g.size) :
    ¬ g.Refers k f i := by
  intro hr
  have hn := hg.nested?_eq_none hf hc
  rw [hr.nested] at hn
  cases hn

end Graph

/-- What is proved of a run over one field: its selections show the sites. -/
def FieldTraced (g : Graph) (k : Fin g.size) (f : Field) (T T' : List FragmentOutline)
    (here : List Selection) : Prop :=
  ∃ sites, FieldShows g T k f here T' sites ∧ Traced g k T T' sites ∧ CoversFields sites k [f]

section
variable {g : Graph} {k : Fin g.size} {f : Field} {T T' : List FragmentOutline}

theorem FieldTraced.of_not_refers {here : List Selection} (hn : ∀ i, ¬ g.Refers k f i)
    (hs : FieldShows g T k f here T []) (h : Registered g T) : FieldTraced g k f T T here := by
  refine ⟨[], hs, .refl _ h, fun f' hf' i hr => ?_⟩
  obtain rfl := List.mem_singleton.1 hf'
  exact absurd hr (hn i)

theorem FieldTraced.of_refers {i : Fin g.size} {form : Form} {ss here : List Selection}
    {sites : List (Site g)} (hr : g.Refers k f i) (hs : TargetShows g T i form ss T' sites)
    (hp : Places g k f form ss here) (ht : Traced g k T T' (⟨k, f, i, form, T⟩ :: sites)) :
    FieldTraced g k f T T' here := by
  refine ⟨_, .reference hr hs hp, ht, fun f' hf' j hj => ?_⟩
  obtain rfl := List.mem_singleton.1 hf'
  have hij : i = j := Fin.ext (Option.some.inj (hr.nested.symm.trans hj.nested))
  exact ⟨_, List.mem_cons_self, rfl, rfl, hij⟩

end

namespace Walk

mutual

theorem GroupRun.traced {g : Graph} (hg : g.Arranged) {i : Fin g.size} {w w' : Walk} {gr : Group} :
    GroupRun g i w gr w' → Registered g w.fragments → ∀ {k : Fin g.size} {f : Field},
      g.Visited k → g.Refers k f i → i.val < k.val → g.braces k f = true →
      ∃ form ss sites, gr = form.group ss ∧
        TargetShows g w.fragments i form ss w'.fragments sites ∧
        Traced g k w.fragments w'.fragments (⟨k, f, i, form, w.fragments⟩ :: sites)
  | @GroupRun.spread _ _ _ fragment hf, h, _, _, hv, hr, hlt, _ => by
    obtain ⟨hu, hm, hid⟩ := fragmentOf?_eq_some hf
    exact ⟨.spread fragment.name, _, [], rfl, .spread hm hid, .spread hv hr hlt h hm hid hu⟩
  | .block hf hu hs, h, _, _, hv, hr, hlt, _ => by
    obtain ⟨sites, hsh, ht, hc⟩ := FieldsRun.traced hg hs h (hv.step hr) fun _ hf => hf
    refine ⟨.written, _, sites, rfl, .written hsh, ?_⟩
    exact .written hv hr hlt ht hc (h.not_hasFragment hg hf) fun _ => hu
  | @GroupRun.register _ _ _ _ _ _ name hf hu hs hreg, h, _, _, hv, hr, hlt, hb => by
    obtain ⟨sites, hsh, ht, hc⟩ := FieldsRun.traced hg hs h (hv.step hr) fun _ hf => hf
    obtain ⟨-, hw⟩ := register_ran hreg
    rw [hw]
    refine ⟨.spread name, _, sites, rfl, .registered (f := ⟨_, name, _, _⟩) hsh rfl, ?_⟩
    exact .register hv hr hlt hg ht hc (h.not_hasFragment hg hf) hu hb rfl

theorem FieldsRun.traced {g : Graph} (hg : g.Arranged) {k : Fin g.size} {fs : List Field}
    {w w' : Walk} {ss : List Selection} : FieldsRun g k fs w ss w' → Registered g w.fragments →
      g.Visited k → (∀ f ∈ fs, f ∈ (g.node k).fields) →
      ∃ sites, FieldsShow g w.fragments k fs ss w'.fragments sites ∧
        Traced g k w.fragments w'.fragments sites ∧ CoversFields sites k fs
  | .nil, h, _, _ => ⟨[], .nil, .refl _ h, fun _ hf => (List.not_mem_nil hf).elim⟩
  | .cons hf hs, h, hv, hfs => by
    obtain ⟨sites, hsh, ht, hc⟩ := FieldRun.traced hg hf h hv (hfs _ List.mem_cons_self)
    obtain ⟨sites', hsh', ht', hc'⟩ :=
      FieldsRun.traced hg hs ht.registered hv fun f hf => hfs f (List.mem_cons_of_mem _ hf)
    refine ⟨sites ++ sites', .cons hsh hsh', ht.append hg ht', ?_⟩
    exact (hc.mono (List.subset_append_left _ _)).cons (hc'.mono (List.subset_append_right _ _))

theorem FieldRun.traced {g : Graph} (hg : g.Arranged) {k : Fin g.size} {f : Field} {w w' : Walk}
    {ss : List Selection} : FieldRun g k f w ss w' → Registered g w.fragments → g.Visited k →
      f ∈ (g.node k).fields → FieldTraced g k f w.fragments w'.fragments ss
  | .nothing _ _ hc, h, _, hf => by
    have hn := hg.not_refers hf hc
    exact .of_not_refers hn (.nothing hn) h
  | @FieldRun.spread _ _ _ i _ _ hu hi hc hfr, h, hv, hf => by
    have hr := Graph.refers_of_child? hf hc (.inl hu)
    obtain ⟨hus, hm, hid⟩ := fragmentOf?_eq_some hfr
    exact .of_refers hr (.spread hm hid) (.splice hu hi) (.spread hv hr i.property h hm hid hus)
  | @FieldRun.splice _ _ _ i _ _ _ hu hi hc hfr hs, h, hv, hf => by
    have hr := Graph.refers_of_child? hf hc (.inl hu)
    obtain ⟨sites, hsh, ht, hcov⟩ := FieldsRun.traced hg hs h (hv.step hr) fun _ hf => hf
    refine .of_refers hr (.written hsh) (.splice hu hi) ?_
    refine .written hv hr i.property ht hcov (h.not_hasFragment hg hfr) fun hb => ?_
    rw [Graph.braces, hu, hi] at hb
    cases hb
  | .leaf _ _ hc ha, h, _, hf => by
    have hn := hg.not_refers hf hc
    rw [fragments_arguments ha]
    exact .of_not_refers hn (.leaf hn) h
  | @FieldRun.nested _ _ _ i _ _ _ _ _ hu hi hc ha hgr, h, hv, hf => by
    have hr := Graph.refers_of_child? hf hc (.inl hu)
    have hb : g.braces k f = true := by rw [Graph.braces, hu, hi]; rfl
    rw [← fragments_arguments ha] at h ⊢
    obtain ⟨form, ss, sites, rfl, hsh, ht⟩ := GroupRun.traced hg hgr h hv hr i.property hb
    exact .of_refers hr hsh (.nested hu hi) ht
  | .typename hu hn, h, _, _ => by
    have hn : ∀ i, ¬ g.Refers k f i := fun i hr => hr.notTypename ⟨hu, hn⟩
    exact .of_not_refers hn (.leaf hn) h
  | @FieldRun.branch _ _ _ i _ _ _ _ hu hn hc _ hgr, h, hv, hf => by
    have hr := Graph.refers_of_child? hf hc (.inr hn)
    have hb : g.braces k f = true := by rw [Graph.braces, hu]; rfl
    obtain ⟨form, ss, sites, rfl, hsh, ht⟩ := GroupRun.traced hg hgr h hv hr i.property hb
    exact .of_refers hr hsh (.branch hu) ht

end

end Walk

/-! ## The whole operation -/

/-- How the references of a graph are written in an outline. -/
structure Chosen (g : Graph) (o : Outline) (sites : List (Site g)) : Prop where
  /-- The sites are the references of the visited nodes. -/
  sites_iff : ∀ k f i, (∃ s ∈ sites, s.parent = k ∧ s.field = f ∧ s.target = i) ↔
    g.Visited k ∧ g.Refers k f i
  hasFragment_iff : ∀ i, g.HasFragment o.fragments i ↔ 1 < (g.node i).uses ∧ g.Braced i
  ofNode : ∀ f ∈ o.fragments, ∃ i : Fin g.size, f.shapeId = (g.node i).id
  nodup : (o.fragments.map (·.shapeId)).Nodup
  /-- In braces a node with a fragment is always spread, ... -/
  braced : ∀ s ∈ sites, s.braced = true → s.Spreads o.fragments
  /-- ... and in place of a field only after it has been registered. -/
  inline : ∀ s ∈ sites, s.braced = false → s.Spreads s.earlier
  once : ∀ i : Fin g.size, (g.node i).uses = 1 → ¬ g.HasFragment o.fragments i

/-- When nothing was registered before, the sites cover all that is visited. -/
theorem Traced.covers {g : Graph} {k : Fin g.size} {T' : List FragmentOutline}
    {sites : List (Site g)} (h : Traced g k [] T' sites) (hk : g.root = some k.val)
    (hc : Covers sites k) {i : Fin g.size} (hi : g.Visited i) : Covers sites i := by
  induction hi with
  | @root i hi =>
    rw [hk] at hi
    obtain rfl := Fin.ext (Option.some.inj hi)
    exact hc
  | step _ hr ih =>
    obtain ⟨s, hs, -, -, rfl⟩ := ih _ hr.field _ hr
    rcases h.covered s hs with ⟨f, hf, -⟩ | hcov
    · exact (List.not_mem_nil hf).elim
    · exact hcov

theorem Traced.chosen {g : Graph} (hg : g.Arranged) {k : Fin g.size} {o : Outline}
    {sites : List (Site g)} (h : Traced g k [] o.fragments sites) (hk : g.root = some k.val)
    (hc : Covers sites k) : Chosen g o sites where
  sites_iff i f j := by
    constructor
    · rintro ⟨s, hs, rfl, rfl, rfl⟩
      exact h.visited s hs
    · rintro ⟨hv, hr⟩
      exact h.covers hk hc hv f hr.field j hr
  hasFragment_iff i := by
    constructor
    · intro hi
      refine ⟨h.registered.uses_of_hasFragment hg hi, ?_⟩
      obtain ⟨f, hf, hid⟩ := hi
      rcases h.fresh f hf with hf | ⟨s, hs, hb, hid', -⟩
      · exact (List.not_mem_nil hf).elim
      · obtain rfl := hg.inj s.target i (hid'.symm.trans hid)
        obtain ⟨hv, hr⟩ := h.visited s hs
        exact ⟨s.parent, s.field, hv, hr, hb⟩
    · rintro ⟨hu, p, f, hv, hr, hb⟩
      obtain ⟨s, hs, rfl, rfl, rfl⟩ := h.covers hk hc hv f hr.field i hr
      have hspread := h.braced s hs hb
      rw [Site.SpreadsReused, if_pos hu] at hspread
      obtain ⟨f, hf, hid, -⟩ := hspread
      exact ⟨f, hf, hid⟩
  ofNode f hf := by
    obtain ⟨i, hi, -⟩ := h.registered.reused f hf
    exact ⟨i, hi⟩
  nodup := h.registered.nodup
  braced s hs hb := (h.braced s hs hb).spreads hg h.registered
  inline := h.inline
  once i hu hi := by
    have := h.registered.uses_of_hasFragment hg hi
    omega

/-- The fragments of an operation are its reused nodes that stand in braces, one each, and decide
what is written at every reference. The root is used once, so it is written out. -/
theorem fragments_chosen {κ : Type} [DecidableEq κ] {t : ShapeTable κ} {root : κ} {g : Graph}
    {unit : String} {c : Compiled} (hx : Graph.extract t root = .ok g)
    (hc : g.compile unit = .ok c) :
    ∃ k o ss sites, g.root = some k.val ∧ (g.node k).uses = 1 ∧ Outline.ofGraph g = .ok o ∧
      c = o.print unit ∧ o.root = .block ss ∧
      FieldsShow g [] k (g.node k).fields ss o.fragments sites ∧ Chosen g o sites := by
  have hg := Graph.arranged_extract hx
  obtain ⟨o, ho, rfl⟩ := Graph.outline_of_compile hc
  obtain ⟨k, w, hk, hr, -, hw⟩ := Outline.run_of_ofGraph hg ho
  obtain ⟨_, hu⟩ := hg.root k.val hk
  have hu : (g.node k).uses = 1 := hu
  have hf : Walk.fragmentOf? {} (g.node k) = none := by
    rw [Walk.fragmentOf?, if_neg (by omega)]
  obtain ⟨ss, hroot, hs⟩ : ∃ ss, o.root = .block ss ∧
      Walk.FieldsRun g k (g.node k).fields {} ss w := by
    generalize o.root = group at hr
    cases hr with
    | spread hf' =>
      rw [hf] at hf'
      cases hf'
    | block _ _ hs => exact ⟨_, rfl, hs⟩
    | register _ hu' => omega
  obtain ⟨sites, hsh, ht, hcov⟩ := hs.traced hg (Registered.nil g) (.root hk) fun _ hf => hf
  rw [← hw] at hsh ht
  exact ⟨k, o, ss, sites, hk, hu, ho, rfl, hroot, hsh, ht.chosen hg hk hcov⟩

theorem fragments_chosen_page : Graph.extract pageTable "page" = .ok pageGraph ∧
    pageGraph.compile "\t" = .ok pageCompiled ∧
    ∃ k o ss sites, pageGraph.root = some k.val ∧ (pageGraph.node k).uses = 1 ∧
      Outline.ofGraph pageGraph = .ok o ∧ pageCompiled = o.print "\t" ∧ o.root = .block ss ∧
      FieldsShow pageGraph [] k (pageGraph.node k).fields ss o.fragments sites ∧
      Chosen pageGraph o sites :=
  ⟨extract_page, compile_pageGraph, fragments_chosen extract_page compile_pageGraph⟩

end QueryShape
