import QueryShape.Proofs.FragmentChoice
import QueryShape.Proofs.FragmentFree
import QueryShape.Proofs.ReferenceCount

/-!
# What stands in braces

A shape whose fields are all inline and lead to nothing that is shown is `Graph.Hollow`. It has fields,
so it has a node, and yet nothing stands between its braces. These are the only empty braces: an
operation has none just when neither its root nor a node that stands in braces somewhere is hollow
(`nonempty_braces_iff`).

The braces of an outline and those of the selections without fragments go with each other
(`Expands.full`, `Expands.brace`, `Walk.GroupRun.placed`), and the latter are the root and the nodes in
braces (`Graph.Arranged.mem_braces_plain`, `Graph.Arranged.braced_mem`).
-/

set_option autoImplicit false

namespace QueryShape

/-! ## Braces of selections -/

mutual

/-- What stands in the braces of a selection, one list for each pair of them. -/
def Selection.braces : Selection → List (List Selection)
  | .leaf _ _ => []
  | .nested _ _ group => group.braces
  | .branch _ group => group.braces
  | .spread _ => []

def Group.braces : Group → List (List Selection)
  | .block selections => selections :: Selection.bracesOfList selections
  | .spread fragment => [[.spread fragment]]

def Selection.bracesOfList : List Selection → List (List Selection)
  | [] => []
  | s :: ss => s.braces ++ Selection.bracesOfList ss

end

/-- What stands in the braces of the root and of the fragments. -/
def Outline.braces (o : Outline) : List (List Selection) :=
  o.root.braces ++ o.fragments.flatMap fun f => (Group.block f.selections).braces

theorem Group.braces_eq (group : Group) :
    group.braces = group.selections :: Selection.bracesOfList group.selections := by
  cases group <;> rfl

mutual

def PlainSelection.braces : PlainSelection → List (List PlainSelection)
  | .leaf _ _ => []
  | .nested _ _ selections => selections :: PlainSelection.bracesOfList selections
  | .branch _ selections => selections :: PlainSelection.bracesOfList selections

def PlainSelection.bracesOfList : List PlainSelection → List (List PlainSelection)
  | [] => []
  | t :: ts => t.braces ++ PlainSelection.bracesOfList ts

end

namespace PlainSelection

theorem bracesOfList_append (ts us : List PlainSelection) :
    bracesOfList (ts ++ us) = bracesOfList ts ++ bracesOfList us := by
  induction ts with
  | nil => rfl
  | cons t ts ih => simp only [List.cons_append, bracesOfList, ih, List.append_assoc]

theorem subset_cons_braces {us b : List PlainSelection}
    (h : b ∈ bracesOfList us → bracesOfList b ⊆ bracesOfList us) (hb : b ∈ us :: bracesOfList us) :
    bracesOfList b ⊆ us :: bracesOfList us := by
  refine List.subset_cons_of_subset us ?_
  rcases List.mem_cons.1 hb with rfl | hb
  · exact List.Subset.refl _
  · exact h hb

mutual

/-- Braces in braces. -/
theorem subset_braces {b : List PlainSelection} :
    (t : PlainSelection) → b ∈ t.braces → bracesOfList b ⊆ t.braces
  | .leaf _ _, hb => (List.not_mem_nil hb).elim
  | .nested _ _ us, hb => by
    rw [braces] at hb ⊢
    exact subset_cons_braces (subset_bracesOfList us) hb
  | .branch _ us, hb => by
    rw [braces] at hb ⊢
    exact subset_cons_braces (subset_bracesOfList us) hb

theorem subset_bracesOfList {b : List PlainSelection} :
    (ts : List PlainSelection) → b ∈ bracesOfList ts → bracesOfList b ⊆ bracesOfList ts
  | [], hb => (List.not_mem_nil hb).elim
  | t :: ts, hb => by
    rw [bracesOfList] at hb ⊢
    rcases List.mem_append.1 hb with hb | hb
    · exact List.Subset.trans (subset_braces t hb) (List.subset_append_left _ _)
    · exact List.Subset.trans (subset_bracesOfList ts hb) (List.subset_append_right _ _)

end

end PlainSelection

namespace Expands

variable {table : List FragmentOutline} {ss : List Selection} {ts : List PlainSelection}

/-- Where no braces are empty before spreads are replaced, none are empty after it. -/
theorem full (ht : ∀ f ∈ table, ∀ b ∈ (Group.block f.selections).braces, b ≠ [])
    (h : Expands table ss ts) (hs : ∀ b ∈ Selection.bracesOfList ss, b ≠ []) :
    (ss ≠ [] → ts ≠ []) ∧ ∀ b ∈ PlainSelection.bracesOfList ts, b ≠ [] := by
  -- a group in braces and the selections after it
  have hgroup : ∀ {group : Group} {ss : List Selection} {us ts : List PlainSelection},
      (∀ b ∈ group.braces ++ Selection.bracesOfList ss, b ≠ []) →
      ((∀ b ∈ Selection.bracesOfList group.selections, b ≠ []) →
        (group.selections ≠ [] → us ≠ []) ∧ ∀ b ∈ PlainSelection.bracesOfList us, b ≠ []) →
      ((∀ b ∈ Selection.bracesOfList ss, b ≠ []) →
        (ss ≠ [] → ts ≠ []) ∧ ∀ b ∈ PlainSelection.bracesOfList ts, b ≠ []) →
      ∀ b ∈ us :: PlainSelection.bracesOfList us ++ PlainSelection.bracesOfList ts, b ≠ [] := by
    intro group ss us ts hs ihg ih
    rw [Group.braces_eq, List.forall_mem_append, List.forall_mem_cons] at hs
    obtain ⟨⟨hne, hin⟩, hrest⟩ := hs
    rw [List.forall_mem_append, List.forall_mem_cons]
    exact ⟨⟨(ihg hin).1 hne, (ihg hin).2⟩, (ih hrest).2⟩
  induction h with
  | nil => exact ⟨fun h => absurd rfl h, fun b hb => (List.not_mem_nil hb).elim⟩
  | leaf _ ih => exact ⟨fun _ => List.cons_ne_nil _ _, (ih hs).2⟩
  | nested _ _ ihg ih => exact ⟨fun _ => List.cons_ne_nil _ _, hgroup hs ihg ih⟩
  | branch _ _ ihg ih => exact ⟨fun _ => List.cons_ne_nil _ _, hgroup hs ihg ih⟩
  | @spread f ss us ts hf _ _ ihf ih =>
    have hf := ht f hf
    rw [Group.braces, List.forall_mem_cons] at hf
    obtain ⟨hus, hin⟩ := ihf hf.2
    refine ⟨fun _ => ?_, ?_⟩
    · exact List.append_ne_nil_of_left_ne_nil (hus hf.1) ts
    · rw [PlainSelection.bracesOfList_append, List.forall_mem_append]
      exact ⟨hin, (ih hs).2⟩

/-- What stands in braces expands to what stands in braces. -/
theorem brace (h : Expands table ss ts) {b : List Selection}
    (hb : b ∈ Selection.bracesOfList ss) :
    ∃ us ∈ PlainSelection.bracesOfList ts, Expands table b us := by
  have hgroup : ∀ {group : Group} {ss : List Selection} {us ts : List PlainSelection},
      b ∈ group.braces ++ Selection.bracesOfList ss → Expands table group.selections us →
      (b ∈ Selection.bracesOfList group.selections →
        ∃ vs ∈ PlainSelection.bracesOfList us, Expands table b vs) →
      (b ∈ Selection.bracesOfList ss →
        ∃ vs ∈ PlainSelection.bracesOfList ts, Expands table b vs) →
      ∃ vs ∈ us :: PlainSelection.bracesOfList us ++ PlainSelection.bracesOfList ts,
        Expands table b vs := by
    intro group ss us ts hb hg ihg ih
    rw [Group.braces_eq, List.cons_append, List.mem_cons, List.mem_append] at hb
    rcases hb with rfl | hb | hb
    · exact ⟨us, List.mem_cons_self, hg⟩
    · obtain ⟨vs, hvs, hb⟩ := ihg hb
      exact ⟨vs, List.mem_append_left _ (List.mem_cons_of_mem _ hvs), hb⟩
    · obtain ⟨vs, hvs, hb⟩ := ih hb
      exact ⟨vs, List.mem_append_right _ hvs, hb⟩
  induction h with
  | nil => exact (List.not_mem_nil hb).elim
  | leaf _ ih => exact ih hb
  | nested hg _ ihg ih => exact hgroup hb hg ihg ih
  | branch hg _ ihg ih => exact hgroup hb hg ihg ih
  | spread _ _ _ _ ih =>
    obtain ⟨us, hus, hb⟩ := ih hb
    rw [PlainSelection.bracesOfList_append]
    exact ⟨us, List.mem_append_right _ hus, hb⟩

end Expands

/-! ## Named branches -/

namespace Graph

/-- If node `k` is a union and `f` no discriminator, then `f` refers to a node with a name. -/
def BranchNamed (g : Graph) (k : Fin g.size) (f : Field) : Prop :=
  (g.node k).isUnion = true → f.name ≠ typenameField →
    ∃ (i : Fin g.size) (type : String), f.kind.nested? = some i.val ∧ (g.node i).name = some type

/-- In node `k` and below it every member of a union has a name. -/
inductive Named (g : Graph) : Fin g.size → Prop
  | mk {k : Fin g.size} : (∀ f ∈ (g.node k).fields, g.BranchNamed k f) →
      (∀ f i, g.Refers k f i → Named g i) → Named g k

/-- A shape of inline fields only, each of which leads to nothing or to another such shape. -/
inductive Hollow (g : Graph) : Fin g.size → Prop
  | mk {k : Fin g.size} : (g.node k).isUnion = false →
      (∀ f ∈ (g.node k).fields, f.kind.isInline = true) →
      (∀ f ∈ (g.node k).fields, ∀ i : Fin g.size, f.kind.nested? = some i.val → Hollow g i) →
      Hollow g k

end Graph

/-- The nodes that have fragments are known to be `Named`. -/
def NamedFragments (g : Graph) (table : List FragmentOutline) : Prop :=
  ∀ f ∈ table, ∀ i : Fin g.size, f.shapeId = (g.node i).id → g.Named i

theorem NamedFragments.snoc {g : Graph} (hg : g.Arranged) {table : List FragmentOutline}
    {f : FragmentOutline} {k : Fin g.size} (h : NamedFragments g table)
    (hid : f.shapeId = (g.node k).id) (hk : g.Named k) : NamedFragments g (table ++ [f]) := by
  intro f' hf' i hi
  rcases List.mem_append.1 hf' with hf' | hf'
  · exact h f' hf' i hi
  · obtain rfl := List.mem_singleton.1 hf'
    obtain rfl := hg.inj k i (hid.symm.trans hi)
    exact hk

namespace Walk

/-- What a run over field `f` of node `k` shows. -/
def FieldNamed (g : Graph) (k : Fin g.size) (f : Field) : Prop :=
  g.BranchNamed k f ∧ ∀ i, g.Refers k f i → g.Named i

theorem FieldNamed.of_not_refers {g : Graph} {k : Fin g.size} {f : Field}
    (hu : (g.node k).isUnion = false ∨ f.name = typenameField) (hn : ∀ i, ¬ g.Refers k f i) :
    FieldNamed g k f := by
  refine ⟨fun hu' hf => ?_, fun i hr => absurd hr (hn i)⟩
  rcases hu with hu | hu
  · rw [hu] at hu'
    cases hu'
  · exact absurd hu hf

theorem FieldNamed.of_refers {g : Graph} {k i : Fin g.size} {f : Field} (hr : g.Refers k f i)
    (hi : g.Named i) (ht : (g.node k).isUnion = true → ∃ type, (g.node i).name = some type) :
    FieldNamed g k f := by
  refine ⟨fun hu _ => ?_, fun j hj => ?_⟩
  · obtain ⟨type, ht⟩ := ht hu
    exact ⟨i, type, hr.nested, ht⟩
  · obtain rfl : i = j := Fin.ext (Option.some.inj (hr.nested.symm.trans hj.nested))
    exact hi

theorem named_of_fields {g : Graph} {k : Fin g.size}
    (h : ∀ f ∈ (g.node k).fields, FieldNamed g k f) : g.Named k :=
  .mk (fun f hf => (h f hf).1) fun f i hr => (h f hr.field).2 i hr

mutual

theorem GroupRun.named {g : Graph} (hg : g.Arranged) {k : Fin g.size} {w w' : Walk} {gr : Group} :
    GroupRun g k w gr w' → NamedFragments g w.fragments →
      NamedFragments g w'.fragments ∧ g.Named k
  | .spread hf, ht => by
    obtain ⟨-, hm, hid⟩ := fragmentOf?_eq_some hf
    exact ⟨ht, ht _ hm k hid⟩
  | .block _ _ h, ht => by
    obtain ⟨ht', hs⟩ := FieldsRun.named hg h ht fun _ hf => hf
    exact ⟨ht', named_of_fields hs⟩
  | .register _ _ h hr, ht => by
    obtain ⟨-, hw⟩ := register_ran hr
    obtain ⟨ht', hs⟩ := FieldsRun.named hg h ht fun _ hf => hf
    rw [hw]
    exact ⟨ht'.snoc hg rfl (named_of_fields hs), named_of_fields hs⟩

theorem FieldsRun.named {g : Graph} (hg : g.Arranged) {k : Fin g.size} {fs : List Field}
    {w w' : Walk} {selections : List Selection} : FieldsRun g k fs w selections w' →
      NamedFragments g w.fragments → (∀ f ∈ fs, f ∈ (g.node k).fields) →
      NamedFragments g w'.fragments ∧ ∀ f ∈ fs, FieldNamed g k f
  | .nil, ht, _ => ⟨ht, fun _ hf => (List.not_mem_nil hf).elim⟩
  | .cons h hs, ht, hfs => by
    rw [List.forall_mem_cons] at hfs ⊢
    obtain ⟨ht₁, h₁⟩ := FieldRun.named hg h ht hfs.1
    obtain ⟨ht₂, h₂⟩ := FieldsRun.named hg hs ht₁ hfs.2
    exact ⟨ht₂, h₁, h₂⟩

theorem FieldRun.named {g : Graph} (hg : g.Arranged) {k : Fin g.size} {f : Field} {w w' : Walk}
    {selections : List Selection} : FieldRun g k f w selections w' →
      NamedFragments g w.fragments → f ∈ (g.node k).fields →
      NamedFragments g w'.fragments ∧ FieldNamed g k f
  | .nothing hu _ hc, ht, hf => ⟨ht, .of_not_refers (.inl hu) (hg.not_refers hf hc)⟩
  | .spread hu _ hc hfr, ht, hf => by
    obtain ⟨-, hm, hid⟩ := fragmentOf?_eq_some hfr
    have hr := Graph.refers_of_child? hf hc (.inl hu)
    exact ⟨ht, .of_refers hr (ht _ hm _ hid) fun hu' => by rw [hu] at hu'; cases hu'⟩
  | .splice hu _ hc _ h, ht, hf => by
    obtain ⟨ht', hs⟩ := FieldsRun.named hg h ht fun _ hf => hf
    have hr := Graph.refers_of_child? hf hc (.inl hu)
    exact ⟨ht', .of_refers hr (named_of_fields hs) fun hu' => by rw [hu] at hu'; cases hu'⟩
  | .leaf hu _ hc ha, ht, hf => by
    rw [fragments_arguments ha]
    exact ⟨ht, .of_not_refers (.inl hu) (hg.not_refers hf hc)⟩
  | .nested hu _ hc ha h, ht, hf => by
    rw [← fragments_arguments ha] at ht
    obtain ⟨ht', hi⟩ := GroupRun.named hg h ht
    have hr := Graph.refers_of_child? hf hc (.inl hu)
    exact ⟨ht', .of_refers hr hi fun hu' => by rw [hu] at hu'; cases hu'⟩
  | .typename hu hn, ht, _ => by
    exact ⟨ht, .of_not_refers (.inr hn) fun i hr => hr.notTypename ⟨hu, hn⟩⟩
  | .branch _ hn hc hty h, ht, hf => by
    obtain ⟨ht', hi⟩ := GroupRun.named hg h ht
    exact ⟨ht', .of_refers (Graph.refers_of_child? hf hc (.inr hn)) hi fun _ => ⟨_, hty⟩⟩

end

end Walk

/-! ## Braces of nodes -/

namespace Graph

variable {g : Graph} {k i : Fin g.size} {f : Field}

theorem mem_bracesOfList_plainFields {fs : List Field} {b : List PlainSelection} :
    b ∈ PlainSelection.bracesOfList (g.plainFields k fs) ↔
      ∃ f ∈ fs, b ∈ PlainSelection.bracesOfList (g.plainField k f) := by
  induction fs with
  | nil => simp [plainFields, FieldTree.selectionsOf, PlainSelection.bracesOfList]
  | cons f fs ih =>
    rw [plainFields_cons, PlainSelection.bracesOfList_append, List.mem_append, ih]
    simp

/-- The braces of a field that refers to node `i`. -/
theorem Arranged.bracesOfList_plainField (hg : g.Arranged) (hb : g.BranchNamed k f)
    (hr : g.Refers k f i) : PlainSelection.bracesOfList (g.plainField k f) =
      if g.braces k f then g.plain i :: PlainSelection.bracesOfList (g.plain i)
      else PlainSelection.bracesOfList (g.plain i) := by
  cases hu : (g.node k).isUnion with
  | true =>
    have hn : f.name ≠ typenameField := fun hn => hr.notTypename ⟨hu, hn⟩
    obtain ⟨j, type, hj, ht⟩ := hb hu hn
    obtain rfl : i = j := Fin.ext (Option.some.inj (hr.nested.symm.trans hj))
    rw [hg.plainField_branch hu hn hj ht]
    simp [braces, hu, PlainSelection.bracesOfList, PlainSelection.braces]
  | false =>
    rw [hg.plainField_of_some hu hr.nested]
    cases hi : f.kind.isInline with
    | true => simp [braces, hu, hi]
    | false => simp [braces, hu, hi, PlainSelection.bracesOfList, PlainSelection.braces]

theorem Arranged.bracesOfList_plainField_of_not_refers (hg : g.Arranged) (hb : g.BranchNamed k f)
    (hf : f ∈ (g.node k).fields) (hr : ∀ i, ¬ g.Refers k f i) :
    PlainSelection.bracesOfList (g.plainField k f) = [] := by
  by_cases hn : (g.node k).isUnion = true ∧ f.name = typenameField
  · rw [plainField_typename hn.1 hn.2]
    rfl
  · have hnone : f.kind.nested? = none := by
      cases hi : f.kind.nested? with
      | none => rfl
      | some i =>
        have hlt := hg.below k f i hf hi
        exact absurd ⟨hf, hi, hn⟩ (hr ⟨i, Nat.lt_trans hlt k.isLt⟩)
    cases hu : (g.node k).isUnion with
    | true =>
      obtain ⟨i, _, hi, -⟩ := hb hu fun h => hn ⟨hu, h⟩
      rw [hnone] at hi
      cases hi
    | false =>
      rw [plainField_of_none hu hnone]
      cases f.kind.isInline <;> rfl

/-- What stands in braces below a visited node is a node that stands in braces. -/
theorem Arranged.mem_braces_plain (hg : g.Arranged) (hk : g.Named k) (hv : g.Visited k)
    {b : List PlainSelection} (hb : b ∈ PlainSelection.bracesOfList (g.plain k)) :
    ∃ i, g.Braced i ∧ b = g.plain i := by
  induction hk with
  | @mk k hnamed _ ih =>
    obtain ⟨f, hf, hb⟩ := mem_bracesOfList_plainFields.1 hb
    by_cases hr : ∃ i, g.Refers k f i
    · obtain ⟨i, hr⟩ := hr
      rw [hg.bracesOfList_plainField (hnamed f hf) hr] at hb
      split at hb
      · rename_i hbr
        rcases List.mem_cons.1 hb with rfl | hb
        · exact ⟨i, ⟨k, f, hv, hr, hbr⟩, rfl⟩
        · exact ih f i hr (hv.step hr) hb
      · exact ih f i hr (hv.step hr) hb
    · rw [hg.bracesOfList_plainField_of_not_refers (hnamed f hf) hf fun i hi => hr ⟨i, hi⟩] at hb
      exact (List.not_mem_nil hb).elim

theorem Named.branchNamed (hk : g.Named k) (hf : f ∈ (g.node k).fields) : g.BranchNamed k f := by
  cases hk with
  | mk h _ => exact h f hf

theorem Named.step (hk : g.Named k) (hr : g.Refers k f i) : g.Named i := by
  cases hk with
  | mk _ h => exact h f i hr

/-- The braces below a node that is referred to are among those of the node that refers to it. -/
theorem Arranged.braces_subset (hg : g.Arranged) (hk : g.Named k) (hr : g.Refers k f i) :
    PlainSelection.bracesOfList (g.plain i) ⊆ PlainSelection.bracesOfList (g.plain k) ∧
      (g.braces k f = true → g.plain i ∈ PlainSelection.bracesOfList (g.plain k)) := by
  have hb := hg.bracesOfList_plainField (hk.branchNamed hr.field) hr
  have hmem : ∀ b ∈ PlainSelection.bracesOfList (g.plainField k f),
      b ∈ PlainSelection.bracesOfList (g.plain k) :=
    fun b hb => mem_bracesOfList_plainFields.2 ⟨f, hr.field, hb⟩
  rw [hb] at hmem
  split at hmem
  · exact ⟨fun b hb => hmem b (List.mem_cons_of_mem _ hb), fun _ => hmem _ List.mem_cons_self⟩
  · rename_i hbr
    exact ⟨hmem, fun h => absurd h hbr⟩

theorem Arranged.visited_braces_subset (hg : g.Arranged) {r : Fin g.size} (hroot : g.root = some r.val)
    (hr : g.Named r) (hv : g.Visited k) :
    g.Named k ∧ PlainSelection.bracesOfList (g.plain k) ⊆ PlainSelection.bracesOfList (g.plain r) := by
  induction hv with
  | @root k hk =>
    obtain rfl : r = k := Fin.ext (Option.some.inj (hroot.symm.trans hk))
    exact ⟨hr, List.Subset.refl _⟩
  | step _ href ih =>
    obtain ⟨hk, hsub⟩ := ih
    exact ⟨hk.step href, List.Subset.trans (hg.braces_subset hk href).1 hsub⟩

theorem Arranged.braced_mem (hg : g.Arranged) {r : Fin g.size} (hroot : g.root = some r.val)
    (hr : g.Named r) (hi : g.Braced i) : g.plain i ∈ PlainSelection.bracesOfList (g.plain r) := by
  obtain ⟨k, f, hv, href, hb⟩ := hi
  obtain ⟨hk, hsub⟩ := hg.visited_braces_subset hroot hr hv
  exact hsub ((hg.braces_subset hk href).2 hb)

theorem plainFields_eq_nil {fs : List Field} :
    g.plainFields k fs = [] ↔ ∀ f ∈ fs, g.plainField k f = [] := by
  induction fs with
  | nil => simp [plainFields, FieldTree.selectionsOf]
  | cons f fs ih => simp [plainFields_cons, ih]

theorem Arranged.plainField_eq_nil (hg : g.Arranged) (hu : (g.node k).isUnion = false)
    (hf : f ∈ (g.node k).fields) : g.plainField k f = [] ↔
      f.kind.isInline = true ∧ ∀ i : Fin g.size, f.kind.nested? = some i.val → g.plain i = [] := by
  cases hn : f.kind.nested? with
  | none =>
    rw [plainField_of_none hu hn]
    cases f.kind.isInline <;> simp
  | some n =>
    have hlt := hg.below k f n hf hn
    rw [hg.plainField_of_some (i := ⟨n, Nat.lt_trans hlt k.isLt⟩) hu hn]
    cases f.kind.isInline with
    | false => simp
    | true =>
      simp only [if_true, true_and]
      constructor
      · intro h i hi
        obtain rfl : n = i.val := Option.some.inj hi
        exact h
      · intro h
        exact h _ rfl

/-- Hollow nodes are those that show nothing. -/
theorem Arranged.plain_eq_nil (hg : g.Arranged) (hne : ∀ k : Fin g.size, (g.node k).fields ≠ [])
    (hk : g.Named k) : g.plain k = [] ↔ g.Hollow k := by
  induction hk with
  | @mk k hnamed _ ih =>
    rw [plain, plainFields_eq_nil]
    cases hu : (g.node k).isUnion with
    | true =>
      -- a union shows its discriminator, or a branch for a member
      constructor
      · intro h
        obtain ⟨f, hf⟩ := List.exists_mem_of_ne_nil _ (hne k)
        have hnil := h f hf
        by_cases hn : f.name = typenameField
        · rw [plainField_typename hu hn] at hnil
          cases hnil
        · obtain ⟨i, type, hi, ht⟩ := hnamed f hf hu hn
          rw [hg.plainField_branch hu hn hi ht] at hnil
          cases hnil
      · rintro ⟨hu', -, -⟩
        rw [hu] at hu'
        cases hu'
    | false =>
      have hih : ∀ f ∈ (g.node k).fields, ∀ i : Fin g.size, f.kind.nested? = some i.val →
          (g.plain i = [] ↔ g.Hollow i) := by
        intro f hf i hi
        refine ih f i ⟨hf, hi, fun h => ?_⟩
        rw [hu] at h
        cases h.1
      constructor
      · intro h
        refine .mk hu (fun f hf => ?_) fun f hf i hi => ?_
        · exact ((hg.plainField_eq_nil hu hf).1 (h f hf)).1
        · exact (hih f hf i hi).1 (((hg.plainField_eq_nil hu hf).1 (h f hf)).2 i hi)
      · rintro ⟨-, hin, hhollow⟩ f hf
        rw [hg.plainField_eq_nil hu hf]
        exact ⟨hin f hf, fun i hi => (hih f hf i hi).2 (hhollow f hf i hi)⟩

end Graph

/-! ## Fragments in braces -/

/-- The fragments of `T'` that are not in `T` expand to what stands in one of the braces. -/
def Placed (T T' : List FragmentOutline) (braces : List (List PlainSelection)) : Prop :=
  ∀ f ∈ T', f ∈ T ∨ ∃ b ∈ braces, Expands T' f.selections b

namespace Placed

variable {T T₁ T' : List FragmentOutline} {bs bs' : List (List PlainSelection)}

theorem refl (T : List FragmentOutline) (bs : List (List PlainSelection)) : Placed T T bs :=
  fun _ hf => .inl hf

theorem mono (h : Placed T T' bs) (hb : bs ⊆ bs') : Placed T T' bs' := by
  intro f hf
  refine (h f hf).imp_right ?_
  rintro ⟨b, hm, he⟩
  exact ⟨b, hb hm, he⟩

theorem trans (h₁ : Placed T T₁ bs) (h₂ : Placed T₁ T' bs') (hg : T₁ ⊆ T') :
    Placed T T' (bs ++ bs') := by
  intro f hf
  rcases h₂ f hf with hf | ⟨b, hm, he⟩
  · refine (h₁ f hf).imp_right ?_
    rintro ⟨b, hm, he⟩
    exact ⟨b, List.mem_append_left _ hm, he.mono hg⟩
  · exact .inr ⟨b, List.mem_append_right _ hm, he⟩

end Placed

namespace Walk

mutual

theorem GroupRun.placed {g : Graph} (hg : g.Arranged) {k : Fin g.size} {w w' : Walk} {gr : Group} :
    GroupRun g k w gr w' → Faithful g w.fragments →
      Placed w.fragments w'.fragments (g.plain k :: PlainSelection.bracesOfList (g.plain k))
  | .spread _, _ => .refl _ _
  | .block _ _ h, ht =>
    (FieldsRun.placed hg h ht fun _ hf => hf).mono (List.subset_cons_self _ _)
  | .register _ _ h hr, ht => by
    obtain ⟨-, hw⟩ := register_ran hr
    obtain ⟨-, hs⟩ := FieldsRun.expands hg h ht fun _ hf => hf
    have hp := FieldsRun.placed hg h ht fun _ hf => hf
    rw [hw]
    intro f hf
    rcases List.mem_append.1 hf with hf | hf
    · refine (hp f hf).imp_right ?_
      rintro ⟨b, hm, he⟩
      exact ⟨b, List.mem_cons_of_mem _ hm, he.mono (List.subset_append_left _ _)⟩
    · obtain rfl := List.mem_singleton.1 hf
      exact .inr ⟨_, List.mem_cons_self, hs.mono (List.subset_append_left _ _)⟩

theorem FieldsRun.placed {g : Graph} (hg : g.Arranged) {k : Fin g.size} {fs : List Field}
    {w w' : Walk} {selections : List Selection} : FieldsRun g k fs w selections w' →
      Faithful g w.fragments → (∀ f ∈ fs, f ∈ (g.node k).fields) →
      Placed w.fragments w'.fragments (PlainSelection.bracesOfList (g.plainFields k fs))
  | .nil, _, _ => .refl _ _
  | .cons h hs, ht, hfs => by
    rw [List.forall_mem_cons] at hfs
    obtain ⟨ht₁, -⟩ := FieldRun.expands hg h ht hfs.1
    have h₁ := FieldRun.placed hg h ht hfs.1
    have h₂ := FieldsRun.placed hg hs ht₁ hfs.2
    rw [Graph.plainFields_cons, PlainSelection.bracesOfList_append]
    exact h₁.trans h₂ hs.fragments_prefix.subset

theorem FieldRun.placed {g : Graph} (hg : g.Arranged) {k : Fin g.size} {f : Field} {w w' : Walk}
    {selections : List Selection} : FieldRun g k f w selections w' → Faithful g w.fragments →
      f ∈ (g.node k).fields →
      Placed w.fragments w'.fragments (PlainSelection.bracesOfList (g.plainField k f))
  | .nothing .., _, _ => .refl _ _
  | .spread .., _, _ => .refl _ _
  | .splice hu hi hc _ h, ht, _ => by
    rw [hg.plainField_of_some hu (Graph.nested?_of_child? hc), if_pos hi]
    exact FieldsRun.placed hg h ht fun _ hf => hf
  | .leaf _ _ _ ha, _, _ => by
    rw [fragments_arguments ha]
    exact .refl _ _
  | .nested hu hi hc ha h, ht, _ => by
    rw [← fragments_arguments ha] at ht ⊢
    rw [hg.plainField_of_some hu (Graph.nested?_of_child? hc), hi, if_neg Bool.false_ne_true]
    exact (GroupRun.placed hg h ht).mono (List.subset_append_left _ _)
  | .typename .., _, _ => .refl _ _
  | .branch hu hn hc hty h, ht, _ => by
    rw [hg.plainField_branch hu hn (Graph.nested?_of_child? hc) hty]
    exact (GroupRun.placed hg h ht).mono (List.subset_append_left _ _)

end

end Walk

/-! ## The whole operation -/

theorem Graph.fields_ne_nil {κ : Type} [DecidableEq κ] {t : ShapeTable κ} {root : κ} {g : Graph}
    (h : Graph.extract t root = .ok g) (k : Fin g.size) : (g.node k).fields ≠ [] := by
  cases hf : t.find? root with
  | none =>
    cases (Extraction.extract_missing hf).symm.trans h
    exact k.elim0
  | some s =>
    obtain ⟨st, hv, hn⟩ := Extraction.visits_of_extract hf h
    obtain ⟨nodes, r⟩ := g
    subst hn
    exact ((hv.adds .initial r rfl).counted [] .initial).fields k.val _ (Graph.node_eq k)

section
variable {o : Outline} {ts : List PlainSelection}
  (hs : Expands o.fragments o.root.selections ts)
include hs

/-- All that stands in braces of an outline expands to what stands in braces without fragments. -/
theorem Outline.expands_brace (hp : Placed [] o.fragments (ts :: PlainSelection.bracesOfList ts))
    {b : List Selection} (hb : b ∈ o.braces) :
    ∃ us ∈ ts :: PlainSelection.bracesOfList ts, Expands o.fragments b us := by
  rcases List.mem_append.1 hb with hb | hb
  · rw [Group.braces_eq] at hb
    rcases List.mem_cons.1 hb with rfl | hb
    · exact ⟨ts, List.mem_cons_self, hs⟩
    · obtain ⟨us, hus, he⟩ := hs.brace hb
      exact ⟨us, List.mem_cons_of_mem _ hus, he⟩
  · obtain ⟨f, hf, hb⟩ := List.mem_flatMap.1 hb
    obtain ⟨us, hus, he⟩ := (hp f hf).resolve_left List.not_mem_nil
    rcases List.mem_cons.1 hb with rfl | hb
    · exact ⟨us, hus, he⟩
    · obtain ⟨vs, hvs, he'⟩ := he.brace hb
      -- braces in braces of the root
      refine ⟨vs, List.mem_cons_of_mem _ ?_, he'⟩
      rcases List.mem_cons.1 hus with rfl | hus
      · exact hvs
      · exact PlainSelection.subset_bracesOfList ts hus hvs

theorem Outline.full (hb : ∀ b ∈ o.braces, b ≠ []) :
    ∀ us ∈ ts :: PlainSelection.bracesOfList ts, us ≠ [] := by
  rw [Outline.braces, Group.braces_eq, List.forall_mem_append, List.forall_mem_cons] at hb
  obtain ⟨⟨hne, hroot⟩, hfragments⟩ := hb
  have hts := hs.full (fun f hf b hb => hfragments b (List.mem_flatMap.2 ⟨f, hf, hb⟩)) hroot
  rw [List.forall_mem_cons]
  exact ⟨hts.1 hne, hts.2⟩

end

/-- Something stands in all braces just if no hollow shape stands in braces. -/
theorem nonempty_braces_iff {κ : Type} [DecidableEq κ] {t : ShapeTable κ} {root : Option κ}
    {unit : String} {c : Compiled} (h : t.compile unit root = .ok c) :
    ∃ key g o, root = some key ∧ Graph.extract t key = .ok g ∧ Outline.ofGraph g = .ok o ∧
      c = o.print unit ∧
      ((∀ b ∈ o.braces, b ≠ []) ↔
        ∀ i : Fin g.size, g.root = some i.val ∨ g.Braced i → ¬ g.Hollow i) := by
  obtain ⟨key, g, rfl, hx, hc⟩ := ShapeTable.graph_of_compile h
  obtain ⟨o, ho, rfl⟩ := Graph.outline_of_compile hc
  refine ⟨key, g, o, rfl, hx, ho, rfl, ?_⟩
  have hg := Graph.arranged_extract hx
  have hne := Graph.fields_ne_nil hx
  obtain ⟨k, w, hk, hr, -, hw⟩ := Outline.run_of_ofGraph hg ho
  obtain ⟨-, hs⟩ := hr.expands hg (Faithful.nil g)
  have hp := hr.placed hg (Faithful.nil g)
  obtain ⟨-, hn⟩ := hr.named hg fun _ hf => (List.not_mem_nil hf).elim
  rw [← hw] at hs hp
  have hnamed : ∀ i : Fin g.size, g.root = some i.val ∨ g.Braced i → g.Named i := by
    rintro i (hi | ⟨j, f, hv, hf, -⟩)
    · exact (hg.visited_braces_subset hk hn (.root hi)).1
    · exact (hg.visited_braces_subset hk hn (hv.step hf)).1
  constructor
  · intro hb i hi hhollow
    refine Outline.full hs hb (g.plain i) ?_ ((hg.plain_eq_nil hne (hnamed i hi)).2 hhollow)
    rcases hi with hi | hi
    · obtain rfl : k = i := Fin.ext (Option.some.inj (hk.symm.trans hi))
      exact List.mem_cons_self
    · exact List.mem_cons_of_mem _ (hg.braced_mem hk hn hi)
  · rintro hhollow b hb rfl
    obtain ⟨us, hus, he⟩ := Outline.expands_brace hs hp hb
    cases he
    obtain ⟨i, hi, hnil⟩ : ∃ i, (g.root = some i.val ∨ g.Braced i) ∧ [] = g.plain i := by
      rcases List.mem_cons.1 hus with hus | hus
      · exact ⟨k, .inl hk, hus⟩
      · obtain ⟨i, hi, hus⟩ := hg.mem_braces_plain hn (.root hk) hus
        exact ⟨i, .inr hi, hus⟩
    exact hhollow i hi ((hg.plain_eq_nil hne (hnamed i hi)).1 hnil.symm)

theorem nonempty_braces_page : pageTable.compile "\t" (some "page") = .ok pageCompiled ∧
    ∃ key g o, some "page" = some key ∧ Graph.extract pageTable key = .ok g ∧
      Outline.ofGraph g = .ok o ∧ pageCompiled = o.print "\t" ∧
      ((∀ b ∈ o.braces, b ≠ []) ↔
        ∀ i : Fin g.size, g.root = some i.val ∨ g.Braced i → ¬ g.Hollow i) :=
  ⟨compile_page, nonempty_braces_iff compile_page⟩

/-- The only member of the root is inline, and its type has no members. -/
def hollowTable : ShapeTable String :=
  ⟨[("Q", ⟨"Q", some "Q", [{ ident := "Meta", embedded := true, type := .shape "Meta" }]⟩),
    ("Meta", ⟨"Meta", some "Meta", []⟩)]⟩

def hollowGraph : Graph where
  nodes := #[⟨"Q", some "Q", [⟨"Meta", .inline none, []⟩], false, 1⟩]
  root := some 0

set_option maxRecDepth 100000 in
/-- Nothing stands in the braces of the root, and yet it is compiled. -/
theorem empty_braces_hollow : hollowTable.compile "  " (some "Q") = .ok ⟨"\x7b\n\x7d", [], []⟩ ∧
    Graph.extract hollowTable "Q" = .ok hollowGraph ∧
    Outline.ofGraph hollowGraph = .ok ⟨.block [], [], []⟩ ∧
    [] ∈ Outline.braces ⟨.block [], [], []⟩ :=
  ⟨by cbv, by cbv, by cbv, List.mem_cons_self⟩

end QueryShape
