import Mathlib.Data.List.Forall2
import QueryShape.Proofs.WalkFailure

/-!
# The branches of a union

A walk over the fields of a union writes one branch for each field but the discriminator
(`FieldsRun.branches`). It may fail at a field itself, or somewhere below it. The path in the failure
tells these apart, since it grows on the way down (`Graph.path_lt_of_groupChecks`): failures at a field
of the union are described by `exists_of_own_failure`.
-/

set_option autoImplicit false

namespace QueryShape

/-- The path of a failure at a member of a union. -/
def Failure.branchPath? : Failure → Option (List String)
  | anonymousBranch _ path => some path
  | scalarBranch _ _ path => some path
  | _ => none

namespace Checkpoint

def memberPath? : Checkpoint → Option (List String)
  | member _ _ path _ => some path
  | use _ => none

theorem memberPath?_of_pass {seen : List VariableSite} {c : Checkpoint} {e : Failure}
    {path : List String} (h : c.pass seen = .error e) (hp : e.branchPath? = some path) :
    c.memberPath? = some path := by
  match c with
  | member _ _ _ none =>
    cases h
    exact hp
  | member _ _ _ (some none) =>
    cases h
    exact hp
  | member _ _ _ (some (some _)) => cases h
  | use s =>
    -- a use of a variable fails for its type or its origin
    simp only [pass] at h
    split at h
    · cases h
    · unfold VariableSite.check at h
      split at h
      · cases h
        cases hp
      · split at h
        · cases h
          cases hp
        · cases h

end Checkpoint

theorem exists_of_passAll {seen : List VariableSite} {cs : List Checkpoint} {e : Failure}
    (h : passAll seen cs = .error e) : ∃ c ∈ cs, ∃ seen', c.pass seen' = .error e := by
  induction cs generalizing seen with
  | nil => cases h
  | cons c cs ih =>
    rw [← List.singleton_append, passAll_append, passAll_singleton] at h
    cases hc : c.pass seen with
    | error e' =>
      rw [hc] at h
      cases h
      exact ⟨c, List.mem_cons_self, seen, hc⟩
    | ok seen₁ =>
      rw [hc] at h
      obtain ⟨c', hm, seen', hc'⟩ := ih h
      exact ⟨c', List.mem_cons_of_mem _ hm, seen', hc'⟩

/-! ## Paths -/

namespace Graph

mutual

theorem path_lt_of_groupChecks (g : Graph) (path : List String) (k : Fin g.size)
    (entered : List (Fin g.size)) : ∀ c ∈ (g.groupChecks path k entered).1, ∀ p,
      c.memberPath? = some p → path.length < p.length := by
  rw [groupChecks]
  split
  · intro c hc
    cases hc
  · exact path_lt_of_fieldsChecks g path k (g.node k).fields entered
termination_by (k.val, 1, 0)

theorem path_lt_of_spliceChecks (g : Graph) (path : List String) (k : Fin g.size)
    (entered : List (Fin g.size)) : ∀ c ∈ (g.spliceChecks path k entered).1, ∀ p,
      c.memberPath? = some p → path.length < p.length := by
  rw [spliceChecks]
  split
  · intro c hc
    cases hc
  · exact path_lt_of_fieldsChecks g path k (g.node k).fields entered
termination_by (k.val, 1, 0)

theorem path_lt_of_fieldsChecks (g : Graph) (path : List String) (k : Fin g.size) (fs : List Field)
    (entered : List (Fin g.size)) : ∀ c ∈ (g.fieldsChecks path k fs entered).1, ∀ p,
      c.memberPath? = some p → path.length < p.length := by
  match fs with
  | [] =>
    rw [fieldsChecks]
    intro c hc
    cases hc
  | f :: fs =>
    rw [fieldsChecks]
    intro c hc p hp
    have hlen : (path ++ [f.name]).length = path.length + 1 := List.length_append
    rcases List.mem_append.1 hc with hc | hc
    · split at hc
      · have := path_le_of_memberChecks g (path ++ [f.name]) k f entered c hc p hp
        omega
      · have := path_le_of_fieldChecks g (path ++ [f.name]) k f entered c hc p hp
        omega
    · exact path_lt_of_fieldsChecks g path k fs _ c hc p hp
termination_by (k.val, 0, fs.length + 1)

theorem path_le_of_fieldChecks (g : Graph) (path : List String) (k : Fin g.size) (f : Field)
    (entered : List (Fin g.size)) : ∀ c ∈ (g.fieldChecks path k f entered).1, ∀ p,
      c.memberPath? = some p → path.length ≤ p.length := by
  have huses : ∀ c ∈ (sitesAt path f.arguments).map Checkpoint.use, ∀ p,
      c.memberPath? = some p → path.length ≤ p.length := by
    intro c hc p hp
    obtain ⟨s, -, rfl⟩ := List.mem_map.1 hc
    cases hp
  rw [fieldChecks]
  intro c hc p hp
  split at hc
  · split at hc
    · rename_i i hlt _
      exact Nat.le_of_lt (path_lt_of_spliceChecks g path i entered c hc p hp)
    · cases hc
  · split at hc
    · rename_i i hlt _
      rcases List.mem_append.1 hc with hc | hc
      · exact huses c hc p hp
      · exact Nat.le_of_lt (path_lt_of_groupChecks g path i entered c hc p hp)
    · exact huses c hc p hp
termination_by (k.val, 0, 0)

theorem path_le_of_memberChecks (g : Graph) (path : List String) (k : Fin g.size) (f : Field)
    (entered : List (Fin g.size)) : ∀ c ∈ (g.memberChecks path k f entered).1, ∀ p,
      c.memberPath? = some p → path.length ≤ p.length := by
  rw [memberChecks]
  intro c hc p hp
  split at hc
  · cases hc
  · split at hc
    · obtain rfl := List.mem_singleton.1 hc
      cases hp
      exact Nat.le_refl _
    · rename_i i hlt _
      rcases List.mem_cons.1 hc with rfl | hc
      · cases hp
        exact Nat.le_refl _
      · exact Nat.le_of_lt (path_lt_of_groupChecks g path i entered c hc p hp)
termination_by (k.val, 0, 0)

end

end Graph

/-! ## Failures -/

namespace Walk

section
variable {α β : Type} {w w' : Walk} {e : Failure}

theorem Failed.bind {step : Step α} {next : α → Step β} (h : Failed (step >>= next) w e) :
    Failed step w e ∨ ∃ a w₁, Ran step w a w₁ ∧ Failed (next a) w₁ e := by
  obtain ⟨w', h⟩ := h
  rcases hs : step.run.run w with ⟨e' | a, w₁⟩
  · rw [run_bind_error hs] at h
    cases h
    exact .inl ⟨_, hs⟩
  · rw [run_bind_ok hs] at h
    exact .inr ⟨a, w₁, hs, w', h⟩

theorem Failed.below {name : String} {step : Step α} (h : Failed (below name step) w e) :
    Failed step (w.enter name) e := by
  obtain ⟨w', h⟩ := h
  rw [run_below] at h
  obtain ⟨hr, -⟩ := Prod.mk.inj h
  exact ⟨_, Prod.ext hr rfl⟩

theorem not_failed_pure {a : α} : ¬ Failed (pure a : Step α) w e := by
  rintro ⟨w', h⟩
  cases h

theorem Failed.not_ran {step : Step α} {a : α} (h : Failed step w e) : ¬ Ran step w a w' := by
  obtain ⟨w₁, h⟩ := h
  intro hr
  cases h.symm.trans hr

theorem Failed.throw_eq {e' : Failure} (h : Failed (throw e' : Step α) w e) : e = e' := by
  obtain ⟨w', h⟩ := h
  cases h
  rfl

/-- A step that succeeds leaves the walk at its path. -/
theorem Follows.stands_of_ran {g : Graph} {path : List String} {step : Step α}
    {seen : List VariableSite} {cs : List Checkpoint} {entered : List (Fin g.size)} {a : α}
    (h : Follows g path step w seen cs entered) (hr : Ran step w a w') :
    ∃ seen', Stands g path entered seen' w' := by
  unfold Follows at h
  split at h
  · rename_i seen' _
    obtain ⟨b, w₁, hr₁, hw⟩ := h
    cases hr.symm.trans hr₁
    exact ⟨seen', hw⟩
  · exact absurd hr h.not_ran

/-- A failure comes from one of the checkpoints. -/
theorem Follows.exists_of_failed {g : Graph} {path : List String} {step : Step α}
    {seen : List VariableSite} {cs : List Checkpoint} {entered : List (Fin g.size)}
    (h : Follows g path step w seen cs entered) (hf : Failed step w e) :
    ∃ c ∈ cs, ∃ seen', c.pass seen' = .error e := by
  unfold Follows at h
  split at h
  · obtain ⟨a, w₁, hr, -⟩ := h
    exact absurd hr hf.not_ran
  · rename_i e' hp
    obtain ⟨w₁, h₁⟩ := h
    obtain ⟨w₂, h₂⟩ := hf
    cases h₁.symm.trans h₂
    exact exists_of_passAll hp

end

section
variable {g : Graph} {k : Fin g.size}

/-- Where fields fail, those before one of them succeed, and that one fails. -/
theorem exists_of_fields_failed {fs : List Field} {w : Walk} {e : Failure}
    (h : Failed (fields g k fs) w e) :
    ∃ before f after ss w₁, fs = before ++ f :: after ∧ Ran (fields g k before) w ss w₁ ∧
      Failed (if (g.node k).isUnion then branch g k f else field g k f) (w₁.enter f.name) e := by
  induction fs generalizing w with
  | nil =>
    rw [fields_nil] at h
    exact absurd h not_failed_pure
  | cons f fs ih =>
    rw [fields_cons] at h
    rcases h.bind with hhere | ⟨here, w₁, hhere, hrest⟩
    · refine ⟨[], f, fs, [], w, rfl, ?_, hhere.below⟩
      rw [fields_nil]
      exact ran_pure.2 ⟨rfl, rfl⟩
    · rcases hrest.bind with hrest | ⟨rest, w₂, -, hlast⟩
      · obtain ⟨before, f', after, ss, w₂, rfl, hran, hfail⟩ := ih hrest
        refine ⟨f :: before, f', after, here ++ ss, w₂, rfl, ?_, hfail⟩
        rw [fields_cons]
        exact ran_bind.2 ⟨here, w₁, hhere, ran_bind.2 ⟨ss, w₂, hran, ran_pure.2 ⟨rfl, rfl⟩⟩⟩
      · exact absurd hlast not_failed_pure

/-- A field that fails after those before it makes the whole fail. -/
theorem fields_failed_of_ran {before after : List Field} {f : Field} {w w₁ : Walk}
    {ss : List Selection} {e : Failure} (hr : Ran (fields g k before) w ss w₁)
    (hf : Failed (if (g.node k).isUnion then branch g k f else field g k f) (w₁.enter f.name) e) :
    Failed (fields g k (before ++ f :: after)) w e := by
  induction before generalizing w ss with
  | nil =>
    rw [fields_nil] at hr
    obtain ⟨-, rfl⟩ := ran_pure.1 hr
    rw [List.nil_append, fields_cons]
    exact failed_bind (failed_below hf)
  | cons f' before ih =>
    rw [fields_cons] at hr
    obtain ⟨here, w₂, hhere, hrest⟩ := ran_bind.1 hr
    obtain ⟨rest, w₃, hrest, hlast⟩ := ran_bind.1 hrest
    obtain ⟨-, rfl⟩ := ran_pure.1 hlast
    rw [List.cons_append, fields_cons]
    exact failed_of_ran hhere (failed_bind (ih hrest))

variable {path : List String} {entered : List (Fin g.size)} {seen : List VariableSite} {w : Walk}

/-- A failure at a field of the union itself, and not below one: the field has no node, or a node
without a name. -/
theorem exists_of_own_failure (hg : g.Arranged) (hu : (g.node k).isUnion = true)
    (hw : Stands g path entered seen w) {fs : List Field} {e : Failure} {p : List String}
    (h : Failed (fields g k fs) w e) (hp : e.branchPath? = some p)
    (hlen : p.length = path.length + 1) :
    ∃ before f after ss w₁, fs = before ++ f :: after ∧ Ran (fields g k before) w ss w₁ ∧
      f.name ≠ typenameField ∧
      (g.child? k f = none ∧ e = .scalarBranch f.name (g.node k).label (path ++ [f.name]) ∨
        ∃ i, g.child? k f = some i ∧ (g.node i).name = none ∧
          e = .anonymousBranch f.name (path ++ [f.name])) := by
  obtain ⟨before, f, after, ss, w₁, hfs, hran, hfail⟩ := exists_of_fields_failed h
  obtain ⟨seen₁, hw₁⟩ := (fields_follows hg k before hw).stands_of_ran hran
  have henter := hw₁.enter f.name
  rw [if_pos hu, branch] at hfail
  split at hfail
  · exact absurd hfail not_failed_pure
  · rename_i hname
    refine ⟨before, f, after, ss, w₁, hfs, hran, hname, ?_⟩
    cases hc : g.child? k f with
    | none =>
      rw [hc] at hfail
      rcases hfail.bind with hget | ⟨w₂, _, hget, hthrow⟩
      · exact absurd hget not_failed_pure
      · obtain ⟨rfl, rfl⟩ := ran_get.1 hget
        rw [henter.path] at hthrow
        exact .inl ⟨rfl, hthrow.throw_eq⟩
    | some child =>
      obtain ⟨i, hlt⟩ := child
      rw [hc] at hfail
      dsimp only at hfail
      cases hn : (g.node i).name with
      | none =>
        rw [hn] at hfail
        rcases hfail.bind with hget | ⟨w₂, _, hget, hthrow⟩
        · exact absurd hget not_failed_pure
        · obtain ⟨rfl, rfl⟩ := ran_get.1 hget
          rw [henter.path] at hthrow
          exact .inr ⟨_, rfl, hn, hthrow.throw_eq⟩
      | some type =>
        -- below the field the path is longer
        rw [hn] at hfail
        exfalso
        rcases hfail.bind with hgroup | ⟨_, _, -, hlast⟩
        · obtain ⟨c, hm, seen', hpass⟩ := (group_follows hg i henter).exists_of_failed hgroup
          have hlt := g.path_lt_of_groupChecks _ i _ c hm p (Checkpoint.memberPath?_of_pass hpass hp)
          rw [List.length_append, List.length_singleton] at hlt
          omega
        · exact absurd hlast not_failed_pure

/-- A field without a node, where the walk comes to it. -/
theorem fields_failed_of_child? (hg : g.Arranged) (hu : (g.node k).isUnion = true)
    (hw : Stands g path entered seen w) {before after : List Field} {f : Field} {w₁ : Walk}
    {ss : List Selection} (hr : Ran (fields g k before) w ss w₁) (hn : f.name ≠ typenameField)
    (hc : g.child? k f = none) : Failed (fields g k (before ++ f :: after)) w
      (.scalarBranch f.name (g.node k).label (path ++ [f.name])) := by
  obtain ⟨seen₁, hw₁⟩ := (fields_follows hg k before hw).stands_of_ran hr
  apply fields_failed_of_ran hr
  rw [if_pos hu, branch, if_neg hn, hc, ← (hw₁.enter f.name).path]
  exact failed_of_ran (ran_get.2 ⟨rfl, rfl⟩) failed_throw

/-- What a field of a union writes. -/
theorem FieldRun.of_union {f : Field} {w w' : Walk} {ss : List Selection}
    (hu : (g.node k).isUnion = true) (h : FieldRun g k f w ss w') :
    f.name = typenameField ∧ ss = [.leaf f.name []] ∨
      f.name ≠ typenameField ∧ ∃ i type group, g.child? k f = some i ∧
        (g.node i).name = some type ∧ ss = [.branch type group] := by
  cases h with
  | typename _ ht => exact .inl ⟨ht, rfl⟩
  | branch _ hn hc ht _ => exact .inr ⟨hn, _, _, _, hc, ht, rfl⟩
  | nothing hu' => cases hu.symm.trans hu'
  | spread hu' => cases hu.symm.trans hu'
  | splice hu' => cases hu.symm.trans hu'
  | leaf hu' => cases hu.symm.trans hu'
  | nested hu' => cases hu.symm.trans hu'

/-- A walk that succeeds has written one branch for each field. -/
theorem FieldsRun.branches {fs : List Field} {w w' : Walk} {ss : List Selection}
    (hu : (g.node k).isUnion = true) (hn : ∀ f ∈ fs, f.name ≠ typenameField) :
    FieldsRun g k fs w ss w' → List.Forall₂ (fun f s => ∃ i type group, g.child? k f = some i ∧
      (g.node i).name = some type ∧ s = .branch type group) fs ss
  | .nil => .nil
  | .cons h hs => by
    have hrest := hs.branches hu fun f hf => hn f (List.mem_cons_of_mem _ hf)
    rcases h.of_union hu with ⟨ht, -⟩ | ⟨-, i, type, group, hc, ht, rfl⟩
    · exact absurd ht (hn _ List.mem_cons_self)
    · exact .cons ⟨i, type, group, hc, ht, rfl⟩ hrest

end

end Walk

/-! ## A union as the root -/

section
variable {g : Graph} {k : Fin g.size}

/-- A root that is used once fails as its fields do. -/
theorem Outline.ofGraph_eq_error (hk : g.root = some k.val) (hu : (g.node k).uses = 1) {e : Failure} :
    Outline.ofGraph g = .error e ↔ Walk.Failed (Walk.fields g k (g.node k).fields) {} e := by
  have hnone : Walk.fragmentOf? {} (g.node k) = none := by
    rw [Walk.fragmentOf?, if_neg (by omega)]
  have hget : Walk.Ran (MonadState.get : Walk.Step Walk) {} {} {} := Walk.ran_get.2 ⟨rfl, rfl⟩
  have hgroup : Walk.Failed (Walk.group g k) {} e ↔
      Walk.Failed (Walk.fields g k (g.node k).fields) {} e := by
    rw [Walk.group]
    constructor
    · intro h
      rcases h.bind with h | ⟨w, _, hw, h⟩
      · exact absurd h Walk.not_failed_pure
      · obtain ⟨rfl, rfl⟩ := Walk.ran_get.1 hw
        rw [hnone] at h
        rcases h.bind with h | ⟨ss, w₁, -, h⟩
        · exact h
        · rw [if_neg (by omega)] at h
          exact absurd h Walk.not_failed_pure
    · intro h
      refine Walk.failed_of_ran hget ?_
      rw [hnone]
      exact Walk.failed_bind h
  rw [← hgroup]
  simp only [Outline.ofGraph, Outline.ofGraphLogged, hk, k.isLt, ↓reduceDIte]
  rcases hr : (Walk.group g k).run.run {} with ⟨e' | root, w⟩
  · constructor
    · intro h
      cases h
      exact ⟨w, hr⟩
    · rintro ⟨w', h⟩
      cases hr.symm.trans h
      rfl
  · constructor
    · intro h
      cases h
    · rintro ⟨w', h⟩
      cases hr.symm.trans h

/-- The outline of a union whose first field is the discriminator. -/
theorem Outline.branches_of_ofGraph (hg : g.Arranged) (hk : g.root = some k.val) {f : Field}
    {fs : List Field}
    (hf : (g.node k).fields = f :: fs) (hu : (g.node k).isUnion = true) (h1 : (g.node k).uses = 1)
    (ht : f.name = typenameField) (hn : ∀ f ∈ fs, f.name ≠ typenameField) {o : Outline}
    (h : Outline.ofGraph g = .ok o) :
    ∃ branches, o.root = .block (.leaf typenameField [] :: branches) ∧
      List.Forall₂ (fun f s => ∃ i type group, g.child? k f = some i ∧
        (g.node i).name = some type ∧ s = .branch type group) fs branches := by
  obtain ⟨k', w, hk', hrun, -, -⟩ := Outline.run_of_ofGraph hg h
  obtain rfl : k' = k := Fin.ext (Option.some.inj (hk'.symm.trans hk))
  generalize o.root = root at hrun ⊢
  cases hrun with
  | spread hs =>
    have := (Walk.fragmentOf?_eq_some hs).1
    omega
  | register _ hm => omega
  | block _ _ hrun =>
    rw [hf] at hrun
    cases hrun with
    | cons hhere hrest =>
      rcases hhere.of_union hu with ⟨-, rfl⟩ | ⟨hne, -⟩
      · rw [ht]
        exact ⟨_, rfl, hrest.branches hu hn⟩
      · exact absurd ht hne

end

end QueryShape
