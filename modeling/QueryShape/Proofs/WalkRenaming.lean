import Mathlib
import QueryShape.Proofs.VisitRenaming
import QueryShape.Proofs.WalkRun

/-!
# The walk and ids

The walk uses the ids of nodes to find fragments and to name them. Where a renaming of ids only puts a
text `p` before the names that they give to fragments, the walks over a graph and over the renamed one
do the same, but for `p` before every name of a fragment: `group_mirrors`, and `Outline.ofGraph_renamed`
for whole outlines. `MirrorsAt` says so of single steps, which compose (`MirrorsAt.bind`).
-/

set_option autoImplicit false

namespace QueryShape

/-! ## Names of fragments -/

theorem numbered_append (p base : String) (n : Nat) : numbered (p ++ base) n = p ++ numbered base n := by
  simp only [numbered, String.append_assoc]

theorem append_left_injective (p : String) : Function.Injective (p ++ ·) :=
  fun _ _ h => (String.append_right_inj p).1 h

/-- Numbers are added to the longer names as to the shorter ones. -/
theorem freshName_append (p : String) (taken : List String) (base : String) :
    freshName (taken.map (p ++ ·)) (p ++ base) = p ++ freshName taken base := by
  have hmem : ∀ name, p ++ name ∈ taken.map (p ++ ·) ↔ name ∈ taken := fun name =>
    List.mem_map_of_injective (append_left_injective p)
  unfold freshName
  by_cases hb : base ∈ taken
  · rw [if_pos hb, if_pos ((hmem base).2 hb)]
    have hcandidates : (List.range taken.length).map (fun i => numbered (p ++ base) (i + 2)) =
        ((List.range taken.length).map fun i => numbered base (i + 2)).map (p ++ ·) := by
      rw [List.map_map]
      exact List.map_congr_left fun i _ => numbered_append p base (i + 2)
    have hfree : (fun name => decide (name ∉ taken.map (p ++ ·))) ∘ (p ++ ·) =
        fun name => decide (name ∉ taken) := by
      funext name
      simp only [Function.comp_apply, hmem]
    rw [List.length_map, hcandidates]
    dsimp only
    rw [List.find?_map, hfree, numbered_append]
    cases ((List.range taken.length).map fun i => numbered base (i + 2)).find?
        (fun name => decide (name ∉ taken)) <;> rfl
  · rw [if_neg hb, if_neg (mt (hmem base).1 hb)]

/-! ## Selections and fragments -/

mutual

/-- The selection with other names for the fragments that it spreads. -/
def Selection.mapSpreads (ρ : String → String) : Selection → Selection
  | .leaf name arguments => .leaf name arguments
  | .nested name arguments group => .nested name arguments (group.mapSpreads ρ)
  | .branch type group => .branch type (group.mapSpreads ρ)
  | .spread fragment => .spread (ρ fragment)

def Group.mapSpreads (ρ : String → String) : Group → Group
  | .block selections => .block (Selection.mapSpreadsOfList ρ selections)
  | .spread fragment => .spread (ρ fragment)

def Selection.mapSpreadsOfList (ρ : String → String) : List Selection → List Selection
  | [] => []
  | s :: ss => s.mapSpreads ρ :: Selection.mapSpreadsOfList ρ ss

end

theorem Selection.mapSpreadsOfList_append (ρ : String → String) (ss ss' : List Selection) :
    mapSpreadsOfList ρ (ss ++ ss') = mapSpreadsOfList ρ ss ++ mapSpreadsOfList ρ ss' := by
  induction ss with
  | nil => rfl
  | cons s ss ih => simp only [List.cons_append, mapSpreadsOfList, ih]

/-- A fragment of a graph, and what it is with other ids: its name and the names that it spreads get
`p` before them. The type that it is on is the name of its node or, without one, its own name. -/
structure FragmentOutline.Renamed (g : Graph) (σ : String → String) (p : String)
    (f f' : FragmentOutline) : Prop where
  shapeId : f'.shapeId = σ f.shapeId
  name : f'.name = p ++ f.name
  selections : f'.selections = Selection.mapSpreadsOfList (p ++ ·) f.selections
  target : ∃ k : Fin g.size, (g.node k).id = f.shapeId ∧
    f.targetType = (g.node k).name.getD f.name ∧ f'.targetType = (g.node k).name.getD f'.name

/-- The failure without the ids and names of the shapes in it. -/
def Failure.withoutShapes : Failure → Failure
  | malformedTag _ field e => malformedTag "" field e
  | cycle ids => cycle (ids.map fun _ => "")
  | scalarBranch field _ path => scalarBranch field "" path
  | aliasedDiscriminator _ field => aliasedDiscriminator "" field
  | e => e

theorem Failure.withoutShapes_mapIds (σ : String → String) (e : Failure) :
    (e.mapIds σ).withoutShapes = e.withoutShapes := by
  cases e with
  | cycle ids =>
    rw [mapIds, withoutShapes, withoutShapes, List.map_map]
    rfl
  | _ => rfl

/-! ## The renamed graph -/

namespace Graph

theorem size_mapIds (g : Graph) (σ : String → String) : (g.mapIds σ).size = g.size := Array.size_map

/-- The number of a node in the renamed graph. -/
def renamedAt (g : Graph) (σ : String → String) (k : Fin g.size) : Fin (g.mapIds σ).size :=
  k.cast (g.size_mapIds σ).symm

theorem node_mapIds (g : Graph) (σ : String → String) (k : Fin g.size) :
    (g.mapIds σ).node (g.renamedAt σ k) = (g.node k).mapId σ := by
  exact Array.getElem_map ..

theorem child?_mapIds (g : Graph) (σ : String → String) (k : Fin g.size) (f : Field) :
    (g.mapIds σ).child? (g.renamedAt σ k) f =
      (g.child? k f).map fun i => ⟨g.renamedAt σ i.val, i.property⟩ := by
  unfold child?
  cases f.kind.nested? with
  | none => rfl
  | some i =>
    rw [Option.bind_some, Option.bind_some]
    by_cases h : i < k.val
    · rw [dif_pos h, dif_pos (show i < (g.renamedAt σ k).val from h)]
      rfl
    · rw [dif_neg h, dif_neg (show ¬ i < (g.renamedAt σ k).val from h)]
      rfl

end Graph

/-! ## Steps -/

namespace Walk

/-- The states of the walks over a graph and over the renamed one, but for events. -/
structure Renamed (g : Graph) (σ : String → String) (p : String) (w w' : Walk) : Prop where
  path : w'.path = w.path
  vars : w'.vars = w.vars
  fragments : List.Forall₂ (FragmentOutline.Renamed g σ p) w.fragments w'.fragments

/-- Both succeed, the second with the result of the first put through `f`, or both fail alike. -/
inductive SameOutcome (g : Graph) (σ : String → String) (p : String) {α β : Type} (f : α → β) :
    Except Failure α × Walk → Except Failure β × Walk → Prop
  | ok {a : α} {w w' : Walk} : Renamed g σ p w w' → SameOutcome g σ p f (.ok a, w) (.ok (f a), w')
  | error {e e' : Failure} {w w' : Walk} : e'.withoutShapes = e.withoutShapes →
      SameOutcome g σ p f (.error e, w) (.error e', w')

def MirrorsAt (g : Graph) (σ : String → String) (p : String) {α β : Type} (f : α → β)
    (step : Step α) (step' : Step β) (w w' : Walk) : Prop :=
  SameOutcome g σ p f (step.run.run w) (step'.run.run w')

section
variable {g : Graph} {σ : String → String} {p : String} {α β γ δ : Type} {w w' : Walk}

theorem Renamed.initial : Renamed g σ p {} {} := ⟨rfl, rfl, .nil⟩

theorem Renamed.enter (h : Renamed g σ p w w') (name : String) :
    Renamed g σ p (w.enter name) (w'.enter name) :=
  ⟨congrArg (· ++ [name]) h.path, h.vars, h.fragments⟩

theorem Renamed.logged (h : Renamed g σ p w w') (e e' : Event) :
    Renamed g σ p (w.logged e) (w'.logged e') :=
  ⟨h.path, h.vars, h.fragments⟩

namespace MirrorsAt

theorem pure (f : α → β) (a : α) (h : Renamed g σ p w w') :
    MirrorsAt g σ p f (Pure.pure a) (Pure.pure (f a)) w w' := .ok h

theorem throw (f : α → β) {e e' : Failure} (h : e'.withoutShapes = e.withoutShapes) :
    MirrorsAt g σ p f (MonadExcept.throw e) (MonadExcept.throw e') w w' := .error h

theorem of_ran {f : α → β} {step : Step α} {step' : Step β} {a : α} {w₁ w₁' : Walk}
    (h : Ran step w a w₁) (h' : Ran step' w' (f a) w₁') (hw : Renamed g σ p w₁ w₁') :
    MirrorsAt g σ p f step step' w w' := by
  rw [MirrorsAt, show step.run.run w = _ from h, show step'.run.run w' = _ from h']
  exact .ok hw

theorem bind {f : α → β} {h : γ → δ} {step : Step α} {step' : Step β} {next : α → Step γ}
    {next' : β → Step δ} (hs : MirrorsAt g σ p f step step' w w')
    (hn : ∀ a w₁ w₁', Renamed g σ p w₁ w₁' → MirrorsAt g σ p h (next a) (next' (f a)) w₁ w₁') :
    MirrorsAt g σ p h (step >>= next) (step' >>= next') w w' := by
  unfold MirrorsAt at hs ⊢
  rw [run_bind, run_bind]
  revert hs
  generalize step.run.run w = out
  generalize step'.run.run w' = out'
  intro hs
  cases hs with
  | ok hw => exact hn _ _ _ hw
  | error he => exact .error he

theorem get {h : γ → δ} {next next' : Walk → Step _}
    (hn : MirrorsAt g σ p h (next w) (next' w') w w') :
    MirrorsAt g σ p h (MonadState.get >>= next) (MonadState.get >>= next') w w' := hn

theorem log {h : γ → δ} {next next' : Unit → Step _} {e e' : Event}
    (hn : MirrorsAt g σ p h (next ()) (next' ()) (w.logged e) (w'.logged e')) :
    MirrorsAt g σ p h (Walk.log e >>= next) (Walk.log e' >>= next') w w' := hn

theorem below {f : α → β} {step : Step α} {step' : Step β} {name : String}
    (hw : Renamed g σ p w w') (h : MirrorsAt g σ p f step step' (w.enter name) (w'.enter name)) :
    MirrorsAt g σ p f (Walk.below name step) (Walk.below name step') w w' := by
  unfold MirrorsAt at h ⊢
  rw [run_below, run_below]
  revert h
  generalize step.run.run (w.enter name) = out
  generalize step'.run.run (w'.enter name) = out'
  intro h
  cases h with
  | ok hw₁ => exact .ok ⟨hw.path, hw₁.vars, hw₁.fragments⟩
  | error he => exact .error he

end MirrorsAt

/-! ## Variables and fragments -/

theorem useVariable_mirrors (hw : Renamed g σ p w w') (key : String) (name type : Option String)
    (default : Option Value) :
    MirrorsAt g σ p id (useVariable key name type default) (useVariable key name type default)
      w w' := by
  rw [useVariable]
  apply MirrorsAt.get
  rw [hw.path, hw.vars]
  dsimp only
  cases w.vars.find? (·.entry.name == name.getD (placeName w.path key)) with
  | none => exact .ok ⟨hw.path, congrArg (· ++ _) hw.vars, hw.fragments⟩
  | some slot =>
    dsimp only
    cases VariableSlot.checkUse slot name.isSome type w.path with
    | error e => exact .error rfl
    | ok u => exact .ok ⟨hw.path, congrArg (VariableSlot.addUse · _ _) hw.vars, hw.fragments⟩

theorem arguments_mirrors (args : List (String × Argument)) (hw : Renamed g σ p w w') :
    MirrorsAt g σ p id (arguments args) (arguments args) w w' := by
  induction args generalizing w w' with
  | nil => exact .pure id [] hw
  | cons a args ih =>
    obtain ⟨key, ⟨value, type⟩ | ⟨name, type, default⟩⟩ := a
    · rw [arguments]
      exact (ih hw).bind fun operands _ _ hw₁ => .pure id _ hw₁
    · rw [arguments]
      exact (useVariable_mirrors hw key name type default).bind fun used _ _ hw₁ =>
        (ih hw₁).bind fun operands _ _ hw₂ => .pure id _ hw₂

theorem rel_find?_of_forall₂ {R : α → β → Prop} {l : List α} {l' : List β} {q : α → Bool}
    {q' : β → Bool} (h : List.Forall₂ R l l') (hq : ∀ a b, R a b → q' b = q a) :
    Option.Rel R (l.find? q) (l'.find? q') := by
  induction h with
  | nil => exact .none
  | @cons a b l l' hab _ ih =>
    rw [List.find?_cons, List.find?_cons, hq a b hab]
    cases q a with
    | true => exact .some hab
    | false => exact ih

theorem fragmentOf?_renamed (hσ : Function.Injective σ) (hw : Renamed g σ p w w') (n : Node) :
    Option.Rel (FragmentOutline.Renamed g σ p) (fragmentOf? w n) (fragmentOf? w' (n.mapId σ)) := by
  unfold fragmentOf?
  by_cases hu : 1 < n.uses
  · rw [if_pos hu, if_pos (show 1 < (n.mapId σ).uses from hu)]
    refine rel_find?_of_forall₂ hw.fragments ?_
    intro f f' hf
    rw [Bool.eq_iff_iff, beq_iff_eq, beq_iff_eq, hf.shapeId]
    exact hσ.eq_iff
  · rw [if_neg hu, if_neg (show ¬ 1 < (n.mapId σ).uses from hu)]
    exact .none

theorem Renamed.names_eq (hw : Renamed g σ p w w') :
    w'.fragments.map (·.name) = (w.fragments.map (·.name)).map (p ++ ·) := by
  have h := hw.fragments
  generalize w.fragments = fs at h
  generalize w'.fragments = fs' at h
  induction h with
  | nil => rfl
  | cons hf _ ih => rw [List.map_cons, List.map_cons, List.map_cons, hf.name, ih]

/-- Replacing a fragment or adding one goes the same way on both sides. -/
theorem rel_putFragment (hσ : Function.Injective σ) {fs fs' : List FragmentOutline}
    (h : List.Forall₂ (FragmentOutline.Renamed g σ p) fs fs') {f f' : FragmentOutline}
    (hf : f.Renamed g σ p f') :
    List.Forall₂ (FragmentOutline.Renamed g σ p) (putFragment fs f) (putFragment fs' f') := by
  induction h with
  | nil => exact .cons hf .nil
  | @cons f₁ f₁' fs fs' h₁ hs ih =>
    have hid : f₁'.shapeId = f'.shapeId ↔ f₁.shapeId = f.shapeId := by
      rw [h₁.shapeId, hf.shapeId]
      exact hσ.eq_iff
    rw [putFragment, putFragment]
    by_cases he : f₁.shapeId = f.shapeId
    · rw [if_pos he, if_pos (hid.2 he)]
      exact .cons hf hs
    · rw [if_neg he, if_neg fun h => he (hid.1 h)]
      exact .cons h₁ ih

theorem register_mirrors (hσ : Function.Injective σ)
    (hname : ∀ id, fragmentName (σ id) = p ++ fragmentName id)
    (hw : Renamed g σ p w w') (k : Fin g.size) (ss : List Selection) :
    MirrorsAt g σ p (p ++ ·) (register (g.node k) ss)
      (register ((g.node k).mapId σ) (Selection.mapSpreadsOfList (p ++ ·) ss)) w w' := by
  have hfresh : freshName (w'.fragments.map (·.name)) (fragmentName ((g.node k).mapId σ).id) =
      p ++ freshName (w.fragments.map (·.name)) (fragmentName (g.node k).id) := by
    rw [hw.names_eq, Node.mapId, hname, freshName_append]
  obtain ⟨w₁, hr, hp, hv⟩ := ran_register (g.node k) ss w
  obtain ⟨w₁', hr', hp', hv'⟩ :=
    ran_register ((g.node k).mapId σ) (Selection.mapSpreadsOfList (p ++ ·) ss) w'
  have hw₁ : Renamed g σ p w₁ w₁' := by
    refine ⟨by rw [hp', hp, hw.path], by rw [hv', hv, hw.vars], ?_⟩
    rw [(register_put hr).2, (register_put hr').2]
    exact rel_putFragment hσ hw.fragments ⟨rfl, hfresh, rfl, k, rfl, rfl, rfl⟩
  rw [hfresh] at hr'
  exact .of_ran hr hr' hw₁

end

/-! ## The walk -/

section
variable {g : Graph} {σ : String → String} {p : String}

mutual

theorem group_mirrors (hσ : Function.Injective σ)
    (hname : ∀ id, fragmentName (σ id) = p ++ fragmentName id) (k : Fin g.size) {w w' : Walk}
    (hw : Renamed g σ p w w') :
    MirrorsAt g σ p (Group.mapSpreads (p ++ ·)) (group g k) (group (g.mapIds σ) (g.renamedAt σ k))
      w w' := by
  rw [group, group, g.node_mapIds σ k]
  apply MirrorsAt.get
  have hf := fragmentOf?_renamed hσ hw (g.node k)
  revert hf
  generalize fragmentOf? w (g.node k) = f
  generalize fragmentOf? w' ((g.node k).mapId σ) = f'
  intro hf
  cases hf with
  | some hf =>
    apply MirrorsAt.log
    rw [hf.name]
    exact .pure (Group.mapSpreads (p ++ ·)) (.spread _) (hw.logged _ _)
  | none =>
    refine (fields_mirrors hσ hname k (g.node k).fields hw).bind fun ss w₁ w₁' hw₁ => ?_
    by_cases hu : 1 < (g.node k).uses
    · rw [if_pos hu, if_pos (show 1 < ((g.node k).mapId σ).uses from hu)]
      exact (register_mirrors hσ hname hw₁ k ss).bind fun name _ _ hw₂ =>
        .pure (Group.mapSpreads (p ++ ·)) (.spread name) hw₂
    · rw [if_neg hu, if_neg (show ¬ 1 < ((g.node k).mapId σ).uses from hu)]
      exact .pure (Group.mapSpreads (p ++ ·)) (.block ss) hw₁
termination_by (k.val, 1, 0)

theorem splice_mirrors (hσ : Function.Injective σ)
    (hname : ∀ id, fragmentName (σ id) = p ++ fragmentName id) (k : Fin g.size) {w w' : Walk}
    (hw : Renamed g σ p w w') :
    MirrorsAt g σ p (Selection.mapSpreadsOfList (p ++ ·)) (splice g k)
      (splice (g.mapIds σ) (g.renamedAt σ k)) w w' := by
  rw [splice, splice, g.node_mapIds σ k]
  apply MirrorsAt.get
  have hf := fragmentOf?_renamed hσ hw (g.node k)
  revert hf
  generalize fragmentOf? w (g.node k) = f
  generalize fragmentOf? w' ((g.node k).mapId σ) = f'
  intro hf
  cases hf with
  | some hf =>
    apply MirrorsAt.log
    rw [hf.name]
    exact .pure (Selection.mapSpreadsOfList (p ++ ·)) [.spread _] (hw.logged _ _)
  | none => exact fields_mirrors hσ hname k (g.node k).fields hw
termination_by (k.val, 1, 0)

theorem fields_mirrors (hσ : Function.Injective σ)
    (hname : ∀ id, fragmentName (σ id) = p ++ fragmentName id) (k : Fin g.size) (fs : List Field)
    {w w' : Walk} (hw : Renamed g σ p w w') :
    MirrorsAt g σ p (Selection.mapSpreadsOfList (p ++ ·)) (fields g k fs)
      (fields (g.mapIds σ) (g.renamedAt σ k) fs) w w' := by
  match fs with
  | [] =>
    rw [fields_nil, fields_nil]
    exact .pure (Selection.mapSpreadsOfList (p ++ ·)) [] hw
  | f :: fs =>
    rw [fields_cons, fields_cons, g.node_mapIds σ k]
    have hhere : MirrorsAt g σ p (Selection.mapSpreadsOfList (p ++ ·))
        (below f.name (if (g.node k).isUnion = true then branch g k f else field g k f))
        (below f.name (if ((g.node k).mapId σ).isUnion = true
          then branch (g.mapIds σ) (g.renamedAt σ k) f
          else field (g.mapIds σ) (g.renamedAt σ k) f)) w w' := by
      apply MirrorsAt.below hw
      by_cases hu : (g.node k).isUnion = true
      · rw [if_pos hu, if_pos (show ((g.node k).mapId σ).isUnion = true from hu)]
        exact branch_mirrors hσ hname k f (hw.enter f.name)
      · rw [if_neg hu, if_neg (show ¬ ((g.node k).mapId σ).isUnion = true from hu)]
        exact field_mirrors hσ hname k f (hw.enter f.name)
    refine hhere.bind fun here _ _ hw₁ => (fields_mirrors hσ hname k fs hw₁).bind fun rest _ _ hw₂ => ?_
    rw [← Selection.mapSpreadsOfList_append]
    exact .pure (Selection.mapSpreadsOfList (p ++ ·)) (here ++ rest) hw₂
termination_by (k.val, 0, fs.length + 1)

theorem field_mirrors (hσ : Function.Injective σ)
    (hname : ∀ id, fragmentName (σ id) = p ++ fragmentName id) (k : Fin g.size) (f : Field)
    {w w' : Walk} (hw : Renamed g σ p w w') :
    MirrorsAt g σ p (Selection.mapSpreadsOfList (p ++ ·)) (field g k f)
      (field (g.mapIds σ) (g.renamedAt σ k) f) w w' := by
  rw [field, field, g.child?_mapIds σ k f]
  have hargs := arguments_mirrors f.arguments hw
  cases hc : g.child? k f with
  | none =>
    split
    · exact .pure (Selection.mapSpreadsOfList (p ++ ·)) [] hw
    · exact hargs.bind fun operands _ _ hw₁ =>
        .pure (Selection.mapSpreadsOfList (p ++ ·)) [.leaf f.name operands] hw₁
  | some child =>
    obtain ⟨i, hlt⟩ := child
    split
    · exact splice_mirrors hσ hname i hw
    · exact hargs.bind fun operands _ _ hw₁ => (group_mirrors hσ hname i hw₁).bind fun gr _ _ hw₂ =>
        .pure (Selection.mapSpreadsOfList (p ++ ·)) [.nested f.name operands gr] hw₂
termination_by (k.val, 0, 0)

theorem branch_mirrors (hσ : Function.Injective σ)
    (hname : ∀ id, fragmentName (σ id) = p ++ fragmentName id) (k : Fin g.size) (f : Field)
    {w w' : Walk} (hw : Renamed g σ p w w') :
    MirrorsAt g σ p (Selection.mapSpreadsOfList (p ++ ·)) (branch g k f)
      (branch (g.mapIds σ) (g.renamedAt σ k) f) w w' := by
  rw [branch, branch, g.child?_mapIds σ k f]
  split
  · exact .pure (Selection.mapSpreadsOfList (p ++ ·)) [.leaf f.name []] hw
  · cases hc : g.child? k f with
    | none =>
      apply MirrorsAt.get
      rw [hw.path]
      exact .throw _ rfl
    | some child =>
      obtain ⟨i, hlt⟩ := child
      have hchild : ((g.mapIds σ).node (g.renamedAt σ i)).name = (g.node i).name := by
        rw [g.node_mapIds σ i, Node.mapId]
      dsimp only [Option.map_some]
      rw [hchild]
      cases (g.node i).name with
      | none =>
        apply MirrorsAt.get
        rw [hw.path]
        exact .throw _ rfl
      | some type =>
        exact (group_mirrors hσ hname i hw).bind fun gr _ _ hw₁ =>
          .pure (Selection.mapSpreadsOfList (p ++ ·)) [.branch type gr] hw₁
termination_by (k.val, 0, 0)

end

end

end Walk

/-! ## Outlines -/

/-- The outline of a graph and that of the graph with other ids. -/
structure Outline.Renamed (g : Graph) (σ : String → String) (p : String) (o o' : Outline) : Prop where
  root : o'.root = o.root.mapSpreads (p ++ ·)
  vars : o'.vars = o.vars
  fragments : List.Forall₂ (FragmentOutline.Renamed g σ p) o.fragments o'.fragments

theorem Outline.ofGraph_renamed {σ : String → String} {p : String} (hσ : Function.Injective σ)
    (hname : ∀ id, fragmentName (σ id) = p ++ fragmentName id) (g : Graph) :
    (∃ e e', Outline.ofGraph g = .error e ∧ Outline.ofGraph (g.mapIds σ) = .error e' ∧
      e'.withoutShapes = e.withoutShapes) ∨
    ∃ o o', Outline.ofGraph g = .ok o ∧ Outline.ofGraph (g.mapIds σ) = .ok o' ∧
      o.Renamed g σ p o' := by
  unfold Outline.ofGraph Outline.ofGraphLogged
  have hroot : (g.mapIds σ).root = g.root := rfl
  rw [hroot]
  cases g.root with
  | none => exact .inl ⟨_, _, rfl, rfl, rfl⟩
  | some k =>
    dsimp only
    by_cases hk : k < g.size
    · have hk' : k < (g.mapIds σ).size := by rwa [g.size_mapIds σ]
      rw [dif_pos hk, dif_pos hk']
      have hwalk := Walk.group_mirrors hσ hname ⟨k, hk⟩ (Walk.Renamed.initial (g := g))
      unfold Walk.MirrorsAt at hwalk
      revert hwalk
      generalize (Walk.group g ⟨k, hk⟩).run.run {} = out
      generalize hout : (Walk.group (g.mapIds σ) (g.renamedAt σ ⟨k, hk⟩)).run.run {} = out'
      intro hwalk
      have hout' : (Walk.group (g.mapIds σ) ⟨k, hk'⟩).run.run {} = out' := hout
      rw [hout']
      cases hwalk with
      | ok hw => exact .inr ⟨_, _, rfl, rfl, rfl, congrArg (List.map (·.entry)) hw.vars, hw.fragments⟩
      | error he => exact .inl ⟨_, _, rfl, rfl, he⟩
    · rw [dif_neg hk, dif_neg (by rwa [g.size_mapIds σ])]
      exact .inl ⟨_, _, rfl, rfl, rfl⟩

end QueryShape
