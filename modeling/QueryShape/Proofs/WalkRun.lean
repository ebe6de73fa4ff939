import QueryShape.Proofs.WriterOutline

/-!
# Runs of the walk

`Ran step w a w'`: a step of the walk that starts in `w` succeeds with `a` and ends in `w'`.
`GroupRun`, `FieldsRun` and `FieldRun` say by rules what a successful walk over a node in braces, over
fields and over one field has done; `groupRun_of_ran` derives them from the walk. What holds of
finished walks is proved by induction on the rules.
-/

set_option autoImplicit false

namespace QueryShape

namespace Graph

theorem nested?_of_child? {g : Graph} {k : Fin g.size} {f : Field}
    {i : { i : Fin g.size // i.val < k.val }} (h : g.child? k f = some i) :
    f.kind.nested? = some i.val.val := by
  unfold child? at h
  obtain ⟨n, hn, h⟩ := Option.bind_eq_some_iff.1 h
  split at h
  · cases h
    exact hn
  · cases h

/-- In an extracted graph no reference is lost. -/
theorem Arranged.nested?_eq_none {g : Graph} (hg : g.Arranged) {k : Fin g.size} {f : Field}
    (hf : f ∈ (g.node k).fields) (h : g.child? k f = none) : f.kind.nested? = none := by
  cases hn : f.kind.nested? with
  | none => rfl
  | some i =>
    rw [child?, hn, Option.bind_some, dif_pos (hg.below k f i hf hn)] at h
    cases h

end Graph

namespace Walk

def Ran {α : Type} (step : Step α) (w : Walk) (a : α) (w' : Walk) : Prop :=
  step.run.run w = (.ok a, w')

section
variable {α β : Type} {w w' : Walk}

theorem ran_pure {a b : α} : Ran (pure a) w b w' ↔ b = a ∧ w' = w := by
  constructor
  · intro h
    cases h
    exact ⟨rfl, rfl⟩
  · rintro ⟨rfl, rfl⟩
    rfl

theorem ran_bind {step : Step α} {next : α → Step β} {b : β} :
    Ran (step >>= next) w b w' ↔ ∃ a w₁, Ran step w a w₁ ∧ Ran (next a) w₁ b w' := by
  unfold Ran
  rw [run_bind]
  rcases step.run.run w with ⟨e | a, w₁⟩
  · constructor
    · intro h
      cases h
    · rintro ⟨a, w₁, h, -⟩
      cases h
  · constructor
    · intro h
      exact ⟨a, w₁, rfl, h⟩
    · rintro ⟨a, w₁, h, h'⟩
      cases h
      exact h'

theorem ran_get {a : Walk} : Ran get w a w' ↔ a = w ∧ w' = w := ran_pure

theorem ran_modify {f : Walk → Walk} {a : PUnit} : Ran (modify f) w a w' ↔ w' = f w := by
  constructor
  · intro h
    cases h
    rfl
  · rintro rfl
    rfl

theorem ran_log {e : Event} {a : Unit} : Ran (log e) w a w' ↔ w' = w.logged e := ran_modify

theorem ran_get_bind {next : Walk → Step β} {b : β} :
    Ran (get >>= next) w b w' ↔ Ran (next w) w b w' := by
  rw [ran_bind]
  constructor
  · rintro ⟨a, w₁, hg, h⟩
    obtain ⟨rfl, rfl⟩ := ran_get.1 hg
    exact h
  · intro h
    exact ⟨w, w, ran_get.2 ⟨rfl, rfl⟩, h⟩

theorem ran_log_bind {e : Event} {next : Unit → Step β} {b : β} :
    Ran (log e >>= next) w b w' ↔ Ran (next ()) (w.logged e) b w' := by
  rw [ran_bind]
  constructor
  · rintro ⟨a, w₁, hl, h⟩
    obtain rfl := ran_log.1 hl
    exact h
  · intro h
    exact ⟨(), _, ran_log.2 rfl, h⟩

theorem ran_modify_bind {f : Walk → Walk} {next : PUnit → Step β} {b : β} :
    Ran (modify f >>= next) w b w' ↔ Ran (next ⟨⟩) (f w) b w' := by
  rw [ran_bind]
  constructor
  · rintro ⟨a, w₁, hm, h⟩
    obtain rfl := ran_modify.1 hm
    exact h
  · intro h
    exact ⟨⟨⟩, _, ran_modify.2 rfl, h⟩

theorem not_ran_throw {e : Failure} {a : α} : ¬ Ran (throw e) w a w' := by
  intro h
  cases h

theorem ran_below {name : String} {step : Step α} {a : α} :
    Ran (below name step) w a w' ↔ ∃ w₁, Ran step (w.enter name) a w₁ ∧ w' = w₁.leaveTo w := by
  unfold Ran
  rw [run_below]
  rcases step.run.run (w.enter name) with ⟨r, w₁⟩
  constructor
  · intro h
    cases h
    exact ⟨w₁, rfl, rfl⟩
  · rintro ⟨w₂, h, rfl⟩
    cases h
    rfl

end

/-! ## Fragments and variables -/

theorem register_put {node : Node} {selections : List Selection} {w w' : Walk} {name : String}
    (h : Ran (register node selections) w name w') :
    name = freshName (w.fragments.map (·.name)) (fragmentName node.id) ∧
      w'.fragments = putFragment w.fragments ⟨node.id, name, node.name.getD name, selections⟩ := by
  rw [register, ran_get_bind] at h
  dsimp only at h
  split at h
  · rw [ran_log_bind, ran_log_bind, ran_modify_bind] at h
    obtain ⟨rfl, rfl⟩ := ran_pure.1 h
    exact ⟨rfl, rfl⟩
  · rw [ran_log_bind, ran_modify_bind] at h
    obtain ⟨rfl, rfl⟩ := ran_pure.1 h
    exact ⟨rfl, rfl⟩

/-- A node without a fragment gets one. -/
structure Registers (node : Node) (selections : List Selection) (w : Walk) (name : String)
    (w' : Walk) : Prop where
  ran : Ran (register node selections) w name w'
  new : ∀ f ∈ w.fragments, f.shapeId ≠ node.id

/-- A new fragment comes last, under a name that is fresh for those before it. -/
theorem register_ran {node : Node} {selections : List Selection} {w w' : Walk} {name : String}
    (h : Registers node selections w name w') :
    name = freshName (w.fragments.map (·.name)) (fragmentName node.id) ∧
      w'.fragments = w.fragments ++ [⟨node.id, name, node.name.getD name, selections⟩] := by
  obtain ⟨hname, hw⟩ := register_put h.ran
  exact ⟨hname, hw.trans (putFragment_of_new h.new)⟩

/-- Registering always succeeds, and changes nothing but the fragments and the events. -/
theorem ran_register (node : Node) (selections : List Selection) (w : Walk) :
    ∃ w', Ran (register node selections) w
        (freshName (w.fragments.map (·.name)) (fragmentName node.id)) w' ∧
      w'.path = w.path ∧ w'.vars = w.vars := by
  simp only [register, ran_get_bind]
  split
  · simp only [ran_log_bind, ran_modify_bind]
    exact ⟨_, ran_pure.2 ⟨rfl, rfl⟩, rfl, rfl⟩
  · simp only [ran_log_bind, ran_modify_bind]
    exact ⟨_, ran_pure.2 ⟨rfl, rfl⟩, rfl, rfl⟩

theorem useVariable_ran {key : String} {explicitName type : Option String} {default : Option Value}
    {w w' : Walk} {name : String} (h : Ran (useVariable key explicitName type default) w name w') :
    name = explicitName.getD (placeName w.path key) ∧ w'.fragments = w.fragments := by
  rw [useVariable, ran_get_bind] at h
  dsimp only at h
  split at h
  · rw [ran_log_bind, ran_modify_bind] at h
    obtain ⟨rfl, rfl⟩ := ran_pure.1 h
    exact ⟨rfl, rfl⟩
  · rename_i slot hs
    cases hc : VariableSlot.checkUse slot explicitName.isSome type w.path with
    | error e =>
      rw [hc] at h
      obtain ⟨_, _, ht, -⟩ := ran_bind.1 h
      exact absurd ht not_ran_throw
    | ok u =>
      rw [hc] at h
      obtain ⟨_, _, hp, h₁⟩ := ran_bind.1 h
      obtain ⟨rfl, rfl⟩ := ran_pure.1 hp
      rw [ran_log_bind, ran_modify_bind] at h₁
      obtain ⟨rfl, rfl⟩ := ran_pure.1 h₁
      exact ⟨rfl, rfl⟩

theorem ran_arguments_literal {key : String} {value : Value} {type : Option String}
    {args : List (String × Argument)} {w w' : Walk} {operands : List (String × Operand)}
    (h : Ran (arguments ((key, .literal value type) :: args)) w operands w') :
    ∃ rest, Ran (arguments args) w rest w' ∧
      operands = if value.literalText.isEmpty then rest
        else (key, .literal value.literalText) :: rest := by
  rw [arguments] at h
  obtain ⟨rest, _, hr, h₁⟩ := ran_bind.1 h
  obtain ⟨rfl, rfl⟩ := ran_pure.1 h₁
  exact ⟨rest, hr, rfl⟩

theorem ran_arguments_variable {key : String} {name type : Option String} {default : Option Value}
    {args : List (String × Argument)} {w w' : Walk} {operands : List (String × Operand)}
    (h : Ran (arguments ((key, .variable name type default) :: args)) w operands w') :
    ∃ used w₁ rest, Ran (useVariable key name type default) w used w₁ ∧
      Ran (arguments args) w₁ rest w' ∧ operands = (key, .variable used name.isSome) :: rest := by
  rw [arguments] at h
  obtain ⟨used, w₁, hu, h₁⟩ := ran_bind.1 h
  obtain ⟨rest, _, hr, h₂⟩ := ran_bind.1 h₁
  obtain ⟨rfl, rfl⟩ := ran_pure.1 h₂
  exact ⟨used, w₁, rest, hu, hr, rfl⟩

theorem fragments_arguments {args : List (String × Argument)} {w w' : Walk}
    {operands : List (String × Operand)} (h : Ran (arguments args) w operands w') :
    w'.fragments = w.fragments := by
  induction args generalizing w operands with
  | nil =>
    obtain ⟨rfl, rfl⟩ := ran_pure.1 h
    rfl
  | cons a args ih =>
    obtain ⟨key, ⟨value, type⟩ | ⟨name, type, default⟩⟩ := a
    · obtain ⟨rest, hr, -⟩ := ran_arguments_literal h
      exact ih hr
    · obtain ⟨used, w₁, rest, hu, hr, -⟩ := ran_arguments_variable h
      rw [ih hr, (useVariable_ran hu).2]

/-! ## The rules -/

mutual

inductive GroupRun (g : Graph) : Fin g.size → Walk → Group → Walk → Prop
  | spread {k : Fin g.size} {w : Walk} {f : FragmentOutline} : fragmentOf? w (g.node k) = some f →
      GroupRun g k w (.spread f.name) (w.logged (.spreadFragment (g.node k).id f.name))
  | block {k : Fin g.size} {w w' : Walk} {selections : List Selection} :
      fragmentOf? w (g.node k) = none → ¬ 1 < (g.node k).uses →
      FieldsRun g k (g.node k).fields w selections w' → GroupRun g k w (.block selections) w'
  | register {k : Fin g.size} {w w₁ w' : Walk} {selections : List Selection} {name : String} :
      fragmentOf? w (g.node k) = none → 1 < (g.node k).uses →
      FieldsRun g k (g.node k).fields w selections w₁ →
      Registers (g.node k) selections w₁ name w' → GroupRun g k w (.spread name) w'

inductive FieldsRun (g : Graph) : Fin g.size → List Field → Walk → List Selection → Walk → Prop
  | nil {k : Fin g.size} {w : Walk} : FieldsRun g k [] w [] w
  | cons {k : Fin g.size} {f : Field} {fs : List Field} {w w₁ w' : Walk}
      {here rest : List Selection} : FieldRun g k f (w.enter f.name) here w₁ →
      FieldsRun g k fs (w₁.leaveTo w) rest w' → FieldsRun g k (f :: fs) w (here ++ rest) w'

inductive FieldRun (g : Graph) : Fin g.size → Field → Walk → List Selection → Walk → Prop
  | nothing {k : Fin g.size} {f : Field} {w : Walk} : (g.node k).isUnion = false →
      f.kind.isInline = true → g.child? k f = none → FieldRun g k f w [] w
  | spread {k : Fin g.size} {f : Field} {i : { i : Fin g.size // i.val < k.val }} {w : Walk}
      {fragment : FragmentOutline} : (g.node k).isUnion = false → f.kind.isInline = true →
      g.child? k f = some i → fragmentOf? w (g.node i) = some fragment →
      FieldRun g k f w [.spread fragment.name]
        (w.logged (.spreadFragment (g.node i).id fragment.name))
  | splice {k : Fin g.size} {f : Field} {i : { i : Fin g.size // i.val < k.val }} {w w' : Walk}
      {selections : List Selection} : (g.node k).isUnion = false → f.kind.isInline = true →
      g.child? k f = some i → fragmentOf? w (g.node i) = none →
      FieldsRun g i (g.node i).fields w selections w' → FieldRun g k f w selections w'
  | leaf {k : Fin g.size} {f : Field} {w w' : Walk} {operands : List (String × Operand)} :
      (g.node k).isUnion = false → f.kind.isInline = false → g.child? k f = none →
      Ran (arguments f.arguments) w operands w' → FieldRun g k f w [.leaf f.name operands] w'
  | nested {k : Fin g.size} {f : Field} {i : { i : Fin g.size // i.val < k.val }} {w w₁ w' : Walk}
      {operands : List (String × Operand)} {group : Group} : (g.node k).isUnion = false →
      f.kind.isInline = false → g.child? k f = some i → Ran (arguments f.arguments) w operands w₁ →
      GroupRun g i w₁ group w' → FieldRun g k f w [.nested f.name operands group] w'
  | typename {k : Fin g.size} {f : Field} {w : Walk} : (g.node k).isUnion = true →
      f.name = typenameField → FieldRun g k f w [.leaf f.name []] w
  | branch {k : Fin g.size} {f : Field} {i : { i : Fin g.size // i.val < k.val }} {w w' : Walk}
      {type : String} {group : Group} : (g.node k).isUnion = true → f.name ≠ typenameField →
      g.child? k f = some i → (g.node i).name = some type → GroupRun g i w group w' →
      FieldRun g k f w [.branch type group] w'

end

mutual

theorem groupRun_of_ran {g : Graph} (hg : g.Arranged) {k : Fin g.size} {w w' : Walk} {gr : Group}
    (h : Ran (group g k) w gr w') : GroupRun g k w gr w' := by
  rw [group, ran_get_bind] at h
  split at h
  · rename_i f hf
    rw [ran_log_bind] at h
    obtain ⟨rfl, rfl⟩ := ran_pure.1 h
    exact .spread hf
  · rename_i hf
    obtain ⟨selections, w₁, hs, h₁⟩ := ran_bind.1 h
    have hrun := fieldsRun_of_ran hg hs
    split at h₁
    · rename_i hu
      obtain ⟨name, _, hr, h₂⟩ := ran_bind.1 h₁
      obtain ⟨rfl, rfl⟩ := ran_pure.1 h₂
      have hgrown : Grown g k.val w w₁ := by
        have hafter : after (fields g k (g.node k).fields) w = w₁ := congrArg Prod.snd hs
        rw [← hafter]
        exact grown_fields hg k _ w
      exact .register hf hu hrun ⟨hr, hgrown.ne_id hg (fragmentOf?_eq_none hf hu)⟩
    · rename_i hu
      obtain ⟨rfl, rfl⟩ := ran_pure.1 h₁
      exact .block hf hu hrun
termination_by (k.val, 1, 0)

theorem fieldsRun_of_ran {g : Graph} (hg : g.Arranged) {k : Fin g.size} {fs : List Field} {w w' : Walk}
    {selections : List Selection} (h : Ran (fields g k fs) w selections w') :
    FieldsRun g k fs w selections w' := by
  match fs with
  | [] =>
    rw [fields_nil] at h
    obtain ⟨rfl, rfl⟩ := ran_pure.1 h
    exact .nil
  | f :: fs =>
    rw [fields_cons] at h
    obtain ⟨here, _, hb, h₁⟩ := ran_bind.1 h
    obtain ⟨w₁, hh, rfl⟩ := ran_below.1 hb
    obtain ⟨rest, _, hr, h₂⟩ := ran_bind.1 h₁
    obtain ⟨rfl, rfl⟩ := ran_pure.1 h₂
    refine .cons ?_ (fieldsRun_of_ran hg hr)
    clear hb h h₁
    split at hh
    · rename_i hu
      exact fieldRun_of_branch hg hu hh
    · rename_i hu
      exact fieldRun_of_field hg (Bool.eq_false_iff.2 hu) hh
termination_by (k.val, 0, fs.length + 1)

theorem fieldRun_of_field {g : Graph} (hg : g.Arranged) {k : Fin g.size} {f : Field} {w w' : Walk}
    {selections : List Selection} (hu : (g.node k).isUnion = false)
    (h : Ran (field g k f) w selections w') : FieldRun g k f w selections w' := by
  rw [field] at h
  split at h
  · rename_i hi
    split at h
    · rename_i i hlt hc
      rw [splice, ran_get_bind] at h
      split at h
      · rename_i fragment hf
        rw [ran_log_bind] at h
        obtain ⟨rfl, rfl⟩ := ran_pure.1 h
        exact .spread hu hi hc hf
      · rename_i hf
        exact .splice hu hi hc hf (fieldsRun_of_ran hg h)
    · rename_i hc
      obtain ⟨rfl, rfl⟩ := ran_pure.1 h
      exact .nothing hu hi hc
  · rename_i hi
    obtain ⟨operands, w₁, ha, h₁⟩ := ran_bind.1 h
    split at h₁
    · rename_i i hlt hc
      obtain ⟨gr, _, hgr, h₂⟩ := ran_bind.1 h₁
      obtain ⟨rfl, rfl⟩ := ran_pure.1 h₂
      exact .nested hu (Bool.eq_false_iff.2 hi) hc ha (groupRun_of_ran hg hgr)
    · rename_i hc
      obtain ⟨rfl, rfl⟩ := ran_pure.1 h₁
      exact .leaf hu (Bool.eq_false_iff.2 hi) hc ha
termination_by (k.val, 0, 0)

theorem fieldRun_of_branch {g : Graph} (hg : g.Arranged) {k : Fin g.size} {f : Field} {w w' : Walk}
    {selections : List Selection} (hu : (g.node k).isUnion = true)
    (h : Ran (branch g k f) w selections w') : FieldRun g k f w selections w' := by
  rw [branch] at h
  split at h
  · rename_i hn
    obtain ⟨rfl, rfl⟩ := ran_pure.1 h
    exact .typename hu hn
  · rename_i hn
    split at h
    · rw [ran_get_bind] at h
      exact absurd h not_ran_throw
    · rename_i i hlt hc
      split at h
      · rw [ran_get_bind] at h
        exact absurd h not_ran_throw
      · rename_i type ht
        obtain ⟨gr, _, hgr, h₁⟩ := ran_bind.1 h
        obtain ⟨rfl, rfl⟩ := ran_pure.1 h₁
        exact .branch hu hn hc ht (groupRun_of_ran hg hgr)
termination_by (k.val, 0, 0)

end

/-! ## What every run keeps -/

mutual

/-- Fragments stay where they are; new ones come after them. -/
theorem GroupRun.fragments_prefix {g : Graph} {k : Fin g.size} {w w' : Walk} {gr : Group} :
    GroupRun g k w gr w' → w.fragments <+: w'.fragments
  | .spread _ => List.prefix_refl _
  | .block _ _ h => h.fragments_prefix
  | .register _ _ h hr => by
    rw [(register_ran hr).2]
    exact h.fragments_prefix.trans (List.prefix_append _ _)

theorem FieldsRun.fragments_prefix {g : Graph} {k : Fin g.size} {fs : List Field} {w w' : Walk}
    {selections : List Selection} :
    FieldsRun g k fs w selections w' → w.fragments <+: w'.fragments
  | .nil => List.prefix_refl _
  | .cons h hs => h.fragments_prefix.trans hs.fragments_prefix

theorem FieldRun.fragments_prefix {g : Graph} {k : Fin g.size} {f : Field} {w w' : Walk}
    {selections : List Selection} :
    FieldRun g k f w selections w' → w.fragments <+: w'.fragments
  | .nothing .. => List.prefix_refl _
  | .spread .. => List.prefix_refl _
  | .splice _ _ _ _ h => h.fragments_prefix
  | .leaf _ _ _ ha => ⟨[], by rw [List.append_nil, fragments_arguments ha]⟩
  | .nested _ _ _ ha h => by
    rw [← fragments_arguments ha]
    exact h.fragments_prefix
  | .typename .. => List.prefix_refl _
  | .branch _ _ _ _ h => h.fragments_prefix

end

end Walk

/-- An outline comes from a run over the root that starts with nothing. -/
theorem Outline.run_of_ofGraph {g : Graph} {o : Outline} (hg : g.Arranged)
    (h : Outline.ofGraph g = .ok o) :
    ∃ (k : Fin g.size) (w : Walk), g.root = some k.val ∧ Walk.GroupRun g k {} o.root w ∧
      o.vars = w.vars.map (·.entry) ∧ o.fragments = w.fragments := by
  unfold Outline.ofGraph Outline.ofGraphLogged at h
  split at h
  · cases h
  · rename_i k hk
    split at h
    · rename_i hlt
      rcases hr : (Walk.group g ⟨k, hlt⟩).run.run {} with ⟨r, w⟩
      rw [hr] at h
      cases r with
      | error e => cases h
      | ok root =>
        cases h
        exact ⟨⟨k, hlt⟩, w, hk, Walk.groupRun_of_ran hg hr, rfl, rfl⟩
    · cases h

theorem ShapeTable.graph_of_compile {κ : Type} [DecidableEq κ] {t : ShapeTable κ} {unit : String}
    {root : Option κ} {c : Compiled} (h : t.compile unit root = .ok c) :
    ∃ key g, root = some key ∧ Graph.extract t key = .ok g ∧ g.compile unit = .ok c := by
  unfold ShapeTable.compile ShapeTable.compileLogged at h
  cases root with
  | none => cases h
  | some key =>
    dsimp only at h
    split at h
    · cases h
    · rename_i g events he
      exact ⟨key, g, rfl, by rw [Graph.extract, he], h⟩

theorem ShapeTable.compile_eq {κ : Type} [DecidableEq κ] {t : ShapeTable κ} {key : κ} {g : Graph}
    (unit : String) (h : Graph.extract t key = .ok g) :
    t.compile unit (some key) = g.compile unit := by
  unfold Graph.extract at h
  unfold ShapeTable.compile ShapeTable.compileLogged
  dsimp only
  split
  · rename_i he
    rw [he] at h
    cases h
  · rename_i he
    rw [he] at h
    cases h
    rfl

/-- What is compiled depends on the extraction only. -/
theorem ShapeTable.compile_eq_bind {κ : Type} [DecidableEq κ] (t : ShapeTable κ) (unit : String)
    (key : κ) : t.compile unit (some key) = (Graph.extract t key).bind (Graph.compile unit) := by
  cases h : Graph.extract t key with
  | ok g => exact compile_eq unit h
  | error e =>
    unfold Graph.extract at h
    unfold ShapeTable.compile ShapeTable.compileLogged
    dsimp only
    split
    · rename_i he
      rw [he] at h
      cases h
      rfl
    · rename_i he
      rw [he] at h
      cases h

end QueryShape
