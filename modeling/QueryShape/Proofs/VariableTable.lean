import Mathlib
import QueryShape.Proofs.FragmentTable
import QueryShape.Proofs.OrderedMap
import QueryShape.Proofs.VariableSites

/-!
# The variables of an operation

`variables_accounted`: the table of variables is the table of the sites of an operation (`Tabulates`),
and the sites are all the places where variables are written. `Tabulates.new` and `Tabulates.again` are
what one use of a variable does to the table, and `GroupRun.sites` is what the whole walk does.
-/

set_option autoImplicit false

namespace QueryShape

/-! ## The table -/

/-- The variable with one more use, if this is its name. -/
def Variable.usedAt (v : Variable) (name path : String) : Variable :=
  if v.name = name then { v with usagePaths := v.usagePaths ++ [path] } else v

@[simp] theorem Variable.name_usedAt (v : Variable) (name path : String) :
    (v.usedAt name path).name = v.name := by
  unfold usedAt; split <;> rfl

@[simp] theorem Variable.type_usedAt (v : Variable) (name path : String) :
    (v.usedAt name path).type = v.type := by
  unfold usedAt; split <;> rfl

@[simp] theorem Variable.default_usedAt (v : Variable) (name path : String) :
    (v.usedAt name path).default = v.default := by
  unfold usedAt; split <;> rfl

/-- The variables are those of the sites, in the order of their first sites. -/
structure Tabulates (sites : List VariableSite) (vars : List Variable) : Prop where
  distinct : (vars.map (·.name)).Nodup
  names : vars.map (·.name) = (sites.map (·.name)).eraseDups
  paths : ∀ v ∈ vars, v.usagePaths =
    (sites.filter (·.name == v.name)).map fun s => Failure.pathText s.path
  types : ∀ v ∈ vars, ∀ s ∈ sites, s.name = v.name → s.type = v.type
  default : ∀ v ∈ vars, (sites.find? (·.name == v.name)).map (·.default) = some v.default

namespace Tabulates

variable {sites : List VariableSite} {vars : List Variable}

theorem nil : Tabulates [] [] :=
  ⟨List.nodup_nil, rfl, fun _ hv => (List.not_mem_nil hv).elim,
    fun _ hv => (List.not_mem_nil hv).elim, fun _ hv => (List.not_mem_nil hv).elim⟩

theorem mem_names (h : Tabulates sites vars) {n : String} :
    n ∈ vars.map (·.name) ↔ ∃ s ∈ sites, s.name = n := by
  rw [h.names, List.mem_eraseDups, List.mem_map]

/-- The first use of a name. -/
theorem new (h : Tabulates sites vars) {s : VariableSite} (hn : s.name ∉ vars.map (·.name)) :
    Tabulates (sites ++ [s])
      (vars ++ [⟨s.name, s.type, [Failure.pathText s.path], s.default⟩]) := by
  have hsite : ∀ s' ∈ sites, s'.name ≠ s.name := fun s' hs' he => hn (h.mem_names.2 ⟨s', hs', he⟩)
  have hvar : ∀ v ∈ vars, s.name ≠ v.name := fun v hv he => hn (he ▸ List.mem_map_of_mem hv)
  have hother : ∀ v ∈ vars, (s.name == v.name) = false := fun v hv => beq_eq_false_iff_ne.2 (hvar v hv)
  have hfilter : sites.filter (·.name == s.name) = [] :=
    List.filter_eq_nil_iff.2 fun s' hs' => by simpa using hsite s' hs'
  have hfind : sites.find? (·.name == s.name) = none :=
    List.find?_eq_none.2 fun s' hs' => by simpa using hsite s' hs'
  have hnew : s.name ∉ sites.map (·.name) := by rwa [← List.mem_eraseDups, ← h.names]
  refine ⟨nodup_map_snoc h.distinct hn, ?_, ?_, ?_, ?_⟩
  · rw [List.map_append, List.map_append, List.map_singleton, List.map_singleton,
      eraseDups_concat, if_neg hnew, h.names]
  · simp only [List.forall_mem_append, List.forall_mem_singleton, List.filter_append, hfilter]
    refine ⟨fun v hv => ?_, by simp⟩
    simp [h.paths v hv, hother v hv]
  · simp only [List.forall_mem_append, List.forall_mem_singleton]
    refine ⟨fun v hv => ⟨h.types v hv, fun he => absurd he (hvar v hv)⟩, ?_, fun _ => trivial⟩
    exact fun s' hs' he => absurd he (hsite s' hs')
  · simp only [List.forall_mem_append, List.forall_mem_singleton, List.find?_append, hfind]
    refine ⟨fun v hv => ?_, by simp⟩
    have hd := h.default v hv
    obtain ⟨s', hs', -⟩ := Option.map_eq_some_iff.1 hd
    rw [hs'] at hd ⊢
    exact hd

/-- One more use of a name that is in the table, with the same type. -/
theorem again (h : Tabulates sites vars) {s : VariableSite} {v : Variable} (hv : v ∈ vars)
    (hn : v.name = s.name) (ht : v.type = s.type) :
    Tabulates (sites ++ [s]) (vars.map (·.usedAt s.name (Failure.pathText s.path))) := by
  have hnames : (vars.map (·.usedAt s.name (Failure.pathText s.path))).map (·.name) =
      vars.map (·.name) := by
    simp [Function.comp_def]
  have hmem : s.name ∈ sites.map (·.name) := by
    rw [← List.mem_eraseDups, ← h.names, ← hn]
    exact List.mem_map_of_mem hv
  refine ⟨hnames ▸ h.distinct, ?_, ?_, ?_, ?_⟩
  · rw [hnames, h.names, List.map_append, List.map_singleton, eraseDups_concat, if_pos hmem]
  · rw [List.forall_mem_map]
    intro v' hv'
    rw [Variable.name_usedAt, List.filter_append, List.map_append, ← h.paths v' hv',
      Variable.usedAt]
    by_cases he : v'.name = s.name
    · simp [he]
    · simp [he, Ne.symm he]
  · rw [List.forall_mem_map]
    intro v' hv'
    simp only [Variable.name_usedAt, Variable.type_usedAt, List.forall_mem_append,
      List.forall_mem_singleton]
    refine ⟨h.types v' hv', fun he => ?_⟩
    have hsame := List.inj_on_of_nodup_map h.distinct hv' hv (he.symm.trans hn.symm)
    rw [hsame, ht]
  · rw [List.forall_mem_map]
    intro v' hv'
    have hd := h.default v' hv'
    obtain ⟨s', hs', -⟩ := Option.map_eq_some_iff.1 hd
    rw [hs'] at hd
    simp only [Variable.name_usedAt, Variable.default_usedAt, List.find?_append, hs',
      Option.some_or, hd]

end Tabulates

/-! ## The walk -/

namespace Walk

theorem entry_addUse (slots : List VariableSlot) (name path : String) :
    (VariableSlot.addUse slots name path).map (·.entry) =
      (slots.map (·.entry)).map (·.usedAt name path) := by
  rw [VariableSlot.addUse, List.map_map, List.map_map]
  refine List.map_congr_left fun s _ => ?_
  simp only [Function.comp_apply, Variable.usedAt]
  split <;> rfl

/-- A use of a variable either makes it or fits it. -/
theorem useVariable_cases {key : String} {explicitName type : Option String}
    {default : Option Value} {w w' : Walk} {name : String}
    (h : Ran (useVariable key explicitName type default) w name w') :
    w'.path = w.path ∧
      ((w.vars.find? (·.entry.name == name) = none ∧ w'.vars = w.vars ++
          [⟨⟨name, type, [Failure.pathText w.path], default⟩, explicitName.isSome⟩]) ∨
        ∃ slot, w.vars.find? (·.entry.name == name) = some slot ∧ slot.entry.type = type ∧
          w'.vars = VariableSlot.addUse w.vars name (Failure.pathText w.path)) := by
  obtain ⟨hname, -⟩ := useVariable_ran h
  rw [useVariable, ran_get_bind] at h
  dsimp only at h
  rw [← hname] at h
  split at h
  · rename_i hf
    rw [ran_log_bind, ran_modify_bind] at h
    obtain ⟨-, rfl⟩ := ran_pure.1 h
    exact ⟨rfl, .inl ⟨hf, rfl⟩⟩
  · rename_i slot hf
    obtain ⟨_, _, hl, h₁⟩ := ran_bind.1 h
    rw [VariableSlot.checkUse] at hl
    split at hl
    · exact absurd hl not_ran_throw
    · split at hl
      · exact absurd hl not_ran_throw
      · rename_i ht
        obtain ⟨rfl, rfl⟩ := ran_pure.1 hl
        rw [ran_log_bind, ran_modify_bind] at h₁
        obtain ⟨-, rfl⟩ := ran_pure.1 h₁
        exact ⟨rfl, .inr ⟨slot, hf, not_not.1 ht, rfl⟩⟩

/-- The table of the walk. -/
abbrev table (w : Walk) : List Variable := w.vars.map (·.entry)

theorem vars_register {node : Node} {selections : List Selection} {w w' : Walk} {name : String}
    (h : Ran (register node selections) w name w') : w'.vars = w.vars := by
  rw [register, ran_get_bind] at h
  dsimp only at h
  split at h
  · rw [ran_log_bind, ran_log_bind, ran_modify_bind] at h
    obtain ⟨-, rfl⟩ := ran_pure.1 h
    rfl
  · rw [ran_log_bind, ran_modify_bind] at h
    obtain ⟨-, rfl⟩ := ran_pure.1 h
    rfl

theorem tabulates_useVariable {key : String} {explicitName type : Option String}
    {default : Option Value} {w w' : Walk} {name : String} {sites : List VariableSite}
    (h : Ran (useVariable key explicitName type default) w name w') (ht : Tabulates sites w.table) :
    w'.path = w.path ∧ Tabulates
      (sites ++ [⟨w.path, key, name, explicitName.isSome, type, default⟩]) w'.table := by
  obtain ⟨hpath, ⟨hf, hv⟩ | ⟨slot, hf, hty, hv⟩⟩ := useVariable_cases h
  · refine ⟨hpath, ?_⟩
    have hn : name ∉ w.table.map (·.name) := by
      rw [List.map_map, List.mem_map]
      rintro ⟨slot, hs, he⟩
      exact absurd he (by simpa using List.find?_eq_none.1 hf slot hs)
    rw [table, hv, List.map_append]
    exact ht.new hn
  · refine ⟨hpath, ?_⟩
    have hs := List.mem_map_of_mem (f := (·.entry)) (List.mem_of_find?_eq_some hf)
    have hn : slot.entry.name = name := by simpa using List.find?_some hf
    rw [table, hv, entry_addUse]
    exact ht.again (s := ⟨w.path, key, name, explicitName.isSome, type, default⟩) hs hn hty

theorem tabulates_arguments {args : OrderedMap String Argument} {w w' : Walk}
    {operands : List (String × Operand)} {sites : List VariableSite}
    (h : Ran (arguments args) w operands w') (ht : Tabulates sites w.table) :
    w'.path = w.path ∧ operands = operandsAt w.path args ∧
      Tabulates (sites ++ sitesAt w.path args) w'.table := by
  induction args generalizing w operands sites with
  | nil =>
    obtain ⟨rfl, rfl⟩ := ran_pure.1 h
    exact ⟨rfl, rfl, by simpa [sitesAt] using ht⟩
  | cons a args ih =>
    obtain ⟨key, ⟨value, type⟩ | ⟨name, type, default⟩⟩ := a
    · obtain ⟨rest, hr, rfl⟩ := ran_arguments_literal h
      obtain ⟨hpath, rfl, ht'⟩ := ih hr ht
      refine ⟨hpath, ?_, ht'⟩
      simp only [operandsAt, List.filterMap_cons, Argument.operand?]
      split <;> rfl
    · obtain ⟨used, w₁, rest, hu, hr, rfl⟩ := ran_arguments_variable h
      obtain ⟨hname, -⟩ := useVariable_ran hu
      obtain ⟨hpath₁, ht₁⟩ := tabulates_useVariable hu ht
      obtain ⟨hpath, rfl, ht'⟩ := ih hr ht₁
      rw [hpath₁] at hpath ht' ⊢
      subst hname
      exact ⟨hpath, rfl, by rwa [List.append_assoc] at ht'⟩

mutual

/-- What the walk writes has sites, and they are what it adds to the table. -/
theorem GroupRun.sites {g : Graph} {k : Fin g.size} {w w' : Walk} {gr : Group} :
    GroupRun g k w gr w' → ∀ {seen : List VariableSite}, Tabulates seen w.table →
      ∃ sites, GroupSites g w.fragments w.path k gr w'.fragments sites ∧
        Tabulates (seen ++ sites) w'.table
  | .spread hf, _, ht => by
    obtain ⟨-, hm, hid⟩ := fragmentOf?_eq_some hf
    exact ⟨[], .again hm hid, by rwa [List.append_nil]⟩
  | .block _ _ h, _, ht => by
    obtain ⟨sites, hs, ht'⟩ := h.sites ht
    exact ⟨sites, .block hs, ht'⟩
  | .register _ _ h hr, _, ht => by
    obtain ⟨sites, hs, ht'⟩ := h.sites ht
    obtain ⟨hname, hw⟩ := register_ran hr
    rw [hw]
    refine ⟨sites, .first (f := ⟨_, _, _, _⟩) hs rfl ?_, ?_⟩
    · rw [hname]
      exact freshName_notMem _ _
    · rwa [table, vars_register hr.ran]

theorem FieldsRun.sites {g : Graph} {k : Fin g.size} {fs : List Field} {w w' : Walk}
    {selections : List Selection} : FieldsRun g k fs w selections w' →
      ∀ {seen : List VariableSite}, Tabulates seen w.table →
      ∃ sites, FieldsSites g w.fragments w.path k fs selections w'.fragments sites ∧
        Tabulates (seen ++ sites) w'.table
  | .nil, _, ht => ⟨[], .nil, by rwa [List.append_nil]⟩
  | .cons h hs, _, ht => by
    obtain ⟨sites, hh, ht₁⟩ := h.sites ht
    obtain ⟨sites', hr, ht₂⟩ := hs.sites ht₁
    exact ⟨sites ++ sites', .cons hh hr, by rwa [← List.append_assoc]⟩

theorem FieldRun.sites {g : Graph} {k : Fin g.size} {f : Field} {w w' : Walk}
    {selections : List Selection} : FieldRun g k f w selections w' →
      ∀ {seen : List VariableSite}, Tabulates seen w.table →
      ∃ sites, FieldSites g w.fragments w.path k f selections w'.fragments sites ∧
        Tabulates (seen ++ sites) w'.table
  | .nothing hu hi hc, _, ht => ⟨[], .nothing hu hi hc, by rwa [List.append_nil]⟩
  | .spread hu hi hc hf, _, ht => by
    obtain ⟨-, hm, hid⟩ := fragmentOf?_eq_some hf
    exact ⟨[], .spread hu hi hc hm hid, by rwa [List.append_nil]⟩
  | .splice hu hi hc _ h, _, ht => by
    obtain ⟨sites, hs, ht'⟩ := h.sites ht
    exact ⟨sites, .splice hu hi hc hs, ht'⟩
  | .leaf hu hi hc ha, _, ht => by
    obtain ⟨-, rfl, ht'⟩ := tabulates_arguments ha ht
    rw [fragments_arguments ha]
    exact ⟨_, .leaf hu hi hc, ht'⟩
  | .nested hu hi hc ha h, _, ht => by
    obtain ⟨hpath, rfl, ht₁⟩ := tabulates_arguments ha ht
    obtain ⟨sites, hs, ht'⟩ := h.sites ht₁
    rw [fragments_arguments ha, hpath] at hs
    exact ⟨_, .nested hu hi hc hs, by rwa [← List.append_assoc]⟩
  | .typename hu hn, _, ht => ⟨[], .typename hu hn, by rwa [List.append_nil]⟩
  | .branch hu hn hc _ h, _, ht => by
    obtain ⟨sites, hs, ht'⟩ := h.sites ht
    exact ⟨sites, .branch hu hn hc hs, ht'⟩

end

end Walk

/-! ## Declarations -/

namespace Compiled

/-- The text that declares a variable with a type. -/
def declarationText (v : Variable) (type : String) : String :=
  "$" ++ v.name ++ ": " ++ type ++ v.default.elim "" fun d => " = " ++ d.defaultText

/-- The declarations in parentheses, one for each variable. -/
def Declares (vars : List Variable) (text : String) : Prop :=
  ∃ texts, List.Forall₂ (fun v d => ∃ type, v.type = some type ∧ d = declarationText v type)
    vars texts ∧ text = if texts.isEmpty then "" else "(" ++ ", ".intercalate texts ++ ")"

/-- What stands before the declarations in a document. -/
def documentHead (c : Compiled) (kind : OperationKind) (name : Option String) : String :=
  String.join (c.fragments.map (·.body ++ "\n")) ++ kind.keyword ++
    match name with
    | none => ""
    | some n => if n.isEmpty then "" else " " ++ n

theorem declaration_of_type {v : Variable} {type : String} (h : v.type = some type) :
    v.declaration = .ok (declarationText v type) := by
  rw [Variable.declaration, h, declarationText]
  cases v.default with
  | none => simp
  | some d => simp [String.append_assoc]

/-- Where all variables have types they are all declared, and else they cannot be. -/
theorem mapM_declaration (vars : List Variable) :
    (∃ v ∈ vars, v.type = none ∧ vars.mapM Variable.declaration = .error (.untypedVariable v.name)) ∨
      ((∀ v ∈ vars, v.type ≠ none) ∧ ∃ texts, vars.mapM Variable.declaration = .ok texts ∧
        List.Forall₂ (fun v d => ∃ type, v.type = some type ∧ d = declarationText v type)
          vars texts) := by
  induction vars with
  | nil => exact .inr ⟨fun _ hv => (List.not_mem_nil hv).elim, [], rfl, .nil⟩
  | cons v vars ih =>
    rw [List.mapM_cons]
    cases hv : v.type with
    | none => exact .inl ⟨v, List.mem_cons_self, hv, by rw [Variable.declaration, hv]; rfl⟩
    | some type =>
      rw [declaration_of_type hv]
      rcases ih with ⟨v', hv', hn, he⟩ | ⟨hall, texts, ht, hf⟩
      · exact .inl ⟨v', List.mem_cons_of_mem _ hv', hn, by rw [he]; rfl⟩
      · refine .inr ⟨?_, _, by rw [ht]; rfl, .cons ⟨type, hv, rfl⟩ hf⟩
        rw [List.forall_mem_cons, hv]
        exact ⟨nofun, hall⟩

/-- A document declares the variables, unless one of them has no type. -/
theorem document_cases (c : Compiled) (kind : OperationKind) (name : Option String) :
    (∃ v ∈ c.vars, v.type = none ∧ c.document kind name = .error (.untypedVariable v.name)) ∨
      ((∀ v ∈ c.vars, v.type ≠ none) ∧ ∃ declarations, Declares c.vars declarations ∧
        c.document kind name =
          .ok (c.documentHead kind name ++ declarations ++ " " ++ c.body)) := by
  have hdoc : c.document kind name = c.declarations.map fun declarations =>
      c.documentHead kind name ++ declarations ++ " " ++ c.body := rfl
  rw [hdoc, declarations]
  rcases mapM_declaration c.vars with ⟨v, hv, hn, he⟩ | ⟨hall, texts, ht, hf⟩
  · refine .inl ⟨v, hv, hn, ?_⟩
    have hne : c.vars.isEmpty = false := by
      rw [List.isEmpty_eq_false_iff]
      exact List.ne_nil_of_mem hv
    rw [hne, he]
    rfl
  · refine .inr ⟨hall, _, ⟨texts, hf, rfl⟩, ?_⟩
    have hempty : c.vars.isEmpty = texts.isEmpty := by
      rw [Bool.eq_iff_iff, List.isEmpty_iff_length_eq_zero, List.isEmpty_iff_length_eq_zero,
        hf.length_eq]
    rw [hempty, ht]
    split <;> rfl

end Compiled

/-! ## The whole operation -/

/-- The variables of an operation are those written at the sites, and its documents declare them. They
are rendered with dollar signs in the text of the root and of the fragments. -/
structure Accounted (c : Compiled) (o : Outline) (sites : List VariableSite) : Prop where
  written : o.writtenVariables.Perm (sites.map VariableSite.written)
  names_iff : ∀ n, n ∈ c.vars.map (·.name) ↔
    ∃ key explicit, (key, .variable n explicit) ∈ o.writtenVariables
  rendered : o.renderedVariables.Perm (sites.map (·.name))
  rendered_iff : ∀ n, n ∈ c.vars.map (·.name) ↔ n ∈ o.renderedVariables
  occurs : ∀ n ∈ c.vars.map (·.name), OccursIn ("$" ++ n) c.body ∨
    ∃ f ∈ c.fragments, OccursIn ("$" ++ n) f.body
  tabulates : Tabulates sites c.vars
  fails_iff : ∀ kind name, (∃ e, c.document kind name = .error e) ↔ ∃ s ∈ sites, s.type = none
  fails : ∀ kind name e, c.document kind name = .error e →
    ∃ s ∈ sites, s.type = none ∧ e = .untypedVariable s.name
  declares : ∀ kind name text, c.document kind name = .ok text → ∃ declarations,
    Compiled.Declares c.vars declarations ∧
      text = c.documentHead kind name ++ declarations ++ " " ++ c.body

theorem Tabulates.site_of_mem {sites : List VariableSite} {vars : List Variable}
    (h : Tabulates sites vars) {v : Variable} (hv : v ∈ vars) :
    ∃ s ∈ sites, s.name = v.name ∧ s.type = v.type := by
  obtain ⟨s, hs, hn⟩ := h.mem_names.1 (List.mem_map_of_mem hv)
  exact ⟨s, hs, hn, h.types v hv s hs hn⟩

theorem Tabulates.var_of_mem {sites : List VariableSite} {vars : List Variable}
    (h : Tabulates sites vars) {s : VariableSite} (hs : s ∈ sites) :
    ∃ v ∈ vars, v.type = s.type := by
  obtain ⟨v, hv, hn⟩ := List.mem_map.1 (h.mem_names.2 ⟨s, hs, rfl⟩)
  exact ⟨v, hv, (h.types v hv s hs hn.symm).symm⟩

/-- A variable that is rendered stands in the text of the root or of a fragment. -/
theorem Outline.occursIn_print (unit : String) {o : Outline} {n : String}
    (h : n ∈ o.renderedVariables) : OccursIn ("$" ++ n) (o.print unit).body ∨
      ∃ f ∈ (o.print unit).fragments, OccursIn ("$" ++ n) f.body := by
  rcases List.mem_append.1 h with h | h
  · obtain ⟨f, hf, hn⟩ := List.mem_flatMap.1 h
    exact .inr ⟨f.print unit, List.mem_map_of_mem hf, occursIn_of_mem_variablesIn unit hn⟩
  · exact .inl (occursIn_of_mem_variablesIn unit h)

/-- The variables that are rendered are those of the sites. -/
theorem Outline.perm_renderedVariables {o : Outline} {sites : List VariableSite}
    (hp : o.writtenVariables.Perm (sites.map VariableSite.written)) :
    o.renderedVariables.Perm (sites.map (·.name)) := by
  have hnames : operandVariables (sites.map VariableSite.written) = sites.map (·.name) := by
    rw [operandVariables, List.filterMap_map]
    exact congrFun List.filterMap_eq_map' sites
  rw [o.renderedVariables_eq, ← hnames]
  exact hp.filterMap _

theorem Tabulates.accounted {unit : String} {o : Outline} {sites : List VariableSite} {c : Compiled}
    (h : Tabulates sites c.vars) (hp : o.writtenVariables.Perm (sites.map VariableSite.written))
    (hc : c = o.print unit) : Accounted c o sites where
  written := hp
  rendered := Outline.perm_renderedVariables hp
  rendered_iff n := by
    rw [h.mem_names, (Outline.perm_renderedVariables hp).mem_iff, List.mem_map]
  occurs n hn := by
    rw [hc]
    refine Outline.occursIn_print unit ?_
    rwa [(Outline.perm_renderedVariables hp).mem_iff, List.mem_map, ← h.mem_names]
  names_iff n := by
    simp only [h.mem_names, hp.mem_iff, List.mem_map, VariableSite.written, Prod.mk.injEq,
      Operand.variable.injEq]
    constructor
    · rintro ⟨s, hs, rfl⟩
      exact ⟨s.key, s.explicit, s, hs, rfl, rfl, rfl⟩
    · rintro ⟨_, _, s, hs, -, rfl, -⟩
      exact ⟨s, hs, rfl⟩
  tabulates := h
  fails_iff kind name := by
    rcases c.document_cases kind name with ⟨v, hv, hn, he⟩ | ⟨hall, _, _, he⟩
    · obtain ⟨s, hs, -, ht⟩ := h.site_of_mem hv
      exact ⟨fun _ => ⟨s, hs, ht.trans hn⟩, fun _ => ⟨_, he⟩⟩
    · constructor
      · rintro ⟨e, he'⟩
        rw [he] at he'
        cases he'
      · rintro ⟨s, hs, hn⟩
        obtain ⟨v, hv, ht⟩ := h.var_of_mem hs
        exact absurd (ht.trans hn) (hall v hv)
  fails kind name e hfail := by
    rcases c.document_cases kind name with ⟨v, hv, hn, he⟩ | ⟨_, _, _, he⟩
    · obtain ⟨s, hs, hname, ht⟩ := h.site_of_mem hv
      rw [he] at hfail
      cases hfail
      exact ⟨s, hs, ht.trans hn, by rw [hname]⟩
    · rw [he] at hfail
      cases hfail
  declares kind name text htext := by
    rcases c.document_cases kind name with ⟨_, _, _, he⟩ | ⟨_, declarations, hd, he⟩
    · rw [he] at htext
      cases htext
    · rw [he] at htext
      exact ⟨declarations, hd, (Except.ok.inj htext).symm⟩

/-- The variables of a compiled operation account for every place where one is written. -/
theorem variables_accounted {κ : Type} [DecidableEq κ] {t : ShapeTable κ} {unit : String}
    {root : Option κ} {c : Compiled} (h : t.compile unit root = .ok c) :
    ∃ key g k o sites, root = some key ∧ Graph.extract t key = .ok g ∧ g.root = some k.val ∧
      Outline.ofGraph g = .ok o ∧ c = o.print unit ∧
      GroupSites g [] [] k o.root o.fragments sites ∧ Accounted c o sites := by
  obtain ⟨key, g, hkey, hx, hg⟩ := ShapeTable.graph_of_compile h
  obtain ⟨o, ho, rfl⟩ := Graph.outline_of_compile hg
  obtain ⟨k, w, hk, hr, hv, hw⟩ := Outline.run_of_ofGraph (Graph.arranged_extract hx) ho
  obtain ⟨sites, hs, ht⟩ := hr.sites Tabulates.nil
  rw [List.nil_append, Walk.table, ← hv] at ht
  rw [← hw] at hs
  exact ⟨key, g, k, o, sites, hkey, hx, hk, ho, rfl, hs, Tabulates.accounted ht hs.perm rfl⟩

/-- A search for items, which are a fragment in the end. Both variables are used twice, and one of
them has no type. -/
def searchTable : ShapeTable String :=
  ⟨[("item", ⟨"I", some "Item", [{ ident := "name", tag := some "name(in: $lang:Lang = EN)" }]⟩),
    ("search", ⟨"S", none,
      [{ ident := "hits", tag := some "hits(by: $key)", type := .shape "item" },
        { ident := "Item", embedded := true, type := .shape "item" },
        { ident := "more", tag := some "more(by: $key, in: $lang:Lang)", type := .shape "item" }]⟩)]⟩

def searchCompiled : Compiled where
  body := "\x7b\n\thits(by: $key)\x7b ...I \x7d\n\t...I\n" ++
    "\tmore(by: $key, in: $lang)\x7b ...I \x7d\n\x7d"
  vars := [⟨"key", none, ["hits", "more"], none⟩,
    ⟨"lang", some "Lang", ["hits/name", "more"], some (.enum "EN")⟩]
  fragments := [⟨"I", "Item", "fragment I on Item\x7b\n\tname(in: $lang)\n\x7d"⟩]

set_option maxRecDepth 100000 in
theorem compile_search : searchTable.compile "\t" (some "search") = .ok searchCompiled := by cbv

theorem variables_accounted_search :
    searchTable.compile "\t" (some "search") = .ok searchCompiled ∧
    ∃ key g k o sites, some "search" = some key ∧ Graph.extract searchTable key = .ok g ∧
      g.root = some k.val ∧ Outline.ofGraph g = .ok o ∧ searchCompiled = o.print "\t" ∧
      GroupSites g [] [] k o.root o.fragments sites ∧ Accounted searchCompiled o sites :=
  ⟨compile_search, variables_accounted compile_search⟩

end QueryShape
