import QueryShape.Proofs.WalkRun

/-!
# The places of variables

A `VariableSite` is a place of an operation where a variable is written for an argument. `GroupSites`,
`FieldsSites` and `FieldSites` read the sites off selections and graph side by side, in the order of
the walk: the selections of a fragment are read where it is spread first. The sites are all the places
where variables are written (`GroupSites.perm`).
-/

set_option autoImplicit false

namespace QueryShape

/-! ## Sites -/

structure VariableSite where
  /-- The names of the fields from the root to the one with the argument. -/
  path : List String
  key : String
  name : String
  /-- Whether the variable was named, and not called after its place. -/
  explicit : Bool
  type : Option String
  default : Option Value

/-- What is written at the site. -/
def VariableSite.written (s : VariableSite) : String × Operand :=
  (s.key, .variable s.name s.explicit)

/-- What is written for an argument of the field at `path`; a literal without text is left out. -/
def Argument.operand? (path : List String) (key : String) : Argument → Option Operand
  | .literal value _ =>
    if value.literalText.isEmpty then none else some (.literal value.literalText)
  | .variable name _ _ => some (.variable (name.getD (placeName path key)) name.isSome)

def Argument.site? (path : List String) (key : String) : Argument → Option VariableSite
  | .literal _ _ => none
  | .variable name type default =>
    some ⟨path, key, name.getD (placeName path key), name.isSome, type, default⟩

def operandsAt (path : List String) (arguments : OrderedMap String Argument) :
    List (String × Operand) :=
  arguments.filterMap fun (key, a) => (a.operand? path key).map (key, ·)

def sitesAt (path : List String) (arguments : OrderedMap String Argument) : List VariableSite :=
  arguments.filterMap fun (key, a) => a.site? path key

mutual

/-- The group of node `k`, which stands at `path`. Fragments `T` were read before, and with the group
fragments `T'` are read. -/
inductive GroupSites (g : Graph) : List FragmentOutline → List String → Fin g.size → Group →
    List FragmentOutline → List VariableSite → Prop
  | block {T T' : List FragmentOutline} {path : List String} {k : Fin g.size}
      {ss : List Selection} {sites : List VariableSite} :
      FieldsSites g T path k (g.node k).fields ss T' sites →
      GroupSites g T path k (.block ss) T' sites
  | again {T : List FragmentOutline} {path : List String} {k : Fin g.size} {f : FragmentOutline} :
      f ∈ T → f.shapeId = (g.node k).id → GroupSites g T path k (.spread f.name) T []
  | first {T T' : List FragmentOutline} {path : List String} {k : Fin g.size}
      {f : FragmentOutline} {sites : List VariableSite} :
      FieldsSites g T path k (g.node k).fields f.selections T' sites →
      f.shapeId = (g.node k).id → f.name ∉ T'.map (·.name) →
      GroupSites g T path k (.spread f.name) (T' ++ [f]) sites

inductive FieldsSites (g : Graph) : List FragmentOutline → List String → Fin g.size → List Field →
    List Selection → List FragmentOutline → List VariableSite → Prop
  | nil {T : List FragmentOutline} {path : List String} {k : Fin g.size} :
      FieldsSites g T path k [] [] T []
  | cons {T T₁ T' : List FragmentOutline} {path : List String} {k : Fin g.size} {f : Field}
      {fs : List Field} {here rest : List Selection} {sites sites' : List VariableSite} :
      FieldSites g T (path ++ [f.name]) k f here T₁ sites →
      FieldsSites g T₁ path k fs rest T' sites' →
      FieldsSites g T path k (f :: fs) (here ++ rest) T' (sites ++ sites')

/-- The field at `path`. The arguments of inline fields and of members of unions are not written. -/
inductive FieldSites (g : Graph) : List FragmentOutline → List String → Fin g.size → Field →
    List Selection → List FragmentOutline → List VariableSite → Prop
  | nothing {T : List FragmentOutline} {path : List String} {k : Fin g.size} {f : Field} :
      (g.node k).isUnion = false → f.kind.isInline = true → g.child? k f = none →
      FieldSites g T path k f [] T []
  | spread {T : List FragmentOutline} {path : List String} {k : Fin g.size} {f : Field}
      {i : { i : Fin g.size // i.val < k.val }} {fragment : FragmentOutline} :
      (g.node k).isUnion = false → f.kind.isInline = true → g.child? k f = some i →
      fragment ∈ T → fragment.shapeId = (g.node i).id →
      FieldSites g T path k f [.spread fragment.name] T []
  | splice {T T' : List FragmentOutline} {path : List String} {k : Fin g.size} {f : Field}
      {i : { i : Fin g.size // i.val < k.val }} {ss : List Selection} {sites : List VariableSite} :
      (g.node k).isUnion = false → f.kind.isInline = true → g.child? k f = some i →
      FieldsSites g T path i (g.node i).fields ss T' sites → FieldSites g T path k f ss T' sites
  | leaf {T : List FragmentOutline} {path : List String} {k : Fin g.size} {f : Field} :
      (g.node k).isUnion = false → f.kind.isInline = false → g.child? k f = none →
      FieldSites g T path k f [.leaf f.name (operandsAt path f.arguments)] T
        (sitesAt path f.arguments)
  | nested {T T' : List FragmentOutline} {path : List String} {k : Fin g.size} {f : Field}
      {i : { i : Fin g.size // i.val < k.val }} {group : Group} {sites : List VariableSite} :
      (g.node k).isUnion = false → f.kind.isInline = false → g.child? k f = some i →
      GroupSites g T path i group T' sites →
      FieldSites g T path k f [.nested f.name (operandsAt path f.arguments) group] T'
        (sitesAt path f.arguments ++ sites)
  | typename {T : List FragmentOutline} {path : List String} {k : Fin g.size} {f : Field} :
      (g.node k).isUnion = true → f.name = typenameField →
      FieldSites g T path k f [.leaf f.name []] T []
  | branch {T T' : List FragmentOutline} {path : List String} {k : Fin g.size} {f : Field}
      {i : { i : Fin g.size // i.val < k.val }} {type : String} {group : Group}
      {sites : List VariableSite} : (g.node k).isUnion = true → f.name ≠ typenameField →
      g.child? k f = some i → GroupSites g T path i group T' sites →
      FieldSites g T path k f [.branch type group] T' sites

end

/-! ## What is written -/

mutual

/-- The arguments that are written in a selection, in order. -/
def Selection.operands : Selection → List (String × Operand)
  | .leaf _ arguments => arguments
  | .nested _ arguments group => arguments ++ group.operands
  | .branch _ group => group.operands
  | .spread _ => []

def Group.operands : Group → List (String × Operand)
  | .block selections => Selection.operandsOfList selections
  | .spread _ => []

def Selection.operandsOfList : List Selection → List (String × Operand)
  | [] => []
  | s :: ss => s.operands ++ Selection.operandsOfList ss

end

theorem Selection.operandsOfList_append (ss ss' : List Selection) :
    operandsOfList (ss ++ ss') = operandsOfList ss ++ operandsOfList ss' := by
  induction ss with
  | nil => rfl
  | cons s ss ih => simp only [List.cons_append, operandsOfList, ih, List.append_assoc]

def Operand.isVariable : Operand → Bool
  | .literal _ => false
  | .variable _ _ => true

/-- The arguments that are variables. -/
def variablesAmong (operands : List (String × Operand)) : List (String × Operand) :=
  operands.filter (·.2.isVariable)

theorem variablesAmong_append (xs ys : List (String × Operand)) :
    variablesAmong (xs ++ ys) = variablesAmong xs ++ variablesAmong ys := List.filter_append _ _

/-- The variables written in fragments. -/
def fragmentVariables (table : List FragmentOutline) : List (String × Operand) :=
  table.flatMap fun f => variablesAmong (Selection.operandsOfList f.selections)

/-- The variables written in the fragments and in the root, from the first line to the last. -/
def Outline.writtenVariables (o : Outline) : List (String × Operand) :=
  fragmentVariables o.fragments ++ variablesAmong o.root.operands

/-! ## What is rendered -/

/-- The variable that the piece is. -/
def Piece.variableName? : Piece → Option String
  | .variable name => some name
  | _ => none

/-- The variables among pieces. -/
def pieceVariables (ps : List Piece) : List String := ps.filterMap Piece.variableName?

/-- The variables in lines, from the first line to the last. -/
def variablesIn (ls : List Line) : List String := ls.flatMap fun l => pieceVariables l.pieces

/-- The variables in the text of the fragments and in that of the root. -/
def Outline.renderedVariables (o : Outline) : List String :=
  o.fragments.flatMap (fun f => variablesIn f.lines) ++ variablesIn o.lines

/-- The name of the variable that an operand is. -/
def Operand.variableName? : Operand → Option String
  | .literal _ => none
  | .variable name _ => some name

/-- The names of the variables among the operands. -/
def operandVariables (operands : List (String × Operand)) : List String :=
  operands.filterMap (·.2.variableName?)

@[simp] theorem operandVariables_append (xs ys : List (String × Operand)) :
    operandVariables (xs ++ ys) = operandVariables xs ++ operandVariables ys := List.filterMap_append

/-- Nothing is lost where only the variables are looked at. -/
theorem operandVariables_variablesAmong (operands : List (String × Operand)) :
    operandVariables (variablesAmong operands) = operandVariables operands := by
  rw [operandVariables, variablesAmong, List.filterMap_filter]
  refine List.filterMap_congr fun a _ => ?_
  rcases a with ⟨key, text | ⟨name, explicit⟩⟩ <;> rfl

@[simp] theorem pieceVariables_nil : pieceVariables [] = [] := rfl

@[simp] theorem pieceVariables_text_cons (s : String) (ps : List Piece) :
    pieceVariables (.text s :: ps) = pieceVariables ps := rfl

@[simp] theorem pieceVariables_opening_cons (ps : List Piece) :
    pieceVariables (.opening :: ps) = pieceVariables ps := rfl

@[simp] theorem pieceVariables_closing_cons (ps : List Piece) :
    pieceVariables (.closing :: ps) = pieceVariables ps := rfl

@[simp] theorem pieceVariables_append (ps qs : List Piece) :
    pieceVariables (ps ++ qs) = pieceVariables ps ++ pieceVariables qs := List.filterMap_append

@[simp] theorem variablesIn_append (ls ls' : List Line) :
    variablesIn (ls ++ ls') = variablesIn ls ++ variablesIn ls' := List.flatMap_append

@[simp] theorem variablesIn_cons (l : Line) (ls : List Line) :
    variablesIn (l :: ls) = pieceVariables l.pieces ++ variablesIn ls :=
  List.flatMap_cons

@[simp] theorem variablesIn_nil : variablesIn [] = [] := rfl

theorem pieceVariables_argumentPieces (operands : List (String × Operand)) :
    pieceVariables (argumentPieces operands) = operandVariables operands := by
  have hoperand : ∀ (a : String × Operand) (rest : List (String × Operand)),
      operandVariables (a :: rest) = pieceVariables (operandPieces a) ++ operandVariables rest := by
    rintro ⟨key, text | ⟨name, explicit⟩⟩ rest <;> rfl
  have hrest : ∀ rest : List (String × Operand),
      pieceVariables (rest.flatMap fun b => .text ", " :: operandPieces b) =
        operandVariables rest := by
    intro rest
    induction rest with
    | nil => rfl
    | cons b rest ih => simp [List.flatMap_cons, hoperand, ih]
  cases operands with
  | nil => rfl
  | cons a rest => simp [argumentPieces, hoperand, hrest]

mutual

/-- The variables in the lines of a selection are those among its operands. -/
theorem Selection.variablesIn_lines (level : Nat) :
    (s : Selection) → variablesIn (Selection.lines level s) = operandVariables s.operands
  | .leaf name operands => by
    simp [Selection.lines, Selection.operands, pieceVariables_argumentPieces]
  | .nested name operands group => by
    simp [Selection.lines, Group.variablesIn_lines level _ group, Selection.operands,
      pieceVariables_argumentPieces]
  | .branch type group => by
    simp [Selection.lines, Group.variablesIn_lines level _ group, Selection.operands]
  | .spread fragment => by
    simp [Selection.lines, Selection.operands, operandVariables]

theorem Group.variablesIn_lines (level : Nat) (head : List Piece) : (group : Group) →
    variablesIn (Group.lines level head group) =
      pieceVariables head ++ operandVariables group.operands
  | .block selections => by
    simp [Group.lines, Selection.variablesIn_linesOfList (level + 1) selections, Group.operands]
  | .spread fragment => by
    simp [Group.lines, Group.operands, operandVariables]

theorem Selection.variablesIn_linesOfList (level : Nat) : (ss : List Selection) →
    variablesIn (Selection.linesOfList level ss) = operandVariables (Selection.operandsOfList ss)
  | [] => rfl
  | s :: ss => by
    rw [Selection.linesOfList, Selection.operandsOfList, variablesIn_append, operandVariables_append,
      Selection.variablesIn_lines level s, Selection.variablesIn_linesOfList level ss]

end

/-- What is rendered as a variable is what is written as one. -/
theorem Outline.renderedVariables_eq (o : Outline) :
    o.renderedVariables = operandVariables o.writtenVariables := by
  have hfragments : ∀ fs : List FragmentOutline, fs.flatMap (fun f => variablesIn f.lines) =
      operandVariables (fragmentVariables fs) := by
    intro fs
    induction fs with
    | nil => rfl
    | cons f fs ih =>
      simp only [fragmentVariables] at ih ⊢
      rw [List.flatMap_cons, ih, List.flatMap_cons, operandVariables_append,
        operandVariables_variablesAmong, FragmentOutline.lines, Group.variablesIn_lines]
      rfl
  rw [renderedVariables, writtenVariables, operandVariables_append, hfragments,
    operandVariables_variablesAmong, Outline.lines, Group.variablesIn_lines]
  rfl

/-- The part stands somewhere in the text. -/
def OccursIn (part text : String) : Prop := ∃ before after, text = before ++ part ++ after

theorem OccursIn.trans {part text text' : String} (h : OccursIn part text) (h' : OccursIn text text') :
    OccursIn part text' := by
  obtain ⟨before, after, rfl⟩ := h
  obtain ⟨before', after', rfl⟩ := h'
  exact ⟨before' ++ before, after ++ after', by simp only [String.append_assoc]⟩

theorem occursIn_join {part : String} {parts : List String} (h : part ∈ parts) :
    OccursIn part (String.join parts) := by
  obtain ⟨before, after, rfl⟩ := List.append_of_mem h
  exact ⟨String.join before, String.join after, by
    rw [String.join_append, String.join_cons, String.append_assoc]⟩

theorem occursIn_renderLines (unit : String) {l : Line} {ls : List Line} (h : l ∈ ls) :
    OccursIn (renderPieces l.pieces) (renderLines unit ls) := by
  have hline : OccursIn (renderPieces l.pieces) (l.render unit) :=
    ⟨String.join (List.replicate l.level unit), "", by rw [String.append_empty]; rfl⟩
  refine hline.trans ?_
  cases ls with
  | nil => exact (List.not_mem_nil h).elim
  | cons l' ls =>
    rw [renderLines_cons]
    rcases List.mem_cons.1 h with rfl | h
    · exact ⟨"", broken unit ls, by rw [String.empty_append]⟩
    · have hbroken : OccursIn ("\n" ++ l.render unit) (broken unit ls) :=
        occursIn_join (List.mem_map_of_mem h)
      have hafter : OccursIn (l.render unit) ("\n" ++ l.render unit) :=
        ⟨"\n", "", by rw [String.append_empty]⟩
      exact (hafter.trans hbroken).trans ⟨l'.render unit, "", by rw [String.append_empty]⟩

/-- A variable among the pieces is written with its dollar sign. -/
theorem occursIn_of_mem_variablesIn (unit : String) {name : String} {ls : List Line}
    (h : name ∈ variablesIn ls) : OccursIn ("$" ++ name) (renderLines unit ls) := by
  obtain ⟨l, hl, hn⟩ := List.mem_flatMap.1 h
  obtain ⟨p, hp, he⟩ := List.mem_filterMap.1 hn
  obtain rfl : p = .variable name := by
    cases p <;> cases he
    rfl
  exact (occursIn_join (List.mem_map_of_mem hp)).trans (occursIn_renderLines unit hl)

/-! ## Sites and what is written -/

theorem variablesAmong_operandsAt (path : List String) (arguments : OrderedMap String Argument) :
    variablesAmong (operandsAt path arguments) =
      (sitesAt path arguments).map VariableSite.written := by
  induction arguments with
  | nil => rfl
  | cons a arguments ih =>
    simp only [operandsAt, sitesAt, List.filterMap_cons] at ih ⊢
    obtain ⟨key, ⟨value, type⟩ | ⟨name, type, default⟩⟩ := a
    · rw [Argument.operand?, Argument.site?, ← ih]
      by_cases ht : value.literalText.isEmpty = true
      · rw [if_pos ht, Option.map_none]
      · rw [if_neg ht, Option.map_some]
        rfl
    · rw [Argument.operand?, Argument.site?, Option.map_some, List.map_cons, ← ih]
      rfl

mutual

/-- The sites are what is written in a group and in the fragments read with it, none left out and none
twice. -/
theorem GroupSites.perm {g : Graph} {T T' : List FragmentOutline} {path : List String}
    {k : Fin g.size} {group : Group} {sites : List VariableSite} :
    GroupSites g T path k group T' sites →
      (fragmentVariables T' ++ variablesAmong group.operands).Perm
        (fragmentVariables T ++ sites.map VariableSite.written)
  | .block h => h.perm
  | .again _ _ => .refl _
  | .first h _ _ => by
    have hp := h.perm
    simpa only [fragmentVariables, List.flatMap_append, List.flatMap_singleton, Group.operands,
      variablesAmong, List.filter_nil, List.append_nil] using hp

theorem FieldsSites.perm {g : Graph} {T T' : List FragmentOutline} {path : List String}
    {k : Fin g.size} {fs : List Field} {ss : List Selection} {sites : List VariableSite} :
    FieldsSites g T path k fs ss T' sites →
      (fragmentVariables T' ++ variablesAmong (Selection.operandsOfList ss)).Perm
        (fragmentVariables T ++ sites.map VariableSite.written)
  | .nil => .refl _
  | .cons h hs => by
    have h₁ := List.perm_iff_count.1 h.perm
    have h₂ := List.perm_iff_count.1 hs.perm
    refine List.perm_iff_count.2 fun x => ?_
    have h₁ := h₁ x
    have h₂ := h₂ x
    simp only [Selection.operandsOfList_append, variablesAmong_append, List.map_append,
      List.count_append] at h₁ h₂ ⊢
    omega

theorem FieldSites.perm {g : Graph} {T T' : List FragmentOutline} {path : List String}
    {k : Fin g.size} {f : Field} {ss : List Selection} {sites : List VariableSite} :
    FieldSites g T path k f ss T' sites →
      (fragmentVariables T' ++ variablesAmong (Selection.operandsOfList ss)).Perm
        (fragmentVariables T ++ sites.map VariableSite.written)
  | .nothing .. => .refl _
  | .spread .. => .refl _
  | .splice _ _ _ h => h.perm
  | .leaf .. => by
    simp only [Selection.operandsOfList, Selection.operands, List.append_nil,
      variablesAmong_operandsAt]
    exact .refl _
  | .nested _ _ _ h => by
    have hg := List.perm_iff_count.1 h.perm
    refine List.perm_iff_count.2 fun x => ?_
    have hg := hg x
    simp only [Selection.operandsOfList, Selection.operands, List.append_nil, variablesAmong_append,
      variablesAmong_operandsAt, List.map_append, List.count_append] at hg ⊢
    omega
  | .typename .. => .refl _
  | .branch _ _ _ h => by
    simpa only [Selection.operandsOfList, Selection.operands, List.append_nil] using h.perm

end

end QueryShape
