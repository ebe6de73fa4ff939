import QueryShape.Compile
import QueryShape.Proofs.OrderedMap
import QueryShape.Proofs.WalkFrame

/-!
# The writer and the outline

What the writer puts down is the printed outline of the graph: `Graph.compile_eq`. The writer and the
walk go through a graph side by side, and `MirrorsAt` says of two steps that they do the same: their
states reflect each other afterwards, they fail alike, and the text of the one is that of the trees of
the other. A node in braces has the text of its group (`Group.text`), at the margin where it becomes a
fragment; a node in place of a field has the lines of its selections, one level deeper than the level
that the writer is given (`Writer.nodeMirrors`).
-/

set_option autoImplicit false

namespace QueryShape

/-! ## The text of lines -/

@[simp] theorem renderPieces_nil : renderPieces [] = "" := String.join_nil

@[simp] theorem renderPieces_cons (p : Piece) (ps : List Piece) :
    renderPieces (p :: ps) = p.render ++ renderPieces ps := String.join_cons

@[simp] theorem renderPieces_append (ps qs : List Piece) :
    renderPieces (ps ++ qs) = renderPieces ps ++ renderPieces qs := by
  rw [renderPieces, List.map_append, String.join_append]
  rfl

theorem intercalate_cons (sep x : String) (xs : List String) :
    sep.intercalate (x :: xs) = x ++ String.join (xs.map (sep ++ ·)) := by
  induction xs generalizing x with
  | nil => simp
  | cons y ys ih =>
    rw [String.intercalate_cons_cons, ih, List.map_cons, String.join_cons]
    simp only [String.append_assoc]

/-- Lines, each after a line break. -/
def broken (unit : String) (lines : List Line) : String :=
  String.join (lines.map fun l => "\n" ++ l.render unit)

@[simp] theorem broken_nil (unit : String) : broken unit [] = "" := String.join_nil

@[simp] theorem broken_cons (unit : String) (l : Line) (ls : List Line) :
    broken unit (l :: ls) = "\n" ++ l.render unit ++ broken unit ls := String.join_cons

@[simp] theorem broken_append (unit : String) (ls ls' : List Line) :
    broken unit (ls ++ ls') = broken unit ls ++ broken unit ls' := by
  rw [broken, List.map_append, String.join_append]
  rfl

theorem renderLines_cons (unit : String) (l : Line) (ls : List Line) :
    renderLines unit (l :: ls) = l.render unit ++ broken unit ls := by
  rw [renderLines, List.map_cons, intercalate_cons, List.map_map]
  rfl

/-- The text of the selections in a group at a level: their lines, each after a line break. -/
def Selection.text (unit : String) (level : Nat) (ss : List Selection) : String :=
  broken unit (linesOfList (level + 1) ss)

/-- The text of a group from its first brace on. -/
def Group.text (unit : String) (level : Nat) : Group → String
  | .block ss => "\x7b" ++ Selection.text unit level ss ++ "\n" ++
      String.join (List.replicate level unit) ++ "\x7d"
  | .spread fragment => "\x7b ..." ++ fragment ++ " \x7d"

theorem renderLines_group (unit : String) (level : Nat) (head : List Piece) (group : Group) :
    renderLines unit (Group.lines level head group) =
      String.join (List.replicate level unit) ++ renderPieces head ++ group.text unit level := by
  cases group with
  | block ss =>
    rw [Group.lines, renderLines_cons]
    simp [Line.render, Group.text, Selection.text, Piece.render, String.append_assoc]
  | spread fragment =>
    rw [Group.lines, renderLines_cons]
    simp [Line.render, Group.text, Piece.render, String.append_assoc]
    rfl

theorem broken_group (unit : String) (level : Nat) (head : List Piece) (group : Group) :
    broken unit (Group.lines level head group) = "\n" ++
      String.join (List.replicate level unit) ++ renderPieces head ++ group.text unit level := by
  have h : ∀ ls, ls ≠ [] → broken unit ls = "\n" ++ renderLines unit ls := by
    intro ls hne
    obtain ⟨l, ls, rfl⟩ := List.exists_cons_of_ne_nil hne
    rw [renderLines_cons, broken_cons, String.append_assoc]
  rw [h, renderLines_group]
  · simp only [String.append_assoc]
  · cases group <;> exact List.cons_ne_nil _ _

theorem Selection.linesOfList_append (level : Nat) (ss ss' : List Selection) :
    linesOfList level (ss ++ ss') = linesOfList level ss ++ linesOfList level ss' := by
  induction ss with
  | nil => rfl
  | cons s ss ih => simp only [List.cons_append, linesOfList, ih, List.append_assoc]

theorem renderPieces_flatMap {α : Type} (xs : List α) (f : α → List Piece) :
    renderPieces (xs.flatMap f) = String.join (xs.map fun x => renderPieces (f x)) := by
  induction xs with
  | nil => rfl
  | cons x xs ih => rw [List.flatMap_cons, renderPieces_append, ih, List.map_cons, String.join_cons]

/-- The text of an argument after its key. -/
def operandPart (a : String × Operand) : String := a.1 ++ ": " ++ a.2.piece.render

theorem renderPieces_operandPieces (a : String × Operand) :
    renderPieces (operandPieces a) = operandPart a := by
  simp [operandPieces, operandPart, Piece.render, String.append_assoc]

theorem renderPieces_argumentPieces (operands : List (String × Operand)) :
    renderPieces (argumentPieces operands) =
      if operands.isEmpty then "" else "(" ++ ", ".intercalate (operands.map operandPart) ++ ")" := by
  cases operands with
  | nil => rfl
  | cons a rest =>
    have hrest : (rest.map fun b => renderPieces (.text ", " :: operandPieces b)) =
        (rest.map operandPart).map (", " ++ ·) := by
      rw [List.map_map]
      refine List.map_congr_left fun b _ => ?_
      rw [renderPieces_cons, renderPieces_operandPieces]
      rfl
    rw [argumentPieces, renderPieces_cons, renderPieces_append, renderPieces_append,
      renderPieces_operandPieces, renderPieces_flatMap, hrest, List.isEmpty_cons, if_neg Bool.false_ne_true,
      List.map_cons, intercalate_cons]
    simp [Piece.render, String.append_assoc]

namespace Selection

variable (unit : String) (level : Nat)

theorem text_append (ss ss' : List Selection) :
    text unit level (ss ++ ss') = text unit level ss ++ text unit level ss' := by
  rw [text, linesOfList_append, broken_append]
  rfl

theorem text_leaf (name : String) (operands : List (String × Operand)) :
    text unit level [.leaf name operands] = "\n" ++ String.join (List.replicate (level + 1) unit) ++
      name ++ renderPieces (argumentPieces operands) := by
  simp [text, linesOfList, lines, Line.render, Piece.render, String.append_assoc]

theorem text_nested (name : String) (operands : List (String × Operand)) (group : Group) :
    text unit level [.nested name operands group] =
      "\n" ++ String.join (List.replicate (level + 1) unit) ++ name ++
        renderPieces (argumentPieces operands) ++ group.text unit (level + 1) := by
  rw [text, linesOfList, lines, linesOfList, List.append_nil, broken_group, renderPieces_cons,
    Piece.render]
  simp only [String.append_assoc]

theorem text_branch (type : String) (group : Group) :
    text unit level [.branch type group] = "\n" ++ String.join (List.replicate (level + 1) unit) ++
      "... on " ++ type ++ " " ++ group.text unit (level + 1) := by
  rw [text, linesOfList, lines, linesOfList, List.append_nil, broken_group]
  simp [Piece.render, String.append_assoc]

theorem text_spread (fragment : String) :
    text unit level [.spread fragment] =
      "\n" ++ String.join (List.replicate (level + 1) unit) ++ "..." ++ fragment := by
  simp [text, linesOfList, lines, Line.render, Piece.render, String.append_assoc]

end Selection

/-! ## States -/

/-- The entry of a fragment in the table of the writer, which starts with the fragments `base`. -/
def FragmentOutline.entry (unit : String) (base : OrderedMap String Fragment) (f : FragmentOutline) :
    String × Fragment :=
  (f.shapeId, (base.find? f.shapeId).getD (f.print unit))

namespace Writer

/-- The walk and the writer have come to the same. The fragments of the writer are printed, but for
those that it has started with. -/
structure Reflects (unit : String) (base : OrderedMap String Fragment) (w : Walk) (t : Writer) :
    Prop where
  indent : t.indent.unit = unit
  path : t.path = w.path
  vars : t.vars = w.vars
  events : t.events = w.events
  fragments : t.fragments = w.fragments.map (·.entry unit base)
  names : ∀ f ∈ w.fragments, (f.entry unit base).2.name = f.name
  known : ∀ id ∈ base.keys, ∃ f ∈ w.fragments, f.shapeId = id

/-- Both succeed, the writer with the text of what the walk has made, or both fail alike. -/
inductive SameOutcome (unit : String) (base : OrderedMap String Fragment) {α β : Type} (text : α → β) :
    Except Failure α × Walk → Except Failure β × Writer → Prop
  | ok {a : α} {w : Walk} {t : Writer} :
      Reflects unit base w t → SameOutcome unit base text (.ok a, w) (.ok (text a), t)
  | error {e : Failure} {w : Walk} {t : Writer} :
      Reflects unit base w t → SameOutcome unit base text (.error e, w) (.error e, t)

def MirrorsAt (unit : String) (base : OrderedMap String Fragment) {α β : Type} (text : α → β)
    (walk : Walk.Step α) (write : Step β) (w : Walk) (t : Writer) : Prop :=
  SameOutcome unit base text (walk.run.run w) (write.run.run t)

section
variable {unit : String} {base : OrderedMap String Fragment} {α β γ δ : Type} {text : α → β}
  {text' : γ → δ} {w : Walk} {t : Writer}

namespace Reflects

theorem logged (h : Reflects unit base w t) (e : Event) :
    Reflects unit base (w.logged e) { t with events := t.events.push e } :=
  { h with events := congrArg (·.push e) h.events }

theorem withPath (h : Reflects unit base w t) {p p' : List String} (hp : p' = p) :
    Reflects unit base { w with path := p } { t with path := p' } :=
  { h with path := hp }

theorem withVars (h : Reflects unit base w t) {vs vs' : List VariableSlot} (hv : vs' = vs) :
    Reflects unit base { w with vars := vs } { t with vars := vs' } :=
  { h with vars := hv }

end Reflects

namespace MirrorsAt

theorem pure (a : α) (h : Reflects unit base w t) :
    MirrorsAt unit base text (Pure.pure a) (Pure.pure (text a)) w t := .ok h

theorem throw (e : Failure) (h : Reflects unit base w t) :
    MirrorsAt unit base text (MonadExcept.throw e) (MonadExcept.throw e) w t := .error h

theorem bind {walk : Walk.Step α} {write : Step β} {next : α → Walk.Step γ} {next' : β → Step δ}
    (hs : MirrorsAt unit base text walk write w t)
    (hn : ∀ a w₁ t₁, Reflects unit base w₁ t₁ →
      MirrorsAt unit base text' (next a) (next' (text a)) w₁ t₁) :
    MirrorsAt unit base text' (walk >>= next) (write >>= next') w t := by
  unfold MirrorsAt at hs ⊢
  rw [run_bind, run_bind]
  revert hs
  generalize walk.run.run w = out
  generalize write.run.run t = out'
  intro hs
  cases hs with
  | ok h => exact hn _ _ _ h
  | error h => exact .error h

theorem get {next : Walk → Walk.Step γ} {next' : Writer → Step δ}
    (hn : MirrorsAt unit base text' (next w) (next' t) w t) :
    MirrorsAt unit base text' (MonadState.get >>= next) (MonadState.get >>= next') w t := hn

theorem log {next : Unit → Walk.Step γ} {next' : Unit → Step δ} {e : Event}
    (h : Reflects unit base w t) (hn : ∀ w₁ t₁, Reflects unit base w₁ t₁ →
      MirrorsAt unit base text' (next ()) (next' ()) w₁ t₁) :
    MirrorsAt unit base text' (Walk.log e >>= next) (Writer.log e >>= next') w t :=
  hn _ _ (h.logged e)

/-- Only the writer asks for indentation. -/
theorem indentAt {walk : Walk.Step γ} {next' : String → Step δ} {level : Nat}
    (h : Reflects unit base w t) (hn : ∀ t₁, Reflects unit base w t₁ →
      MirrorsAt unit base text' walk (next' (String.join (List.replicate level unit))) w t₁) :
    MirrorsAt unit base text' walk (Writer.indentAt level >>= next') w t := by
  have hrun : (Writer.indentAt level).run.run t =
      (.ok (String.join (List.replicate level unit)), { t with indent := (t.indent.read level).2 }) := by
    rw [← h.indent, ← Indent.read_text]
    rfl
  unfold MirrorsAt at hn ⊢
  rw [run_bind_ok hrun]
  exact hn _ { h with indent := (Indent.unit_upTo level t.indent).trans h.indent }

theorem restoring {walk : Walk.Step α} {write : Step β} (hw : Reflects unit base w t)
    (h : MirrorsAt unit base text walk write w t) :
    MirrorsAt unit base text (Walk.restoring walk) (Writer.restoring write) w t := by
  have hrun : (Walk.restoring walk).run.run w = Walk.cut w.path.length (walk.run.run w) := rfl
  have hrun' : (Writer.restoring write).run.run t = ((write.run.run t).1,
      { (write.run.run t).2 with path := (write.run.run t).2.path.take t.path.length }) := rfl
  unfold MirrorsAt at h ⊢
  rw [hrun, hrun', hw.path]
  revert h
  generalize walk.run.run w = out
  generalize write.run.run t = out'
  intro h
  cases h with
  | ok h => exact .ok (h.withPath (congrArg _ h.path))
  | error h => exact .error (h.withPath (congrArg _ h.path))

end MirrorsAt

/-! ## Arguments -/

theorem useVariable_mirrors (h : Reflects unit base w t) (key : String) (name type : Option String)
    (default : Option Value) :
    MirrorsAt unit base id (Walk.useVariable key name type default)
      (useVariable key name type default) w t := by
  have hname : variableName w.path key name = name.getD (placeName w.path key) := by
    cases name <;> rfl
  rw [Walk.useVariable, useVariable]
  apply MirrorsAt.get
  rw [h.path, h.vars, ← hname]
  dsimp only
  cases w.vars.find? (·.entry.name == variableName w.path key name) with
  | none => exact .ok ((h.logged _).withVars (congrArg (· ++ _) h.vars))
  | some slot =>
    dsimp only
    cases slot.checkUse name.isSome type w.path with
    | error e => exact .error h
    | ok u => exact .ok ((h.logged _).withVars (congrArg (VariableSlot.addUse · _ _) h.vars))

theorem argumentParts_mirrors (args : List (String × Argument)) (h : Reflects unit base w t) :
    MirrorsAt unit base (List.map operandPart) (Walk.arguments args) (argumentParts args) w t := by
  induction args generalizing w t with
  | nil => exact .pure [] h
  | cons a args ih =>
    obtain ⟨key, ⟨value, type⟩ | ⟨name, type, default⟩⟩ := a
    · rw [Walk.arguments, argumentParts, argument, pure_bind]
      refine (ih h).bind fun operands w₁ t₁ h₁ => ?_
      by_cases hv : value.literalText.isEmpty
      · rw [if_pos hv, if_pos hv]
        exact .pure operands h₁
      · rw [if_neg hv, if_neg hv]
        exact .pure ((key, Operand.literal value.literalText) :: operands) h₁
    · rw [Walk.arguments, argumentParts, argument, bind_assoc]
      refine (useVariable_mirrors h key name type default).bind fun used w₁ t₁ h₁ => ?_
      have hne : ("$" ++ used).isEmpty = false := by
        simp
      rw [pure_bind]
      refine (ih h₁).bind fun operands w₂ t₂ h₂ => ?_
      rw [id_eq, hne, if_neg Bool.false_ne_true]
      exact .pure ((key, Operand.variable used name.isSome) :: operands) h₂

/-- The text of the arguments is that of their pieces. -/
theorem arguments_mirrors (f : Field) (h : Reflects unit base w t) :
    MirrorsAt unit base (fun operands => renderPieces (argumentPieces operands))
      (Walk.arguments f.arguments) (arguments f) w t := by
  rw [← bind_pure (Walk.arguments f.arguments), arguments]
  refine (argumentParts_mirrors f.arguments h).bind fun operands w₁ t₁ h₁ => ?_
  rw [List.isEmpty_map, ← renderPieces_argumentPieces]
  exact .pure operands h₁

/-! ## Fragments -/

theorem find?_entry (fs : List FragmentOutline) (id : String) :
    OrderedMap.find? (fs.map (·.entry unit base)) id =
      (fs.find? (·.shapeId == id)).map fun f => (f.entry unit base).2 := by
  induction fs with
  | nil => rfl
  | cons f fs ih =>
    show (if f.shapeId = id then some (f.entry unit base).2
      else OrderedMap.find? (fs.map (·.entry unit base)) id) = _
    by_cases hf : f.shapeId = id
    · rw [if_pos hf, List.find?_cons_of_pos (by simpa using hf), Option.map_some]
    · rw [if_neg hf, List.find?_cons_of_neg (by simpa using hf), ih]

theorem fragmentOf?_reflects (h : Reflects unit base w t) (node : Node) :
    t.fragmentOf? node = (Walk.fragmentOf? w node).map fun f => (f.entry unit base).2 := by
  unfold fragmentOf? Walk.fragmentOf?
  split
  · rw [h.fragments, find?_entry]
  · rfl

/-- A node without a fragment is not among those that the writer has started with. -/
theorem Reflects.not_mem_base (h : Reflects unit base w t) {node : Node}
    (hf : Walk.fragmentOf? w node = none) (hu : 1 < node.uses) : node.id ∉ base.keys := by
  intro hid
  obtain ⟨f, hm, he⟩ := h.known node.id hid
  exact Walk.fragmentOf?_eq_none hf hu f hm he

/-- The entry of a fragment that the writer has not started with. -/
theorem entry_of_not_mem {f : FragmentOutline} (hid : f.shapeId ∉ base.keys) :
    f.entry unit base = (f.shapeId, f.print unit) := by
  rw [FragmentOutline.entry, OrderedMap.find?_eq_none hid, Option.getD_none]

theorem insert_entry (fs : List FragmentOutline) (f : FragmentOutline) :
    OrderedMap.insert (fs.map (·.entry unit base)) f.shapeId (f.entry unit base).2 =
      (Walk.putFragment fs f).map (·.entry unit base) := by
  induction fs with
  | nil => rfl
  | cons f' fs ih =>
    show (if f'.shapeId = f.shapeId then (f'.shapeId, (f.entry unit base).2) :: fs.map _
      else f'.entry unit base ::
        OrderedMap.insert (fs.map (·.entry unit base)) f.shapeId (f.entry unit base).2) = _
    rw [Walk.putFragment]
    by_cases hf : f'.shapeId = f.shapeId
    · rw [if_pos hf, if_pos hf, hf]
      rfl
    · rw [if_neg hf, if_neg hf, ih, List.map_cons]

theorem mem_putFragment {fs : List FragmentOutline} {f f' : FragmentOutline}
    (h : f' ∈ Walk.putFragment fs f) : f' = f ∨ f' ∈ fs := by
  induction fs with
  | nil => exact .inl (List.mem_singleton.1 h)
  | cons f₁ fs ih =>
    rw [Walk.putFragment] at h
    split at h
    · rcases List.mem_cons.1 h with rfl | h
      · exact .inl rfl
      · exact .inr (.tail _ h)
    · rcases List.mem_cons.1 h with rfl | h
      · exact .inr (.head _)
      · exact (ih h).imp_right (.tail _)

theorem shapeId_putFragment {fs : List FragmentOutline} (f : FragmentOutline) {f' : FragmentOutline}
    (h : f' ∈ fs) : ∃ f₁ ∈ Walk.putFragment fs f, f₁.shapeId = f'.shapeId := by
  induction fs with
  | nil => exact (List.not_mem_nil h).elim
  | cons f₂ fs ih =>
    rw [Walk.putFragment]
    split
    · rename_i hf
      rcases List.mem_cons.1 h with rfl | h
      · exact ⟨f, .head _, hf.symm⟩
      · exact ⟨f', .tail _ h, rfl⟩
    · rcases List.mem_cons.1 h with rfl | h
      · exact ⟨f', .head _, rfl⟩
      · obtain ⟨f₁, hm, he⟩ := ih h
        exact ⟨f₁, .tail _ hm, he⟩

theorem Reflects.put (h : Reflects unit base w t) {f : FragmentOutline}
    (hid : f.shapeId ∉ base.keys) :
    Reflects unit base { w with fragments := Walk.putFragment w.fragments f }
      { t with fragments := t.fragments.insert f.shapeId (f.print unit) } where
  __ := h
  fragments := by
    rw [← insert_entry, ← h.fragments, entry_of_not_mem hid]
  names f' hf' := by
    rcases mem_putFragment hf' with rfl | hf'
    · rw [entry_of_not_mem hid]
      rfl
    · exact h.names f' hf'
  known id hk := by
    obtain ⟨f', hf', rfl⟩ := h.known id hk
    exact shapeId_putFragment f hf'

theorem print_fragment (id name type : String) (ss : List Selection) :
    FragmentOutline.print unit ⟨id, name, type, ss⟩ =
      ⟨name, type, "fragment " ++ name ++ " on " ++ type ++ Group.text unit 0 (.block ss)⟩ := by
  rw [FragmentOutline.print, FragmentOutline.lines, renderLines_group]
  simp [Piece.render, String.append_assoc]

theorem register_mirrors (h : Reflects unit base w t) {node : Node} (hid : node.id ∉ base.keys)
    (ss : List Selection) : MirrorsAt unit base id (Walk.register node ss)
      (register node (Group.text unit 0 (.block ss))) w t := by
  have hnames : t.fragments.map (·.2.name) = w.fragments.map (·.name) := by
    rw [h.fragments, List.map_map]
    exact List.map_congr_left h.names
  rw [Walk.register, register]
  apply MirrorsAt.get
  rw [hnames]
  generalize freshName (w.fragments.map (·.name)) (fragmentName node.id) = name
  dsimp only
  rw [← print_fragment node.id]
  split
  · exact .ok (((h.logged _).logged _).put hid)
  · exact .ok ((h.logged _).put hid)

/-! ## Nodes and fields -/

/-- The writer puts down the text of the group of a node in braces, and the text of the selections of a
node in place of a field. -/
structure NodeMirrors (unit : String) (base : OrderedMap String Fragment) (g : Graph)
    (k : Fin g.size) : Prop where
  group : ∀ {inline unionMember : Bool} (level : Nat) {w : Walk} {t : Writer},
    (!inline || unionMember) = true → Reflects unit base w t →
    MirrorsAt unit base (Group.text unit level) (Walk.group g k)
      (selectionSet g k inline unionMember level) w t
  splice : ∀ (level : Nat) {w : Walk} {t : Writer}, Reflects unit base w t →
    MirrorsAt unit base (Selection.text unit level) (Walk.splice g k)
      (selectionSet g k true false level) w t

section
variable {g : Graph} {k : Fin g.size}

theorem field_mirrors (hnode : ∀ i : Fin g.size, i.val < k.val → NodeMirrors unit base g i)
    (level : Nat) (f : Field) (h : Reflects unit base w t) :
    MirrorsAt unit base (Selection.text unit level) (Walk.field g k f) (field g k level f) w t := by
  rw [Walk.field, field]
  split
  · rcases g.child? k f with _ | ⟨i, hi⟩
    · exact .pure [] h
    · exact (hnode i hi).splice level h
  · refine .indentAt h fun t₁ h₁ => (arguments_mirrors f h₁).bind fun operands w₂ t₂ h₂ => ?_
    rcases g.child? k f with _ | ⟨i, hi⟩
    · dsimp only
      rw [← Selection.text_leaf]
      exact .pure [Selection.leaf f.name operands] h₂
    · refine ((hnode i hi).group (level + 1) rfl h₂).bind fun group w₃ t₃ h₃ => ?_
      rw [← Selection.text_nested]
      exact .pure [Selection.nested f.name operands group] h₃

theorem unionBranch_mirrors (hnode : ∀ i : Fin g.size, i.val < k.val → NodeMirrors unit base g i)
    (level : Nat) (f : Field) (h : Reflects unit base w t) :
    MirrorsAt unit base (Selection.text unit level) (Walk.branch g k f) (unionBranch g k level f)
      w t := by
  rw [Walk.branch, unionBranch]
  refine .indentAt h fun t₁ h₁ => ?_
  split
  · have htext := Selection.text_leaf unit level f.name []
    rw [argumentPieces, renderPieces_nil, String.append_empty] at htext
    rw [← htext]
    exact .pure [Selection.leaf f.name []] h₁
  · rcases g.child? k f with _ | ⟨i, hi⟩
    · apply MirrorsAt.get
      rw [h₁.path]
      exact .throw _ h₁
    · dsimp only
      rcases (g.node i).name with _ | type
      · apply MirrorsAt.get
        rw [h₁.path]
        exact .throw _ h₁
      · refine ((hnode i hi).group (level + 1) (Bool.or_true _) h₁).bind fun group w₂ t₂ h₂ => ?_
        rw [← Selection.text_branch]
        exact .pure [Selection.branch type group] h₂

theorem fieldsFrom_mirrors (hnode : ∀ i : Fin g.size, i.val < k.val → NodeMirrors unit base g i)
    (level depth : Nat) (fs : List Field) (h : Reflects unit base w t) :
    MirrorsAt unit base (Selection.text unit level) (Walk.fieldsFrom g k depth fs)
      (fieldsFrom g k level depth fs) w t := by
  induction fs generalizing w t with
  | nil =>
    rw [Walk.fieldsFrom, fieldsFrom]
    exact .pure [] h
  | cons f fs ih =>
    rw [Walk.fieldsFrom, fieldsFrom]
    have hgo : MirrorsAt unit base id (Walk.goTo depth f.name) (goTo depth f.name) w t :=
      .ok (h.withPath (by rw [h.path]))
    refine hgo.bind fun _ w₁ t₁ h₁ => ?_
    have hhead : MirrorsAt unit base (Selection.text unit level)
        (if (g.node k).isUnion then Walk.branch g k f else Walk.field g k f)
        (if (g.node k).isUnion then unionBranch g k level f else field g k level f) w₁ t₁ := by
      split
      · exact unionBranch_mirrors hnode level f h₁
      · exact field_mirrors hnode level f h₁
    refine hhead.bind fun here w₂ t₂ h₂ => (ih h₂).bind fun rest w₃ t₃ h₃ => ?_
    rw [← Selection.text_append]
    exact .pure (here ++ rest) h₃

theorem fields_mirrors (hnode : ∀ i : Fin g.size, i.val < k.val → NodeMirrors unit base g i)
    (level : Nat) (fs : List Field) (h : Reflects unit base w t) :
    MirrorsAt unit base (Selection.text unit level) (Walk.fields g k fs) (fields g k level fs)
      w t := by
  rw [Walk.fields, fields]
  refine .restoring h (.get ?_)
  rw [h.path]
  exact fieldsFrom_mirrors hnode level _ fs h

end

theorem nodeMirrors {g : Graph} (k : Fin g.size) : NodeMirrors unit base g k := by
  have hnode : ∀ i : Fin g.size, i.val < k.val → NodeMirrors unit base g i := fun i _ => nodeMirrors i
  refine ⟨?_, ?_⟩
  · intro inline unionMember level w t hb h
    rw [Walk.group, selectionSet]
    apply MirrorsAt.get
    rw [fragmentOf?_reflects h, hb]
    cases hf : Walk.fragmentOf? w (g.node k) with
    | some f =>
      dsimp only [Option.map_some]
      rw [h.names f (Walk.fragmentOf?_eq_some hf).2.1]
      exact .log h fun w₁ t₁ h₁ => .pure (Group.spread f.name) h₁
    | none =>
      dsimp only [Option.map_none]
      rw [if_pos rfl]
      by_cases hu : 1 < (g.node k).uses
      · simp only [if_pos hu]
        refine (fields_mirrors hnode 0 _ h).bind fun ss w₁ t₁ h₁ => .indentAt h₁ fun t₂ h₂ => ?_
        exact (register_mirrors h₂ (h.not_mem_base hf hu) ss).bind fun name w₃ t₃ h₃ =>
          .pure (Group.spread name) h₃
      · simp only [if_neg hu]
        exact (fields_mirrors hnode level _ h).bind fun ss w₁ t₁ h₁ => .indentAt h₁ fun t₂ h₂ =>
          .pure (Group.block ss) h₂
  · intro level w t h
    rw [Walk.splice, selectionSet]
    apply MirrorsAt.get
    rw [fragmentOf?_reflects h]
    cases hf : Walk.fragmentOf? w (g.node k) with
    | some f =>
      dsimp only [Option.map_some]
      rw [h.names f (Walk.fragmentOf?_eq_some hf).2.1]
      refine .log h fun w₁ t₁ h₁ => .indentAt h₁ fun t₂ h₂ => ?_
      rw [← Selection.text_spread]
      exact .pure [Selection.spread f.name] h₂
    | none => exact fields_mirrors hnode level _ h
termination_by k.val

end

theorem Reflects.initial (unit : String) : Reflects unit [] {} { indent := .ofUnit unit } where
  indent := rfl
  path := rfl
  vars := rfl
  events := rfl
  fragments := rfl
  names _ hf := (List.not_mem_nil hf).elim
  known _ hid := (List.not_mem_nil hid).elim

/-- A writer that has started with nothing finishes with the printed outline. -/
theorem Reflects.finish {unit : String} {w : Walk} {t : Writer} (h : Reflects unit [] w t)
    (root : Group) : t.finish (root.text unit 0) =
      Outline.print unit ⟨root, w.vars.map (·.entry), w.fragments⟩ := by
  have hbody : renderLines unit (Group.lines 0 [] root) = root.text unit 0 := by
    rw [renderLines_group]
    simp
  have hfragments : t.fragments.map (·.2) = w.fragments.map (·.print unit) := by
    rw [h.fragments, List.map_map]
    rfl
  rw [Writer.finish, Outline.print, Outline.lines, hbody, h.vars, hfragments]

end Writer

/-- The text of an operation is that of its outline, whatever the unit, and the same happens on the
way. -/
theorem Graph.compileLogged_eq (unit : String) (g : Graph) : g.compileLogged unit =
    ((Outline.ofGraphLogged g).1.map (·.print unit), (Outline.ofGraphLogged g).2) := by
  cases hr : g.root with
  | none => simp only [compileLogged, Outline.ofGraphLogged, hr, Except.map]
  | some k =>
    by_cases hk : k < g.size
    · have hmirrors : Writer.MirrorsAt unit [] (Group.text unit 0) (Walk.group g ⟨k, hk⟩)
          (Writer.selectionSet g ⟨k, hk⟩ false (g.node ⟨k, hk⟩).isUnion 0) {}
          { indent := .ofUnit unit } :=
        (Writer.nodeMirrors _).group 0 rfl (Writer.Reflects.initial unit)
      simp only [compileLogged, Outline.ofGraphLogged, hr, dif_pos hk]
      unfold Writer.MirrorsAt at hmirrors
      revert hmirrors
      generalize (Walk.group g ⟨k, hk⟩).run.run {} = out
      generalize (Writer.selectionSet g ⟨k, hk⟩ false (g.node ⟨k, hk⟩).isUnion 0).run.run
        { indent := .ofUnit unit } = out'
      intro hmirrors
      cases hmirrors with
      | @ok root w t h => exact Prod.ext (congrArg Except.ok (h.finish root)) h.events
      | error h => exact Prod.ext rfl h.events
    · simp only [compileLogged, Outline.ofGraphLogged, hr, dif_neg hk, Except.map]

theorem Graph.compile_eq (unit : String) (g : Graph) :
    g.compile unit = (Outline.ofGraph g).map (·.print unit) :=
  congrArg Prod.fst (compileLogged_eq unit g)

theorem Graph.compile_of_ofGraph {g : Graph} {o : Outline} (unit : String)
    (h : Outline.ofGraph g = .ok o) : g.compile unit = .ok (o.print unit) := by
  rw [compile_eq, h]
  rfl

theorem Graph.compile_eq_error {g : Graph} {unit : String} {e : Failure} :
    g.compile unit = .error e ↔ Outline.ofGraph g = .error e := by
  rw [compile_eq]
  cases Outline.ofGraph g with
  | error e' =>
    constructor
    · intro h
      cases h
      rfl
    · intro h
      cases h
      rfl
  | ok o =>
    constructor
    · intro h
      cases h
    · intro h
      cases h

theorem Graph.outline_of_compile {unit : String} {g : Graph} {c : Compiled}
    (h : g.compile unit = .ok c) : ∃ o, Outline.ofGraph g = .ok o ∧ c = o.print unit := by
  rw [compile_eq] at h
  cases ho : Outline.ofGraph g with
  | error e =>
    rw [ho] at h
    cases h
  | ok o =>
    rw [ho] at h
    cases h
    exact ⟨o, rfl, rfl⟩

end QueryShape
