import Mathlib
import QueryShape.Proofs.FragmentTable
import QueryShape.Proofs.Unfolding

/-!
# Operations without fragments

`ShapeTree.selections` writes a shape tree out as selections in which nothing is spread.
`Expands table` replaces every spread in selections by what the fragment of that name expands to, and
forgets the names of variables called after their places. The two agree: what is written for a graph
expands to the selections of its tree and to nothing else (`expands_iff_unfolding`). The walk keeps
`Faithful`: every fragment expands to the selections of the node it was made from.
-/

set_option autoImplicit false

namespace QueryShape

inductive PlainOperand where
  | literal (text : String)
  /-- A variable that was named. -/
  | named (name : String)
  /-- A variable called after its place. -/
  | placed
deriving DecidableEq, Repr

/-- A selection below which nothing is spread. -/
inductive PlainSelection where
  | leaf (name : String) (arguments : List (String × PlainOperand))
  | nested (name : String) (arguments : List (String × PlainOperand))
      (selections : List PlainSelection)
  | branch (type : String) (selections : List PlainSelection)

/-! ## Selections of trees -/

/-- A literal without text is left out. -/
def Argument.plain? : Argument → Option PlainOperand
  | .literal value _ =>
    if value.literalText.isEmpty then none else some (.literal value.literalText)
  | .variable (some name) _ _ => some (.named name)
  | .variable none _ _ => some .placed

def plainArguments (arguments : OrderedMap String Argument) : List (String × PlainOperand) :=
  arguments.filterMap fun (key, a) => a.plain?.map (key, ·)

mutual

def ShapeTree.selections : ShapeTree → List PlainSelection
  | .mk _ _ isUnion fields => FieldTree.selectionsOf isUnion fields

/-- A shape as a member of a union; without a name it has no branch. -/
def ShapeTree.branch : ShapeTree → List PlainSelection
  | .mk _ none _ _ => []
  | .mk _ (some type) isUnion fields => [.branch type (FieldTree.selectionsOf isUnion fields)]

def FieldTree.selectionsOf (isUnion : Bool) : List FieldTree → List PlainSelection
  | [] => []
  | f :: fs => FieldTree.selections isUnion f ++ FieldTree.selectionsOf isUnion fs

/-- A field of a shape, which may be a union. -/
def FieldTree.selections (isUnion : Bool) : FieldTree → List PlainSelection
  | .mk name kind arguments =>
    if isUnion then if name = typenameField then [.leaf name []] else kind.branches
    else kind.selections name (plainArguments arguments)

/-- A field of a shape that is no union. -/
def KindTree.selections (name : String) (arguments : List (String × PlainOperand)) :
    KindTree → List PlainSelection
  | .scalar => [.leaf name arguments]
  | .object none => [.leaf name arguments]
  | .object (some s) => [.nested name arguments s.selections]
  | .inline none => []
  | .inline (some s) => s.selections

/-- A member of a union. -/
def KindTree.branches : KindTree → List PlainSelection
  | .scalar => []
  | .object none => []
  | .object (some s) => s.branch
  | .inline none => []
  | .inline (some s) => s.branch

end

/-! ## Replacing spreads -/

def Operand.plain : Operand → PlainOperand
  | .literal text => .literal text
  | .variable name true => .named name
  | .variable _ false => .placed

def plainOperands (operands : List (String × Operand)) : List (String × PlainOperand) :=
  operands.map fun (key, o) => (key, o.plain)

/-- The selections between the braces. -/
def Group.selections : Group → List Selection
  | .block selections => selections
  | .spread fragment => [.spread fragment]

/-- The selections with every spread replaced by what a fragment of that name expands to. -/
inductive Expands (table : List FragmentOutline) : List Selection → List PlainSelection → Prop
  | nil : Expands table [] []
  | leaf {name : String} {operands : List (String × Operand)} {ss : List Selection}
      {ts : List PlainSelection} : Expands table ss ts →
      Expands table (.leaf name operands :: ss) (.leaf name (plainOperands operands) :: ts)
  | nested {name : String} {operands : List (String × Operand)} {group : Group}
      {ss : List Selection} {us ts : List PlainSelection} : Expands table group.selections us →
      Expands table ss ts → Expands table (.nested name operands group :: ss)
        (.nested name (plainOperands operands) us :: ts)
  | branch {type : String} {group : Group} {ss : List Selection} {us ts : List PlainSelection} :
      Expands table group.selections us → Expands table ss ts →
      Expands table (.branch type group :: ss) (.branch type us :: ts)
  | spread {f : FragmentOutline} {ss : List Selection} {us ts : List PlainSelection} :
      f ∈ table → Expands table f.selections us → Expands table ss ts →
      Expands table (.spread f.name :: ss) (us ++ ts)

namespace Expands

variable {table table' : List FragmentOutline} {ss ss' : List Selection}
  {ts ts' : List PlainSelection}

theorem append (h : Expands table ss ts) (h' : Expands table ss' ts') :
    Expands table (ss ++ ss') (ts ++ ts') := by
  induction h with
  | nil => exact h'
  | leaf _ ih => exact .leaf ih
  | nested hg _ _ ih => exact .nested hg ih
  | branch hg _ _ ih => exact .branch hg ih
  | spread hf hs _ _ ih =>
    rw [List.append_assoc]
    exact .spread hf hs ih

theorem mono (h : Expands table ss ts) (ht : table ⊆ table') : Expands table' ss ts := by
  induction h with
  | nil => exact .nil
  | leaf _ ih => exact .leaf ih
  | nested _ _ ihg ih => exact .nested ihg ih
  | branch _ _ ihg ih => exact .branch ihg ih
  | spread hf _ _ ihs ih => exact .spread (ht hf) ihs ih

/-- Where names of fragments are distinct, there is one expansion. -/
theorem unique (hn : (table.map (·.name)).Nodup) (h : Expands table ss ts)
    (h' : Expands table ss ts') : ts = ts' := by
  induction h generalizing ts' with
  | nil =>
    cases h'
    rfl
  | leaf _ ih =>
    cases h' with
    | leaf h' => rw [ih h']
  | nested _ _ ihg ih =>
    cases h' with
    | nested hg' h' => rw [ihg hg', ih h']
  | branch _ _ ihg ih =>
    cases h' with
    | branch hg' h' => rw [ihg hg', ih h']
  | @spread f ss us ts hf _ _ ihs ih =>
    generalize hname : f.name = name at h'
    cases h' with
    | spread hf' hs' h' =>
      obtain rfl := List.inj_on_of_nodup_map hn hf hf' hname
      rw [ihs hs', ih h']

theorem single_spread {f : FragmentOutline} (hf : f ∈ table) (h : Expands table f.selections ts) :
    Expands table [.spread f.name] ts := by
  have hs := spread hf h .nil
  rwa [List.append_nil] at hs

end Expands

/-! ## Selections of nodes -/

namespace Graph

/-- What fields of node `k` stand for without fragments. -/
def plainFields (g : Graph) (k : Fin g.size) (fs : List Field) : List PlainSelection :=
  FieldTree.selectionsOf (g.node k).isUnion (fs.map (·.unfold (unfoldAt g.nodes)))

def plainField (g : Graph) (k : Fin g.size) (f : Field) : List PlainSelection :=
  FieldTree.selections (g.node k).isUnion (f.unfold (unfoldAt g.nodes))

theorem plainFields_cons (g : Graph) (k : Fin g.size) (f : Field) (fs : List Field) :
    g.plainFields k (f :: fs) = g.plainField k f ++ g.plainFields k fs := by
  rw [plainFields, List.map_cons, FieldTree.selectionsOf]
  rfl

/-- What node `k` stands for without fragments. -/
def plain (g : Graph) (k : Fin g.size) : List PlainSelection := g.plainFields k (g.node k).fields

theorem selections_unfold (g : Graph) (k : Fin g.size) :
    ((g.node k).unfold (unfoldAt g.nodes)).selections = g.plain k := by
  rw [Node.unfold, ShapeTree.selections]
  rfl

theorem branch_unfold (g : Graph) (k : Fin g.size) {type : String}
    (h : (g.node k).name = some type) :
    ((g.node k).unfold (unfoldAt g.nodes)).branch = [.branch type (g.plain k)] := by
  rw [Node.unfold, h, ShapeTree.branch]
  rfl

theorem Arranged.unfoldAt_eq {g : Graph} (hg : g.Arranged) (k : Fin g.size) :
    unfoldAt g.nodes k.val = some ((g.node k).unfold (unfoldAt g.nodes)) :=
  unfoldAt_eq_some (g.node_eq k) fun f hf i hi => hg.below k f i hf hi

/-- A field that refers to no node. -/
theorem plainField_of_none {g : Graph} {k : Fin g.size} {f : Field}
    (hu : (g.node k).isUnion = false) (hn : f.kind.nested? = none) :
    g.plainField k f =
      if f.kind.isInline then [] else [.leaf f.name (plainArguments f.arguments)] := by
  rw [plainField, Field.unfold, FieldTree.selections, hu, if_neg Bool.false_ne_true]
  rcases hk : f.kind with _ | (_ | i) | (_ | i)
  · rfl
  · rfl
  · rw [hk] at hn
    cases hn
  · rfl
  · rw [hk] at hn
    cases hn

/-- A field that refers to node `i`. -/
theorem Arranged.plainField_of_some {g : Graph} (hg : g.Arranged) {k i : Fin g.size} {f : Field}
    (hu : (g.node k).isUnion = false) (hn : f.kind.nested? = some i.val) :
    g.plainField k f = if f.kind.isInline then g.plain i
      else [.nested f.name (plainArguments f.arguments) (g.plain i)] := by
  rw [plainField, Field.unfold, FieldTree.selections, hu, if_neg Bool.false_ne_true,
    ← selections_unfold g i]
  rcases hk : f.kind with _ | (_ | j) | (_ | j)
  all_goals rw [hk] at hn; cases hn
  · rw [FieldKind.unfold, Option.bind_some, hg.unfoldAt_eq i, KindTree.selections]
    rfl
  · rw [FieldKind.unfold, Option.bind_some, hg.unfoldAt_eq i, KindTree.selections]
    rfl

theorem plainField_typename {g : Graph} {k : Fin g.size} {f : Field}
    (hu : (g.node k).isUnion = true) (hn : f.name = typenameField) :
    g.plainField k f = [.leaf f.name []] := by
  rw [plainField, Field.unfold, FieldTree.selections, hu, if_pos rfl, if_pos hn]

theorem Arranged.plainField_branch {g : Graph} (hg : g.Arranged) {k i : Fin g.size} {f : Field}
    {type : String} (hu : (g.node k).isUnion = true) (hf : f.name ≠ typenameField)
    (hn : f.kind.nested? = some i.val) (ht : (g.node i).name = some type) :
    g.plainField k f = [.branch type (g.plain i)] := by
  rw [plainField, Field.unfold, FieldTree.selections, hu, if_pos rfl, if_neg hf,
    ← branch_unfold g i ht]
  rcases hk : f.kind with _ | (_ | j) | (_ | j)
  all_goals rw [hk] at hn; cases hn
  · rw [FieldKind.unfold, Option.bind_some, hg.unfoldAt_eq i, KindTree.branches]
  · rw [FieldKind.unfold, Option.bind_some, hg.unfoldAt_eq i, KindTree.branches]

end Graph

/-! ## The walk -/

/-- Every fragment expands to what a node with its id stands for. -/
def Faithful (g : Graph) (table : List FragmentOutline) : Prop :=
  ∀ f ∈ table, ∃ k : Fin g.size, (g.node k).id = f.shapeId ∧ Expands table f.selections (g.plain k)

theorem Faithful.nil (g : Graph) : Faithful g [] := fun _ hf => (List.not_mem_nil hf).elim

theorem Faithful.snoc {g : Graph} {table : List FragmentOutline} {f : FragmentOutline}
    {k : Fin g.size} (h : Faithful g table) (hk : (g.node k).id = f.shapeId)
    (hs : Expands table f.selections (g.plain k)) : Faithful g (table ++ [f]) := by
  have hsub : table ⊆ table ++ [f] := List.subset_append_left _ _
  intro f' hf'
  rcases List.mem_append.1 hf' with hf' | hf'
  · obtain ⟨k', hk', hs'⟩ := h f' hf'
    exact ⟨k', hk', hs'.mono hsub⟩
  · obtain rfl := List.mem_singleton.1 hf'
    exact ⟨k, hk, hs.mono hsub⟩

/-- The node of a fragment is known by its id. -/
theorem Faithful.expands {g : Graph} (hg : g.Arranged) {w : Walk} (h : Faithful g w.fragments)
    {k : Fin g.size} {f : FragmentOutline} (hf : Walk.fragmentOf? w (g.node k) = some f) :
    Expands w.fragments [.spread f.name] (g.plain k) := by
  obtain ⟨-, hm, hid⟩ := Walk.fragmentOf?_eq_some hf
  obtain ⟨k', hk', hs⟩ := h f hm
  obtain rfl := hg.inj k' k (hk'.trans hid)
  exact .single_spread hm hs

namespace Walk

theorem plainOperands_of_ran {args : OrderedMap String Argument} {w w' : Walk}
    {operands : List (String × Operand)} (h : Ran (arguments args) w operands w') :
    plainOperands operands = plainArguments args := by
  induction args generalizing w operands with
  | nil =>
    obtain ⟨rfl, rfl⟩ := ran_pure.1 h
    rfl
  | cons a args ih =>
    obtain ⟨key, ⟨value, type⟩ | ⟨name, type, default⟩⟩ := a
    · obtain ⟨rest, hr, rfl⟩ := ran_arguments_literal h
      rw [plainArguments, List.filterMap_cons, ← plainArguments, ← ih hr]
      by_cases ht : value.literalText.isEmpty
      · simp only [Argument.plain?, if_pos ht, Option.map_none]
      · simp only [Argument.plain?, if_neg ht, Option.map_some]
        rfl
    · obtain ⟨used, w₁, rest, hu, hr, rfl⟩ := ran_arguments_variable h
      obtain ⟨hused, -⟩ := useVariable_ran hu
      rw [plainArguments, List.filterMap_cons, ← plainArguments, ← ih hr]
      cases name with
      | none => rfl
      | some name =>
        cases hused
        rfl

mutual

theorem GroupRun.expands {g : Graph} (hg : g.Arranged) {k : Fin g.size} {w w' : Walk} {gr : Group} :
    GroupRun g k w gr w' → Faithful g w.fragments →
      Faithful g w'.fragments ∧ Expands w'.fragments gr.selections (g.plain k)
  | .spread hf, ht => ⟨ht, ht.expands hg hf⟩
  | .block _ _ h, ht => FieldsRun.expands hg h ht fun _ hf => hf
  | .register _ _ h hr, ht => by
    obtain ⟨-, hw⟩ := register_ran hr
    obtain ⟨ht₁, hs⟩ := FieldsRun.expands hg h ht fun _ hf => hf
    rw [hw]
    refine ⟨ht₁.snoc rfl hs, ?_⟩
    exact .single_spread List.mem_concat_self (hs.mono (List.subset_append_left _ _))

theorem FieldsRun.expands {g : Graph} (hg : g.Arranged) {k : Fin g.size} {fs : List Field}
    {w w' : Walk} {selections : List Selection} : FieldsRun g k fs w selections w' →
      Faithful g w.fragments → (∀ f ∈ fs, f ∈ (g.node k).fields) →
      Faithful g w'.fragments ∧ Expands w'.fragments selections (g.plainFields k fs)
  | .nil, ht, _ => ⟨ht, .nil⟩
  | .cons h hs, ht, hfs => by
    obtain ⟨ht₁, h₁⟩ := FieldRun.expands hg h ht (hfs _ List.mem_cons_self)
    obtain ⟨ht₂, h₂⟩ := FieldsRun.expands hg hs ht₁ fun f hf => hfs f (List.mem_cons_of_mem _ hf)
    rw [Graph.plainFields_cons]
    exact ⟨ht₂, (h₁.mono hs.fragments_prefix.subset).append h₂⟩

theorem FieldRun.expands {g : Graph} (hg : g.Arranged) {k : Fin g.size} {f : Field} {w w' : Walk}
    {selections : List Selection} : FieldRun g k f w selections w' → Faithful g w.fragments →
      f ∈ (g.node k).fields →
      Faithful g w'.fragments ∧ Expands w'.fragments selections (g.plainField k f)
  | .nothing hu hi hc, ht, hf => by
    rw [Graph.plainField_of_none hu (hg.nested?_eq_none hf hc), if_pos hi]
    exact ⟨ht, .nil⟩
  | .spread hu hi hc hfr, ht, _ => by
    rw [hg.plainField_of_some hu (Graph.nested?_of_child? hc), if_pos hi]
    exact ⟨ht, ht.expands hg hfr⟩
  | .splice hu hi hc _ h, ht, _ => by
    rw [hg.plainField_of_some hu (Graph.nested?_of_child? hc), if_pos hi]
    exact FieldsRun.expands hg h ht fun _ hf => hf
  | .leaf hu hi hc ha, ht, hf => by
    rw [Graph.plainField_of_none hu (hg.nested?_eq_none hf hc), hi, if_neg Bool.false_ne_true,
      ← plainOperands_of_ran ha, fragments_arguments ha]
    exact ⟨ht, .leaf .nil⟩
  | .nested hu hi hc ha h, ht, _ => by
    rw [← fragments_arguments ha] at ht
    obtain ⟨ht', hs⟩ := GroupRun.expands hg h ht
    rw [hg.plainField_of_some hu (Graph.nested?_of_child? hc), hi, if_neg Bool.false_ne_true,
      ← plainOperands_of_ran ha]
    exact ⟨ht', .nested hs .nil⟩
  | .typename hu hn, ht, _ => by
    rw [Graph.plainField_typename hu hn]
    exact ⟨ht, .leaf .nil⟩
  | .branch hu hn hc hty h, ht, _ => by
    obtain ⟨ht', hs⟩ := GroupRun.expands hg h ht
    rw [hg.plainField_branch hu hn (Graph.nested?_of_child? hc) hty]
    exact ⟨ht', .branch hs .nil⟩

end

end Walk

/-- An operation is printed from an outline that expands to the selections of the graph's tree, and
each of its fragments to the selections of the tree of a node with its id. -/
theorem expands_iff_unfolding {κ : Type} [DecidableEq κ] {t : ShapeTable κ} {root : κ} {g : Graph}
    {unit : String} {c : Compiled} (hx : Graph.extract t root = .ok g)
    (hc : g.compile unit = .ok c) :
    ∃ o tree, Outline.ofGraph g = .ok o ∧ c = o.print unit ∧ g.unfolding = some tree ∧
      (∀ ts, Expands o.fragments o.root.selections ts ↔ ts = tree.selections) ∧
      ∀ f ∈ o.fragments, ∃ (k : Fin g.size) (part : ShapeTree), (g.node k).id = f.shapeId ∧
        unfoldAt g.nodes k = some part ∧
        ∀ ts, Expands o.fragments f.selections ts ↔ ts = part.selections := by
  have hg := Graph.arranged_extract hx
  obtain ⟨o, ho, rfl⟩ := Graph.outline_of_compile hc
  have hn := (Outline.accounts_of_ofGraph hg ho).closed.nodup
  obtain ⟨k, w, hk, hr, -, hw⟩ := Outline.run_of_ofGraph hg ho
  obtain ⟨ht, hs⟩ := hr.expands hg (Faithful.nil g)
  rw [← hw] at ht hs
  -- an expansion that exists is the only one
  have hiff : ∀ {ss us}, Expands o.fragments ss us → ∀ ts, Expands o.fragments ss ts ↔ ts = us :=
    fun hs ts => ⟨fun h => h.unique hn hs, fun h => h ▸ hs⟩
  refine ⟨o, (g.node k).unfold (unfoldAt g.nodes), ho, rfl, ?_, ?_, fun f hf => ?_⟩
  · rw [Graph.unfolding, hk, Option.bind_some, hg.unfoldAt_eq k]
  · rw [Graph.selections_unfold]
    exact hiff hs
  · obtain ⟨i, hi, hfs⟩ := ht f hf
    refine ⟨i, _, hi, hg.unfoldAt_eq i, ?_⟩
    rw [Graph.selections_unfold]
    exact hiff hfs

/-- A feed of entries, which are posts or photos. The entries become a fragment at the first field, and
on the way there so do the authors; these stand once more in place of a field. -/
def feedTable : ShapeTable String :=
  ⟨[("author", ⟨"A", some "Author", [{ ident := "name" }]⟩),
    ("post", ⟨"P", some "Post",
      [{ ident := "title", tag := some "title(in: $lang:Lang, short: true)" },
        { ident := "by", type := .shape "author" }]⟩),
    ("photo", ⟨"H", some "Photo", [{ ident := "url", tag := some "url(size: LARGE)" }]⟩),
    ("entry", ⟨"E", some "Entry", [{ ident := "__typename", tag := some "union" },
      { ident := "Post", embedded := true, type := .shape "post" },
      { ident := "photo", type := .shape "photo" }]⟩),
    ("feed", ⟨"F", none, [{ ident := "top", type := .shape "entry" },
      { ident := "all", tag := some "all(by: $key)", type := .list (.shape "entry") },
      { ident := "Author", embedded := true, type := .shape "author" }]⟩)]⟩

def feedGraph : Graph where
  nodes := #[⟨"A", some "Author", [⟨"name", .scalar, []⟩], false, 2⟩,
    ⟨"P", some "Post", [⟨"title", .scalar, [("in", .variable (some "lang") (some "Lang") none),
      ("short", .literal (.bool true) none)]⟩, ⟨"by", .object (some 0), []⟩], false, 1⟩,
    ⟨"H", some "Photo", [⟨"url", .scalar, [("size", .literal (.enum "LARGE") none)]⟩], false, 1⟩,
    ⟨"E", some "Entry", [⟨"__typename", .scalar, []⟩, ⟨"Post", .inline (some 1), []⟩,
      ⟨"photo", .object (some 2), []⟩], true, 2⟩,
    ⟨"F", none, [⟨"top", .object (some 3), []⟩,
      ⟨"all", .object (some 3), [("by", .variable (some "key") none none)]⟩,
      ⟨"Author", .inline (some 0), []⟩], false, 1⟩]
  root := some 4

def feedCompiled : Compiled where
  body := "\x7b\n  top\x7b ...E \x7d\n  all(by: $key)\x7b ...E \x7d\n  ...A\n\x7d"
  vars := [⟨"lang", some "Lang", ["top/Post/title"], none⟩, ⟨"key", none, ["all"], none⟩]
  fragments := [⟨"A", "Author", "fragment A on Author\x7b\n  name\n\x7d"⟩,
    ⟨"E", "Entry", "fragment E on Entry\x7b\n  __typename\n  ... on Post \x7b\n" ++
      "    title(in: $lang, short: true)\n    by\x7b ...A \x7d\n  \x7d\n" ++
      "  ... on Photo \x7b\n    url(size: LARGE)\n  \x7d\n\x7d"⟩]

set_option maxRecDepth 100000 in
theorem extract_feed : Graph.extract feedTable "feed" = .ok feedGraph := by cbv

set_option maxRecDepth 100000 in
theorem compile_feed : feedGraph.compile "  " = .ok feedCompiled := by cbv

theorem expands_iff_unfolding_feed : Graph.extract feedTable "feed" = .ok feedGraph ∧
    feedGraph.compile "  " = .ok feedCompiled ∧
    ∃ o tree, Outline.ofGraph feedGraph = .ok o ∧ feedCompiled = o.print "  " ∧
      feedGraph.unfolding = some tree ∧
      (∀ ts, Expands o.fragments o.root.selections ts ↔ ts = tree.selections) ∧
      ∀ f ∈ o.fragments, ∃ (k : Fin feedGraph.size) (part : ShapeTree),
        (feedGraph.node k).id = f.shapeId ∧ unfoldAt feedGraph.nodes k = some part ∧
        ∀ ts, Expands o.fragments f.selections ts ↔ ts = part.selections :=
  ⟨extract_feed, compile_feed, expands_iff_unfolding extract_feed compile_feed⟩

end QueryShape
