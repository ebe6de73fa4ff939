import Mathlib
import QueryShape.Proofs.WalkRun

/-!
# The fragments of an operation

The fragments of an outline have distinct names (`freshName_notMem`), each spreads only fragments
before it, and each is reached from the root by following spreads (`fragments_closed`).
`Accounts T T' ns` says what one part of the walk contributes: it takes the fragments `T` to `T'` and
writes the spreads `ns`. Parts compose (`Accounts.append`), and a registered fragment accounts for
what its own part has registered (`Accounts.register`).
-/

set_option autoImplicit false

namespace QueryShape

/-! ## Fresh names -/

theorem numbered_inj {base : String} {i j : Nat} (h : numbered base i = numbered base j) :
    i = j := by
  have hr : toString i = toString j := (String.append_right_inj _).1 h
  rw [Nat.toString_eq_repr, Nat.toString_eq_repr] at hr
  calc i = Nat.ofDigitChars 10 i.repr.toList 0 := by simp
    _ = Nat.ofDigitChars 10 j.repr.toList 0 := by rw [hr]
    _ = j := by simp

theorem numbered_ne_base (base : String) (n : Nat) : numbered base n ≠ base := by
  intro h
  have hl := congrArg String.length h
  simp only [numbered, String.length_append] at hl
  have : "_".length = 1 := rfl
  omega

/-- With as many numbers as there are names taken, one candidate is free: the candidates and the
name itself are more than the names taken. -/
theorem freshName_notMem (taken : List String) (base : String) : freshName taken base ∉ taken := by
  unfold freshName
  split
  · rename_i hb
    dsimp only
    cases hf : ((List.range taken.length).map fun i => numbered base (i + 2)).find? (· ∉ taken) with
    | some c =>
      have := List.find?_some hf
      simpa using this
    | none =>
      have hall := List.find?_eq_none.1 hf
      have hsub :
          base :: ((List.range taken.length).map fun i => numbered base (i + 2)) ⊆ taken := by
        intro c hc
        rcases List.mem_cons.1 hc with rfl | hc
        · exact hb
        · simpa using hall c hc
      have hnd :
          (base :: ((List.range taken.length).map fun i => numbered base (i + 2))).Nodup := by
        refine List.nodup_cons.2 ⟨fun hm => ?_, ?_⟩
        · obtain ⟨i, -, hi⟩ := List.mem_map.1 hm
          exact numbered_ne_base base (i + 2) hi
        · refine List.pairwise_map.2 (List.nodup_range.imp fun hij he => hij ?_)
          have := numbered_inj he
          omega
      have hlen := hnd.length_le_of_subset hsub
      simp only [List.length_cons, List.length_map, List.length_range] at hlen
      omega
  · assumption

/-! ## Spreads -/

mutual

/-- The names of the fragments that are spread, in order. -/
def Selection.spreads : Selection → List String
  | .leaf _ _ => []
  | .nested _ _ group => group.spreads
  | .branch _ group => group.spreads
  | .spread fragment => [fragment]

def Group.spreads : Group → List String
  | .block selections => Selection.spreadsOfList selections
  | .spread fragment => [fragment]

def Selection.spreadsOfList : List Selection → List String
  | [] => []
  | s :: ss => s.spreads ++ Selection.spreadsOfList ss

end

theorem Selection.spreadsOfList_append (ss ss' : List Selection) :
    spreadsOfList (ss ++ ss') = spreadsOfList ss ++ spreadsOfList ss' := by
  induction ss with
  | nil => rfl
  | cons s ss ih => simp only [List.cons_append, spreadsOfList, ih, List.append_assoc]

def FragmentOutline.spreads (f : FragmentOutline) : List String :=
  Selection.spreadsOfList f.selections

/-- A name is among `start`, or spread by a fragment that is reached from there. -/
inductive Reaches (table : List FragmentOutline) (start : List String) : String → Prop
  | start {n : String} : n ∈ start → Reaches table start n
  | step {f : FragmentOutline} {n : String} : Reaches table start f.name → f ∈ table →
      n ∈ f.spreads → Reaches table start n

theorem Reaches.trans {table table' : List FragmentOutline} {start start' : List String}
    {n : String} (h : Reaches table start n) (ht : table ⊆ table')
    (hs : ∀ n ∈ start, Reaches table' start' n) : Reaches table' start' n := by
  induction h with
  | start hn => exact hs _ hn
  | step _ hf hn ih => exact .step ih (ht hf) hn

/-- Distinct names, and spreads of earlier fragments only. -/
structure Closed (table : List FragmentOutline) : Prop where
  nodup : (table.map (·.name)).Nodup
  earlier : ∀ (i : Nat) (f : FragmentOutline), table[i]? = some f → ∀ n ∈ f.spreads,
    n ∈ (table.take i).map (·.name)

theorem Closed.nil : Closed [] := ⟨List.nodup_nil, fun i f h => by simp at h⟩

/-- One more entry with a new key. -/
theorem nodup_map_snoc {α : Type} {key : α → String} {l : List α} {a : α}
    (h : (l.map key).Nodup) (ha : key a ∉ l.map key) : ((l ++ [a]).map key).Nodup := by
  rw [List.map_append, List.map_singleton]
  exact h.append (List.nodup_singleton _) (List.disjoint_singleton.2 ha)

theorem Closed.snoc {table : List FragmentOutline} {f : FragmentOutline} (h : Closed table)
    (hn : f.name ∉ table.map (·.name)) (hs : ∀ n ∈ f.spreads, n ∈ table.map (·.name)) :
    Closed (table ++ [f]) := by
  refine ⟨nodup_map_snoc h.nodup hn, fun i f' hf n hm => ?_⟩
  rcases Nat.lt_trichotomy i table.length with hi | hi | hi
  · rw [List.getElem?_append_left hi] at hf
    rw [List.take_append_of_le_length (Nat.le_of_lt hi)]
    exact h.earlier i f' hf n hm
  · subst hi
    rw [List.getElem?_concat_length] at hf
    cases hf
    rw [List.take_left]
    exact hs n hm
  · have hlen : (table ++ [f]).length ≤ i := by
      rw [List.length_append, List.length_singleton]
      omega
    rw [List.getElem?_eq_none hlen] at hf
    cases hf

/-! ## What a part of the walk contributes -/

structure Accounts (table table' : List FragmentOutline) (spreads : List String) : Prop where
  closed : Closed table'
  known : ∀ n ∈ spreads, n ∈ table'.map (·.name)
  reached : ∀ f ∈ table', f ∈ table ∨ Reaches table' spreads f.name

namespace Accounts

variable {table table₁ table' : List FragmentOutline} {ns ns' : List String}

theorem refl (h : Closed table) : Accounts table table [] :=
  ⟨h, fun _ hn => (List.not_mem_nil hn).elim, fun _ hf => .inl hf⟩

/-- The spread of a fragment that is there. -/
theorem spread (h : Closed table) {f : FragmentOutline} (hf : f ∈ table) :
    Accounts table table [f.name] := by
  refine ⟨h, fun n hn => ?_, fun _ hm => .inl hm⟩
  rw [List.mem_singleton.1 hn]
  exact List.mem_map_of_mem hf

theorem append (h₁ : Accounts table table₁ ns) (h₂ : Accounts table₁ table' ns')
    (hp : table₁ <+: table') : Accounts table table' (ns ++ ns') := by
  refine ⟨h₂.closed, fun n hn => ?_, fun f hf => ?_⟩
  · rcases List.mem_append.1 hn with hn | hn
    · exact List.map_subset _ hp.subset (h₁.known n hn)
    · exact h₂.known n hn
  · rcases h₂.reached f hf with hf₁ | hr
    · refine (h₁.reached f hf₁).imp_right fun hr => ?_
      exact hr.trans hp.subset fun n hn => .start (List.mem_append_left _ hn)
    · exact .inr (hr.trans (fun _ h => h) fun n hn => .start (List.mem_append_right _ hn))

/-- What a part has spread is reached through the fragment that it becomes. -/
theorem register {f : FragmentOutline} (h : Accounts table table₁ f.spreads)
    (hn : f.name ∉ table₁.map (·.name)) : Accounts table (table₁ ++ [f]) [f.name] := by
  have hf : f ∈ table₁ ++ [f] := List.mem_concat_self
  have hstart : Reaches (table₁ ++ [f]) [f.name] f.name := .start (List.mem_singleton.2 rfl)
  refine ⟨h.closed.snoc hn h.known, fun n hm => ?_, fun f' hf' => ?_⟩
  · rw [List.mem_singleton.1 hm]
    exact List.mem_map_of_mem hf
  · rcases List.mem_append.1 hf' with hf' | hf'
    · refine (h.reached f' hf').imp_right fun hr => ?_
      exact hr.trans (List.subset_append_left _ _) fun n hm => .step hstart hf hm
    · rw [List.mem_singleton.1 hf']
      exact .inr hstart

end Accounts

namespace Walk

mutual

theorem GroupRun.accounts {g : Graph} {k : Fin g.size} {w w' : Walk} {gr : Group} :
    GroupRun g k w gr w' → Closed w.fragments → Accounts w.fragments w'.fragments gr.spreads
  | .spread hf, hc => .spread hc (fragmentOf?_eq_some hf).2.1
  | .block _ _ h, hc => h.accounts hc
  | .register _ _ h hr, hc => by
    obtain ⟨hname, hw⟩ := register_ran hr
    rw [hw, Group.spreads]
    refine (h.accounts hc).register ?_
    rw [hname]
    exact freshName_notMem _ _

theorem FieldsRun.accounts {g : Graph} {k : Fin g.size} {fs : List Field} {w w' : Walk}
    {selections : List Selection} : FieldsRun g k fs w selections w' → Closed w.fragments →
      Accounts w.fragments w'.fragments (Selection.spreadsOfList selections)
  | .nil, hc => .refl hc
  | .cons h hs, hc => by
    have h₁ := h.accounts hc
    rw [Selection.spreadsOfList_append]
    exact h₁.append (hs.accounts h₁.closed) hs.fragments_prefix

theorem FieldRun.accounts {g : Graph} {k : Fin g.size} {f : Field} {w w' : Walk}
    {selections : List Selection} : FieldRun g k f w selections w' → Closed w.fragments →
      Accounts w.fragments w'.fragments (Selection.spreadsOfList selections)
  | .nothing .., hc => .refl hc
  | .spread _ _ _ hf, hc => .spread hc (fragmentOf?_eq_some hf).2.1
  | .splice _ _ _ _ h, hc => h.accounts hc
  | .leaf _ _ _ ha, hc => by
    rw [fragments_arguments ha]
    exact .refl hc
  | .nested _ _ _ ha h, hc => by
    rw [← fragments_arguments ha] at hc ⊢
    simpa only [Selection.spreadsOfList, Selection.spreads, List.append_nil] using h.accounts hc
  | .typename .., hc => .refl hc
  | .branch _ _ _ _ h, hc => by
    simpa only [Selection.spreadsOfList, Selection.spreads, List.append_nil] using h.accounts hc

end

end Walk

theorem Outline.accounts_of_ofGraph {g : Graph} {o : Outline} (hg : g.Arranged)
    (h : Outline.ofGraph g = .ok o) :
    Accounts [] o.fragments o.root.spreads := by
  obtain ⟨k, w, -, hr, -, hf⟩ := Outline.run_of_ofGraph hg h
  rw [hf]
  exact hr.accounts .nil

/-- The fragments of a compiled operation are closed under spreads, in order, and all used. -/
theorem fragments_closed {κ : Type} [DecidableEq κ] {t : ShapeTable κ} {unit : String}
    {root : Option κ} {c : Compiled} (h : t.compile unit root = .ok c) :
    ∃ key g o, root = some key ∧ Graph.extract t key = .ok g ∧ Outline.ofGraph g = .ok o ∧
      c = o.print unit ∧ (c.fragments.map (·.name)).Nodup ∧
      (∀ n ∈ o.root.spreads, n ∈ c.fragments.map (·.name)) ∧
      (∀ (i : Nat) (f : FragmentOutline), o.fragments[i]? = some f →
        ∀ n ∈ f.spreads, n ∈ (c.fragments.take i).map (·.name)) ∧
      ∀ f ∈ c.fragments, Reaches o.fragments o.root.spreads f.name := by
  obtain ⟨key, g, hkey, hx, hg⟩ := ShapeTable.graph_of_compile h
  obtain ⟨o, ho, rfl⟩ := Graph.outline_of_compile hg
  have ha := Outline.accounts_of_ofGraph (Graph.arranged_extract hx) ho
  have hnames : ∀ l : List FragmentOutline,
      (l.map (·.print unit)).map (·.name) = l.map (·.name) := fun l => by
    rw [List.map_map]; rfl
  refine ⟨key, g, o, hkey, hx, ho, rfl, ?_, ?_, ?_, ?_⟩
  · rw [Outline.print, hnames]
    exact ha.closed.nodup
  · rw [Outline.print, hnames]
    exact ha.known
  · intro i f hf n hn
    rw [Outline.print, ← List.map_take, hnames]
    exact ha.closed.earlier i f hf n hn
  · intro f hf
    obtain ⟨f', hf', rfl⟩ := List.mem_map.1 hf
    exact (ha.reached f' hf').resolve_left List.not_mem_nil

/-- A page with items in it, in a box and in a list of boxes. The first item stands inline, where it
does not become a fragment yet. -/
def pageTable : ShapeTable String :=
  ⟨[("item", ⟨"I", some "Item", [{ ident := "id" }]⟩),
    ("box", ⟨"B", some "Box", [{ ident := "item", type := .shape "item" }]⟩),
    ("page", ⟨"P", some "Page", [{ ident := "Item", embedded := true, type := .shape "item" },
      { ident := "box", type := .shape "box" }, { ident := "boxes", type := .list (.shape "box") },
      { ident := "Item", embedded := true, type := .shape "item" }]⟩)]⟩

def pageGraph : Graph where
  nodes := #[⟨"I", some "Item", [⟨"id", .scalar, []⟩], false, 3⟩,
    ⟨"B", some "Box", [⟨"item", .object (some 0), []⟩], false, 2⟩,
    ⟨"P", some "Page", [⟨"Item", .inline (some 0), []⟩, ⟨"box", .object (some 1), []⟩,
      ⟨"boxes", .object (some 1), []⟩, ⟨"Item", .inline (some 0), []⟩], false, 1⟩]
  root := some 2

def pageCompiled : Compiled where
  body := "\x7b\n\tid\n\tbox\x7b ...B \x7d\n\tboxes\x7b ...B \x7d\n\t...I\n\x7d"
  vars := []
  fragments := [⟨"I", "Item", "fragment I on Item\x7b\n\tid\n\x7d"⟩,
    ⟨"B", "Box", "fragment B on Box\x7b\n\titem\x7b ...I \x7d\n\x7d"⟩]

set_option maxRecDepth 100000 in
theorem compile_page : pageTable.compile "\t" (some "page") = .ok pageCompiled := by cbv

set_option maxRecDepth 100000 in
theorem extract_page : Graph.extract pageTable "page" = .ok pageGraph := by cbv

theorem compile_pageGraph : pageGraph.compile "\t" = .ok pageCompiled := by
  obtain ⟨key, g, hkey, hx, hc⟩ := ShapeTable.graph_of_compile compile_page
  cases hkey
  rw [extract_page] at hx
  cases hx
  exact hc

theorem fragments_closed_page : pageTable.compile "\t" (some "page") = .ok pageCompiled ∧
    ∃ key g o, some "page" = some key ∧ Graph.extract pageTable key = .ok g ∧
      Outline.ofGraph g = .ok o ∧ pageCompiled = o.print "\t" ∧
      (pageCompiled.fragments.map (·.name)).Nodup ∧
      (∀ n ∈ o.root.spreads, n ∈ pageCompiled.fragments.map (·.name)) ∧
      (∀ (i : Nat) (f : FragmentOutline), o.fragments[i]? = some f →
        ∀ n ∈ f.spreads, n ∈ (pageCompiled.fragments.take i).map (·.name)) ∧
      ∀ f ∈ pageCompiled.fragments, Reaches o.fragments o.root.spreads f.name :=
  ⟨compile_page, fragments_closed compile_page⟩

end QueryShape
