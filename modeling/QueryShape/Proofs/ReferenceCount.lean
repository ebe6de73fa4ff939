import Mathlib
import QueryShape.Proofs.VisitInv

/-!
# Uses of nodes

`Graph.WellFormed` is what holds of every extracted graph, whatever the table (`extract_wellFormed`):
ids are distinct, fields refer to earlier nodes, every node is reached from the root, which comes
last, and a node is used as often as fields refer to it.

While shapes are being expanded, some references stand in no node yet. `Counted st pending` balances
the uses against the references of the nodes and those pending ones: a visit adds the node it gives to
them (`Visits.adds`), and a shape that is finished takes the references of its own fields over
(`Counted.finish`).
-/

set_option autoImplicit false

namespace QueryShape

/-- The nodes that the fields refer to. -/
def references (fields : List Field) : List Nat := fields.filterMap (·.kind.nested?)

/-- A field of node `i` refers to node `j`. -/
def Linked (nodes : Array Node) (i j : Nat) : Prop :=
  ∃ n, nodes[i]? = some n ∧ ∃ f ∈ n.fields, f.kind.nested? = some j

namespace Graph

/-- The fields of all nodes. -/
def allFields (g : Graph) : List Field := g.nodes.toList.flatMap (·.fields)

/-- How many fields refer to node `k`. -/
def referenceCount (g : Graph) (k : Nat) : Nat := g.allFields.countP (·.kind.nested? == some k)

/-- Node `r` is where everything starts. -/
structure RootedAt (g : Graph) (r : Fin g.size) : Prop where
  root : g.root = some r.val
  last : r.val + 1 = g.size
  reaches : ∀ k : Fin g.size, Relation.ReflTransGen (Linked g.nodes) r.val k.val
  uses : (g.node r).uses = 1
  unreferenced : ∀ f ∈ g.allFields, f.kind.nested? ≠ some r.val

structure WellFormed (g : Graph) : Prop where
  distinct : (g.nodes.toList.map (·.id)).Nodup
  find?_id : ∀ k : Fin g.size, g.find? (g.node k).id = some k.val
  fields : ∀ k : Fin g.size, (g.node k).fields ≠ []
  below : ∀ (k : Fin g.size), ∀ f ∈ (g.node k).fields, ∀ i, f.kind.nested? = some i → i < k.val
  counted : ∀ k : Fin g.size, g.root ≠ some k.val → (g.node k).uses = g.referenceCount k.val

end Graph

namespace Extraction

/-! ## Counting -/

/-- The references that stand in nodes. -/
def stored (nodes : Array Node) : List Nat := nodes.toList.flatMap fun n => references n.fields

def usesAt (nodes : Array Node) (j : Nat) : Nat := nodes[j]?.elim 0 (·.uses)

/-- Each node has fields, and its uses are the references in nodes and the pending ones. -/
structure Counted (st : Extraction) (pending : List Nat) : Prop where
  fields : ∀ (k : Nat) (n : Node), st.nodes[k]? = some n → n.fields ≠ []
  uses : ∀ j, usesAt st.nodes j = (stored st.nodes).count j + pending.count j

theorem stored_push (nodes : Array Node) (n : Node) :
    stored (nodes.push n) = stored nodes ++ references n.fields := by
  rw [stored, stored, Array.toList_push, List.flatMap_append, List.flatMap_singleton]

/-- The references in nodes do not depend on the uses. -/
theorem stored_modify (nodes : Array Node) (k : Nat) (change : Node → Nat) :
    stored (nodes.modify k fun n => { n with uses := change n }) = stored nodes := by
  have hfields : (nodes.toList.modify k fun n => { n with uses := change n }).map (·.fields) =
      nodes.toList.map (·.fields) := by
    refine List.ext_getElem? fun j => ?_
    rw [List.getElem?_map, List.getElem?_map, List.getElem?_modify]
    cases nodes.toList[j]? with
    | none => simp
    | some n => by_cases hj : k = j <;> simp [hj]
  have hstored : ∀ l : List Node, l.flatMap (fun n => references n.fields) =
      (l.map (·.fields)).flatMap references := fun l => (List.flatMap_map _ _ l).symm
  rw [stored, stored, Array.toList_modify, hstored, hstored, hfields]

theorem usesAt_push (nodes : Array Node) (n : Node) (j : Nat) :
    usesAt (nodes.push n) j = if j = nodes.size then n.uses else usesAt nodes j := by
  rw [usesAt, Array.getElem?_push]
  split <;> rfl

theorem usesAt_modify {nodes : Array Node} {k : Nat} (hk : k < nodes.size) (j : Nat) :
    usesAt (nodes.modify k fun n => { n with uses := n.uses + 1 }) j =
      usesAt nodes j + [k].count j := by
  rw [usesAt, usesAt, Array.getElem?_modify, List.count_singleton]
  by_cases hj : k = j
  · subst hj
    simp [Array.getElem?_eq_getElem hk]
  · simp [hj]

theorem usesAt_size (nodes : Array Node) : usesAt nodes nodes.size = 0 := by
  rw [usesAt, Array.getElem?_eq_none (Nat.le_refl _)]
  rfl

namespace Counted

variable {st : Extraction} {pending : List Nat}

theorem initial : Counted {} [] := by
  refine ⟨fun k n hn => ?_, fun j => ?_⟩
  · simp at hn
  · simp [usesAt, stored]

/-- Using a finished shape again is one more reference. -/
theorem reuse (h : Counted st pending) (id : String) {k : Option Nat}
    (hk : ∀ i, k = some i → i < st.nodes.size) :
    Counted (st.reuse id k) (k.toList ++ pending) := by
  cases k with
  | none => exact h
  | some i =>
    refine ⟨fun j n hn => ?_, fun j => ?_⟩
    · simp only [Extraction.reuse, log, Array.getElem?_modify] at hn
      split at hn
      · obtain ⟨n', hn', rfl⟩ := Option.map_eq_some_iff.1 hn
        exact h.fields j n' hn'
      · exact h.fields j n hn
    · simp only [Extraction.reuse, log]
      rw [usesAt_modify (hk i rfl), stored_modify _ _ fun n => n.uses + 1, h.uses j,
        Option.toList_some, List.count_append]
      omega

/-- The references of its fields go into the new node, which itself is referred to once. -/
theorem finish {κ : Type} {s : Shape κ} {fields : List Field} (isUnion : Bool)
    (h : Counted st (references fields ++ pending)) :
    Counted (st.finish s fields isUnion).2 ((st.finish s fields isUnion).1.toList ++ pending) := by
  unfold Extraction.finish
  split
  · rename_i he
    rw [List.isEmpty_iff] at he
    subst he
    exact ⟨h.fields, h.uses⟩
  · rename_i he
    refine ⟨fun j n hn => ?_, fun j => ?_⟩
    · simp only [log, Array.getElem?_push] at hn
      split at hn
      · cases hn
        intro hnil
        exact he (List.isEmpty_iff.2 hnil)
      · exact h.fields j n hn
    · -- nothing refers to the number of the new node before
      have hj := h.uses j
      have hnew := h.uses st.nodes.size
      simp only [usesAt_size, List.count_append] at hj hnew
      simp only [log, usesAt_push, stored_push, Option.toList_some, List.count_append,
        List.count_singleton, beq_iff_eq]
      by_cases hs : j = st.nodes.size
      · subst hs
        simp only [↓reduceIte]
        omega
      · rw [if_neg hs, if_neg (Ne.symm hs)]
        omega

end Counted

/-! ## Reaching new nodes -/

theorem Extends.linked {st st' : Extraction} (h : Extends st st') {i j : Nat}
    (hl : Linked st.nodes i j) : Linked st'.nodes i j := by
  obtain ⟨n, hn, f, hf, hj⟩ := hl
  obtain ⟨n', hn', u, -, rfl⟩ := h.nodes i n hn
  exact ⟨_, hn', f, hf, hj⟩

theorem Extends.reaches {st st' : Extraction} (h : Extends st st') {i j : Nat}
    (hr : Relation.ReflTransGen (Linked st.nodes) i j) :
    Relation.ReflTransGen (Linked st'.nodes) i j :=
  Relation.ReflTransGen.mono (fun _ _ => h.linked) _ _ hr

/-- The nodes that are new in `st'` are reached from those in `starts`. -/
def ReachesNew (st st' : Extraction) (starts : List Nat) : Prop :=
  ∀ j, st.nodes.size ≤ j → j < st'.nodes.size →
    ∃ i ∈ starts, Relation.ReflTransGen (Linked st'.nodes) i j

namespace ReachesNew

variable {st st₁ st' : Extraction} {starts starts' : List Nat}

theorem of_size_eq (h : st'.nodes.size = st.nodes.size) (starts : List Nat) :
    ReachesNew st st' starts := fun j hj hj' => by omega

theorem append (h₁ : ReachesNew st st₁ starts) (he : Extends st₁ st')
    (h₂ : ReachesNew st₁ st' starts') : ReachesNew st st' (starts ++ starts') := by
  intro j hj hj'
  by_cases hlt : j < st₁.nodes.size
  · obtain ⟨i, hi, hr⟩ := h₁ j hj hlt
    exact ⟨i, List.mem_append_left _ hi, he.reaches hr⟩
  · obtain ⟨i, hi, hr⟩ := h₂ j (Nat.le_of_not_lt hlt) hj'
    exact ⟨i, List.mem_append_right _ hi, hr⟩

/-- What the fields reach is reached from the node that they become. -/
theorem finish {κ : Type} {s : Shape κ} {fields : List Field} (isUnion : Bool)
    (h : ReachesNew st st₁ (references fields))
    (hn : OrderedMap.find? st₁.finished s.id = none) :
    ReachesNew st (st₁.finish s fields isUnion).2
      (st₁.finish s fields isUnion).1.toList := by
  have he := Extends.finish hn fields isUnion
  revert he
  unfold Extraction.finish
  split
  · rename_i hnil
    rw [List.isEmpty_iff] at hnil
    subst hnil
    exact fun _ => h
  · intro he j hj hj'
    refine ⟨st₁.nodes.size, by simp, ?_⟩
    have hsize : j < st₁.nodes.size ∨ j = st₁.nodes.size := by
      simp only [log, Array.size_push] at hj'
      omega
    rcases hsize with hlt | rfl
    · obtain ⟨i, hi, hr⟩ := h j hj hlt
      obtain ⟨f, hf, hfi⟩ := List.mem_filterMap.1 hi
      have hl : Linked (st₁.nodes.push ⟨s.id, s.name, fields, isUnion, 1⟩) st₁.nodes.size i :=
        ⟨_, Array.getElem?_push_size, f, hf, hfi⟩
      exact .head hl (he.reaches hr)
    · exact .refl

end ReachesNew

/-! ## Successful visits -/

/-- What a successful part of an extraction adds: references that are pending now, and nodes that are
reached from them. -/
structure Adds (st st' : Extraction) (refs : List Nat) : Prop where
  reaches : ReachesNew st st' refs
  counted : ∀ pending, Counted st pending → Counted st' (refs ++ pending)

namespace Adds

variable {st st₁ st' : Extraction} {refs refs' : List Nat}

theorem refl (st : Extraction) : Adds st st [] := ⟨.of_size_eq rfl _, fun _ hc => hc⟩

theorem reuse (st : Extraction) (id : String) {k : Option Nat}
    (hk : ∀ i, k = some i → i < st.nodes.size) : Adds st (st.reuse id k) k.toList := by
  refine ⟨.of_size_eq ?_ _, fun _ hc => hc.reuse id hk⟩
  cases k <;> simp [Extraction.reuse, log]

theorem append (h₁ : Adds st st₁ refs) (he : Extends st₁ st') (h₂ : Adds st₁ st' refs') :
    Adds st st' (refs ++ refs') := by
  refine ⟨h₁.reaches.append he h₂.reaches, fun pending hc => ?_⟩
  have hc' := h₂.counted _ (h₁.counted _ hc)
  refine ⟨hc'.fields, fun j => ?_⟩
  rw [hc'.uses j]
  simp only [List.count_append]
  omega

/-- From the members of a shape to the shape. -/
theorem finish {κ : Type} {s : Shape κ} {fields : List Field} (isUnion : Bool)
    (h : Adds (st.opened s.id) st₁ (references fields))
    (hn : OrderedMap.find? (st₁.closedAs st).finished s.id = none) :
    Adds st ((st₁.closedAs st).finish s fields isUnion).2
      ((st₁.closedAs st).finish s fields isUnion).1.toList := by
  have hr : ReachesNew st (st₁.closedAs st) (references fields) := h.reaches
  refine ⟨hr.finish isUnion hn, fun pending hc => ?_⟩
  have hc₁ := h.counted pending ⟨hc.fields, hc.uses⟩
  exact Counted.finish isUnion ⟨hc₁.fields, hc₁.uses⟩

/-- Taking note of an event adds nothing. -/
theorem of_log {e : Event} (h : Adds (st.log e) st' refs) : Adds st st' refs :=
  ⟨h.reaches, fun _ hc => h.counted _ ⟨hc.fields, hc.uses⟩⟩

end Adds

theorem references_cons (f : Field) (fs : List Field) :
    references (f :: fs) = f.kind.nested?.toList ++ references fs := by
  simp only [references, List.filterMap_cons]
  cases f.kind.nested? <;> rfl

section
variable {κ : Type} [DecidableEq κ]

mutual

theorem Visits.adds {t : ShapeTable κ} {st st' : Extraction} {s : Shape κ}
    {r : Except Failure (Option Nat)} :
    Visits t st s r st' → Inv st → ∀ k, r = .ok k → Adds st st' k.toList
  | .cycle _, _, _, hr => by cases hr
  | .reused _ hf, h, _, hr => by
    cases hr
    refine .reuse st s.id fun i hi => ?_
    subst hi
    exact h.lt_size hf
  | .failed .., _, _, hr => by cases hr
  | @Visits.expanded _ _ _ _ _ _ fields isUnion _ hn hm, h, _, hr => by
    cases hr
    obtain ⟨hi, he, -⟩ := hm.spec (h.opened hn)
    exact (hm.adds (h.opened hn) fields isUnion rfl).finish isUnion (hi.find?_opened he)

theorem VisitsMembers.adds {t : ShapeTable κ} {st st' : Extraction} {id : String}
    {ms : List (Member κ)} {out : Except Failure (List Field × Bool)} :
    VisitsMembers t st id ms out st' → Inv st → ∀ fields isUnion, out = .ok (fields, isUnion) →
      Adds st st' (references fields)
  | .nil, _, _, _, hr => by
    cases hr
    exact .refl st
  | .headFails _, _, _, _, hr => by cases hr
  | .shapeFails .., _, _, _, hr => by cases hr
  | @VisitsMembers.leaf _ _ _ _ _ _ _ _ head out _ _ hm, h, _, _, hr => by
    have hrest := hm.adds (h.log _)
    cases out with
    | error e => cases hr
    | ok rest =>
      cases hr
      rw [references_cons, head.nested?_leafKind]
      exact (hrest rest.1 rest.2 rfl).of_log
  | @VisitsMembers.shape _ _ _ _ _ _ _ _ _ head _ k out _ _ hv hm, h, _, _, hr => by
    obtain ⟨hi₁, -, -⟩ := hv.spec h
    obtain ⟨-, he, -⟩ := hm.spec (hi₁.log _)
    have hrest := hm.adds (hi₁.log _)
    cases out with
    | error e => cases hr
    | ok rest =>
      cases hr
      rw [references_cons, head.nested?_shapeKind]
      refine (hv.adds h k rfl).append ((Extends.log _ _).trans he) ?_
      exact (hrest rest.1 rest.2 rfl).of_log

end

/-- A shape without members is finished without a node. -/
theorem Visits.root_of_members {t : ShapeTable κ} {s : Shape κ} {k : Option Nat} {st' : Extraction}
    (h : Visits t {} s (.ok k) st') :
    (s.members = [] ∧ k = none ∧ st'.nodes = #[]) ∨
      (s.members ≠ [] ∧ k = some (st'.nodes.size - 1) ∧ 0 < st'.nodes.size) := by
  generalize hr : Except.ok k = r at h
  cases h with
  | cycle => cases hr
  | reused _ hf => cases hf
  | failed => cases hr
  | @expanded _ st₁ _ fields isUnion _ _ hm =>
    cases hr
    cases hms : s.members with
    | nil =>
      rw [hms] at hm
      cases hm
      exact .inl ⟨rfl, rfl, rfl⟩
    | cons m ms =>
      rw [hms] at hm
      have hne : fields.isEmpty = false := by
        generalize ho : Except.ok (fields, isUnion) = out at hm
        cases hm with
        | headFails => cases ho
        | shapeFails => cases ho
        | @leaf _ _ _ _ _ _ out => cases out <;> cases ho; rfl
        | @shape _ _ _ _ _ _ _ _ _ out => cases out <;> cases ho; rfl
      refine .inr ⟨List.cons_ne_nil _ _, ?_, ?_⟩ <;>
        simp [Extraction.finish, hne, log]

end

end Extraction

/-! ## Extracted graphs -/

namespace Graph

theorem referenceCount_eq (g : Graph) (k : Nat) :
    g.referenceCount k = (Extraction.stored g.nodes).count k := by
  rw [referenceCount, allFields, ← List.count_filterMap, List.filterMap_flatMap]
  rfl

theorem mem_allFields {g : Graph} {f : Field} (h : f ∈ g.allFields) :
    ∃ k : Fin g.size, f ∈ (g.node k).fields := by
  obtain ⟨n, hn, hf⟩ := List.mem_flatMap.1 h
  obtain ⟨k, hk, rfl⟩ := List.mem_iff_getElem.1 hn
  exact ⟨⟨k, hk⟩, hf⟩

/-- Distinct ids make look-ups by id exact. -/
theorem Arranged.find?_id {g : Graph} (hg : g.Arranged) (k : Fin g.size) :
    g.find? (g.node k).id = some k.val := by
  rw [Graph.find?, Array.findIdx?_eq_some_iff_getElem]
  refine ⟨k.isLt, beq_self_eq_true _, fun j hj heq => ?_⟩
  have hjk := hg.inj ⟨j, Nat.lt_trans hj k.isLt⟩ k (beq_iff_eq.1 heq)
  have : j = k.val := congrArg Fin.val hjk
  omega

theorem Arranged.distinct {g : Graph} (hg : g.Arranged) : (g.nodes.toList.map (·.id)).Nodup := by
  rw [List.nodup_iff_injective_get]
  intro i j hij
  simp only [List.get_eq_getElem, List.getElem_map] at hij
  have hi : i.val < g.size := by simpa using i.isLt
  have hj : j.val < g.size := by simpa using j.isLt
  have := hg.inj ⟨i.val, hi⟩ ⟨j.val, hj⟩ hij
  exact Fin.ext (Fin.mk.inj this)

end Graph

/-- The invariant of extracted graphs. Shapes with one id need not agree. -/
theorem extract_wellFormed {κ : Type} [DecidableEq κ] {t : ShapeTable κ} {root : κ} {g : Graph}
    (h : Graph.extract t root = .ok g) :
    g.WellFormed ∧
      (((∀ s, t.find? root = some s → s.members = []) ∧ g.nodes = #[] ∧ g.root = none) ∨
        ((∃ s, t.find? root = some s ∧ s.members ≠ []) ∧ ∃ r, g.RootedAt r)) := by
  have hg := Graph.arranged_extract h
  cases hf : t.find? root with
  | none =>
    cases (Extraction.extract_missing hf).symm.trans h
    refine ⟨⟨List.nodup_nil, fun k => k.elim0, fun k => k.elim0, fun k => k.elim0,
      fun k => k.elim0⟩, .inl ⟨fun s hs => ?_, rfl, rfl⟩⟩
    cases hs
  | some s =>
    obtain ⟨st, hv, hn⟩ := Extraction.visits_of_extract hf h
    obtain ⟨nodes, r⟩ := g
    subst hn
    have hadds := hv.adds .initial r rfl
    have hc := hadds.counted [] .initial
    rw [List.append_nil] at hc
    have huses : ∀ k : Fin st.nodes.size, (Graph.node ⟨st.nodes, r⟩ k).uses =
        Graph.referenceCount ⟨st.nodes, r⟩ k.val + r.toList.count k.val := by
      intro k
      rw [Graph.referenceCount_eq, ← hc.uses k.val, Extraction.usesAt,
        Array.getElem?_eq_getElem k.isLt]
      rfl
    refine ⟨⟨hg.distinct, hg.find?_id, fun k => hc.fields k.val _ (Graph.node_eq k),
      fun k f hf i => hg.below k f i hf, fun k hk => ?_⟩, ?_⟩
    · have hnone : r.toList.count k.val = 0 := by
        rw [List.count_eq_zero, Option.mem_toList]
        exact hk
      rw [huses k, hnone, Nat.add_zero]
    · rcases hv.root_of_members with ⟨hm, hk, hnodes⟩ | ⟨hm, hk, hpos⟩
      · exact .inl ⟨fun s' hs' => by cases hs'; exact hm, hnodes, hk⟩
      · dsimp only at hk
        subst hk
        obtain ⟨_, hu⟩ := hg.root _ rfl
        refine .inr ⟨⟨s, rfl, hm⟩, ⟨st.nodes.size - 1, by dsimp only [Graph.size]; omega⟩, rfl,
          Nat.sub_add_cancel hpos, fun k => ?_, hu, fun f hf hr => ?_⟩
        · obtain ⟨i, hi, hr⟩ := hadds.reaches k.val (Nat.zero_le _) k.isLt
          obtain rfl := List.mem_singleton.1 hi
          exact hr
        · -- the number of the root is above that of every node
          obtain ⟨k, hk⟩ := Graph.mem_allFields hf
          have hlt := hg.below k f _ hk hr
          have hk : k.val < st.nodes.size := k.isLt
          dsimp only at hlt
          omega

/-- Two keys lead to one id with different members: the first one met counts. -/
def twinTable : ShapeTable String :=
  ⟨[("a", ⟨"X", some "A", [{ ident := "id" }]⟩), ("b", ⟨"X", none, [{ ident := "other" }]⟩),
    ("void", ⟨"V", none, []⟩),
    ("top", ⟨"T", none, [{ ident := "first", type := .shape "a" },
      { ident := "second", type := .list (.shape "b") }, { ident := "void", type := .shape "void" }]⟩)]⟩

def twinGraph : Graph where
  nodes := #[⟨"X", some "A", [⟨"id", .scalar, []⟩], false, 2⟩,
    ⟨"T", none, [⟨"first", .object (some 0), []⟩, ⟨"second", .object (some 0), []⟩,
      ⟨"void", .object none, []⟩], false, 1⟩]
  root := some 1

set_option maxRecDepth 100000 in
theorem extract_twin : Graph.extract twinTable "top" = .ok twinGraph := by cbv

theorem extract_wellFormed_twin : Graph.extract twinTable "top" = .ok twinGraph ∧
    twinGraph.WellFormed ∧
      (((∀ s, twinTable.find? "top" = some s → s.members = []) ∧ twinGraph.nodes = #[] ∧
          twinGraph.root = none) ∨
        ((∃ s, twinTable.find? "top" = some s ∧ s.members ≠ []) ∧ ∃ r, twinGraph.RootedAt r)) :=
  ⟨extract_twin, extract_wellFormed extract_twin⟩

end QueryShape
