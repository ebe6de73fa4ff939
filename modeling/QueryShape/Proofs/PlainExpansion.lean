import Mathlib
import QueryShape.Proofs.OrderedMap
import QueryShape.Proofs.Unfolding

/-!
# Extraction and plain expansion

`ShapeTable.expand` writes a shape out as a tree and remembers nothing on the way: each use of a
shape is expanded again, up to a depth. An extraction shares what it finished before, and agrees with
it (`extract_iff_expansion`):

* `Visits.expansions`: the tree of every finished node is the expansion of its shape, which goes
  along with the invariant of extractions;
* `Visits.ok_of_expand`: a shape that can be expanded is visited without an error. The ids being
  expanded belong to shapes of greater depth, so none of them is met again.
-/

set_option autoImplicit false

namespace QueryShape

namespace FieldHead

def leafTree (h : FieldHead) : KindTree := if h.inline then .inline none else .scalar

def shapeTree (h : FieldHead) (nested : Option ShapeTree) : KindTree :=
  if h.inline then .inline nested else .object nested

theorem unfold_leafKind (h : FieldHead) (tree : Nat → Option ShapeTree) :
    h.leafKind.unfold tree = h.leafTree := by
  unfold leafKind leafTree; split <;> rfl

theorem unfold_shapeKind (h : FieldHead) (tree : Nat → Option ShapeTree) (k : Option Nat) :
    (h.shapeKind k).unfold tree = h.shapeTree (k.bind tree) := by
  unfold shapeKind shapeTree; split <;> rfl

end FieldHead

namespace ShapeTable

variable {κ : Type} [DecidableEq κ]

/-- Shapes with one id have one name and the same members. -/
def Coherent (t : ShapeTable κ) : Prop :=
  ∀ key key' s s', t.find? key = some s → t.find? key' = some s' → s.id = s'.id →
    s.name = s'.name ∧ s.members = s'.members

/-- Some key leads to the shape. -/
def Has (t : ShapeTable κ) (s : Shape κ) : Prop := ∃ key, t.find? key = some s

/-- The kind of a field of this type, where `expand` gives the trees of shapes. -/
def expandKind (t : ShapeTable κ) (expand : Shape κ → Option (Option ShapeTree)) (h : FieldHead)
    (type : TypeRef κ) : Option KindTree :=
  match t.shapeOf? type with
  | none => some h.leafTree
  | some s => (expand s).map h.shapeTree

/-- The fields of the members and whether one of them makes a union. Nothing if an annotation cannot
be resolved or a shape cannot be expanded. -/
def expandMembers (t : ShapeTable κ) (expand : Shape κ → Option (Option ShapeTree)) (id : String) :
    List (Member κ) → Option (List FieldTree × Bool)
  | [] => some ([], false)
  | m :: ms =>
    match m.head id with
    | .error _ => none
    | .ok h =>
      (t.expandKind expand h m.type).bind fun kind => (expandMembers t expand id ms).map fun rest =>
        (.mk h.name kind h.arguments :: rest.1, h.discriminator || rest.2)

/-- The tree of a shape, without sharing and at most `depth` shapes deep; a shape without members
has none. Nothing if the expansion goes deeper or meets an error. -/
def expand (t : ShapeTable κ) : (depth : Nat) → Shape κ → Option (Option ShapeTree)
  | 0, _ => none
  | depth + 1, s =>
    (t.expandMembers (t.expand depth) s.id s.members).map fun fields =>
      if s.members.isEmpty then none else some (.mk s.id s.name fields.2 fields.1)

/-- The tree of the shape that a key leads to. -/
def expansion (t : ShapeTable κ) (depth : Nat) (root : κ) : Option (Option ShapeTree) :=
  match t.find? root with
  | none => some none
  | some s => t.expand depth s

theorem Coherent.eq {t : ShapeTable κ} (ht : t.Coherent) {s s' : Shape κ} (hs : t.Has s)
    (hs' : t.Has s') (hid : s.id = s'.id) : s = s' := by
  obtain ⟨key, hk⟩ := hs
  obtain ⟨key', hk'⟩ := hs'
  obtain ⟨hn, hm⟩ := ht key key' s s' hk hk' hid
  cases s
  cases s'
  simp_all

/-- Coherence can be decided on the entries. -/
theorem coherent_of_entries {t : ShapeTable κ} (h : ∀ e ∈ t.entries, ∀ e' ∈ t.entries,
    e.2.id = e'.2.id → e.2.name = e'.2.name ∧ e.2.members = e'.2.members) : t.Coherent :=
  fun _ _ _ _ hk hk' => h _ (OrderedMap.mem_of_find? hk) _ (OrderedMap.mem_of_find? hk')

theorem has_of_shapeOf? {t : ShapeTable κ} {type : TypeRef κ} {s : Shape κ}
    (h : t.shapeOf? type = some s) : t.Has s := by
  obtain ⟨key, -, hk⟩ := Option.bind_eq_some_iff.1 h
  exact ⟨key, hk⟩

/-! ## Depth -/

theorem expandKind_mono {t : ShapeTable κ} {e e' : Shape κ → Option (Option ShapeTree)}
    (he : ∀ s r, e s = some r → e' s = some r) {h : FieldHead} {type : TypeRef κ} {kind : KindTree}
    (hk : t.expandKind e h type = some kind) : t.expandKind e' h type = some kind := by
  unfold expandKind at hk ⊢
  split at hk
  · exact hk
  · obtain ⟨r, hr, rfl⟩ := Option.map_eq_some_iff.1 hk
    rw [he _ r hr, Option.map_some]

theorem expandMembers_mono {t : ShapeTable κ} {e e' : Shape κ → Option (Option ShapeTree)}
    (he : ∀ s r, e s = some r → e' s = some r) {id : String} {ms : List (Member κ)}
    {out : List FieldTree × Bool} (h : t.expandMembers e id ms = some out) :
    t.expandMembers e' id ms = some out := by
  induction ms generalizing out with
  | nil => exact h
  | cons m ms ih =>
    simp only [expandMembers] at h ⊢
    split at h
    · cases h
    · obtain ⟨kind, hk, h⟩ := Option.bind_eq_some_iff.1 h
      obtain ⟨rest, hr, rfl⟩ := Option.map_eq_some_iff.1 h
      rw [expandKind_mono he hk, ih hr]
      rfl

theorem expand_succ {t : ShapeTable κ} {d : Nat} {s : Shape κ} {r : Option ShapeTree}
    (h : t.expand d s = some r) : t.expand (d + 1) s = some r := by
  induction d generalizing s r with
  | zero => cases h
  | succ d ih =>
    rw [expand] at h ⊢
    obtain ⟨fields, hf, rfl⟩ := Option.map_eq_some_iff.1 h
    rw [expandMembers_mono (fun s r => ih) hf, Option.map_some]

theorem expand_mono {t : ShapeTable κ} {d d' : Nat} (hd : d ≤ d') {s : Shape κ}
    {r : Option ShapeTree} (h : t.expand d s = some r) : t.expand d' s = some r := by
  induction hd with
  | refl => exact h
  | step _ ih => exact expand_succ ih

theorem expand_unique {t : ShapeTable κ} {d d' : Nat} {s : Shape κ} {r r' : Option ShapeTree}
    (h : t.expand d s = some r) (h' : t.expand d' s = some r') : r = r' := by
  have h₁ := expand_mono (Nat.le_max_left d d') h
  rw [expand_mono (Nat.le_max_right d d') h'] at h₁
  exact (Option.some.inj h₁).symm

theorem length_expandMembers {t : ShapeTable κ} {e : Shape κ → Option (Option ShapeTree)}
    {id : String} {ms : List (Member κ)} {out : List FieldTree × Bool}
    (h : t.expandMembers e id ms = some out) : out.1.length = ms.length := by
  induction ms generalizing out with
  | nil => cases h; rfl
  | cons m ms ih =>
    simp only [expandMembers] at h
    split at h
    · cases h
    · obtain ⟨kind, -, h⟩ := Option.bind_eq_some_iff.1 h
      obtain ⟨rest, hr, rfl⟩ := Option.map_eq_some_iff.1 h
      simp only [List.length_cons, ih hr]

end ShapeTable

namespace Extraction

variable {κ : Type} [DecidableEq κ] {t : ShapeTable κ}

/-! ## Finished nodes have the trees of their shapes -/

/-- What is finished unfolds to the expansions of the shapes with its id. -/
def Expansions (t : ShapeTable κ) (st : Extraction) : Prop :=
  ∀ id k, OrderedMap.find? st.finished id = some k → ∀ s, t.Has s → s.id = id →
    ∃ d, t.expand d s = some (k.bind (unfoldAt st.nodes))

/-- The tree of an entry stays as it is. -/
theorem Extends.bind_unfoldAt {st st' : Extraction} (he : Extends st st') (hi : Inv st)
    {id : String} {k : Option Nat} (hk : OrderedMap.find? st.finished id = some k) :
    k.bind (unfoldAt st'.nodes) = k.bind (unfoldAt st.nodes) := by
  cases k with
  | none => rfl
  | some k => exact unfoldAt_extends he (hi.lt_size hk)

theorem Expansions.reuse {st : Extraction} (h : Expansions t st) (hi : Inv st) (id : String)
    (k : Option Nat) : Expansions t (st.reuse id k) := by
  intro id' k' hk s hs hid
  have hf : (st.reuse id k).finished = st.finished := by cases k <;> rfl
  rw [hf] at hk
  rw [(Extends.reuse st id k).bind_unfoldAt hi hk]
  exact h id' k' hk s hs hid

omit [DecidableEq κ] in
/-- A new node unfolds to its shape's name and the trees of its fields. -/
theorem bind_unfoldAt_finish {st : Extraction} {s : Shape κ} {fields : List Field} {isUnion : Bool}
    (hn : OrderedMap.find? st.finished s.id = none)
    (hf : ∀ f ∈ fields, ∀ i, f.kind.nested? = some i → i < st.nodes.size) :
    (st.finish s fields isUnion).1.bind (unfoldAt (st.finish s fields isUnion).2.nodes) =
      if fields.isEmpty then none
      else some (.mk s.id s.name isUnion (fields.map (·.unfold (unfoldAt st.nodes)))) := by
  have he := Extends.finish hn fields isUnion
  revert he
  unfold finish
  split
  · intro _; rfl
  · intro he
    have hnode := @unfoldAt_eq_some (st.nodes.push ⟨s.id, s.name, fields, isUnion, 1⟩) _ _
      Array.getElem?_push_size hf
    have htree : Node.unfold (unfoldAt (st.nodes.push ⟨s.id, s.name, fields, isUnion, 1⟩))
        ⟨s.id, s.name, fields, isUnion, 1⟩ =
        Node.unfold (unfoldAt st.nodes) ⟨s.id, s.name, fields, isUnion, 1⟩ :=
      Node.unfold_congr fun f hm i hi => unfoldAt_extends he (hf f hm i hi)
    exact hnode.trans (congrArg some htree)

theorem Expansions.finish {st : Extraction} (h : Expansions t st) (hi : Inv st) {s : Shape κ}
    (ht : t.Coherent) (hs : t.Has s) (hn : OrderedMap.find? st.finished s.id = none)
    {fields : List Field} {isUnion : Bool}
    (hf : ∀ f ∈ fields, ∀ i, f.kind.nested? = some i → i < st.nodes.size) {d : Nat}
    (hx : t.expandMembers (t.expand d) s.id s.members =
      some (fields.map (·.unfold (unfoldAt st.nodes)), isUnion)) :
    Expansions t (st.finish s fields isUnion).2 := by
  intro id k hk s' hs' hid
  by_cases hsid : s.id = id
  · -- the new entry
    obtain rfl := ht.eq hs hs' (hsid.trans hid.symm)
    rw [← hsid, Inv.find?_finish] at hk
    rw [← Option.some.inj hk, bind_unfoldAt_finish hn hf]
    refine ⟨d + 1, ?_⟩
    have hlen := ShapeTable.length_expandMembers hx
    have hempty : s.members.isEmpty = fields.isEmpty := by
      rw [Bool.eq_iff_iff, List.isEmpty_iff_length_eq_zero, List.isEmpty_iff_length_eq_zero, ← hlen,
        List.length_map]
    rw [ShapeTable.expand, hx, Option.map_some, hempty]
  · have hold : OrderedMap.find? st.finished id = some k := by
      revert hk
      unfold Extraction.finish
      split <;> simp only [log, OrderedMap.find?, hsid, ↓reduceIte, imp_self]
    rw [(Extends.finish hn fields isUnion).bind_unfoldAt hi hold]
    exact h id k hold s' hs' hid

mutual

theorem Visits.expansions (ht : t.Coherent) {st st' : Extraction} {s : Shape κ}
    {r : Except Failure (Option Nat)} :
    Visits t st s r st' → t.Has s → Inv st → Expansions t st → Expansions t st'
  | .cycle _, _, _, hx => hx
  | @Visits.reused _ _ _ _ _ k _ _, _, hi, hx => hx.reuse hi s.id k
  | .failed _ hn hm, _, hi, hx => (hm.expansions ht (hi.opened hn) hx).1
  | @Visits.expanded _ _ _ _ st₁ _ fields isUnion ha hn hm, hs, hi, hx => by
    obtain ⟨hi₁, he₁, hb⟩ := hm.spec (hi.opened hn)
    obtain ⟨hx₁, hd⟩ := hm.expansions ht (hi.opened hn) hx
    obtain ⟨d, hd⟩ := hd fields isUnion rfl
    have hx₂ : Expansions t (st₁.closedAs st) := hx₁
    exact hx₂.finish (hi₁.closedAs he₁) ht hs (hi₁.find?_opened he₁) (hb fields isUnion rfl) hd

theorem VisitsMembers.expansions (ht : t.Coherent) {st st' : Extraction} {id : String}
    {ms : List (Member κ)} {out : Except Failure (List Field × Bool)} :
    VisitsMembers t st id ms out st' → Inv st → Expansions t st → Expansions t st' ∧
      ∀ fields isUnion, out = .ok (fields, isUnion) → ∃ d, t.expandMembers (t.expand d) id ms =
        some (fields.map (·.unfold (unfoldAt st'.nodes)), isUnion)
  | .nil, _, hx => ⟨hx, fun _ _ he => by cases he; exact ⟨0, rfl⟩⟩
  | .headFails _, _, hx => ⟨hx, fun _ _ he => by cases he⟩
  | .shapeFails _ hs hv, hi, hx =>
    ⟨hv.expansions ht (ShapeTable.has_of_shapeOf? hs) hi hx, fun _ _ he => by cases he⟩
  | @VisitsMembers.leaf _ _ _ _ _ _ _ _ head out hh hs hm, hi, hx => by
    obtain ⟨hx', hd⟩ := hm.expansions ht (hi.log _) hx
    refine ⟨hx', fun fields isUnion ho => ?_⟩
    cases out with
    | error e => cases ho
    | ok rest =>
      cases ho
      obtain ⟨d, hd⟩ := hd rest.1 rest.2 rfl
      refine ⟨d, ?_⟩
      simp only [ShapeTable.expandMembers, hh, ShapeTable.expandKind, hs, hd, Option.bind_some,
        Option.map_some, List.map_cons, Field.unfold, FieldHead.unfold_leafKind]
  | @VisitsMembers.shape _ _ _ _ st₁ _ _ _ _ head s k out hh hs hv hm, hi, hx => by
    have hx₁ := hv.expansions ht (ShapeTable.has_of_shapeOf? hs) hi hx
    obtain ⟨hi₁, -, hk⟩ := hv.spec hi
    obtain ⟨-, he, -⟩ := hm.spec (hi₁.log _)
    obtain ⟨hx', hd⟩ := hm.expansions ht (hi₁.log _) hx₁
    refine ⟨hx', fun fields isUnion ho => ?_⟩
    cases out with
    | error e => cases ho
    | ok rest =>
      cases ho
      obtain ⟨d₁, hd₁⟩ := hx₁ s.id k (hk k rfl) s (ShapeTable.has_of_shapeOf? hs) rfl
      obtain ⟨d₂, hd₂⟩ := hd rest.1 rest.2 rfl
      -- the shape's tree as it is at the end
      have htree : k.bind (unfoldAt st'.nodes) = k.bind (unfoldAt st₁.nodes) :=
        he.bind_unfoldAt (hi₁.log _) (hk k rfl)
      have hs₁ := ShapeTable.expand_mono (Nat.le_max_left d₁ d₂) hd₁
      have hrest := ShapeTable.expandMembers_mono
        (fun s r => ShapeTable.expand_mono (Nat.le_max_right d₁ d₂)) hd₂
      refine ⟨max d₁ d₂, ?_⟩
      simp only [ShapeTable.expandMembers, hh, ShapeTable.expandKind, hs, hs₁, hrest, ← htree,
        Option.bind_some, Option.map_some, List.map_cons, Field.unfold, FieldHead.unfold_shapeKind]

end

theorem Visits.expand_of_initial (ht : t.Coherent) {s : Shape κ} {k : Option Nat} {st : Extraction}
    (h : Visits t {} s (.ok k) st) (hs : t.Has s) :
    ∃ d, t.expand d s = some (k.bind (unfoldAt st.nodes)) := by
  obtain ⟨-, -, hk⟩ := h.spec .initial
  have hx := h.expansions ht hs .initial fun _ _ hf => by cases hf
  exact hx s.id k (hk k rfl) s hs rfl

/-! ## Shapes that can be expanded are extracted -/

/-- The shapes being expanded go deeper than `d`. -/
def Deeper (t : ShapeTable κ) (d : Nat) (st : Extraction) : Prop :=
  ∀ id ∈ st.active, ∀ s, t.Has s → s.id = id → t.expand d s = none

theorem Deeper.of_succ {d : Nat} {st : Extraction} (h : Deeper t (d + 1) st) : Deeper t d st := by
  intro id hm s hs hid
  cases hx : t.expand d s with
  | none => rfl
  | some r =>
    have := h id hm s hs hid
    rw [ShapeTable.expand_succ hx] at this
    cases this

/-- Opening a shape that is deeper than `d` too. -/
theorem Deeper.opened {d : Nat} {st : Extraction} {s : Shape κ} (h : Deeper t d st)
    (ht : t.Coherent) (hs : t.Has s) (hx : t.expand d s = none) : Deeper t d (st.opened s.id) := by
  intro id hm s' hs' hid
  rcases List.mem_append.1 hm with hm | hm
  · exact h id hm s' hs' hid
  · rw [List.mem_singleton.1 hm] at hid
    rw [ht.eq hs' hs hid]
    exact hx

theorem VisitsMembers.ok_of_expandMembers {d : Nat}
    (hvisit : ∀ {st st' : Extraction} {s : Shape κ} {r : Except Failure (Option Nat)},
      Visits t st s r st' → t.Has s → Inv st → Deeper t d st → t.expand d s ≠ none → ∃ k, r = .ok k)
    {st st' : Extraction} {id : String} {ms : List (Member κ)}
    {out : Except Failure (List Field × Bool)} (h : VisitsMembers t st id ms out st') (hi : Inv st)
    (hd : Deeper t d st) (hx : t.expandMembers (t.expand d) id ms ≠ none) : ∃ o, out = .ok o := by
  induction ms generalizing st out with
  | nil =>
    cases h
    exact ⟨_, rfl⟩
  | cons m ms ih =>
    simp only [ShapeTable.expandMembers] at hx
    split at hx
    · exact absurd rfl hx
    · rename_i head hh
      obtain ⟨x, hx⟩ := Option.ne_none_iff_exists'.1 hx
      obtain ⟨kind, hk, hx⟩ := Option.bind_eq_some_iff.1 hx
      obtain ⟨rest, hr, -⟩ := Option.map_eq_some_iff.1 hx
      have hrest : t.expandMembers (t.expand d) id ms ≠ none := by rw [hr]; simp
      have hshape : ∀ s, t.shapeOf? m.type = some s → t.expand d s ≠ none := by
        intro s hs he
        simp only [ShapeTable.expandKind, hs, he] at hk
        cases hk
      cases h with
      | headFails he => rw [hh] at he; cases he
      | shapeFails _ hs hv =>
        obtain ⟨k, hk⟩ := hvisit hv (ShapeTable.has_of_shapeOf? hs) hi hd (hshape _ hs)
        cases hk
      | leaf _ _ hm =>
        obtain ⟨o, rfl⟩ := ih hm (hi.log _) hd hrest
        exact ⟨_, rfl⟩
      | shape _ hs hv hm =>
        obtain ⟨hi₁, he₁, -⟩ := hv.spec hi
        have hd₁ : Deeper t d _ := fun id hm => hd id (by rw [← he₁.active]; exact hm)
        obtain ⟨o, rfl⟩ := ih hm (hi₁.log _) hd₁ hrest
        exact ⟨_, rfl⟩

/-- A visit of a shape that can be expanded succeeds, if the shapes around it go deeper. -/
theorem Visits.ok_of_expand (ht : t.Coherent) {d : Nat} {st st' : Extraction} {s : Shape κ}
    {r : Except Failure (Option Nat)} (h : Visits t st s r st') (hs : t.Has s) (hi : Inv st)
    (hd : Deeper t d st) (hx : t.expand d s ≠ none) : ∃ k, r = .ok k := by
  induction d generalizing st st' s r with
  | zero => exact absurd rfl hx
  | succ d ih =>
    cases hxd : t.expand d s with
    | some r' => exact ih h hs hi hd.of_succ (by rw [hxd]; simp)
    | none =>
      -- the shape has depth `d + 1`, so its members have at most depth `d`
      cases h with
      | cycle hm => exact absurd (hd s.id hm s hs rfl) hx
      | reused => exact ⟨_, rfl⟩
      | failed _ hn hm =>
        have hmx : t.expandMembers (t.expand d) s.id s.members ≠ none := by
          intro he
          rw [ShapeTable.expand, he] at hx
          exact hx rfl
        obtain ⟨o, ho⟩ := hm.ok_of_expandMembers ih (hi.opened hn) (hd.of_succ.opened ht hs hxd) hmx
        cases ho
      | expanded => exact ⟨_, rfl⟩

end Extraction

/-- Extraction with sharing agrees with expansion without: it succeeds just where the expansion is
finite and free of errors, with a graph that unfolds to the expansion. -/
theorem extract_iff_expansion {κ : Type} [DecidableEq κ] {t : ShapeTable κ} (ht : t.Coherent)
    (root : κ) (tree : Option ShapeTree) :
    (∃ g, Graph.extract t root = .ok g ∧ g.unfolding = tree) ↔
      ∃ depth, t.expansion depth root = some tree := by
  unfold ShapeTable.expansion
  cases hf : t.find? root with
  | none =>
    rw [Extraction.extract_missing hf]
    constructor
    · rintro ⟨g, hg, rfl⟩
      cases hg
      exact ⟨0, rfl⟩
    · rintro ⟨_, h⟩
      cases h
      exact ⟨{}, rfl, rfl⟩
  | some s =>
    dsimp only
    constructor
    · rintro ⟨g, hg, rfl⟩
      obtain ⟨st, hv, hn⟩ := Extraction.visits_of_extract hf hg
      rw [Graph.unfolding, hn]
      exact hv.expand_of_initial ht ⟨root, hf⟩
    · rintro ⟨d, hd⟩
      obtain ⟨r, st, hv, he⟩ := Extraction.extract_eq hf
      have hdeep : Extraction.Deeper t d {} := fun _ hm => by cases hm
      obtain ⟨k, rfl⟩ := hv.ok_of_expand ht ⟨root, hf⟩ .initial hdeep (by rw [hd]; simp)
      obtain ⟨d', hd'⟩ := hv.expand_of_initial ht ⟨root, hf⟩
      exact ⟨_, he, ShapeTable.expand_unique hd' hd⟩

/-- An item: the first name is a flag, the second a call with an alias. -/
def itemShape : Shape String where
  id := "main.Item"
  name := some "Item"
  members := [{ ident := "id", tag := some "key" },
    { ident := "label", tag := some "title(in: $lang:Lang),alias=label", type := .shape "label" }]

/-- Items on a shelf: two keys lead to one shape, and the labels have no members. An item stands in
place of a field, and it is a branch of a union. -/
def shelfTable : ShapeTable String :=
  ⟨[("item", itemShape), ("item2", itemShape), ("label", ⟨"main.Label", some "Label", []⟩),
    ("media", ⟨"main.Media", some "Media",
      [{ ident := "kind", tag := some "union" }, { ident := "Item", type := .shape "item" }]⟩),
    ("shelf", ⟨"main.Shelf", none, [{ ident := "first", tag := some "inline", type := .shape "item" },
      { ident := "items", fallbackName := some "all", type := .list (.optional (.shape "item2")) },
      { ident := "media", type := .shape "media" }]⟩)]⟩

def itemTree : ShapeTree :=
  .mk "main.Item" (some "Item") false [.mk "key" .scalar [], .mk "label:title" (.object none)
    [("in", .variable (some "lang") (some "Lang") none)]]

def shelfTree : ShapeTree := .mk "main.Shelf" none false
  [.mk "first" (.inline (some itemTree)) [], .mk "all" (.object (some itemTree)) [],
    .mk "media" (.object (some (.mk "main.Media" (some "Media") true
      [.mk "__typename" .scalar [], .mk "Item" (.object (some itemTree)) []]))) []]

set_option maxRecDepth 100000 in
theorem expansion_shelf : shelfTable.expansion 4 "shelf" = some (some shelfTree) := by cbv

theorem extract_shelf : shelfTable.Coherent ∧ ∃ g, Graph.extract shelfTable "shelf" = .ok g ∧
    g.unfolding = some shelfTree := by
  have hc : shelfTable.Coherent := ShapeTable.coherent_of_entries (by decide)
  exact ⟨hc, (extract_iff_expansion hc "shelf" _).2 ⟨4, expansion_shelf⟩⟩

end QueryShape
