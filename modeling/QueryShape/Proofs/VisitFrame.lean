import Mathlib
import QueryShape.Proofs.VisitInv

/-!
# What a visit leaves as it was

`Passes t st s x`: the extraction is in state `x` at some moment of a visit of shape `s` that starts in
`st`, and `Reached t root x`: at some moment of the extraction from a root. In all these states the ids
being expanded are not finished, and finished ids and nodes correspond to each other (`Inv`). Nothing
that is finished is taken back on the way (`Advances`), and at the end of a visit, whether it succeeds
or fails, the ids being expanded are those from before (`visit_frame`).
-/

set_option autoImplicit false

namespace QueryShape

namespace Extraction

section
variable {κ : Type} [DecidableEq κ]

/-! ## The states of an extraction -/

mutual

inductive Passes (t : ShapeTable κ) : Extraction → Shape κ → Extraction → Prop
  | start {st : Extraction} {s : Shape κ} : Passes t st s st
  | inside {st x : Extraction} {s : Shape κ} : s.id ∉ st.active →
      OrderedMap.find? st.finished s.id = none →
      PassesMembers t (st.opened s.id) s.id s.members x → Passes t st s x
  /-- The id has been taken back, and the shape is not put down yet. -/
  | released {st st' : Extraction} {s : Shape κ} {out : Except Failure (List Field × Bool)} :
      s.id ∉ st.active → OrderedMap.find? st.finished s.id = none →
      VisitsMembers t (st.opened s.id) s.id s.members out st' → Passes t st s st'.release
  | done {st x : Extraction} {s : Shape κ} {r : Except Failure (Option Nat)} :
      Visits t st s r x → Passes t st s x

inductive PassesMembers (t : ShapeTable κ) :
    Extraction → String → List (Member κ) → Extraction → Prop
  | start {st : Extraction} {id : String} {ms : List (Member κ)} : PassesMembers t st id ms st
  | inside {st x : Extraction} {id : String} {m : Member κ} {ms : List (Member κ)} {h : FieldHead}
      {s : Shape κ} : m.head id = .ok h → t.shapeOf? m.type = some s → Passes t st s x →
      PassesMembers t st id (m :: ms) x
  | afterLeaf {st x : Extraction} {id : String} {m : Member κ} {ms : List (Member κ)}
      {h : FieldHead} : m.head id = .ok h → t.shapeOf? m.type = none →
      PassesMembers t (st.log (.resolvedField id h.name h.leafKind)) id ms x →
      PassesMembers t st id (m :: ms) x
  | afterShape {st st₁ x : Extraction} {id : String} {m : Member κ} {ms : List (Member κ)}
      {h : FieldHead} {s : Shape κ} {k : Option Nat} : m.head id = .ok h →
      t.shapeOf? m.type = some s → Visits t st s (.ok k) st₁ →
      PassesMembers t (st₁.log (.resolvedField id h.name (h.shapeKind k))) id ms x →
      PassesMembers t st id (m :: ms) x

end

/-- The states that the extraction from a root goes through. -/
def Reached (t : ShapeTable κ) (root : κ) (x : Extraction) : Prop :=
  ∃ s, t.find? root = some s ∧ Passes t {} s x

end

/-! ## What holds in all of them -/

/-- Ids may be opened; nodes and entries of finished ids stay, nodes but for how often they are used. -/
structure Advances (st x : Extraction) : Prop where
  active : st.active <+: x.active
  nodes : ∀ (k : Nat) (n : Node), st.nodes[k]? = some n → ∃ n', x.nodes[k]? = some n' ∧ n.Grows n'
  finished : ∀ id r, OrderedMap.find? st.finished id = some r →
    OrderedMap.find? x.finished id = some r

theorem Extends.advances {st x : Extraction} (h : Extends st x) : Advances st x :=
  ⟨by rw [h.active], h.nodes, h.finished⟩

namespace Advances

theorem trans {st₁ st₂ st₃ : Extraction} (h₁ : Advances st₁ st₂) (h₂ : Advances st₂ st₃) :
    Advances st₁ st₃ := by
  refine ⟨h₁.active.trans h₂.active, fun k n hn => ?_, fun id r hr => ?_⟩
  · obtain ⟨n₂, hn₂, hg₂⟩ := h₁.nodes k n hn
    obtain ⟨n₃, hn₃, hg₃⟩ := h₂.nodes k n₂ hn₂
    exact ⟨n₃, hn₃, hg₂.trans hg₃⟩
  · exact h₂.finished id r (h₁.finished id r hr)

theorem opened (st : Extraction) (id : String) : Advances st (st.opened id) :=
  ⟨List.prefix_append _ _, fun _ n h => ⟨n, h, .refl n⟩, fun _ _ h => h⟩

end Advances

section
variable {κ : Type} [DecidableEq κ] {t : ShapeTable κ}

mutual

theorem Passes.spec {st x : Extraction} {s : Shape κ} :
    Passes t st s x → Inv st → Inv x ∧ Advances st x
  | .start, h => ⟨h, (Extends.refl st).advances⟩
  | .inside _ hn hm, h => by
    obtain ⟨hi, ha⟩ := hm.spec (h.opened hn)
    exact ⟨hi, (Advances.opened st s.id).trans ha⟩
  | .released _ hn hm, h => by
    obtain ⟨hi, he, -⟩ := hm.spec (h.opened hn)
    rw [release_eq_closedAs he.active]
    exact ⟨hi.closedAs he, he.closedAs.advances⟩
  | .done hv, h => by
    obtain ⟨hi, he, -⟩ := hv.spec h
    exact ⟨hi, he.advances⟩

theorem PassesMembers.spec {st x : Extraction} {id : String} {ms : List (Member κ)} :
    PassesMembers t st id ms x → Inv st → Inv x ∧ Advances st x
  | .start, h => ⟨h, (Extends.refl st).advances⟩
  | .inside _ _ hp, h => hp.spec h
  | .afterLeaf _ _ hm, h => by
    obtain ⟨hi, ha⟩ := hm.spec (h.log _)
    exact ⟨hi, (Extends.log st _).advances.trans ha⟩
  | .afterShape _ _ hv hm, h => by
    obtain ⟨hi₁, he₁, -⟩ := hv.spec h
    obtain ⟨hi, ha⟩ := hm.spec (hi₁.log _)
    exact ⟨hi, (he₁.trans (.log _ _)).advances.trans ha⟩

end

theorem Reached.inv {root : κ} {x : Extraction} (h : Reached t root x) : Inv x := by
  obtain ⟨s, -, hp⟩ := h
  exact (hp.spec .initial).1

end

end Extraction

section
open Extraction

/-- Visits from a state of an extraction, also of shapes from elsewhere: what is being expanded is the
same afterwards, what is finished stays, and the invariant holds before, on the way and afterwards. -/
theorem visit_frame {κ κ' : Type} [DecidableEq κ] [DecidableEq κ'] {t : ShapeTable κ} {root : κ}
    {st : Extraction} (h : Reached t root st) (t' : ShapeTable κ') (s : Shape κ')
    (hs : s.id ∈ t'.ids) :
    Inv st ∧ (∀ x, Passes t' st s x → Inv x ∧ Advances st x) ∧
      ∀ r st', (visit t' s hs st).val = (r, st') → Inv st' ∧ Extends st st' := by
  have hi := h.inv
  refine ⟨hi, fun x hp => hp.spec hi, fun r st' hv => ?_⟩
  have hvisits := visits_visit t' s hs st
  rw [hv] at hvisits
  obtain ⟨hi', he, -⟩ := hvisits.spec hi
  exact ⟨hi', he⟩

def leafShape : Shape String := ⟨"L", some "Leaf", [{ ident := "id" }]⟩

def treeShape : Shape String :=
  ⟨"T", some "Tree", [{ ident := "first", type := .shape "leaf" },
    { ident := "next", type := .list (.shape "tree") }]⟩

/-- A branch with a leaf, which gives its discriminator another name. -/
def branchShape : Shape String :=
  ⟨"B", none, [{ ident := "leaf", type := .optional (.shape "leaf") },
    { ident := "kind", tag := some "union,alias=kind" }]⟩

def treeTable : ShapeTable String :=
  ⟨[("leaf", leafShape), ("tree", treeShape), ("branch", branchShape)]⟩

/-- The state after the first leaf of a tree. -/
def leafState : Extraction where
  active := ["T"]
  nodes := #[⟨"L", some "Leaf", [⟨"id", .scalar, []⟩], false, 1⟩]
  finished := [("L", some 0)]
  events := #[.resolvedField "L" "id" .scalar, .extractedShape "L" 1 false]

/-- The state before the next tree. -/
def treeState : Extraction := leafState.log (.resolvedField "T" "first" (.object (some 0)))

/-- The state after a visit of a branch, which has failed when its leaf was done. -/
def branchState : Extraction where
  active := ["T"]
  nodes := #[⟨"L", some "Leaf", [⟨"id", .scalar, []⟩], false, 2⟩]
  finished := [("L", some 0)]
  events := #[.resolvedField "L" "id" .scalar, .extractedShape "L" 1 false,
    .resolvedField "T" "first" (.object (some 0)), .reusedShape "L" 2,
    .resolvedField "B" "leaf" (.object (some 0))]

theorem visit_leaf :
    (visit treeTable leafShape (by decide) (Extraction.opened { } "T")).val =
      (.ok (some 0), leafState) := by cbv

theorem visit_branch : (visit treeTable branchShape (by decide) treeState).val =
    (.error (.aliasedDiscriminator "B" "kind"), branchState) := by cbv

theorem reached_treeState : Reached treeTable "tree" treeState := by
  have hleaf := visits_visit treeTable leafShape (by decide) (Extraction.opened { } "T")
  rw [visit_leaf] at hleaf
  refine ⟨treeShape, rfl, .inside nofun rfl ?_⟩
  exact .afterShape (h := ⟨"first", false, false, []⟩) rfl rfl hleaf .start

theorem visit_frame_branch : Reached treeTable "tree" treeState ∧
    (visit treeTable branchShape (by decide) treeState).val =
      (.error (.aliasedDiscriminator "B" "kind"), branchState) ∧
    Inv treeState ∧ Inv branchState ∧ Extends treeState branchState := by
  obtain ⟨hi, -, hv⟩ := visit_frame reached_treeState treeTable branchShape (by decide)
  exact ⟨reached_treeState, visit_branch, hi, hv _ _ visit_branch⟩

end

end QueryShape
