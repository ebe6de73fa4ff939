import QueryShape.Proofs.VisitRun

/-!
# The invariant of extractions

`Extraction.Inv`: the ids being expanded are not finished, finished ids and nodes correspond to each
other, and fields refer to earlier nodes only. A visit keeps it whether it succeeds or fails
(`Visits.spec`), and it takes nothing back (`Extends`): entries of finished ids stay, and nodes stay
but for how often they are used. `Graph.Arranged` is what follows for the graph at the end.
-/

set_option autoImplicit false

namespace QueryShape

/-- `n'` is `n`, used at least as often. -/
def Node.Grows (n n' : Node) : Prop := ∃ uses, n.uses ≤ uses ∧ n' = { n with uses := uses }

theorem Node.Grows.refl (n : Node) : n.Grows n := ⟨n.uses, Nat.le_refl _, rfl⟩

theorem Node.Grows.trans {n₁ n₂ n₃ : Node} (h₁ : n₁.Grows n₂) (h₂ : n₂.Grows n₃) : n₁.Grows n₃ := by
  obtain ⟨u, hu, rfl⟩ := h₁
  obtain ⟨v, hv, rfl⟩ := h₂
  exact ⟨v, Nat.le_trans hu hv, rfl⟩

namespace Extraction

/-! ## Nothing is taken back -/

structure Extends (st st' : Extraction) : Prop where
  active : st'.active = st.active
  nodes : ∀ (k : Nat) (n : Node), st.nodes[k]? = some n →
    ∃ n', st'.nodes[k]? = some n' ∧ n.Grows n'
  finished : ∀ id r, OrderedMap.find? st.finished id = some r →
    OrderedMap.find? st'.finished id = some r

namespace Extends

theorem refl (st : Extraction) : Extends st st :=
  ⟨rfl, fun _ n h => ⟨n, h, .refl n⟩, fun _ _ h => h⟩

theorem trans {st₁ st₂ st₃ : Extraction} (h₁ : Extends st₁ st₂) (h₂ : Extends st₂ st₃) :
    Extends st₁ st₃ := by
  refine ⟨h₂.active.trans h₁.active, fun k n hn => ?_, fun id r hr => ?_⟩
  · obtain ⟨n₂, hn₂, hg₂⟩ := h₁.nodes k n hn
    obtain ⟨n₃, hn₃, hg₃⟩ := h₂.nodes k n₂ hn₂
    exact ⟨n₃, hn₃, hg₂.trans hg₃⟩
  · exact h₂.finished id r (h₁.finished id r hr)

theorem log (st : Extraction) (e : Event) : Extends st (st.log e) :=
  ⟨rfl, fun _ n h => ⟨n, h, .refl n⟩, fun _ _ h => h⟩

theorem size_le {st st' : Extraction} (h : Extends st st') : st.nodes.size ≤ st'.nodes.size := by
  rcases Nat.eq_zero_or_pos st.nodes.size with h0 | h0
  · omega
  · obtain ⟨n', hn', -⟩ := h.nodes (st.nodes.size - 1) _ (Array.getElem?_eq_getElem (by omega))
    have := (Array.getElem?_eq_some_iff.1 hn').1
    omega

theorem reuse (st : Extraction) (id : String) (k : Option Nat) : Extends st (st.reuse id k) := by
  cases k with
  | none => exact .refl st
  | some k =>
    refine ⟨rfl, fun i n hn => ?_, fun _ _ h => h⟩
    simp only [Extraction.reuse, Extraction.log, Array.getElem?_modify, hn]
    split
    · exact ⟨_, rfl, n.uses + 1, Nat.le_succ _, rfl⟩
    · exact ⟨n, rfl, .refl n⟩

/-- Back from the members of a shape. -/
theorem closedAs {st st' : Extraction} {id : String} (h : Extends (st.opened id) st') :
    Extends st (st'.closedAs st) :=
  ⟨rfl, h.nodes, h.finished⟩

theorem finish {κ : Type} {st : Extraction} {s : Shape κ}
    (hn : OrderedMap.find? st.finished s.id = none) (fields : List Field) (isUnion : Bool) :
    Extends st (st.finish s fields isUnion).2 := by
  have hcons : ∀ r id r', OrderedMap.find? st.finished id = some r' →
      OrderedMap.find? ((s.id, r) :: st.finished) id = some r' := by
    intro r id r' h
    have hne : s.id ≠ id := fun he => by rw [← he, hn] at h; cases h
    simp only [OrderedMap.find?, hne, ↓reduceIte, h]
  unfold Extraction.finish
  split
  · exact ⟨rfl, fun _ n h => ⟨n, h, .refl n⟩, hcons none⟩
  · refine ⟨rfl, fun k n h => ⟨n, ?_, .refl n⟩, hcons _⟩
    have hk := (Array.getElem?_eq_some_iff.1 h).1
    simp only [Extraction.log, Array.getElem?_push, show k ≠ st.nodes.size by omega, ↓reduceIte, h]

end Extends

/-! ## The invariant -/

structure Inv (st : Extraction) : Prop where
  disjoint : ∀ id ∈ st.active, OrderedMap.find? st.finished id = none
  cached : ∀ id k, OrderedMap.find? st.finished id = some (some k) →
    ∃ n, st.nodes[k]? = some n ∧ n.id = id
  indexed : ∀ (k : Nat) (n : Node), st.nodes[k]? = some n →
    OrderedMap.find? st.finished n.id = some (some k)
  below : ∀ (k : Nat) (n : Node) (f : Field) (i : Nat), st.nodes[k]? = some n → f ∈ n.fields →
    f.kind.nested? = some i → i < k

namespace Inv

theorem initial : Inv {} := by
  refine ⟨?_, ?_, ?_, ?_⟩ <;> simp [OrderedMap.find?]

theorem log {st : Extraction} (h : Inv st) (e : Event) : Inv (st.log e) :=
  ⟨h.disjoint, h.cached, h.indexed, h.below⟩

theorem lt_size {st : Extraction} (h : Inv st) {id : String} {k : Nat}
    (hf : OrderedMap.find? st.finished id = some (some k)) : k < st.nodes.size := by
  obtain ⟨n, hn, -⟩ := h.cached id k hf
  exact (Array.getElem?_eq_some_iff.1 hn).1

theorem reuse {st : Extraction} (h : Inv st) (id : String) (k : Option Nat) :
    Inv (st.reuse id k) := by
  cases k with
  | none => exact h
  | some k =>
    -- a node of the new state is one of the old state up to its uses
    have hback : ∀ (i : Nat) (n' : Node), (st.reuse id (some k)).nodes[i]? = some n' →
        ∃ n, st.nodes[i]? = some n ∧ n.Grows n' := by
      intro i n' hn'
      simp only [Extraction.reuse, Extraction.log, Array.getElem?_modify] at hn'
      split at hn'
      · obtain ⟨n, hn, rfl⟩ := Option.map_eq_some_iff.1 hn'
        exact ⟨n, hn, n.uses + 1, Nat.le_succ _, rfl⟩
      · exact ⟨n', hn', .refl n'⟩
    refine ⟨h.disjoint, fun id' i hf => ?_, fun i n' hn' => ?_, fun i n' f j hn' hf hj => ?_⟩
    · obtain ⟨n, hn, hid⟩ := h.cached id' i hf
      obtain ⟨n', hn', u, -, rfl⟩ := (Extends.reuse st id (some k)).nodes i n hn
      exact ⟨_, hn', hid⟩
    · obtain ⟨n, hn, u, -, rfl⟩ := hback i n' hn'
      exact h.indexed i n hn
    · obtain ⟨n, hn, u, -, rfl⟩ := hback i n' hn'
      exact h.below i n f j hn hf hj

theorem opened {st : Extraction} (h : Inv st) {id : String}
    (hn : OrderedMap.find? st.finished id = none) : Inv (st.opened id) := by
  refine ⟨fun id' hm => ?_, h.cached, h.indexed, h.below⟩
  rcases List.mem_append.1 hm with hm | hm
  · exact h.disjoint id' hm
  · rw [List.mem_singleton.1 hm]; exact hn

theorem closedAs {st st' : Extraction} {id : String} (h : Inv st')
    (he : Extends (st.opened id) st') : Inv (st'.closedAs st) := by
  refine ⟨fun id' hm => h.disjoint id' ?_, h.cached, h.indexed, h.below⟩
  rw [he.active]
  exact List.mem_append_left _ hm

/-- The id of a shape is still being expanded after its members, so they do not finish it. -/
theorem find?_opened {st st' : Extraction} {id : String} (h : Inv st')
    (he : Extends (st.opened id) st') :
    OrderedMap.find? (st'.closedAs st).finished id = none := by
  apply h.disjoint
  rw [he.active]
  exact List.mem_append_right _ (List.mem_singleton.2 rfl)

theorem find?_finish {κ : Type} (st : Extraction) (s : Shape κ) (fields : List Field)
    (isUnion : Bool) : OrderedMap.find? (st.finish s fields isUnion).2.finished s.id =
      some (st.finish s fields isUnion).1 := by
  unfold Extraction.finish
  split <;> simp [Extraction.log, OrderedMap.find?]

theorem finish {κ : Type} {st : Extraction} (h : Inv st) {s : Shape κ} (ha : s.id ∉ st.active)
    (hn : OrderedMap.find? st.finished s.id = none) {fields : List Field} (isUnion : Bool)
    (hf : ∀ f ∈ fields, ∀ i, f.kind.nested? = some i → i < st.nodes.size) :
    Inv (st.finish s fields isUnion).2 := by
  have hfind : ∀ r id, OrderedMap.find? ((s.id, r) :: st.finished) id =
      if s.id = id then some r else OrderedMap.find? st.finished id := fun _ _ => rfl
  have hne : ∀ id r, OrderedMap.find? st.finished id = some r → s.id ≠ id := by
    intro id r hr he
    rw [← he, hn] at hr
    cases hr
  have hdis : ∀ r, ∀ id ∈ st.active, OrderedMap.find? ((s.id, r) :: st.finished) id = none := by
    intro r id hm
    have hid : s.id ≠ id := fun he => ha (by rw [he]; exact hm)
    rw [hfind, if_neg hid]
    exact h.disjoint id hm
  unfold Extraction.finish
  split
  · refine ⟨hdis none, fun id k hk => ?_, fun k n hk => ?_, h.below⟩
    · simp only [Extraction.log, hfind] at hk
      split at hk
      · cases hk
      · exact h.cached id k hk
    · have hi := h.indexed k n hk
      simp only [Extraction.log, hfind, hne _ _ hi, ↓reduceIte, hi]
  · refine ⟨hdis _, fun id k hk => ?_, fun k n hk => ?_, fun k n f i hk hm hi => ?_⟩
    · simp only [Extraction.log, hfind] at hk ⊢
      split at hk
      · rename_i hid
        cases hk
        exact ⟨_, Array.getElem?_push_size, hid⟩
      · obtain ⟨n, hn', hid⟩ := h.cached id k hk
        have hlt := (Array.getElem?_eq_some_iff.1 hn').1
        exact ⟨n, by rw [Array.getElem?_push, if_neg (Nat.ne_of_lt hlt)]; exact hn', hid⟩
    · simp only [Extraction.log, Array.getElem?_push, hfind] at hk ⊢
      split at hk
      · rename_i hks
        cases hk
        simp only [hks, ↓reduceIte]
      · have hi := h.indexed k n hk
        rw [if_neg (hne _ _ hi)]
        exact hi
    · simp only [Extraction.log, Array.getElem?_push] at hk
      split at hk
      · rename_i hks
        cases hk
        rw [hks]
        exact hf f hm i hi
      · exact h.below k n f i hk hm hi

end Inv

section
variable {κ : Type} [DecidableEq κ]

mutual

/-- What a visit keeps and gives: the node it ends with is the entry of the shape's id. -/
theorem Visits.spec {t : ShapeTable κ} {st st' : Extraction} {s : Shape κ}
    {r : Except Failure (Option Nat)} :
    Visits t st s r st' → Inv st → Inv st' ∧ Extends st st' ∧
      ∀ k, r = .ok k → OrderedMap.find? st'.finished s.id = some k
  | .cycle _, h => ⟨h, .refl st, fun _ he => by cases he⟩
  | @Visits.reused _ _ _ _ _ k _ hf, h => by
    have he := Extends.reuse st s.id k
    refine ⟨h.reuse s.id k, he, fun k' hk => ?_⟩
    cases hk
    exact he.finished _ _ hf
  | .failed _ hn hm, h => by
    obtain ⟨hi, he, -⟩ := hm.spec (h.opened hn)
    exact ⟨hi.closedAs he, he.closedAs, fun _ hk => by cases hk⟩
  | @Visits.expanded _ _ _ _ st₁ _ fields isUnion ha hn hm, h => by
    obtain ⟨hi, he, hb⟩ := hm.spec (h.opened hn)
    have hn₁ := hi.find?_opened he
    refine ⟨(hi.closedAs he).finish ha hn₁ isUnion (hb fields isUnion rfl),
      he.closedAs.trans (.finish hn₁ fields isUnion), fun k hk => ?_⟩
    cases hk
    exact Inv.find?_finish _ s fields isUnion

/-- The fields of the members refer to nodes that are there at the end. -/
theorem VisitsMembers.spec {t : ShapeTable κ} {st st' : Extraction} {id : String}
    {ms : List (Member κ)} {out : Except Failure (List Field × Bool)} :
    VisitsMembers t st id ms out st' → Inv st → Inv st' ∧ Extends st st' ∧
      ∀ fields isUnion, out = .ok (fields, isUnion) →
        ∀ f ∈ fields, ∀ i, f.kind.nested? = some i → i < st'.nodes.size
  | .nil, h => ⟨h, .refl st, fun _ _ he => by cases he; simp⟩
  | .headFails _, h => ⟨h, .refl st, fun _ _ he => by cases he⟩
  | .shapeFails _ _ hv, h => by
    obtain ⟨hi, he, -⟩ := hv.spec h
    exact ⟨hi, he, fun _ _ hk => by cases hk⟩
  | @VisitsMembers.leaf _ _ _ _ _ _ _ _ head out _ _ hm, h => by
    obtain ⟨hi, he, hb⟩ := hm.spec (h.log _)
    refine ⟨hi, (Extends.log _ _).trans he, fun fields isUnion ho f hf i hn => ?_⟩
    cases out with
    | error e => cases ho
    | ok rest =>
      cases ho
      rcases List.mem_cons.1 hf with rfl | hf
      · rw [head.nested?_leafKind] at hn; cases hn
      · exact hb rest.1 rest.2 rfl f hf i hn
  | @VisitsMembers.shape _ _ _ _ _ _ _ _ _ head _ k out _ _ hv hm, h => by
    obtain ⟨hi₁, he₁, hk⟩ := hv.spec h
    obtain ⟨hi, he, hb⟩ := hm.spec (hi₁.log _)
    refine ⟨hi, he₁.trans ((Extends.log _ _).trans he), fun fields isUnion ho f hf i hn => ?_⟩
    cases out with
    | error e => cases ho
    | ok rest =>
      cases ho
      rcases List.mem_cons.1 hf with rfl | hf
      · rw [head.nested?_shapeKind] at hn
        subst hn
        exact Nat.lt_of_lt_of_le (hi₁.lt_size (hk _ rfl)) he.size_le
      · exact hb rest.1 rest.2 rfl f hf i hn

end

/-- A shape that was not finished before gets a new node, which nothing else uses yet. -/
theorem Visits.uses_eq_one {t : ShapeTable κ} {st st' : Extraction} {s : Shape κ} {k : Nat}
    (h : Visits t st s (.ok (some k)) st') (hn : OrderedMap.find? st.finished s.id = none) :
    ∃ n, st'.nodes[k]? = some n ∧ n.uses = 1 := by
  generalize hr : Except.ok (some k) = r at h
  cases h with
  | cycle => cases hr
  | reused _ hf => rw [hn] at hf; cases hf
  | failed => cases hr
  | expanded =>
    unfold finish at hr ⊢
    split at hr
    · cases hr
    · rename_i hne
      cases hr
      simp only [hne, Bool.false_eq_true, ↓reduceIte, log]
      exact ⟨_, Array.getElem?_push_size, rfl⟩

/-- An extraction is a visit of the root from an empty state. -/
theorem extract_eq {t : ShapeTable κ} {root : κ} {s : Shape κ} (hf : t.find? root = some s) :
    ∃ r st, Visits t {} s r st ∧ Graph.extract t root = r.map fun k => ⟨st.nodes, k⟩ := by
  refine ⟨_, _, visits_visit t s (ShapeTable.id_mem_ids_of_find? hf) {}, ?_⟩
  unfold Graph.extract Graph.extractLogged
  split
  · rename_i hn
    rw [hn] at hf
    cases hf
  · rename_i s' hs
    cases hf.symm.trans hs
    rfl

theorem extract_missing {t : ShapeTable κ} {root : κ} (hf : t.find? root = none) :
    Graph.extract t root = .ok {} := by
  unfold Graph.extract Graph.extractLogged
  split
  · rfl
  · rename_i hs
    rw [hf] at hs
    cases hs

theorem visits_of_extract {t : ShapeTable κ} {root : κ} {s : Shape κ} {g : Graph}
    (hf : t.find? root = some s) (h : Graph.extract t root = .ok g) :
    ∃ st, Visits t {} s (.ok g.root) st ∧ g.nodes = st.nodes := by
  obtain ⟨r, st, hv, he⟩ := extract_eq hf
  rw [he] at h
  cases r with
  | error e => cases h
  | ok k =>
    cases h
    exact ⟨st, hv, rfl⟩

end

end Extraction

/-! ## Extracted graphs -/

namespace Graph

/-- What every extracted graph has: the ids of its nodes are distinct, fields refer to earlier nodes
only, and the root is used once. -/
structure Arranged (g : Graph) : Prop where
  inj : ∀ i j : Fin g.size, (g.node i).id = (g.node j).id → i = j
  below : ∀ (k : Fin g.size) (f : Field) (i : Nat), f ∈ (g.node k).fields →
    f.kind.nested? = some i → i < k.val
  root : ∀ r, g.root = some r → ∃ h : r < g.size, (g.node ⟨r, h⟩).uses = 1

theorem node_eq {g : Graph} (k : Fin g.size) : g.nodes[k.val]? = some (g.node k) :=
  Array.getElem?_eq_getElem k.isLt

theorem arranged_extract {κ : Type} [DecidableEq κ] {t : ShapeTable κ} {root : κ} {g : Graph}
    (h : Graph.extract t root = .ok g) : g.Arranged := by
  cases hf : t.find? root with
  | none =>
    cases (Extraction.extract_missing hf).symm.trans h
    exact ⟨fun i => i.elim0, fun k => k.elim0, fun _ h => by cases h⟩
  | some s =>
    obtain ⟨st, hv, hn⟩ := Extraction.visits_of_extract hf h
    obtain ⟨hi, -, hk⟩ := hv.spec .initial
    obtain ⟨nodes, r⟩ := g
    subst hn
    refine ⟨fun i j hid => ?_, fun k f i => hi.below k.val _ f i (node_eq k), fun r hr => ?_⟩
    · have h₁ := hi.indexed i.val _ (node_eq i)
      have h₂ := hi.indexed j.val _ (node_eq j)
      rw [hid, h₂] at h₁
      exact Fin.ext (Option.some.inj (Option.some.inj h₁)).symm
    · dsimp only at hr
      subst hr
      have hlt := hi.lt_size (hk _ rfl)
      obtain ⟨n, hn, hu⟩ := hv.uses_eq_one rfl
      have hg := node_eq (g := ⟨st.nodes, some r⟩) ⟨r, hlt⟩
      rw [hn] at hg
      exact ⟨hlt, by rw [← Option.some.inj hg, hu]⟩

end Graph

end QueryShape
