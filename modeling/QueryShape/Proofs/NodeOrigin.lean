import Mathlib.Data.List.Forall2
import QueryShape.Proofs.CycleReport

/-!
# Where nodes come from

Shapes are known by their ids, and the first one that is expanded stands for all with its id. So every
finished id has a shape below the root that it comes from (`Origin`): a shape without members has no
node, and the node of any other has its name. `VisitsMembers.fieldsOf` says how the fields of a node
come from the members of its shape, and `fromMember_of_extract` that all fields of a graph come so.
-/

set_option autoImplicit false

namespace QueryShape.Extraction

variable {κ : Type} [DecidableEq κ] {t : ShapeTable κ} {root : κ}

/-- The field of a member, where the shape of its type is among the finished ones. -/
inductive FieldOf (t : ShapeTable κ) (finished : OrderedMap String (Option Nat)) (id : String)
    (m : Member κ) : Field → Prop
  | leaf {h : FieldHead} : m.head id = .ok h → t.shapeOf? m.type = none →
      FieldOf t finished id m ⟨h.name, h.leafKind, h.arguments⟩
  | shape {h : FieldHead} {s : Shape κ} {k : Option Nat} : m.head id = .ok h →
      t.shapeOf? m.type = some s → OrderedMap.find? finished s.id = some k →
      FieldOf t finished id m ⟨h.name, h.shapeKind k, h.arguments⟩

/-- Each member has one field. -/
theorem VisitsMembers.fieldsOf {st st' : Extraction} {id : String} {ms : List (Member κ)}
    {out : Except Failure (List Field × Bool)} :
    VisitsMembers t st id ms out st' → Inv st → ∀ result, out = .ok result →
      List.Forall₂ (FieldOf t st'.finished id) ms result.1
  | .nil, _, _, ho => by
    cases ho
    exact .nil
  | .headFails _, _, _, ho => by cases ho
  | .shapeFails .., _, _, ho => by cases ho
  | @VisitsMembers.leaf _ _ _ _ _ _ _ _ _ out hh hs hm, h, result, ho => by
    cases out with
    | error e => cases ho
    | ok rest =>
      cases ho
      exact .cons (.leaf hh hs) (hm.fieldsOf (h.log _) rest rfl)
  | @VisitsMembers.shape _ _ _ _ _ _ _ _ _ _ _ _ out hh hs hv hm, h, result, ho => by
    cases out with
    | error e => cases ho
    | ok rest =>
      cases ho
      obtain ⟨hi, -, hk⟩ := hv.spec h
      obtain ⟨-, he, -⟩ := hm.spec (hi.log _)
      exact .cons (.shape hh hs (he.finished _ _ (hk _ rfl))) (hm.fieldsOf (hi.log _) rest rfl)

/-- A discriminator in front makes the shape a union. -/
theorem VisitsMembers.isUnion_of_head {st st' : Extraction} {id : String} {m : Member κ}
    {ms : List (Member κ)} {fields : List Field} {isUnion : Bool} {head : FieldHead}
    (h : VisitsMembers t st id (m :: ms) (.ok (fields, isUnion)) st') (hh : m.head id = .ok head)
    (hd : head.discriminator = true) : isUnion = true := by
  generalize ho : Except.ok (fields, isUnion) = out at h
  cases h with
  | headFails => cases ho
  | shapeFails => cases ho
  | @leaf _ _ _ _ _ head' out hh' =>
    cases hh.symm.trans hh'
    cases out with
    | error e => cases ho
    | ok rest =>
      cases ho
      rw [hd, Bool.true_or]
  | @shape _ _ _ _ _ _ head' _ _ out hh' =>
    cases hh.symm.trans hh'
    cases out with
    | error e => cases ho
    | ok rest =>
      cases ho
      rw [hd, Bool.true_or]

/-! ## Origins -/

/-- The entry of a finished id comes from the shape `s`. -/
structure Origin (t : ShapeTable κ) (root : κ) (nodes : Array Node) (id : String)
    (entry : Option Nat) (s : Shape κ) : Prop where
  reachable : t.ReachableFrom root s
  id_eq : s.id = id
  empty : entry = none ↔ s.members = []
  name : ∀ k, entry = some k → ∃ n, nodes[k]? = some n ∧ n.name = s.name

def Originated (t : ShapeTable κ) (root : κ) (st : Extraction) : Prop :=
  ∀ id entry, OrderedMap.find? st.finished id = some entry →
    ∃ s, Origin t root st.nodes id entry s

theorem Origin.mono {st st' : Extraction} {id : String} {entry : Option Nat} {s : Shape κ}
    (h : Origin t root st.nodes id entry s) (he : Extends st st') :
    Origin t root st'.nodes id entry s := by
  refine ⟨h.reachable, h.id_eq, h.empty, fun k hk => ?_⟩
  obtain ⟨n, hn, hname⟩ := h.name k hk
  obtain ⟨n', hn', u, -, rfl⟩ := he.nodes k n hn
  exact ⟨_, hn', hname⟩

theorem Originated.initial : Originated t root {} := by
  intro id entry h
  cases h

theorem Originated.finish {st : Extraction} (h : Originated t root st) {s : Shape κ}
    (hs : t.ReachableFrom root s) (hn : OrderedMap.find? st.finished s.id = none)
    {fields : List Field} (isUnion : Bool) (hf : fields.length = s.members.length) :
    Originated t root (st.finish s fields isUnion).2 := by
  intro id entry hentry
  by_cases hid : s.id = id
  · subst hid
    rw [Inv.find?_finish] at hentry
    cases hentry
    refine ⟨s, hs, rfl, ?_, ?_⟩
    · have hempty : fields.isEmpty = true ↔ s.members = [] := by
        rw [List.isEmpty_iff, ← List.length_eq_zero_iff, hf, List.length_eq_zero_iff]
      unfold Extraction.finish
      split
      · rename_i he
        exact ⟨fun _ => hempty.1 he, fun _ => rfl⟩
      · rename_i he
        exact ⟨fun hk => (Option.some_ne_none _ hk).elim, fun hm => absurd (hempty.2 hm) he⟩
    · intro k hk
      unfold Extraction.finish at hk ⊢
      split at hk
      · cases hk
      · rename_i he
        cases hk
        rw [if_neg he]
        exact ⟨_, Array.getElem?_push_size, rfl⟩
  · have hold : OrderedMap.find? st.finished id = some entry := by
      unfold Extraction.finish at hentry
      split at hentry <;> simpa only [Extraction.log, OrderedMap.find?, hid, ↓reduceIte] using hentry
    obtain ⟨s', hs'⟩ := h id entry hold
    exact ⟨s', hs'.mono (.finish hn fields isUnion)⟩

mutual

theorem Visits.originated {st st' : Extraction} {s : Shape κ} {r : Except Failure (Option Nat)} :
    Visits t st s r st' → Inv st → t.ReachableFrom root s → Originated t root st →
      Originated t root st'
  | .cycle _, _, _, ho => ho
  | @Visits.reused _ _ _ _ _ k _ _, _, _, ho => by
    intro id entry hentry
    have hold : OrderedMap.find? st.finished id = some entry := by
      cases k with
      | none => exact hentry
      | some k => exact hentry
    obtain ⟨s', hs'⟩ := ho id entry hold
    exact ⟨s', hs'.mono (.reuse st s.id k)⟩
  | .failed _ hn hm, h, hs, ho => by
    exact hm.originated (h.opened hn) (fun m hm s' hs' => hs.step ⟨m, hm, hs'⟩) ho
  | @Visits.expanded _ _ _ _ st₁ _ fields isUnion _ hn hm, h, hs, ho => by
    obtain ⟨hi, he, -⟩ := hm.spec (h.opened hn)
    have hmembers := hm.originated (h.opened hn) (fun m hm s' hs' => hs.step ⟨m, hm, hs'⟩) ho
    have hclosed : Originated t root (st₁.closedAs st) := hmembers
    have hlength := (hm.fieldsOf (h.opened hn) (fields, isUnion) rfl).length_eq
    exact hclosed.finish hs (hi.find?_opened he) isUnion hlength.symm

theorem VisitsMembers.originated {st st' : Extraction} {id : String} {ms : List (Member κ)}
    {out : Except Failure (List Field × Bool)} :
    VisitsMembers t st id ms out st' → Inv st →
      (∀ m ∈ ms, ∀ s, t.shapeOf? m.type = some s → t.ReachableFrom root s) → Originated t root st →
      Originated t root st'
  | .nil, _, _, ho => ho
  | .headFails _, _, _, ho => ho
  | .shapeFails _ hs hv, h, hms, ho => hv.originated h (hms _ List.mem_cons_self _ hs) ho
  | .leaf _ _ hm, h, hms, ho =>
    hm.originated (h.log _) (fun m hm => hms m (List.mem_cons_of_mem _ hm)) ho
  | .shape _ hs hv hm, h, hms, ho => by
    obtain ⟨hi, -, -⟩ := hv.spec h
    have hfirst := hv.originated h (hms _ List.mem_cons_self _ hs) ho
    exact hm.originated (hi.log _) (fun m hm => hms m (List.mem_cons_of_mem _ hm)) hfirst

end

/-! ## The root -/

theorem FieldOf.mono {finished finished' : OrderedMap String (Option Nat)} {id : String}
    {m : Member κ} {f : Field} (h : FieldOf t finished id m f)
    (he : ∀ id r, OrderedMap.find? finished id = some r → OrderedMap.find? finished' id = some r) :
    FieldOf t finished' id m f := by
  cases h with
  | leaf hh hs => exact .leaf hh hs
  | shape hh hs hf => exact .shape hh hs (he _ _ hf)

/-- The node of a root with members has a field for each of them. -/
theorem root_of_extract {s : Shape κ} {g : Graph} (hs : t.find? root = some s)
    (hg : Graph.extract t root = .ok g) (hne : s.members ≠ []) :
    ∃ (k : Fin g.size) (fields : List Field) (isUnion : Bool) (st st₁ : Extraction),
      g.root = some k.val ∧ g.node k = ⟨s.id, s.name, fields, isUnion, 1⟩ ∧ g.nodes = st.nodes ∧
      Originated t root st ∧ List.Forall₂ (FieldOf t st.finished s.id) s.members fields ∧
      VisitsMembers t (({} : Extraction).opened s.id) s.id s.members (.ok (fields, isUnion)) st₁ := by
  obtain ⟨st, hv, hnodes⟩ := visits_of_extract hs hg
  have horigin := hv.originated .initial ⟨s, hs, .refl⟩ .initial
  generalize hr : Except.ok g.root = r at hv
  cases hv with
  | cycle => cases hr
  | reused _ hf => cases hf
  | failed => cases hr
  | @expanded _ st₁ _ fields isUnion _ hn hm =>
    have hopened : Inv (({} : Extraction).opened s.id) := Inv.initial.opened hn
    obtain ⟨hi, he, -⟩ := hm.spec hopened
    have hfields := hm.fieldsOf hopened (fields, isUnion) rfl
    have hext : Extends (st₁.closedAs {}) _ := .finish (hi.find?_opened he) fields isUnion
    have hfinish : (st₁.closedAs {}).finish s fields isUnion = (some st₁.nodes.size,
        { st₁.closedAs {} with
          nodes := st₁.nodes.push ⟨s.id, s.name, fields, isUnion, 1⟩
          finished := (s.id, some st₁.nodes.size) :: st₁.finished }.log
          (.extractedShape s.id fields.length isUnion)) := by
      unfold Extraction.finish
      rw [if_neg]
      · rfl
      · rw [List.isEmpty_iff]
        rintro rfl
        exact hne (List.length_eq_zero_iff.1 hfields.length_eq)
    have hpush : g.nodes = st₁.nodes.push ⟨s.id, s.name, fields, isUnion, 1⟩ := by
      rw [hnodes, hfinish]
      rfl
    have hlt : st₁.nodes.size < g.size := by
      rw [Graph.size, hpush, Array.size_push]
      omega
    refine ⟨⟨st₁.nodes.size, hlt⟩, fields, isUnion, _, st₁, ?_, ?_, hnodes, horigin, ?_, hm⟩
    · rw [Except.ok.inj hr, hfinish]
    · have hnode := Graph.node_eq (g := g) ⟨st₁.nodes.size, hlt⟩
      rw [hpush, Array.getElem?_push_size] at hnode
      exact (Option.some.inj hnode).symm
    · exact hfields.imp fun _ _ hf => hf.mono hext.finished

/-! ## All fields -/

/-- The field is what a member below the root gives. -/
def FromMember (t : ShapeTable κ) (root : κ) (f : Field) : Prop :=
  ∃ s m h, t.ReachableFrom root s ∧ m ∈ s.members ∧ m.head s.id = .ok h ∧ f.name = h.name ∧
    f.arguments = h.arguments

def AllFromMembers (t : ShapeTable κ) (root : κ) (st : Extraction) : Prop :=
  ∀ (k : Nat) (n : Node), st.nodes[k]? = some n → ∀ f ∈ n.fields, FromMember t root f

theorem AllFromMembers.reuse {st : Extraction} (h : AllFromMembers t root st) (id : String)
    (entry : Option Nat) : AllFromMembers t root (st.reuse id entry) := by
  cases entry with
  | none => exact h
  | some i =>
    intro k n hn
    simp only [Extraction.reuse, Extraction.log, Array.getElem?_modify] at hn
    split at hn
    · obtain ⟨n', hn', rfl⟩ := Option.map_eq_some_iff.1 hn
      exact h k n' hn'
    · exact h k n hn

theorem AllFromMembers.finish {st : Extraction} (h : AllFromMembers t root st) (s : Shape κ)
    {fields : List Field} (hf : ∀ f ∈ fields, FromMember t root f) (isUnion : Bool) :
    AllFromMembers t root (st.finish s fields isUnion).2 := by
  unfold Extraction.finish
  split
  · exact h
  · intro k n hn
    simp only [Extraction.log, Array.getElem?_push] at hn
    split at hn
    · cases hn
      exact hf
    · exact h k n hn

theorem exists_of_mem_right {α β : Type} {R : α → β → Prop} {as : List α} {bs : List β}
    (h : List.Forall₂ R as bs) {b : β} (hb : b ∈ bs) : ∃ a ∈ as, R a b := by
  obtain ⟨i, hi, rfl⟩ := List.getElem_of_mem hb
  have hlt : i < as.length := h.length_eq ▸ hi
  exact ⟨as[i], List.getElem_mem hlt, h.get hlt hi⟩

theorem FieldOf.fromMember {finished : OrderedMap String (Option Nat)} {s : Shape κ} {m : Member κ}
    {f : Field} (h : FieldOf t finished s.id m f) (hs : t.ReachableFrom root s)
    (hm : m ∈ s.members) : FromMember t root f := by
  cases h with
  | leaf hh _ => exact ⟨s, m, _, hs, hm, hh, rfl, rfl⟩
  | shape hh _ _ => exact ⟨s, m, _, hs, hm, hh, rfl, rfl⟩

mutual

theorem Visits.allFromMembers {st st' : Extraction} {s : Shape κ}
    {r : Except Failure (Option Nat)} :
    Visits t st s r st' → Inv st → t.ReachableFrom root s → AllFromMembers t root st →
      AllFromMembers t root st'
  | .cycle _, _, _, ho => ho
  | @Visits.reused _ _ _ _ _ k _ _, _, _, ho => ho.reuse s.id k
  | .failed _ hn hm, h, hs, ho =>
    hm.allFromMembers (h.opened hn) (fun m hm s' hs' => hs.step ⟨m, hm, hs'⟩) ho
  | @Visits.expanded _ _ _ _ st₁ _ fields isUnion _ hn hm, h, hs, ho => by
    have hmembers := hm.allFromMembers (h.opened hn) (fun m hm s' hs' => hs.step ⟨m, hm, hs'⟩) ho
    have hclosed : AllFromMembers t root (st₁.closedAs st) := hmembers
    refine hclosed.finish s (fun f hf => ?_) isUnion
    obtain ⟨m, hmem, hfield⟩ := exists_of_mem_right
      (hm.fieldsOf (h.opened hn) (fields, isUnion) rfl) hf
    exact hfield.fromMember hs hmem

theorem VisitsMembers.allFromMembers {st st' : Extraction} {id : String} {ms : List (Member κ)}
    {out : Except Failure (List Field × Bool)} :
    VisitsMembers t st id ms out st' → Inv st →
      (∀ m ∈ ms, ∀ s, t.shapeOf? m.type = some s → t.ReachableFrom root s) →
      AllFromMembers t root st → AllFromMembers t root st'
  | .nil, _, _, ho => ho
  | .headFails _, _, _, ho => ho
  | .shapeFails _ hs hv, h, hms, ho => hv.allFromMembers h (hms _ List.mem_cons_self _ hs) ho
  | .leaf _ _ hm, h, hms, ho =>
    hm.allFromMembers (h.log _) (fun m hm => hms m (List.mem_cons_of_mem _ hm)) ho
  | .shape _ hs hv hm, h, hms, ho => by
    obtain ⟨hi, -, -⟩ := hv.spec h
    have hfirst := hv.allFromMembers h (hms _ List.mem_cons_self _ hs) ho
    exact hm.allFromMembers (hi.log _) (fun m hm => hms m (List.mem_cons_of_mem _ hm)) hfirst

end

/-- Each field of a graph is what a member below the root gives. -/
theorem fromMember_of_extract {g : Graph} (hg : Graph.extract t root = .ok g) {k : Fin g.size}
    {f : Field} (hf : f ∈ (g.node k).fields) : FromMember t root f := by
  cases hs : t.find? root with
  | none =>
    rw [extract_missing hs] at hg
    cases hg
    exact k.elim0
  | some s =>
    obtain ⟨st, hv, hnodes⟩ := visits_of_extract hs hg
    have hinitial : AllFromMembers t root {} := fun k n hn => by cases hn
    have hall := hv.allFromMembers .initial ⟨s, hs, .refl⟩ hinitial
    have hnode := Graph.node_eq k
    rw [hnodes] at hnode
    exact hall k _ hnode f hf

end QueryShape.Extraction
