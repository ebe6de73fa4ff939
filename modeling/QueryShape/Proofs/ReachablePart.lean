import QueryShape.Proofs.CycleReport

/-!
# The part of a table below a root

An extraction meets only the shapes whose keys its root leads to (`ShapeTable.Leads`). `ShapeTable.below`
leaves the others out, and a visit goes the same way there (`Visits.restrict`). So what is known of
extractions from coherent tables holds where just the part below the root is coherent:
`extract_iff_expansion_below`, `isCycle_below`.
-/

set_option autoImplicit false

namespace QueryShape

theorem OrderedMap.find?_filter {κ α : Type} [DecidableEq κ] (p : κ → Bool) (m : OrderedMap κ α)
    (key : κ) : find? (m.filter (p ·.1)) key = if p key then find? m key else none := by
  induction m with
  | nil => simp [find?]
  | cons e m ih =>
    obtain ⟨k, v⟩ := e
    by_cases hk : k = key
    · subst hk
      cases hp : p k with
      | true => simp [hp, find?]
      | false => simpa [hp] using ih
    · cases hp : p k with
      | true => simp only [List.filter_cons, hp, if_true, find?, if_neg hk, ih]
      | false => simpa [List.filter_cons, hp, find?, if_neg hk] using ih

namespace ShapeTable

variable {κ : Type} [DecidableEq κ] {t : ShapeTable κ} {root key : κ} {s : Shape κ}

/-- The keys that are met from the root along the types of members. -/
inductive Leads (t : ShapeTable κ) (root : κ) : κ → Prop
  | root : Leads t root root
  | step {key key' : κ} {s : Shape κ} {m : Member κ} : Leads t root key → t.find? key = some s →
      m ∈ s.members → m.type.shape? = some key' → Leads t root key'

open Classical in
/-- The entries that the root leads to. -/
noncomputable def below (t : ShapeTable κ) (root : κ) : ShapeTable κ :=
  ⟨t.entries.filter fun e => decide (t.Leads root e.1)⟩

theorem find?_below (h : t.Leads root key) : (t.below root).find? key = t.find? key := by
  classical
  unfold below find?
  rw [OrderedMap.find?_filter fun key => decide (t.Leads root key), if_pos (decide_eq_true h)]

theorem find?_of_below (h : (t.below root).find? key = some s) :
    t.Leads root key ∧ t.find? key = some s := by
  classical
  unfold below find? at h
  rw [OrderedMap.find?_filter fun key => decide (t.Leads root key)] at h
  split at h
  · rename_i hl
    exact ⟨of_decide_eq_true hl, h⟩
  · cases h

/-- The root leads to a key of the shape. -/
def Below (t : ShapeTable κ) (root : κ) (s : Shape κ) : Prop :=
  ∃ key, t.Leads root key ∧ t.find? key = some s

theorem Below.has (h : t.Below root s) : (t.below root).Has s := by
  obtain ⟨key, hl, hf⟩ := h
  exact ⟨key, (find?_below hl).trans hf⟩

/-- Members of shapes below the root have types in the part below it. -/
theorem Below.member (h : t.Below root s) {m : Member κ} (hm : m ∈ s.members) :
    (t.below root).shapeOf? m.type = t.shapeOf? m.type ∧
      ∀ s', t.shapeOf? m.type = some s' → t.Below root s' := by
  obtain ⟨key, hl, hf⟩ := h
  unfold shapeOf?
  cases hkey : m.type.shape? with
  | none => exact ⟨rfl, fun s' hs' => by cases hs'⟩
  | some key' =>
    have hl' := hl.step hf hm hkey
    exact ⟨find?_below hl', fun s' hs' => ⟨key', hl', hs'⟩⟩

/-! ## Expansions below the root -/

theorem expandMembers_below {e e' : Shape κ → Option (Option ShapeTree)} {id : String}
    {ms : List (Member κ)}
    (hm : ∀ m ∈ ms, (t.below root).shapeOf? m.type = t.shapeOf? m.type ∧
      ∀ s, t.shapeOf? m.type = some s → e' s = e s) :
    (t.below root).expandMembers e' id ms = t.expandMembers e id ms := by
  induction ms with
  | nil => rfl
  | cons m ms ih =>
    rw [List.forall_mem_cons] at hm
    obtain ⟨⟨hshape, he⟩, hms⟩ := hm
    have hkind : ∀ h : FieldHead, (t.below root).expandKind e' h m.type = t.expandKind e h m.type := by
      intro h
      unfold expandKind
      rw [hshape]
      cases hs : t.shapeOf? m.type with
      | none => rfl
      | some s => exact congrArg (Option.map h.shapeTree) (he s hs)
    simp only [expandMembers, hkind, ih hms]

theorem Below.expand_eq (h : t.Below root s) (d : Nat) :
    (t.below root).expand d s = t.expand d s := by
  induction d generalizing s with
  | zero => rfl
  | succ d ih =>
    have hms : (t.below root).expandMembers ((t.below root).expand d) s.id s.members =
        t.expandMembers (t.expand d) s.id s.members :=
      expandMembers_below fun m hm => ⟨(h.member hm).1, fun s' hs' => ih ((h.member hm).2 s' hs')⟩
    rw [expand, expand, hms]

/-! ## References below the root -/

theorem Refers.of_below {s' : Shape κ} (h : (t.below root).Refers s s') : t.Refers s s' := by
  obtain ⟨m, hm, hs⟩ := h
  obtain ⟨key, hk, hf⟩ := Option.bind_eq_some_iff.1 hs
  refine ⟨m, hm, Option.bind_eq_some_iff.2 ⟨key, hk, (find?_of_below hf).2⟩⟩

theorem ReachableFrom.of_below (h : (t.below root).ReachableFrom root s) :
    t.ReachableFrom root s := by
  obtain ⟨top, htop, hs⟩ := h
  refine ⟨top, (find?_of_below htop).2, ?_⟩
  induction hs with
  | refl => exact .refl
  | tail _ hr ih => exact ih.tail hr.of_below

theorem IsCycle.of_below {ids : List String} (h : (t.below root).IsCycle root ids) :
    t.IsCycle root ids := by
  refine ⟨h.two_le, h.closed, h.distinct, h.refers.imp ?_, ?_⟩
  · rintro id id' ⟨s, s', hs, hr, hid⟩
    exact ⟨s, s', hs.of_below, hr.of_below, hid⟩
  · obtain ⟨s, hs, hid⟩ := h.reachable
    exact ⟨s, hs.of_below, hid⟩

end ShapeTable

namespace Extraction

variable {κ : Type} [DecidableEq κ] {t : ShapeTable κ} {root : κ}

/-! ## Visits below the root -/

mutual

theorem Visits.restrict {st st' : Extraction} {s : Shape κ} {r : Except Failure (Option Nat)} :
    Visits t st s r st' → t.Below root s → Visits (t.below root) st s r st'
  | .cycle hm, _ => .cycle hm
  | .reused hm hf, _ => .reused hm hf
  | .failed hm hf h, hs => .failed hm hf (h.restrict fun _ => hs.member)
  | .expanded hm hf h, hs => .expanded hm hf (h.restrict fun _ => hs.member)

theorem VisitsMembers.restrict {st st' : Extraction} {id : String} {ms : List (Member κ)}
    {out : Except Failure (List Field × Bool)} : VisitsMembers t st id ms out st' →
      (∀ m ∈ ms, (t.below root).shapeOf? m.type = t.shapeOf? m.type ∧
        ∀ s, t.shapeOf? m.type = some s → t.Below root s) →
      VisitsMembers (t.below root) st id ms out st'
  | .nil, _ => .nil
  | .headFails hh, _ => .headFails hh
  | .shapeFails hh hs hv, hms => by
    obtain ⟨hshape, hbelow⟩ := hms _ List.mem_cons_self
    exact .shapeFails hh (hshape.trans hs) (hv.restrict (hbelow _ hs))
  | .leaf hh hs hm, hms => by
    rw [List.forall_mem_cons] at hms
    exact .leaf hh (hms.1.1.trans hs) (hm.restrict hms.2)
  | .shape hh hs hv hm, hms => by
    rw [List.forall_mem_cons] at hms
    obtain ⟨⟨hshape, hbelow⟩, hms⟩ := hms
    exact .shape hh (hshape.trans hs) (hv.restrict (hbelow _ hs)) (hm.restrict hms)

end

/-! ## Extractions -/

omit [DecidableEq κ] in
/-- The errors of annotations are no cycles. -/
theorem head_ne_cycle {m : Member κ} {id : String} {ids : List String} :
    m.head id ≠ .error (.cycle ids) := by
  intro h
  rcases Member.error_of_head h with ⟨fault, he⟩ | he
  · cases he
  · cases he

end Extraction

namespace ShapeTable

variable {κ : Type} [DecidableEq κ] {t : ShapeTable κ} {root : κ}

/-- Shapes below the root with one id have one name and the same members. -/
def CoherentBelow (t : ShapeTable κ) (root : κ) : Prop :=
  ∀ key key' s s', t.Leads root key → t.Leads root key' → t.find? key = some s →
    t.find? key' = some s' → s.id = s'.id → s.name = s'.name ∧ s.members = s'.members

theorem CoherentBelow.coherent (h : t.CoherentBelow root) : (t.below root).Coherent := by
  intro key key' s s' hk hk' hid
  obtain ⟨hl, hf⟩ := find?_of_below hk
  obtain ⟨hl', hf'⟩ := find?_of_below hk'
  exact h key key' s s' hl hl' hf hf' hid

/-- Extraction agrees with expansion where the part below the root is coherent. -/
theorem extract_iff_expansion_below (h : t.CoherentBelow root) (tree : Option ShapeTree) :
    (∃ g, Graph.extract t root = .ok g ∧ g.unfolding = tree) ↔
      ∃ depth, t.expansion depth root = some tree := by
  unfold expansion
  cases hf : t.find? root with
  | none =>
    rw [Extraction.extract_missing hf]
    constructor
    · rintro ⟨g, hg, rfl⟩
      cases hg
      exact ⟨0, rfl⟩
    · rintro ⟨_, h⟩
      cases h
      exact ⟨{}, rfl, rfl⟩
  | some s =>
    have hs : t.Below root s := ⟨root, .root, hf⟩
    obtain ⟨r, st, hv, he⟩ := Extraction.extract_eq hf
    have hv := hv.restrict hs
    have htree : ∀ k, r = .ok k → ∃ d, t.expand d s = some (k.bind (unfoldAt st.nodes)) := by
      rintro k rfl
      obtain ⟨d, hd⟩ := hv.expand_of_initial h.coherent hs.has
      exact ⟨d, by rw [← hs.expand_eq, hd]⟩
    dsimp only
    constructor
    · rintro ⟨g, hg, rfl⟩
      rw [he] at hg
      cases r with
      | error e => cases hg
      | ok k =>
        cases hg
        exact htree k rfl
    · rintro ⟨d, hd⟩
      have hdeep : Extraction.Deeper (t.below root) d {} := fun _ hm => by cases hm
      have hx : (t.below root).expand d s ≠ none := by
        rw [hs.expand_eq, hd]
        simp
      obtain ⟨k, rfl⟩ := hv.ok_of_expand h.coherent hs.has .initial hdeep hx
      obtain ⟨d', hd'⟩ := htree k rfl
      exact ⟨_, he, expand_unique hd' hd⟩

/-- A cycle that is reported is one of shapes that refer to each other. -/
theorem isCycle_below (h : t.CoherentBelow root) {ids : List String}
    (he : Graph.extract t root = .error (.cycle ids)) :
    t.IsCycle root ids ∧ ∃ s, t.ReachableFrom root s ∧ Relation.TransGen t.Refers s s := by
  cases hf : t.find? root with
  | none =>
    rw [Extraction.extract_missing hf] at he
    cases he
  | some s =>
    have hs : t.Below root s := ⟨root, .root, hf⟩
    obtain ⟨r, st, hv, he'⟩ := Extraction.extract_eq hf
    rw [he] at he'
    cases r with
    | ok k => cases he'
    | error e =>
      cases he'
      have hf' : (t.below root).find? root = some s := (find?_below .root).trans hf
      rcases (hv.restrict hs).isCycle_or_headError .initial (.start hf') _ rfl with
        ⟨ids', hids, hc⟩ | ⟨s', -, m, -, hh⟩
      · cases hids
        obtain ⟨s', hs', hp⟩ := hc.transGen h.coherent
        exact ⟨hc.of_below, s', hs'.of_below, hp.lift id fun _ _ => Refers.of_below⟩
      · exact absurd hh Extraction.head_ne_cycle

end ShapeTable

end QueryShape
