import Mathlib
import QueryShape.Proofs.CycleReport

/-!
# How deep an extraction goes

`Extraction.visitWithin` is the visit as a plain recursion that is cut off at a depth: shapes are
described when they are asked for, and nothing tells in advance that the recursion ends.

* `Visits.visitWithin_eq`: over a table, a depth greater than the number of ids that are not being
  expanded is enough, and gives what the visit gives. So extraction is the plain recursion cut off at
  any depth beyond the number of different ids (`Graph.extractWithin_eq`).
* `Extraction.Calls` relates a visit to the visits it makes. Each of them has one more id in progress,
  so the relation is well founded (`Calls.wellFounded`), and from the root on the ids in progress are
  different ids of the table (`InProgress`).
-/

set_option autoImplicit false

namespace QueryShape

namespace ShapeTable

variable {κ : Type} [DecidableEq κ]

/-- How many different ids the table has. -/
def idCount (t : ShapeTable κ) : Nat := t.ids.toFinset.card

/-- How many of them are not being expanded. -/
def freeIds (t : ShapeTable κ) (active : List String) : Nat := (t.ids.toFinset \ active.toFinset).card

omit [DecidableEq κ] in
theorem freeIds_nil (t : ShapeTable κ) : t.freeIds [] = t.idCount := by
  simp [freeIds, idCount]

omit [DecidableEq κ] in
theorem freeIds_opened_lt {t : ShapeTable κ} {active : List String} {id : String} (hm : id ∈ t.ids)
    (hn : id ∉ active) : t.freeIds (active ++ [id]) < t.freeIds active := by
  apply Finset.card_lt_card
  rw [Finset.ssubset_iff_of_subset]
  · refine ⟨id, ?_, ?_⟩
    · simp [hm, hn]
    · simp
  · intro x hx
    simp only [Finset.mem_sdiff, List.mem_toFinset, List.mem_append, not_or] at hx ⊢
    exact ⟨hx.1, hx.2.1⟩

end ShapeTable

namespace Extraction

/-! ## The plain recursion -/

section
variable {κ : Type}

/-- What the visit of a shape comes to after its members; `st` is the state before it. -/
def conclude (st' st : Extraction) (s : Shape κ) :
    Except Failure (List Field × Bool) → Except Failure (Option Nat) × Extraction
  | .error e => (.error e, st'.closedAs st)
  | .ok (fields, isUnion) =>
    let done := (st'.closedAs st).finish s fields isUnion
    (.ok done.1, done.2)

/-- The fields of members, where `visit` visits the shapes inside and may give up. -/
def membersWithin (resolve : κ → Option (Shape κ))
    (visit : Shape κ → Extraction → Option (Except Failure (Option Nat) × Extraction)) (id : String) :
    List (Member κ) → Extraction → Option (Except Failure (List Field × Bool) × Extraction)
  | [], st => some (.ok ([], false), st)
  | m :: ms, st =>
    match m.head id with
    | .error e => some (.error e, st)
    | .ok h =>
      match m.type.shape?.bind resolve with
      | none =>
        (membersWithin resolve visit id ms (st.log (.resolvedField id h.name h.leafKind))).map
          fun (out, st') => (out.map (h.addTo h.leafKind), st')
      | some s =>
        match visit s st with
        | none => none
        | some (.error e, st₁) => some (.error e, st₁)
        | some (.ok k, st₁) =>
          (membersWithin resolve visit id ms
              (st₁.log (.resolvedField id h.name (h.shapeKind k)))).map
            fun (out, st') => (out.map (h.addTo (h.shapeKind k)), st')

/-- The visit of a shape with at most `depth` visits inside each other; nothing if these are not
enough. What a type refers to is described by `resolve`. -/
def visitWithin (resolve : κ → Option (Shape κ)) : (depth : Nat) → Shape κ → Extraction →
    Option (Except Failure (Option Nat) × Extraction)
  | 0, _, _ => none
  | depth + 1, s, st =>
    if s.id ∈ st.active then some (.error (.cycle (cycleAt st.active s.id)), st)
    else
      match OrderedMap.find? st.finished s.id with
      | some k => some (.ok k, st.reuse s.id k)
      | none =>
        (membersWithin resolve (visitWithin resolve depth) s.id s.members (st.opened s.id)).map
          fun (out, st') => st'.conclude st s out

end

section
variable {κ : Type} [DecidableEq κ] {t : ShapeTable κ}

mutual

theorem Visits.active_eq {st st' : Extraction} {s : Shape κ} {r : Except Failure (Option Nat)} :
    Visits t st s r st' → st'.active = st.active
  | .cycle _ => rfl
  | @Visits.reused _ _ _ _ _ k _ _ => active_reuse st s.id k
  | .failed .. => rfl
  | .expanded .. => active_finish _ s _ _

theorem VisitsMembers.active_eq {st st' : Extraction} {id : String} {ms : List (Member κ)}
    {out : Except Failure (List Field × Bool)} :
    VisitsMembers t st id ms out st' → st'.active = st.active
  | .nil => rfl
  | .headFails _ => rfl
  | .shapeFails _ _ hv => hv.active_eq
  | .leaf _ _ hm => hm.active_eq
  | .shape _ _ hv hm => hm.active_eq.trans hv.active_eq

end

mutual

/-- Each expansion leaves one id less, so with more depth than ids left the recursion is not cut off. -/
theorem Visits.visitWithin_eq {st st' : Extraction} {s : Shape κ} {r : Except Failure (Option Nat)} :
    Visits t st s r st' → s.id ∈ t.ids → ∀ {d : Nat}, t.freeIds st.active < d →
      visitWithin t.find? d s st = some (r, st')
  | .cycle ha, _, d, hd => by
    obtain ⟨d, rfl⟩ : ∃ n, d = n + 1 := ⟨d - 1, by omega⟩
    rw [visitWithin, if_pos ha]
  | .reused ha hf, _, d, hd => by
    obtain ⟨d, rfl⟩ : ∃ n, d = n + 1 := ⟨d - 1, by omega⟩
    rw [visitWithin, if_neg ha, hf]
  | .failed ha hf hm, hs, d, hd => by
    obtain ⟨d, rfl⟩ : ∃ n, d = n + 1 := ⟨d - 1, by omega⟩
    have hlt := ShapeTable.freeIds_opened_lt hs ha
    have hmem := hm.membersWithin_eq (d := d) (show t.freeIds (st.active ++ [s.id]) < d by omega)
    rw [visitWithin, if_neg ha, hf]
    dsimp only
    rw [hmem]
    rfl
  | .expanded ha hf hm, hs, d, hd => by
    obtain ⟨d, rfl⟩ : ∃ n, d = n + 1 := ⟨d - 1, by omega⟩
    have hlt := ShapeTable.freeIds_opened_lt hs ha
    have hmem := hm.membersWithin_eq (d := d) (show t.freeIds (st.active ++ [s.id]) < d by omega)
    rw [visitWithin, if_neg ha, hf]
    dsimp only
    rw [hmem]
    rfl

theorem VisitsMembers.membersWithin_eq {st st' : Extraction} {id : String} {ms : List (Member κ)}
    {out : Except Failure (List Field × Bool)} :
    VisitsMembers t st id ms out st' → ∀ {d : Nat}, t.freeIds st.active < d →
      membersWithin t.find? (visitWithin t.find? d) id ms st = some (out, st')
  | .nil, _, _ => rfl
  | .headFails hh, _, _ => by
    rw [membersWithin, hh]
  | .shapeFails hh hs hv, d, hd => by
    have hvisit := hv.visitWithin_eq (ShapeTable.id_mem_ids_of_shapeOf? hs) hd
    have hs' := hs
    unfold ShapeTable.shapeOf? at hs'
    simp only [membersWithin, hh, hs', hvisit]
  | .leaf hh hs hm, d, hd => by
    have hrest := hm.membersWithin_eq (d := d) hd
    unfold ShapeTable.shapeOf? at hs
    simp only [membersWithin, hh, hs, hrest, Option.map_some]
  | .shape hh hs hv hm, d, hd => by
    have hvisit := hv.visitWithin_eq (ShapeTable.id_mem_ids_of_shapeOf? hs) hd
    have hrest := hm.membersWithin_eq (d := d) (by
      show t.freeIds _ < d
      rw [log, hv.active_eq]
      exact hd)
    have hs' := hs
    unfold ShapeTable.shapeOf? at hs'
    simp only [membersWithin, hh, hs', hvisit, hrest, Option.map_some]

end

end

end Extraction

/-- The extraction as a plain recursion, cut off at a depth. -/
def Graph.extractWithin {κ : Type} (resolve : κ → Option (Shape κ)) (depth : Nat) (root : κ) :
    Option (Except Failure Graph) :=
  match resolve root with
  | none => some (.ok {})
  | some s =>
    (Extraction.visitWithin resolve depth s {}).map fun (r, st) => r.map fun k => ⟨st.nodes, k⟩

/-- Over a table the recursion is not cut off at a depth beyond the number of different ids. -/
theorem Graph.extractWithin_eq {κ : Type} [DecidableEq κ] (t : ShapeTable κ) (root : κ) {d : Nat}
    (hd : t.idCount < d) : Graph.extractWithin t.find? d root = some (Graph.extract t root) := by
  unfold Graph.extractWithin
  cases hf : t.find? root with
  | none =>
    dsimp only
    rw [Extraction.extract_missing hf]
  | some s =>
    obtain ⟨r, st, hv, he⟩ := Extraction.extract_eq hf
    have hfree : t.freeIds ({} : Extraction).active < d := by
      rw [t.freeIds_nil]
      exact hd
    have hvisit := hv.visitWithin_eq (ShapeTable.id_mem_ids_of_find? hf) hfree
    dsimp only
    rw [hvisit, he, Option.map_some]

namespace Extraction

/-! ## The visits that a visit makes -/

section
variable {κ : Type} [DecidableEq κ]

/-- A visit that is about to start. -/
structure Call (κ : Type) where
  shape : Shape κ
  state : Extraction

/-- The first visit of an extraction. -/
def Call.initial (s : Shape κ) : Call κ := ⟨s, {}⟩

/-- The shape is expanded, and not found in the state. -/
structure Call.Expands (c : Call κ) : Prop where
  notActive : c.shape.id ∉ c.state.active
  notFinished : OrderedMap.find? c.state.finished c.shape.id = none

/-- Visit `c` makes visit `c'`: it has gone through some members, and the type of the next one leads
to the shape of `c'`. -/
inductive Calls (t : ShapeTable κ) (c : Call κ) : Call κ → Prop
  | member {before after : List (Member κ)} {m : Member κ} {fields : List Field × Bool}
      {st : Extraction} {h : FieldHead} {s : Shape κ} : c.Expands →
      c.shape.members = before ++ m :: after →
      VisitsMembers t (c.state.opened c.shape.id) c.shape.id before (.ok fields) st →
      m.head c.shape.id = .ok h → t.shapeOf? m.type = some s → Calls t c ⟨s, st⟩

variable {t : ShapeTable κ} {c c' : Call κ}

/-- The visit has the id of the other one in progress, too. -/
theorem Calls.active_eq (h : Calls t c c') :
    c'.state.active = c.state.active ++ [c.shape.id] := by
  obtain ⟨_, _, hm, _, _⟩ := h
  exact hm.active_eq

theorem Calls.id_mem (h : Calls t c c') : c'.shape.id ∈ t.ids := by
  obtain ⟨_, _, _, _, hs⟩ := h
  exact ShapeTable.id_mem_ids_of_shapeOf? hs

theorem Calls.expands (h : Calls t c c') : c.Expands := by
  obtain ⟨he, _, _, _, _⟩ := h
  exact he

/-- Only the first visit can be of a shape that is not in the table. Each other one leaves less ids. -/
theorem Calls.wellFounded (t : ShapeTable κ) : WellFounded fun c' c : Call κ => Calls t c c' := by
  have hacc : ∀ n, ∀ c : Call κ, c.shape.id ∈ t.ids → t.freeIds c.state.active < n →
      Acc (fun c' c : Call κ => Calls t c c') c := by
    intro n
    induction n with
    | zero =>
      intro c _ hlt
      omega
    | succ n ih =>
      intro c hm hlt
      refine ⟨c, fun c' hc => ih c' hc.id_mem ?_⟩
      rw [hc.active_eq]
      have := ShapeTable.freeIds_opened_lt hm hc.expands.notActive
      omega
  refine ⟨fun c => ⟨c, fun c' hc => ?_⟩⟩
  exact hacc _ c' hc.id_mem (Nat.lt_succ_self _)

/-- Different ids of the table. -/
structure InProgress (t : ShapeTable κ) (active : List String) : Prop where
  nodup : active.Nodup
  known : ∀ id ∈ active, id ∈ t.ids

namespace InProgress

variable {active : List String}

omit [DecidableEq κ] in
theorem nil (t : ShapeTable κ) : InProgress t [] :=
  ⟨List.nodup_nil, fun _ h => (List.not_mem_nil h).elim⟩

omit [DecidableEq κ] in
theorem opened (h : InProgress t active) {id : String} (hn : id ∉ active) (hm : id ∈ t.ids) :
    InProgress t (active ++ [id]) := by
  refine ⟨h.nodup.append (List.nodup_singleton id) (List.disjoint_singleton.2 hn), ?_⟩
  intro id' hid'
  rcases List.mem_append.1 hid' with hid' | hid'
  · exact h.known id' hid'
  · rw [List.mem_singleton.1 hid']
    exact hm

omit [DecidableEq κ] in
theorem length_le (h : InProgress t active) : active.length ≤ t.idCount := by
  rw [← List.toFinset_card_of_nodup h.nodup]
  apply Finset.card_le_card
  intro id hid
  rw [List.mem_toFinset] at hid ⊢
  exact h.known id hid

end InProgress

/-- What is known of every visit that an extraction makes. -/
theorem InProgress.of_calls {s : Shape κ} (hs : s.id ∈ t.ids)
    (h : Relation.ReflTransGen (Calls t) (.initial s) c) :
    InProgress t c.state.active ∧ c.shape.id ∈ t.ids := by
  induction h with
  | refl => exact ⟨.nil t, hs⟩
  | tail _ hc ih =>
    rw [hc.active_eq]
    exact ⟨ih.1.opened hc.expands.notActive ih.2, hc.id_mem⟩

end

end Extraction

end QueryShape
