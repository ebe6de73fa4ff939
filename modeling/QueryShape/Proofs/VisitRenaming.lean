import QueryShape.Proofs.VisitDepth

/-!
# Extraction and ids

Extraction compares ids with each other and writes them down, and has no other use for them. So two
descriptions of shapes that are the same but for an injective renaming of ids (`Renaming`) have
extractions that are the same but for it: `Graph.extractWithin_renamed` for the recursion that is cut
off at a depth, and `Graph.extract_renamed` for tables. The keys of the two descriptions need not be
the same; `K` says which of them correspond.
-/

set_option autoImplicit false

namespace QueryShape

/-- The failure of an extraction with other ids. -/
def Failure.mapIds (σ : String → String) : Failure → Failure
  | malformedTag shape field e => malformedTag (σ shape) field e
  | cycle ids => cycle (ids.map σ)
  | aliasedDiscriminator shape field => aliasedDiscriminator (σ shape) field
  | e => e

def Node.mapId (σ : String → String) (n : Node) : Node := { n with id := σ n.id }

def Graph.mapIds (σ : String → String) (g : Graph) : Graph := ⟨g.nodes.map (Node.mapId σ), g.root⟩

theorem Failure.mapIds_id (e : Failure) : e.mapIds id = e := by
  cases e with
  | cycle ids => rw [mapIds, List.map_id]
  | _ => rfl

theorem Graph.mapIds_id (g : Graph) : g.mapIds id = g := by
  have hnode : Node.mapId id = id := rfl
  rw [mapIds, hnode, Array.map_id]

section
variable {κ κ' : Type}

/-- Members that differ only in the keys of their types, which correspond. -/
structure Member.Corresponds (K : κ → κ' → Prop) (m : Member κ) (m' : Member κ') : Prop where
  ident : m'.ident = m.ident
  tag : m'.tag = m.tag
  fallbackName : m'.fallbackName = m.fallbackName
  embedded : m'.embedded = m.embedded
  type : Option.Rel K m.type.shape? m'.type.shape?

structure Shape.Corresponds (σ : String → String) (K : κ → κ' → Prop) (s : Shape κ) (s' : Shape κ') :
    Prop where
  id : s'.id = σ s.id
  name : s'.name = s.name
  members : List.Forall₂ (Member.Corresponds K) s.members s'.members

/-- Corresponding keys lead to shapes that are the same but for their ids. -/
structure Renaming (resolve : κ → Option (Shape κ)) (resolve' : κ' → Option (Shape κ'))
    (σ : String → String) (K : κ → κ' → Prop) : Prop where
  injective : Function.Injective σ
  shapes : ∀ key key', K key key' → Option.Rel (Shape.Corresponds σ K) (resolve key) (resolve' key')

theorem Member.Corresponds.head_eq {K : κ → κ' → Prop} {m : Member κ} {m' : Member κ'}
    (h : m.Corresponds K m') (σ : String → String) (id : String) :
    m'.head (σ id) = (m.head id).mapError (Failure.mapIds σ) := by
  have hread : m'.readTag (σ id) = (m.readTag id).mapError (Failure.mapIds σ) := by
    unfold Member.readTag
    rw [h.tag, h.ident]
    cases m.tag with
    | none => rfl
    | some tag =>
      dsimp only
      cases Annotation.read tag <;> rfl
  have hname : ∀ a, m'.fieldName (σ id) a = (m.fieldName id a).mapError (Failure.mapIds σ) := by
    intro a
    cases a with
    | none =>
      simp only [Member.fieldName, h.fallbackName, h.ident]
      rfl
    | some a =>
      simp only [Member.fieldName, h.ident]
      generalize a.alias?.filter (· ≠ "") = other
      generalize (a.isUnion && _) = discriminator
      cases other <;> cases discriminator <;> rfl
  have hinline : ∀ a, m'.isInline a = m.isInline a := by
    intro a
    rw [Member.isInline, Member.isInline, h.embedded]
  unfold Member.head
  rw [hread]
  cases m.readTag id with
  | error e => rfl
  | ok a =>
    simp only [Except.mapError, hname, hinline]
    cases m.fieldName id a <;> rfl

end

theorem OrderedMap.find?_mapKeys {α : Type} {σ : String → String} (hσ : Function.Injective σ)
    (m : OrderedMap String α) (id : String) :
    find? (m.map fun e => (σ e.1, e.2)) (σ id) = find? m id := by
  induction m with
  | nil => rfl
  | cons e m ih =>
    rw [List.map_cons, find?, find?, ih]
    by_cases h : e.1 = id
    · rw [if_pos h, if_pos (congrArg σ h)]
    · rw [if_neg h, if_neg fun he => h (hσ he)]

namespace Extraction

/-! ## States -/

/-- The states are the same but for ids and events. -/
structure Renamed (σ : String → String) (st st' : Extraction) : Prop where
  active : st'.active = st.active.map σ
  nodes : st'.nodes = st.nodes.map (Node.mapId σ)
  finished : st'.finished = st.finished.map fun e => (σ e.1, e.2)

theorem cycleAt_map {σ : String → String} (hσ : Function.Injective σ) (active : List String)
    (id : String) : cycleAt (active.map σ) (σ id) = (cycleAt active id).map σ := by
  have hne : (fun x => decide (x ≠ σ id)) ∘ σ = fun x => decide (x ≠ id) := by
    funext x
    simp [hσ.eq_iff]
  rw [cycleAt, cycleAt, List.map_append, List.dropWhile_map, hne]
  rfl

namespace Renamed

variable {σ : String → String} {st st' : Extraction}

theorem initial (σ : String → String) : Renamed σ {} {} := ⟨rfl, Array.map_empty.symm, rfl⟩

theorem log (h : Renamed σ st st') (e e' : Event) : Renamed σ (st.log e) (st'.log e') :=
  ⟨h.active, h.nodes, h.finished⟩

theorem mem_active (hσ : Function.Injective σ) (h : Renamed σ st st') (id : String) :
    σ id ∈ st'.active ↔ id ∈ st.active := by
  rw [h.active]
  exact List.mem_map_of_injective hσ

theorem find?_finished (hσ : Function.Injective σ) (h : Renamed σ st st') (id : String) :
    OrderedMap.find? st'.finished (σ id) = OrderedMap.find? st.finished id := by
  rw [h.finished]
  exact OrderedMap.find?_mapKeys hσ st.finished id

theorem opened (h : Renamed σ st st') (id : String) : Renamed σ (st.opened id) (st'.opened (σ id)) := by
  refine ⟨?_, h.nodes, h.finished⟩
  show st'.active ++ [σ id] = (st.active ++ [id]).map σ
  rw [h.active, List.map_append]
  rfl

theorem closedAs {st₁ st₁' : Extraction} (h : Renamed σ st st') (h₁ : Renamed σ st₁ st₁') :
    Renamed σ (st₁.closedAs st) (st₁'.closedAs st') :=
  ⟨h.active, h₁.nodes, h₁.finished⟩

theorem reuse (h : Renamed σ st st') (id id' : String) (k : Option Nat) :
    Renamed σ (st.reuse id k) (st'.reuse id' k) := by
  cases k with
  | none => exact h
  | some k =>
    refine ⟨h.active, ?_, h.finished⟩
    apply Array.ext_getElem?
    intro i
    simp only [Extraction.reuse, Extraction.log, h.nodes, Array.getElem?_modify, Array.getElem?_map]
    split
    · cases st.nodes[i]? <;> rfl
    · rfl

theorem finish {κ κ' : Type} {K : κ → κ' → Prop} {s : Shape κ} {s' : Shape κ'}
    (h : Renamed σ st st') (hs : s.Corresponds σ K s') (fields : List Field) (isUnion : Bool) :
    (st'.finish s' fields isUnion).1 = (st.finish s fields isUnion).1 ∧
      Renamed σ (st.finish s fields isUnion).2 (st'.finish s' fields isUnion).2 := by
  unfold Extraction.finish
  split
  · refine ⟨rfl, h.active, h.nodes, ?_⟩
    show (s'.id, none) :: st'.finished = _
    rw [hs.id, h.finished]
    rfl
  · have hsize : st'.nodes.size = st.nodes.size := by rw [h.nodes, Array.size_map]
    refine ⟨congrArg some hsize, h.active, ?_, ?_⟩
    · show st'.nodes.push _ = (st.nodes.push _).map (Node.mapId σ)
      rw [Array.map_push, ← h.nodes, hs.id, hs.name]
      rfl
    · show (s'.id, some st'.nodes.size) :: st'.finished = _
      rw [hs.id, hsize, h.finished]
      rfl

end Renamed

/-! ## Runs -/

/-- The outcomes are the same but for ids and events. -/
structure SameOutcome {α : Type} (σ : String → String) (out out' : Except Failure α × Extraction) :
    Prop where
  result : out'.1 = out.1.mapError (Failure.mapIds σ)
  state : Renamed σ out.2 out'.2

theorem SameOutcome.map {α β : Type} {σ : String → String} {out out' : Except Failure α × Extraction}
    (h : SameOutcome σ out out') (f : α → β) :
    SameOutcome σ (out.1.map f, out.2) (out'.1.map f, out'.2) := by
  refine ⟨?_, h.state⟩
  dsimp only
  rw [h.result]
  cases out.1 <;> rfl

theorem rel_map {α β α' β' : Type} {R : α → β → Prop} {R' : α' → β' → Prop} {f : α → α'} {g : β → β'}
    {x : Option α} {y : Option β} (h : Option.Rel R x y) (hf : ∀ a b, R a b → R' (f a) (g b)) :
    Option.Rel R' (x.map f) (y.map g) := by
  cases h with
  | some h => exact .some (hf _ _ h)
  | none => exact .none

section
variable {κ κ' : Type} {resolve : κ → Option (Shape κ)} {resolve' : κ' → Option (Shape κ')}
  {σ : String → String} {K : κ → κ' → Prop}

theorem conclude_renamed {s : Shape κ} {s' : Shape κ'} {st st' : Extraction}
    (hs : s.Corresponds σ K s') (h : Renamed σ st st')
    {out out' : Except Failure (List Field × Bool) × Extraction} (ho : SameOutcome σ out out') :
    SameOutcome σ (out.2.conclude st s out.1) (out'.2.conclude st' s' out'.1) := by
  obtain ⟨r, st₁⟩ := out
  obtain ⟨r', st₁'⟩ := out'
  obtain ⟨rfl, hst⟩ := ho
  have hclosed := h.closedAs hst
  cases r with
  | error e => exact ⟨rfl, hclosed⟩
  | ok fields =>
    obtain ⟨hk, hdone⟩ := hclosed.finish hs fields.1 fields.2
    exact ⟨congrArg Except.ok hk, hdone⟩

theorem rel_bind_resolve (hr : Renaming resolve resolve' σ K) {m : Member κ} {m' : Member κ'}
    (hm : m.Corresponds K m') : Option.Rel (Shape.Corresponds σ K) (m.type.shape?.bind resolve)
      (m'.type.shape?.bind resolve') := by
  have htype := hm.type
  revert htype
  generalize m.type.shape? = key
  generalize m'.type.shape? = key'
  intro htype
  cases htype with
  | some hk => exact hr.shapes _ _ hk
  | none => exact .none

theorem membersWithin_renamed (hr : Renaming resolve resolve' σ K)
    {visit : Shape κ → Extraction → Option (Except Failure (Option Nat) × Extraction)}
    {visit' : Shape κ' → Extraction → Option (Except Failure (Option Nat) × Extraction)}
    (hvisit : ∀ s s' st st', s.Corresponds σ K s' → Renamed σ st st' →
      Option.Rel (SameOutcome σ) (visit s st) (visit' s' st')) (id : String)
    {ms : List (Member κ)} {ms' : List (Member κ')} (hms : List.Forall₂ (Member.Corresponds K) ms ms')
    {st st' : Extraction} (h : Renamed σ st st') :
    Option.Rel (SameOutcome σ) (membersWithin resolve visit id ms st)
      (membersWithin resolve' visit' (σ id) ms' st') := by
  induction hms generalizing st st' with
  | nil => exact .some ⟨rfl, h⟩
  | @cons m m' ms ms' hm _ ih =>
    rw [membersWithin, membersWithin, hm.head_eq σ id]
    cases m.head id with
    | error e => exact .some ⟨rfl, h⟩
    | ok head =>
      simp only [Except.mapError]
      have hshape := rel_bind_resolve hr hm
      revert hshape
      generalize m.type.shape?.bind resolve = s
      generalize m'.type.shape?.bind resolve' = s'
      intro hshape
      cases hshape with
      | none => exact rel_map (ih (h.log _ _)) fun _ _ ho => ho.map _
      | some hs =>
        dsimp only
        have hnested := hvisit _ _ st st' hs h
        revert hnested
        generalize visit _ st = out
        generalize visit' _ st' = out'
        intro hnested
        cases hnested with
        | none => exact .none
        | @some out out' ho =>
          obtain ⟨r, st₁⟩ := out
          obtain ⟨r', st₁'⟩ := out'
          obtain ⟨rfl, hst⟩ := ho
          cases r with
          | error e => exact .some ⟨rfl, hst⟩
          | ok k => exact rel_map (ih (hst.log _ _)) fun _ _ ho => ho.map _

/-- The visits of corresponding shapes go the same way. -/
theorem visitWithin_renamed (hr : Renaming resolve resolve' σ K) (d : Nat) (s : Shape κ) (s' : Shape κ')
    (st st' : Extraction) (hs : s.Corresponds σ K s') (h : Renamed σ st st') :
    Option.Rel (SameOutcome σ) (visitWithin resolve d s st) (visitWithin resolve' d s' st') := by
  induction d generalizing s s' st st' with
  | zero => exact .none
  | succ d ih =>
    rw [visitWithin, visitWithin, hs.id, h.find?_finished hr.injective]
    by_cases ha : s.id ∈ st.active
    · rw [if_pos ha, if_pos ((h.mem_active hr.injective s.id).2 ha), h.active,
        cycleAt_map hr.injective]
      exact .some ⟨rfl, h⟩
    · rw [if_neg ha, if_neg fun hm => ha ((h.mem_active hr.injective s.id).1 hm)]
      cases OrderedMap.find? st.finished s.id with
      | some k => exact .some ⟨rfl, h.reuse s.id (σ s.id) k⟩
      | none =>
        have hms := membersWithin_renamed hr ih s.id hs.members (h.opened s.id)
        exact rel_map hms fun _ _ ho => conclude_renamed hs h ho

end

end Extraction

section
variable {κ κ' : Type} {σ : String → String} {K : κ → κ' → Prop}

/-- The result of an extraction with other ids. -/
def renamedResult (σ : String → String) (r : Except Failure Graph) : Except Failure Graph :=
  (r.map (Graph.mapIds σ)).mapError (Failure.mapIds σ)

theorem renamedResult_id (r : Except Failure Graph) : renamedResult id r = r := by
  cases r with
  | error e => exact congrArg Except.error e.mapIds_id
  | ok g => exact congrArg Except.ok g.mapIds_id

theorem Graph.extractWithin_renamed {resolve : κ → Option (Shape κ)}
    {resolve' : κ' → Option (Shape κ')} (hr : Renaming resolve resolve' σ K) {root : κ} {root' : κ'}
    (hk : K root root') (d : Nat) :
    Graph.extractWithin resolve' d root' = (Graph.extractWithin resolve d root).map (renamedResult σ) := by
  have hroot := hr.shapes root root' hk
  unfold Graph.extractWithin
  revert hroot
  generalize resolve root = s
  generalize resolve' root' = s'
  intro hroot
  cases hroot with
  | none =>
    show some (Except.ok {}) = some (renamedResult σ (.ok {}))
    simp [renamedResult, Except.map, Except.mapError, Graph.mapIds]
  | @some s s' hs =>
    have hvisit := Extraction.visitWithin_renamed hr d s s' {} {} hs (.initial σ)
    dsimp only
    revert hvisit
    generalize Extraction.visitWithin resolve d s {} = out
    generalize Extraction.visitWithin resolve' d s' {} = out'
    intro hvisit
    cases hvisit with
    | none => rfl
    | @some out out' ho =>
      obtain ⟨r, st⟩ := out
      obtain ⟨r', st'⟩ := out'
      obtain ⟨rfl, hst⟩ := ho
      rw [Option.map_some, Option.map_some, Option.map_some]
      cases r with
      | error e => rfl
      | ok k =>
        have hnodes : st'.nodes = st.nodes.map (Node.mapId σ) := hst.nodes
        simp only [renamedResult, Except.map, Except.mapError, Graph.mapIds, hnodes]

/-- Tables that are the same but for ids have extractions that are. -/
theorem Graph.extract_renamed [DecidableEq κ] [DecidableEq κ'] {t : ShapeTable κ} {t' : ShapeTable κ'}
    (hr : Renaming t.find? t'.find? σ K) {root : κ} {root' : κ'} (hk : K root root') :
    Graph.extract t' root' = renamedResult σ (Graph.extract t root) := by
  have h := Graph.extractWithin_renamed hr hk (max t.idCount t'.idCount + 1)
  rw [Graph.extractWithin_eq t root (by omega), Graph.extractWithin_eq t' root' (by omega)] at h
  exact Option.some.inj h

end

end QueryShape
