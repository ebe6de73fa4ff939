import Mathlib
import QueryShape.Proofs.PlainExpansion

/-!
# Cycles of shapes

An extraction reports a cycle just where a shape below the root refers back to itself, and the ids it
reports are such a cycle (`cycle_reported_iff`).

* `Visits.isCycle_or_headError`: the ids being expanded are a path of references to the shape that is
  visited (`OnPath`), so an id that is met on the path closes a cycle.
* `ShapeTable.not_transGen_of_expand`: a shape with a finite expansion does not refer back to itself.
  After a successful extraction every shape below the root has one, whatever was found in the cache.
-/

set_option autoImplicit false

namespace QueryShape

namespace ShapeTable

variable {κ : Type} [DecidableEq κ]

/-- A member of `s` has a type that leads to `s'`, inside all wrappers. -/
def Refers (t : ShapeTable κ) (s s' : Shape κ) : Prop :=
  ∃ m ∈ s.members, t.shapeOf? m.type = some s'

def ReachableFrom (t : ShapeTable κ) (root : κ) (s : Shape κ) : Prop :=
  ∃ top, t.find? root = some top ∧ Relation.ReflTransGen t.Refers top s

/-- All annotations below the root can be read, and none gives a discriminator another name. -/
def Readable (t : ShapeTable κ) (root : κ) : Prop :=
  ∀ s, t.ReachableFrom root s → ∀ m ∈ s.members, ∃ head, m.head s.id = .ok head

/-- A shape below the root that has the one id refers to a shape that has the other. -/
def IdRefers (t : ShapeTable κ) (root : κ) (id id' : String) : Prop :=
  ∃ s s', t.ReachableFrom root s ∧ t.Refers s s' ∧ s.id = id ∧ s'.id = id'

/-- The ids go along references from a shape below the root and come back to it once. -/
structure IsCycle (t : ShapeTable κ) (root : κ) (ids : List String) : Prop where
  two_le : 2 ≤ ids.length
  closed : ids.head? = ids.getLast?
  distinct : ids.dropLast.Nodup
  refers : ids.IsChain (t.IdRefers root)
  reachable : ∃ s, t.ReachableFrom root s ∧ ids.head? = some s.id

variable {t : ShapeTable κ} {root : κ}

theorem ReachableFrom.step {s s' : Shape κ} (h : t.ReachableFrom root s) (hr : t.Refers s s') :
    t.ReachableFrom root s' := by
  obtain ⟨top, htop, hs⟩ := h
  exact ⟨top, htop, hs.tail hr⟩

theorem Refers.has {s s' : Shape κ} (h : t.Refers s s') : t.Has s' := by
  obtain ⟨m, -, hm⟩ := h
  exact has_of_shapeOf? hm

theorem ReachableFrom.has {s : Shape κ} (h : t.ReachableFrom root s) : t.Has s := by
  obtain ⟨top, htop, hs⟩ := h
  cases hs with
  | refl => exact ⟨root, htop⟩
  | tail _ hr => exact hr.has

/-- It is enough to read the annotations of the entries. -/
theorem readable_of_entries
    (h : ∀ e ∈ t.entries, ∀ m ∈ e.2.members, ∃ head, m.head e.2.id = .ok head) :
    t.Readable root := by
  intro s hs
  obtain ⟨key, hk⟩ := hs.has
  exact h _ (OrderedMap.mem_of_find? hk)

/-- A chain of ids is a path of shapes where an id stands for one shape. -/
theorem transGen_of_isChain (ht : t.Coherent) {ids : List String} {s : Shape κ} {last : String}
    (hs : t.Has s) (hc : (s.id :: (ids ++ [last])).IsChain (t.IdRefers root)) :
    ∃ s', t.Has s' ∧ s'.id = last ∧ Relation.TransGen t.Refers s s' := by
  induction ids generalizing s with
  | nil =>
    obtain ⟨s₁, s', h₁, hr, hid, hid'⟩ := hc.rel
    obtain rfl := ht.eq h₁.has hs hid
    exact ⟨s', hr.has, hid', .single hr⟩
  | cons id ids ih =>
    obtain ⟨s₁, s₂, h₁, hr, hid, rfl⟩ := hc.rel
    obtain rfl := ht.eq h₁.has hs hid
    obtain ⟨s', hs', hlast, hpath⟩ := ih hr.has hc.tail
    exact ⟨s', hs', hlast, .head hr hpath⟩

/-- A cycle of ids is a shape that reaches itself. -/
theorem IsCycle.transGen (ht : t.Coherent) {ids : List String} (h : t.IsCycle root ids) :
    ∃ s, t.ReachableFrom root s ∧ Relation.TransGen t.Refers s s := by
  obtain ⟨s, hs, hhead⟩ := h.reachable
  obtain ⟨tail, rfl⟩ : ∃ tail, ids = s.id :: tail := by
    cases ids with
    | nil => cases hhead
    | cons id tail =>
      cases hhead
      exact ⟨tail, rfl⟩
  have hne : tail ≠ [] := by
    rintro rfl
    exact absurd h.two_le (by simp)
  have hlast : tail.getLast hne = s.id := by
    have hc := h.closed
    rw [List.head?_cons, List.getLast?_cons, List.getLast?_eq_getLast_of_ne_nil hne] at hc
    exact (Option.some.inj hc).symm
  have hc := h.refers
  rw [← List.dropLast_append_getLast hne, hlast] at hc
  obtain ⟨s', hs', hid, hpath⟩ := transGen_of_isChain ht hs.has hc
  obtain rfl := ht.eq hs' hs.has hid
  exact ⟨s', hs, hpath⟩

/-! ## Finite expansions -/

theorem expand_of_expandMembers {e : Shape κ → Option (Option ShapeTree)} {id : String}
    {ms : List (Member κ)} {out : List FieldTree × Bool} {m : Member κ} {s : Shape κ}
    (h : t.expandMembers e id ms = some out) (hm : m ∈ ms) (hs : t.shapeOf? m.type = some s) :
    ∃ r, e s = some r := by
  induction ms generalizing out with
  | nil => cases hm
  | cons m' ms ih =>
    simp only [expandMembers] at h
    split at h
    · cases h
    · obtain ⟨kind, hk, h⟩ := Option.bind_eq_some_iff.1 h
      obtain ⟨rest, hr, -⟩ := Option.map_eq_some_iff.1 h
      rcases List.mem_cons.1 hm with rfl | hm
      · simp only [expandKind, hs] at hk
        obtain ⟨r, hr, -⟩ := Option.map_eq_some_iff.1 hk
        exact ⟨r, hr⟩
      · exact ih hr hm

theorem expand_of_refers {d : Nat} {s s' : Shape κ} {r : Option ShapeTree}
    (h : t.expand d s = some r) (hr : t.Refers s s') : ∃ d' < d, ∃ r', t.expand d' s' = some r' := by
  obtain ⟨m, hm, hs⟩ := hr
  cases d with
  | zero => cases h
  | succ d =>
    rw [expand] at h
    obtain ⟨fields, hf, -⟩ := Option.map_eq_some_iff.1 h
    obtain ⟨r', hr'⟩ := expand_of_expandMembers hf hm hs
    exact ⟨d, Nat.lt_succ_self d, r', hr'⟩

theorem expand_of_transGen {d : Nat} {s s' : Shape κ} {r : Option ShapeTree}
    (h : t.expand d s = some r) (hp : Relation.TransGen t.Refers s s') :
    ∃ d' < d, ∃ r', t.expand d' s' = some r' := by
  induction hp with
  | single hr => exact expand_of_refers h hr
  | tail _ hr ih =>
    obtain ⟨d₁, hd₁, r₁, h₁⟩ := ih
    obtain ⟨d₂, hd₂, r₂, h₂⟩ := expand_of_refers h₁ hr
    exact ⟨d₂, Nat.lt_trans hd₂ hd₁, r₂, h₂⟩

/-- Each reference goes to a shape of smaller depth. -/
theorem not_transGen_of_expand {d : Nat} {s : Shape κ} {r : Option ShapeTree}
    (h : t.expand d s = some r) : ¬ Relation.TransGen t.Refers s s := by
  induction d using Nat.strongRecOn generalizing r with
  | _ d ih =>
    intro hp
    obtain ⟨d', hd', r', h'⟩ := expand_of_transGen h hp
    exact ih d' hd' h' hp

theorem ReachableFrom.not_transGen {top s : Shape κ} {d : Nat} {r : Option ShapeTree}
    (h : t.ReachableFrom root s) (htop : t.find? root = some top) (hx : t.expand d top = some r) :
    ¬ Relation.TransGen t.Refers s s := by
  obtain ⟨top', htop', hp⟩ := h
  cases htop.symm.trans htop'
  rcases Relation.reflTransGen_iff_eq_or_transGen.1 hp with rfl | hp
  · exact not_transGen_of_expand hx
  · obtain ⟨d', -, r', h'⟩ := expand_of_transGen hx hp
    exact not_transGen_of_expand h'

end ShapeTable

/-! ## The path of an extraction -/

namespace Extraction

variable {κ : Type} [DecidableEq κ] {t : ShapeTable κ} {root : κ}

/-- The ids being expanded are distinct and lead to the shape. -/
structure OnPath (t : ShapeTable κ) (root : κ) (active : List String) (s : Shape κ) : Prop where
  reachable : t.ReachableFrom root s
  nodup : active.Nodup
  refers : (active ++ [s.id]).IsChain (t.IdRefers root)

theorem OnPath.start {top : Shape κ} (h : t.find? root = some top) : OnPath t root [] top :=
  ⟨⟨top, h, .refl⟩, List.nodup_nil, List.isChain_singleton _⟩

theorem OnPath.step {active : List String} {s s' : Shape κ} (h : OnPath t root active s)
    (hn : s.id ∉ active) (hr : t.Refers s s') : OnPath t root (active ++ [s.id]) s' := by
  refine ⟨h.reachable.step hr, ?_, List.isChain_append.2 ⟨h.refers, List.isChain_singleton _, ?_⟩⟩
  · exact h.nodup.append (List.nodup_singleton _) (List.disjoint_singleton.2 hn)
  · intro a ha b hb
    rw [List.getLast?_concat] at ha
    cases ha
    cases hb
    exact ⟨s, s', h.reachable, hr, rfl, rfl⟩

/-- An id that is met again on the path closes a cycle. -/
theorem OnPath.isCycle {active : List String} {s : Shape κ} (h : OnPath t root active s)
    (hm : s.id ∈ active) : t.IsCycle root (cycleAt active s.id) := by
  have hsuffix : active.dropWhile (· ≠ s.id) <:+ active := List.dropWhile_suffix _
  obtain ⟨tail, htail⟩ : ∃ tail, active.dropWhile (· ≠ s.id) = s.id :: tail := by
    cases hd : active.dropWhile (· ≠ s.id) with
    | nil =>
      have := List.dropWhile_eq_nil_iff.1 hd s.id hm
      simp at this
    | cons id tail =>
      have hid := List.head?_dropWhile_not (p := (· ≠ s.id)) (l := active)
      rw [hd] at hid
      simp at hid
      exact ⟨tail, by rw [hid]⟩
  rw [cycleAt]
  refine ⟨?_, ?_, ?_, ?_, s, h.reachable, ?_⟩
  · rw [htail]
    simp
  · rw [htail, List.getLast?_concat]
    rfl
  · rw [List.dropLast_concat]
    exact h.nodup.sublist hsuffix.sublist
  · obtain ⟨before, hbefore⟩ := hsuffix
    refine h.refers.suffix ⟨before, ?_⟩
    rw [← List.append_assoc, hbefore]
  · rw [htail]
    rfl

/-- A shape below the root has a member whose annotation gives this error. -/
def HeadError (t : ShapeTable κ) (root : κ) (e : Failure) : Prop :=
  ∃ s, t.ReachableFrom root s ∧ ∃ m ∈ s.members, m.head s.id = .error e

mutual

/-- A visit fails at a cycle or at an annotation. -/
theorem Visits.isCycle_or_headError {st st' : Extraction} {s : Shape κ}
    {r : Except Failure (Option Nat)} : Visits t st s r st' → Inv st → OnPath t root st.active s →
      ∀ e, r = .error e → (∃ ids, e = .cycle ids ∧ t.IsCycle root ids) ∨ HeadError t root e
  | .cycle hm, _, hp, _, he => by
    cases he
    exact .inl ⟨_, rfl, hp.isCycle hm⟩
  | .reused .., _, _, _, he => by cases he
  | .failed hn hf hm, h, hp, _, he => by
    cases he
    refine hm.isCycle_or_headError (h.opened hf) (fun m hms e hh => ?_) (fun m hms s' hs => ?_) _ rfl
    · exact ⟨s, hp.reachable, m, hms, hh⟩
    · exact hp.step hn ⟨m, hms, hs⟩
  | .expanded .., _, _, _, he => by cases he

theorem VisitsMembers.isCycle_or_headError {st st' : Extraction} {id : String}
    {ms : List (Member κ)} {out : Except Failure (List Field × Bool)} :
    VisitsMembers t st id ms out st' → Inv st →
      (∀ m ∈ ms, ∀ e, m.head id = .error e → HeadError t root e) →
      (∀ m ∈ ms, ∀ s, t.shapeOf? m.type = some s → OnPath t root st.active s) →
      ∀ e, out = .error e → (∃ ids, e = .cycle ids ∧ t.IsCycle root ids) ∨ HeadError t root e
  | .nil, _, _, _, _, he => by cases he
  | .headFails hh, _, hhead, _, _, he => by
    cases he
    exact .inr (hhead _ List.mem_cons_self _ hh)
  | .shapeFails _ hs hv, h, _, hp, _, he => by
    cases he
    exact hv.isCycle_or_headError h (hp _ List.mem_cons_self _ hs) _ rfl
  | @VisitsMembers.leaf _ _ _ _ _ _ _ _ _ out _ _ hm, h, hhead, hp, _, he => by
    have hrest := hm.isCycle_or_headError (h.log _)
      (fun m hms => hhead m (List.mem_cons_of_mem _ hms))
      fun m hms => hp m (List.mem_cons_of_mem _ hms)
    cases out with
    | error e =>
      cases he
      exact hrest _ rfl
    | ok rest => cases he
  | @VisitsMembers.shape _ _ _ _ st₁ _ _ _ ms _ _ _ out _ _ hv hm, h, hhead, hp, _, he => by
    obtain ⟨hi₁, he₁, -⟩ := hv.spec h
    have hp₁ : ∀ m ∈ ms, ∀ s, t.shapeOf? m.type = some s → OnPath t root st₁.active s := by
      rw [he₁.active]
      exact fun m hms => hp m (List.mem_cons_of_mem _ hms)
    have hrest := hm.isCycle_or_headError (hi₁.log _)
      (fun m hms => hhead m (List.mem_cons_of_mem _ hms)) hp₁
    cases out with
    | error e =>
      cases he
      exact hrest _ rfl
    | ok rest => cases he

end

/-- Where annotations can be read, an extraction succeeds or reports a cycle. -/
theorem isCycle_or_extract (hr : t.Readable root) :
    (∃ ids, Graph.extract t root = .error (.cycle ids) ∧ t.IsCycle root ids) ∨
      ∃ g, Graph.extract t root = .ok g := by
  cases hf : t.find? root with
  | none => exact .inr ⟨_, extract_missing hf⟩
  | some top =>
    obtain ⟨r, st, hv, he⟩ := extract_eq hf
    cases r with
    | ok k => exact .inr ⟨_, he⟩
    | error e =>
      rcases hv.isCycle_or_headError .initial (.start hf) e rfl with ⟨ids, rfl, hc⟩ | ⟨s, hs, m, hm, hh⟩
      · exact .inl ⟨ids, he, hc⟩
      · obtain ⟨head, hhead⟩ := hr s hs m hm
        rw [hh] at hhead
        cases hhead

/-- After a successful extraction no shape below the root reaches itself. -/
theorem not_transGen_of_extract (ht : t.Coherent) {g : Graph} (hg : Graph.extract t root = .ok g)
    {s : Shape κ} (hs : t.ReachableFrom root s) : ¬ Relation.TransGen t.Refers s s := by
  obtain ⟨top, htop, hp⟩ := hs
  obtain ⟨st, hv, -⟩ := visits_of_extract htop hg
  obtain ⟨d, hd⟩ := hv.expand_of_initial ht ⟨root, htop⟩
  exact ShapeTable.ReachableFrom.not_transGen ⟨top, htop, hp⟩ htop hd

end Extraction

/-- Cycles are reported exactly: there is one to report just if a shape below the root reaches itself,
and what is reported is a cycle of references below the root. -/
theorem cycle_reported_iff {κ : Type} [DecidableEq κ] {t : ShapeTable κ} {root : κ}
    (ht : t.Coherent) (hr : t.Readable root) :
    ((∃ ids, Graph.extract t root = .error (.cycle ids)) ↔
      ∃ s, t.ReachableFrom root s ∧ Relation.TransGen t.Refers s s) ∧
    ∀ ids, Graph.extract t root = .error (.cycle ids) → t.IsCycle root ids := by
  have hreport : ∀ ids, Graph.extract t root = .error (.cycle ids) → t.IsCycle root ids := by
    intro ids he
    rcases Extraction.isCycle_or_extract hr with ⟨ids', he', hc⟩ | ⟨g, hg⟩
    · rw [he] at he'
      cases he'
      exact hc
    · rw [he] at hg
      cases hg
  refine ⟨⟨fun ⟨ids, he⟩ => (hreport ids he).transGen ht, fun ⟨s, hs, hp⟩ => ?_⟩, hreport⟩
  rcases Extraction.isCycle_or_extract hr with ⟨ids, he, -⟩ | ⟨g, hg⟩
  · exact ⟨ids, he⟩
  · exact absurd hp (Extraction.not_transGen_of_extract ht hg hs)

/-- Lists of users who have friends. The names are shared, and the cycle does not start at the root. -/
def friendsTable : ShapeTable String :=
  ⟨[("name", ⟨"Name", none, [{ ident := "text" }]⟩),
    ("friends", ⟨"Friends", none,
      [{ ident := "user", tag := some "node(first: $n)", type := .list (.shape "user") }]⟩),
    ("user", ⟨"User", some "User", [{ ident := "name", type := .shape "name" },
      { ident := "nick", type := .optional (.shape "name") },
      { ident := "friends", type := .shape "friends" }]⟩),
    ("top", ⟨"Top", none, [{ ident := "title", type := .shape "name" },
      { ident := "users", type := .list (.shape "user") }]⟩)]⟩

set_option maxRecDepth 100000 in
theorem extract_friends : Graph.extract friendsTable "top" =
    .error (.cycle ["User", "Friends", "User"]) := by cbv

theorem readable_friends : friendsTable.Readable "top" := by
  refine ShapeTable.readable_of_entries fun e he m hm => ?_
  simp only [friendsTable, List.mem_cons, List.not_mem_nil, or_false] at he
  rcases he with rfl | rfl | rfl | rfl <;>
    simp only [List.mem_cons, List.not_mem_nil, or_false] at hm <;>
    rcases hm with rfl | rfl | rfl <;> exact ⟨_, by cbv⟩

theorem cycle_reported_friends : friendsTable.Coherent ∧ friendsTable.Readable "top" ∧
    (∃ s, friendsTable.ReachableFrom "top" s ∧ Relation.TransGen friendsTable.Refers s s) ∧
    friendsTable.IsCycle "top" ["User", "Friends", "User"] := by
  have hc : friendsTable.Coherent := ShapeTable.coherent_of_entries (by decide)
  obtain ⟨hiff, hreport⟩ := cycle_reported_iff hc readable_friends
  exact ⟨hc, readable_friends, hiff.1 ⟨_, extract_friends⟩, hreport _ extract_friends⟩

end QueryShape
