import Mathlib.Data.List.Induction
import Mathlib.Logic.Basic
import QueryShape.Proofs.VariableSites

/-!
# Checkpoints of a walk

`Graph.checkpoints` lists what a walk depends on, in the order of the walk and without regard to
failures: the members of unions, and the uses of variables. `Consistent` checkpoints fit together, and
`FirstOffence` is the first one that does not fit those before it. `Checkpoint.pass` checks one
checkpoint against the uses seen before it; a list of checkpoints is passed just if it is consistent
(`passAll_eq_ok`), and otherwise fails for the first offence (`passAll_eq_error`).
-/

set_option autoImplicit false

namespace QueryShape

/-! ## Checkpoints -/

inductive Checkpoint where
  /-- A member of a union, with the node it leads to, given by its name. -/
  | member (field shape : String) (path : List String) (target : Option (Option String))
  | use (site : VariableSite)

def Checkpoint.site? : Checkpoint → Option VariableSite
  | member .. => none
  | use s => some s

/-- The uses of variables. -/
def sitesOf (cs : List Checkpoint) : List VariableSite := cs.filterMap Checkpoint.site?

theorem mem_sitesOf {cs : List Checkpoint} {s : VariableSite} : s ∈ sitesOf cs ↔ .use s ∈ cs := by
  simp only [sitesOf, List.mem_filterMap]
  constructor
  · rintro ⟨c, hc, hs⟩
    cases c with
    | member => cases hs
    | use s' =>
      cases hs
      exact hc
  · intro h
    exact ⟨_, h, rfl⟩

namespace Graph

mutual

/-- The checkpoints of node `k` in braces at `path`, and the nodes that are fragments afterwards. The
nodes in `entered` are fragments already and are not gone through again. -/
def groupChecks (g : Graph) (path : List String) (k : Fin g.size) (entered : List (Fin g.size)) :
    List Checkpoint × List (Fin g.size) :=
  if k ∈ entered then ([], entered)
  else
    let inside := fieldsChecks g path k (g.node k).fields entered
    (inside.1, if 1 < (g.node k).uses then inside.2 ++ [k] else inside.2)
termination_by (k.val, 1, 0)

/-- Node `k` in place of a field. -/
def spliceChecks (g : Graph) (path : List String) (k : Fin g.size) (entered : List (Fin g.size)) :
    List Checkpoint × List (Fin g.size) :=
  if k ∈ entered then ([], entered) else fieldsChecks g path k (g.node k).fields entered
termination_by (k.val, 1, 0)

def fieldsChecks (g : Graph) (path : List String) (k : Fin g.size) (fs : List Field)
    (entered : List (Fin g.size)) : List Checkpoint × List (Fin g.size) :=
  match fs with
  | [] => ([], entered)
  | f :: fs =>
    let here := if (g.node k).isUnion then memberChecks g (path ++ [f.name]) k f entered
      else fieldChecks g (path ++ [f.name]) k f entered
    let rest := fieldsChecks g path k fs here.2
    (here.1 ++ rest.1, rest.2)
termination_by (k.val, 0, fs.length + 1)

/-- A field of a node that is no union. Only a field that is written uses its variables. -/
def fieldChecks (g : Graph) (path : List String) (k : Fin g.size) (f : Field)
    (entered : List (Fin g.size)) : List Checkpoint × List (Fin g.size) :=
  if f.kind.isInline then
    match g.child? k f with
    | some ⟨i, _⟩ => spliceChecks g path i entered
    | none => ([], entered)
  else
    let uses := (sitesAt path f.arguments).map .use
    match g.child? k f with
    | some ⟨i, _⟩ =>
      let nested := groupChecks g path i entered
      (uses ++ nested.1, nested.2)
    | none => (uses, entered)
termination_by (k.val, 0, 0)

/-- A field of a union. -/
def memberChecks (g : Graph) (path : List String) (k : Fin g.size) (f : Field)
    (entered : List (Fin g.size)) : List Checkpoint × List (Fin g.size) :=
  if f.name = typenameField then ([], entered)
  else
    match g.child? k f with
    | none => ([.member f.name (g.node k).label path none], entered)
    | some ⟨i, _⟩ =>
      let nested := groupChecks g path i entered
      (.member f.name (g.node k).label path (some (g.node i).name) :: nested.1, nested.2)
termination_by (k.val, 0, 0)

end

/-- The checkpoints of a walk over the whole graph. -/
def checkpoints (g : Graph) : List Checkpoint :=
  match g.root with
  | none => []
  | some k => if h : k < g.size then (g.groupChecks [] ⟨k, h⟩ []).1 else []

end Graph

/-- Members of unions lead to nodes with names, and uses of one name agree. -/
structure Consistent (cs : List Checkpoint) : Prop where
  named : ∀ field shape path target, .member field shape path target ∈ cs →
    ∃ type, target = some (some type)
  agree : ∀ s s', .use s ∈ cs → .use s' ∈ cs → s.name = s'.name →
    s.type = s'.type ∧ s.explicit = s'.explicit

/-- Checkpoint `c` does not fit the checkpoints before it. -/
inductive Offends (before : List Checkpoint) : Checkpoint → Failure → Prop
  | noNode {field shape : String} {path : List String} :
      Offends before (.member field shape path none) (.scalarBranch field shape path)
  | noName {field shape : String} {path : List String} :
      Offends before (.member field shape path (some none)) (.anonymousBranch field path)
  | origin {first s : VariableSite} : (sitesOf before).find? (·.name == s.name) = some first →
      first.explicit ≠ s.explicit → Offends before (.use s) (.nameCollision s.name s.path)
  | type {first s : VariableSite} : (sitesOf before).find? (·.name == s.name) = some first →
      first.explicit = s.explicit → first.type ≠ s.type →
      Offends before (.use s) (.typeConflict s.name first.type s.type s.path)

/-- The first checkpoint that does not fit, and why. -/
def FirstOffence (cs : List Checkpoint) (e : Failure) : Prop :=
  ∃ before c after, cs = before ++ c :: after ∧ Consistent before ∧ Offends before c e

/-! ## Passing checkpoints -/

/-- Whether a use fits the first use of its name. -/
def VariableSite.check (first s : VariableSite) : Except Failure Unit :=
  if first.explicit ≠ s.explicit then .error (.nameCollision s.name s.path)
  else if first.type ≠ s.type then .error (.typeConflict s.name first.type s.type s.path)
  else .ok ()

def Checkpoint.pass (seen : List VariableSite) : Checkpoint → Except Failure (List VariableSite)
  | member field shape path none => .error (.scalarBranch field shape path)
  | member field _ path (some none) => .error (.anonymousBranch field path)
  | member _ _ _ (some (some _)) => .ok seen
  | use s =>
    match seen.find? (·.name == s.name) with
    | none => .ok (seen ++ [s])
    | some first => (first.check s).map fun _ => seen ++ [s]

/-- Passes checkpoints one after the other. -/
def passAll (seen : List VariableSite) (cs : List Checkpoint) : Except Failure (List VariableSite) :=
  cs.foldlM Checkpoint.pass seen

theorem passAll_append (seen : List VariableSite) (cs cs' : List Checkpoint) :
    passAll seen (cs ++ cs') = passAll seen cs >>= (passAll · cs') := List.foldlM_append

theorem passAll_singleton (seen : List VariableSite) (c : Checkpoint) :
    passAll seen [c] = c.pass seen := by
  unfold passAll
  rw [List.foldlM_cons]
  cases c.pass seen <;> rfl

theorem VariableSite.check_eq_ok {first s : VariableSite} :
    first.check s = .ok () ↔ first.explicit = s.explicit ∧ first.type = s.type := by
  unfold check
  split
  · simp_all
  · split
    · simp_all
    · simp_all

theorem Checkpoint.pass_eq_error {cs : List Checkpoint} {c : Checkpoint} {e : Failure} :
    c.pass (sitesOf cs) = .error e ↔ Offends cs c e := by
  constructor
  · intro h
    match c with
    | member _ _ _ none =>
      cases h
      exact .noNode
    | member _ _ _ (some none) =>
      cases h
      exact .noName
    | member _ _ _ (some (some _)) => cases h
    | use s =>
      simp only [pass] at h
      split at h
      · cases h
      · rename_i first hf
        unfold VariableSite.check at h
        split at h
        · rename_i ho
          cases h
          exact .origin hf ho
        · rename_i ho
          split at h
          · rename_i ht
            cases h
            exact .type hf (not_not.1 ho) ht
          · cases h
  · intro h
    cases h with
    | noNode => rfl
    | noName => rfl
    | origin hf ho => simp [pass, hf, VariableSite.check, ho, Except.map]
    | type hf ho ht => simp [pass, hf, VariableSite.check, ho, ht, Except.map]

theorem sitesOf_append (cs cs' : List Checkpoint) : sitesOf (cs ++ cs') = sitesOf cs ++ sitesOf cs' :=
  List.filterMap_append

theorem Checkpoint.pass_ok {seen seen' : List VariableSite} {c : Checkpoint}
    (h : c.pass seen = .ok seen') : seen' = seen ++ sitesOf [c] := by
  match c with
  | member _ _ _ none => cases h
  | member _ _ _ (some none) => cases h
  | member _ _ _ (some (some _)) =>
    cases h
    exact (List.append_nil _).symm
  | use s =>
    simp only [pass] at h
    split at h
    · cases h
      rfl
    · rename_i first hf
      cases hc : first.check s with
      | error e =>
        rw [hc] at h
        cases h
      | ok u =>
        rw [hc] at h
        cases h
        rfl

namespace Consistent

variable {cs : List Checkpoint}

theorem nil : Consistent [] :=
  ⟨fun _ _ _ _ h => (List.not_mem_nil h).elim, fun _ _ h => (List.not_mem_nil h).elim⟩

theorem of_append {cs' : List Checkpoint} (h : Consistent (cs ++ cs')) : Consistent cs :=
  ⟨fun field shape path target hm => h.named field shape path target (List.mem_append_left _ hm),
    fun s s' hs hs' => h.agree s s' (List.mem_append_left _ hs) (List.mem_append_left _ hs')⟩

/-- One more use, which agrees with those of its name. -/
theorem snoc_use (h : Consistent cs) {s : VariableSite}
    (ha : ∀ s', .use s' ∈ cs → s'.name = s.name → s'.type = s.type ∧ s'.explicit = s.explicit) :
    Consistent (cs ++ [.use s]) := by
  refine ⟨fun field shape path target hm => ?_, fun s₁ s₂ h₁ h₂ hn => ?_⟩
  · simp only [List.mem_append, List.mem_singleton, reduceCtorEq, or_false] at hm
    exact h.named field shape path target hm
  · simp only [List.mem_append, List.mem_singleton, Checkpoint.use.injEq] at h₁ h₂
    rcases h₁ with h₁ | rfl <;> rcases h₂ with h₂ | rfl
    · exact h.agree s₁ s₂ h₁ h₂ hn
    · exact ha s₁ h₁ hn
    · obtain ⟨ht, ho⟩ := ha s₂ h₂ hn.symm
      exact ⟨ht.symm, ho.symm⟩
    · exact ⟨rfl, rfl⟩

theorem snoc_member (h : Consistent cs) {field shape type : String} {path : List String} :
    Consistent (cs ++ [.member field shape path (some (some type))]) := by
  refine ⟨fun field' shape' path' target hm => ?_, fun s s' hs hs' => ?_⟩
  · simp only [List.mem_append, List.mem_singleton, Checkpoint.member.injEq] at hm
    rcases hm with hm | ⟨-, -, -, rfl⟩
    · exact h.named field' shape' path' target hm
    · exact ⟨type, rfl⟩
  · simp only [List.mem_append, List.mem_singleton, reduceCtorEq, or_false] at hs hs'
    exact h.agree s s' hs hs'

/-- What can be passed after consistent checkpoints leaves them consistent. -/
theorem snoc (h : Consistent cs) {c : Checkpoint} {seen : List VariableSite}
    (hc : c.pass (sitesOf cs) = .ok seen) : Consistent (cs ++ [c]) := by
  match c with
  | .member _ _ _ none => cases hc
  | .member _ _ _ (some none) => cases hc
  | .member _ _ _ (some (some _)) => exact h.snoc_member
  | .use s =>
    apply h.snoc_use
    intro s' hs' hn
    simp only [Checkpoint.pass] at hc
    split at hc
    · rename_i hf
      have hne := List.find?_eq_none.1 hf s' (mem_sitesOf.2 hs')
      exact absurd hn (by simpa using hne)
    · rename_i first hf
      -- the first use of the name stands for all of them
      have hfirst : .use first ∈ cs := mem_sitesOf.1 (List.mem_of_find?_eq_some hf)
      have hname : first.name = s.name := by simpa using List.find?_some hf
      have hcheck : first.check s = .ok () := by
        cases hk : first.check s with
        | error e =>
          rw [hk] at hc
          cases hc
        | ok u => rfl
      obtain ⟨ho, ht⟩ := VariableSite.check_eq_ok.1 hcheck
      obtain ⟨ht', ho'⟩ := h.agree s' first hs' hfirst (hn.trans hname.symm)
      exact ⟨ht'.trans ht, ho'.trans ho⟩

/-- A checkpoint that does not fit makes checkpoints inconsistent. -/
theorem not_offends {c : Checkpoint} {e : Failure} (h : Consistent (cs ++ [c])) :
    ¬ Offends cs c e := by
  have hlast : c ∈ cs ++ [c] := List.mem_concat_self
  intro ho
  cases ho with
  | noNode =>
    obtain ⟨type, ht⟩ := h.named _ _ _ _ hlast
    cases ht
  | noName =>
    obtain ⟨type, ht⟩ := h.named _ _ _ _ hlast
    cases ht
  | @origin first s hf ho =>
    have hfirst := List.mem_append_left [Checkpoint.use s] (mem_sitesOf.1 (List.mem_of_find?_eq_some hf))
    have hname : first.name = s.name := by simpa using List.find?_some hf
    exact ho (h.agree first s hfirst hlast hname).2
  | @type first s hf _ ht =>
    have hfirst := List.mem_append_left [Checkpoint.use s] (mem_sitesOf.1 (List.mem_of_find?_eq_some hf))
    have hname : first.name = s.name := by simpa using List.find?_some hf
    exact ht (h.agree first s hfirst hlast hname).1

end Consistent

theorem passAll_eq_ok {cs : List Checkpoint} {seen : List VariableSite} :
    passAll [] cs = .ok seen ↔ Consistent cs ∧ seen = sitesOf cs := by
  induction cs using List.reverseRecOn generalizing seen with
  | nil =>
    constructor
    · intro h
      cases h
      exact ⟨.nil, rfl⟩
    · rintro ⟨-, rfl⟩
      rfl
  | append_singleton cs c ih =>
    rw [passAll_append]
    constructor
    · intro h
      cases hp : passAll [] cs with
      | error e =>
        rw [hp] at h
        cases h
      | ok seen₁ =>
        obtain ⟨hcs, rfl⟩ := ih.1 hp
        rw [hp] at h
        change passAll (sitesOf cs) [c] = _ at h
        rw [passAll_singleton] at h
        exact ⟨hcs.snoc h, (Checkpoint.pass_ok h).trans (sitesOf_append cs [c]).symm⟩
    · rintro ⟨h, rfl⟩
      rw [ih.2 ⟨h.of_append, rfl⟩]
      change passAll (sitesOf cs) [c] = _
      rw [passAll_singleton]
      cases hp : c.pass (sitesOf cs) with
      | error e => exact absurd (Checkpoint.pass_eq_error.1 hp) h.not_offends
      | ok seen => rw [Checkpoint.pass_ok hp, sitesOf_append]

/-- Folding stops at the first element that fails. -/
theorem foldlM_eq_error {α β ε : Type} {f : β → α → Except ε β} {b : β} {l : List α} {e : ε} :
    l.foldlM f b = .error e ↔ ∃ before x after b', l = before ++ x :: after ∧
      before.foldlM f b = .ok b' ∧ f b' x = .error e := by
  constructor
  · intro h
    induction l generalizing b with
    | nil => cases h
    | cons x l ih =>
      rw [List.foldlM_cons] at h
      cases hx : f b x with
      | error e' =>
        rw [hx] at h
        cases h
        exact ⟨[], x, l, b, rfl, rfl, hx⟩
      | ok b₁ =>
        rw [hx] at h
        obtain ⟨before, y, after, b', rfl, hb, hy⟩ := ih h
        refine ⟨x :: before, y, after, b', rfl, ?_, hy⟩
        rw [List.foldlM_cons, hx]
        exact hb
  · rintro ⟨before, x, after, b', rfl, hb, hx⟩
    rw [List.foldlM_append, hb]
    change (x :: after).foldlM f b' = _
    rw [List.foldlM_cons, hx]
    rfl

theorem passAll_eq_error {cs : List Checkpoint} {e : Failure} :
    passAll [] cs = .error e ↔ FirstOffence cs e := by
  unfold passAll FirstOffence
  rw [foldlM_eq_error]
  constructor
  · rintro ⟨before, c, after, seen, rfl, hb, hc⟩
    obtain ⟨hbefore, rfl⟩ := passAll_eq_ok.1 hb
    exact ⟨before, c, after, rfl, hbefore, Checkpoint.pass_eq_error.1 hc⟩
  · rintro ⟨before, c, after, rfl, hb, hc⟩
    exact ⟨before, c, after, sitesOf before, rfl, passAll_eq_ok.2 ⟨hb, rfl⟩,
      Checkpoint.pass_eq_error.2 hc⟩

end QueryShape
