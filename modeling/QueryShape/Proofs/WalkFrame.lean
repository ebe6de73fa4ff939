import Mathlib
import QueryShape.Proofs.OutlineWalk
import QueryShape.Proofs.VisitInv

/-!
# What a walk leaves as it was

A step changes the walk also where it fails: `after step w` is what `w` has become in either case, and
`Keeps R step` says that it is related to `w`. A `Framing` is a relation that holds over steps one
after the other, and so over fields and nodes as soon as it holds over what they are made of.

* The path is the same after a node (`samePath_node`). The fields of a node leave the name of the last
  one on the path, and cutting the path back is right because its first names are kept
  (`Framing.fieldsFrom`). So each field can be taken to have a path of its own (`fields_cons`).
* `Grown g n w w'`: fragments and variables stay where they are, and new fragments are of nodes before
  `n`. A node is registered after its children, which have other ids, so it never takes the place of
  another fragment (`grown_node`), and a table with one fragment for each id stays one (`Keyed`).

`Framed` puts both together (`framed_node`).
-/

set_option autoImplicit false

namespace QueryShape

/-! ## One step after another -/

section
variable {σ α β : Type} {s s₁ : σ} {step : ExceptT Failure (StateM σ) α}

@[simp] theorem run_get (s : σ) :
    (get : ExceptT Failure (StateM σ) σ).run.run s = pure (.ok s, s) := rfl

@[simp] theorem run_modify (f : σ → σ) (s : σ) :
    (modify f : ExceptT Failure (StateM σ) PUnit).run.run s = pure (.ok ⟨⟩, f s) := rfl

theorem run_bind (step : ExceptT Failure (StateM σ) α) (next : α → ExceptT Failure (StateM σ) β)
    (s : σ) : (step >>= next).run.run s =
      (ExceptT.bindCont next (step.run.run s).1).run (step.run.run s).2 := rfl

theorem run_bind_ok {a : α} (h : step.run.run s = (.ok a, s₁))
    (next : α → ExceptT Failure (StateM σ) β) :
    (step >>= next).run.run s = (next a).run.run s₁ := by
  rw [run_bind, h]
  rfl

theorem run_bind_error {e : Failure} (h : step.run.run s = (.error e, s₁))
    (next : α → ExceptT Failure (StateM σ) β) :
    (step >>= next).run.run s = (.error e, s₁) := by
  rw [run_bind, h]
  rfl

end

namespace Walk

/-- The walk below a field. -/
def enter (w : Walk) (name : String) : Walk := { w with path := w.path ++ [name] }

/-- The walk with the path of `w`. -/
def leaveTo (w' w : Walk) : Walk := { w' with path := w.path }

def logged (w : Walk) (e : Event) : Walk := { w with events := w.events.push e }

@[simp] theorem run_log (e : Event) (w : Walk) : (log e).run.run w = pure (.ok (), w.logged e) := rfl

/-! ## Steps -/

/-- The walk after a step, which may have failed. -/
def after {α : Type} (step : Step α) (w : Walk) : Walk := (step.run.run w).2

/-- The walk before and the walk after the step are related. -/
def Keeps {α : Type} (R : Walk → Walk → Prop) (step : Step α) : Prop := ∀ w, R w (after step w)

section
variable {α β : Type} {R : Walk → Walk → Prop}

theorem after_bind_of {P : Walk → Prop} {step : Step α} {next : α → Step β} {w : Walk}
    (h : P (after step w)) (h' : ∀ a, P (after (next a) (after step w))) :
    P (after (step >>= next) w) := by
  unfold after at h h' ⊢
  rw [run_bind]
  generalize step.run.run w = out at h h' ⊢
  obtain ⟨e | a, w₁⟩ := out
  · exact h
  · exact h' a

theorem after_get_bind (next : Walk → Step β) (w : Walk) :
    after (get >>= next) w = after (next w) w := rfl

theorem after_restoring (step : Step α) (w : Walk) : after (restoring step) w =
    { after step w with path := (after step w).path.take w.path.length } := rfl

/-- A relation between walks that holds over steps one after the other, over notes of events and over
uses of variables. -/
structure Framing (R : Walk → Walk → Prop) : Prop where
  refl : ∀ w, R w w
  trans : ∀ {w₁ w₂ w₃}, R w₁ w₂ → R w₂ w₃ → R w₁ w₃
  logged : ∀ w e, R w (w.logged e)
  use : ∀ key name type default, Keeps R (useVariable key name type default)

namespace Framing

theorem bind (hR : Framing R) {step : Step α} {next : α → Step β} (h : Keeps R step)
    (h' : ∀ a, Keeps R (next a)) : Keeps R (step >>= next) :=
  fun w => after_bind_of (h w) fun a => hR.trans (h w) (h' a _)

theorem pure (hR : Framing R) (a : α) : Keeps R (Pure.pure a : Step α) := hR.refl

theorem throw (hR : Framing R) (e : Failure) : Keeps R (MonadExcept.throw e : Step α) := hR.refl

theorem log (hR : Framing R) (e : Event) : Keeps R (Walk.log e) := fun w => hR.logged w e

/-- What comes after the step only puts results together. -/
theorem map (hR : Framing R) {step : Step α} (h : Keeps R step) (f : α → β) :
    Keeps R (step >>= fun a => Pure.pure (f a)) :=
  hR.bind h fun a => hR.pure (f a)

theorem arguments (hR : Framing R) (args : List (String × Argument)) :
    Keeps R (Walk.arguments args) := by
  induction args with
  | nil => exact hR.pure []
  | cons a args ih =>
    obtain ⟨key, ⟨value, type⟩ | ⟨name, type, default⟩⟩ := a
    · rw [Walk.arguments]
      exact hR.map ih _
    · rw [Walk.arguments]
      exact hR.bind (hR.use key name type default) fun used => hR.map ih _

/-! ## Fields and nodes -/

section
variable {g : Graph} {k : Fin g.size}

theorem field (hR : Framing R) (hgroup : ∀ i : Fin g.size, i.val < k.val → Keeps R (group g i))
    (hsplice : ∀ i : Fin g.size, i.val < k.val → Keeps R (splice g i)) (f : Field) :
    Keeps R (Walk.field g k f) := by
  rw [Walk.field]
  split
  · split
    · rename_i i hlt _
      exact hsplice i hlt
    · exact hR.pure []
  · refine hR.bind (hR.arguments f.arguments) fun operands => ?_
    split
    · rename_i i hlt _
      exact hR.map (hgroup i hlt) _
    · exact hR.pure _

theorem branch (hR : Framing R) (hgroup : ∀ i : Fin g.size, i.val < k.val → Keeps R (group g i))
    (f : Field) : Keeps R (Walk.branch g k f) := by
  rw [Walk.branch]
  split
  · exact hR.pure _
  · split
    · intro w
      rw [after_get_bind]
      exact hR.throw _ w
    · rename_i i hlt _
      split
      · intro w
        rw [after_get_bind]
        exact hR.throw _ w
      · exact hR.map (hgroup i hlt) _

/-- Fields one after the other, if going to a field keeps the relation as well. -/
theorem fieldsFrom (hR : Framing R) {n : Nat} (hgo : ∀ name, Keeps R (goTo n name))
    (hfield : ∀ f, Keeps R (Walk.field g k f)) (hbranch : ∀ f, Keeps R (Walk.branch g k f))
    (fs : List Field) : Keeps R (Walk.fieldsFrom g k n fs) := by
  induction fs with
  | nil =>
    rw [Walk.fieldsFrom]
    exact hR.pure []
  | cons f fs ih =>
    rw [Walk.fieldsFrom]
    refine hR.bind (hgo f.name) fun _ => hR.bind ?_ fun here => hR.map ih _
    split
    · exact hbranch f
    · exact hfield f

theorem splice (hR : Framing R) (hfields : Keeps R (fields g k (g.node k).fields)) :
    Keeps R (Walk.splice g k) := by
  intro w
  rw [Walk.splice, after_get_bind]
  split
  · exact hR.map (hR.log _) (fun _ => _) w
  · exact hfields w

/-- A node in braces, if putting it down as a fragment after its fields keeps the relation. -/
theorem group (hR : Framing R) (hfields : Keeps R (fields g k (g.node k).fields))
    (hregister : ∀ w ss, fragmentOf? w (g.node k) = none → 1 < (g.node k).uses →
      R w (after (register (g.node k) ss) (after (fields g k (g.node k).fields) w))) :
    Keeps R (Walk.group g k) := by
  intro w
  rw [Walk.group, after_get_bind]
  split
  · exact hR.map (hR.log _) (fun _ => _) w
  · rename_i hf
    refine after_bind_of (P := R w) (hfields w) fun ss => ?_
    split
    · rename_i hu
      have hr := hregister w ss hf hu
      exact after_bind_of (P := R w) hr fun name => hR.trans hr (hR.pure _ _)
    · exact hR.trans (hfields w) (hR.pure _ _)

end

end Framing

end

/-! ## Uses of variables and new fragments -/

/-- A use of a variable adds a slot or a place, or fails and adds nothing. -/
theorem after_useVariable (key : String) (name type : Option String) (default : Option Value)
    (w : Walk) : (after (useVariable key name type default) w).path = w.path ∧
      (after (useVariable key name type default) w).fragments = w.fragments ∧
      ((after (useVariable key name type default) w).vars = w.vars ∨
        (∃ slot, (after (useVariable key name type default) w).vars = w.vars ++ [slot]) ∨
        ∃ used place, (after (useVariable key name type default) w).vars =
          VariableSlot.addUse w.vars used place) := by
  rw [useVariable, after_get_bind]
  dsimp only
  split
  · exact ⟨rfl, rfl, .inr (.inl ⟨_, rfl⟩)⟩
  · rename_i slot _
    cases VariableSlot.checkUse slot name.isSome type w.path with
    | error e => exact ⟨rfl, rfl, .inl rfl⟩
    | ok u => exact ⟨rfl, rfl, .inr (.inr ⟨_, _, rfl⟩)⟩

/-- A fragment of a shape that has none comes last. -/
theorem putFragment_of_new {fs : List FragmentOutline} {f : FragmentOutline}
    (h : ∀ f' ∈ fs, f'.shapeId ≠ f.shapeId) : putFragment fs f = fs ++ [f] := by
  induction fs with
  | nil => rfl
  | cons f' fs ih =>
    rw [putFragment, if_neg (h f' (.head _)), ih fun f'' hf => h f'' (.tail _ hf), List.cons_append]

theorem after_register (node : Node) (ss : List Selection) (w : Walk) :
    ∃ name, (after (register node ss) w).path = w.path ∧
      (after (register node ss) w).vars = w.vars ∧
      (after (register node ss) w).fragments =
        putFragment w.fragments ⟨node.id, name, node.name.getD name, ss⟩ := by
  rw [register, after_get_bind]
  dsimp only
  split
  · exact ⟨_, rfl, rfl, rfl⟩
  · exact ⟨_, rfl, rfl, rfl⟩

theorem fragmentOf?_eq_some {w : Walk} {node : Node} {f : FragmentOutline}
    (h : fragmentOf? w node = some f) : 1 < node.uses ∧ f ∈ w.fragments ∧ f.shapeId = node.id := by
  unfold fragmentOf? at h
  split at h
  · rename_i hu
    exact ⟨hu, List.mem_of_find?_eq_some h, by simpa using List.find?_some h⟩
  · cases h

theorem fragmentOf?_eq_none {w : Walk} {node : Node} (h : fragmentOf? w node = none)
    (hu : 1 < node.uses) : ∀ f ∈ w.fragments, f.shapeId ≠ node.id := by
  rw [fragmentOf?, if_pos hu] at h
  intro f hf
  simpa using List.find?_eq_none.1 h f hf

/-! ## The path -/

def SamePath (w w' : Walk) : Prop := w'.path = w.path

theorem samePath_framing : Framing SamePath where
  refl _ := rfl
  trans h₁ h₂ := h₂.trans h₁
  logged _ _ := rfl
  use key name type default w := (after_useVariable key name type default w).1

/-- If the path started with `p`, it still does. -/
def KeepsStart (p : List String) (w w' : Walk) : Prop := p <+: w.path → p <+: w'.path

theorem keepsStart_of_samePath {p : List String} {w w' : Walk} (h : SamePath w w') :
    KeepsStart p w w' := by
  intro hp
  rwa [show w'.path = w.path from h]

theorem keepsStart_framing (p : List String) : Framing (KeepsStart p) where
  refl _ h := h
  trans h₁ h₂ h := h₂ (h₁ h)
  logged _ _ h := h
  use key name type default w := keepsStart_of_samePath (samePath_framing.use key name type default w)

theorem keepsStart_goTo (p : List String) (name : String) :
    Keeps (KeepsStart p) (goTo p.length name) := by
  intro w hp
  show p <+: w.path.take p.length ++ [name]
  rw [← List.prefix_iff_eq_take.1 hp]
  exact List.prefix_append p [name]

section
variable {g : Graph} {k : Fin g.size}

/-- The first names of the path are kept by the fields, and the others are cut off. -/
theorem samePath_fields (hnode : ∀ i : Fin g.size, i.val < k.val →
      Keeps SamePath (group g i) ∧ Keeps SamePath (splice g i)) (fs : List Field) :
    Keeps SamePath (fields g k fs) := by
  intro w
  have hfield := samePath_framing.field (fun i hi => (hnode i hi).1) fun i hi => (hnode i hi).2
  have hbranch := samePath_framing.branch fun i hi => (hnode i hi).1
  have hkeeps := (keepsStart_framing w.path).fieldsFrom (keepsStart_goTo w.path)
    (fun f w' => keepsStart_of_samePath (hfield f w'))
    (fun f w' => keepsStart_of_samePath (hbranch f w')) fs w
  rw [fields, after_restoring, after_get_bind]
  exact (List.prefix_iff_eq_take.1 (hkeeps (List.prefix_refl _))).symm

theorem samePath_group (hfields : Keeps SamePath (fields g k (g.node k).fields)) :
    Keeps SamePath (group g k) := by
  refine samePath_framing.group hfields fun w ss _ _ => ?_
  obtain ⟨name, hp, -, -⟩ := after_register (g.node k) ss (after (fields g k (g.node k).fields) w)
  exact hp.trans (hfields w)

end

/-- After a node the path is the same, whether it stands in braces or in place of a field. -/
theorem samePath_node {g : Graph} (k : Fin g.size) :
    Keeps SamePath (group g k) ∧ Keeps SamePath (splice g k) := by
  have hfields := samePath_fields (k := k) (fun i _ => samePath_node i) (g.node k).fields
  exact ⟨samePath_group hfields, samePath_framing.splice hfields⟩
termination_by k.val

theorem samePath_field {g : Graph} (k : Fin g.size) (f : Field) : Keeps SamePath (field g k f) :=
  samePath_framing.field (fun i _ => (samePath_node i).1) (fun i _ => (samePath_node i).2) f

theorem samePath_branch {g : Graph} (k : Fin g.size) (f : Field) : Keeps SamePath (branch g k f) :=
  samePath_framing.branch (fun i _ => (samePath_node i).1) f

/-! ## Fields one by one -/

section
variable {α β : Type} {w w₁ : Walk}

/-- The path of the walk cut back to `n` names. -/
def cut (n : Nat) (out : Except Failure α × Walk) : Except Failure α × Walk :=
  (out.1, { out.2 with path := out.2.path.take n })

theorem cut_eq {n : Nat} {r : Except Failure α} (h : w₁.path.take n = w.path) :
    cut n (r, w₁) = (r, w₁.leaveTo w) := by
  unfold cut leaveTo
  rw [h]

/-- Putting results together does not change the walk. -/
theorem cut_map {n : Nat} {step step' : Step α} {w' : Walk}
    (h : cut n (step.run.run w) = step'.run.run w') (f : α → β) :
    cut n ((step >>= fun a => pure (f a)).run.run w) =
      (step' >>= fun a => pure (f a)).run.run w' := by
  rcases hr : step.run.run w with ⟨e | a, w₂⟩
  · rw [hr] at h
    rw [run_bind_error hr, run_bind_error h.symm]
    rfl
  · rw [hr] at h
    rw [run_bind_ok hr, run_bind_ok h.symm]
    rfl

end

section
variable (g : Graph) (k : Fin g.size)

theorem run_fields (fs : List Field) (w : Walk) : (fields g k fs).run.run w =
    cut w.path.length ((fieldsFrom g k w.path.length fs).run.run w) := by
  rw [fields]
  rfl

/-- Only the first names of the path matter to the fields, and only these are left at the end. -/
theorem cut_fieldsFrom {n : Nat} {w w' : Walk} (h : w.path.take n = w'.path) (hn : n = w'.path.length)
    (fs : List Field) : cut n ((fieldsFrom g k n fs).run.run w) =
      cut n ((fieldsFrom g k n fs).run.run (w.leaveTo w')) := by
  have hself : w'.path.take n = w'.path := by rw [hn, List.take_length]
  cases fs with
  | nil =>
    rw [fieldsFrom]
    have hcut : cut n (.ok ([] : List Selection), w.leaveTo w') = (.ok [], w.leaveTo w') :=
      cut_eq (w := w') hself
    exact (cut_eq h).trans hcut.symm
  | cons f fs =>
    have hgo : (goTo n f.name).run.run w = (goTo n f.name).run.run (w.leaveTo w') := by
      show (_, { w with path := w.path.take n ++ [f.name] }) =
        (_, { w with path := w'.path.take n ++ [f.name] })
      rw [h, hself]
    have hok : (goTo n f.name).run.run (w.leaveTo w') =
        (.ok (), after (goTo n f.name) (w.leaveTo w')) := rfl
    rw [fieldsFrom, run_bind_ok (hgo.trans hok), run_bind_ok hok]

/-- Goes on below a field, and comes back to the same path. -/
def below {α : Type} (name : String) (step : Step α) : Step α := fun w =>
  let (r, w') := step.run (w.enter name)
  (r, w'.leaveTo w)

@[simp] theorem run_below {α : Type} (name : String) (step : Step α) (w : Walk) :
    (below name step).run.run w =
      ((step.run.run (w.enter name)).1, (step.run.run (w.enter name)).2.leaveTo w) := rfl

theorem fields_nil : fields g k [] = pure [] := by
  funext w
  refine (run_fields g k [] w).trans ?_
  rw [fieldsFrom]
  exact cut_eq List.take_length

/-- Each field has a path of its own. The step for a field leaves the path as it was, so the names that
go before the next field are those that went before this one. -/
theorem fields_cons (f : Field) (fs : List Field) : fields g k (f :: fs) = (do
    let here ← below f.name (if (g.node k).isUnion then branch g k f else field g k f)
    let rest ← fields g k fs
    pure (here ++ rest)) := by
  funext w
  refine (run_fields g k (f :: fs) w).trans ?_
  have hgo : (goTo w.path.length f.name).run.run w = (.ok (), w.enter f.name) := by
    show (_, { w with path := w.path.take w.path.length ++ [f.name] }) = (_, w.enter f.name)
    rw [List.take_length]
    rfl
  have hkeeps : Keeps SamePath (if (g.node k).isUnion then branch g k f else field g k f) := by
    split
    · exact samePath_branch k f
    · exact samePath_field k f
  rw [fieldsFrom, run_bind_ok hgo]
  generalize (if (g.node k).isUnion then branch g k f else field g k f) = head at hkeeps ⊢
  have hpath : (head.run.run (w.enter f.name)).2.path.take w.path.length = w.path := by
    rw [show (head.run.run (w.enter f.name)).2.path = w.path ++ [f.name] from hkeeps (w.enter f.name)]
    exact List.take_left
  have hbelow := run_below f.name head w
  rcases hr : head.run.run (w.enter f.name) with ⟨e | here, w₁⟩
  · rw [hr] at hpath hbelow
    rw [run_bind_error hr, cut_eq hpath]
    exact (run_bind_error hbelow _).symm
  · rw [hr] at hpath hbelow
    rw [run_bind_ok hr]
    refine Eq.trans ?_ (run_bind_ok hbelow _).symm
    refine cut_map ?_ (here ++ ·)
    rw [run_fields]
    exact cut_fieldsFrom g k hpath rfl fs

end

/-! ## Fragments and variables -/

end Walk

/-- The slot of a variable that may have been used at more places since. -/
def VariableSlot.Grows (s s' : VariableSlot) : Prop :=
  ∃ more, s' = { s with entry := { s.entry with usagePaths := s.entry.usagePaths ++ more } }

theorem VariableSlot.Grows.refl (s : VariableSlot) : s.Grows s :=
  ⟨[], by rw [List.append_nil]⟩

theorem VariableSlot.Grows.trans {s₁ s₂ s₃ : VariableSlot} (h₁ : s₁.Grows s₂) (h₂ : s₂.Grows s₃) :
    s₁.Grows s₃ := by
  obtain ⟨more₁, rfl⟩ := h₁
  obtain ⟨more₂, rfl⟩ := h₂
  exact ⟨more₁ ++ more₂, by simp only [List.append_assoc]⟩

namespace Walk

/-- Every slot stays where it is. -/
def SlotsKept (slots slots' : List VariableSlot) : Prop :=
  ∀ (i : Nat) (slot : VariableSlot), slots[i]? = some slot →
    ∃ slot', slots'[i]? = some slot' ∧ slot.Grows slot'

theorem SlotsKept.refl (slots : List VariableSlot) : SlotsKept slots slots :=
  fun _ slot h => ⟨slot, h, .refl slot⟩

theorem SlotsKept.trans {slots₁ slots₂ slots₃ : List VariableSlot} (h₁ : SlotsKept slots₁ slots₂)
    (h₂ : SlotsKept slots₂ slots₃) : SlotsKept slots₁ slots₃ := by
  intro i slot h
  obtain ⟨slot₂, hs₂, hg₂⟩ := h₁ i slot h
  obtain ⟨slot₃, hs₃, hg₃⟩ := h₂ i slot₂ hs₂
  exact ⟨slot₃, hs₃, hg₂.trans hg₃⟩

theorem SlotsKept.snoc (slots : List VariableSlot) (new : VariableSlot) :
    SlotsKept slots (slots ++ [new]) := by
  intro i slot h
  have hlt := (List.getElem?_eq_some_iff.1 h).1
  exact ⟨slot, by rw [List.getElem?_append_left hlt, h], .refl slot⟩

theorem SlotsKept.addUse (slots : List VariableSlot) (name place : String) :
    SlotsKept slots (VariableSlot.addUse slots name place) := by
  intro i slot h
  refine ⟨_, by rw [VariableSlot.addUse, List.getElem?_map, h, Option.map_some], ?_⟩
  split
  · exact ⟨[place], rfl⟩
  · exact .refl slot

theorem slotsKept_useVariable (key : String) (name type : Option String) (default : Option Value)
    (w : Walk) : SlotsKept w.vars (after (useVariable key name type default) w).vars := by
  obtain ⟨-, -, hv | ⟨slot, hv⟩ | ⟨used, place, hv⟩⟩ := after_useVariable key name type default w
  · rw [hv]
    exact .refl w.vars
  · rw [hv]
    exact .snoc w.vars slot
  · rw [hv]
    exact .addUse w.vars used place

/-- The fragments are of nodes of the graph, at most one of each. -/
structure Keyed (g : Graph) (table : List FragmentOutline) : Prop where
  nodup : (table.map (·.shapeId)).Nodup
  ids : ∀ f ∈ table, ∃ j : Fin g.size, f.shapeId = (g.node j).id

theorem Keyed.snoc {g : Graph} {table : List FragmentOutline} {f : FragmentOutline} {k : Fin g.size}
    (h : Keyed g table) (hid : f.shapeId = (g.node k).id)
    (hnew : ∀ f' ∈ table, f'.shapeId ≠ f.shapeId) : Keyed g (table ++ [f]) := by
  constructor
  · rw [List.map_append, List.map_singleton]
    refine h.nodup.append (List.nodup_singleton _) (List.disjoint_singleton.2 fun hm => ?_)
    obtain ⟨f', hf', he⟩ := List.mem_map.1 hm
    exact hnew f' hf' he
  · intro f' hf'
    rcases List.mem_append.1 hf' with hf' | hf'
    · exact h.ids f' hf'
    · rw [List.mem_singleton.1 hf']
      exact ⟨k, hid⟩

/-- All fragments and slots are still there, in the same places. New fragments come after them and are
of nodes before `n` that had none. -/
structure Grown (g : Graph) (n : Nat) (w w' : Walk) : Prop where
  fragments : ∃ new, w'.fragments = w.fragments ++ new ∧
    ∀ f ∈ new, ∃ j : Fin g.size, j.val < n ∧ f.shapeId = (g.node j).id
  keyed : Keyed g w.fragments → Keyed g w'.fragments
  vars : SlotsKept w.vars w'.vars

namespace Grown

variable {g : Graph} {n m : Nat} {w w₁ w₂ w₃ : Walk}

theorem of_fragments_eq (hf : w₂.fragments = w₁.fragments) (hv : SlotsKept w₁.vars w₂.vars) :
    Grown g n w₁ w₂ :=
  ⟨⟨[], by rw [hf, List.append_nil], fun _ h => (List.not_mem_nil h).elim⟩, by rw [hf]; exact id, hv⟩

theorem trans (h₁ : Grown g n w₁ w₂) (h₂ : Grown g n w₂ w₃) : Grown g n w₁ w₃ := by
  obtain ⟨new₁, hf₁, hn₁⟩ := h₁.fragments
  obtain ⟨new₂, hf₂, hn₂⟩ := h₂.fragments
  refine ⟨⟨new₁ ++ new₂, by rw [hf₂, hf₁, List.append_assoc], fun f hf => ?_⟩,
    fun h => h₂.keyed (h₁.keyed h), h₁.vars.trans h₂.vars⟩
  rcases List.mem_append.1 hf with hf | hf
  · exact hn₁ f hf
  · exact hn₂ f hf

theorem mono (h : Grown g n w₁ w₂) (hnm : n ≤ m) : Grown g m w₁ w₂ := by
  obtain ⟨new, hf, hn⟩ := h.fragments
  refine ⟨⟨new, hf, fun f hm => ?_⟩, h.keyed, h.vars⟩
  obtain ⟨j, hj, hid⟩ := hn f hm
  exact ⟨j, by omega, hid⟩

theorem framing (g : Graph) (n : Nat) : Framing (Grown g n) where
  refl w := of_fragments_eq rfl (.refl w.vars)
  trans := trans
  logged w _ := of_fragments_eq rfl (.refl w.vars)
  use key name type default w := of_fragments_eq (after_useVariable key name type default w).2.1
    (slotsKept_useVariable key name type default w)

/-- Where the path leads does not matter. -/
theorem withPath (w : Walk) (p : List String) : Grown g n w { w with path := p } :=
  of_fragments_eq rfl (.refl w.vars)

/-- The fields of a node, after what is known of the nodes before it. -/
theorem fields {k : Fin g.size} (hnode : ∀ i : Fin g.size, i.val < k.val →
      Keeps (Grown g (i.val + 1)) (group g i) ∧ Keeps (Grown g i.val) (splice g i))
    (fs : List Field) : Keeps (Grown g k.val) (fields g k fs) := by
  intro w
  have hgroup : ∀ i : Fin g.size, i.val < k.val → Keeps (Grown g k.val) (group g i) :=
    fun i hi w => ((hnode i hi).1 w).mono (by omega)
  have hsplice : ∀ i : Fin g.size, i.val < k.val → Keeps (Grown g k.val) (splice g i) :=
    fun i hi w => ((hnode i hi).2 w).mono (by omega)
  have hframing := framing g k.val
  have hkeeps := hframing.fieldsFrom (n := w.path.length)
    (fun name w' => withPath w' (w'.path.take w.path.length ++ [name]))
    (hframing.field hgroup hsplice) (hframing.branch hgroup) fs w
  rw [Walk.fields, after_restoring, after_get_bind]
  exact hkeeps.trans (withPath _ _)

/-- What is registered before a node has other ids. -/
theorem ne_id (hg : g.Arranged) {k : Fin g.size} (h : Grown g k.val w₁ w₂)
    (hnew : ∀ f ∈ w₁.fragments, f.shapeId ≠ (g.node k).id) :
    ∀ f ∈ w₂.fragments, f.shapeId ≠ (g.node k).id := by
  obtain ⟨new, hf, hn⟩ := h.fragments
  intro f hm
  rw [hf] at hm
  rcases List.mem_append.1 hm with hm | hm
  · exact hnew f hm
  · obtain ⟨j, hj, hid⟩ := hn f hm
    intro he
    have hjk : j = k := hg.inj j k (hid.symm.trans he)
    rw [hjk] at hj
    omega

theorem register (hg : g.Arranged) {k : Fin g.size} (h : Grown g k.val w₁ w₂)
    (hnew : ∀ f ∈ w₁.fragments, f.shapeId ≠ (g.node k).id) (ss : List Selection) :
    Grown g (k.val + 1) w₁ (after (Walk.register (g.node k) ss) w₂) := by
  obtain ⟨name, -, hv, hf⟩ := after_register (g.node k) ss w₂
  have hne := h.ne_id hg hnew
  rw [putFragment_of_new hne] at hf
  have hr : Grown g (k.val + 1) w₂ (after (Walk.register (g.node k) ss) w₂) := by
    refine ⟨⟨_, hf, fun f hm => ?_⟩, fun hk => ?_, ?_⟩
    · rw [List.mem_singleton.1 hm]
      exact ⟨k, Nat.lt_succ_self _, rfl⟩
    · rw [hf]
      exact hk.snoc rfl hne
    · rw [hv]
      exact .refl w₂.vars
  exact (h.mono (Nat.le_succ _)).trans hr

end Grown

/-- A node in braces may become a fragment itself. -/
theorem grown_node {g : Graph} (hg : g.Arranged) (k : Fin g.size) :
    Keeps (Grown g (k.val + 1)) (group g k) ∧ Keeps (Grown g k.val) (splice g k) := by
  have hfields := Grown.fields (k := k) (fun i _ => grown_node hg i) (g.node k).fields
  refine ⟨(Grown.framing g (k.val + 1)).group (fun w => (hfields w).mono (Nat.le_succ _)) ?_,
    (Grown.framing g k.val).splice hfields⟩
  intro w ss hf hu
  exact (hfields w).register hg (fragmentOf?_eq_none hf hu) ss
termination_by k.val

theorem grown_fields {g : Graph} (hg : g.Arranged) (k : Fin g.size) (fs : List Field) :
    Keeps (Grown g k.val) (fields g k fs) :=
  Grown.fields (fun i _ => grown_node hg i) fs

/-- What was there before is there afterwards: the path, the fragments in front of new ones, and the
slots of the variables in their places. -/
structure Framed (g : Graph) (w w' : Walk) : Prop where
  path : w'.path = w.path
  fragments : w.fragments <+: w'.fragments
  keyed : Keyed g w.fragments → Keyed g w'.fragments
  vars : SlotsKept w.vars w'.vars

theorem Grown.framed {g : Graph} {n : Nat} {w w' : Walk} (h : Grown g n w w') (hp : SamePath w w') :
    Framed g w w' := by
  obtain ⟨new, hf, -⟩ := h.fragments
  exact ⟨hp, ⟨new, hf.symm⟩, h.keyed, h.vars⟩

/-- A node of an arranged graph, in braces or in place of a field, keeps what the walk had before. -/
theorem framed_node {g : Graph} (hg : g.Arranged) (k : Fin g.size) :
    Keeps (Framed g) (group g k) ∧ Keeps (Framed g) (splice g k) := by
  obtain ⟨hgroup, hsplice⟩ := grown_node hg k
  obtain ⟨hpath, hpath'⟩ := samePath_node k
  exact ⟨fun w => (hgroup w).framed (hpath w), fun w => (hsplice w).framed (hpath' w)⟩

end Walk

end QueryShape
