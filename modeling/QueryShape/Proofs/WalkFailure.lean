import QueryShape.Proofs.Checkpoint
import QueryShape.Proofs.FragmentChoice

/-!
# When an operation cannot be compiled

`compiles_iff_consistent`: a graph compiles just if its checkpoints are consistent, and otherwise fails
for the first checkpoint that does not fit those before it. `Follows` says that a step of the walk
succeeds or fails as a list of checkpoints does. Steps compose (`Follows.bind`), and `group_follows` is
the whole walk.
-/

set_option autoImplicit false

namespace QueryShape

/-! ## Steps of the walk -/

namespace Walk

def Failed {α : Type} (step : Step α) (w : Walk) (e : Failure) : Prop :=
  ∃ w', step.run.run w = (.error e, w')

section
variable {α β : Type} {w : Walk} {e : Failure}

theorem failed_throw : Failed (throw e : Step α) w e := ⟨w, rfl⟩

theorem failed_bind {step : Step α} {next : α → Step β} (h : Failed step w e) :
    Failed (step >>= next) w e := by
  obtain ⟨w', h⟩ := h
  exact ⟨w', run_bind_error h next⟩

theorem failed_of_ran {step : Step α} {next : α → Step β} {a : α} {w₁ : Walk} (hr : Ran step w a w₁)
    (h : Failed (next a) w₁ e) : Failed (step >>= next) w e := by
  obtain ⟨w', h⟩ := h
  exact ⟨w', (run_bind_ok hr next).trans h⟩

theorem failed_below {name : String} {step : Step α} (h : Failed step (w.enter name) e) :
    Failed (below name step) w e := by
  obtain ⟨w', h⟩ := h
  exact ⟨w'.leaveTo w, by rw [run_below, h]⟩

end

/-- The walk has come to `path`; the nodes in `entered` have fragments and the uses in `seen` slots. -/
structure Stands (g : Graph) (path : List String) (entered : List (Fin g.size))
    (seen : List VariableSite) (w : Walk) : Prop where
  path : w.path = path
  fragments : ∀ k, g.HasFragment w.fragments k ↔ k ∈ entered
  reused : ∀ k ∈ entered, 1 < (g.node k).uses
  slots : ∀ n, (w.vars.find? (·.entry.name == n)).map (fun s => (s.explicit, s.entry.type)) =
    (seen.find? (·.name == n)).map fun s => (s.explicit, s.type)

/-- The step, from `w` on, goes as the checkpoints: it fails where they are not passed, and else it
ends at the same path, with fragments for the nodes in `entered`. -/
def Follows {α : Type} (g : Graph) (path : List String) (step : Step α) (w : Walk)
    (seen : List VariableSite) (cs : List Checkpoint) (entered : List (Fin g.size)) : Prop :=
  match passAll seen cs with
  | .ok seen' => ∃ a w', Ran step w a w' ∧ Stands g path entered seen' w'
  | .error e => Failed step w e

section
variable {α β : Type} {g : Graph} {path : List String} {entered entered' : List (Fin g.size)}
  {seen : List VariableSite} {w : Walk}

theorem Follows.pure (a : α) (hw : Stands g path entered seen w) :
    Follows g path (pure a : Step α) w seen [] entered :=
  ⟨a, w, ran_pure.2 ⟨rfl, rfl⟩, hw⟩

theorem Follows.bind {step : Step α} {next : α → Step β} {cs cs' : List Checkpoint}
    (h : Follows g path step w seen cs entered)
    (h' : ∀ a w₁ seen₁, Stands g path entered seen₁ w₁ →
      Follows g path (next a) w₁ seen₁ cs' entered') :
    Follows g path (step >>= next) w seen (cs ++ cs') entered' := by
  unfold Follows at h ⊢
  rw [passAll_append]
  cases hc : passAll seen cs with
  | error e =>
    rw [hc] at h
    exact failed_bind h
  | ok seen₁ =>
    rw [hc] at h
    obtain ⟨a, w₁, hr, hw₁⟩ := h
    have hnext := h' a w₁ seen₁ hw₁
    unfold Follows at hnext
    change match passAll seen₁ cs' with
      | .ok seen' => ∃ b w', Ran (step >>= next) w b w' ∧ Stands g path entered' seen' w'
      | .error e => Failed (step >>= next) w e
    cases hc' : passAll seen₁ cs' with
    | error e =>
      rw [hc'] at hnext
      exact failed_of_ran hr hnext
    | ok seen₂ =>
      rw [hc'] at hnext
      obtain ⟨b, w₂, hr₂, hw₂⟩ := hnext
      exact ⟨b, w₂, ran_bind.2 ⟨a, w₁, hr, hr₂⟩, hw₂⟩

/-- What comes after the checkpoints only puts results together. -/
theorem Follows.map {step : Step α} {f : α → β} {cs : List Checkpoint}
    (h : Follows g path step w seen cs entered) :
    Follows g path (step >>= fun a => Pure.pure (f a)) w seen cs entered := by
  have hb : Follows g path (step >>= fun a => Pure.pure (f a)) w seen (cs ++ []) entered :=
    h.bind fun a _ _ hw => .pure (f a) hw
  rwa [List.append_nil] at hb

theorem Follows.get {next : Walk → Step β} {cs : List Checkpoint}
    (h : Follows g path (next w) w seen cs entered) :
    Follows g path (MonadState.get >>= next) w seen cs entered := by
  unfold Follows at h ⊢
  have hget : Ran (MonadState.get : Step Walk) w w w := ran_get.2 ⟨rfl, rfl⟩
  split at h
  · obtain ⟨b, w', hr, hw⟩ := h
    exact ⟨b, w', ran_get_bind.2 hr, hw⟩
  · exact failed_of_ran hget h

theorem Follows.below {name : String} {step : Step α} {cs : List Checkpoint}
    (hw : Stands g path entered seen w)
    (h : Follows g (path ++ [name]) step (w.enter name) seen cs entered') :
    Follows g path (Walk.below name step) w seen cs entered' := by
  unfold Follows at h ⊢
  split at h
  · obtain ⟨a, w', hr, hw'⟩ := h
    refine ⟨a, w'.leaveTo w, ran_below.2 ⟨w', hr, rfl⟩, ?_⟩
    exact ⟨hw.path, hw'.fragments, hw'.reused, hw'.slots⟩
  · exact failed_below h

theorem Follows.throw {c : Checkpoint} {cs : List Checkpoint} {e : Failure}
    (hc : c.pass seen = .error e) :
    Follows g path (throw e : Step α) w seen (c :: cs) entered := by
  unfold Follows
  rw [← List.singleton_append, passAll_append, passAll_singleton, hc]
  exact failed_throw

/-- A checkpoint that is passed and leaves nothing behind. -/
theorem Follows.passed {step : Step α} {c : Checkpoint} {cs : List Checkpoint}
    (hc : c.pass seen = .ok seen) (h : Follows g path step w seen cs entered) :
    Follows g path step w seen (c :: cs) entered := by
  unfold Follows at h ⊢
  rwa [← List.singleton_append, passAll_append, passAll_singleton, hc]

theorem Stands.enter (h : Stands g path entered seen w) (name : String) :
    Stands g (path ++ [name]) entered seen (w.enter name) :=
  ⟨congrArg (· ++ [name]) h.path, h.fragments, h.reused, h.slots⟩

theorem Stands.logged (h : Stands g path entered seen w) (e : Event) :
    Stands g path entered seen (w.logged e) :=
  ⟨h.path, h.fragments, h.reused, h.slots⟩

theorem Follows.log {next : Unit → Step β} {cs : List Checkpoint} {e : Event}
    (h : Follows g path (next ()) (w.logged e) seen cs entered) :
    Follows g path (Walk.log e >>= next) w seen cs entered := by
  unfold Follows at h ⊢
  split at h
  · obtain ⟨b, w', hr, hw⟩ := h
    exact ⟨b, w', ran_log_bind.2 hr, hw⟩
  · exact failed_of_ran (ran_log.2 rfl) h

theorem Stands.mem_entered (h : Stands g path entered seen w) {k : Fin g.size} {f : FragmentOutline}
    (hf : fragmentOf? w (g.node k) = some f) : k ∈ entered := by
  obtain ⟨-, hm, hid⟩ := fragmentOf?_eq_some hf
  exact (h.fragments k).1 ⟨f, hm, hid⟩

theorem Stands.notMem_entered (h : Stands g path entered seen w) {k : Fin g.size}
    (hf : fragmentOf? w (g.node k) = none) : k ∉ entered := by
  intro hk
  obtain ⟨f, hm, hid⟩ := (h.fragments k).2 hk
  exact fragmentOf?_eq_none hf (h.reused k hk) f hm hid

end

/-! ## Variables and fragments -/

theorem find?_addUse (slots : List VariableSlot) (name path n : String) :
    ((VariableSlot.addUse slots name path).find? (·.entry.name == n)).map
        (fun s => (s.explicit, s.entry.type)) =
      (slots.find? (·.entry.name == n)).map fun s => (s.explicit, s.entry.type) := by
  rw [VariableSlot.addUse, List.find?_map, Option.map_map]
  congr 1
  · funext s
    simp only [Function.comp_apply]
    split <;> rfl
  · congr 1
    funext s
    simp only [Function.comp_apply]
    split <;> rfl

theorem ran_lift_bind {β : Type} {next : Unit → Step β} {b : β} {w w' : Walk} :
    Ran (useVariable.liftExcept (.ok ()) >>= next) w b w' ↔ Ran (next ()) w b w' := Iff.rfl

section
variable {key : String} {explicitName : Option String} (type : Option String)
  (default : Option Value) {w : Walk}

theorem useVariable_new
    (hv : w.vars.find? (·.entry.name == explicitName.getD (placeName w.path key)) = none) :
    ∃ w', Ran (useVariable key explicitName type default) w
        (explicitName.getD (placeName w.path key)) w' ∧
      w'.path = w.path ∧ w'.fragments = w.fragments ∧
      w'.vars = w.vars ++ [⟨⟨explicitName.getD (placeName w.path key), type,
        [Failure.pathText w.path], default⟩, explicitName.isSome⟩] := by
  rw [useVariable]
  simp only [ran_get_bind, hv, ran_log_bind, ran_modify_bind]
  exact ⟨_, ran_pure.2 ⟨rfl, rfl⟩, rfl, rfl, rfl⟩

theorem useVariable_fits {slot : VariableSlot}
    (hv : w.vars.find? (·.entry.name == explicitName.getD (placeName w.path key)) = some slot)
    (hc : VariableSlot.checkUse slot explicitName.isSome type w.path = .ok ()) :
    ∃ w', Ran (useVariable key explicitName type default) w
        (explicitName.getD (placeName w.path key)) w' ∧
      w'.path = w.path ∧ w'.fragments = w.fragments ∧
      w'.vars = VariableSlot.addUse w.vars (explicitName.getD (placeName w.path key))
        (Failure.pathText w.path) := by
  rw [useVariable]
  simp only [ran_get_bind, hv, hc, ran_lift_bind, ran_log_bind, ran_modify_bind]
  exact ⟨_, ran_pure.2 ⟨rfl, rfl⟩, rfl, rfl, rfl⟩

theorem useVariable_fails {slot : VariableSlot} {e : Failure}
    (hv : w.vars.find? (·.entry.name == explicitName.getD (placeName w.path key)) = some slot)
    (hc : VariableSlot.checkUse slot explicitName.isSome type w.path = .error e) :
    Failed (useVariable key explicitName type default) w e := by
  have hget : Ran (MonadState.get : Step Walk) w w w := ran_get.2 ⟨rfl, rfl⟩
  rw [useVariable]
  refine failed_of_ran hget ?_
  simp only [hv, hc]
  exact failed_bind failed_throw

end

section
variable {g : Graph} {path : List String} {entered : List (Fin g.size)} {seen : List VariableSite}
  {w : Walk}

/-- A use of a name that has no slot yet. -/
theorem Stands.slots_new (h : Stands g path entered seen w) {slot : VariableSlot} {s : VariableSite}
    (hn : slot.entry.name = s.name) (ho : slot.explicit = s.explicit) (ht : slot.entry.type = s.type)
    (n : String) :
    ((w.vars ++ [slot]).find? (·.entry.name == n)).map (fun s => (s.explicit, s.entry.type)) =
      ((seen ++ [s]).find? (·.name == n)).map fun s => (s.explicit, s.type) := by
  have hslots := h.slots n
  simp only [List.find?_append, List.find?_singleton]
  cases hv : w.vars.find? (·.entry.name == n) with
  | some v =>
    cases hs : seen.find? (·.name == n) with
    | some s' => rwa [hv, hs] at hslots
    | none =>
      rw [hv, hs] at hslots
      cases hslots
  | none =>
    cases hs : seen.find? (·.name == n) with
    | some s' =>
      rw [hv, hs] at hslots
      cases hslots
    | none =>
      simp only [Option.none_or, hn]
      split
      · simp [ho, ht]
      · rfl

/-- A further use of a name does not change what is found first. -/
theorem find?_seen_again {s first : VariableSite} (hf : seen.find? (·.name == s.name) = some first)
    (n : String) : (seen ++ [s]).find? (·.name == n) = seen.find? (·.name == n) := by
  rw [List.find?_append]
  cases hs : seen.find? (·.name == n) with
  | some s' => rfl
  | none =>
    have hne : s.name ≠ n := by
      rintro rfl
      rw [hs] at hf
      cases hf
    simp [hne]

theorem useVariable_follows (hw : Stands g path entered seen w) (key : String)
    (name type : Option String) (default : Option Value) :
    Follows g path (useVariable key name type default) w seen
      [.use ⟨path, key, name.getD (placeName path key), name.isSome, type, default⟩] entered := by
  obtain rfl := hw.path
  unfold Follows
  rw [passAll_singleton, Checkpoint.pass]
  have hslots := hw.slots (name.getD (placeName w.path key))
  dsimp only
  cases hv : w.vars.find? (·.entry.name == name.getD (placeName w.path key)) with
  | none =>
    rw [hv] at hslots
    rw [Option.map_eq_none_iff.1 hslots.symm]
    obtain ⟨w', hr, hp, hf, hvars⟩ := useVariable_new type default hv
    refine ⟨_, w', hr, hp, fun k => hf ▸ hw.fragments k, hw.reused, fun n => ?_⟩
    rw [hvars]
    exact hw.slots_new rfl rfl rfl n
  | some slot =>
    rw [hv] at hslots
    obtain ⟨first, hfirst, hfits⟩ := Option.map_eq_some_iff.1 hslots.symm
    obtain ⟨ho, ht⟩ := Prod.mk.inj hfits
    have hslot : slot.entry.name = name.getD (placeName w.path key) := by
      simpa using List.find?_some hv
    have hcheck : VariableSlot.checkUse slot name.isSome type w.path = first.check
        ⟨w.path, key, name.getD (placeName w.path key), name.isSome, type, default⟩ := by
      rw [VariableSlot.checkUse, VariableSite.check, ho, ht, hslot]
    rw [hfirst]
    dsimp only
    rw [← hcheck]
    cases hc : VariableSlot.checkUse slot name.isSome type w.path with
    | error e => exact useVariable_fails type default hv hc
    | ok u =>
      obtain ⟨w', hr, hp, hf, hvars⟩ := useVariable_fits type default hv hc
      refine ⟨_, w', hr, hp, fun k => hf ▸ hw.fragments k, hw.reused, fun n => ?_⟩
      rw [hvars, find?_addUse, hw.slots n, find?_seen_again hfirst]

theorem arguments_follows (hw : Stands g path entered seen w) (args : OrderedMap String Argument) :
    Follows g path (arguments args) w seen ((sitesAt path args).map .use) entered := by
  induction args generalizing seen w with
  | nil => exact .pure [] hw
  | cons a args ih =>
    obtain ⟨key, ⟨value, type⟩ | ⟨name, type, default⟩⟩ := a
    · rw [arguments]
      exact (ih hw).map
    · rw [arguments]
      exact (useVariable_follows hw key name type default).bind fun used w₁ seen₁ hw₁ => (ih hw₁).map

theorem mem_putFragment_self (fs : List FragmentOutline) (f : FragmentOutline) :
    f ∈ putFragment fs f := by
  fun_induction putFragment fs f with
  | case1 f => exact .head _
  | case2 f' fs f he => exact .head _
  | case3 f' fs f he ih => exact .tail _ ih

theorem mem_of_mem_putFragment {fs : List FragmentOutline} {f f' : FragmentOutline}
    (h : f' ∈ putFragment fs f) : f' = f ∨ f' ∈ fs := by
  fun_induction putFragment fs f with
  | case1 f => exact .inl (List.mem_singleton.1 h)
  | case2 f₁ fs f he =>
    rcases List.mem_cons.1 h with rfl | h
    · exact .inl rfl
    · exact .inr (.tail _ h)
  | case3 f₁ fs f he ih =>
    rcases List.mem_cons.1 h with rfl | h
    · exact .inr (.head _)
    · exact (ih h).imp id (.tail _)

/-- A shape that has a fragment keeps one. -/
theorem exists_mem_putFragment {fs : List FragmentOutline} {f' : FragmentOutline} (h : f' ∈ fs)
    (f : FragmentOutline) : ∃ f'' ∈ putFragment fs f, f''.shapeId = f'.shapeId := by
  fun_induction putFragment fs f with
  | case1 f => cases h
  | case2 f₁ fs f he =>
    rcases List.mem_cons.1 h with rfl | h
    · exact ⟨f, .head _, he.symm⟩
    · exact ⟨f', .tail _ h, rfl⟩
  | case3 f₁ fs f he ih =>
    rcases List.mem_cons.1 h with rfl | h
    · exact ⟨f', .head _, rfl⟩
    · obtain ⟨f'', hm, hid⟩ := ih h
      exact ⟨f'', .tail _ hm, hid⟩

theorem register_follows (hg : g.Arranged) (hw : Stands g path entered seen w) (k : Fin g.size)
    (hu : 1 < (g.node k).uses) (ss : List Selection) :
    Follows g path (register (g.node k) ss) w seen [] (entered ++ [k]) := by
  obtain ⟨w', hr, hp, hv⟩ := ran_register (g.node k) ss w
  refine ⟨_, w', hr, hp.trans hw.path, fun j => ?_, fun j hj => ?_, ?_⟩
  · rw [(register_put hr).2, List.mem_append, List.mem_singleton, ← hw.fragments j]
    constructor
    · rintro ⟨f, hf, hid⟩
      rcases mem_of_mem_putFragment hf with rfl | hf
      · exact .inr (hg.inj j k hid.symm)
      · exact .inl ⟨f, hf, hid⟩
    · rintro (⟨f, hf, hid⟩ | rfl)
      · obtain ⟨f', hf', hid'⟩ := exists_mem_putFragment hf _
        exact ⟨f', hf', hid'.trans hid⟩
      · exact ⟨_, mem_putFragment_self _ _, rfl⟩
  · rcases List.mem_append.1 hj with hj | hj
    · exact hw.reused j hj
    · rwa [List.mem_singleton.1 hj]
  · rw [hv]
    exact hw.slots

end

/-! ## The walk -/

section
variable {g : Graph}

mutual

theorem group_follows (hg : g.Arranged) (k : Fin g.size) {path : List String}
    {entered : List (Fin g.size)} {seen : List VariableSite} {w : Walk}
    (hw : Stands g path entered seen w) :
    Follows g path (group g k) w seen (g.groupChecks path k entered).1
      (g.groupChecks path k entered).2 := by
  rw [group, Graph.groupChecks]
  apply Follows.get
  split
  · rename_i f hf
    rw [if_pos (hw.mem_entered hf)]
    exact .log (.pure _ (hw.logged _))
  · rename_i hf
    rw [if_neg (hw.notMem_entered hf)]
    dsimp only
    have hinside := fields_follows hg k (g.node k).fields hw
    rw [← List.append_nil (g.fieldsChecks path k (g.node k).fields entered).1]
    refine hinside.bind fun ss w₁ seen₁ hw₁ => ?_
    split
    · rename_i hu
      exact (register_follows hg hw₁ k hu ss).map
    · exact .pure _ hw₁
termination_by (k.val, 1, 0)

theorem splice_follows (hg : g.Arranged) (k : Fin g.size) {path : List String}
    {entered : List (Fin g.size)} {seen : List VariableSite} {w : Walk}
    (hw : Stands g path entered seen w) :
    Follows g path (splice g k) w seen (g.spliceChecks path k entered).1
      (g.spliceChecks path k entered).2 := by
  rw [splice, Graph.spliceChecks]
  apply Follows.get
  split
  · rename_i f hf
    rw [if_pos (hw.mem_entered hf)]
    exact .log (.pure _ (hw.logged _))
  · rename_i hf
    rw [if_neg (hw.notMem_entered hf)]
    exact fields_follows hg k (g.node k).fields hw
termination_by (k.val, 1, 0)

theorem fields_follows (hg : g.Arranged) (k : Fin g.size) (fs : List Field) {path : List String}
    {entered : List (Fin g.size)} {seen : List VariableSite} {w : Walk}
    (hw : Stands g path entered seen w) :
    Follows g path (fields g k fs) w seen (g.fieldsChecks path k fs entered).1
      (g.fieldsChecks path k fs entered).2 := by
  match fs with
  | [] =>
    rw [fields_nil, Graph.fieldsChecks]
    exact .pure [] hw
  | f :: fs =>
    rw [fields_cons, Graph.fieldsChecks]
    dsimp only
    have hhere : Follows g path
        (below f.name (if (g.node k).isUnion = true then branch g k f else field g k f)) w seen
        (if (g.node k).isUnion = true then g.memberChecks (path ++ [f.name]) k f entered
          else g.fieldChecks (path ++ [f.name]) k f entered).1
        (if (g.node k).isUnion = true then g.memberChecks (path ++ [f.name]) k f entered
          else g.fieldChecks (path ++ [f.name]) k f entered).2 := by
      apply Follows.below hw
      split
      · exact branch_follows hg k f (hw.enter f.name)
      · exact field_follows hg k f (hw.enter f.name)
    exact hhere.bind fun here w₁ seen₁ hw₁ => (fields_follows hg k fs hw₁).map
termination_by (k.val, 0, fs.length + 1)

theorem field_follows (hg : g.Arranged) (k : Fin g.size) (f : Field) {path : List String}
    {entered : List (Fin g.size)} {seen : List VariableSite} {w : Walk}
    (hw : Stands g path entered seen w) :
    Follows g path (field g k f) w seen (g.fieldChecks path k f entered).1
      (g.fieldChecks path k f entered).2 := by
  have hargs := arguments_follows hw f.arguments
  rw [field, Graph.fieldChecks]
  cases hc : g.child? k f with
  | none =>
    split
    · exact .pure [] hw
    · exact hargs.map
  | some child =>
    obtain ⟨i, hlt⟩ := child
    split
    · exact splice_follows hg i hw
    · exact hargs.bind fun operands w₁ seen₁ hw₁ => (group_follows hg i hw₁).map
termination_by (k.val, 0, 0)

theorem branch_follows (hg : g.Arranged) (k : Fin g.size) (f : Field) {path : List String}
    {entered : List (Fin g.size)} {seen : List VariableSite} {w : Walk}
    (hw : Stands g path entered seen w) :
    Follows g path (branch g k f) w seen (g.memberChecks path k f entered).1
      (g.memberChecks path k f entered).2 := by
  rw [branch, Graph.memberChecks]
  split
  · exact .pure _ hw
  · cases hc : g.child? k f with
    | none =>
      apply Follows.get
      rw [hw.path]
      exact .throw rfl
    | some child =>
      obtain ⟨i, hlt⟩ := child
      cases hn : (g.node i).name with
      | none =>
        dsimp only
        rw [hn]
        apply Follows.get
        rw [hw.path]
        exact .throw rfl
      | some type =>
        dsimp only
        rw [hn]
        exact .passed rfl (group_follows hg i hw).map
termination_by (k.val, 0, 0)

end

end

theorem Stands.initial (g : Graph) : Stands g [] [] [] {} := by
  refine ⟨rfl, fun k => ?_, fun _ hk => (List.not_mem_nil hk).elim, fun _ => rfl⟩
  constructor
  · rintro ⟨f, hf, -⟩
    exact (List.not_mem_nil hf).elim
  · intro hk
    exact (List.not_mem_nil hk).elim

end Walk

/-! ## The whole operation -/

theorem Outline.ofGraph_follows {g : Graph} (hg : g.Arranged) (hr : g.root ≠ none) :
    match passAll [] g.checkpoints with
    | .ok _ => ∃ o, Outline.ofGraph g = .ok o
    | .error e => Outline.ofGraph g = .error e := by
  obtain ⟨k, hk⟩ := Option.ne_none_iff_exists'.1 hr
  obtain ⟨hlt, -⟩ := hg.root k hk
  have hwalk := Walk.group_follows hg ⟨k, hlt⟩ (Walk.Stands.initial g)
  have hchecks : g.checkpoints = (g.groupChecks [] ⟨k, hlt⟩ []).1 := by
    simp only [Graph.checkpoints, hk, hlt, ↓reduceDIte]
  rw [Walk.Follows, ← hchecks] at hwalk
  simp only [Outline.ofGraph, Outline.ofGraphLogged, hk, hlt, ↓reduceDIte]
  cases hp : passAll [] g.checkpoints with
  | ok seen =>
    rw [hp] at hwalk
    obtain ⟨group, w, hran, -⟩ := hwalk
    rw [show (Walk.group g ⟨k, hlt⟩).run.run {} = (.ok group, w) from hran]
    exact ⟨_, rfl⟩
  | error e =>
    rw [hp] at hwalk
    obtain ⟨w, hfail⟩ := hwalk
    rw [hfail]
    rfl

/-- A graph with a root compiles just if its checkpoints are consistent. Otherwise it fails for the
first of them that does not fit those before it. -/
theorem compiles_iff_consistent {κ : Type} [DecidableEq κ] {t : ShapeTable κ} {root : κ} {g : Graph}
    (hx : Graph.extract t root = .ok g) (hr : g.root ≠ none) (unit : String) :
    ((∃ c, g.compile unit = .ok c) ↔ Consistent g.checkpoints) ∧
      ∀ e, g.compile unit = .error e ↔ FirstOffence g.checkpoints e := by
  have hwalk := Outline.ofGraph_follows (Graph.arranged_extract hx) hr
  rw [Graph.compile_eq]
  cases hp : passAll [] g.checkpoints with
  | ok seen =>
    rw [hp] at hwalk
    obtain ⟨o, ho⟩ := hwalk
    have hc : Consistent g.checkpoints := (passAll_eq_ok.1 hp).1
    have hn : ∀ e, ¬ FirstOffence g.checkpoints e := by
      intro e he
      rw [passAll_eq_error.2 he] at hp
      cases hp
    rw [ho]
    refine ⟨⟨fun _ => hc, fun _ => ⟨_, rfl⟩⟩, fun e => ⟨fun he => ?_, fun he => absurd he (hn e)⟩⟩
    cases he
  | error e =>
    rw [hp] at hwalk
    have hn : ¬ Consistent g.checkpoints := by
      intro hc
      rw [passAll_eq_ok.2 ⟨hc, rfl⟩] at hp
      cases hp
    rw [hwalk]
    refine ⟨⟨?_, fun hc => absurd hc hn⟩, fun e' => ?_⟩
    · rintro ⟨c, hc⟩
      cases hc
    · rw [← passAll_eq_error, hp]
      exact ⟨fun h => by cases h; rfl, fun h => by cases h; rfl⟩

/-- A search in which the language is a variable with a type inside a fragment and has no type after
it. -/
def mixedTable : ShapeTable String :=
  ⟨[("item", ⟨"I", some "Item", [{ ident := "name", tag := some "name(in: $lang:Lang)" }]⟩),
    ("search", ⟨"S", none, [{ ident := "hits", type := .shape "item" },
      { ident := "last", type := .shape "item" },
      { ident := "more", tag := some "more(in: $lang)" }]⟩)]⟩

def mixedGraph : Graph where
  nodes := #[⟨"I", some "Item",
      [⟨"name", .scalar, [("in", .variable (some "lang") (some "Lang") none)]⟩], false, 2⟩,
    ⟨"S", none, [⟨"hits", .object (some 0), []⟩, ⟨"last", .object (some 0), []⟩,
      ⟨"more", .scalar, [("in", .variable (some "lang") none none)]⟩], false, 1⟩]
  root := some 1

set_option maxRecDepth 100000 in
theorem extract_mixed : Graph.extract mixedTable "search" = .ok mixedGraph := by cbv

def mixedCheckpoints : List Checkpoint :=
  [.use ⟨["hits", "name"], "in", "lang", true, some "Lang", none⟩,
    .use ⟨["more"], "in", "lang", true, none, none⟩]

theorem checkpoints_mixed : mixedGraph.checkpoints = mixedCheckpoints := by
  simp [Graph.checkpoints, mixedGraph, mixedCheckpoints, Graph.groupChecks, Graph.fieldsChecks,
    Graph.fieldChecks, Graph.size, Graph.node, Graph.child?, FieldKind.nested?, FieldKind.isInline,
    sitesAt, Argument.site?]

theorem compiles_iff_consistent_mixed : Graph.extract mixedTable "search" = .ok mixedGraph ∧
    mixedGraph.root ≠ none ∧ (¬ ∃ c, mixedGraph.compile "\t" = .ok c) ∧
    mixedGraph.compile "\t" = .error (.typeConflict "lang" (some "Lang") none ["more"]) := by
  have hr : mixedGraph.root ≠ none := nofun
  obtain ⟨hok, hfail⟩ := compiles_iff_consistent extract_mixed hr "\t"
  rw [checkpoints_mixed] at hok hfail
  refine ⟨extract_mixed, hr, fun h => ?_, (hfail _).2 ?_⟩
  · have hagree := (hok.1 h).agree _ _ (.head _) (.tail _ (.head _)) rfl
    cases hagree.1
  · have hone : Consistent [.use ⟨["hits", "name"], "in", "lang", true, some "Lang", none⟩] :=
      Consistent.nil.snoc_use fun _ hs => (List.not_mem_nil hs).elim
    have hfirst : (sitesOf (mixedCheckpoints.take 1)).find? (·.name == "lang") =
        some ⟨["hits", "name"], "in", "lang", true, some "Lang", none⟩ := rfl
    refine ⟨mixedCheckpoints.take 1, _, [], rfl, hone, ?_⟩
    exact Offends.type (s := ⟨["more"], "in", "lang", true, none, none⟩) hfirst rfl nofun

end QueryShape
