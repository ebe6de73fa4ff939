import QueryShape.Proofs.AnnotationReading

/-!
# The names in annotations

What an annotation calls by name was written as a name, and what it gives to an argument has a text in
the grammar: `spelled_of_read`.
-/

set_option autoImplicit false

namespace QueryShape

namespace Annotation

open Text

variable {α : Type} {s : List Char}

theorem Separated.exists_of_mem {P : List Char → α → Prop} {as : List α} (h : Separated P s as) :
    ∀ a ∈ as, ∃ t, P t a := by
  induction h with
  | one h =>
    rw [List.forall_mem_singleton]
    exact ⟨_, h⟩
  | cons h _ _ ih =>
    rw [List.forall_mem_cons]
    exact ⟨⟨_, h⟩, ih⟩

theorem Listed.exists_of_mem {P : List Char → α → Prop} {as : List α} (h : Listed P s as) :
    ∀ a ∈ as, ∃ t, P t a := by
  cases h with
  | nil => simp
  | some h => exact h.exists_of_mem

theorem NameText.isName {n : String} (h : NameText s n) : isName n.toList = true := by
  obtain ⟨-, ht⟩ := h
  rwa [String.toList_ofList]

theorem FlagText.isName {f : Flag} (h : FlagText s f) :
    isName f.name.toList = true ∧ ∀ v, f.value = some v → Text.isName v.toList = true := by
  obtain ⟨hn, hv⟩ := h
  refine ⟨hn.isName, fun v hvalue => ?_⟩
  cases hv with
  | none => cases hvalue
  | some _ h =>
    cases hvalue
    exact h.isName

theorem ArgumentText.isName {n : String} {type : Option String} {default : Option Value}
    (h : ArgumentText s (.variable (some n) type default)) : isName n.toList = true := by
  cases h with
  | ofVariable _ hn _ _ =>
    cases hn with
    | present ht => rwa [String.toList_ofList]

/-- All parts of an annotation were written. -/
structure Spelled (a : Annotation) : Prop where
  name : ∀ n, a.name = some n → isName n.toList = true
  keys : ∀ e ∈ a.arguments, isName e.1.toList = true
  arguments : ∀ e ∈ a.arguments, ∃ s, ArgumentText s e.2
  flags : ∀ f ∈ a.flags, isName f.name.toList = true ∧ ∀ v, f.value = some v → isName v.toList = true

theorem CallText.spelled {name : String} {arguments : List (String × Argument)}
    (h : CallText s name arguments) {flags : List Flag} (hf : ∀ f ∈ flags, ∃ t, FlagText t f) :
    Spelled { name, arguments, flags } := by
  obtain ⟨hn, -, hargs, -, -⟩ := h
  refine ⟨fun n hname => ?_, fun e he => ?_, fun e he => ?_, fun f hmem => ?_⟩
  · cases hname
    exact hn.isName
  · obtain ⟨_, hk, -, -⟩ := hargs.exists_of_mem e he
    exact hk.isName
  · obtain ⟨_, -, -, ha⟩ := hargs.exists_of_mem e he
    exact ⟨_, ha⟩
  · obtain ⟨_, h⟩ := hf f hmem
    exact h.isName

theorem spelled_of_read {text : String} {a : Annotation} (h : read text = .ok a) : Spelled a := by
  have hread : readChars text.toList = .ok a := by
    unfold read at h
    split at h
    · rename_i hr
      cases h
      exact hr
    · cases h
  generalize text.toList = cs at hread
  obtain ⟨-, rfl⟩ | hd := readChars_sound hread
  · exact ⟨nofun, nofun, nofun, nofun⟩
  · cases hd with
    | flags hf _ =>
      refine ⟨nofun, nofun, nofun, fun f hmem => ?_⟩
      obtain ⟨_, h⟩ := hf.exists_of_mem f hmem
      exact h.isName
    | call hc _ => exact hc.spelled nofun
    | callFlags hc _ hf _ => exact hc.spelled hf.exists_of_mem

end Annotation

end QueryShape
