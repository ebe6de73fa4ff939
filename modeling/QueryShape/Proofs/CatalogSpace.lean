import Mathlib
import QueryShape.Proofs.CatalogCorrespondence
import QueryShape.Proofs.WalkRenaming
import QueryShape.Proofs.Words

/-!
# The namespace of a catalog

The namespace of a catalog stands before the ids of its shapes, with a dot between. So it comes into
the names of fragments, and into nothing else that is compiled: `space_leads_fragment_names`.
-/

set_option autoImplicit false

namespace QueryShape

/-- The catalog in another namespace. -/
def Catalog.inSpace (c : Catalog) (space : String) : Catalog :=
  ⟨{ c.layout with space }, c.checked⟩

/-- An id in a namespace; the empty one changes nothing. -/
def spacedId (space id : String) : String := if space.isEmpty then id else space ++ "." ++ id

theorem spacedId_injective (space : String) : Function.Injective (spacedId space) := by
  intro id id' h
  unfold spacedId at h
  split at h
  · exact h
  · exact (String.append_right_inj _).1 h

theorem spacedId_dotted (space id name : String) :
    spacedId space (id ++ "." ++ name) = spacedId space id ++ "." ++ name := by
  unfold spacedId
  split
  · rfl
  · simp only [String.append_assoc]

/-! ## Names of fragments -/

theorem fragmentName_dotted (space id : String) :
    fragmentName (space ++ "." ++ id) = fragmentName space ++ fragmentName id := by
  have hchars : (space ++ "." ++ id).toList = space.toList ++ '.' :: id.toList := by simp
  have hdot : (fun c => !(Text.isAlphanumeric c || c == '_')) '.' = true := by
    simp only [Text.isAlphanumeric_dot]
    rfl
  rw [fragmentName, hchars, Text.splitAtChars_append hdot, List.flatMap_append, String.ofList_append]
  rfl

theorem fragmentName_spacedId (space id : String) :
    fragmentName (spacedId space id) = fragmentName space ++ fragmentName id := by
  unfold spacedId
  split
  · rename_i hs
    rw [String.isEmpty_iff.1 hs]
    exact (String.empty_append).symm
  · exact fragmentName_dotted space id

/-! ## Catalogs -/

theorem Catalog.renaming_inSpace (c : Catalog) (space : String) :
    Renaming (c.inSpace "").table.find? (c.inSpace space).table.find? (spacedId space) Eq := by
  have hplace : ∀ type, (c.inSpace "").layout.placeOf? type = (c.inSpace space).layout.placeOf? type :=
    @CatalogLayout.placeOf?_congr (c.inSpace "").layout (c.inSpace space).layout rfl
  exact CatalogLayout.renaming_table (spacedId_injective space) (spacedId_dotted space)
    (fun _ => rfl) (.refl hplace c.layout.shapes)

/-- With a namespace and without one, compiling fails alike or gives the same, but for the names of
fragments: there they start with the name that the namespace itself would give. -/
theorem space_leads_fragment_names (c : Catalog) (space unit : String) (root : ShapePlace) :
    (∃ e e', (c.inSpace "").table.compile unit (some root) = .error e ∧
      (c.inSpace space).table.compile unit (some root) = .error e' ∧
      e'.withoutShapes = e.withoutShapes) ∨
    ∃ g o o', Graph.extract (c.inSpace "").table root = .ok g ∧ Outline.ofGraph g = .ok o ∧
      Graph.extract (c.inSpace space).table root = .ok (g.mapIds (spacedId space)) ∧
      Outline.ofGraph (g.mapIds (spacedId space)) = .ok o' ∧
      (c.inSpace "").table.compile unit (some root) = .ok (o.print unit) ∧
      (c.inSpace space).table.compile unit (some root) = .ok (o'.print unit) ∧
      o.Renamed g (spacedId space) (fragmentName space) o' := by
  have hextract := Graph.extract_renamed (c.renaming_inSpace space) (rfl : root = root)
  rw [ShapeTable.compile_eq_bind, ShapeTable.compile_eq_bind, hextract]
  cases Graph.extract (c.inSpace "").table root with
  | error e => exact .inl ⟨e, _, rfl, rfl, e.withoutShapes_mapIds _⟩
  | ok g =>
    rcases Outline.ofGraph_renamed (spacedId_injective space) (fragmentName_spacedId space) g with
      ⟨e, e', he, he', hsame⟩ | ⟨o, o', ho, ho', hsame⟩
    · exact .inl ⟨e, e', Graph.compile_eq_error.2 he, Graph.compile_eq_error.2 he', hsame⟩
    · exact .inr ⟨g, o, o', rfl, ho, rfl, ho', Graph.compile_of_ofGraph unit ho,
        Graph.compile_of_ofGraph unit ho', hsame⟩

end QueryShape
