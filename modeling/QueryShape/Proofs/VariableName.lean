import Mathlib
import QueryShape.Proofs.AnnotationNames
import QueryShape.Proofs.NodeOrigin
import QueryShape.Proofs.VariableTable
import QueryShape.Proofs.Words

/-!
# The names of variables

Where annotations name the fields, the names of variables have name characters only. A variable that is
called after its place still need not have a name: underscores in front get lost, and what comes first
then may be a digit. `variable_names_legal_iff`: it has a name if and only if the first letter or digit
of its place is a letter.
-/

set_option autoImplicit false

namespace QueryShape

open Text

/-! ## Names of places -/

/-- The first letter or digit in the texts is a letter. -/
def leadsWithLetter (texts : List String) : Bool :=
  ((texts.flatMap String.toList).find? Char.isAlphanum).any Char.isAlpha

theorem leadsWithLetter_cons {text : String} (h : leadsWithLetter [text] = true)
    (texts : List String) : leadsWithLetter (text :: texts) = true := by
  simp only [leadsWithLetter, List.flatMap_cons, List.flatMap_nil, List.append_nil] at h ⊢
  rw [List.find?_append]
  cases hfind : text.toList.find? Char.isAlphanum with
  | none =>
    rw [hfind] at h
    cases h
  | some c =>
    rw [hfind] at h
    exact h

/-- The characters of field names: an alias is divided from the name by a colon. -/
def isFieldChar (c : Char) : Bool := isNameChar c || c == ':'

theorem filter_intercalate {α : Type} {p : α → Bool} {sep : List α} (h : sep.filter p = [])
    (ws : List (List α)) : (sep.intercalate ws).filter p = ws.flatten.filter p := by
  induction ws with
  | nil => rfl
  | cons w ws ih =>
    cases ws with
    | nil => simp [List.intercalate_singleton]
    | cons w' ws =>
      rw [List.intercalate_cons_cons, List.filter_append, List.filter_append, h, ih, List.append_nil,
        @List.flatten_cons _ w, List.filter_append]

namespace Walk

/-- The text of a place before it is put into snake case. -/
def placeChars (path : List String) (key : String) : List Char :=
  ("_".intercalate path ++ "_" ++ key).toList.map fun c => if c = ':' then '_' else c

theorem toList_placeName (path : List String) (key : String) :
    (placeName path key).toList = snakeCase (placeChars path key) := String.toList_ofList

variable {path : List String} {key : String}

theorem isNameChar_of_mem_placeChars (hp : ∀ name ∈ path, ∀ c ∈ name.toList, isFieldChar c = true)
    (hk : ∀ c ∈ key.toList, isFieldChar c = true) :
    ∀ c ∈ placeChars path key, isNameChar c = true := by
  have hall : ∀ c ∈ ("_".intercalate path ++ "_" ++ key).toList, isFieldChar c = true := by
    intro c hc
    simp only [String.toList_append, String.toList_intercalate, List.mem_append] at hc
    rcases hc with (hc | hc) | hc
    · rcases mem_intercalate hc with hc | hc
      · rw [List.mem_singleton.1 hc]
        decide
      · obtain ⟨cs, hcs, hc⟩ := List.mem_flatten.1 hc
        obtain ⟨name, hname, rfl⟩ := List.mem_map.1 hcs
        exact hp name hname c hc
    · rw [List.mem_singleton.1 hc]
      decide
    · exact hk c hc
  rw [placeChars, List.forall_mem_map]
  intro c hc
  have hfield := hall c hc
  split
  · decide
  · rename_i hcolon
    simpa [isFieldChar, hcolon] using hfield

/-- The letters and digits of a place are those of its names. -/
theorem filter_placeChars : (placeChars path key).filter Char.isAlphanum =
    ((path ++ [key]).flatMap String.toList).filter Char.isAlphanum := by
  have hcolons : ∀ cs : List Char, (cs.map fun c => if c = ':' then '_' else c).filter
      Char.isAlphanum = cs.filter Char.isAlphanum := by
    intro cs
    induction cs with
    | nil => rfl
    | cons c cs ih =>
      rw [List.map_cons, List.filter_cons, List.filter_cons, ih]
      split
      · rename_i hc
        rw [hc]
        rfl
      · rfl
  rw [placeChars, hcolons]
  simp only [String.toList_append, String.toList_intercalate, List.filter_append]
  rw [filter_intercalate (by decide), List.flatMap_append, List.filter_append, ← List.flatMap_def]
  simp

theorem isNameChar_of_mem_placeName (hp : ∀ name ∈ path, ∀ c ∈ name.toList, isFieldChar c = true)
    (hk : ∀ c ∈ key.toList, isFieldChar c = true) :
    ∀ c ∈ (placeName path key).toList, isNameChar c = true := by
  rw [toList_placeName]
  exact isNameChar_of_mem_snakeCase (isNameChar_of_mem_placeChars hp hk)

theorem isName_placeName (hp : ∀ name ∈ path, ∀ c ∈ name.toList, isFieldChar c = true)
    (hk : ∀ c ∈ key.toList, isFieldChar c = true) :
    isName (placeName path key).toList = leadsWithLetter (path ++ [key]) := by
  rw [toList_placeName, isName_snakeCase (isNameChar_of_mem_placeChars hp hk), leadsWithLetter,
    ← List.head?_filter, filter_placeChars, List.head?_filter]

end Walk

/-! ## Names that annotations give -/

/-- The annotation names the field: by a call, as a discriminator, or by a flag. -/
def Annotation.namesField (a : Annotation) : Bool :=
  a.name.isSome || a.isUnion || a.namingFlag?.isSome

/-- The annotation of the member can be read and names the field. -/
def Member.NamedByTag {κ : Type} (m : Member κ) : Prop :=
  ∃ tag a, m.tag = some tag ∧ Annotation.read tag = .ok a ∧ a.namesField = true

/-- All names in a field are written with name characters. -/
structure Field.Spelled (f : Field) : Prop where
  name : ∀ c ∈ f.name.toList, isFieldChar c = true
  keys : ∀ e ∈ f.arguments, isName e.1.toList = true
  explicit : ∀ e ∈ f.arguments, ∀ n type default, e.2 = .variable (some n) type default →
    isName n.toList = true

theorem isFieldChar_of_isName {cs : List Char} (h : isName cs = true) :
    ∀ c ∈ cs, isFieldChar c = true := by
  intro c hc
  rw [isFieldChar, isNameChar_of_isName h c hc, Bool.true_or]

namespace Annotation

theorem namingFlag?_mem {a : Annotation} {name : String} (h : a.namingFlag? = some name) :
    ∃ f ∈ a.flags, f.name = name := by
  unfold namingFlag? at h
  split at h
  · rename_i f hf
    cases h
    have hmem : f ∈ a.flags.filter fun f => f.isBare && f.name != "inline" && f.name != "union" := by
      rw [hf]
      exact List.mem_singleton_self f
    exact ⟨f, List.mem_of_mem_filter hmem, rfl⟩
  · cases h

end Annotation

/-- The name of the field before it gets an alias. -/
def Annotation.baseName (a : Annotation) (ident : String) : String :=
  match a.name with
  | some name => name
  | none => if a.isUnion then typenameField else a.namingFlag?.getD ident

theorem Member.fieldName_cases {κ : Type} {m : Member κ} {a : Annotation} {id name : String}
    {discriminator : Bool} (h : m.fieldName id (some a) = .ok (name, discriminator)) :
    name = a.baseName m.ident ∨
      ∃ other, a.alias? = some other ∧ name = other ++ ":" ++ a.baseName m.ident := by
  rw [Member.fieldName] at h
  cases hother : a.alias?.filter (· ≠ "") with
  | none =>
    rw [hother] at h
    exact .inl (congrArg Prod.fst (Except.ok.inj h)).symm
  | some other =>
    rw [hother] at h
    change (if (a.isUnion && a.baseName m.ident == typenameField) = true then Except.error _
      else Except.ok (other ++ ":" ++ a.baseName m.ident, false)) = _ at h
    split at h
    · cases h
    · cases h
      exact .inr ⟨other, (Option.filter_eq_some_iff.1 hother).1, rfl⟩

theorem Annotation.Spelled.isName_baseName {a : Annotation} (ha : a.Spelled)
    (hnames : a.namesField = true) (ident : String) : isName (a.baseName ident).toList = true := by
  unfold Annotation.baseName
  split
  · rename_i n hn
    exact ha.name n hn
  · rename_i hn
    split
    · decide
    · rename_i hu
      cases hf : a.namingFlag? with
      | none => simp [ Annotation.namesField, hn, hu, hf] at hnames
      | some n =>
        obtain ⟨f, hmem, rfl⟩ := Annotation.namingFlag?_mem hf
        exact (ha.flags f hmem).1

theorem Annotation.Spelled.isName_alias {a : Annotation} (ha : a.Spelled) {other : String}
    (h : a.alias? = some other) : isName other.toList = true := by
  obtain ⟨f, hf, hvalue⟩ := Option.bind_eq_some_iff.1 h
  exact (ha.flags f (List.mem_of_find?_eq_some hf)).2 other hvalue

/-- An annotation that names the field gives it a name, with or without an alias before it. -/
theorem Annotation.Spelled.fieldName {κ : Type} {a : Annotation} (ha : a.Spelled)
    (hnames : a.namesField = true) {m : Member κ} {id name : String} {discriminator : Bool}
    (h : m.fieldName id (some a) = .ok (name, discriminator)) :
    ∀ c ∈ name.toList, isFieldChar c = true := by
  have hbase := isFieldChar_of_isName (ha.isName_baseName hnames m.ident)
  rcases Member.fieldName_cases h with rfl | ⟨other, hother, rfl⟩
  · exact hbase
  · simp only [String.toList_append, List.forall_mem_append]
    refine ⟨⟨isFieldChar_of_isName (ha.isName_alias hother), fun c hc => ?_⟩, hbase⟩
    rw [List.mem_singleton.1 hc]
    decide

theorem Member.NamedByTag.spelled {κ : Type} {m : Member κ} (hm : m.NamedByTag) {id : String}
    {h : FieldHead} (hh : m.head id = .ok h) {f : Field} (hname : f.name = h.name)
    (harguments : f.arguments = h.arguments) : f.Spelled := by
  obtain ⟨tag, a, htag, hread, hnames⟩ := hm
  have ha := Annotation.spelled_of_read hread
  have hreadTag : m.readTag id = .ok (some a) := by
    simp only [Member.readTag, htag, hread]
  simp only [Member.head, hreadTag] at hh
  split at hh
  · cases hh
  · rename_i name discriminator hfield
    cases hh
    refine ⟨?_, ?_, ?_⟩
    · rw [hname]
      exact ha.fieldName hnames hfield
    · rw [harguments]
      exact ha.keys
    · rw [harguments]
      intro e he n type default hvar
      obtain ⟨_, hs⟩ := ha.arguments e he
      rw [hvar] at hs
      exact hs.isName

/-! ## Sites and fields -/

/-- A field of the graph has the name. -/
def Graph.NamesField (g : Graph) (name : String) : Prop := ∃ k, ∃ f ∈ (g.node k).fields, f.name = name

/-- The site is that of an argument, below fields of the graph. -/
structure VariableSite.InGraph (g : Graph) (s : VariableSite) : Prop where
  below : s.path ≠ []
  path : ∀ name ∈ s.path, g.NamesField name
  argument : ∃ k, ∃ f ∈ (g.node k).fields, s ∈ sitesAt s.path f.arguments

theorem path_of_mem_sitesAt {path : List String} {arguments : OrderedMap String Argument}
    {s : VariableSite} (h : s ∈ sitesAt path arguments) : s.path = path := by
  obtain ⟨⟨key, a⟩, -, hs⟩ := List.mem_filterMap.1 h
  cases a with
  | literal => cases hs
  | «variable» =>
    cases hs
    rfl

theorem inGraph_of_mem_sitesAt {g : Graph} {k : Fin g.size} {f : Field}
    (hf : f ∈ (g.node k).fields) {path : List String} (hne : path ≠ [])
    (hp : ∀ name ∈ path, g.NamesField name) : ∀ s ∈ sitesAt path f.arguments, s.InGraph g := by
  intro s hs
  obtain rfl := path_of_mem_sitesAt hs
  exact ⟨hne, hp, k, f, hf, hs⟩

mutual

/-- The sites of an operation are arguments of the fields of its graph. -/
theorem GroupSites.inGraph {g : Graph} {T T' : List FragmentOutline} {path : List String}
    {k : Fin g.size} {group : Group} {sites : List VariableSite} :
    GroupSites g T path k group T' sites → (∀ name ∈ path, g.NamesField name) →
      ∀ s ∈ sites, s.InGraph g
  | .block h, hp => h.inGraph (fun _ hf => hf) hp
  | .again _ _, _ => nofun
  | .first h _ _, hp => h.inGraph (fun _ hf => hf) hp

theorem FieldsSites.inGraph {g : Graph} {T T' : List FragmentOutline} {path : List String}
    {k : Fin g.size} {fs : List Field} {ss : List Selection} {sites : List VariableSite} :
    FieldsSites g T path k fs ss T' sites → fs ⊆ (g.node k).fields →
      (∀ name ∈ path, g.NamesField name) → ∀ s ∈ sites, s.InGraph g
  | .nil, _, _ => nofun
  | @FieldsSites.cons _ _ _ _ path k f _ _ _ _ _ h hs, hfs, hp => by
    have hf : f ∈ (g.node k).fields := hfs List.mem_cons_self
    have hpath : ∀ name ∈ path ++ [f.name], g.NamesField name := by
      rw [List.forall_mem_append, List.forall_mem_singleton]
      exact ⟨hp, k, f, hf, rfl⟩
    rw [List.forall_mem_append]
    exact ⟨h.inGraph hf (by simp) hpath, hs.inGraph (fun _ hm => hfs (List.mem_cons_of_mem _ hm)) hp⟩

theorem FieldSites.inGraph {g : Graph} {T T' : List FragmentOutline} {path : List String}
    {k : Fin g.size} {f : Field} {ss : List Selection} {sites : List VariableSite} :
    FieldSites g T path k f ss T' sites → f ∈ (g.node k).fields → path ≠ [] →
      (∀ name ∈ path, g.NamesField name) → ∀ s ∈ sites, s.InGraph g
  | .nothing .., _, _, _ => nofun
  | .spread .., _, _, _ => nofun
  | .splice _ _ _ h, _, _, hp => h.inGraph (fun _ hf => hf) hp
  | .leaf .., hf, hne, hp => inGraph_of_mem_sitesAt hf hne hp
  | .nested _ _ _ h, hf, hne, hp => by
    rw [List.forall_mem_append]
    exact ⟨inGraph_of_mem_sitesAt hf hne hp, h.inGraph hp⟩
  | .typename .., _, _, _ => nofun
  | .branch _ _ _ h, _, _, hp => h.inGraph hp

end

/-! ## Names of variables -/

/-- What the spelling of fields says of a site. -/
theorem VariableSite.InGraph.name {g : Graph} {s : VariableSite} (h : s.InGraph g)
    (hg : ∀ k, ∀ f ∈ (g.node k).fields, f.Spelled) :
    (∀ c ∈ s.name.toList, isNameChar c = true) ∧
      isName s.name.toList = (s.explicit || leadsWithLetter (s.path ++ [s.key])) := by
  obtain ⟨path, key, name, explicit, type, default⟩ := s
  obtain ⟨k, f, hf, hs⟩ := h.argument
  have hspelled := hg k f hf
  have hpath : ∀ name ∈ path, ∀ c ∈ name.toList, isFieldChar c = true := by
    intro name hname
    obtain ⟨k', f', hf', rfl⟩ := h.path name hname
    exact (hg k' f' hf').name
  change _ ∈ sitesAt path f.arguments at hs
  obtain ⟨⟨key', a⟩, he, hsite⟩ := List.mem_filterMap.1 hs
  have hkey := isFieldChar_of_isName (hspelled.keys _ he)
  cases a with
  | literal => cases hsite
  | «variable» name type default =>
    cases name with
    | some n =>
      cases hsite
      have hn := hspelled.explicit _ he n type default rfl
      exact ⟨isNameChar_of_isName hn, hn⟩
    | none =>
      cases hsite
      exact ⟨Walk.isNameChar_of_mem_placeName hpath hkey, Walk.isName_placeName hpath hkey⟩

theorem Tabulates.forall_names_iff {sites : List VariableSite} {vars : List Variable}
    (h : Tabulates sites vars) (P : String → Prop) :
    (∀ v ∈ vars, P v.name) ↔ ∀ s ∈ sites, P s.name := by
  constructor
  · intro hP s hs
    obtain ⟨v, hv, hn⟩ := List.mem_map.1 (h.mem_names.2 ⟨s, hs, rfl⟩)
    exact hn ▸ hP v hv
  · intro hP v hv
    obtain ⟨s, hs, hn⟩ := h.mem_names.1 (List.mem_map_of_mem hv)
    exact hn ▸ hP s hs

/-- Where annotations name the fields, the names of variables have name characters only, and such a name
is legal if and only if its variable was named, or called after a place whose first letter or digit is a
letter. That is so in all places if it is so in the names of all fields. -/
theorem variable_names_legal_iff {κ : Type} [DecidableEq κ] {t : ShapeTable κ} {unit : String}
    {root : κ} {c : Compiled}
    (hnamed : ∀ s, t.ReachableFrom root s → ∀ m ∈ s.members, m.NamedByTag)
    (h : t.compile unit (some root) = .ok c) :
    (∃ g k o sites, Graph.extract t root = .ok g ∧ g.root = some k.val ∧
      Outline.ofGraph g = .ok o ∧ c = o.print unit ∧
      GroupSites g [] [] k o.root o.fragments sites ∧ Tabulates sites c.vars ∧
      (∀ s ∈ sites, isName s.name.toList = true ↔
        s.explicit = true ∨ leadsWithLetter (s.path ++ [s.key]) = true) ∧
      ((∀ v ∈ c.vars, isName v.name.toList = true) ↔
        ∀ s ∈ sites, s.explicit = true ∨ leadsWithLetter (s.path ++ [s.key]) = true)) ∧
    (∀ v ∈ c.vars, ∀ x ∈ v.name.toList, isNameChar x = true) ∧
    ((∀ s, t.ReachableFrom root s → ∀ m ∈ s.members, ∀ head, m.head s.id = .ok head →
        leadsWithLetter [head.name] = true) →
      ∀ v ∈ c.vars, isName v.name.toList = true) := by
  obtain ⟨key, g, hkey, hx, hg⟩ := ShapeTable.graph_of_compile h
  cases hkey
  obtain ⟨o, ho, rfl⟩ := Graph.outline_of_compile hg
  obtain ⟨k, w, hk, hr, hv, hw⟩ := Outline.run_of_ofGraph (Graph.arranged_extract hx) ho
  obtain ⟨sites, hs, ht⟩ := hr.sites Tabulates.nil
  rw [List.nil_append, Walk.table, ← hv] at ht
  rw [← hw] at hs
  have hspelled : ∀ k, ∀ f ∈ (g.node k).fields, f.Spelled := by
    intro k f hf
    obtain ⟨s, m, head, hreach, hm, hh, hname, harguments⟩ := Extraction.fromMember_of_extract hx hf
    exact (hnamed s hreach m hm).spelled hh hname harguments
  have hin : ∀ s ∈ sites, s.InGraph g := hs.inGraph nofun
  have hsite : ∀ s ∈ sites, isName s.name.toList = true ↔
      s.explicit = true ∨ leadsWithLetter (s.path ++ [s.key]) = true := by
    intro s hmem
    rw [((hin s hmem).name hspelled).2, Bool.or_eq_true]
  refine ⟨⟨g, k, o, sites, hx, hk, ho, rfl, hs, ht, hsite, ?_⟩, ?_, fun hletters => ?_⟩
  · exact (ht.forall_names_iff fun n => isName n.toList = true).trans (forall₂_congr hsite)
  · exact (ht.forall_names_iff fun n => ∀ x ∈ n.toList, isNameChar x = true).2
      fun s hmem => ((hin s hmem).name hspelled).1
  · refine (ht.forall_names_iff fun n => isName n.toList = true).2 fun s hmem => ?_
    rw [hsite s hmem]
    right
    -- the first name on the path has a letter, so what follows does not matter
    obtain ⟨name, path, hpath⟩ := List.exists_cons_of_ne_nil (hin s hmem).below
    obtain ⟨k', f, hf, rfl⟩ := (hin s hmem).path name (hpath ▸ List.mem_cons_self)
    obtain ⟨shape, m, head, hreach, hm, hh, hname, -⟩ := Extraction.fromMember_of_extract hx hf
    rw [hpath, List.cons_append]
    exact leadsWithLetter_cons (hname ▸ hletters shape hreach m hm head hh) _

/-- It is enough that the members of the entries are named so. -/
theorem ShapeTable.namedByTag_of_entries {κ : Type} [DecidableEq κ] {t : ShapeTable κ} {root : κ}
    (h : ∀ e ∈ t.entries, ∀ m ∈ e.2.members, m.NamedByTag) :
    ∀ s, t.ReachableFrom root s → ∀ m ∈ s.members, m.NamedByTag := by
  intro s hs
  obtain ⟨key, hk⟩ := hs.has
  exact h _ (OrderedMap.mem_of_find? hk)

/-- The posts of users: an alias, an underscore in front and capitals on the way to a variable. -/
def postsTable : ShapeTable String :=
  ⟨[("user", ⟨"U", some "User",
      [{ ident := "p", tag := some "_posts(after: $:String, by: $key:Key)" }]⟩),
    ("query", ⟨"Q", none,
      [{ ident := "us", tag := some "userList(first: $:Int),alias=top", type := .shape "user" }]⟩)]⟩

def postsGraph : Graph where
  nodes := #[⟨"U", some "User", [⟨"_posts", .scalar, [("after", .variable none (some "String") none),
      ("by", .variable (some "key") (some "Key") none)]⟩], false, 1⟩,
    ⟨"Q", none, [⟨"top:userList", .object (some 0), [("first", .variable none (some "Int") none)]⟩],
      false, 1⟩]
  root := some 1

def postsOutline : Outline where
  root := .block [.nested "top:userList" [("first", .variable "top_user_list_first" false)]
    (.block [.leaf "_posts" [("after", .variable "top_user_list_posts_after" false),
      ("by", .variable "key" true)]])]
  vars := [⟨"top_user_list_first", some "Int", ["top:userList"], none⟩,
    ⟨"top_user_list_posts_after", some "String", ["top:userList/_posts"], none⟩,
    ⟨"key", some "Key", ["top:userList/_posts"], none⟩]
  fragments := []

def postsCompiled : Compiled where
  body := "\x7b\n\ttop:userList(first: $top_user_list_first)\x7b\n" ++
    "\t\t_posts(after: $top_user_list_posts_after, by: $key)\n\t\x7d\n\x7d"
  vars := postsOutline.vars
  fragments := []

set_option maxRecDepth 100000 in
theorem extract_posts : Graph.extract postsTable "query" = .ok postsGraph := by cbv

theorem placeName_posts :
    placeName ["top:userList"] "first" = "top_user_list_first" ∧
    placeName ["top:userList", "_posts"] "after" = "top_user_list_posts_after" := by
  decide +kernel

/-- The names of places are known, and not evaluated step by step. -/
theorem ofGraph_posts : Outline.ofGraph postsGraph = .ok postsOutline := by
  have hpath : Failure.pathText ["top:userList"] = "top:userList" ∧
      Failure.pathText ["top:userList", "_posts"] = "top:userList/_posts" := by decide
  simp [Outline.ofGraph, Outline.ofGraphLogged, postsGraph, Graph.size, Graph.node, Graph.child?,
    FieldKind.nested?, FieldKind.isInline, Walk.group, Walk.fields_nil, Walk.fields_cons, Walk.field,
    Walk.enter, Walk.leaveTo, Walk.logged, Walk.arguments, Walk.useVariable, Walk.fragmentOf?,
    placeName_posts, hpath, Except.map]
  rfl

theorem compile_posts : postsTable.compile "\t" (some "query") = .ok postsCompiled := by
  rw [ShapeTable.compile_eq "\t" extract_posts, Graph.compile_eq, ofGraph_posts]
  cbv

theorem namedByTag_posts : ∀ e ∈ postsTable.entries, ∀ m ∈ e.2.members, m.NamedByTag := by
  intro e he m hm
  simp only [postsTable, List.mem_cons, List.not_mem_nil, or_false] at he
  rcases he with rfl | rfl <;> obtain rfl := List.mem_singleton.1 hm
  · exact ⟨_, ⟨some "_posts", [("after", .variable none (some "String") none),
      ("by", .variable (some "key") (some "Key") none)], []⟩, rfl, by cbv, rfl⟩
  · exact ⟨_, ⟨some "userList", [("first", .variable none (some "Int") none)],
      [⟨"alias", some "top"⟩]⟩, rfl, by cbv, rfl⟩

theorem leadsWithLetter_posts : ∀ e ∈ postsTable.entries, ∀ m ∈ e.2.members, ∀ head,
    m.head e.2.id = .ok head → leadsWithLetter [head.name] = true := by
  intro e he m hm head hh
  simp only [postsTable, List.mem_cons, List.not_mem_nil, or_false] at he
  rcases he with rfl | rfl <;> obtain rfl := List.mem_singleton.1 hm
  · have hhead : Member.head (⟨"p", some "_posts(after: $:String, by: $key:Key)", none, false,
        .scalar⟩ : Member String) "U" =
          .ok ⟨"_posts", false, false, [("after", .variable none (some "String") none),
            ("by", .variable (some "key") (some "Key") none)]⟩ := by cbv
    cases hhead.symm.trans hh
    decide
  · have hhead : Member.head
        ⟨"us", some "userList(first: $:Int),alias=top", none, false, .shape "user"⟩ "Q" =
          .ok ⟨"top:userList", false, false, [("first", .variable none (some "Int") none)]⟩ := by cbv
    cases hhead.symm.trans hh
    decide

theorem variable_names_legal_posts :
    (∀ s, postsTable.ReachableFrom "query" s → ∀ m ∈ s.members, m.NamedByTag) ∧
    postsTable.compile "\t" (some "query") = .ok postsCompiled ∧
    (∀ s, postsTable.ReachableFrom "query" s → ∀ m ∈ s.members, ∀ head, m.head s.id = .ok head →
      leadsWithLetter [head.name] = true) ∧
    ∀ v ∈ postsCompiled.vars, isName v.name.toList = true := by
  have hnamed : ∀ s, postsTable.ReachableFrom "query" s → ∀ m ∈ s.members, m.NamedByTag :=
    ShapeTable.namedByTag_of_entries namedByTag_posts
  have hletters : ∀ s, postsTable.ReachableFrom "query" s → ∀ m ∈ s.members, ∀ head,
      m.head s.id = .ok head → leadsWithLetter [head.name] = true := by
    intro s hs
    obtain ⟨key, hk⟩ := hs.has
    exact leadsWithLetter_posts _ (OrderedMap.mem_of_find? hk)
  exact ⟨hnamed, compile_posts, hletters,
    (variable_names_legal_iff hnamed compile_posts).2.2 hletters⟩

/-- A field whose name has a digit after the underscore. -/
def digitTable : ShapeTable String :=
  ⟨[("Q", ⟨"Q", some "Q", [{ ident := "a", tag := some "_1(a: $:Int)" }]⟩)]⟩

def digitCompiled : Compiled where
  body := "\x7b\n  _1(a: $1_a)\n\x7d"
  vars := [⟨"1_a", some "Int", ["_1"], none⟩]
  fragments := []

set_option maxRecDepth 100000 in
/-- The variable loses its underscore, and what is left starts with a digit. -/
theorem variable_name_illegal :
    (∀ s, digitTable.ReachableFrom "Q" s → ∀ m ∈ s.members, m.NamedByTag) ∧
    digitTable.compile "  " (some "Q") = .ok digitCompiled ∧
    digitCompiled.vars.map (·.name) = ["1_a"] ∧ isName "1_a".toList = false := by
  refine ⟨ShapeTable.namedByTag_of_entries ?_, by cbv, rfl, by decide⟩
  intro e he m hm
  obtain rfl := List.mem_singleton.1 he
  obtain rfl := List.mem_singleton.1 hm
  exact ⟨_, ⟨some "_1", [("a", .variable none (some "Int") none)], []⟩, rfl, by cbv, rfl⟩

end QueryShape
