import Mathlib
import QueryShape.Declaration.Derive

/-!
# What the attributes of a field say

The marks of a field are gathered attribute by attribute and item by item. `outcome_ofAttributes` says what
they come to without an order between the attributes of the two families: a mark is set by any item that
is the word for it, a text is given by the last item that assigns it, and nothing else in the lists counts.
`Outcome` carries both halves of such a statement through the folds: what is accepted gives this, and
what is not accepted fails.
-/

set_option autoImplicit false

namespace QueryShape

/-! ## Results that are there or not -/

section
variable {α β σ ε : Type}

/-- The result is `s` if `ok`, and a failure if not. -/
structure Outcome (r : Except ε σ) (ok : Bool) (s : σ) : Prop where
  eq_ok : ok = true → r = .ok s
  failed : ok = false → ∃ e, r = .error e

theorem outcome_ok (s : σ) : Outcome (.ok s : Except ε σ) true s :=
  ⟨fun _ => rfl, nofun⟩

theorem outcome_error (e : ε) (s : σ) : Outcome (.error e : Except ε σ) false s :=
  ⟨nofun, fun _ => ⟨e, rfl⟩⟩

theorem Outcome.bind {r : Except ε α} {ok ok' : Bool} {a : α} {k : α → Except ε β} {b : β}
    (h : Outcome r ok a) (hk : Outcome (k a) ok' b) : Outcome (r >>= k) (ok && ok') b := by
  cases ok with
  | false =>
    obtain ⟨e, rfl⟩ := h.failed rfl
    exact outcome_error e b
  | true =>
    rw [h.eq_ok rfl]
    exact hk

theorem Outcome.error_iff {r : Except ε σ} {ok : Bool} {s : σ} (h : Outcome r ok s) :
    (∃ e, r = .error e) ↔ ok = false := by
  cases ok with
  | false => exact ⟨fun _ => rfl, h.failed⟩
  | true => simp [h.eq_ok rfl]

theorem Outcome.eq_of_ok {r : Except ε σ} {ok : Bool} {s s' : σ} (h : Outcome r ok s)
    (hr : r = .ok s') : s' = s := by
  cases ok with
  | false =>
    obtain ⟨e, he⟩ := h.failed rfl
    cases hr.symm.trans he
  | true => exact (Except.ok.inj (hr.symm.trans (h.eq_ok rfl)))

/-- A fold whose steps are accepted one by one, and whose accepted steps add up. -/
theorem outcome_foldlM {f : σ → β → Except ε σ} {ok : β → Bool} (add : σ → List β → σ)
    (hnil : ∀ s, add s [] = s) (hadd : ∀ s b l, add (add s [b]) l = add s (b :: l)) (l : List β)
    (hf : ∀ s, ∀ b ∈ l, Outcome (f s b) (ok b) (add s [b])) (s : σ) :
    Outcome (l.foldlM f s) (l.all ok) (add s l) := by
  induction l generalizing s with
  | nil =>
    rw [hnil]
    exact outcome_ok s
  | cons b l ih =>
    rw [List.foldlM_cons, List.all_cons, ← hadd]
    exact (hf s b List.mem_cons_self).bind (ih (fun s c hc => hf s c (List.mem_cons_of_mem b hc)) _)

theorem outcome_mapM {f : α → Except ε β} {ok : α → Bool} {g : α → β} (l : List α)
    (hf : ∀ a ∈ l, Outcome (f a) (ok a) (g a)) : Outcome (l.mapM f) (l.all ok) (l.map g) := by
  induction l with
  | nil => exact outcome_ok []
  | cons a l ih =>
    rw [List.mapM_cons, List.all_cons, List.map_cons]
    refine (hf a List.mem_cons_self).bind ?_
    rw [← Bool.and_true (l.all ok)]
    exact (ih fun b hb => hf b (List.mem_cons_of_mem a hb)).bind (outcome_ok _)

end

/-! ## Items -/

namespace Attribute

/-- The items of a list, without what is known of their place. -/
def contents (items : List Attribute) : List Attribute := (listItems items).map (·.content)

def isList : Attribute → Bool
  | list _ _ => true
  | _ => false

/-- The items of the list of an attribute. -/
def listed : Attribute → List Attribute
  | list _ items => contents items
  | _ => []

def isWord (w : String) : Attribute → Bool
  | word path => path = w
  | _ => false

/-- The text assigned to `w`. -/
def assigned? (w : String) : Attribute → Option String
  | assign path (.text s) => if path = w then some s else none
  | _ => none

/-- The items of the list of an attribute with the path `family`. -/
def itemsOf (family : String) (a : Attribute) : List Attribute := if a.path = family then a.listed else []

/-- Whether a `graphql` list of a field may hold the item. -/
def isFieldItem (a : Attribute) : Bool :=
  (a.assigned? "tag").isSome || a.isWord "flatten" || a.isWord "skip" || a.isWord "scalar"

/-- Whether a `graphql` list of a declaration may hold the item. -/
def isContainerItem (a : Attribute) : Bool := (a.assigned? "name").isSome

/-- Whether the item assigns to `rename` something that is no text. -/
def isBadRename : Attribute → Bool
  | assign path .other => path = "rename"
  | _ => false

/-- Whether the item is none of those in a `serde` list that count. -/
def isIdle : Attribute → Bool
  | word path => path ≠ "flatten" && path ≠ "skip"
  | assign path _ => path ≠ "rename"
  | list _ _ => true

/-- Whether the paths in a `serde` list pass. -/
def isNamed : Attribute → Bool
  | list path items => !(path = "serde") || (listItems items).all (·.checkNames.isOk)
  | _ => true

/-- Whether a field may have the attribute, as far as it does not depend on the paths. -/
def isAccepted (a : Attribute) : Bool :=
  if a.path = "graphql" then a.isList && a.listed.all isFieldItem
  else if a.path = "serde" then a.isList && a.listed.all (!·.isBadRename)
  else true

theorem isWord_iff {w : String} {a : Attribute} : a.isWord w = true ↔ a = .word w := by
  cases a <;> simp [isWord]

theorem isSome_assigned?_iff {w : String} {a : Attribute} :
    (a.assigned? w).isSome = true ↔ ∃ s, a = .assign w (.text s) := by
  cases a with
  | assign path value => cases value <;> simp [assigned?]
  | word path => simp [assigned?]
  | list path items => simp [assigned?]

theorem isBadRename_iff {a : Attribute} : a.isBadRename = true ↔ a = .assign "rename" .other := by
  cases a with
  | assign path value => cases value <;> simp [isBadRename]
  | word path => simp [isBadRename]
  | list path items => simp [isBadRename]

theorem isFieldItem_eq_false_iff {a : Attribute} :
    a.isFieldItem = false ↔
      (∀ s, a ≠ .assign "tag" (.text s)) ∧ ∀ w ∈ ["flatten", "skip", "scalar"], a ≠ .word w := by
  rw [← Bool.not_eq_true]
  simp [isFieldItem, isWord_iff, isSome_assigned?_iff, and_assoc]

theorem isContainerItem_eq_false_iff {a : Attribute} :
    a.isContainerItem = false ↔ ∀ s, a ≠ .assign "name" (.text s) := by
  rw [← Bool.not_eq_true]
  simp [isContainerItem, isSome_assigned?_iff]

theorem mem_itemsOf {family : String} {a x : Attribute} :
    x ∈ a.itemsOf family ↔ a.path = family ∧ x ∈ a.listed := by
  unfold itemsOf
  split <;> simp_all

theorem isAccepted_eq_false_iff {a : Attribute} :
    a.isAccepted = false ↔ (a.path = "graphql" ∨ a.path = "serde") ∧ a.isList = false ∨
      (∃ x ∈ a.itemsOf "graphql", x.isFieldItem = false) ∨ .assign "rename" .other ∈ a.itemsOf "serde" := by
  simp only [mem_itemsOf]
  unfold isAccepted
  by_cases hg : a.path = "graphql"
  · cases a.isList <;> simp [hg]
  by_cases hs : a.path = "serde"
  · cases a.isList <;> simp [hs, isBadRename_iff]
  · simp [hg, hs]

theorem isNamed_of_ne {a : Attribute} (h : a.path ≠ "serde") : a.isNamed = true := by
  cases a with
  | word path => rfl
  | assign path value => rfl
  | list path items => simp [isNamed, show path ≠ "serde" from h]

theorem contents_cons_cons (a b : Attribute) (l : List Attribute) :
    contents (a :: b :: l) = a :: contents (b :: l) := by
  cases a <;> rfl

theorem contents_append_cons (xs : List Attribute) (x : Attribute) (l : List Attribute) :
    contents (xs ++ x :: l) = xs ++ contents (x :: l) := by
  induction xs with
  | nil => rfl
  | cons y xs ih =>
    cases xs with
    | nil => exact contents_cons_cons y x l
    | cons z xs =>
      rw [List.cons_append, List.cons_append, contents_cons_cons, ← List.cons_append, ih]
      rfl

theorem contents_cons {a : Attribute} (h : a.path ≠ "") (l : List Attribute) :
    contents (a :: l) = a :: contents l := by
  cases l with
  | cons b l => exact contents_cons_cons a b l
  | nil =>
    cases a with
    | word path =>
      unfold contents listItems
      rw [if_neg (show path ≠ "" from h)]
      rfl
    | assign path value => rfl
    | list path items => rfl

theorem contents_append {xs : List Attribute} (h : ∀ x ∈ xs, x.path ≠ "") (l : List Attribute) :
    contents (xs ++ l) = xs ++ contents l := by
  induction xs with
  | nil => rfl
  | cons x xs ih =>
    rw [List.cons_append, contents_cons (h x List.mem_cons_self),
      ih fun y hy => h y (List.mem_cons_of_mem x hy), List.cons_append]

end Attribute

/-- What is done with the items of an attribute is done if it is a list. -/
theorem Attribute.outcome_items {σ : Type} {k : List AttributeItem → Except DeriveError σ} {ok : Bool}
    {s : σ} (a : Attribute) (h : ∀ path l, a = .list path l → Outcome (k (listItems l)) ok s) :
    Outcome (a.items >>= k) (a.isList && ok) s := by
  cases a with
  | word path => exact outcome_error _ _
  | assign path value => exact outcome_error _ _
  | list path l => exact h path l rfl

/-- A fold over the items of a list that looks at their contents only. -/
theorem outcome_contents {σ ε : Type} {f : σ → AttributeItem → Except ε σ} (ok : Attribute → Bool)
    (add : σ → List Attribute → σ) (hnil : ∀ s, add s [] = s)
    (hadd : ∀ s x l, add (add s [x]) l = add s (x :: l))
    (hf : ∀ s i, Outcome (f s i) (ok i.content) (add s [i.content])) (items : List Attribute) (s : σ) :
    Outcome ((Attribute.listItems items).foldlM f s) ((Attribute.contents items).all ok)
      (add s (Attribute.contents items)) := by
  unfold Attribute.contents
  rw [List.all_map]
  exact outcome_foldlM (fun s (l : List AttributeItem) => add s (l.map AttributeItem.content)) hnil
    (fun s i l => hadd s i.content (l.map AttributeItem.content)) _ (fun s i _ => hf s i) s

/-! ## Paths -/

/-- Names with two colons before each. -/
inductive MoreNames : List TypeToken → Prop where
  | nil : MoreNames []
  | cons {w : String} {b : Bool} {tokens : List TypeToken} (hw : isPathWord w = true)
      (h : MoreNames tokens) : MoreNames (.sign ':' true :: .sign ':' b :: .word w :: tokens)

/-- A path of names, with or without two colons in front, or the word that stands alone for what is unsafe. -/
inductive NamePath : List TypeToken → Prop where
  | names {w : String} {tokens : List TypeToken} (hw : isPathWord w = true) (h : MoreNames tokens) :
      NamePath (.word w :: tokens)
  | rooted {tokens : List TypeToken} (h : MoreNames tokens) (hne : tokens ≠ []) : NamePath tokens
  | isUnsafe : NamePath [.word "unsafe"]

/-- The items of a `serde` list have paths of names. -/
def Attribute.WellNamed (a : Attribute) : Prop :=
  a.path = "serde" → ∀ x ∈ a.listed, NamePath (TypeToken.scan x.path.toList)

theorem MoreNames.dropWords_eq {tokens : List TypeToken} (h : MoreNames tokens)
    (fault : List TypeToken → DeriveError) :
    AttributeItem.dropWords isPathWord fault tokens = .ok [] := by
  induction h with
  | nil => rfl
  | cons hw _ ih => rw [AttributeItem.dropWords, if_pos hw, ih]

theorem not_isPathWord_keyword : isPathWord "unsafe" = false := by cbv

theorem AttributeItem.checkNames_of_namePath {i : AttributeItem}
    (h : NamePath (TypeToken.scan i.path.toList)) : i.checkNames = .ok () := by
  unfold checkNames pathTokens
  generalize TypeToken.scan i.path.toList = tokens at h
  cases h with
  | isUnsafe => rfl
  | @names w tokens hw h =>
    have hne : w ≠ "unsafe" := by
      rintro rfl
      rw [not_isPathWord_keyword] at hw
      exact Bool.false_ne_true hw
    simp [hne, hw, h.dropWords_eq]
    rfl
  | rooted h hne =>
    cases h with
    | nil => exact absurd rfl hne
    | cons hw h =>
      simp [hw, h.dropWords_eq]
      rfl

theorem isNamed_of_wellNamed {a : Attribute} (h : a.WellNamed) : a.isNamed = true := by
  cases a with
  | word path => rfl
  | assign path value => rfl
  | list path items =>
    by_cases hs : path = "serde"
    · refine Bool.or_eq_true_iff.2 (.inr (List.all_eq_true.2 fun i hi => ?_))
      rw [AttributeItem.checkNames_of_namePath (h hs i.content (List.mem_map_of_mem hi))]
      rfl
    · exact Attribute.isNamed_of_ne hs

theorem path_ne_of_namePath {path : String} (h : NamePath (TypeToken.scan path.toList)) : path ≠ "" := by
  intro hpath
  have hscan : TypeToken.scan "".toList = [] := by decide +kernel
  rw [hpath, hscan] at h
  cases h with
  | rooted _ hne => exact hne rfl

theorem AttributeItem.checkWords_of_word {i : AttributeItem} {w : String}
    (h : TypeToken.scan i.path.toList = [.word w]) : i.checkWords = .ok () := by
  unfold checkWords pathTokens
  rw [h]
  rfl

/-! ## Gathering marks -/

namespace Marks

/-- The marks with what the items of `graphql` lists and of `serde` lists say. -/
def after (m : Marks) (graphql serde : List Attribute) : Marks where
  tag := ((graphql.filterMap (·.assigned? "tag")).getLast?).or m.tag
  rename := ((serde.filterMap (·.assigned? "rename")).getLast?).or m.rename
  flatten := graphql.any (·.isWord "flatten") || serde.any (·.isWord "flatten") || m.flatten
  skip := graphql.any (·.isWord "skip") || serde.any (·.isWord "skip") || m.skip
  scalar := graphql.any (·.isWord "scalar") || m.scalar

theorem after_nil (m : Marks) : m.after [] [] = m := by
  simp [after]

theorem after_after (m : Marks) (g s g' s' : List Attribute) :
    (m.after g s).after g' s' = m.after (g ++ g') (s ++ s') := by
  simp only [after, List.filterMap_append, List.getLast?_append, List.any_append, mk.injEq]
  refine ⟨?_, ?_, ?_, ?_, ?_⟩
  · rw [Option.or_assoc]
  · rw [Option.or_assoc]
  · ac_rfl
  · ac_rfl
  · ac_rfl

/-- The words that a `graphql` list of a field knows. -/
def fieldWords : List String := ["tag", "flatten", "skip", "scalar"]

theorem scan_of_mem_fieldWords : ∀ w ∈ fieldWords, TypeToken.scan w.toList = [.word w] := by
  decide +kernel

theorem isFieldItem_of_not_mem {a : Attribute} (h : a.path ∉ fieldWords) : a.isFieldItem = false := by
  simp only [fieldWords, List.mem_cons, List.not_mem_nil, or_false, not_or] at h
  cases a with
  | word path => simp_all [Attribute.isFieldItem, Attribute.assigned?, Attribute.isWord, Attribute.path]
  | assign path value =>
    cases value <;>
      simp_all [Attribute.isFieldItem, Attribute.assigned?, Attribute.isWord, Attribute.path]
  | list path items => rfl

theorem outcome_takeGraphql (m : Marks) (i : AttributeItem) :
    Outcome (m.takeGraphql i) i.content.isFieldItem (m.after [i.content] []) := by
  by_cases hp : i.path ∈ fieldWords
  · have hwords := AttributeItem.checkWords_of_word (scan_of_mem_fieldWords i.path hp)
    unfold takeGraphql
    rw [hwords]
    obtain ⟨content, ends⟩ := i
    simp only [fieldWords, List.mem_cons, List.not_mem_nil, or_false] at hp
    cases content with
    | word path =>
      change path = _ ∨ path = _ ∨ path = _ ∨ path = _ at hp
      rcases hp with rfl | rfl | rfl | rfl
      · exact outcome_error _ _
      · exact outcome_ok _
      · exact outcome_ok _
      · exact outcome_ok _
    | assign path value =>
      change path = _ ∨ path = _ ∨ path = _ ∨ path = _ at hp
      cases value with
      | text s =>
        rcases hp with rfl | rfl | rfl | rfl
        · exact outcome_ok _
        all_goals exact outcome_error _ _
      | other => rcases hp with rfl | rfl | rfl | rfl <;> exact outcome_error _ _
    | list path items =>
      change path = _ ∨ path = _ ∨ path = _ ∨ path = _ at hp
      rcases hp with rfl | rfl | rfl | rfl <;> exact outcome_error _ _
  · rw [isFieldItem_of_not_mem hp]
    simp only [fieldWords, List.mem_cons, List.not_mem_nil, or_false, not_or] at hp
    obtain ⟨htag, hflatten, hskip, hscalar⟩ := hp
    unfold takeGraphql
    rw [if_neg htag, if_neg hflatten, if_neg hskip, if_neg hscalar]
    cases i.checkWords with
    | error e => exact outcome_error _ _
    | ok u => exact outcome_error _ _

theorem outcome_takeSerde (m : Marks) (i : AttributeItem) :
    Outcome (m.takeSerde i) (!i.content.isBadRename) (m.after [] [i.content]) := by
  unfold takeSerde
  cases i.content with
  | word path =>
    by_cases hflatten : path = "flatten"
    · subst hflatten
      exact outcome_ok _
    by_cases hskip : path = "skip"
    · subst hskip
      exact outcome_ok _
    · simp [Attribute.isBadRename, after, Attribute.assigned?, Attribute.isWord, hflatten, hskip,
        outcome_ok]
  | assign path value =>
    by_cases hrename : path = "rename"
    · subst hrename
      cases value with
      | text s => exact outcome_ok _
      | other => exact outcome_error _ _
    · cases value <;>
        simp [Attribute.isBadRename, after, Attribute.assigned?, Attribute.isWord, hrename, outcome_ok]
  | list path items => exact outcome_ok m

theorem outcome_checkNames (items : List AttributeItem) :
    Outcome (items.forM AttributeItem.checkNames) (items.all (·.checkNames.isOk)) () := by
  induction items with
  | nil => exact outcome_ok ()
  | cons i items ih =>
    rw [List.forM, List.all_cons]
    cases i.checkNames with
    | error e => exact outcome_error e ()
    | ok u => exact ih

theorem take_serde (m : Marks) {items : List Attribute}
    (h : (Attribute.list "serde" items).isNamed = true) :
    m.take (.list "serde" items) =
      (Attribute.contents items).foldlM (fun m x => m.takeSerde ⟨x, false⟩) m := by
  show ((Attribute.listItems items).forM AttributeItem.checkNames >>= fun _ => _) = _
  rw [(outcome_checkNames _).eq_ok h, Attribute.contents, List.foldlM_map]
  rfl

theorem takeSerde_of_isIdle (m : Marks) {i : AttributeItem} (h : i.content.isIdle = true) :
    m.takeSerde i = .ok m := by
  unfold takeSerde
  cases hi : i.content with
  | word path =>
    rw [hi] at h
    simp only [Attribute.isIdle, Bool.and_eq_true, decide_eq_true_eq] at h
    dsimp only
    rw [if_neg h.1, if_neg h.2]
  | assign path value =>
    rw [hi] at h
    simp only [Attribute.isIdle, decide_eq_true_eq] at h
    dsimp only
    rw [if_neg h]
  | list path items => rfl

/-- An item that does not count may stand anywhere in a list. -/
theorem take_insert (m : Marks) {xs ys : List Attribute} {x : Attribute} (hx : x.isIdle = true)
    (hpath : x.path ≠ "") (h : (Attribute.list "serde" (xs ++ x :: ys)).WellNamed) :
    m.take (.list "serde" (xs ++ x :: ys)) = m.take (.list "serde" (xs ++ ys)) := by
  have hcontents := Attribute.contents_append_cons xs x ys
  rw [Attribute.contents_cons hpath] at hcontents
  have hnames : ∀ y ∈ xs ++ x :: Attribute.contents ys, NamePath (TypeToken.scan y.path.toList) :=
    hcontents ▸ h rfl
  have hcontents' := Attribute.contents_append
    (fun y (hy : y ∈ xs) => path_ne_of_namePath (hnames y (List.mem_append_left _ hy))) ys
  have h' : (Attribute.list "serde" (xs ++ ys)).WellNamed := by
    intro _ y hy
    refine hnames y ?_
    rw [Attribute.listed, hcontents', List.mem_append] at hy
    exact List.mem_append.2 (hy.imp_right (List.mem_cons_of_mem x))
  rw [take_serde m (isNamed_of_wellNamed h), take_serde m (isNamed_of_wellNamed h'), hcontents,
    hcontents', List.foldlM_append, List.foldlM_append]
  congr 1
  funext m
  rw [List.foldlM_cons, takeSerde_of_isIdle m (i := ⟨x, false⟩) hx]
  rfl

theorem outcome_take (m : Marks) (a : Attribute) :
    Outcome (m.take a) (a.isNamed && a.isAccepted)
      (m.after (a.itemsOf "graphql") (a.itemsOf "serde")) := by
  unfold take Attribute.isAccepted Attribute.itemsOf
  by_cases hg : a.path = "graphql"
  · have hs : a.path ≠ "serde" := by
      rw [hg]
      decide
    rw [if_pos hg, if_pos hg, if_pos hg, if_neg hs, Attribute.isNamed_of_ne hs, Bool.true_and]
    refine a.outcome_items fun path l hl => ?_
    subst hl
    exact outcome_contents _ (fun m l => m.after l []) after_nil
      (fun m x l => after_after m [x] [] l []) outcome_takeGraphql l m
  rw [if_neg hg, if_neg hg, if_neg hg]
  by_cases hs : a.path = "serde"
  · rw [if_pos hs, if_pos hs, if_pos hs, Bool.and_left_comm]
    refine a.outcome_items fun path l hl => ?_
    subst hl
    obtain rfl : path = "serde" := hs
    exact (outcome_checkNames _).bind (outcome_contents (!·.isBadRename) (fun m l => m.after [] l)
      after_nil (fun m x l => after_after m [] [x] [] l) outcome_takeSerde l m)
  · rw [if_neg hs, if_neg hs, if_neg hs, Attribute.isNamed_of_ne hs, after_nil]
    exact outcome_ok m

theorem outcome_ofAttributes (attributes : List Attribute) :
    Outcome (ofAttributes attributes) (attributes.all fun a => a.isNamed && a.isAccepted)
      (after {} (attributes.flatMap (·.itemsOf "graphql")) (attributes.flatMap (·.itemsOf "serde"))) := by
  refine outcome_foldlM (fun m (l : List Attribute) => after m (l.flatMap (·.itemsOf "graphql"))
    (l.flatMap (·.itemsOf "serde"))) after_nil (fun m a l => ?_) attributes (fun m a _ => ?_) {}
  · rw [after_after]
    simp only [List.flatMap_cons, List.flatMap_nil, List.append_nil]
  · simpa using outcome_take m a

end Marks

end QueryShape
