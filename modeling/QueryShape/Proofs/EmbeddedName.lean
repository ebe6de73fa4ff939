import Mathlib
import QueryShape.Declaration.Scope
import QueryShape.Proofs.DerivedRecord

/-!
# Names of embedded members

An embedded member is named after the type inside the wrappers of its own type. Two functions look
through wrappers: `TypeExpr.innermostName` finds the name, and `Scope.typeRef` finds the shape. The first
knows fewer wrappers: it stops at a shared pointer, whose name it takes, and at an array, which has
none. `embedded_ident_iff`: the two agree where all wrappers are known to both, and nowhere else.
-/

set_option autoImplicit false

namespace QueryShape

/-! ## Wrapped types -/

/-- The wrappers that have names. -/
inductive WrapperName where
  | option
  | vec
  | box
  | arc
  | rc
deriving DecidableEq, Repr

def WrapperName.text : WrapperName → String
  | option => "Option"
  | vec => "Vec"
  | box => "Box"
  | arc => "Arc"
  | rc => "Rc"

/-- What can stand around a type: a name, with any path in front, or an array. -/
inductive Wrapper where
  | named (front : List String) (name : WrapperName)
  | array (length : Int)

namespace Wrapper

def wrap : Wrapper → TypeExpr → TypeExpr
  | named front name, t => .path (front ++ [name.text]) [t]
  | array length, t => .array t length

/-- The type inside several wrappers, the outermost one first. -/
def wrapAll (ws : List Wrapper) (t : TypeExpr) : TypeExpr := ws.foldr wrap t

/-- Whether a name is looked for inside it. -/
def isNamedThrough : Wrapper → Bool
  | named _ .option | named _ .vec | named _ .box => true
  | named _ .arc | named _ .rc | array _ => false

/-- The name that is found for a type called `name` inside wrappers. -/
def nameIn (name : String) : List Wrapper → String
  | [] => name
  | named _ n :: ws => if isWrapper n.text then nameIn name ws else n.text
  | array _ :: _ => ""

theorem isNamedThrough_named (front : List String) (n : WrapperName) :
    (named front n).isNamedThrough = isWrapper n.text := by
  cases n <;> rfl

theorem isWrapper_of_ne {name : String} (h : ∀ n : WrapperName, name ≠ n.text) :
    isWrapper name = false := by
  simp [isWrapper, show name ≠ "Option" from h .option, show name ≠ "Vec" from h .vec,
    show name ≠ "Box" from h .box]

theorem isType_wrapAll (ws : List Wrapper) (segments : List String) (arguments : List TypeExpr) :
    (wrapAll ws (.path segments arguments)).isType = true := by
  cases ws with
  | nil => rfl
  | cons w ws => cases w <;> rfl

theorem innermostName_wrapAll (ws : List Wrapper) {front : List String} {name : String}
    (arguments : List TypeExpr) (hname : isWrapper name = false) :
    (wrapAll ws (.path (front ++ [name]) arguments)).innermostName = nameIn name ws := by
  induction ws with
  | nil =>
    cases arguments with
    | nil => simp [wrapAll, TypeExpr.innermostName, nameIn]
    | cons t ts => simp [wrapAll, TypeExpr.innermostName, nameIn, hname]
  | cons w ws ih =>
    cases w with
    | array length => rfl
    | named front' n =>
      show TypeExpr.innermostName (.path (front' ++ [n.text]) [wrapAll ws _]) = _
      rw [TypeExpr.innermostName, List.getLast?_concat, isType_wrapAll, Bool.and_true, ih]
      rfl

theorem nameIn_eq_iff {name : String} (hne : name ≠ "") (hname : ∀ n : WrapperName, name ≠ n.text)
    (ws : List Wrapper) : nameIn name ws = name ↔ ∀ w ∈ ws, w.isNamedThrough = true := by
  induction ws with
  | nil => simp [nameIn]
  | cons w ws ih =>
    rw [List.forall_mem_cons]
    cases w with
    | array length => simp [nameIn, isNamedThrough, hne.symm]
    | named front n =>
      rw [isNamedThrough_named]
      by_cases hn : isWrapper n.text = true
      · simp [nameIn, hn, ih]
      · simp [nameIn, hn, (hname n).symm]

end Wrapper

/-! ## References through wrappers -/

theorem Scope.shape?_typeRef_wrapAll {s : Scope} (hs : ∀ n : WrapperName, s.declaration? n.text = none)
    (ws : List Wrapper) (t : TypeExpr) :
    (s.typeRef (Wrapper.wrapAll ws t)).shape? = (s.typeRef t).shape? := by
  induction ws with
  | nil => rfl
  | cons w ws ih =>
    rw [← ih]
    cases w with
    | array length =>
      show (s.typeRef (.array (Wrapper.wrapAll ws t) length)).shape? = _
      rw [Scope.typeRef]
      rfl
    | named front n =>
      show (s.typeRef (.path (front ++ [n.text]) [Wrapper.wrapAll ws t])).shape? = _
      rw [Scope.typeRef, List.getLast?_concat, Option.getD_some, hs n, Scope.firstRef]
      cases n <;> rfl

/-! ## Embedded members -/

/-- Every embedded member leads to the shape that its type wraps, but it has that shape's name if and only
if the wrappers are all among `Option`, `Vec` and `Box`. -/
theorem embedded_ident_iff {s : Scope} (hs : ∀ n : WrapperName, s.declaration? n.text = none)
    {d : Declaration} {fields : List FieldDeclaration} {ds : DerivedShape}
    (hbody : d.body = .record fields) (hd : d.derive = .ok ds) :
    List.Forall₂ (fun f m => ∀ ws front name arguments,
      (f.hasWord "graphql" "flatten" || f.hasWord "serde" "flatten") = true →
      f.type = Wrapper.wrapAll ws (.path (front ++ [name]) arguments) → name ≠ "" →
      (s.declaration? name).isSome = true →
        m.embedded = true ∧ (s.typeRef f.type).shape? = some (.path [name] arguments) ∧
          (m.ident = name ↔ ∀ w ∈ ws, w.isNamedThrough = true))
      (fields.filter (·.isShown)) ds.members := by
  refine (Declaration.describes_of_derive hbody hd).imp fun f m hm ws front name arguments hflat htype
    hne hdecl => ?_
  have hname : ∀ n : WrapperName, name ≠ n.text := by
    rintro n rfl
    rw [hs n] at hdecl
    cases hdecl
  have hembedded : m.embedded = true := hm.embedded.trans hflat
  refine ⟨hembedded, ?_, ?_⟩
  · rw [htype, s.shape?_typeRef_wrapAll hs, Scope.typeRef, List.getLast?_concat, Option.getD_some,
      if_pos hdecl]
    rfl
  · rw [hm.ident, if_pos hembedded, htype,
      Wrapper.innermostName_wrapAll ws arguments (Wrapper.isWrapper_of_ne hname)]
    exact Wrapper.nameIn_eq_iff hne hname ws

/-- A record that embeds a wrapped `Foo`. -/
def embedding (ws : List Wrapper) : Declaration where
  name := "Q"
  body := .record [⟨"meta", Wrapper.wrapAll ws (.path ["Foo"] []), [.list "graphql" [.word "flatten"]]⟩]

def fooScope : Scope := { modulePath := "app", declarations := [{ name := "Foo", body := .record [] }] }

theorem declaration?_fooScope (n : WrapperName) : fooScope.declaration? n.text = none := by
  cases n <;> rfl

theorem derive_embedding (ws : List Wrapper) :
    (embedding ws).derive = .ok ⟨"Q", [{
      ident := (Wrapper.wrapAll ws (.path ["Foo"] [])).innermostName
      embedded := true
      type := some (Wrapper.wrapAll ws (.path ["Foo"] [])) }]⟩ :=
  (Declaration.outcome_derive (d := embedding ws) rfl).eq_ok rfl

theorem embedded_ident_boxed :
    ∃ m, (embedding [.named [] .option, .named ["std", "vec"] .vec, .named [] .box]).derive =
      .ok ⟨"Q", [m]⟩ ∧ m.embedded = true ∧ m.ident = "Foo" := by
  have hd := derive_embedding [.named [] .option, .named ["std", "vec"] .vec, .named [] .box]
  have hm := (List.forall₂_cons.1 (embedded_ident_iff declaration?_fooScope rfl hd)).1 _ [] "Foo" []
    rfl rfl (by decide) rfl
  exact ⟨_, hd, hm.1, hm.2.2.2 (by simp [Wrapper.isNamedThrough])⟩

/-- A shared pointer gives its own name to the member, which leads to the shape it points to. -/
theorem embedded_ident_shared :
    ∃ m, (embedding [.named [] .arc]).derive = .ok ⟨"Q", [m]⟩ ∧ m.embedded = true ∧
      m.type.bind (fun t => (fooScope.typeRef t).shape?) = some (.path ["Foo"] []) ∧
      m.ident = "Arc" := by
  refine ⟨_, derive_embedding [.named [] .arc], rfl, ?_, ?_⟩
  · exact Scope.shape?_typeRef_wrapAll declaration?_fooScope [.named [] .arc] (.path ["Foo"] [])
  · exact @Wrapper.innermostName_wrapAll [.named [] .arc] [] "Foo" [] (by decide)

end QueryShape
