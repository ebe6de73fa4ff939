/-!
# Grammars with ordered choice

A grammar gives a rule for each kind of phrase. `Rule.read` follows a rule over a list of tokens: of two
ways the first that fits is taken, and a repetition takes all it can. The result is a tree that holds every
token that was read, in order.
-/

set_option autoImplicit false

namespace QueryShape

/-- What a phrase consists of, with kinds of phrases `ν` and tokens `τ`. -/
inductive Rule (ν τ : Type) where
  | empty
  | token (test : τ → Bool)
  | phrase (name : ν)
  | next (first second : Rule ν τ)
  /-- The second only where the first does not fit. -/
  | either (first second : Rule ν τ)
  | many (part : Rule ν τ)
  /-- What has to follow, without reading it. -/
  | ahead (part : Rule ν τ)
  /-- What must not follow. -/
  | absent (part : Rule ν τ)

/-- A phrase that has been read. -/
inductive PhraseTree (ν τ : Type) where
  | leaf (token : τ)
  | node (name : ν) (parts : List (PhraseTree ν τ))

namespace PhraseTree

variable {ν τ : Type}

mutual

/-- The tokens of a phrase. -/
def tokens : PhraseTree ν τ → List τ
  | leaf t => [t]
  | node _ parts => tokensOfList parts

def tokensOfList : List (PhraseTree ν τ) → List τ
  | [] => []
  | t :: ts => t.tokens ++ tokensOfList ts

end

theorem tokensOfList_append (as bs : List (PhraseTree ν τ)) :
    tokensOfList (as ++ bs) = tokensOfList as ++ tokensOfList bs := by
  induction as with
  | nil => rfl
  | cons a as ih => simp only [List.cons_append, tokensOfList, ih, List.append_assoc]

end PhraseTree

namespace Rule

variable {ν τ : Type}

/-- What reading gives: the parts that were read and the tokens that are left. -/
abbrev Result (ν τ : Type) := Option (List (PhraseTree ν τ) × List τ)

/-- Reads a part again and again, at most `limit` times and as long as it takes tokens away. -/
def repeated (part : List τ → Result ν τ) : (limit : Nat) → List τ → List (PhraseTree ν τ) × List τ
  | 0, tokens => ([], tokens)
  | limit + 1, tokens =>
    match part tokens with
    | none => ([], tokens)
    | some (parts, rest) =>
      if rest.length < tokens.length then
        let (more, last) := repeated part limit rest
        (parts ++ more, last)
      else ([], tokens)

/-- Follows a rule, given a way to read phrases. -/
def read (phraseOf : ν → List τ → Option (PhraseTree ν τ × List τ)) : Rule ν τ → List τ → Result ν τ
  | empty, tokens => some ([], tokens)
  | token test, tokens =>
    match tokens with
    | [] => none
    | t :: rest => if test t then some ([.leaf t], rest) else none
  | phrase name, tokens =>
    match phraseOf name tokens with
    | none => none
    | some (tree, rest) => some ([tree], rest)
  | next first second, tokens =>
    match first.read phraseOf tokens with
    | none => none
    | some (parts, rest) =>
      match second.read phraseOf rest with
      | none => none
      | some (more, last) => some (parts ++ more, last)
  | either first second, tokens =>
    match first.read phraseOf tokens with
    | none => second.read phraseOf tokens
    | result => result
  | many part, tokens => some (repeated (part.read phraseOf) tokens.length tokens)
  | ahead part, tokens =>
    match part.read phraseOf tokens with
    | none => none
    | some _ => some ([], tokens)
  | absent part, tokens =>
    match part.read phraseOf tokens with
    | none => some ([], tokens)
    | some _ => none

/-- Reads a phrase whose parts are nested at most `depth` deep. -/
def readPhrase (grammar : ν → Rule ν τ) : (depth : Nat) → ν → List τ → Option (PhraseTree ν τ × List τ)
  | 0, _, _ => none
  | depth + 1, name, tokens =>
    match (grammar name).read (readPhrase grammar depth) tokens with
    | none => none
    | some (parts, rest) => some (.node name parts, rest)

/-! ## No token is lost -/

theorem tokens_repeated {part : List τ → Result ν τ}
    (h : ∀ {ts parts rest}, part ts = some (parts, rest) → PhraseTree.tokensOfList parts ++ rest = ts)
    (limit : Nat) (ts : List τ) :
    PhraseTree.tokensOfList (repeated part limit ts).1 ++ (repeated part limit ts).2 = ts := by
  induction limit generalizing ts with
  | zero => rfl
  | succ limit ih =>
    rw [repeated]
    split
    · rfl
    · rename_i parts rest hp
      split
      · rw [PhraseTree.tokensOfList_append, List.append_assoc, ih rest, h hp]
      · rfl

theorem tokens_read {phraseOf : ν → List τ → Option (PhraseTree ν τ × List τ)}
    (h : ∀ {n ts tree rest}, phraseOf n ts = some (tree, rest) → tree.tokens ++ rest = ts)
    (r : Rule ν τ) {ts rest : List τ} {parts : List (PhraseTree ν τ)}
    (hr : r.read phraseOf ts = some (parts, rest)) : PhraseTree.tokensOfList parts ++ rest = ts := by
  induction r generalizing ts parts rest with
  | empty => simp_all [read, PhraseTree.tokensOfList]
  | token test =>
    cases ts with
    | nil => simp [read] at hr
    | cons t ts =>
      simp only [read] at hr
      split at hr
      · obtain ⟨rfl, rfl⟩ := Prod.mk.inj (Option.some.inj hr)
        rfl
      · cases hr
  | phrase n =>
    simp only [read] at hr
    split at hr
    · cases hr
    · rename_i tree rest' hn
      obtain ⟨rfl, rfl⟩ := Prod.mk.inj (Option.some.inj hr)
      simpa [PhraseTree.tokensOfList] using h hn
  | next a b iha ihb =>
    simp only [read] at hr
    split at hr
    · cases hr
    · rename_i parts₁ rest₁ ha
      split at hr
      · cases hr
      · rename_i parts₂ rest₂ hb
        obtain ⟨rfl, rfl⟩ := Prod.mk.inj (Option.some.inj hr)
        rw [PhraseTree.tokensOfList_append, List.append_assoc, ihb hb, iha ha]
  | either a b iha ihb =>
    simp only [read] at hr
    split at hr
    · exact ihb hr
    · exact iha hr
  | many a ih =>
    simp only [read] at hr
    have key := tokens_repeated (fun hp => ih hp) ts.length ts
    rwa [Option.some.inj hr] at key
  | ahead a _ =>
    simp only [read] at hr
    split at hr
    · cases hr
    · obtain ⟨rfl, rfl⟩ := Prod.mk.inj (Option.some.inj hr)
      rfl
  | absent a _ =>
    simp only [read] at hr
    split at hr
    · obtain ⟨rfl, rfl⟩ := Prod.mk.inj (Option.some.inj hr)
      rfl
    · cases hr

/-- The tokens of a phrase and those that are left make up all tokens. -/
theorem tokens_readPhrase {grammar : ν → Rule ν τ} (depth : Nat) {n : ν} {ts rest : List τ}
    {tree : PhraseTree ν τ} (h : readPhrase grammar depth n ts = some (tree, rest)) :
    tree.tokens ++ rest = ts := by
  induction depth generalizing n ts rest tree with
  | zero => cases h
  | succ depth ih =>
    rw [readPhrase] at h
    split at h
    · cases h
    · rename_i parts rest' hr
      obtain ⟨rfl, rfl⟩ := Prod.mk.inj (Option.some.inj h)
      exact tokens_read ih (grammar n) hr

/-! ## Combinations -/

def sequence : List (Rule ν τ) → Rule ν τ
  | [] => empty
  | [r] => r
  | r :: rs => next r (sequence rs)

/-- The first of several that fits. -/
def choice : List (Rule ν τ) → Rule ν τ
  | [] => absent empty
  | [r] => r
  | r :: rs => either r (choice rs)

def optional (r : Rule ν τ) : Rule ν τ := either r empty

/-- The end of the tokens. -/
def atEnd : Rule ν τ := absent (token fun _ => true)

/-- Any number of parts with separators between them, and perhaps one after the last. -/
def separated (part separator : Rule ν τ) : Rule ν τ :=
  optional (sequence [part, many (next separator part), optional separator])

end Rule

end QueryShape
