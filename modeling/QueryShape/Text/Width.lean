import QueryShape.Text.Emoji
import QueryShape.Text.Ligature

/-!
# Columns of text

How many columns a line of text takes. It is the sum of what its characters take by themselves, except
where several of them are drawn as one: emoji with selectors, skin tones and joiners, flags, and the
ligatures of some scripts. The line is read from its end, since what stands after a character decides what
it adds to the width (`widthStep`).
-/

set_option autoImplicit false

namespace QueryShape.Text

/-- What stands after a character, as far as it matters to the width. -/
inductive Following where
  | plain
  | skinTone
  | flagLetter
  /-- Two or more letters of flags. -/
  | flagLetters
  | emoji
  /-- A joiner and an emoji. -/
  | joinedEmoji
  | joinedKeycap
  /-- One letter of a flag before a joiner and an emoji. -/
  | joinedFlagLetter
  | joinedFlags
  /-- Flags with one more letter before them. -/
  | joinedOddFlags
  /-- The end of a tag with a number of letters before it. -/
  | joinedTag (letters : Nat)
  /-- Digits before such a tag. -/
  | joinedTagDigits (digits : Nat)
  | alef
  | ligature (part : LigaturePart) (joined : Bool)
  /-- The Kirat Rai vowel `e`, which is half of `ai`. -/
  | vowelE
  | vowelAi
deriving DecidableEq, Repr, Inhabited

namespace Following

/-- What a character is to the one before it. -/
def ofChar (c : Char) : Following :=
  if isEmoji c then emoji
  else if isSkinTone c then skinTone
  else if isFlagLetter c then flagLetter
  else if isAlef c then alef
  else if c.toNat = 0x16D67 then vowelE
  else if c.toNat = 0x16D68 then vowelAi
  else
    match LigaturePart.ofChar? c with
    | some part => ligature part false
    | none => plain

/-- Whether a selector may stand inside the sequence. -/
def spansSelector : Following → Bool
  | alef => true
  | ligature _ _ => true
  | _ => false

/-- Whether an emoji before it belongs to one that is counted already. -/
def continuesEmoji : Following → Bool
  | joinedEmoji => true
  | joinedKeycap => true
  | _ => false

/-- What a character adds to the width where it is drawn as one with what follows. -/
def extend? (f : Following) (c : Char) : Option (Int × Following) :=
  match f with
  | plain => none
  | skinTone =>
    if takesSkinTone c then some (0, emoji) else if isJoiner c then some (0, joinedEmoji) else none
  | flagLetter => if isFlagLetter c then some (1, flagLetters) else none
  | flagLetters =>
    if isFlagLetter c then some (1, flagLetters)
    else if isJoiner c then some (0, joinedEmoji)
    else none
  | emoji => if isJoiner c then some (0, joinedEmoji) else none
  | joinedEmoji =>
    if isKeycap c then some (0, joinedKeycap)
    else if isFlagLetter c then some (1, joinedFlagLetter)
    else if isSkinTone c then some (0, skinTone)
    else if isTagEnd c then some (0, joinedTag 0)
    else if isEmoji c then some (0, emoji)
    else none
  | joinedKeycap => none
  | joinedFlagLetter => if isFlagLetter c then some (-1, joinedFlags) else none
  | joinedFlags =>
    if isFlagLetter c then some (3, joinedOddFlags)
    else if isJoiner c then some (0, joinedEmoji)
    else none
  | joinedOddFlags =>
    if isFlagLetter c then some (-1, joinedFlags)
    else if isJoiner c then some (0, joinedEmoji)
    else none
  | joinedTag n =>
    if isTagLetter c && n < 6 then some (0, joinedTag (n + 1))
    else if isTagDigit c && n ≤ 4 then some (0, joinedTagDigits 1)
    else if isBlackFlag c && 3 ≤ n then some (0, emoji)
    else none
  | joinedTagDigits n =>
    if isTagDigit c && n < 3 then some (0, joinedTagDigits (n + 1))
    else if isBlackFlag c && n = 3 then some (0, emoji)
    else none
  | alef => if isLam c then some (0, plain) else if isJoiningMark c then some (0, alef) else none
  | ligature part joined =>
    if isJoiner c then some (0, ligature part true)
    else if isIgnorableMark c then some (0, f)
    else (part.extend? joined c).map fun (n, longer) => (n, longer.elim plain (ligature · true))
  | vowelE =>
    if c.toNat = 0x16D63 || c.toNat = 0x16D69 then some (0, plain)
    else if c.toNat = 0x16D67 then some (0, vowelAi)
    else if c.toNat = 0x16D68 then some (1, vowelE)
    else none
  | vowelAi => if c.toNat = 0x16D63 then some (0, plain) else none

end Following

/-- What follows a character, with the selectors that stand directly after it. -/
structure WidthContext where
  following : Following := .plain
  text : Bool := false
  emoji : Bool := false
  wide : Bool := false
deriving DecidableEq, Repr, Inhabited

namespace WidthContext

/-- The context without the emoji selector, once it is found to change nothing. -/
def withoutEmoji (x : WidthContext) : WidthContext :=
  if !x.emoji then x else if x.following.spansSelector then { x with emoji := false } else {}

/-- The selector beside those that are there. -/
def add (x : WidthContext) : Selector → WidthContext
  | .text => { x with text := true }
  | .emoji => { x with emoji := true }
  | .wide => { x with wide := true }

/-- The context before a selector. Inside a ligature selectors gather; elsewhere the one that stands
nearest to a character is the only one, and it parts the character from what follows, unless it makes an
emoji that is joined to the next one. -/
def select (x : WidthContext) (s : Selector) : WidthContext :=
  if x.following.spansSelector then x.add s
  else if s = .emoji && x.following.continuesEmoji then { following := x.following, emoji := true }
  else add {} s

end WidthContext

/-- What a character adds to the width of the text after it, and the context before it. -/
def widthStep (c : Char) (x : WidthContext) : Int × WidthContext :=
  if x.emoji && isSelectable c then
    (if x.following.continuesEmoji then 0 else 2, { following := .emoji })
  else if c.toNat ≤ 0xA0 then (1, {})
  else
    let x := x.withoutEmoji
    match Selector.ofChar? c with
    | some s => (0, x.select s)
    | none =>
      if x.text && hasNarrowText c then (1, {})
      else if x.wide && hasWideForm c then (2, {})
      else
        match x.following.extend? c with
        | some (n, following) => (n, { following })
        | none => (charWidth c, { following := .ofChar c })

/-- The width of a text with the context before it. -/
def widthFrom : List Char → Int × WidthContext
  | [] => (0, {})
  | c :: rest =>
    let (n, x) := widthFrom rest
    let (m, y) := widthStep c x
    (n + m, y)

/-- The columns of a line. -/
def lineWidth (cs : List Char) : Nat := (widthFrom cs).1.toNat

end QueryShape.Text
