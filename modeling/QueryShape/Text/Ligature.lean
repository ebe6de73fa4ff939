import QueryShape.Text.CharWidth

/-!
# Ligatures

Sequences of letters that are drawn as one. `LigaturePart` is the end of such a sequence, and
`LigaturePart.extend?` tells what the character before it adds to the width of the whole.
-/

set_option autoImplicit false

namespace QueryShape.Text

/-! ## Arabic: lam and alef -/

def isLam (c : Char) : Bool :=
  c.toNat = 0x644 || (0x6B5 ≤ c.toNat && c.toNat ≤ 0x6B8) || c.toNat = 0x76A || c.toNat = 0x8A6 ||
    c.toNat = 0x8C7

def isAlef (c : Char) : Bool :=
  c.toNat = 0x622 || c.toNat = 0x623 || c.toNat = 0x625 || c.toNat = 0x627 ||
    (0x671 ≤ c.toNat && c.toNat ≤ 0x673) || c.toNat = 0x675 || c.toNat = 0x773 || c.toNat = 0x774 ||
    (0x870 ≤ c.toNat && c.toNat ≤ 0x882)

/-- Characters without width that part the letters around them. -/
def partingBoundaries : Array Nat := #[
  0x605, 0x606, 0x890, 0x892, 0x8E2, 0x8E3, 0x9BE, 0x9BF, 0x9D7, 0x9D8, 0xB3E, 0xB3F, 0xB57, 0xB58,
  0xBBE, 0xBBF, 0xBD7, 0xBD8, 0xCC0, 0xCC1, 0xCC2, 0xCC3, 0xCC7, 0xCC9, 0xCCA, 0xCCC, 0xCD5, 0xCD7,
  0xD3E, 0xD3F, 0xD4E, 0xD4F, 0xD57, 0xD58, 0xDCF, 0xDD0, 0xDDF, 0xDE0, 0x1160, 0x1200, 0x1715,
  0x1716, 0x1734, 0x1735, 0x180E, 0x180F, 0x1B35, 0x1B36, 0x1B3B, 0x1B3C, 0x1B3D, 0x1B3E, 0x1B43,
  0x1B45, 0x1BAA, 0x1BAB, 0x1BF2, 0x1BF4, 0x200C, 0x200E, 0x2065, 0x206A, 0x302E, 0x3030, 0x3164,
  0x3165, 0xA8FA, 0xA8FB, 0xA953, 0xA954, 0xA9C0, 0xA9C1, 0xD7B0, 0xD7C7, 0xD7CB, 0xD7FC, 0xFFA0,
  0xFFA1, 0xFFF0, 0xFFF9, 0x111C0, 0x111C1, 0x111C2, 0x111C4, 0x11235, 0x11236, 0x1133E, 0x1133F,
  0x1134D, 0x1134E, 0x11357, 0x11358, 0x113B8, 0x113B9, 0x113C2, 0x113C3, 0x113C5, 0x113C6,
  0x113C7, 0x113CA, 0x113CF, 0x113D0, 0x113D1, 0x113D2, 0x114B0, 0x114B1, 0x114BD, 0x114BE,
  0x115AF, 0x115B0, 0x116B6, 0x116B7, 0x11930, 0x11931, 0x1193D, 0x1193E, 0x1193F, 0x11940,
  0x11941, 0x11942, 0x11A84, 0x11A8A, 0x11D46, 0x11D47, 0x11F02, 0x11F03, 0x11F41, 0x11F42,
  0x16FF0, 0x16FF2, 0x1D165, 0x1D167, 0x1D16D, 0x1D173, 0x1D250, 0x1D253, 0x1D25F, 0x1D260,
  0x1D280, 0x1D282, 0xE0000, 0xE0001, 0xE0002, 0xE0020, 0xE0080, 0xE0100, 0xE01F0, 0xE1000]

/-- A mark between two letters that leaves them joined. -/
def isJoiningMark (c : Char) : Bool := charWidth c = 0 && !within partingBoundaries c

/-! ## Other scripts -/

/-- Marks that are never shown. They may stand anywhere in a ligature. -/
def isIgnorableMark (c : Char) : Bool :=
  c.toNat = 0x34F || c.toNat = 0x17B4 || c.toNat = 0x17B5 || (0x180B ≤ c.toNat && c.toNat ≤ 0x180D) ||
    c.toNat = 0x180F || (0xFE00 ≤ c.toNat && c.toNat ≤ 0xFE0F) ||
    (0xE0100 ≤ c.toNat && c.toNat ≤ 0xE01EF)

/-- The Khmer letters that have a form below another letter. -/
def isSubjoinable (c : Char) : Bool :=
  (0x1780 ≤ c.toNat && c.toNat ≤ 0x1782) || (0x1784 ≤ c.toNat && c.toNat ≤ 0x1787) ||
    (0x1789 ≤ c.toNat && c.toNat ≤ 0x178C) || (0x178E ≤ c.toNat && c.toNat ≤ 0x1793) ||
    (0x1795 ≤ c.toNat && c.toNat ≤ 0x1798) || (0x179B ≤ c.toNat && c.toNat ≤ 0x179D) ||
    c.toNat = 0x17A0 || c.toNat = 0x17A2 || c.toNat = 0x17A7 || c.toNat = 0x17AB ||
    c.toNat = 0x17AC || c.toNat = 0x17AF

def isTifinaghConsonant (c : Char) : Bool :=
  (0x2D31 ≤ c.toNat && c.toNat ≤ 0x2D65) || c.toNat = 0x2D6F

/-- The end of a sequence that is drawn as one. -/
inductive LigaturePart where
  /-- The Hebrew letter after an alef. -/
  | lamed
  /-- The Khmer letter below another one. -/
  | subjoined
  /-- The Buginese letter after `a` with the vowel `i`. -/
  | ya
  /-- The same with the vowel before it. -/
  | vowelYa
  | tifinagh
  /-- A Tifinagh consonant with the mark that joins it to the one before. -/
  | joinedTifinagh
  /-- The second of two Lisu tones. -/
  | tone
  /-- The Old Turkic letter after `ec`. -/
  | orkhonI
deriving DecidableEq, Repr, Inhabited

namespace LigaturePart

/-- The part that a character is by itself. -/
def ofChar? (c : Char) : Option LigaturePart :=
  if c.toNat = 0x5DC then some lamed
  else if isSubjoinable c then some subjoined
  else if c.toNat = 0x1A10 then some ya
  else if isTifinaghConsonant c then some tifinagh
  else if c.toNat = 0xA4FC || c.toNat = 0xA4FD then some tone
  else if c.toNat = 0x10C03 then some orkhonI
  else none

/-- What the character before a part adds to the width, with the longer part where there is one. Some
letters are drawn as one only where a joiner stands between them. -/
def extend? (p : LigaturePart) (joined : Bool) (c : Char) : Option (Int × Option LigaturePart) :=
  match p with
  | lamed => if joined && c.toNat = 0x5D0 then some (0, none) else none
  | subjoined => if c.toNat = 0x17D2 then some (-1, none) else none
  | ya => if joined && c.toNat = 0x1A17 then some (0, some vowelYa) else none
  | vowelYa => if c.toNat = 0x1A15 then some (0, none) else none
  | tifinagh =>
    if c.toNat = 0x2D7F then some (1, some joinedTifinagh)
    else if joined && isTifinaghConsonant c then some (0, none)
    else none
  | joinedTifinagh => if isTifinaghConsonant c then some (-1, none) else none
  | tone => if 0xA4F8 ≤ c.toNat && c.toNat ≤ 0xA4FB then some (0, none) else none
  | orkhonI => if joined && c.toNat = 0x10C32 then some (0, none) else none

end LigaturePart

end QueryShape.Text
