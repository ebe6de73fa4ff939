import QueryShape.Text.Alphanumeric
import QueryShape.Text.LetterCase

/-!
# Words in names

A name is split into words at every character that is neither letter nor digit, after a lower-case
letter before an upper-case one, and before the last of a run of upper-case letters that a lower-case
one follows. `snakeCase` and `camelCase` put the words together again.
-/

set_option autoImplicit false

namespace QueryShape.Text

/-- The pieces between the characters that satisfy `p`; empty ones are kept. -/
def splitAtChars (p : Char → Bool) : List Char → List (List Char)
  | [] => [[]]
  | c :: cs =>
    match splitAtChars p cs with
    | [] => [[c]]
    | piece :: pieces => if p c then [] :: piece :: pieces else (c :: piece) :: pieces

/-- What the letters since the last word boundary were. -/
inductive CaseRun where
  | none
  | lower
  | upper
deriving DecidableEq

/-- The words of a piece without separators, given the letters of the word at hand (last first). -/
def wordsFrom (run : CaseRun) (word : List Char) : List Char → List (List Char)
  | [] => if word = [] then [] else [word.reverse]
  | [c] => [(c :: word).reverse]
  | c :: n :: rest =>
    let next := if isLower c then .lower else if isUpper c then .upper else run
    if next = .lower && isUpper n then
      (c :: word).reverse :: wordsFrom .none [] (n :: rest)
    else if run = .upper && isUpper c && isLower n then
      word.reverse :: wordsFrom .none [c] (n :: rest)
    else wordsFrom next (c :: word) (n :: rest)

def words (cs : List Char) : List (List Char) :=
  (splitAtChars (!isAlphanumeric ·) cs).flatMap (wordsFrom .none [])

/-- A word in lower case; a capital sigma at its end becomes the final sigma. -/
def lowerWord : List Char → List Char
  | [] => []
  | ['Σ'] => ['ς']
  | c :: cs => toLower c ++ lowerWord cs

/-- A word with its first character in upper case and the others in lower case. -/
def capitalWord : List Char → List Char
  | [] => []
  | c :: cs => toUpper c ++ lowerWord cs

/-- Words in lower case, joined by underscores. -/
def snakeCase (cs : List Char) : List Char :=
  List.intercalate ['_'] ((words cs).map lowerWord)

/-- The first word in lower case, the others capitalised. -/
def camelCase (cs : List Char) : List Char :=
  match words cs with
  | [] => []
  | w :: ws => lowerWord w ++ ws.flatMap capitalWord

end QueryShape.Text
