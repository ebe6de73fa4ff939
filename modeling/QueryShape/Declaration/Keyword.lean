/-!
# Keywords

The words that are no names where types are declared.
-/

set_option autoImplicit false

namespace QueryShape

/-- The words that cannot be names, those kept for later use among them. -/
def keywords : List String :=
  ["_", "abstract", "as", "async", "await", "become", "box", "break", "const", "continue", "crate", "do",
    "dyn", "else", "enum", "extern", "false", "final", "fn", "for", "if", "impl", "in", "let", "loop",
    "macro", "match", "mod", "move", "mut", "override", "priv", "pub", "ref", "return", "Self", "self",
    "static", "struct", "super", "trait", "true", "try", "type", "typeof", "unsafe", "unsized", "use",
    "virtual", "where", "while", "yield"]

/-- The keywords that a path may go through. -/
def pathKeywords : List String := ["crate", "Self", "self", "super"]

/-- Whether a word may be a part of a path. -/
def isPathWord (word : String) : Bool := pathKeywords.contains word || !keywords.contains word

end QueryShape
