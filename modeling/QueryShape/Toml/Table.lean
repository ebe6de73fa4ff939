import QueryShape.Json

/-!
# Tables under construction

The tables of a TOML text while its lines are taken in. A key with dots and the header of a table lead
through other tables and make those that are missing; which of the two made a table decides what may
still be added to it.
-/

set_option autoImplicit false

namespace QueryShape.Toml

/-- How a table came to be. -/
inductive Origin where
  /-- It has a header of its own. -/
  | header
  /-- A header of a table inside it made it. -/
  | implied
  /-- A key with dots made it. -/
  | dotted
deriving DecidableEq, Repr, Inhabited

inductive Entry where
  | value (j : Json)
  | table (origin : Origin) (entries : List (String × Entry))
  /-- An array of tables, each of which has a header. -/
  | tables (items : List (List (String × Entry)))
deriving Inhabited

abbrev Entries := List (String × Entry)

namespace Entry

mutual

def toJson : Entry → Json
  | value j => j
  | table _ entries => .object (entriesToJson entries)
  | tables items => .array (itemsToJson items)

def entriesToJson : List (String × Entry) → List (String × Json)
  | [] => []
  | (k, e) :: es => (k, e.toJson) :: entriesToJson es

def itemsToJson : List (List (String × Entry)) → List Json
  | [] => []
  | es :: items => .object (entriesToJson es) :: itemsToJson items

end

end Entry

namespace Entries

def find? (es : Entries) (key : String) : Option Entry := List.lookup key es

/-- Puts an entry in the place of the one with the same key, or at the end. -/
def replace : Entries → String → Entry → Entries
  | [], key, e => [(key, e)]
  | (k, e') :: es, key, e => if k = key then (k, e) :: es else (k, e') :: replace es key e

def erase (es : Entries) (key : String) : Entries := es.filter (·.1 ≠ key)

/-- Adds a value under a key without dots, which has to be new. -/
def add? (es : Entries) (key : String) (j : Json) : Option Entries :=
  match es.find? key with
  | none => some (es.replace key (.value j))
  | some _ => none

/-- Adds a value under a key with dots: the table that gets it has to be one that such keys made. On the
way there neither a value nor a table with a header may stand, but the last of an array of tables may. -/
def put? : Entries → List String → String → Json → Option Entries
  | es, [], key, j => es.add? key j
  | es, p :: path, key, j =>
    match es.find? p with
    | none => (put? [] path key j).map fun inner => es.replace p (.table .dotted inner)
    | some (.table .dotted inner) =>
      (put? inner path key j).map fun inner => es.replace p (.table .dotted inner)
    | some (.table .implied inner) =>
      if path = [] then none
      else (put? inner path key j).map fun inner => es.replace p (.table .implied inner)
    | some (.tables items) =>
      if path = [] then none
      else do
        let inner ← put? (items.getLast?.getD []) path key j
        pure (es.replace p (.tables (items.dropLast ++ [inner])))
    | some (.table .header _) => none
    | some (.value _) => none

/-- Changes the table that the path of a header leads to. -/
def alter? (f : Entries → Option Entries) : Entries → List String → Option Entries
  | es, [] => f es
  | es, p :: path =>
    match es.find? p with
    | none => (alter? f [] path).map fun inner => es.replace p (.table .implied inner)
    | some (.table origin inner) =>
      (alter? f inner path).map fun inner => es.replace p (.table origin inner)
    | some (.tables items) => do
      let inner ← alter? f (items.getLast?.getD []) path
      pure (es.replace p (.tables (items.dropLast ++ [inner])))
    | some (.value _) => none

end Entries

/-- A line with a key and a value. -/
structure Pair where
  path : List String
  key : String
  value : Json

/-- The header of a table, or of the next table of an array. -/
structure Header where
  path : List String
  key : String
  inArray : Bool

/-- A header and the lines below it. -/
structure Section where
  header : Header
  pairs : List Pair

namespace Entries

def putAll? (es : Entries) (pairs : List Pair) : Option Entries :=
  pairs.foldlM (fun es p => es.put? p.path p.key p.value) es

/-- Takes in a section. A table that was only implied so far moves to the end of the table around it. -/
def place? (es : Entries) (s : Section) : Option Entries :=
  es.alter? (fun parent =>
    match parent.find? s.header.key, s.header.inArray with
    | none, true => do
      pure (parent.replace s.header.key (.tables [← putAll? [] s.pairs]))
    | some (.tables items), true => do
      pure (parent.replace s.header.key (.tables (items ++ [← putAll? [] s.pairs])))
    | none, false => do
      pure (parent.replace s.header.key (.table .header (← putAll? [] s.pairs)))
    | some (.table .implied inner), false => do
      pure (parent.erase s.header.key ++ [(s.header.key, .table .header (← putAll? inner s.pairs))])
    | _, _ => none) s.header.path

/-- The table of a whole text: the lines before the first header, then the sections. -/
def ofSections? (pairs : List Pair) (sections : List Section) : Option Entries := do
  sections.foldlM place? (← putAll? [] pairs)

end Entries

end QueryShape.Toml
