/-!
# Ordered maps

A map from keys to values that keeps the order in which the keys first came. Inserting under a key
that is there already leaves the key at its place and replaces the value.
-/

set_option autoImplicit false

namespace QueryShape

/-- A list of entries; `insert` keeps the keys distinct. -/
abbrev OrderedMap (κ α : Type) := List (κ × α)

namespace OrderedMap

variable {κ α : Type} [DecidableEq κ]

def find? : OrderedMap κ α → κ → Option α
  | [], _ => none
  | (k', v) :: m, k => if k' = k then some v else find? m k

def contains (m : OrderedMap κ α) (k : κ) : Bool := m.any (·.1 = k)

def insert : OrderedMap κ α → κ → α → OrderedMap κ α
  | [], k, v => [(k, v)]
  | (k', v') :: m, k, v => if k' = k then (k', v) :: m else (k', v') :: insert m k v

def keys (m : OrderedMap κ α) : List κ := m.map (·.1)

/-- The entries inserted one after the other into an empty map. -/
def ofList (entries : List (κ × α)) : OrderedMap κ α :=
  entries.foldl (fun m e => insert m e.1 e.2) []

theorem find?_insert (m : OrderedMap κ α) (k k' : κ) (v : α) :
    find? (insert m k v) k' = if k = k' then some v else find? m k' := by
  induction m with
  | nil => rfl
  | cons e m ih =>
    simp only [insert]
    split
    · rename_i he
      simp only [find?, he]
      split <;> rfl
    · rename_i he
      simp only [find?, ih]
      grind

theorem keys_insert (m : OrderedMap κ α) (k : κ) (v : α) :
    keys (insert m k v) = if k ∈ keys m then keys m else keys m ++ [k] := by
  induction m with
  | nil => simp [insert, keys]
  | cons e m ih =>
    simp only [keys] at ih
    simp only [insert]
    split
    · rename_i he
      simp [keys, he]
    · rename_i he
      simp only [keys, List.map_cons, ih, List.mem_cons, Ne.symm he, false_or]
      split <;> simp_all

end OrderedMap

end QueryShape
