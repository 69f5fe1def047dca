import MentionAlign.Entries

/-!
# Roles

Gold data and responses may name roles differently.  A role map gives the response role that a gold
role stands for, where it has such a counterpart.
-/

namespace MentionAlign

/-- A partial map from gold roles to response roles. -/
abbrev RoleMap := String → Option String

/-- The map for data whose gold roles are response roles already. -/
def RoleMap.identity : RoleMap := some

/-- An explicit table of counterparts, in rising order of the gold roles. -/
structure RoleTable where
  entries : List (String × String) := []
  sorted : Entries.Sorted entries := by simp [Entries.Sorted]
deriving Repr

namespace RoleTable

instance : BEq RoleTable where
  beq a b := a.entries == b.entries

/-- The table without entries. -/
def empty : RoleTable := {}

/-- The table with one more pair; the latest one for a gold role counts. -/
def insert (table : RoleTable) (gold response : String) : RoleTable where
  entries := Entries.insert gold response table.entries
  sorted := Entries.sorted_insert gold response table.sorted

/-- The table of a list of pairs, later ones over earlier ones. -/
def ofList (pairs : List (String × String)) : RoleTable :=
  pairs.foldl (fun table pair => table.insert pair.1 pair.2) empty

/-- The number of gold roles with a counterpart. -/
def size (table : RoleTable) : Nat := table.entries.length

/-- Whether no gold role has a counterpart. -/
def isEmpty (table : RoleTable) : Bool := table.entries.isEmpty

/-- The map that the table makes. -/
def toMap (table : RoleTable) : RoleMap := fun gold => table.entries.lookup gold

@[simp] theorem toMap_insert (table : RoleTable) (gold response role : String) :
    (table.insert gold response).toMap role
      = if role = gold then some response else table.toMap role :=
  Entries.lookup_insert ..

end RoleTable

end MentionAlign
