import MentionAlign.Mention.Basic

/-!
# Mention inventories

The gold mentions of one document, in the order in which they were supplied.  The order is the
tie-break when several mentions match equally well.
-/

namespace MentionAlign

/-- The ordered gold mentions of one document. -/
structure Inventory where
  mentions : List GoldMention
deriving BEq, Repr

namespace Inventory

/-- Reads records into an inventory; the first record of unknown kind is the error. -/
def ofRaw (raw : List RawMention) : Except InputError Inventory :=
  (raw.mapM GoldMention.ofRaw).map Inventory.mk

/-- The first mention with the given identifier. -/
def get? (inventory : Inventory) (id : MentionId) : Option GoldMention :=
  inventory.mentions.find? (·.id = id)

/-- The number of mentions. -/
def size (inventory : Inventory) : Nat := inventory.mentions.length

/-- Whether there are no mentions. -/
def isEmpty (inventory : Inventory) : Bool := inventory.mentions.isEmpty

end Inventory

end MentionAlign
