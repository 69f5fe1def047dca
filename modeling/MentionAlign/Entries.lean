/-!
# Entries in key order

A list of keyed values in rising order of the keys, each key once.  Inserting keeps the order, and a
value put under a key that is there already takes the place of the older one.
-/

namespace MentionAlign.Entries

variable {β : Type}

/-- The keys rise strictly. -/
def Sorted (entries : List (String × β)) : Prop := entries.Pairwise fun a b => a.1 < b.1

/-- Puts a value at its place, over an older one under the same key. -/
def insert (key : String) (value : β) : List (String × β) → List (String × β)
  | [] => [(key, value)]
  | (k, v) :: rest =>
    if key < k then (key, value) :: (k, v) :: rest
    else if key = k then (key, value) :: rest
    else (k, v) :: insert key value rest

/-- The entries of a list of pairs, later ones over earlier ones. -/
def ofList (pairs : List (String × β)) : List (String × β) :=
  pairs.foldl (fun entries pair => insert pair.1 pair.2 entries) []

theorem mem_insert {key : String} {value : β} {entries : List (String × β)} {entry : String × β}
    (h : entry ∈ insert key value entries) : entry = (key, value) ∨ entry ∈ entries := by
  induction entries with
  | nil => simpa [insert] using h
  | cons head rest ih => grind [insert]

/-- Inserting keeps the order. -/
theorem sorted_insert (key : String) (value : β) {entries : List (String × β)}
    (h : Sorted entries) : Sorted (insert key value entries) := by
  induction entries with
  | nil => simp [insert, Sorted]
  | cons head rest ih =>
    obtain ⟨k, v⟩ := head
    have h' := List.pairwise_cons.1 h
    rw [insert]
    split
    · next lt =>
      refine List.pairwise_cons.2 ⟨fun b hb => ?_, h⟩
      rcases List.mem_cons.1 hb with rfl | hb
      · exact lt
      · exact String.lt_trans lt (h'.1 b hb)
    · split
      · next eq => subst eq; exact List.pairwise_cons.2 h'
      · next notLt ne =>
        refine List.pairwise_cons.2 ⟨fun b hb => ?_, ih h'.2⟩
        rcases mem_insert hb with rfl | hb
        · exact String.not_le.1 fun le => ne (String.le_antisymm le (String.not_lt.1 notLt))
        · exact h'.1 b hb

/-- The key just inserted has the new value, and all others have what they had. -/
theorem lookup_insert (key other : String) (value : β) (entries : List (String × β)) :
    (insert key value entries).lookup other
      = if other = key then some value else entries.lookup other := by
  induction entries with
  | nil => simp [insert, List.lookup_cons]; grind
  | cons head rest ih =>
    obtain ⟨k, v⟩ := head
    rw [insert]
    split
    · simp only [List.lookup_cons]; grind
    · split <;> simp only [List.lookup_cons] <;> grind

end MentionAlign.Entries
