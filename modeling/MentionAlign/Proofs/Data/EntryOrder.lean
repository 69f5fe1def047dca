import MentionAlign.Entries
import Mathlib.Data.List.Induction
import Mathlib.Data.List.Nodup

/-!
# What key order leaves of a list of pairs

Putting pairs into key order keeps the last value of every key (`lookup_ofList`), so pairs with
different keys keep what each key has, and pairs that are in order already stay as they are.  The
place of an entry depends on the keys alone.  So a list of pairs in which one value is left open
comes into order with that value left open (`exists_ofList_eq`), which is how a change of one value
is followed through the ordering.
-/

namespace MentionAlign.Entries

variable {β : Type} {pairs entries before after : List (String × β)} {key other : String} {u : β}

theorem ofList_concat (pairs : List (String × β)) (pair : String × β) :
    ofList (pairs ++ [pair]) = insert pair.1 pair.2 (ofList pairs) := by
  simp [ofList]

theorem sorted_ofList (pairs : List (String × β)) : Sorted (ofList pairs) := by
  induction pairs using List.reverseRecOn with
  | nil => exact List.Pairwise.nil
  | append_singleton pairs pair ih => rw [ofList_concat]; exact sorted_insert _ _ ih

/-- Keys in order are different keys. -/
theorem Sorted.nodup_keys (h : Sorted entries) : (entries.map Prod.fst).Nodup := by
  rw [List.Nodup, List.pairwise_map]
  apply h.imp
  intro a b hab heq
  rw [heq] at hab
  exact String.lt_irrefl _ hab

theorem mem_of_mem_ofList {entry : String × β} (h : entry ∈ ofList pairs) : entry ∈ pairs := by
  induction pairs using List.reverseRecOn with
  | nil => exact h
  | append_singleton pairs pair ih =>
      rw [ofList_concat] at h
      rcases mem_insert h with rfl | h
      · simp
      · exact List.mem_append_left _ (ih h)

/-- **The last value of a key counts.** -/
theorem lookup_ofList (pairs : List (String × β)) (key : String) :
    (ofList pairs).lookup key = pairs.reverse.lookup key := by
  induction pairs using List.reverseRecOn with
  | nil => rfl
  | append_singleton pairs pair ih =>
      rw [ofList_concat, lookup_insert, ih, List.reverse_append, List.reverse_singleton,
        List.singleton_append, List.lookup_cons]
      by_cases h : key = pair.1
      · simp [h]
      · simp [h, beq_false_of_ne h]

/-- Different keys keep what each of them has. -/
theorem lookup_ofList_of_nodup (h : (pairs.map Prod.fst).Nodup) (key : String) :
    (ofList pairs).lookup key = pairs.lookup key := by
  induction pairs using List.reverseRecOn with
  | nil => rfl
  | append_singleton pairs pair ih =>
      obtain ⟨last, w⟩ := pair
      rw [List.map_append, List.nodup_append] at h
      obtain ⟨hpairs, _, hfresh⟩ := h
      rw [ofList_concat, lookup_insert, ih hpairs, List.lookup_append]
      by_cases hkey : key = last
      · have hnone : pairs.lookup key = none := by
          rw [List.lookup_eq_none_iff]
          intro p hp
          have hne : p.1 ≠ last := hfresh p.1 (List.mem_map_of_mem hp) last (by simp)
          simpa [hkey] using hne.symm
        rw [if_pos hkey, hnone, List.lookup_cons, hkey, beq_self_eq_true]
        rfl
      · rw [if_neg hkey, List.lookup_cons, beq_false_of_ne hkey]
        simp

/-- Among different keys of any kind, what is found under one is the value that stands with it. -/
theorem lookup_eq_some_iff_mem {α : Type} [BEq α] [LawfulBEq α] {entries : List (α × β)} {key : α}
    (h : (entries.map Prod.fst).Nodup) : entries.lookup key = some u ↔ (key, u) ∈ entries := by
  induction entries with
  | nil => simp
  | cons e entries ih =>
      obtain ⟨hfresh, hentries⟩ := List.nodup_cons.mp h
      rw [List.lookup_cons, List.mem_cons]
      by_cases hkey : key = e.1
      · subst hkey
        have hnone : (e.1, u) ∉ entries := fun hmem =>
          hfresh (List.mem_map.mpr ⟨(e.1, u), hmem, rfl⟩)
        simp [hnone, Prod.ext_iff, eq_comm]
      · simp [beq_false_of_ne hkey, ih hentries, Prod.ext_iff, hkey]

/-- A key behind all others is put at the end. -/
theorem insert_of_forall_lt {v : β} (h : ∀ e ∈ entries, e.1 < key) :
    insert key v entries = entries ++ [(key, v)] := by
  induction entries with
  | nil => rfl
  | cons e entries ih =>
      obtain ⟨he, hentries⟩ := List.forall_mem_cons.mp h
      have hnotLt : ¬ key < e.1 := fun hlt => String.lt_irrefl _ (String.lt_trans hlt he)
      have hne : key ≠ e.1 := fun heq => String.lt_irrefl _ (heq ▸ he)
      rw [insert, if_neg hnotLt, if_neg hne, ih hentries, List.cons_append]

/-- Pairs in order stay as they are. -/
theorem ofList_of_sorted (h : Sorted pairs) : ofList pairs = pairs := by
  induction pairs using List.reverseRecOn with
  | nil => rfl
  | append_singleton pairs pair ih =>
      obtain ⟨hpairs, _, hlast⟩ := List.pairwise_append.mp h
      rw [ofList_concat, ih hpairs]
      exact insert_of_forall_lt fun e he => hlast e he pair (by simp)

/-- Where a key is put does not depend on its value. -/
theorem exists_insert_eq (key : String) (entries : List (String × β)) :
    ∃ before after, ∀ v, insert key v entries = before ++ (key, v) :: after := by
  induction entries with
  | nil => exact ⟨[], [], fun _ => rfl⟩
  | cons e entries ih =>
      by_cases hlt : key < e.1
      · exact ⟨[], e :: entries, fun v => if_pos hlt⟩
      by_cases heq : key = e.1
      · exact ⟨[], entries, fun v => by rw [insert, if_neg hlt, if_pos heq]; rfl⟩
      obtain ⟨before, after, h⟩ := ih
      exact ⟨e :: before, after, fun v => by rw [insert, if_neg hlt, if_neg heq, h]; rfl⟩

/-- Another key goes to one side of an entry, whatever value the entry has. -/
theorem exists_insert_append_eq (hne : other ≠ key) (u : β) (before after : List (String × β)) :
    ∃ before' after', ∀ v,
      insert other u (before ++ (key, v) :: after) = before' ++ (key, v) :: after' := by
  induction before with
  | nil =>
      by_cases hlt : other < key
      · exact ⟨[(other, u)], after, fun v => if_pos hlt⟩
      · exact ⟨[], insert other u after, fun v => by
          rw [List.nil_append, insert, if_neg hlt, if_neg hne]; rfl⟩
  | cons e before ih =>
      by_cases hlt : other < e.1
      · exact ⟨(other, u) :: e :: before, after, fun v => if_pos hlt⟩
      by_cases heq : other = e.1
      · exact ⟨(other, u) :: before, after, fun v => by
          rw [List.cons_append, insert, if_neg hlt, if_pos heq]; rfl⟩
      obtain ⟨before', after', h⟩ := ih
      exact ⟨e :: before', after', fun v => by
        rw [List.cons_append, insert, if_neg hlt, if_neg heq, h]; rfl⟩

/-- **One value left open.**  The last value of a key stands at one place among the entries in
order, and the other entries do not depend on it. -/
theorem exists_ofList_eq (before : List (String × β)) (hlast : key ∉ after.map Prod.fst) :
    ∃ before' after', ∀ v,
      ofList (before ++ (key, v) :: after) = before' ++ (key, v) :: after' := by
  induction after using List.reverseRecOn with
  | nil =>
      obtain ⟨before', after', h⟩ := exists_insert_eq key (ofList before)
      exact ⟨before', after', fun v => (ofList_concat before (key, v)).trans (h v)⟩
  | append_singleton after pair ih =>
      have hne : pair.1 ≠ key := fun heq => hlast (by simp [heq])
      obtain ⟨middle, rest, h⟩ := ih fun hmem => hlast (by simp_all)
      obtain ⟨before', after', h'⟩ := exists_insert_append_eq hne pair.2 middle rest
      refine ⟨before', after', fun v => ?_⟩
      have hconcat : before ++ (key, v) :: (after ++ [pair]) =
          (before ++ (key, v) :: after) ++ [pair] := by simp
      rw [hconcat, ofList_concat, h, h']

/-- Changing the values of entries changes what is found under a key. -/
theorem lookup_map_snd {γ : Type} (f : β → γ) (entries : List (String × β)) (key : String) :
    (entries.map fun e => (e.1, f e.2)).lookup key = (entries.lookup key).map f := by
  induction entries with
  | nil => rfl
  | cons e entries ih =>
      rw [List.map_cons, List.lookup_cons, List.lookup_cons, ih]
      cases key == e.1 <;> rfl

/-- Without the entries of one key, that key has nothing and every other key what it had. -/
theorem lookup_filter_ne (entries : List (String × β)) (key other : String) :
    (entries.filter (·.1 != key)).lookup other =
      if other = key then none else entries.lookup other := by
  induction entries with
  | nil => simp
  | cons e entries ih =>
      by_cases he : e.1 = key
      · rw [List.filter_cons_of_neg (by simpa using he), ih, List.lookup_cons]
        by_cases h : other = key
        · rw [if_pos h, if_pos h]
        · rw [if_neg h, if_neg h, beq_false_of_ne (he ▸ h)]
      · rw [List.filter_cons_of_pos (by simpa using he), List.lookup_cons, List.lookup_cons, ih]
        by_cases h : other = key
        · rw [if_pos h, if_pos h, beq_false_of_ne (h ▸ Ne.symm he)]
        · rw [if_neg h, if_neg h]

end MentionAlign.Entries
