import MentionAlign.Proofs.Ron.Reading

/-!
# Object notation keeps the law of notations

The text that the writer makes of data is read as these data, to its end and with no rule switched
on.  Both sides nest up to one limit, and they count alike: the writer counts no more levels than
the decoders do.
-/

namespace MentionAlign.Ron

open Datum (Plain)

/-- The parts of a list nest one deeper than the list. -/
theorem heightOfItems_le_iff {items : List Datum} {n : Nat} :
    heightOfItems items ≤ n ↔ ∀ d ∈ items, height d + 1 ≤ n := by
  induction items with
  | nil => simp [heightOfItems]
  | cons d items ih => rw [heightOfItems, Nat.max_le, ih, List.forall_mem_cons]

/-- The parts of a record nest one deeper than the record. -/
theorem heightOfEntries_le_iff {entries : List (String × Datum)} {n : Nat} :
    heightOfEntries entries ≤ n ↔ ∀ e ∈ entries, height e.2 + 1 ≤ n := by
  induction entries with
  | nil => simp [heightOfEntries]
  | cons e entries ih => rw [heightOfEntries, Nat.max_le, ih, List.forall_mem_cons]

/-- The writer counts no more levels than the decoders do. -/
theorem height_le_nesting {d : Datum} (hd : Plain d) : height d ≤ d.nesting := by
  induction hd with
  | absent | boolean | natural | text => exact Nat.le_refl 0
  | present _ ih => exact Nat.succ_le_succ ih
  | @list items _ ih =>
      have hnesting := (Datum.nestingAmong_le_iff.mp (Nat.le_refl (Datum.nestingAmong items))).2
      refine heightOfItems_le_iff.mpr fun d hd => Nat.le_trans ?_ (hnesting d hd)
      have := ih d hd
      omega
  | @record entries _ _ _ ih =>
      have hnesting := (Datum.nestingWithin_le_iff.mp (Nat.le_refl (Datum.nestingWithin entries))).2
      refine heightOfEntries_le_iff.mpr fun e he => Nat.le_trans ?_ (hnesting e he)
      have := ih e he
      omega

/-- **Object notation keeps the law** up to its limit. -/
theorem codec_readsBack : codec.ReadsBack nestingLimit where
  inverse d hd hnesting := by
    refine ⟨String.ofList (write 0 d), ?_, .ron false nestingLimit, decide_eq_true hnesting, ?_⟩
    · exact if_pos (Nat.le_trans (height_le_nesting hd) hnesting)
    · intro α decode
      have hread := Plain.read_write hd 0
      simp only [codec, hread]
      cases decode (.ron false nestingLimit) d <;> rfl

end MentionAlign.Ron
