import MentionAlign.Data.Ron
import MentionAlign.Proofs.Ron.Scanning

/-!
# What is written is read back

The tokens of a value, taken one by one by a reader that waits for a value, have the effect of
handing that value to the innermost open one (`Plain.reads`).  This holds whatever is open around
it and whatever rules the text has switched on, so it carries over from the parts of a value to the
value.  With the tokens of what is written (`Plain.scan_write`) the reader of texts gives back what
the writer was given (`Plain.read_write`).
-/

namespace MentionAlign.Ron

open Datum (Plain)

/-- The next token may be the first one of a value. -/
def Stage.AwaitsValue : Stage → Prop
  | .start | .value | .valueOrClosing => True
  | _ => False

/-- The tokens of a value, taken where a value is awaited, hand it to the innermost open one. -/
def Reads (d : Datum) : Prop :=
  ∀ (stage : Stage) (around : List Frame) (implicitSome : Bool), stage.AwaitsValue →
    (tokens d).foldl Reader.step ⟨stage, around, implicitSome⟩ =
      Reader.deliver ⟨.value, [], implicitSome⟩ d around

section Steps

variable {stage : Stage} {around : List Frame} {implicitSome : Bool}

/-- A token that neither switches a rule nor closes a value begins one where one is awaited. -/
theorem step_eq_beginValue (hstage : stage.AwaitsValue) {t : Token} (hswitch : t ≠ .mark '#')
    (hclosing : t ≠ .mark ']' ∧ t ≠ .mark ')' ∧ t ≠ .mark '\x7d') :
    Reader.step ⟨stage, around, implicitSome⟩ t =
      Reader.beginValue ⟨stage, around, implicitSome⟩ t := by
  cases stage with
  | start => simp [Reader.step, hswitch]
  | value => rfl
  | valueOrClosing => simp [Reader.step, Reader.takeValueOrClosing, hclosing]
  | _ => exact hstage.elim

/-- Where a value is handed to depends on the open values only, and not on the stage. -/
theorem deliver_eq (r : Reader) (d : Datum) (around : List Frame) :
    r.deliver d around = Reader.deliver ⟨.value, [], r.implicitSome⟩ d around := by
  induction around generalizing d with
  | nil => rfl
  | cons frame around ih => cases frame with
    -- the only open value that does not keep what it is handed
    | bareSome joined => exact ih _
    | _ => rfl

end Steps

section Parts

variable {around : List Frame} {implicitSome : Bool}

/-- The items of a list are collected one behind the other. -/
theorem foldl_tokensOfItems {items : List Datum} (h : ∀ d ∈ items, Reads d) (before : List Datum) :
    (tokensOfItems items).foldl Reader.step
        ⟨.valueOrClosing, .list before :: around, implicitSome⟩ =
      ⟨.valueOrClosing, .list (items.reverse ++ before) :: around, implicitSome⟩ := by
  induction items generalizing before with
  | nil => rfl
  | cons d items ih =>
      obtain ⟨hd, hitems⟩ := List.forall_mem_cons.mp h
      calc (tokensOfItems (d :: items)).foldl Reader.step
            ⟨.valueOrClosing, .list before :: around, implicitSome⟩
          = (tokensOfItems items).foldl Reader.step
              ⟨.valueOrClosing, .list (d :: before) :: around, implicitSome⟩ := by
            rw [tokensOfItems, List.foldl_append, hd .valueOrClosing _ _ trivial]
            rfl
        _ = ⟨.valueOrClosing, .list ((d :: items).reverse ++ before) :: around, implicitSome⟩ := by
            rw [ih hitems]
            simp

/-- The value of a field goes to its record, and the comma behind it asks for the next field. -/
theorem Reads.foldl_field {d : Datum} (hd : Reads d) (name : String)
    (before : List (String × Datum)) (ts : List Token) :
    (tokens d ++ .mark ',' :: ts).foldl Reader.step
        ⟨.value, .record none before (some name) :: around, implicitSome⟩ =
      ts.foldl Reader.step
        ⟨.field, .record none ((name, d) :: before) none :: around, implicitSome⟩ := by
  rw [List.foldl_append, hd .value _ _ trivial]
  rfl

/-- The entries of a record are collected one behind the other. -/
theorem foldl_tokensOfEntries {entries : List (String × Datum)} (h : ∀ e ∈ entries, Reads e.2)
    (before : List (String × Datum)) :
    (tokensOfEntries entries).foldl Reader.step
        ⟨.field, .record none before none :: around, implicitSome⟩ =
      ⟨.field, .record none (entries.reverse ++ before) none :: around, implicitSome⟩ := by
  induction entries generalizing before with
  | nil => rfl
  | cons e entries ih =>
      obtain ⟨name, d⟩ := e
      obtain ⟨hd, hentries⟩ := List.forall_mem_cons.mp h
      calc (tokensOfEntries ((name, d) :: entries)).foldl Reader.step
            ⟨.field, .record none before none :: around, implicitSome⟩
          = (tokens d ++ .mark ',' :: tokensOfEntries entries).foldl Reader.step
              ⟨.value, .record none before (some name) :: around, implicitSome⟩ := rfl
        _ = ⟨.field, .record none (((name, d) :: entries).reverse ++ before) none :: around,
              implicitSome⟩ := by
            rw [hd.foldl_field, ih hentries]
            simp

end Parts

/-- **The tokens of a value make that value.** -/
theorem Plain.reads {d : Datum} (hd : Plain d) : Reads d := by
  induction hd with
  | absent | text | natural =>
      intro stage around implicitSome hstage
      exact (step_eq_beginValue hstage (by simp) (by simp)).trans (deliver_eq _ _ _)
  | boolean b =>
      intro stage around implicitSome hstage
      cases b <;> exact (step_eq_beginValue hstage (by simp) (by simp)).trans (deliver_eq _ _ _)
  | @present d _ ih =>
      intro stage around implicitSome hstage
      have hopen : Reader.step ⟨stage, around, implicitSome⟩ (.word "Some") =
          ⟨.someName, around, implicitSome⟩ := step_eq_beginValue hstage (by simp) (by simp)
      calc (tokens (.present d)).foldl Reader.step ⟨stage, around, implicitSome⟩
          = (tokens d ++ [Token.mark ')']).foldl Reader.step
              ⟨.value, .some none :: around, implicitSome⟩ := by
            rw [tokens, List.cons_append, List.foldl_cons, hopen]
            rfl
        _ = Reader.deliver ⟨.delimiter, .some (some d) :: around, implicitSome⟩ (.present d)
              around := by
            rw [List.foldl_append, ih .value _ _ trivial]
            rfl
        _ = _ := deliver_eq _ _ _
  | @list items _ ih =>
      intro stage around implicitSome hstage
      have hopen : Reader.step ⟨stage, around, implicitSome⟩ (.mark '[') =
          ⟨.valueOrClosing, .list [] :: around, implicitSome⟩ :=
        step_eq_beginValue hstage (by simp) (by simp)
      calc (tokens (.list items)).foldl Reader.step ⟨stage, around, implicitSome⟩
          = Reader.step ⟨.valueOrClosing, .list items.reverse :: around, implicitSome⟩
              (.mark ']') := by
            rw [tokens, List.cons_append, List.foldl_cons, hopen, List.foldl_append,
              foldl_tokensOfItems ih, List.append_nil]
            rfl
        _ = Reader.deliver ⟨.valueOrClosing, .list items.reverse :: around, implicitSome⟩
              (.list items.reverse.reverse) around := rfl
        _ = Reader.deliver ⟨.value, [], implicitSome⟩ (.list items) around := by
            rw [List.reverse_reverse, deliver_eq]
  | @record entries hentries _ _ ih =>
      intro stage around implicitSome hstage
      obtain ⟨⟨name, d⟩, entries, rfl⟩ := List.exists_cons_of_ne_nil hentries
      obtain ⟨hd, hrest⟩ := List.forall_mem_cons.mp ih
      have hopen : Reader.step ⟨stage, around, implicitSome⟩ (.mark '(') =
          ⟨.opened none, around, implicitSome⟩ := step_eq_beginValue hstage (by simp) (by simp)
      calc (tokens (.record none ((name, d) :: entries))).foldl Reader.step
            ⟨stage, around, implicitSome⟩
          = (tokens d ++ Token.mark ',' :: (tokensOfEntries entries ++ [Token.mark ')'])).foldl
              Reader.step
              ⟨.value, .record none [] (some name) :: around, implicitSome⟩ := by
            rw [tokens, List.cons_append, List.foldl_cons, hopen, tokensOfEntries]
            simp only [List.cons_append, List.append_assoc]
            rfl
        _ = Reader.step ⟨.field, .record none (entries.reverse ++ [(name, d)]) none :: around,
              implicitSome⟩ (.mark ')') := by
            rw [hd.foldl_field, List.foldl_append, foldl_tokensOfEntries hrest]
            rfl
        _ = Reader.deliver ⟨.field, .record none (entries.reverse ++ [(name, d)]) none :: around,
              implicitSome⟩ (.record none (entries.reverse ++ [(name, d)]).reverse) around := rfl
        _ = Reader.deliver ⟨.value, [], implicitSome⟩ (.record none ((name, d) :: entries))
              around := by
            rw [List.reverse_append, List.reverse_reverse, List.reverse_singleton,
              List.singleton_append, deliver_eq]

/-- **What is written is read back**, to the end of the text and with no rule switched on. -/
theorem Plain.read_write {d : Datum} (hd : Plain d) (level : Nat) :
    read (String.ofList (write level d)) =
      { root := d, complete := true, implicitSome := false } := by
  rw [read, String.toList_ofList, Plain.scan_write hd, readTokens,
    Plain.reads hd .start [] false trivial]
  rfl

end MentionAlign.Ron
