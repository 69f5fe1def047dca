import MentionAlign.Proofs.Data.FieldFaults
import MentionAlign.Proofs.Json.Reading

/-!
# One place of a JSON value

A change puts one JSON value in the place of another.  A change of a part is one of the whole, with
everything else as it is: one item of an array (`InItem`), or the value of one field of a record
(`InRecord`), which may be written with names or as a list of its fields in their order.

What a change does to a decoder is carried from the part to the whole in the same way.  The second
value is refused (`Refused`) if it fails with the given fault as soon as either of the two can be
read.  Both uses are in this: the second value is never read, and where the first one is, the fault
of the second is the given one.  For a record it is enough to know what its reader holds against the
values of the field (`RefusedAt`).
-/

namespace MentionAlign.Json

/-- A change of one JSON value into another. -/
abbrev Change := Json → Json → Prop

/-- One item of an array changes. -/
inductive InItem (change : Change) : Change
  | item {v w : Json} (before after : List Json) (h : change v w) :
      InItem change (.array (before ++ v :: after)) (.array (before ++ w :: after))

/-- The value of one field of a record changes.  Of entries with one name the last one counts, and
in a list a field stands at the position of its name. -/
inductive InField (names : List String) (name : String) (change : Change) : Change
  | named {v w : Json} (before after : List (String × Json)) (hlast : name ∉ after.map Prod.fst)
      (h : change v w) : InField names name change
        (.object (before ++ (name, v) :: after)) (.object (before ++ (name, w) :: after))
  | listed {v w : Json} (before after : List Json) (hname : names[before.length]? = some name)
      (h : change v w) : InField names name change
        (.array (before ++ v :: after)) (.array (before ++ w :: after))

/-- The value of one of the given fields of a record changes, each in its own way. -/
def InRecord (names : List String) (fields : List (String × Change)) : Change :=
  fun v w => ∃ field ∈ fields, InField names field.1 field.2 v w

/-- As soon as one of two data is read, the second one fails with the fault. -/
def Refused {α : Type} (read : Decoder α) (fault : Fault) (d d' : Datum) : Prop :=
  (∃ a, read .json d = .ok a) ∨ (∃ a, read .json d' = .ok a) → read .json d' = .error fault

/-- As soon as nothing is held against one of two values under a name, the fault is held against the
second one. -/
def RefusedAt {ν α : Type} (r : FieldReader ν α) (name : String) (fault : Fault) (v w : ν) : Prop :=
  r.judge .json name v = none ∨ r.judge .json name w = none → r.judge .json name w = some fault

/-- Each of the fields is a known one, and the reader refuses what its change puts there. -/
def RefusedFields {ν α : Type} (r : FieldReader ν α) (entry : Datum → ν) (names : List String)
    (fault : Fault) (fields : List (String × Change)) : Prop :=
  ∀ field ∈ fields, field.1 ∈ names ∧ ∀ v w, field.2 v w →
    RefusedAt r field.1 fault (entry v.toDatum) (entry w.toDatum)

section Parts

variable {ν : Type} {names : List String} {name : String} {change : Change} {v w : Json}

/-- The list of fields with one value left open. -/
theorem exists_zip_eq (before after : List ν) (h : names[before.length]? = some name) :
    ∃ before' after', ∀ x, names.zip (before ++ x :: after) = before' ++ (name, x) :: after' := by
  induction before generalizing names with
  | nil =>
      cases names with
      | nil => cases h
      | cons first names =>
          obtain rfl : first = name := Option.some.inj h
          exact ⟨[], names.zip after, fun _ => rfl⟩
  | cons y before ih =>
      cases names with
      | nil => cases h
      | cons first names =>
          obtain ⟨before', after', hzip⟩ := ih h
          exact ⟨(first, y) :: before', after', fun x => congrArg ((first, y) :: ·) (hzip x)⟩

/-- A list that stands for a record, with one value left open, has that value for one field. -/
theorem exists_fieldsOfList_eq (before after : List ν) (h : names[before.length]? = some name) :
    ∃ before' after' surplus, ∀ x, Datum.fieldsOfList? .json names (before ++ x :: after) =
      some ⟨before' ++ (name, x) :: after', true, surplus⟩ := by
  obtain ⟨before', after', hzip⟩ := exists_zip_eq before after h
  refine ⟨before', after', names.length < before.length + (after.length + 1), fun x => ?_⟩
  simp only [Datum.fieldsOfList?, hzip, List.length_append, List.length_cons]

/-- A changed field is one changed entry of the record, or one changed item of the list. -/
theorem InField.exists_data (h : InField names name change v w) : ∃ x y, change x y ∧
    ((∃ before after, v.toDatum = .record none (before ++ (name, x.toDatum) :: after) ∧
        w.toDatum = .record none (before ++ (name, y.toDatum) :: after)) ∨
      ∃ before after, names[before.length]? = some name ∧
        v.toDatum = .list (before ++ x.toDatum :: after) ∧
        w.toDatum = .list (before ++ y.toDatum :: after)) := by
  cases h with
  | @named x y before after hlast hchange =>
      have hlast' : name ∉ (after.map fun e => (e.1, e.2.toDatum)).map Prod.fst := by
        rwa [List.map_map]
      obtain ⟨before', after', hopen⟩ :=
        Entries.exists_ofList_eq (before.map fun e => (e.1, e.2.toDatum)) hlast'
      refine ⟨x, y, hchange, .inl ⟨before', after', ?_, ?_⟩⟩ <;>
        rw [toDatum_object, List.map_append, List.map_cons, hopen]
  | @listed x y before after hname hchange =>
      refine ⟨x, y, hchange, .inr ⟨before.map toDatum, after.map toDatum, ?_, ?_, ?_⟩⟩
      · rwa [List.length_map]
      all_goals rw [toDatum_array, List.map_append, List.map_cons]

/-- Records are not `null`. -/
theorem InRecord.ne_null {fields : List (String × Change)} (h : InRecord names fields v w) :
    v ≠ null ∧ w ≠ null := by
  obtain ⟨_, _, hchange⟩ := h
  cases hchange <;> exact ⟨nofun, nofun⟩

end Parts

section Refusals

variable {α β : Type} {read : Decoder α} {fault : Fault} {change : Change} {v w : Json}
  {d d' : Datum}

/-- A value that fails with the fault is refused in the place of any other. -/
theorem refused_of_error (h : read .json d' = .error fault) : Refused read fault d d' := fun _ => h

/-- What is refused is refused in the place of an optional value. -/
theorem Refused.ofOption (hv : v ≠ null) (hw : w ≠ null)
    (h : Refused read fault v.toDatum w.toDatum) :
    Refused (Datum.toOption read) fault v.toDatum w.toDatum := by
  intro hread
  simp only [toOption_toDatum hv, toOption_toDatum hw, map_eq_ok_iff] at hread
  have herror : read .json w.toDatum = .error fault := by
    refine h (hread.imp ?_ ?_)
    all_goals exact fun ⟨_, a, ha, _⟩ => ⟨a, ha⟩
  rw [toOption_toDatum hw, herror]
  rfl

/-- A list is refused for one of its items. -/
theorem InItem.refused (hitem : ∀ v w, change v w → Refused read fault v.toDatum w.toDatum)
    (h : InItem change v w) : Refused (Datum.toList read) fault v.toDatum w.toDatum := by
  cases h with
  | @item x y before after hchange =>
      rw [toDatum_array, toDatum_array, List.map_append, List.map_append, List.map_cons,
        List.map_cons]
      intro hread
      simp only [toList_list, exists_mapM_iff, List.forall_mem_append,
        List.forall_mem_cons] at hread
      have hbefore : ∀ d ∈ before.map toDatum, ∃ a, read .json d = .ok a :=
        hread.elim And.left And.left
      have herror : read .json y.toDatum = .error fault :=
        hitem x y hchange (hread.imp (fun h => h.2.1) fun h => h.2.1)
      rw [toList_list]
      exact mapM_append_cons_of_error hbefore herror

variable {type name : String} {reader : FieldReader Datum β} {names : List String}

/-- What a reader holds against an entry is the fault of reading the datum in it. -/
theorem Refused.atEntry {ν : Type} {reader : FieldReader ν β} (entry : Datum → ν)
    (hjudge : ∀ d, reader.judge .json name (entry d) = fault? (read .json d))
    (h : Refused read fault d d') : RefusedAt reader name fault (entry d) (entry d') := by
  intro hclean
  simp only [hjudge, fault?_eq_none_iff] at hclean
  rw [hjudge, fault?_eq_some_iff]
  exact h hclean

/-- What a reader holds against a value is the fault of reading it. -/
theorem Refused.at (hjudge : ∀ d, reader.judge .json name d = fault? (read .json d))
    (h : Refused read fault d d') : RefusedAt reader name fault d d' :=
  h.atEntry id hjudge

theorem RefusedFields.nil {ν : Type} {reader : FieldReader ν β} {entry : Datum → ν} :
    RefusedFields reader entry names fault [] := nofun

theorem RefusedFields.cons {ν : Type} {reader : FieldReader ν β} {entry : Datum → ν}
    {fields : List (String × Change)} (hname : name ∈ names)
    (hfield : ∀ v w, change v w →
      RefusedAt reader name fault (entry v.toDatum) (entry w.toDatum))
    (h : RefusedFields reader entry names fault fields) :
    RefusedFields reader entry names fault ((name, change) :: fields) :=
  List.forall_mem_cons.mpr ⟨⟨hname, hfield⟩, h⟩

variable [reader.Lawful]

/-- A record is refused for one of its entries. -/
theorem RefusedAt.record (hname : name ∈ reader.names) (h : RefusedAt reader name fault d d')
    (before after : List (String × Datum)) :
    Refused (Datum.toRecord type reader) fault (.record none (before ++ (name, d) :: after))
      (.record none (before ++ (name, d') :: after)) :=
  FieldReader.run_eq_error_of_either hname h

/-- A list that stands for a record is refused for one of its items. -/
theorem RefusedAt.list {before : List Datum} (hname : reader.names[before.length]? = some name)
    (h : RefusedAt reader name fault d d') (after : List Datum) :
    Refused (Datum.toRecord type reader) fault (.list (before ++ d :: after))
      (.list (before ++ d' :: after)) := by
  obtain ⟨before', after', surplus, hfields⟩ := exists_fieldsOfList_eq before after hname
  have hread (x : Datum) : Datum.toRecord type reader .json (.list (before ++ x :: after)) =
      reader.run .json (Datum.passOver .json) ⟨before' ++ (name, x) :: after', true, surplus⟩ := by
    simp only [Datum.toRecord, Datum.toRecordWith, Datum.under, hfields]
  intro hok
  simp only [hread] at hok ⊢
  exact FieldReader.run_eq_error_of_either (List.mem_of_getElem? hname) h hok

/-- **A record is refused for one of its fields.** -/
theorem InRecord.refused {fields : List (String × Change)} (h : InRecord names fields v w)
    (hreader : reader.names = names) (hfields : RefusedFields reader id names fault fields) :
    Refused (Datum.toRecord type reader) fault v.toDatum w.toDatum := by
  obtain ⟨field, hmem, hchange⟩ := h
  obtain ⟨hname, hrefused⟩ := hfields field hmem
  subst hreader
  obtain ⟨x, y, hxy, ⟨before, after, hv, hw⟩ | ⟨before, after, hplace, hv, hw⟩⟩ :=
    hchange.exists_data
  · rw [hv, hw]
    exact (hrefused x y hxy).record hname before after
  · rw [hv, hw]
    exact (hrefused x y hxy).list hplace after

end Refusals

end MentionAlign.Json
