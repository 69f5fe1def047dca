import MentionAlign.Proofs.Data.Decoding

/-!
# The fault of one entry

A reader put together from single fields judges every entry by itself: what it holds against the
value under a name (`FieldReader.judge`) does not depend on the other entries (`Lawful`).  So a
record that can be read, with one value put in that the reader holds a fault against, fails with
exactly that fault (`run_eq_error_of_judge`).  The other entries are no fault, wherever they stand.
-/

namespace MentionAlign

/-- The fault of a failed reading. -/
def fault? {α : Type} : Except Fault α → Option Fault
  | .ok _ => none
  | .error fault => some fault

/-- There is no fault exactly where there is a value. -/
theorem fault?_eq_none_iff {α : Type} {r : Except Fault α} : fault? r = none ↔ ∃ a, r = .ok a := by
  cases r <;> simp [fault?]

theorem fault?_eq_some_iff {α : Type} {r : Except Fault α} {fault : Fault} :
    fault? r = some fault ↔ r = .error fault := by
  cases r <;> simp [fault?]

namespace FieldReader

variable {ν α β : Type} {r : FieldReader ν α} {f : FieldReader ν (α → β)} {format : Format}
  {name : String} {v : ν}

/-- What a reader holds against the value under a name: the fault that it finds in the entry
alone. -/
def judge (r : FieldReader ν α) (format : Format) (name : String) (v : ν) : Option Fault :=
  (r.read format { entries := [(name, v)] }).faults.lookup name

/-- The reader judges every entry by itself. -/
class Lawful (r : FieldReader ν α) : Prop where
  lookup_faults (format : Format) (fields : Fields ν) (name : String) :
    (r.read format fields).faults.lookup name =
      (fields.entries.lookup name).bind (r.judge format name)

section Laws

variable {own : String} {read : Format → ν → Except Fault α}

@[simp] theorem judge_field {missing : Bool → Except Fault α} :
    (field own read missing).judge format name v =
      if name = own then fault? (read format v) else none := by
  by_cases h : name = own
  · subst h
    cases hread : read format v <;> simp [judge, field, fault?, hread]
  · have h' : (own == name) = false := beq_false_of_ne (Ne.symm h)
    simp [judge, field, h, h', List.lookup_cons]

@[simp] theorem judge_required : (required own read).judge format name v =
    if name = own then fault? (read format v) else none := judge_field

@[simp] theorem judge_defaulted {fallback : α} : (defaulted own read fallback).judge format name v =
    if name = own then fault? (read format v) else none := judge_field

@[simp] theorem judge_seq : (f <*> r).judge format name v =
    (f.judge format name v).or (r.judge format name v) := List.lookup_append

@[simp] theorem judge_map {g : α → β} : (g <$> r).judge format name v = r.judge format name v :=
  judge_seq (f := pure g)

instance {missing : Bool → Except Fault α} : (field own read missing).Lawful where
  lookup_faults format fields name := by
    have hjudge : (field own read missing).judge format name =
        fun v => if name = own then fault? (read format v) else none := funext fun _ => judge_field
    rw [hjudge]
    by_cases h : name = own
    · subst h
      cases hlookup : fields.entries.lookup name with
      | none => simp [field, hlookup]
      | some v => cases hread : read format v <;> simp [field, fault?, hlookup, hread]
    · cases hlookup : fields.entries.lookup own with
      | none => simp [field, h, hlookup]
      | some v => cases hread : read format v <;> simp [field, h, hlookup, hread]

instance : (required own read).Lawful := inferInstanceAs (field own read _).Lawful

instance {fallback : α} : (defaulted own read fallback).Lawful :=
  inferInstanceAs (field own read _).Lawful

instance {a : α} : (pure a : FieldReader ν α).Lawful where
  lookup_faults format fields name := by
    cases fields.entries.lookup name <;> rfl

instance [f.Lawful] [r.Lawful] : (f <*> r).Lawful where
  lookup_faults format fields name := by
    have hboth : ((f <*> r).read format fields).faults.lookup name =
        ((f.read format fields).faults.lookup name).or
          ((r.read format fields).faults.lookup name) := List.lookup_append
    rw [hboth, Lawful.lookup_faults, Lawful.lookup_faults]
    cases fields.entries.lookup name with
    | none => rfl
    | some v => exact judge_seq.symm

instance {g : α → β} [r.Lawful] : (g <$> r).Lawful := inferInstanceAs (pure g <*> r).Lawful

end Laws

section FirstFault

variable {names seen : List String} {faults faults' : List (String × Fault)}
  {stray : String → ν → Option Fault} {before after : List (String × ν)} {w : ν} {fault : Fault}

/-- An entry that a field asks for is no fault if it is the first of its name and none is found. -/
theorem firstFault_cons_of_mem (h : name ∈ names) :
    firstFault names faults stray seen ((name, v) :: after) = none ↔
      name ∉ seen ∧ faults.lookup name = none ∧
        firstFault names faults stray (name :: seen) after = none := by
  rw [firstFault, if_pos (List.contains_iff_mem.mpr h)]
  by_cases hseen : name ∈ seen
  · simp [hseen]
  · simp only [List.contains_iff_mem, hseen, if_false, Option.or_eq_none_iff, not_false_eq_true,
      true_and]

/-- An entry that no field asks for is no fault if passing it over is none. -/
theorem firstFault_cons_of_not_mem (h : name ∉ names) :
    firstFault names faults stray seen ((name, v) :: after) = none ↔
      stray name v = none ∧ firstFault names faults stray seen after = none := by
  rw [firstFault, if_neg (mt List.contains_iff_mem.mp h), Option.or_eq_none_iff]

/-- Among entries without a fault, a known name stands once and there is no fault for it. -/
theorem fresh_of_firstFault_eq_none (hname : name ∈ names)
    (h : firstFault names faults stray seen (before ++ (name, v) :: after) = none) :
    name ∉ seen ∧ name ∉ before.map Prod.fst ∧ faults.lookup name = none := by
  induction before generalizing seen with
  | nil =>
      obtain ⟨hfresh, hnone, _⟩ := (firstFault_cons_of_mem hname).mp h
      exact ⟨hfresh, List.not_mem_nil, hnone⟩
  | cons e before ih =>
      obtain ⟨other, u⟩ := e
      rw [List.map_cons, List.mem_cons, not_or]
      by_cases hother : other ∈ names
      · obtain ⟨_, _, hrest⟩ := (firstFault_cons_of_mem hother).mp h
        obtain ⟨hfresh, hbefore, hnone⟩ := ih hrest
        rw [List.mem_cons, not_or] at hfresh
        exact ⟨hfresh.2, ⟨hfresh.1, hbefore⟩, hnone⟩
      · obtain ⟨_, hrest⟩ := (firstFault_cons_of_not_mem hother).mp h
        obtain ⟨hfresh, hbefore, hnone⟩ := ih hrest
        exact ⟨hfresh, ⟨fun heq : name = other => hother (heq ▸ hname), hbefore⟩, hnone⟩

/-- Where the entries are no fault, a fault of one of them is the first one. -/
theorem firstFault_eq_some_of_entry (hname : name ∈ names)
    (hothers : ∀ other, other ≠ name → faults'.lookup other = faults.lookup other)
    (hfault : faults'.lookup name = some fault)
    (h : firstFault names faults stray seen (before ++ (name, v) :: after) = none) :
    firstFault names faults' stray seen (before ++ (name, w) :: after) = some fault := by
  induction before generalizing seen with
  | nil =>
      obtain ⟨hfresh, _, _⟩ := (firstFault_cons_of_mem hname).mp h
      rw [List.nil_append, firstFault, if_pos (List.contains_iff_mem.mpr hname),
        if_neg (mt List.contains_iff_mem.mp hfresh), hfault]
      rfl
  | cons e before ih =>
      obtain ⟨other, u⟩ := e
      obtain ⟨_, hbefore, _⟩ := fresh_of_firstFault_eq_none hname h
      have hne : other ≠ name := fun heq => hbefore (by simp [heq])
      rw [List.cons_append, firstFault]
      by_cases hother : other ∈ names
      · obtain ⟨hfresh, hnone, hrest⟩ := (firstFault_cons_of_mem hother).mp h
        rw [if_pos (List.contains_iff_mem.mpr hother), if_neg (mt List.contains_iff_mem.mp hfresh),
          hothers other hne, hnone]
        exact ih hrest
      · obtain ⟨hnone, hrest⟩ := (firstFault_cons_of_not_mem hother).mp h
        rw [if_neg (mt List.contains_iff_mem.mp hother), hnone]
        exact ih hrest

end FirstFault

section Run

variable {stray : String → ν → Option Fault} {before after : List (String × ν)}
  {positional surplus : Bool} {w : ν} {fault : Fault} {a : α}

/-- A record is read only where its entries are no fault. -/
theorem firstFault_eq_none_of_run {fields : Fields ν} (h : r.run format stray fields = .ok a) :
    firstFault r.names (r.read format fields).faults stray [] fields.entries = none := by
  cases hfirst : firstFault r.names (r.read format fields).faults stray [] fields.entries with
  | none => rfl
  | some fault =>
      simp only [run, hfirst] at h
      cases h

/-- **One fault among the entries.**  If a record is read, nothing is held against the value under a
known name; and with a value there that something is held against, that is the fault of the
record. -/
theorem run_eq_error_of_judge [r.Lawful] (hname : name ∈ r.names)
    (hrun : r.run format stray ⟨before ++ (name, v) :: after, positional, surplus⟩ = .ok a) :
    r.judge format name v = none ∧ ∀ w fault, r.judge format name w = some fault →
      r.run format stray ⟨before ++ (name, w) :: after, positional, surplus⟩ = .error fault := by
  have hclean := firstFault_eq_none_of_run hrun
  obtain ⟨_, hbefore, hnone⟩ := fresh_of_firstFault_eq_none hname hclean
  have hskip : before.lookup name = none := by
    rw [List.lookup_eq_none_iff]
    intro e he
    have hne : name ≠ e.1 := fun heq => hbefore (heq ▸ List.mem_map_of_mem he)
    simpa using hne
  have hfound (u : ν) : (before ++ (name, u) :: after).lookup name = some u := by
    rw [List.lookup_append, hskip, List.lookup_cons, beq_self_eq_true]
    rfl
  refine ⟨?_, fun w fault hfault => ?_⟩
  · rw [Lawful.lookup_faults, hfound] at hnone
    exact hnone
  · have hfirst : firstFault r.names
        (r.read format ⟨before ++ (name, w) :: after, positional, surplus⟩).faults stray []
        (before ++ (name, w) :: after) = some fault := by
      refine firstFault_eq_some_of_entry hname (fun other hne => ?_) ?_ hclean
      · have hsame : (before ++ (name, w) :: after).lookup other =
            (before ++ (name, v) :: after).lookup other := by
          simp [List.lookup_append, List.lookup_cons, beq_false_of_ne hne]
        rw [Lawful.lookup_faults, Lawful.lookup_faults]
        exact congrArg (·.bind (r.judge format other)) hsame
      · rw [Lawful.lookup_faults, hfound]
        exact hfault
    rw [run]
    simp only [hfirst]

/-- As soon as a record can be read with one of two values under a known name, it fails with the
second one if something is held against that value. -/
theorem run_eq_error_of_either [r.Lawful] (hname : name ∈ r.names)
    (hjudge : r.judge format name v = none ∨ r.judge format name w = none →
      r.judge format name w = some fault)
    (hrun : (∃ a, r.run format stray ⟨before ++ (name, v) :: after, positional, surplus⟩ = .ok a) ∨
      ∃ a, r.run format stray ⟨before ++ (name, w) :: after, positional, surplus⟩ = .ok a) :
    r.run format stray ⟨before ++ (name, w) :: after, positional, surplus⟩ = .error fault := by
  rcases hrun with ⟨a, hv⟩ | ⟨a, hw⟩
  · obtain ⟨hnone, herror⟩ := run_eq_error_of_judge hname hv
    exact herror w fault (hjudge (.inl hnone))
  · obtain ⟨hnone, herror⟩ := run_eq_error_of_judge hname hw
    exact herror w fault (hjudge (.inr hnone))

end Run

end FieldReader

end MentionAlign
