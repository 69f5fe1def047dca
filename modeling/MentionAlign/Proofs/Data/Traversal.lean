import Mathlib.Data.List.Forall2
import Mathlib.Data.List.Perm.Basic

/-!
# Reading in steps and item by item

A reading in steps succeeds exactly when each step does (`bind_eq_ok_iff`).  Lists are read item by
item, and the first item that cannot be read ends the reading.  So a reading succeeds exactly when
every item can be read (`mapM_eq_ok_iff`), and fails with the error of the first one that cannot
(`mapM_eq_error_iff`).  Reading a list of lists and laying the results behind each other is reading
the items behind each other (`mapM_flatMap`), items in another order are read to the same results in
another order (`exists_mapM_of_perm`), and items may be put in order before they are read or
afterwards (`mapM_mergeSort`).
-/

namespace MentionAlign

variable {α β γ δ ε : Type} {f : α → Except ε β}

theorem bind_eq_ok_iff {r : Except ε α} {b : β} :
    r.bind f = .ok b ↔ ∃ a, r = .ok a ∧ f a = .ok b := by
  cases r <;> simp [Except.bind]

theorem bind_eq_error_iff {r : Except ε α} {e : ε} :
    r.bind f = .error e ↔ r = .error e ∨ ∃ a, r = .ok a ∧ f a = .error e := by
  cases r <;> simp [Except.bind]

theorem mapError_eq_ok_iff {r : Except ε α} {g : ε → δ} {a : α} :
    r.mapError g = .ok a ↔ r = .ok a := by
  cases r <;> simp [Except.mapError]

theorem mapError_eq_error_iff {r : Except ε α} {g : ε → δ} {e : δ} :
    r.mapError g = .error e ↔ ∃ e', r = .error e' ∧ g e' = e := by
  cases r <;> simp [Except.mapError]

theorem map_eq_ok_iff {r : Except ε α} {g : α → β} {b : β} :
    r.map g = .ok b ↔ ∃ a, r = .ok a ∧ g a = b := by
  cases r <;> simp [Except.map]

theorem map_eq_error_iff {r : Except ε α} {g : α → β} {e : ε} :
    r.map g = .error e ↔ r = .error e := by
  cases r <;> simp [Except.map]

/-- What is made of a result is there exactly when the result is. -/
theorem exists_map_eq_ok_iff {r : Except ε α} {g : α → β} :
    (∃ b, r.map g = .ok b) ↔ ∃ a, r = .ok a := by
  cases r <;> simp [Except.map]

/-- What is computed from a result tells that there is one. -/
theorem toOption_map_eq_some_iff {r : Except ε α} {g : α → β} {b : β} :
    r.toOption.map g = some b ↔ ∃ a, r = .ok a ∧ g a = b := by
  cases r <;> simp [Except.toOption]

/-- An optional item is read, if it is there, as what stands for it. -/
theorem mapM_option_eq_ok_iff {o : Option α} {p : Option β} :
    o.mapM f = .ok p ↔ Option.Rel (fun x y => f x = .ok y) o p := by
  cases o with
  | none =>
      have hnone : (none : Option α).mapM f = .ok none := rfl
      rw [hnone]
      cases p <;> simp
  | some x =>
      have hsome : (some x).mapM f = (f x).map some := rfl
      rw [hsome, map_eq_ok_iff]
      cases p <;> simp

/-- Reading a list reads its first item and then the others. -/
theorem mapM_cons_eq_bind (f : α → Except ε β) (x : α) (xs : List α) :
    (x :: xs).mapM f = (f x).bind fun y => (xs.mapM f).map (y :: ·) := by
  rw [List.mapM_cons]
  cases f x with
  | error e => rfl
  | ok y => cases xs.mapM f <;> rfl

/-- Reading an optional item is reading the list of it. -/
theorem mapM_toList (f : α → Except ε β) (o : Option α) :
    (o.mapM f).map Option.toList = o.toList.mapM f := by
  cases o with
  | none => rfl
  | some x =>
      have hsome : (some x).mapM f = (f x).map some := rfl
      rw [hsome, Option.toList_some, mapM_cons_eq_bind]
      cases f x <;> rfl

/-- **All items or none.**  Let a reading be told by an equation: an item reads as another exactly
when both show the same.  Then a list reads as another one exactly when both show the same, item by
item. -/
theorem mapM_eq_ok_iff_map_eq {shown : α → γ} {meant : β → γ}
    (h : ∀ x y, f x = .ok y ↔ shown x = meant y) {xs : List α} {ys : List β} :
    xs.mapM f = .ok ys ↔ xs.map shown = ys.map meant := by
  induction xs generalizing ys with
  | nil => cases ys <;> simp [pure, Except.pure]
  | cons x xs ih =>
      rw [mapM_cons_eq_bind]
      cases ys with
      | nil => cases f x <;> cases xs.mapM f <;> simp [Except.bind, Except.map]
      | cons y ys =>
          rw [List.map_cons, List.map_cons, List.cons.injEq, ← h, ← ih]
          cases f x <;> cases xs.mapM f <;> simp [Except.bind, Except.map]

/-- A list reads as another one exactly when its items, one by one, read as the items of that
list. -/
theorem mapM_eq_ok_iff {xs : List α} {ys : List β} :
    xs.mapM f = .ok ys ↔ xs.map f = ys.map .ok :=
  mapM_eq_ok_iff_map_eq fun _ _ => Iff.rfl

/-- The same, as a relation between the items of two lists. -/
theorem mapM_eq_ok_iff_forall₂ {xs : List α} {ys : List β} :
    xs.mapM f = .ok ys ↔ List.Forall₂ (fun x y => f x = .ok y) xs ys := by
  rw [mapM_eq_ok_iff, ← List.forall₂_eq_eq_eq, List.forall₂_map_left_iff,
    List.forall₂_map_right_iff]

/-- Nothing behind the first item that cannot be read is looked at. -/
theorem mapM_append_cons_of_error {before after : List α} {x : α} {e : ε}
    (hbefore : ∀ b ∈ before, ∃ y, f b = .ok y) (hx : f x = .error e) :
    (before ++ x :: after).mapM f = .error e := by
  induction before with
  | nil =>
      rw [List.nil_append, mapM_cons_eq_bind, hx]
      rfl
  | cons b before ih =>
      obtain ⟨y, hy⟩ := hbefore b List.mem_cons_self
      have hrest := ih fun c hc => hbefore c (List.mem_cons_of_mem _ hc)
      rw [List.cons_append, mapM_cons_eq_bind, hy, hrest]
      rfl

/-- A list that cannot be read has a first item that cannot. -/
theorem exists_first_error {xs : List α} {e : ε} (h : xs.mapM f = .error e) :
    ∃ before x after, xs = before ++ x :: after ∧ (∀ b ∈ before, ∃ y, f b = .ok y) ∧
      f x = .error e := by
  induction xs with
  | nil => simp [pure, Except.pure] at h
  | cons x xs ih =>
      rw [mapM_cons_eq_bind] at h
      cases hx : f x with
      | error e' =>
          rw [hx] at h
          obtain rfl : e' = e := Except.error.inj h
          exact ⟨[], x, xs, rfl, by simp, hx⟩
      | ok y =>
          cases hxs : xs.mapM f with
          | ok ys => simp [hx, hxs, Except.bind, Except.map] at h
          | error e' =>
              obtain rfl : e' = e := by simpa [hx, hxs, Except.bind, Except.map] using h
              obtain ⟨before, z, after, rfl, hbefore, hz⟩ := ih hxs
              exact ⟨x :: before, z, after, rfl, List.forall_mem_cons.mpr ⟨⟨y, hx⟩, hbefore⟩, hz⟩

/-- **The first failure counts.**  Reading a list fails exactly with the error of an item before
which all items can be read. -/
theorem mapM_eq_error_iff {xs : List α} {e : ε} :
    xs.mapM f = .error e ↔
      ∃ before x after, xs = before ++ x :: after ∧ (∀ b ∈ before, ∃ y, f b = .ok y) ∧
        f x = .error e := by
  constructor
  · exact exists_first_error
  · intro h
    obtain ⟨before, x, after, rfl, hbefore, hx⟩ := h
    exact mapM_append_cons_of_error hbefore hx

/-- A list can be read exactly when each item can. -/
theorem exists_mapM_iff {xs : List α} :
    (∃ ys, xs.mapM f = .ok ys) ↔ ∀ x ∈ xs, ∃ y, f x = .ok y := by
  cases hread : xs.mapM f with
  | error e =>
      obtain ⟨before, bad, after, rfl, _, hbad⟩ := mapM_eq_error_iff.mp hread
      simp only [reduceCtorEq, exists_false, false_iff]
      intro hall
      obtain ⟨y, hy⟩ := hall bad (by simp)
      rw [hbad] at hy
      cases hy
  | ok ys =>
      refine ⟨fun _ x hx => ?_, fun _ => ⟨ys, rfl⟩⟩
      have hmem : f x ∈ ys.map Except.ok := mapM_eq_ok_iff.mp hread ▸ List.mem_map_of_mem hx
      obtain ⟨y, _, hy⟩ := List.mem_map.mp hmem
      exact ⟨y, hy.symm⟩

/-- Readers of items that agree with a reader of their parts agree as readers of lists: the parts of
what is read are what is read of the parts. -/
theorem mapM_flatMap {g : γ → Except ε δ} {inner : δ → List β} {outer : γ → List α} {xs : List γ}
    (h : ∀ x ∈ xs, (g x).map inner = (outer x).mapM f) :
    (xs.mapM g).map (·.flatMap inner) = (xs.flatMap outer).mapM f := by
  induction xs with
  | nil => rfl
  | cons x xs ih =>
      have hx := h x List.mem_cons_self
      have hxs := ih fun y hy => h y (List.mem_cons_of_mem _ hy)
      rw [mapM_cons_eq_bind, List.flatMap_cons, List.mapM_append, ← hx, ← hxs]
      cases g x with
      | error e => rfl
      | ok y => cases xs.mapM g <;> rfl

/-- Lists of lists that are read as lists of lists are read as these when each is laid behind the
one before. -/
theorem mapM_flatMap_of_ok {g : γ → Except ε δ} {inner : δ → List β} {outer : γ → List α}
    (h : ∀ x y, g x = .ok y → (outer x).mapM f = .ok (inner y)) {xs : List γ} {ys : List δ}
    (hxs : xs.mapM g = .ok ys) : (xs.flatMap outer).mapM f = .ok (ys.flatMap inner) := by
  rw [mapM_eq_ok_iff_forall₂] at hxs
  induction hxs with
  | nil => rfl
  | cons hx _ ih =>
      rw [List.flatMap_cons, List.mapM_append, h _ _ hx, ih]
      rfl

/-- Where a first reading succeeds, reading what it returns is reading each item twice. -/
theorem mapM_bind_of_ok {g : β → Except ε γ} {xs : List α} {ys : List β}
    (h : xs.mapM f = .ok ys) : ys.mapM g = xs.mapM fun x => (f x).bind g := by
  rw [mapM_eq_ok_iff_forall₂] at h
  induction h with
  | nil => rfl
  | cons hx _ ih =>
      rw [mapM_cons_eq_bind, mapM_cons_eq_bind, hx, ih]
      rfl

/-- Items in another order are read to the same results in another order. -/
theorem exists_mapM_of_perm {xs xs' : List α} {ys : List β} (hperm : xs'.Perm xs)
    (h : xs.mapM f = .ok ys) : ∃ ys', xs'.mapM f = .ok ys' ∧ ys'.Perm ys := by
  obtain ⟨ys', hread, hys⟩ := List.perm_comp_forall₂ hperm (mapM_eq_ok_iff_forall₂.mp h)
  exact ⟨ys', mapM_eq_ok_iff_forall₂.mpr hread, hys⟩

/-- Items may be put in order before they are read or afterwards, if reading keeps the order. -/
theorem mapM_mergeSort {le : α → α → Bool} {le' : β → β → Bool}
    (horder : ∀ x x' y y', f x = .ok y → f x' = .ok y' → le x x' = le' y y') {xs : List α}
    {ys : List β} (h : xs.mapM f = .ok ys) : (xs.mergeSort le).mapM f = .ok (ys.mergeSort le') := by
  -- what is put in order are the items, each with what is read of it
  obtain ⟨hlength, hread⟩ := List.forall₂_iff_zip.mp (mapM_eq_ok_iff_forall₂.mp h)
  have hxs := List.map_fst_zip (Nat.le_of_eq hlength)
  have hys := List.map_snd_zip (Nat.le_of_eq hlength.symm)
  generalize xs.zip ys = pairs at hread hxs hys
  subst hxs hys
  have hfirst : (pairs.map Prod.fst).mergeSort le =
      (pairs.mergeSort fun p q => le p.1 q.1).map Prod.fst := by
    rw [List.map_mergeSort fun p _ q _ => Eq.refl (le p.1 q.1)]
  have hsecond : (pairs.map Prod.snd).mergeSort le' =
      (pairs.mergeSort fun p q => le p.1 q.1).map Prod.snd :=
    (List.map_mergeSort fun p hp q hq => horder _ _ _ _ (hread hp) (hread hq)).symm
  rw [hfirst, hsecond, mapM_eq_ok_iff, List.map_map, List.map_map]
  exact List.map_congr_left fun p hp => hread (List.mem_mergeSort.mp hp)

end MentionAlign
