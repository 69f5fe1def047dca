import MentionAlign.Data.Toml
import MentionAlign.Proofs.Data.EntryOrder
import MentionAlign.Proofs.Suite.Loading
import MentionAlign.Proofs.Text.Joining
import MentionAlign.Proofs.Text.Lossy
import Mathlib.Data.List.Perm.Basic

/-!
# Which fixtures are found

`FileTree.files` lists every file below a folder with its place, the names of the folders on the way
and its own.  The fixtures are those of them whose name has the extension of fixtures and is not
that of a ledger, and the key of each is the text that shows its path.  Where each folder lists an
entry once, each fixture is found once, in rising order of the keys.

Names are bytes, and names that are no texts may be shown alike.  Then two fixtures have one key,
and stand in the order in which the folders list them; what is left of that order is only this
(`FileTree.Relists.exists_loadFixtures`).  Names that are texts without a slash show which names
they are (`FileTree.NamedByTexts.shownApart`), so with such names the keys rise strictly and nothing
is left of the order of listing.

`FileTree.collectFixtures` reads the fixtures as they are listed and puts them in order when all are
read.  It returns what `FileTree.loadFixtures` does whenever every fixture can be read; they differ
only in which of several fixtures that cannot be read is named.
-/

namespace MentionAlign

/-- The name ends in a dot and the extension, and something stands before the dot. -/
def HasExtension (extension : String) (name : FileName) : Prop :=
  '.' ∉ extension.toList ∧ ∃ stem, stem ≠ [] ∧ name = stem ++ Text.bytes ("." ++ extension)

/-- A fixture has the extension of fixtures and is no ledger. -/
theorem isFixtureName_iff {name : FileName} :
    isFixtureName name ↔ HasExtension "toml" name ∧ name ≠ Text.bytes ledgerName := by
  have hending : fixtureEnding = Text.bytes ("." ++ "toml") := rfl
  simp only [isFixtureName, Bool.and_eq_true, decide_eq_true_eq, List.isSuffixOf_iff_suffix,
    bne_iff_ne, ne_eq, HasExtension, ← hending]
  refine and_congr_left fun _ => ?_
  constructor
  · rintro ⟨⟨stem, hstem⟩, hlength⟩
    refine ⟨by decide, stem, ?_, hstem.symm⟩
    rintro rfl
    rw [← hstem, List.nil_append] at hlength
    exact Nat.lt_irrefl _ hlength
  · rintro ⟨_, stem, hne, hname⟩
    refine ⟨⟨stem, hname.symm⟩, ?_⟩
    rw [hname, List.length_append]
    have := List.length_pos_iff.mpr hne
    omega

/-- The path of a place, with a slash between each name and the next. -/
def pathOf (place : List FileName) : List UInt8 := (Text.bytes "/").intercalate place

/-- A folder around a place comes before its path, with a slash. -/
theorem pathOf_cons (name : FileName) {place : List FileName} (h : place ≠ []) :
    pathOf (name :: place) = name ++ Text.bytes "/" ++ pathOf place :=
  List.intercalate_cons_of_ne_nil h

/-- Where the names are texts, what shows the path is the path. -/
theorem shown_pathOf_bytes (names : List String) :
    Text.shown (pathOf (names.map Text.bytes)) = "/".intercalate names := by
  rw [pathOf, ← Text.bytes_intercalate, Text.shown_bytes]

/-- A file with its place: the names of the folders on the way to it, and its own. -/
structure PlacedFile where
  place : List FileName
  text : Option String

namespace PlacedFile

/-- The same file with a folder around it. -/
def below (name : FileName) (f : PlacedFile) : PlacedFile := { f with place := name :: f.place }

/-- Whether the file is a fixture. -/
def isFixture (f : PlacedFile) : Bool := f.place.getLast?.any isFixtureName

/-- The file under the text that shows its path. -/
def entry (f : PlacedFile) : String × Option String := (Text.shown (pathOf f.place), f.text)

variable {f : PlacedFile}

/-- The last name of a place decides whether the file there is a fixture. -/
theorem isFixture_iff : f.isFixture ↔ ∃ name ∈ f.place.getLast?,
    HasExtension "toml" name ∧ name ≠ Text.bytes ledgerName := by
  simp only [isFixture, Option.any_eq_true, isFixtureName_iff, Option.mem_def]

/-- A folder around a file makes no fixture of it. -/
theorem isFixture_below (name : FileName) (h : f.place ≠ []) :
    (f.below name).isFixture = f.isFixture := by
  rw [isFixture, isFixture, below, List.getLast?_cons_of_ne_nil h]

end PlacedFile

namespace FileTree

/-- What holds of files, and of folders when it holds of all entries, holds of all trees. -/
@[elab_as_elim]
theorem inductionOnEntries {motive : FileTree → Prop} (file : ∀ text, motive (.file text))
    (folder : ∀ es : List (FileName × FileTree), (∀ e ∈ es, motive e.2) → motive (.folder es)) :
    ∀ t, motive t
  | .file text => file text
  | .folder es => folder es fun e _ => inductionOnEntries file folder e.2
termination_by t => sizeOf t
decreasing_by
  have hmem : sizeOf e < sizeOf es := List.sizeOf_lt_of_mem ‹_›
  obtain ⟨name, t⟩ := e
  simp only [Prod.mk.sizeOf_spec, FileTree.folder.sizeOf_spec] at hmem ⊢
  omega

mutual

/-- The files of a tree in the order of listing; a file that is the whole tree has no name. -/
def files : FileTree → List PlacedFile
  | .file text => [⟨[], text⟩]
  | .folder es => filesAmong es

/-- The files of the entries of a folder. -/
def filesAmong : List (FileName × FileTree) → List PlacedFile
  | [] => []
  | (name, t) :: es => t.files.map (PlacedFile.below name) ++ filesAmong es

end

theorem filesAmong_eq_flatMap (es : List (FileName × FileTree)) :
    filesAmong es = es.flatMap fun e => e.2.files.map (PlacedFile.below e.1) := by
  induction es with
  | nil => rfl
  | cons e es ih => rw [filesAmong, ih, List.flatMap_cons]

/-- The files of a folder are those of its entries, with the name of the entry in front. -/
theorem mem_filesAmong_iff {es : List (FileName × FileTree)} {f : PlacedFile} :
    f ∈ filesAmong es ↔ ∃ e ∈ es, ∃ g ∈ e.2.files, g.below e.1 = f := by
  simp only [filesAmong_eq_flatMap, List.mem_flatMap, List.mem_map]

/-- A file below a folder has a name. -/
theorem place_ne_nil_of_mem_filesAmong {es : List (FileName × FileTree)} {f : PlacedFile}
    (h : f ∈ filesAmong es) : f.place ≠ [] := by
  obtain ⟨e, _, g, _, rfl⟩ := mem_filesAmong_iff.mp h
  exact List.cons_ne_nil _ _

/-! ### The fixtures among the files -/

/-- If the fixtures of each entry are those among its files, so are those of all entries. -/
theorem fixtureFilesAmong_eq_of_forall {es : List (FileName × FileTree)}
    (h : ∀ e ∈ es, ∀ path, e.2.fixtureFilesAt path e.1 =
      ((e.2.files.map (PlacedFile.below e.1)).filter PlacedFile.isFixture).map
        fun f => (Text.shown (path ++ pathOf f.place), f.text)) (path : List UInt8) :
    fixtureFilesAmong path es = ((filesAmong es).filter PlacedFile.isFixture).map
      fun f => (Text.shown (path ++ pathOf f.place), f.text) := by
  induction es with
  | nil => rfl
  | cons e es ih =>
      obtain ⟨he, hes⟩ := List.forall_mem_cons.mp h
      rw [fixtureFilesAmong, filesAmong, he, ih hes, List.filter_append, List.map_append]

/-- The fixtures of an entry are those among its files, listed in the same order. -/
theorem fixtureFilesAt_eq (t : FileTree) (path : List UInt8) (name : FileName) :
    t.fixtureFilesAt path name =
      ((t.files.map (PlacedFile.below name)).filter PlacedFile.isFixture).map
        fun f => (Text.shown (path ++ pathOf f.place), f.text) := by
  induction t using inductionOnEntries generalizing path name with
  | file text =>
      by_cases hname : isFixtureName name <;>
        simp [fixtureFilesAt, files, PlacedFile.below, PlacedFile.isFixture, pathOf, hname]
  | folder es ih =>
      rw [fixtureFilesAt, files, fixtureFilesAmong_eq_of_forall fun e he path => ih e he path e.1,
        List.filter_map, List.map_map]
      have hfilter : (filesAmong es).filter (PlacedFile.isFixture ∘ PlacedFile.below name) =
          (filesAmong es).filter PlacedFile.isFixture :=
        List.filter_congr fun f hf =>
          PlacedFile.isFixture_below name (place_ne_nil_of_mem_filesAmong hf)
      rw [hfilter]
      refine List.map_congr_left fun f hf => ?_
      have hplace := place_ne_nil_of_mem_filesAmong (List.mem_filter.mp hf).1
      simp only [Function.comp_apply, PlacedFile.below, pathOf_cons name hplace, List.append_assoc]

/-- The fixtures among the files, in rising order of what shows their paths. -/
def placedFixtures (t : FileTree) : List PlacedFile :=
  (t.files.filter PlacedFile.isFixture).mergeSort fun f g => f.entry.1 ≤ g.entry.1

/-- The fixtures below a folder are those among its files. -/
theorem fixtureFiles_eq (t : FileTree) :
    t.fixtureFiles = t.placedFixtures.map PlacedFile.entry := by
  have hamong (es : List (FileName × FileTree)) : fixtureFilesAmong [] es =
      ((filesAmong es).filter PlacedFile.isFixture).map PlacedFile.entry := by
    rw [fixtureFilesAmong_eq_of_forall fun e _ path => fixtureFilesAt_eq e.2 path e.1]
    rfl
  have hsort (fs : List PlacedFile) : (fs.map PlacedFile.entry).mergeSort (fun a b => a.1 ≤ b.1) =
      (fs.mergeSort fun f g => f.entry.1 ≤ g.entry.1).map PlacedFile.entry :=
    (List.map_mergeSort fun f _ g _ => Eq.refl (decide (f.entry.1 ≤ g.entry.1))).symm
  cases t with
  | file text =>
      rw [placedFixtures, ← hsort]
      rfl
  | folder es => rw [fixtureFiles, placedFixtures, entries, files, hamong, hsort]

/-! ### Listings -/

/-- Every folder lists an entry once. -/
inductive Listed : FileTree → Prop
  | file (text : Option String) : Listed (.file text)
  | folder {es : List (FileName × FileTree)} (once : (es.map Prod.fst).Nodup)
      (below : ∀ e ∈ es, e.2.Listed) : Listed (.folder es)

/-- The same tree with the entries of its folders in any order. -/
inductive Relists : FileTree → FileTree → Prop
  | file (text : Option String) : Relists (.file text) (.file text)
  | folder {es fs : List (FileName × FileTree)} (pairs : List (FileName × FileTree × FileTree))
      (below : ∀ p ∈ pairs, p.2.1.Relists p.2.2)
      (left : es.Perm (pairs.map fun p => (p.1, p.2.1)))
      (right : fs.Perm (pairs.map fun p => (p.1, p.2.2))) : Relists (.folder es) (.folder fs)

/-- A folder with its entries in another order. -/
theorem Relists.of_perm {es fs : List (FileName × FileTree)} (hbelow : ∀ e ∈ es, e.2.Relists e.2)
    (hperm : fs.Perm es) : Relists (.folder es) (.folder fs) := by
  refine .folder (es.map fun e => (e.1, e.2, e.2)) (List.forall_mem_map.mpr hbelow) ?_ ?_
  · rw [List.map_map]
    exact .of_eq (List.map_id es).symm
  · rw [List.map_map]
    exact hperm.trans (.of_eq (List.map_id es).symm)

@[refl]
theorem Relists.refl (t : FileTree) : t.Relists t := by
  induction t using inductionOnEntries with
  | file text => exact .file text
  | folder es ih => exact .of_perm ih (.refl es)

/-- Listed in another order, a tree has the same files. -/
theorem Relists.perm_files {t u : FileTree} (h : t.Relists u) : t.files.Perm u.files := by
  induction h with
  | file text => exact .refl _
  | folder pairs _ left right ih =>
      rw [files, files, filesAmong_eq_flatMap, filesAmong_eq_flatMap]
      refine (left.flatMap_right _).trans (.trans ?_ (right.flatMap_right _).symm)
      rw [List.flatMap_map, List.flatMap_map]
      exact .flatMap_left pairs fun p hp => (ih p hp).map _

variable {t u : FileTree}

/-- Listed in another order, a tree has the same fixtures. -/
theorem Relists.perm_fixtureFiles (h : t.Relists u) : u.fixtureFiles.Perm t.fixtureFiles := by
  rw [fixtureFiles_eq, fixtureFiles_eq]
  refine .map _ ((List.mergeSort_perm _ _).trans (.trans ?_ (List.mergeSort_perm _ _).symm))
  exact h.perm_files.symm.filter _

/-- The files of a listed tree are what stands at their places. -/
theorem Listed.mem_files_iff (h : t.Listed) {f : PlacedFile} :
    f ∈ t.files ↔ t.find? f.place = some (.file f.text) := by
  induction h generalizing f with
  | file text =>
      obtain ⟨place, content⟩ := f
      cases place with
      | nil => simp [files, find?, eq_comm]
      | cons name place => simp [files, find?, entries]
  | @folder es once _ ih =>
      obtain ⟨place, content⟩ := f
      rw [files, mem_filesAmong_iff]
      cases place with
      | nil => simp [find?, PlacedFile.below]
      | cons name place =>
          rw [find?, entries, Option.bind_eq_some_iff]
          simp only [Entries.lookup_eq_some_iff_mem once]
          constructor
          · rintro ⟨e, he, g, hg, hbelow⟩
            obtain ⟨hplace, rfl⟩ := PlacedFile.mk.inj hbelow
            obtain ⟨rfl, rfl⟩ := List.cons.inj hplace
            exact ⟨e.2, he, (ih e he).mp hg⟩
          · rintro ⟨t, ht, hfound⟩
            exact ⟨(name, t), ht, ⟨place, content⟩, (ih _ ht).mpr hfound, rfl⟩

/-- No two files of a listed tree have one place. -/
theorem Listed.nodup_places (h : t.Listed) : (t.files.map PlacedFile.place).Nodup := by
  induction h with
  | file text => exact List.nodup_singleton _
  | @folder es once _ ih =>
      have hplaces : (filesAmong es).map PlacedFile.place =
          es.flatMap fun e => (e.2.files.map PlacedFile.place).map (e.1 :: ·) := by
        simp only [filesAmong_eq_flatMap, List.map_flatMap, List.map_map]
        rfl
      rw [files, hplaces, List.nodup_flatMap]
      constructor
      · intro e he
        exact (ih e he).map fun _ _ h => (List.cons.inj h).2
      · refine (List.pairwise_map.mp once).imp fun hne place hd he => ?_
        obtain ⟨_, _, rfl⟩ := List.mem_map.mp hd
        obtain ⟨_, _, hcons⟩ := List.mem_map.mp he
        exact hne (List.cons.inj hcons).1.symm

/-- A fixture with the given text stands at the place. -/
def HoldsFixture (t : FileTree) (place : List FileName) (text : Option String) : Prop :=
  t.find? place = some (.file text) ∧ ∃ name ∈ place.getLast?,
    HasExtension "toml" name ∧ name ≠ Text.bytes ledgerName

/-- The fixtures of a listed tree are what stands at their places. -/
theorem Listed.mem_placedFixtures_iff (h : t.Listed) {f : PlacedFile} :
    f ∈ t.placedFixtures ↔ t.HoldsFixture f.place f.text := by
  rw [placedFixtures, List.mem_mergeSort, List.mem_filter, h.mem_files_iff,
    PlacedFile.isFixture_iff]
  rfl

/-- No two fixtures of a listed tree have one place. -/
theorem Listed.nodup_placedFixtures (h : t.Listed) :
    (t.placedFixtures.map PlacedFile.place).Nodup := by
  rw [placedFixtures, ((List.mergeSort_perm _ _).map _).nodup_iff]
  exact h.nodup_places.sublist (List.filter_sublist.map _)

/-! ### Reading the fixtures -/

section Reading

variable {reader : TextReader}

/-- Fixtures that are listed in order are read as they are listed. -/
theorem loadFixtures_of_pairwise {files : List (String × Option String)}
    (hfiles : fixtureFilesAmong [] t.entries = files)
    (hordered : files.Pairwise fun a b => a.1 ≤ b.1) :
    t.loadFixtures reader = files.mapM (loadEntry reader) := by
  rw [loadFixtures_eq_mapM, fixtureFiles, hfiles,
    List.mergeSort_of_pairwise (hordered.imp decide_eq_true)]

/-- The fixtures are read exactly when each of them can be read. -/
theorem exists_loadFixtures_iff : (∃ fixtures, t.loadFixtures reader = .ok fixtures) ↔
    ∀ f ∈ t.placedFixtures, ∃ content, ∃ fixture : Fixture,
      f.text = some content ∧ reader.decode content = .ok fixture := by
  rw [loadFixtures_eq_mapM, exists_mapM_iff, fixtureFiles_eq, List.forall_mem_map]
  simp only [loadEntry, exists_map_eq_ok_iff, Fixture.load_eq_ok_iff, PlacedFile.entry]
  exact forall₂_congr fun _ _ => exists_comm

/-- **One fixture for each place.**  What is read are the fixtures in the files of a listed tree,
one for each place at which a fixture stands, under the text that shows the path of that place. -/
theorem Listed.exists_places (h : t.Listed) {fixtures : List (String × Fixture)}
    (hload : t.loadFixtures reader = .ok fixtures) :
    ∃ places : List (List FileName), places.Nodup ∧
      (∀ place, place ∈ places ↔ ∃ text, t.HoldsFixture place text) ∧
      List.Forall₂ (fun place (entry : String × Fixture) => entry.1 = Text.shown (pathOf place) ∧
        ∃ content, t.HoldsFixture place (some content) ∧ reader.decode content = .ok entry.2)
        places fixtures := by
  refine ⟨_, h.nodup_placedFixtures, fun place => ?_, ?_⟩
  · simp only [List.mem_map, h.mem_placedFixtures_iff]
    constructor
    · rintro ⟨f, hf, rfl⟩
      exact ⟨f.text, hf⟩
    · rintro ⟨text, hholds⟩
      exact ⟨⟨place, text⟩, hholds, rfl⟩
  · rw [loadFixtures_eq_ok_iff, fixtureFiles_eq, List.forall₂_map_left_iff] at hload
    rw [List.forall₂_map_left_iff]
    refine ((List.forall₂_and_left _ _).mpr
      ⟨fun f hf => h.mem_placedFixtures_iff.mp hf, hload⟩).imp ?_
    rintro f entry ⟨hholds, hkey, content, htext, hread⟩
    exact ⟨hkey.symm, content, htext ▸ hholds, hread⟩

/-- Listed in another order, a tree has the same fixtures under the same keys; only fixtures with
one key may have changed places. -/
theorem Relists.exists_loadFixtures (hu : t.Relists u) {fixtures : List (String × Fixture)}
    (h : t.loadFixtures reader = .ok fixtures) :
    ∃ relisted, u.loadFixtures reader = .ok relisted ∧ relisted.Perm fixtures ∧
      relisted.map Prod.fst = fixtures.map Prod.fst := by
  obtain ⟨relisted, hrelisted, hperm⟩ := exists_mapM_of_perm hu.perm_fixtureFiles h
  refine ⟨relisted, hrelisted, hperm, ?_⟩
  exact (hperm.map Prod.fst).eq_of_pairwise (fun _ _ _ _ => String.le_antisymm)
    (pairwise_le_of_loadFixtures hrelisted) (pairwise_le_of_loadFixtures h)

end Reading

/-! ### Reading as the folders are listed -/

section Collecting

variable {reader : TextReader}

mutual

/-- Reads the fixtures of a file or folder with a name as they are listed, behind those that have
been found. -/
def collectAt (reader : TextReader) (path : List UInt8) (name : FileName)
    (found : List (String × Fixture)) : FileTree → Except SuiteError (List (String × Fixture))
  | .file text =>
      if isFixtureName name then
        let key := Text.shown (path ++ name)
        (Fixture.load reader key text).map fun f => found ++ [(key, f)]
      else .ok found
  | .folder es => collectAmong reader (path ++ name ++ Text.bytes "/") found es

/-- The same for the entries of the folder at a path. -/
def collectAmong (reader : TextReader) (path : List UInt8) (found : List (String × Fixture)) :
    List (FileName × FileTree) → Except SuiteError (List (String × Fixture))
  | [] => .ok found
  | (name, t) :: es =>
      (collectAt reader path name found t).bind fun found => collectAmong reader path found es

end

/-- Reads the fixtures below a folder as they are listed, and then puts them in order. -/
def collectFixtures (reader : TextReader) (t : FileTree) :
    Except SuiteError (List (String × Fixture)) :=
  (collectAmong reader [] [] t.entries).map (·.mergeSort fun a b => a.1 ≤ b.1)

/-- If the fixtures of each entry are read in the order of listing, those of all entries are. -/
theorem collectAmong_eq_of_forall {es : List (FileName × FileTree)}
    (h : ∀ e ∈ es, ∀ path found, e.2.collectAt reader path e.1 found =
      ((e.2.fixtureFilesAt path e.1).mapM (loadEntry reader)).map (found ++ ·))
    (path : List UInt8) (found : List (String × Fixture)) :
    collectAmong reader path found es =
      ((fixtureFilesAmong path es).mapM (loadEntry reader)).map (found ++ ·) := by
  induction es generalizing found with
  | nil => simp [collectAmong, fixtureFilesAmong, pure, Except.pure, Except.map]
  | cons e es ih =>
      obtain ⟨he, hes⟩ := List.forall_mem_cons.mp h
      rw [collectAmong, fixtureFilesAmong, he, List.mapM_append]
      cases (e.2.fixtureFilesAt path e.1).mapM (loadEntry reader) with
      | error e => rfl
      | ok first =>
          have hrest := ih hes (found ++ first)
          cases hothers : (fixtureFilesAmong path es).mapM (loadEntry reader) <;>
            simpa [hothers, Except.map, Except.bind, bind, pure, Except.pure] using hrest

/-- Collecting goes through the fixtures in the order of listing. -/
theorem collectAt_eq (t : FileTree) (path : List UInt8) (name : FileName)
    (found : List (String × Fixture)) :
    t.collectAt reader path name found =
      ((t.fixtureFilesAt path name).mapM (loadEntry reader)).map (found ++ ·) := by
  induction t using inductionOnEntries generalizing path name found with
  | file text =>
      by_cases hname : isFixtureName name
      · rw [collectAt, fixtureFilesAt, if_pos hname, if_pos hname, mapM_cons_eq_bind, loadEntry]
        dsimp only
        cases Fixture.load reader (Text.shown (path ++ name)) text <;> rfl
      · simp [collectAt, fixtureFilesAt, hname, pure, Except.pure, Except.map]
  | folder es ih =>
      rw [collectAt, fixtureFilesAt]
      exact collectAmong_eq_of_forall (fun e he path found => ih e he path e.1 found) _ _

/-- Where all fixtures can be read, they may be read as they are listed. -/
theorem collectFixtures_of_loadFixtures {fixtures : List (String × Fixture)}
    (h : t.loadFixtures reader = .ok fixtures) : t.collectFixtures reader = .ok fixtures := by
  have hall := exists_mapM_iff.mp ⟨fixtures, h⟩
  simp only [fixtureFiles, List.mem_mergeSort] at hall
  obtain ⟨found, hfound⟩ :
      ∃ found, (fixtureFilesAmong [] t.entries).mapM (loadEntry reader) = .ok found :=
    exists_mapM_iff.mpr hall
  have horder : ∀ file file' entry entry', loadEntry reader file = .ok entry →
      loadEntry reader file' = .ok entry' →
      decide (file.1 ≤ file'.1) = decide (entry.1 ≤ entry'.1) := by
    intro file file' entry entry' hload hload'
    rw [(loadEntry_eq_ok_iff.mp hload).1, (loadEntry_eq_ok_iff.mp hload').1]
  rw [loadFixtures_eq_mapM, fixtureFiles, mapM_mergeSort horder hfound] at h
  rw [collectFixtures,
    collectAmong_eq_of_forall fun e _ path found => collectAt_eq e.2 path e.1 found, hfound]
  exact h

end Collecting

/-! ### Fixtures that are shown apart -/

/-- Fixtures at different places are shown under different keys. -/
def ShownApart (t : FileTree) : Prop :=
  ∀ place place' text text', t.HoldsFixture place text → t.HoldsFixture place' text' →
    Text.shown (pathOf place) = Text.shown (pathOf place') → place = place'

/-- The names on the way to each fixture, and its own, are texts without a slash. -/
def NamedByTexts (t : FileTree) : Prop :=
  ∀ place text, t.HoldsFixture place text →
    ∃ names : List String, (∀ name ∈ names, '/' ∉ name.toList) ∧ place = names.map Text.bytes

/-- A fixture has a name. -/
theorem HoldsFixture.place_ne_nil {place : List FileName} {text : Option String}
    (h : t.HoldsFixture place text) : place ≠ [] := by
  obtain ⟨_, name, hname, _⟩ := h
  exact List.ne_nil_of_mem (List.mem_of_getLast? hname)

/-- **Texts tell places apart.**  Names that are texts without a slash are found again in the text
that shows their path. -/
theorem NamedByTexts.shownApart (h : t.NamedByTexts) : t.ShownApart := by
  intro place place' text text' hholds hholds' hkey
  obtain ⟨names, hnames, rfl⟩ := h place text hholds
  obtain ⟨names', hnames', rfl⟩ := h place' text' hholds'
  rw [shown_pathOf_bytes, shown_pathOf_bytes, ← String.toList_inj, String.toList_intercalate,
    String.toList_intercalate] at hkey
  have hne := hholds.place_ne_nil
  have hne' := hholds'.place_ne_nil
  have hparts := (Text.intercalate_inj (by simpa using hne) (by simpa using hne')
    (List.forall_mem_map.mpr hnames) (List.forall_mem_map.mpr hnames')).mp hkey
  exact congrArg (List.map Text.bytes)
    (List.map_injective_iff.mpr (fun _ _ => String.toList_inj.mp) hparts)

/-- Rising keys rise strictly exactly when the places are shown apart. -/
theorem shownApart_iff_pairwise_lt {places : List (List FileName)} (hplaces : places.Nodup)
    (hholds : ∀ place, place ∈ places ↔ ∃ text, t.HoldsFixture place text)
    {fixtures : List (String × Fixture)}
    (hkeys : fixtures.map Prod.fst = places.map fun place => Text.shown (pathOf place))
    (hle : fixtures.Pairwise fun a b => a.1 ≤ b.1) :
    t.ShownApart ↔ fixtures.Pairwise fun a b => a.1 < b.1 := by
  have hapart : t.ShownApart ↔ (fixtures.map Prod.fst).Nodup := by
    rw [hkeys, List.nodup_map_iff_inj_on hplaces]
    simp only [hholds]
    constructor
    · rintro h place ⟨text, hplace⟩ place' ⟨text', hplace'⟩ hkey
      exact h place place' text text' hplace hplace' hkey
    · intro h place place' text text' hplace hplace' hkey
      exact h place ⟨text, hplace⟩ place' ⟨text', hplace'⟩ hkey
  rw [hapart, List.Nodup, List.pairwise_map]
  constructor
  · intro hne
    exact (hle.and hne).imp fun ⟨hle, hne⟩ =>
      String.not_le.mp fun hge => hne (String.le_antisymm hle hge)
  · intro hlt
    exact hlt.imp String.ne_of_lt

/-- Where the keys rise strictly, the same fixtures under the same keys are the same row. -/
theorem eq_of_perm_of_pairwise_lt {fixtures relisted : List (String × Fixture)}
    (hperm : relisted.Perm fixtures) (hkeys : relisted.map Prod.fst = fixtures.map Prod.fst)
    (hlt : fixtures.Pairwise fun a b => a.1 < b.1) : relisted = fixtures := by
  have hrelisted : relisted.Pairwise fun a b => a.1 < b.1 := by
    rw [← List.pairwise_map, hkeys, List.pairwise_map]
    exact hlt
  exact hperm.eq_of_pairwise (fun _ _ _ _ hab hba => absurd hba (String.lt_asymm hab)) hrelisted hlt

/-- **Every fixture is found once, however the folders are listed.**  Let every folder list an entry
once, and let every fixture below a folder be readable.  Then the fixtures are read to a row in
rising order of the keys.  It has one entry for each file, at any depth, whose name has the
extension of fixtures and is not that of a ledger, and no other entry: the text that shows the path
of the file, and the fixture in it.

For every order in which the folders are listed, and whether the fixtures are put in order before
they are read or afterwards, the same fixtures are read under the same keys, and the row is the same
if the fixtures are shown apart.  They are so exactly when the keys rise strictly, and always if the
names are texts without a slash, whose paths are the keys. -/
theorem loadFixtures_finds_each_once {reader : TextReader} {t : FileTree} (hlisted : t.Listed)
    (hloads : ∀ place text, t.HoldsFixture place text →
      ∃ content, ∃ f : Fixture, text = some content ∧ reader.decode content = .ok f) :
    ∃ fixtures, t.loadFixtures reader = .ok fixtures ∧
      fixtures.Pairwise (fun a b => a.1 ≤ b.1) ∧
      (∃ places : List (List FileName), places.Nodup ∧
        (∀ place, place ∈ places ↔ ∃ text, t.HoldsFixture place text) ∧
        List.Forall₂ (fun place (entry : String × Fixture) =>
          entry.1 = Text.shown (pathOf place) ∧
          ∃ content, t.HoldsFixture place (some content) ∧ reader.decode content = .ok entry.2)
          places fixtures) ∧
      (∀ u, t.Relists u → ∃ relisted, u.loadFixtures reader = .ok relisted ∧
        u.collectFixtures reader = .ok relisted ∧ relisted.Perm fixtures ∧
        relisted.map Prod.fst = fixtures.map Prod.fst ∧ (t.ShownApart → relisted = fixtures)) ∧
      (t.ShownApart ↔ fixtures.Pairwise fun a b => a.1 < b.1) ∧
      (t.NamedByTexts → t.ShownApart) ∧
      ∀ names : List String,
        Text.shown (pathOf (names.map Text.bytes)) = "/".intercalate names := by
  obtain ⟨fixtures, hload⟩ : ∃ fixtures, t.loadFixtures reader = .ok fixtures :=
    exists_loadFixtures_iff.mpr fun f hf =>
      hloads f.place f.text (hlisted.mem_placedFixtures_iff.mp hf)
  have hle := List.pairwise_map.mp (pairwise_le_of_loadFixtures hload)
  obtain ⟨places, hnodup, hholds, hpaired⟩ := hlisted.exists_places hload
  have hkeys : fixtures.map Prod.fst = places.map fun place => Text.shown (pathOf place) := by
    rw [← List.forall₂_eq_eq_eq, List.forall₂_map_left_iff, List.forall₂_map_right_iff]
    exact hpaired.flip.imp fun _ _ hentry => hentry.1
  have hapart := shownApart_iff_pairwise_lt hnodup hholds hkeys hle
  refine ⟨fixtures, hload, hle, ⟨places, hnodup, hholds, hpaired⟩, fun u hu => ?_, hapart,
    NamedByTexts.shownApart, shown_pathOf_bytes⟩
  obtain ⟨relisted, hrelisted, hperm, hsame⟩ := hu.exists_loadFixtures hload
  exact ⟨relisted, hrelisted, collectFixtures_of_loadFixtures hrelisted, hperm, hsame,
    fun h => eq_of_perm_of_pairwise_lt hperm hsame (hapart.mp h)⟩

/-- A folder is gone into though its name ends as those of fixtures do; a name that is nothing but
the ending, and a ledger inside, are passed over.  A name that is no text is shown apart from the
others here, so the folders listed backwards give the same row. -/
theorem loadFixtures_finds_each_once_in_nested_folders :
    let text := fun title : String => some ("title=\"" ++ title ++ "\"\ndocument.id=\"\"")
    let inner : List (FileName × FileTree) := [(Text.bytes "a.toml", .file (text "2")),
      (Text.bytes ".toml", .file none), (Text.bytes ledgerName, .file none)]
    let outer := fun inner : List (FileName × FileTree) => [
      (Text.bytes "b.toml", FileTree.file (text "1")), (Text.bytes "x.toml", .folder inner),
      (Text.bytes "notes.txt", .file none), (0xFF :: Text.bytes ".toml", .file (text "3"))]
    let t : FileTree := .folder (outer inner)
    let u : FileTree := .folder (outer inner.reverse).reverse
    t.Listed ∧ t.Relists u ∧ t.ShownApart ∧ ∃ fixtures, t.loadFixtures Toml.reader = .ok fixtures ∧
      fixtures.map (fun entry => (entry.1, entry.2.title)) = [("b.toml", some "1"),
        ("x.toml/a.toml", some "2"), ("\uFFFD.toml", some "3")] ∧
      u.loadFixtures Toml.reader = .ok fixtures ∧ u.collectFixtures Toml.reader = .ok fixtures := by
  intro text inner outer t u
  have hinner : Listed (.folder inner) := .folder (by decide) (by simp [inner, Listed.file])
  have hlisted : t.Listed := .folder (by decide) (by simp [outer, hinner, Listed.file])
  have hrelists : t.Relists u := by
    have hreversed : Relists (.folder inner) (.folder inner.reverse) :=
      .of_perm (fun e _ => .refl e.2) inner.reverse_perm
    let pairs : List (FileName × FileTree × FileTree) := [
      (Text.bytes "b.toml", .file (text "1"), .file (text "1")),
      (Text.bytes "x.toml", .folder inner, .folder inner.reverse),
      (Text.bytes "notes.txt", .file none, .file none),
      (0xFF :: Text.bytes ".toml", .file (text "3"), .file (text "3"))]
    have hpairs : ∀ p ∈ pairs, p.2.1.Relists p.2.2 := by simp [pairs, hreversed, Relists.file]
    exact .folder pairs hpairs (.refl _) (outer inner.reverse).reverse_perm
  have hamong : fixtureFilesAmong [] t.entries = [("b.toml", text "1"),
      ("x.toml/a.toml", text "2"), ("\uFFFD.toml", text "3")] := by decide +kernel
  have hshown : (t.loadFixtures Toml.reader).toOption.map
      (·.map fun entry => (entry.1, entry.2.title)) = some [("b.toml", some "1"),
        ("x.toml/a.toml", some "2"), ("\uFFFD.toml", some "3")] := by
    rw [loadFixtures_of_pairwise hamong (by decide)]
    decide +kernel
  obtain ⟨rows, hload, hrows⟩ := toOption_map_eq_some_iff.mp hshown
  obtain ⟨fixtures, hfixtures, _, _, horder, hapart, _⟩ :=
    loadFixtures_finds_each_once hlisted fun place text hholds =>
      exists_loadFixtures_iff.mp ⟨rows, hload⟩ ⟨place, text⟩
        (hlisted.mem_placedFixtures_iff.mpr hholds)
  obtain rfl := Except.ok.inj (hload.symm.trans hfixtures)
  have hlt : (rows.map fun entry => (entry.1, entry.2.title)).Pairwise fun a b => a.1 < b.1 := by
    rw [hrows]
    decide
  have hrising := List.pairwise_map.mp hlt
  have hshownApart : t.ShownApart := hapart.mpr hrising
  obtain ⟨relisted, hrelisted, hcollected, _, _, hsame⟩ := horder u hrelists
  obtain rfl := hsame hshownApart
  exact ⟨hlisted, hrelists, hshownApart, relisted, hload, hrows, hrelisted, hcollected⟩

/-- Names that are no texts can be shown alike: the two fixtures of this folder have one key, and
the order in which the folder lists them is left.  Nor do the keys rise as the paths do name by
name: a dot comes before the slash behind a shorter name. -/
theorem loadFixtures_keeps_order_of_names_shown_alike :
    let text := fun title : String => some ("title=\"" ++ title ++ "\"\ndocument.id=\"\"")
    let first : FileName × FileTree := (0xFF :: Text.bytes ".toml", .file (text "1"))
    let second : FileName × FileTree := (0xFE :: Text.bytes ".toml", .file (text "2"))
    let deep : FileTree := .folder [(Text.bytes "a.toml", .file (text "1")),
      (Text.bytes "a", .folder [(Text.bytes "b.toml", .file (text "2"))])]
    let titles := fun t : FileTree => (t.loadFixtures Toml.reader).toOption.map
      (·.map fun entry => (entry.1, entry.2.title))
    Listed (.folder [first, second]) ∧ Relists (.folder [first, second]) (.folder [second, first]) ∧
      titles (.folder [first, second]) =
        some [("\uFFFD.toml", some "1"), ("\uFFFD.toml", some "2")] ∧
      titles (.folder [second, first]) =
        some [("\uFFFD.toml", some "2"), ("\uFFFD.toml", some "1")] ∧
      deep.Listed ∧ titles deep = some [("a.toml", some "1"), ("a/b.toml", some "2")] ∧
      [Text.bytes "a", Text.bytes "b.toml"] < [Text.bytes "a.toml"] := by
  intro text first second deep titles
  have hamong : fixtureFilesAmong [] [first, second] =
      [("\uFFFD.toml", text "1"), ("\uFFFD.toml", text "2")] := by decide +kernel
  have hturned : fixtureFilesAmong [] [second, first] =
      [("\uFFFD.toml", text "2"), ("\uFFFD.toml", text "1")] := by decide +kernel
  have hdeep : fixtureFilesAmong [] deep.entries =
      [("a.toml", text "1"), ("a/b.toml", text "2")] := by decide +kernel
  have hb : Listed (.folder [(Text.bytes "b.toml", .file (text "2"))]) :=
    .folder (by decide) (by simp [Listed.file])
  refine ⟨.folder (by decide) (by simp [first, second, Listed.file]),
    .of_perm (fun e _ => .refl e.2) (.swap _ _ _), ?_, ?_,
    .folder (by decide) (by simp [hb, Listed.file]), ?_, by decide⟩
  · simp only [titles, loadFixtures_of_pairwise (t := .folder [first, second]) hamong (by decide)]
    decide +kernel
  · simp only [titles, loadFixtures_of_pairwise (t := .folder [second, first]) hturned (by decide)]
    decide +kernel
  · simp only [titles, loadFixtures_of_pairwise hdeep (by decide)]
    decide +kernel

end FileTree

end MentionAlign
