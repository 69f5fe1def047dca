import MentionAlign.Proofs.Data.Traversal
import MentionAlign.Suite.Run

/-!
# Reading the files of a folder

A ledger and a fixture are each read of one file, by whatever makes values of texts.  The fixtures
of a folder are read file by file in rising order of their keys, and each one keeps the key of its
file (`FileTree.loadFixtures_eq_ok_iff`).
-/

namespace MentionAlign

variable {reader : TextReader}

/-- Without a file the ledger is empty; what stands at its place otherwise has to be a file whose
text is read to the ledger. -/
theorem Ledger.load_eq_ok_iff {path : String} {found : Option FileTree} {ledger : Ledger} :
    load reader path found = .ok ledger ↔ found = none ∧ ledger = {} ∨
      ∃ content, found = some (.file (some content)) ∧ reader.decode content = .ok ledger := by
  rcases found with _ | ⟨_ | content⟩ | es
  · simp [load, eq_comm]
  · simp [load]
  · simp [load, mapError_eq_ok_iff]
  · simp [load]

/-- A file is read to a fixture if it has a text and the text is read to that fixture. -/
theorem Fixture.load_eq_ok_iff {path : String} {text : Option String} {f : Fixture} :
    load reader path text = .ok f ↔
      ∃ content, text = some content ∧ reader.decode content = .ok f := by
  cases text with
  | none => simp [load]
  | some content => simp [load, mapError_eq_ok_iff]

namespace FileTree

variable {t : FileTree} {fixtures : List (String × Fixture)}

/-- The files of fixtures stand in rising order of their keys. -/
theorem pairwise_fixtureFiles (t : FileTree) :
    (t.fixtureFiles.map Prod.fst).Pairwise (· ≤ ·) := by
  have hsorted : t.fixtureFiles.Pairwise fun a b => decide (a.1 ≤ b.1) = true := by
    refine List.pairwise_mergeSort (fun a b c hab hbc => ?_) (fun a b => ?_) _
    · simp only [decide_eq_true_eq] at hab hbc ⊢
      exact String.le_trans hab hbc
    · simpa using String.le_total a.1 b.1
  exact List.pairwise_map.mpr (hsorted.imp of_decide_eq_true)

/-- Reads the fixture in a file and keeps its key. -/
def loadEntry (reader : TextReader) (file : String × Option String) :
    Except SuiteError (String × Fixture) :=
  (Fixture.load reader file.1 file.2).map (file.1, ·)

/-- What is read of a file is its key and the fixture that its text is read to. -/
theorem loadEntry_eq_ok_iff {file : String × Option String} {entry : String × Fixture} :
    loadEntry reader file = .ok entry ↔ file.1 = entry.1 ∧
      ∃ content, file.2 = some content ∧ reader.decode content = .ok entry.2 := by
  rw [loadEntry, map_eq_ok_iff]
  simp only [Fixture.load_eq_ok_iff]
  constructor
  · rintro ⟨f, hload, rfl⟩
    exact ⟨rfl, hload⟩
  · rintro ⟨hkey, hload⟩
    exact ⟨entry.2, hload, Prod.ext hkey rfl⟩

theorem loadFixtures_eq_mapM (reader : TextReader) (t : FileTree) :
    t.loadFixtures reader = t.fixtureFiles.mapM (loadEntry reader) := rfl

/-- **The fixtures of a folder are read file by file**, each with the key of its file. -/
theorem loadFixtures_eq_ok_iff : t.loadFixtures reader = .ok fixtures ↔
    List.Forall₂ (fun file entry => file.1 = entry.1 ∧
      ∃ content, file.2 = some content ∧ reader.decode content = .ok entry.2)
      t.fixtureFiles fixtures := by
  simp only [loadFixtures_eq_mapM, mapM_eq_ok_iff_forall₂, loadEntry_eq_ok_iff]

/-- The keys of what is read rise. -/
theorem pairwise_le_of_loadFixtures (h : t.loadFixtures reader = .ok fixtures) :
    (fixtures.map Prod.fst).Pairwise (· ≤ ·) := by
  have hkeys : t.fixtureFiles.map Prod.fst = fixtures.map Prod.fst := by
    rw [← List.forall₂_eq_eq_eq, List.forall₂_map_left_iff, List.forall₂_map_right_iff]
    exact (loadFixtures_eq_ok_iff.mp h).imp fun _ _ hentry => hentry.1
  exact hkeys ▸ t.pairwise_fixtureFiles

end FileTree

end MentionAlign
