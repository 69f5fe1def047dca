import MentionAlign.Proofs.Cascade.Rank
import MentionAlign.Proofs.Gold.Reading
import Mathlib.Data.List.Pairwise

/-!
# Scoring units and their names

A record is scored as the cluster that it names or, where it names none, by itself: this is its
`ScoringUnit`.  Of the unit only the name is left in a scoring identifier, and a cluster and a record
may have the same name.  So identifiers tell the units of a list of records apart exactly when no
cluster is named like a record that is a unit by itself (`NamesApart`).

The consequence is drawn for alignment: between such records an ambiguity is reported exactly when
the winning strategy matches mentions of different units.  Where a cluster takes the name of a
filler, an ambiguity between the two goes unreported (`scoringId_clash_hides_ambiguity`).
-/

namespace MentionAlign

/-- What a record is scored as. -/
inductive ScoringUnit
  /-- All mentions of one entity. -/
  | cluster (name : String)
  /-- A record on its own. -/
  | itself (id : String)
deriving DecidableEq, Repr

/-- The name of a unit, which does not tell what it is a name of. -/
def ScoringUnit.name : ScoringUnit → String
  | .cluster name => name
  | .itself id => id

namespace RawMention

/-- The cluster that an entity record names.  A filler belongs to none, whatever it names. -/
def cluster? (raw : RawMention) : Option String := if raw.kind = "entity" then raw.entity else none

/-- The unit that a record is scored as. -/
def unit (raw : RawMention) : ScoringUnit :=
  match raw.cluster? with
  | some cluster => .cluster cluster
  | none => .itself raw.id

/-- Different records are one unit exactly when they name the same cluster. -/
theorem unit_eq_iff_of_id_ne {r s : RawMention} (h : r.id ≠ s.id) :
    r.unit = s.unit ↔ ∃ cluster, r.cluster? = some cluster ∧ s.cluster? = some cluster := by
  unfold unit
  cases r.cluster? <;> cases s.cluster? <;> simp [h, eq_comm]

end RawMention

/-- The scoring identifier of a mention is the name of the unit that its record is scored as. -/
theorem GoldMention.scoringId_of_ofRaw {raw : RawMention} {m : GoldMention}
    (h : ofRaw raw = .ok m) : m.scoringId = ⟨raw.unit.name⟩ := by
  unfold ofRaw at h
  unfold RawMention.unit RawMention.cluster?
  split at h
  · next hentity =>
      obtain rfl := Except.ok.inj h
      simp only [hentity, if_true]
      cases raw.entity <;> rfl
  · next hentity =>
      split at h
      · obtain rfl := Except.ok.inj h
        simp only [hentity, if_false]
        rfl
      · exact absurd h (by simp)

/-- No cluster is named like a record that is a unit by itself. -/
def NamesApart (raw : List RawMention) : Prop :=
  ∀ r ∈ raw, ∀ s ∈ raw, r.cluster? = some s.id → s.cluster? ≠ none

/-- Names that are apart tell units apart. -/
theorem NamesApart.name_inj {raw : List RawMention} (h : NamesApart raw) {r s : RawMention}
    (hr : r ∈ raw) (hs : s ∈ raw) : r.unit.name = s.unit.name ↔ r.unit = s.unit := by
  refine ⟨fun hname => ?_, congrArg ScoringUnit.name⟩
  have hforth := h r hr s hs
  have hback := h s hs r hr
  unfold RawMention.unit at hname ⊢
  cases hrc : r.cluster? <;> cases hsc : s.cluster? <;>
    simp_all [ScoringUnit.name]

/-- Two records are read as mentions with one scoring identifier only if both name one cluster. -/
def RawMention.Separate (r s : RawMention) : Prop :=
  ∀ m n, GoldMention.ofRaw r = .ok m → GoldMention.ofRaw s = .ok n → m.scoringId = n.scoringId →
    ∃ cluster, r.cluster? = some cluster ∧ s.cluster? = some cluster

instance : Std.Symm RawMention.Separate where
  symm _ _ h m n hm hn hsame := by
    obtain ⟨cluster, hr, hs⟩ := h n m hn hm hsame.symm
    exact ⟨cluster, hs, hr⟩

section Inventories

variable {raw : List RawMention} {inventory : Inventory} {r s : RawMention} {m n : GoldMention}

/-- The mentions of an inventory are what its records are read as. -/
theorem mem_mentions_iff (hread : Inventory.ofRaw raw = .ok inventory) :
    m ∈ inventory.mentions ↔ ∃ r ∈ raw, GoldMention.ofRaw r = .ok m := by
  have hitems := mapM_eq_ok_iff.mp (Inventory.ofRaw_eq_ok_iff.mp hread)
  rw [← List.mem_map, hitems, List.mem_map]
  simp

/-- Each record of an inventory is read as a mention. -/
theorem exists_ofRaw_of_mem (hread : Inventory.ofRaw raw = .ok inventory) (hr : r ∈ raw) :
    ∃ m, GoldMention.ofRaw r = .ok m := by
  have hitems := mapM_eq_ok_iff.mp (Inventory.ofRaw_eq_ok_iff.mp hread)
  have hmem : GoldMention.ofRaw r ∈ inventory.mentions.map .ok := hitems ▸ List.mem_map_of_mem hr
  obtain ⟨m, _, hm⟩ := List.mem_map.mp hmem
  exact ⟨m, hm.symm⟩

/-- Identifiers are the same exactly when the names of the units are. -/
theorem scoringId_eq_iff_name (hm : GoldMention.ofRaw r = .ok m)
    (hn : GoldMention.ofRaw s = .ok n) : m.scoringId = n.scoringId ↔ r.unit.name = s.unit.name := by
  rw [GoldMention.scoringId_of_ofRaw hm, GoldMention.scoringId_of_ofRaw hn, ScoringId.mk.injEq]

/-- Names that are apart separate the units of any two records. -/
theorem NamesApart.pairwise_separate (h : NamesApart raw)
    (hids : (raw.map RawMention.id).Nodup) : raw.Pairwise RawMention.Separate := by
  have hdiffer : raw.Pairwise fun r s => r.id ≠ s.id := List.pairwise_map.mp hids
  refine hdiffer.imp_of_mem ?_
  intro r s hr hs hne m n hm hn hsame
  have hname := (scoringId_eq_iff_name hm hn).mp hsame
  exact (RawMention.unit_eq_iff_of_id_ne hne).mp ((h.name_inj hr hs).mp hname)

/-- A cluster and a record of its name that is a unit by itself are not separated. -/
theorem namesApart_of_pairwise_separate (hread : Inventory.ofRaw raw = .ok inventory)
    (h : raw.Pairwise RawMention.Separate) : NamesApart raw := by
  intro r hr s hs hcluster halone
  obtain ⟨m, hm⟩ := exists_ofRaw_of_mem hread hr
  obtain ⟨n, hn⟩ := exists_ofRaw_of_mem hread hs
  have hname : r.unit.name = s.unit.name := by
    simp [RawMention.unit, hcluster, halone, ScoringUnit.name]
  have hne : r ≠ s := by
    rintro rfl
    exact absurd (hcluster.symm.trans halone) (by simp)
  have hsame := (scoringId_eq_iff_name hm hn).mpr hname
  obtain ⟨cluster, _, hshared⟩ := h.forall hr hs hne m n hm hn hsame
  exact absurd (hshared.symm.trans halone) (by simp)

/-- Between records whose names are apart, the mentions that a strategy matches have different
identifiers exactly when they are of different units. -/
theorem NamesApart.exists_scoringId_ne_iff (h : NamesApart raw)
    (hread : Inventory.ofRaw raw = .ok inventory) {found : List GoldMention}
    (hfound : ∀ m ∈ found, m ∈ inventory.mentions) :
    (∃ m ∈ found, ∃ n ∈ found, m.scoringId ≠ n.scoringId) ↔
      ∃ r ∈ raw, ∃ s ∈ raw, r.unit ≠ s.unit ∧ ∃ m ∈ found, ∃ n ∈ found,
        GoldMention.ofRaw r = .ok m ∧ GoldMention.ofRaw s = .ok n := by
  constructor
  · intro hdiffer
    obtain ⟨m, hm, n, hn, hne⟩ := hdiffer
    obtain ⟨r, hr, hrm⟩ := (mem_mentions_iff hread).mp (hfound m hm)
    obtain ⟨s, hs, hsn⟩ := (mem_mentions_iff hread).mp (hfound n hn)
    have hunits : r.unit ≠ s.unit := fun hunit =>
      hne ((scoringId_eq_iff_name hrm hsn).mpr (congrArg ScoringUnit.name hunit))
    exact ⟨r, hr, s, hs, hunits, m, hm, n, hn, hrm, hsn⟩
  · intro hdiffer
    obtain ⟨r, hr, s, hs, hunits, m, hm, n, hn, hrm, hsn⟩ := hdiffer
    refine ⟨m, hm, n, hn, fun hsame => ?_⟩
    exact hunits ((h.name_inj hr hs).mp ((scoringId_eq_iff_name hrm hsn).mp hsame))

end Inventories

/-- **When identifiers separate units.**  Let records with different identifiers be read.  Any two of
their mentions share a scoring identifier only as entity mentions of one named cluster, exactly if no
cluster is named like a record that is a unit by itself.  In that case a match is ambiguous exactly
when its strategy matches mentions of different units. -/
theorem pairwise_separate_iff_namesApart (raw : List RawMention) (inventory : Inventory)
    (hids : (raw.map RawMention.id).Nodup) (hread : Inventory.ofRaw raw = .ok inventory) :
    (raw.Pairwise RawMention.Separate ↔ NamesApart raw) ∧
    (NamesApart raw → ∀ config oracle roles response aligned,
      let aligner := DocumentAligner.ofConfig config inventory oracle roles
      aligner.align response = .matched aligned →
        ∃ winner, config.strategies[aligned.strategy]? = some winner ∧
          let found := aligner.matching response winner
          (aligned.ambiguity.isSome ↔
            ∃ r ∈ raw, ∃ s ∈ raw, r.unit ≠ s.unit ∧ ∃ m ∈ found, ∃ n ∈ found,
              GoldMention.ofRaw r = .ok m ∧ GoldMention.ofRaw s = .ok n)) := by
  refine ⟨⟨namesApart_of_pairwise_separate hread, (·.pairwise_separate hids)⟩, ?_⟩
  intro hapart config oracle roles response aligned aligner halign
  have hindexed := DocumentAligner.indexed_ofConfig config inventory oracle roles
  obtain ⟨winner, hwinner, _, hverdict⟩ := hindexed.align_eq_matched_iff.mp halign
  refine ⟨winner, hwinner, ?_⟩
  have hambiguity := Strategy.ambiguity_isSome_iff hverdict
  rw [hambiguity]
  exact hapart.exists_scoringId_ne_iff hread fun m hm => (List.mem_filter.mp hm).1

/-- A filler and two mentions of a cluster with a name of its own: the match is ambiguous because of
the filler, and would not be without it. -/
theorem pairwise_separate_time_and_cluster :
    let extent : Span := { start := 30, stop := 31 }
    let filler : RawMention := { id := "x", kind := "filler", extent, role := "Place" }
    let entity := fun id : String =>
      ({ id, kind := "entity", entity := some "E1", extent, role := "Place" } : RawMention)
    let raw := [filler, entity "a", entity "b"]
    let response : Response :=
      { docId := "d", eventType := "E", role := "Place",
        argument := { text := "", span := extent } }
    (raw.map RawMention.id).Nodup ∧ raw.Pairwise RawMention.Separate ∧
    ∃ inventory aligned, Inventory.ofRaw raw = .ok inventory ∧
      (DocumentAligner.ofConfig .standard inventory none .identity).align response =
        .matched aligned ∧
      aligned.ambiguity.isSome := by
  intro extent filler entity raw response
  have hids : (raw.map RawMention.id).Nodup := by decide
  have hapart : NamesApart raw := by
    simp [NamesApart, raw, filler, entity, RawMention.cluster?]
  let time := GoldMention.filler { id := ⟨"x"⟩, extent, role := "Place" }
  let mention := fun id : String =>
    GoldMention.entity { id := ⟨id⟩, entity := "E1", extent, role := "Place" }
  let inventory : Inventory := { mentions := [time, mention "a", mention "b"] }
  have hread : Inventory.ofRaw raw = .ok inventory := rfl
  have hmatched : (DocumentAligner.ofConfig .standard inventory none .identity).align response =
      .matched { mention := ⟨"x"⟩, scoringId := ⟨"x"⟩, strategy := 0,
                 ambiguity := Ambiguity.among response.uniqueId inventory.mentions } := by
    decide +kernel
  obtain ⟨hseparate, hambiguous⟩ := pairwise_separate_iff_namesApart raw inventory hids hread
  obtain ⟨winner, hwinner, hunits⟩ := hambiguous hapart .standard none .identity response _ hmatched
  obtain rfl := Option.some.inj hwinner
  refine ⟨hids, hseparate.mpr hapart, inventory, _, hread, hmatched, hunits.mpr ?_⟩
  refine ⟨filler, by simp [raw], entity "a", by simp [raw], by decide, time, ?_, mention "a", ?_,
    rfl, rfl⟩
  · exact List.mem_cons_self
  · exact List.mem_cons_of_mem _ List.mem_cons_self

/-- A cluster with the name of a filler: the two records are units of their own with different
identifiers, and both of them match, but they share a scoring identifier and no ambiguity is
reported. -/
theorem scoringId_clash_hides_ambiguity :
    let extent : Span := { start := 30, stop := 31 }
    let filler : RawMention := { id := "x", kind := "filler", extent, role := "Place" }
    let entity : RawMention :=
      { id := "m", kind := "entity", entity := some "x", extent, role := "Place" }
    let response : Response :=
      { docId := "d", eventType := "E", role := "Place",
        argument := { text := "he", span := extent } }
    filler.id ≠ entity.id ∧ filler.unit ≠ entity.unit ∧ ¬ filler.Separate entity ∧
    ∃ inventory, Inventory.ofRaw [filler, entity] = .ok inventory ∧
      let aligner := DocumentAligner.ofConfig .standard inventory none .identity
      aligner.align response =
        .matched { mention := ⟨"x"⟩, scoringId := ⟨"x"⟩, strategy := 0, ambiguity := none } ∧
      ∀ winner, Config.standard.strategies[0]? = some winner →
        aligner.matching response winner = inventory.mentions := by
  intro extent filler entity response
  have hclash : ¬ filler.Separate entity := by
    intro h
    obtain ⟨cluster, hfiller, _⟩ := h _ _ rfl rfl rfl
    exact absurd hfiller (by simp [filler, RawMention.cluster?])
  refine ⟨by decide, by decide, hclash, _, rfl, ?_, ?_⟩
  · decide +kernel
  · intro winner hwinner
    obtain rfl := Option.some.inj hwinner
    rfl

end MentionAlign
