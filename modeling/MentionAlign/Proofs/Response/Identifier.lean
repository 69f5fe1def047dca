import MentionAlign.Proofs.Span.Format
import MentionAlign.Proofs.Text.Joining
import MentionAlign.Response.Basic

/-!
# Identifiers of responses

The identifier of a response joins six parts with slashes.  No slash stands in the last three, the
two spans and the realis, so these are found again from the end of the identifier.  The first three,
the document, the event type and the role, are free texts, and of them only the text is found again
that they make up when joined (`Response.path`).

`uniqueId_eq_iff_up_to_slashes` says so for two responses.  Where the free texts have no slashes
either, an identifier tells all six parts.
-/

namespace MentionAlign

/-- No slash is in the text form of a span. -/
theorem Span.slash_notMem_render (s : Span) : '/' ∉ s.render.toList := by
  intro h
  rcases isDigit_or_eq_hyphen_of_mem_render h with hdigit | hhyphen
  · exact absurd hdigit (by decide)
  · exact absurd hhyphen (by decide)

/-- No slash is in the label of a realis value. -/
theorem Realis.slash_notMem_label (r : Realis) : '/' ∉ r.label.toList := by
  cases r <;> decide

/-- Labels tell realis values apart, as they are read back. -/
theorem Realis.label_inj {r s : Realis} : r.label = s.label ↔ r = s := by
  refine ⟨fun h => ?_, congrArg label⟩
  have hread := parse_label r
  rw [h, parse_label s] at hread
  exact (Except.ok.inj hread).symm

namespace Response

variable {a b : Response}

/-- The document, the event type and the role of a response, joined. -/
def path (r : Response) : String := "/".intercalate [r.docId, r.eventType, r.role]

/-- An identifier is the path with the text forms of the spans and the realis behind it. -/
theorem toList_uniqueId (r : Response) :
    r.uniqueId.toList = ((r.path.toList ++ '/' :: r.argument.span.render.toList)
      ++ '/' :: r.baseFiller.render.toList) ++ '/' :: r.realis.label.toList := by
  simp [uniqueId, path]

/-- Identifiers are the same exactly when the paths, the offsets and the realis are. -/
theorem uniqueId_eq_iff :
    a.uniqueId = b.uniqueId ↔ a.path = b.path ∧ (a.argument.span == b.argument.span) = true ∧
      (a.baseFiller == b.baseFiller) = true ∧ a.realis = b.realis := by
  rw [← String.toList_inj, toList_uniqueId, toList_uniqueId]
  -- the parts come off from the end, where no slash stands in them
  rw [Text.append_separator_inj (Realis.slash_notMem_label _) (Realis.slash_notMem_label _),
    Text.append_separator_inj (Span.slash_notMem_render _) (Span.slash_notMem_render _),
    Text.append_separator_inj (Span.slash_notMem_render _) (Span.slash_notMem_render _)]
  simp only [String.toList_inj, Span.render_eq_iff, Realis.label_inj, and_assoc]

/-- Paths of free texts without slashes are the same exactly when the texts are. -/
theorem path_eq_iff (ha : ∀ part ∈ [a.docId, a.eventType, a.role], '/' ∉ part.toList)
    (hb : ∀ part ∈ [b.docId, b.eventType, b.role], '/' ∉ part.toList) :
    a.path = b.path ↔ a.docId = b.docId ∧ a.eventType = b.eventType ∧ a.role = b.role := by
  have hparts : a.path = b.path ↔ [a.docId, a.eventType, a.role].map String.toList =
      [b.docId, b.eventType, b.role].map String.toList := by
    rw [← String.toList_inj, path, path, String.toList_intercalate, String.toList_intercalate]
    exact Text.intercalate_inj (by simp) (by simp) (List.forall_mem_map.mpr ha)
      (List.forall_mem_map.mpr hb)
  rw [hparts]
  simp [String.toList_inj]

/-- **Identifiers tell responses apart, up to slashes.**  Two responses have the same identifier
exactly when the offsets of their canonical arguments and of their base fillers, their realis and
their joined documents, event types and roles are the same.  If no slash is in the documents, event
types and roles, then each of these is the same too.  The texts of the argument and of the spans and
the justifications have no part in it. -/
theorem uniqueId_eq_iff_up_to_slashes (a b : Response) :
    (a.uniqueId = b.uniqueId ↔
      (a.argument.span.start = b.argument.span.start ∧
        a.argument.span.stop = b.argument.span.stop) ∧
      (a.baseFiller.start = b.baseFiller.start ∧ a.baseFiller.stop = b.baseFiller.stop) ∧
      a.realis = b.realis ∧
      "/".intercalate [a.docId, a.eventType, a.role] =
        "/".intercalate [b.docId, b.eventType, b.role]) ∧
    ((∀ part ∈ [a.docId, a.eventType, a.role], '/' ∉ part.toList) →
      (∀ part ∈ [b.docId, b.eventType, b.role], '/' ∉ part.toList) →
      (a.uniqueId = b.uniqueId ↔
        (a.docId = b.docId ∧ a.eventType = b.eventType ∧ a.role = b.role) ∧
        (a.argument.span.start = b.argument.span.start ∧
          a.argument.span.stop = b.argument.span.stop) ∧
        (a.baseFiller.start = b.baseFiller.start ∧ a.baseFiller.stop = b.baseFiller.stop) ∧
        a.realis = b.realis)) := by
  constructor
  · rw [uniqueId_eq_iff, Span.beq_iff, Span.beq_iff]
    constructor
    · rintro ⟨hpath, hspan, hfiller, hrealis⟩
      exact ⟨hspan, hfiller, hrealis, hpath⟩
    · rintro ⟨hspan, hfiller, hrealis, hpath⟩
      exact ⟨hpath, hspan, hfiller, hrealis⟩
  · intro ha hb
    rw [uniqueId_eq_iff, path_eq_iff ha hb, Span.beq_iff, Span.beq_iff]

/-- A slash in the document and one in the event type make one identifier of two responses, whatever
else differs in them.  Without slashes the documents differ, and so do the identifiers. -/
theorem uniqueId_eq_iff_up_to_slashes_moved :
    let span : Span := { start := 231, stop := 236 }
    let response := fun docId eventType text : String =>
      ({ docId, eventType, role := "Agent", argument := { text, span } } : Response)
    (response "d/e" "f" "he").uniqueId = (response "d" "e/f" "she").uniqueId ∧
    (response "d" "f" "he").uniqueId ≠ (response "e" "f" "he").uniqueId := by
  intro span response
  constructor
  · exact (uniqueId_eq_iff_up_to_slashes _ _).1.mpr ⟨⟨rfl, rfl⟩, ⟨rfl, rfl⟩, rfl, by decide⟩
  · intro h
    have hfree : ∀ docId ∈ ["d", "e"],
        ∀ part ∈ [docId, "f", "Agent"], '/' ∉ part.toList := by decide
    have hparts := ((uniqueId_eq_iff_up_to_slashes (response "d" "f" "he")
      (response "e" "f" "he")).2 (hfree "d" (by simp)) (hfree "e" (by simp))).mp h
    exact absurd hparts.1.1 (by decide)

end Response

end MentionAlign
