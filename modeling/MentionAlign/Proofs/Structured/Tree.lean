import MentionAlign.Proofs.Ron.Codec
import MentionAlign.Proofs.Structured.Span
import MentionAlign.Proofs.Tree.Layout
import MentionAlign.Structured.Tree
import Mathlib.Tactic.MkIffOfInductiveProp

/-!
# Parses survive writing and reading

A node is written as a record with the records of its children inside, and the reader of nodes is
written out along the shape of data instead of being put together from readers of fields.  The two
come together in `Node.ofFields_entries`: a node's record is read as the node if its five fields
are.  The children are read like any list of records (`Node.childrenOf_list`), so that an induction
on the tree gives the way back for trees of any shape, also for nodes with both a token and children
and for head positions without a child.

What a node holds has to fit 64 bits (`Node.InRange`), as the numbers of a program do.  The notation
may be any that keeps the law `TextCodec.ReadsBack`, and the document may nest no deeper than it.
-/

namespace MentionAlign

/-- A token is shown by its text and its span, at most five levels deep. -/
theorem Token.shows_toDatum {t : Token} (h : t.span.InRange) :
    Datum.Shows Token.ofDatum 5 t.toDatum t := by
  have htext := Datum.Shows.text t.text
  have hspan := Span.shows_toDatum h
  refine .record (n := 3) ["text", "span"] rfl (by decide) (.refl _) (by simp) ?_ ?_
  · exact ((htext.finds rfl).map Token.mk).seq (hspan.finds rfl)
  · simp only [List.forall_mem_cons, List.not_mem_nil, false_implies, implies_true, and_true]
    exact ⟨htext.fits (by decide), hspan.fits (by decide)⟩

namespace Node

/-- The offsets and the head position of the node fit 64 bits; its children are not looked at. -/
@[mk_iff]
structure InRange (n : Node) : Prop where
  span : n.span.InRange
  headChild : ∀ index ∈ n.headChild, index < Text.offsetBound
  token : ∀ t ∈ n.token, t.span.InRange

theorem toData_eq_map (ns : List Node) : toData ns = ns.map toDatum := by
  induction ns with
  | nil => rfl
  | cons n ns ih => rw [toData, ih, List.map_cons]

/-- The entries of the record of a node. -/
def entries (n : Node) : List (String × Datum) := [
  ("label", .text n.label), ("span", n.span.toDatum), ("children", .ofList toDatum n.children),
  ("head_child", .ofOption .natural n.headChild), ("token", .ofOption Token.toDatum n.token)]

/-- The datum of a node is the record of its five entries. -/
theorem toDatum_eq (n : Node) : n.toDatum = .record none n.entries := by
  cases n
  rw [toDatum, toData_eq_map]
  rfl

theorem ofData_eq_mapM (format : Format) (ds : List Datum) :
    ofData format ds = ds.mapM (ofDatum format) := by
  induction ds with
  | nil => rw [ofData]; rfl
  | cons d ds ih => rw [ofData, ih, List.mapM_cons]

theorem ofEntries_eq_map (format : Format) (entries : List (String × Datum)) :
    ofEntries format entries = entries.map fun e =>
      (e.1, e.2, if e.1 = "children" then childrenOf format e.2 else .ok []) := by
  induction entries with
  | nil => rfl
  | cons e entries ih => rw [ofEntries, ih, List.map_cons]

/-- The prepared entries of a node under a name. -/
theorem lookup_ofEntries (format : Format) (entries : List (String × Datum)) (name : String) :
    (ofEntries format entries).lookup name = (entries.lookup name).map fun d =>
      (d, if name = "children" then childrenOf format d else .ok []) := by
  induction entries with
  | nil => rfl
  | cons e entries ih =>
      rw [ofEntries, List.lookup_cons, List.lookup_cons, ih]
      by_cases h : name = e.1
      · rw [h, beq_self_eq_true]
        rfl
      · rw [beq_false_of_ne h]

/-- Preparing the entries of a node leaves their names as they are. -/
theorem keys_ofEntries (format : Format) (entries : List (String × Datum)) :
    (ofEntries format entries).map Prod.fst = entries.map Prod.fst := by
  rw [ofEntries_eq_map, List.map_map]
  rfl

theorem ofItems_eq_map (format : Format) (items : List Datum) :
    ofItems format items = items.map fun d => (d, childrenOf format d) := by
  induction items with
  | nil => rfl
  | cons d items ih => rw [ofItems, ih, List.map_cons]

/-- The children of a node are read like any list. -/
theorem childrenOf_list (format : Format) (items : List Datum) :
    childrenOf format (.list items) = Datum.toList ofDatum format (.list items) := by
  cases items with
  | nil =>
      rw [childrenOf]
      rfl
  | cons d ds =>
      rw [childrenOf, ofData_eq_mapM]
      · rfl
      · simp

/-- A node's record is read as the node if its fields are. -/
theorem ofFields_entries {n : Node} {format : Format}
    (hspan : Span.ofDatum format n.span.toDatum = .ok n.span)
    (hchildren : Datum.toList ofDatum format (.ofList toDatum n.children) = .ok n.children)
    (hhead : Datum.toOption Datum.toNatural format (.ofOption .natural n.headChild) =
      .ok n.headChild)
    (htoken : Datum.toOption Token.ofDatum format (.ofOption Token.toDatum n.token) = .ok n.token) :
    ofFields format { entries := ofEntries format n.entries } = .ok n := by
  have hentries : ofEntries format n.entries = [
      ("label", .text n.label, .ok []), ("span", n.span.toDatum, .ok []),
      ("children", .ofList toDatum n.children, .ok n.children),
      ("head_child", .ofOption .natural n.headChild, .ok []),
      ("token", .ofOption Token.toDatum n.token, .ok [])] := by
    rw [← hchildren, Datum.ofList, ← childrenOf_list]
    rfl
  rw [hentries]
  refine FieldReader.run_eq_ok ?_ (.refl _) (by decide)
  -- a node is not the node of its parts by definition, since its type is recursive
  obtain ⟨label, span, children, headChild, token⟩ := n
  refine FieldReader.read_seq (FieldReader.read_seq (FieldReader.read_seq (FieldReader.read_seq
    (FieldReader.read_map Node.mk ?label) ?span) ?children) ?head) ?token
  case label => exact FieldReader.read_field rfl rfl
  case span => exact FieldReader.read_field (v := (span.toDatum, .ok [])) rfl hspan
  case children => exact FieldReader.read_field rfl rfl
  case head => exact FieldReader.read_field (v := (.ofOption .natural headChild, .ok [])) rfl hhead
  case token =>
    exact FieldReader.read_field (v := (.ofOption Token.toDatum token, .ok [])) rfl htoken

/-- The names of the entries of a node are those of its fields. -/
theorem names_entries (n : Node) :
    n.entries.map Prod.fst = ["label", "span", "children", "head_child", "token"] := rfl

/-- What holds of the five fields holds of all entries. -/
theorem forall_mem_entries_iff {n : Node} {p : Datum → Prop} :
    (∀ e ∈ n.entries, p e.2) ↔ p (.text n.label) ∧ p n.span.toDatum ∧
      p (.ofList toDatum n.children) ∧ p (.ofOption .natural n.headChild) ∧
      p (.ofOption Token.toDatum n.token) := by
  simp [entries]

/-- Where there is room for the record of a node, the node is read from its fields. -/
theorem ofDatum_toDatum {n : Node} {format : Format} (h : format.admits 2 = true) :
    ofDatum format n.toDatum =
      ofFields (format.inside 2) { entries := ofEntries (format.inside 2) n.entries } := by
  rw [toDatum_eq, ofDatum]
  exact if_pos h

/-- **A node is shown by its record**, whatever the shape of the tree below it, if the nodes of the
tree hold what fits 64 bits. -/
theorem shows_toDatum {n : Node} (h : ∀ m ∈ n.nodes, m.InRange) :
    Datum.Shows ofDatum n.toDatum.nesting n.toDatum n := by
  induction n using inductionOnChildren with
  | node n ih =>
      rw [nodes_eq, List.forall_mem_cons] at h
      obtain ⟨hnode, hbelow⟩ := h
      have hspan := Span.shows_toDatum hnode.span
      have hchildren : Datum.Shows (Datum.toList ofDatum) (Datum.ofList toDatum n.children).nesting
          (.ofList toDatum n.children) n.children :=
        .ofListExact fun c hc => ih c hc fun m hm => hbelow m (mem_nodesAmong.mpr ⟨c, hc, hm⟩)
      have hhead : Datum.Shows (Datum.toOption Datum.toNatural) 1
          (.ofOption .natural n.headChild) n.headChild :=
        .ofOption fun index hindex => .natural (hnode.headChild index hindex)
      have htoken : Datum.Shows (Datum.toOption Token.ofDatum) 6
          (.ofOption Token.toDatum n.token) n.token :=
        .ofOption fun t ht => Token.shows_toDatum (hnode.token t ht)
      have hentries : n.entries ≠ [] := List.cons_ne_nil _ _
      have hnames : (n.entries.map Prod.fst).all Datum.isName = true := by
        rw [names_entries]
        decide
      refine ⟨?_, Nat.le_refl _, fun format hformat => ?_⟩
      · rw [toDatum_eq]
        refine .record hentries hnames (forall_mem_entries_iff.mpr ?_)
        exact ⟨.text n.label, hspan.plain, hchildren.plain, hhead.plain, htoken.plain⟩
      · rw [toDatum_eq] at hformat
        obtain ⟨htwo, hroom⟩ := Datum.admits_of_nestingWithin hentries hformat
        obtain ⟨_, hspanRoom, hchildrenRoom, hheadRoom, htokenRoom⟩ :=
          forall_mem_entries_iff (p := fun d => (format.inside 2).admits d.nesting).mp hroom
        rw [ofDatum_toDatum htwo]
        exact ofFields_entries (hspan.decodes _ hspanRoom) (hchildren.decodes _ hchildrenRoom)
          (hhead.decodes _ hheadRoom) (htoken.decodes _ htokenRoom)

end Node

namespace ParsedDocument

theorem shows_sentence {root : Node} (h : ∀ n ∈ root.nodes, n.InRange) :
    Datum.Shows sentenceOfDatum (Datum.record none [("root", root.toDatum)]).nesting
      (.record none [("root", root.toDatum)]) root := by
  have hroot := Node.shows_toDatum h
  refine .recordExact ["root"] rfl (by decide) (.refl _) (by simp) (hroot.finds rfl) ?_
  simpa using hroot.plain

/-- A document is shown by its record. -/
theorem shows_toDatum {doc : ParsedDocument}
    (h : ∀ n ∈ Node.nodesAmong doc.sentences, n.InRange) :
    Datum.Shows ofDatum doc.toDatum.nesting doc.toDatum doc := by
  have hid := Datum.Shows.text doc.docId
  have hsentences : Datum.Shows (Datum.toList sentenceOfDatum)
      (Datum.ofList (fun root => Datum.record none [("root", root.toDatum)]) doc.sentences).nesting
      (.ofList (fun root => .record none [("root", root.toDatum)]) doc.sentences) doc.sentences :=
    .ofListExact fun root hroot =>
      shows_sentence fun n hn => h n (Node.mem_nodesAmong.mpr ⟨root, hroot, hn⟩)
  refine .recordExact ["doc_id", "sentences"] rfl (by decide) (.refl _) (by simp)
    (((hid.finds rfl).map ParsedDocument.mk).seq (hsentences.finds rfl)) ?_
  simp only [List.forall_mem_cons, List.not_mem_nil, false_implies, implies_true, and_true]
  exact ⟨hid.plain, hsentences.plain⟩

/-- **Parses survive writing and reading.**  Take any notation in which writing and reading are
inverse up to some depth.  A document that nests no deeper is written in it, and the text is read as
the same document: every label, span with its text, child, head position and token.  So what is read
finds the same head for every span. -/
theorem reads_back_parses {codec : TextCodec} {depth : Nat} (hcodec : codec.ReadsBack depth)
    {doc : ParsedDocument} (hrange : ∀ n ∈ Node.nodesAmong doc.sentences, n.InRange)
    (hroom : doc.toDatum.nesting ≤ depth) :
    ∃ s back, codec.encode? doc = some s ∧ codec.decode s = .ok back ∧ back = doc ∧
      ∀ span, back.headOf span = doc.headOf span := by
  obtain ⟨s, hencode, hdecode⟩ := hcodec.decode_encode (a := doc) (shows_toDatum hrange) hroom
  exact ⟨s, doc, hencode, hdecode, rfl, fun _ => rfl⟩

/-- A document with a node that has both a token and children, with a head position that has no
child, with an empty sentence and with quotes, a backslash and an umlaut in its texts, in object
notation. -/
theorem reads_back_odd_parses :
    let noun : Node := Node.terminal "NN\"" { text := "Köter", span := { start := 20, stop := 24 } }
    let phrase : Node :=
      { label := "N\\P", span := { start := 20, stop := 24, text := some "Kö\nter" }
        children := [noun], headChild := some 7
        token := some { text := "", span := { start := 24, stop := 18446744073709551615 } } }
    let root : Node := { label := "", span := { start := 18, stop := 29 }, children := [phrase] }
    let empty : Node := { label := "S", span := { start := 33, stop := 33 } }
    let doc : ParsedDocument := { docId := "d", sentences := [root, empty] }
    ∃ s back, Ron.codec.encode? doc = some s ∧ Ron.codec.decode s = .ok back ∧ back = doc ∧
      ∀ span, back.headOf span = doc.headOf span := by
  intro noun phrase root empty doc
  refine reads_back_parses Ron.codec_readsBack ?_ (by decide)
  have hnodes : Node.nodesAmong doc.sentences = [root, phrase, noun, empty] := rfl
  rw [hnodes]
  simp [Node.inRange_iff, Span.InRange, Text.offsetBound, Node.terminal, noun, phrase, root, empty]

end ParsedDocument

end MentionAlign
