import MentionAlign.Proofs.Gold.RoundTrip
import MentionAlign.Proofs.Json.Reading
import MentionAlign.Proofs.Structured.Tree
import MentionAlign.Structured.Cascade
import MentionAlign.Structured.Response

/-!
# Every type survives JSON

Each structured type is shown by the JSON form of its values (`Json.Shows`), with every field and
with the texts of spans.  Most types are records of types that came before.  A gold mention names
its kind among its fields, which then belong to the reader of that kind (`shows_of_kind`); a role
table has its entries in the order of their keys already; and nodes go by induction on the tree.

All that is asked of a value is that its numbers fit 64 bits, as the numbers of a program do.
-/

namespace MentionAlign

/-- The spans of a response. -/
def Response.spans (r : Response) : List Span :=
  [r.argument.span, r.baseFiller] ++ r.argumentJustifications ++ r.predicateJustifications

/-- The entries of a table are its pairs in the order of the gold roles. -/
theorem RoleTable.entries_ofList (pairs : List (String × String)) :
    (ofList pairs).entries = Entries.ofList pairs := by
  induction pairs using List.reverseRecOn with
  | nil => rfl
  | append_singleton pairs pair ih =>
      rw [Entries.ofList_concat, ← ih, ofList, List.foldl_append]
      rfl

/-- A table is the table of its entries. -/
theorem RoleTable.ofList_entries (table : RoleTable) : ofList table.entries = table := by
  have hentries : (ofList table.entries).entries = table.entries := by
    rw [entries_ofList, Entries.ofList_of_sorted table.sorted]
  cases hback : ofList table.entries
  rw [hback] at hentries
  subst hentries
  rfl

namespace Json

/-- A span is shown by its offsets, and by its text if it has one. -/
theorem shows_span {s : Span} (h : s.InRange) : Shows Span.ofDatum s.toDatum s := by
  have hstart : Shows Datum.toNatural (.natural s.start) s.start :=
    .natural (Nat.lt_of_le_of_lt s.start_le_stop h)
  have hstop : Shows Datum.toNatural (.natural s.stop) s.stop := .natural h
  have htext : Finds (.defaulted "text" (Datum.toOption Datum.toText) none) s.entries s.text := by
    cases htext : s.text with
    | none => exact .of_missing (by rw [Span.entries, htext]; rfl) rfl
    | some text =>
        have hlookup : s.entries.lookup "text" = some (.ofOption .text (some text)) := by
          rw [Span.entries, htext]
          rfl
        exact (Shows.ofOption rfl fun text _ => .text text).finds hlookup
  have hrecord : Shows (Datum.toRecord "SpanRepr" Span.reader) s.toDatum
      (s.start, s.stop, s.text) :=
    .record ["start", "end", "text"] rfl (by decide) s.names_sublist
      ((((hstart.finds rfl).map _).seq (hstop.finds rfl)).seq htext)
  have hvalidate : Span.validate (s.start, s.stop, s.text) = .ok s := dif_pos s.start_le_stop
  rw [Shows, Span.ofDatum, hrecord]
  exact hvalidate

/-- A text is shown with its span. -/
theorem shows_anchoredText {t : AnchoredText} (h : t.span.InRange) :
    Shows AnchoredText.ofDatum t.toDatum t := by
  have htext := Shows.text t.text
  have hspan := shows_span h
  exact .record ["text", "span"] rfl (by decide) (.refl _)
    (((htext.finds rfl).map AnchoredText.mk).seq (hspan.finds rfl))

/-- A realis value is shown by its label. -/
theorem shows_realis (r : Realis) :
    Shows (Datum.toVariant Realis.variants) (.text r.label) r := by
  cases r <;> exact .variant (by decide)

/-- A response is shown by its eight fields. -/
theorem shows_response {r : Response} (h : ∀ s ∈ r.spans, s.InRange) :
    Shows Response.ofDatum r.toDatum r := by
  simp only [Response.spans, List.cons_append, List.nil_append, List.forall_mem_cons,
    List.forall_mem_append] at h
  obtain ⟨hargument, hfiller, harguments, hpredicates⟩ := h
  have hdoc := Shows.text r.docId
  have htype := Shows.text r.eventType
  have hrole := Shows.text r.role
  have hargument := shows_anchoredText hargument
  have hfiller := shows_span hfiller
  have harguments : Shows (Datum.toList Span.ofDatum)
      (.ofList Span.toDatum r.argumentJustifications) r.argumentJustifications :=
    .ofList fun s hs => shows_span (harguments s hs)
  have hpredicates : Shows (Datum.toList Span.ofDatum)
      (.ofList Span.toDatum r.predicateJustifications) r.predicateJustifications :=
    .ofList fun s hs => shows_span (hpredicates s hs)
  have hrealis := shows_realis r.realis
  refine .record ["doc_id", "event_type", "role", "canonical_argument", "base_filler",
    "argument_justifications", "predicate_justifications", "realis"] rfl (by decide) (.refl _) ?_
  exact ((((((((hdoc.finds rfl).map Response.mk).seq (htype.finds rfl)).seq (hrole.finds rfl)).seq
    (hargument.finds rfl)).seq (hfiller.finds rfl)).seq (harguments.finds rfl)).seq
    (hpredicates.finds rfl)).seq (hrealis.finds rfl)

/-- A record of an argument is shown with its kind as a text, known or not. -/
theorem shows_rawMention {m : RawMention} (h : ∀ s ∈ m.spans, s.InRange) :
    Shows RawMention.ofDatum m.toDatum m := by
  have hid := Shows.text m.id
  have hkind := Shows.text m.kind
  have hentity : Shows (Datum.toOption Datum.toText) (.ofOption .text m.entity) m.entity :=
    .ofOption rfl fun s _ => .text s
  have hextent := shows_span (h m.extent List.mem_cons_self)
  have hhead : Shows (Datum.toOption Span.ofDatum) (.ofOption Span.toDatum m.head) m.head :=
    .ofOption rfl fun s hs =>
      shows_span (h s (List.mem_cons_of_mem _ (Option.mem_toList.mpr hs)))
  have hrole := Shows.text m.role
  refine .record ["id", "kind", "entity", "extent", "head", "role"] rfl (by decide) (.refl _) ?_
  exact ((((((hid.finds rfl).map RawMention.mk).seq (hkind.finds rfl)).seq
    (hentity.finds rfl)).seq (hextent.finds rfl)).seq (hhead.finds rfl)).seq (hrole.finds rfl)

section GoldMention

/-- The kind of a mention decides which reader gets the fields. -/
theorem ofKind_text {kind : String} {reader : FieldReader Datum GoldMention} (fields : Datum)
    (hkind : GoldMention.kindReaders.lookup kind = some reader) :
    GoldMention.ofKind .json (.text kind) fields =
      Datum.toRecord "GoldMention" reader .json fields := by
  have hfound : Datum.findVariant GoldMention.kindReaders kind = .ok reader := by
    rw [Datum.findVariant, hkind]
  calc GoldMention.ofKind .json (.text kind) fields
      = (Datum.findVariant GoldMention.kindReaders kind).bind fun reader =>
          Datum.toRecord "GoldMention" reader .json fields := rfl
    _ = Datum.toRecord "GoldMention" reader .json fields := by
        rw [hfound]
        rfl

/-- A mention is read from the entries besides its kind. -/
theorem goldMention_ofDatum_record {kind : String} {reader : FieldReader Datum GoldMention}
    {entries : List (String × Datum)} (hentries : entries.lookup "kind" = some (.text kind))
    (hkind : GoldMention.kindReaders.lookup kind = some reader) :
    GoldMention.ofDatum .json (.record none entries) =
      reader.run .json (Datum.passOver .json) { entries := entries.filter (·.1 != "kind") } := by
  rw [← toRecord_record, ← ofKind_text _ hkind]
  simp only [GoldMention.ofDatum, Datum.under, hentries]

/-- **A mention is shown by its kind and the fields of that kind.**  Among the entries in order the
kind may stand anywhere. -/
theorem shows_of_kind {kind : String} {reader : FieldReader Datum GoldMention}
    {fields : List (String × Datum)} {m : GoldMention}
    (hkind : GoldMention.kindReaders.lookup kind = some reader)
    (hnames : fields.map Prod.fst = reader.names) (hnodup : ("kind" :: reader.names).Nodup)
    (hfinds : Finds reader fields m) :
    Shows GoldMention.ofDatum (.record none (("kind", .text kind) :: fields)) m := by
  let shown := throughEntries (("kind", .text kind) :: fields)
  have hlookup (name : String) : shown.lookup name =
      ((("kind", .text kind) :: fields).lookup name).map through :=
    lookup_throughEntries (by rwa [List.map_cons, hnames]) name
  have hfresh : fields.lookup "kind" = none := by
    rw [List.lookup_eq_none_iff]
    intro e he
    have hmem : e.1 ∈ reader.names := hnames ▸ List.mem_map_of_mem he
    have hne : "kind" ≠ e.1 := fun heq => (List.nodup_cons.mp hnodup).1 (heq ▸ hmem)
    simpa using hne
  have hothers (name : String) : (shown.filter (·.1 != "kind")).lookup name =
      (fields.lookup name).map through := by
    rw [Entries.lookup_filter_ne]
    by_cases h : name = "kind"
    · rw [if_pos h, h, hfresh, Option.map_none]
    · rw [if_neg h, hlookup, List.lookup_cons, beq_false_of_ne h]
  have hknown : ∀ e ∈ shown.filter (·.1 != "kind"), e.1 ∈ reader.names := by
    intro e he
    obtain ⟨he, hne⟩ := List.mem_filter.mp he
    have hmem := key_mem_of_mem_throughEntries he
    rw [List.map_cons, hnames] at hmem
    exact List.mem_of_ne_of_mem (by simpa using hne) hmem
  have hname : shown.lookup "kind" = some (.text kind) := by
    rw [hlookup]
    rfl
  rw [Shows, through_record, goldMention_ofDatum_record hname hkind]
  exact FieldReader.run_eq_ok_of_names (hfinds _ hothers) hknown
    ((nodup_keys_throughEntries _).sublist (List.filter_sublist.map _))

/-- A mention is shown by its kind and its fields: a filler has neither cluster nor head. -/
theorem shows_goldMention {m : GoldMention} (h : ∀ s ∈ m.spans, s.InRange) :
    Shows GoldMention.ofDatum m.toDatum m := by
  have hextent := shows_span (h m.extent List.mem_cons_self)
  cases m with
  | entity m =>
      have hid := Shows.text m.id.name
      have hentity := Shows.text m.entity
      have hhead : Shows (Datum.toOption Span.ofDatum) (.ofOption Span.toDatum m.head) m.head :=
        .ofOption rfl fun s hs =>
          shows_span (h s (List.mem_cons_of_mem _ (Option.mem_toList.mpr hs)))
      have hrole := Shows.text m.role
      have hkind : GoldMention.kindReaders.lookup "entity" = some GoldMention.entityReader := rfl
      refine shows_of_kind hkind rfl (by decide) ?_
      exact (((((hid.finds rfl).map _).seq (hentity.finds rfl)).seq (hextent.finds rfl)).seq
        (hhead.finds rfl)).seq (hrole.finds rfl)
  | filler m =>
      have hid := Shows.text m.id.name
      have hrole := Shows.text m.role
      have hkind : GoldMention.kindReaders.lookup "filler" = some GoldMention.fillerReader := rfl
      refine shows_of_kind hkind rfl (by decide) ?_
      exact (((hid.finds rfl).map _).seq (hextent.finds rfl)).seq (hrole.finds rfl)

end GoldMention

/-- An inventory is shown by the row of its mentions. -/
theorem shows_inventory {inventory : Inventory}
    (h : ∀ m ∈ inventory.mentions, ∀ s ∈ m.spans, s.InRange) :
    Shows Inventory.ofDatum inventory.toDatum inventory := by
  have hmentions : Shows (Datum.toList GoldMention.ofDatum)
      (.ofList GoldMention.toDatum inventory.mentions) inventory.mentions :=
    .ofList fun m hm => shows_goldMention (h m hm)
  exact .record ["mentions"] rfl (by decide) (.refl _) ((hmentions.finds rfl).map Inventory.mk)

/-- A role table is shown as it stands, since its entries are in order. -/
theorem shows_roleTable (table : RoleTable) : Shows RoleTable.ofDatum table.toDatum table := by
  have hvalues : (table.entries.map fun e => (e.1, Datum.text e.2)).map
      (fun e => (e.1, through e.2)) = table.entries.map fun e => (e.1, Datum.text e.2) := by
    rw [List.map_map]
    rfl
  have hsorted : Entries.Sorted (table.entries.map fun e => (e.1, Datum.text e.2)) :=
    List.pairwise_map.mpr table.sorted
  have hpairs : (table.entries.map fun e => (e.1, Datum.text e.2)).mapM
      (fun e => (Datum.toText .json e.2).map fun role => (e.1, role)) = .ok table.entries := by
    rw [mapM_eq_ok_iff, List.map_map]
    rfl
  rw [Shows, RoleTable.toDatum, through_record, throughEntries, hvalues,
    Entries.ofList_of_sorted hsorted]
  simp only [RoleTable.ofDatum, Datum.under, Datum.entries?, hpairs]
  exact congrArg Except.ok table.ofList_entries

/-- A span kind is shown by its name. -/
theorem shows_spanKind (kind : SpanKind) :
    Shows (Datum.toVariant SpanKind.variants) (.text kind.name) kind := by
  cases kind <;> exact .variant (by decide)

/-- A set-up is shown by its two fields. -/
theorem shows_config (config : Config) : Shows Config.ofDatum config.toDatum config := by
  have hrelax := Shows.boolean config.relaxWithHeads
  have hviews : Shows (Datum.toList (Datum.toVariant SpanKind.variants))
      (.ofList (fun kind => .text kind.name) config.views) config.views :=
    .ofList fun kind _ => shows_spanKind kind
  exact .record ["relax_with_heads", "response_views"] rfl (by decide) (.refl _)
    (((hrelax.finds rfl).map Config.mk).seq (hviews.finds rfl))

section Alignment

/-- A candidate is shown by the names of its mention and of its scoring unit. -/
theorem shows_candidate (c : Candidate) : Shows Candidate.ofDatum c.toDatum c := by
  have hmention := Shows.text c.mention.name
  have hunit := Shows.text c.scoringId.name
  exact .record ["mention", "scoring_id"] rfl (by decide) (.refl _)
    (((hmention.finds rfl).map _).seq (hunit.finds rfl))

/-- An ambiguity is shown with all of its candidates. -/
theorem shows_ambiguity (a : Ambiguity) : Shows Ambiguity.ofDatum a.toDatum a := by
  have hresponse := Shows.text a.responseId
  have hcandidates : Shows (Datum.toList Candidate.ofDatum)
      (.ofList Candidate.toDatum a.candidates) a.candidates :=
    .ofList fun c _ => shows_candidate c
  exact .record ["response_id", "candidates"] rfl (by decide) (.refl _)
    (((hresponse.finds rfl).map Ambiguity.mk).seq (hcandidates.finds rfl))

/-- A match is shown by four fields, the last one with its ambiguity or without one. -/
theorem shows_alignedMention {a : AlignedMention} (h : a.strategy < Text.offsetBound) :
    Shows AlignedMention.ofDatum a.toDatum a := by
  have hmention := Shows.text a.mention.name
  have hunit := Shows.text a.scoringId.name
  have hstrategy := Shows.natural h
  have hambiguity : Shows (Datum.toOption Ambiguity.ofDatum)
      (.ofOption Ambiguity.toDatum a.ambiguity) a.ambiguity :=
    .ofOption rfl fun a _ => shows_ambiguity a
  exact .record ["mention", "scoring_id", "strategy", "ambiguity"] rfl (by decide) (.refl _)
    (((((hmention.finds rfl).map _).seq (hunit.finds rfl)).seq (hstrategy.finds rfl)).seq
      (hambiguity.finds rfl))

/-- An alignment is shown by its match, or by the name that stands for no match. -/
theorem shows_alignment {a : Alignment} (h : ∀ index ∈ a.strategy?, index < Text.offsetBound) :
    Shows Alignment.ofDatum a.toDatum a := by
  cases a with
  | unmatched => rfl
  | matched aligned =>
      have haligned := shows_alignedMention (h aligned.strategy rfl)
      have hsingle : through (Alignment.matched aligned).toDatum =
          .record none [("Matched", through aligned.toDatum)] := through_record none _
      calc Alignment.ofDatum .json (through (Alignment.matched aligned).toDatum)
          = (AlignedMention.ofDatum .json (through aligned.toDatum)).map Alignment.matched := by
            rw [hsingle]
            rfl
        _ = .ok (.matched aligned) := by
            rw [haligned]
            rfl

end Alignment

section Gold

variable {α : Type} {read : Decoder α} {write : α → Datum}

/-- An event mention is shown if its arguments are. -/
theorem shows_eventMention {m : EventMention α} (htrigger : ∀ s ∈ m.trigger, s.InRange)
    (harguments : ∀ a ∈ m.arguments, Shows read (write a) a) :
    Shows (EventMention.ofDatum read) (m.toDatum write) m := by
  have hid := Shows.text m.id
  have htype := Shows.text m.eventType
  have htrigger : Shows (Datum.toOption Span.ofDatum) (.ofOption Span.toDatum m.trigger)
      m.trigger := .ofOption rfl fun s hs => shows_span (htrigger s hs)
  have harguments : Shows (Datum.toList read) (.ofList write m.arguments) m.arguments :=
    .ofList harguments
  exact .record ["id", "event_type", "trigger", "arguments"] rfl (by decide) (.refl _)
    (((((hid.finds rfl).map EventMention.mk).seq (htype.finds rfl)).seq (htrigger.finds rfl)).seq
      (harguments.finds rfl))

/-- An event is shown if its mentions are. -/
theorem shows_event {e : Event α}
    (hmentions : ∀ m ∈ e.mentions, Shows (EventMention.ofDatum read) (m.toDatum write) m) :
    Shows (Event.ofDatum read) (e.toDatum write) e := by
  have hid := Shows.text e.id
  have hmentions : Shows (Datum.toList (EventMention.ofDatum read))
      (.ofList (EventMention.toDatum write) e.mentions) e.mentions := .ofList hmentions
  exact .record ["id", "mentions"] rfl (by decide) (.refl _)
    (((hid.finds rfl).map Event.mk).seq (hmentions.finds rfl))

/-- A document is shown if its arguments are, whichever type they have. -/
theorem shows_goldDocument {spansOf : α → List Span} {doc : GoldDocument α}
    (hshows : ∀ a, (∀ s ∈ spansOf a, s.InRange) → Shows read (write a) a)
    (h : ∀ s ∈ doc.spans spansOf, s.InRange) :
    Shows (GoldDocument.ofDatum read) (doc.toDatum write) doc := by
  have hid := Shows.text doc.docId
  have hevents : Shows (Datum.toList (Event.ofDatum read))
      (.ofList (Event.toDatum write) doc.events) doc.events := by
    refine .ofList fun e he => shows_event fun m hm =>
      shows_eventMention (fun s hs => ?_) fun a ha => hshows a fun s hs => ?_
    all_goals
      refine h s (List.mem_flatMap.mpr ⟨e, he, List.mem_flatMap.mpr ⟨m, hm, ?_⟩⟩)
    · exact List.mem_append_left _ (Option.mem_toList.mpr hs)
    · exact List.mem_append_right _ (List.mem_flatMap.mpr ⟨a, ha, hs⟩)
  exact .record ["doc_id", "events"] rfl (by decide) (.refl _)
    (((hid.finds rfl).map GoldDocument.mk).seq (hevents.finds rfl))

end Gold

section Trees

/-- A token is shown by its text and its span. -/
theorem shows_token {t : Token} (h : t.span.InRange) : Shows Token.ofDatum t.toDatum t := by
  have htext := Shows.text t.text
  have hspan := shows_span h
  exact .record ["text", "span"] rfl (by decide) (.refl _)
    (((htext.finds rfl).map Token.mk).seq (hspan.finds rfl))

/-- A node is read from prepared entries that have what its own entries, put into JSON, have. -/
theorem read_node {n : Node} {shown : List (String × Node.Entry)}
    (hlookup : ∀ name d, n.entries.lookup name = some d → shown.lookup name =
      some (through d, if name = "children" then Node.childrenOf .json (through d) else .ok []))
    (hspan : Shows Span.ofDatum n.span.toDatum n.span)
    (hchildren : Shows (Datum.toList Node.ofDatum) (.ofList Node.toDatum n.children) n.children)
    (hhead : Shows (Datum.toOption Datum.toNatural) (.ofOption .natural n.headChild) n.headChild)
    (htoken : Shows (Datum.toOption Token.ofDatum) (.ofOption Token.toDatum n.token) n.token) :
    Node.reader.read .json { entries := shown } = { faults := [], value := .ok n } := by
  have hlist : Node.childrenOf .json (through (.ofList Node.toDatum n.children)) =
      .ok n.children := by
    rw [Datum.ofList, through_list, Node.childrenOf_list, ← through_list]
    exact hchildren
  have hlabel := hlookup "label" (.text n.label) rfl
  have hspanEntry := hlookup "span" n.span.toDatum rfl
  have hlistEntry := hlookup "children" (.ofList Node.toDatum n.children) rfl
  have hheadEntry := hlookup "head_child" (.ofOption .natural n.headChild) rfl
  have htokenEntry := hlookup "token" (.ofOption Token.toDatum n.token) rfl
  rw [if_pos rfl] at hlistEntry
  -- a node is not the node of its parts by definition, since its type is recursive
  obtain ⟨label, span, children, headChild, token⟩ := n
  refine FieldReader.read_seq (FieldReader.read_seq (FieldReader.read_seq (FieldReader.read_seq
    (FieldReader.read_map Node.mk ?label) ?span) ?children) ?head) ?token
  case label => exact FieldReader.read_field hlabel rfl
  case span => exact FieldReader.read_field hspanEntry hspan
  case children => exact FieldReader.read_field hlistEntry hlist
  case head => exact FieldReader.read_field hheadEntry hhead
  case token => exact FieldReader.read_field htokenEntry htoken

/-- A node's record is read as the node if its fields are, in whatever order they stand. -/
theorem ofFields_throughEntries {n : Node} (hspan : Shows Span.ofDatum n.span.toDatum n.span)
    (hchildren : Shows (Datum.toList Node.ofDatum) (.ofList Node.toDatum n.children) n.children)
    (hhead : Shows (Datum.toOption Datum.toNatural) (.ofOption .natural n.headChild) n.headChild)
    (htoken : Shows (Datum.toOption Token.ofDatum) (.ofOption Token.toDatum n.token) n.token) :
    Node.ofFields .json { entries := Node.ofEntries .json (throughEntries n.entries) } = .ok n := by
  have hnodup : (n.entries.map Prod.fst).Nodup := by
    rw [Node.names_entries]
    decide
  have hlookup (name : String) (d : Datum) (hd : n.entries.lookup name = some d) :
      (Node.ofEntries .json (throughEntries n.entries)).lookup name =
        some (through d,
          if name = "children" then Node.childrenOf .json (through d) else .ok []) := by
    rw [Node.lookup_ofEntries, lookup_throughEntries hnodup, hd]
    rfl
  have hread := read_node hlookup hspan hchildren hhead htoken
  refine FieldReader.run_eq_ok_of_names hread (fun e he => ?_) ?_
  · have hmem : e.1 ∈ (throughEntries n.entries).map Prod.fst :=
      Node.keys_ofEntries .json _ ▸ List.mem_map_of_mem he
    obtain ⟨e', he', heq⟩ := List.mem_map.mp hmem
    exact heq ▸ key_mem_of_mem_throughEntries he'
  · rw [Node.keys_ofEntries]
    exact nodup_keys_throughEntries n.entries

/-- **A node is shown by its record**, whatever the shape of the tree below it. -/
theorem shows_node {n : Node} (h : ∀ m ∈ n.nodes, m.InRange) : Shows Node.ofDatum n.toDatum n := by
  induction n using Node.inductionOnChildren with
  | node n ih =>
      rw [Node.nodes_eq, List.forall_mem_cons] at h
      obtain ⟨hnode, hbelow⟩ := h
      have hspan := shows_span hnode.span
      have hchildren : Shows (Datum.toList Node.ofDatum) (.ofList Node.toDatum n.children)
          n.children :=
        .ofList fun c hc => ih c hc fun m hm => hbelow m (Node.mem_nodesAmong.mpr ⟨c, hc, hm⟩)
      have hhead : Shows (Datum.toOption Datum.toNatural) (.ofOption .natural n.headChild)
          n.headChild := .ofOption rfl fun index hindex => .natural (hnode.headChild index hindex)
      have htoken : Shows (Datum.toOption Token.ofDatum) (.ofOption Token.toDatum n.token) n.token :=
        .ofOption rfl fun t ht => shows_token (hnode.token t ht)
      calc Node.ofDatum .json (through n.toDatum)
          = Node.ofFields .json { entries := Node.ofEntries .json (throughEntries n.entries) } := by
            rw [Node.toDatum_eq, through_record, Node.ofDatum]
            exact if_pos rfl
        _ = .ok n := ofFields_throughEntries hspan hchildren hhead htoken

/-- A sentence is shown by the record of its root. -/
theorem shows_sentence {root : Node} (h : ∀ n ∈ root.nodes, n.InRange) :
    Shows ParsedDocument.sentenceOfDatum (.record none [("root", root.toDatum)]) root :=
  .record ["root"] rfl (by decide) (.refl _) ((shows_node h).finds rfl)

/-- A parsed document is shown by its sentences. -/
theorem shows_parsedDocument {doc : ParsedDocument}
    (h : ∀ n ∈ Node.nodesAmong doc.sentences, n.InRange) :
    Shows ParsedDocument.ofDatum doc.toDatum doc := by
  have hid := Shows.text doc.docId
  have hsentences : Shows (Datum.toList ParsedDocument.sentenceOfDatum)
      (.ofList (fun root => .record none [("root", root.toDatum)]) doc.sentences) doc.sentences :=
    .ofList fun root hroot =>
      shows_sentence fun n hn => h n (Node.mem_nodesAmong.mpr ⟨root, hroot, hn⟩)
  exact .record ["doc_id", "sentences"] rfl (by decide) (.refl _)
    (((hid.finds rfl).map ParsedDocument.mk).seq (hsentences.finds rfl))

end Trees

end Json

end MentionAlign
