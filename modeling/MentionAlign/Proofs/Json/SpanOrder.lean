import MentionAlign.Proofs.Json.Place
import MentionAlign.Proofs.Json.Typed

/-!
# Spans whose ends are swapped

`SpoiltBy start stop` relates two JSON values that agree but for one place, where the second one has
a span from `start` to `stop` with `stop` before `start`.  The places are listed for each type along
its fields: those that hold a span, and those whose values have such places in turn, as deep as the
type goes.  A gold mention has the places of its kind, and a node those of the nodes below it.

Each type refuses what is spoilt in this way, with the fault of that span.
-/

namespace MentionAlign

open Json (Change InItem InRecord)

/-- The second value reads as offsets with the start after the end, whatever the first one is. -/
def Span.SpoiltBy (start stop : Nat) : Change := fun _ w =>
  stop < start ∧ ∃ text, Datum.toRecord "SpanRepr" reader .json w.toDatum = .ok (start, stop, text)

/-- A text with its span is spoilt at that span. -/
def AnchoredText.SpoiltBy (start stop : Nat) : Change :=
  InRecord ["text", "span"] [("span", Span.SpoiltBy start stop)]

/-- A response is spoilt at the span of its argument, at its base filler, or at one of its
justifications. -/
def Response.SpoiltBy (start stop : Nat) : Change :=
  InRecord
    ["doc_id", "event_type", "role", "canonical_argument", "base_filler", "argument_justifications",
      "predicate_justifications", "realis"]
    [("canonical_argument", AnchoredText.SpoiltBy start stop),
      ("base_filler", Span.SpoiltBy start stop),
      ("argument_justifications", InItem (Span.SpoiltBy start stop)),
      ("predicate_justifications", InItem (Span.SpoiltBy start stop))]

/-- A record of an argument is spoilt at its extent or at its head, whatever kind it names. -/
def RawMention.SpoiltBy (start stop : Nat) : Change :=
  InRecord ["id", "kind", "entity", "extent", "head", "role"]
    [("extent", Span.SpoiltBy start stop), ("head", Span.SpoiltBy start stop)]

namespace GoldMention

/-- The kind that a mention names. -/
def kind? : Datum → Option Datum
  | .record _ entries => entries.lookup "kind"
  | .list items => items.head?
  | _ => none

/-- A mention is spoilt at a span of its kind: the extent, and the head of an entity mention. -/
def SpoiltBy (start stop : Nat) : Change := fun v w =>
  (kind? v.toDatum = some (.text "entity") ∧
    InRecord ["kind", "id", "entity_id", "extent", "head", "role"]
      [("extent", Span.SpoiltBy start stop), ("head", Span.SpoiltBy start stop)] v w) ∨
  (kind? v.toDatum = some (.text "filler") ∧
    InRecord ["kind", "id", "extent", "role"] [("extent", Span.SpoiltBy start stop)] v w)

end GoldMention

/-- An inventory is spoilt in one of its mentions. -/
def Inventory.SpoiltBy (start stop : Nat) : Change :=
  InRecord ["mentions"] [("mentions", InItem (GoldMention.SpoiltBy start stop))]

section Gold

variable (ofArgument : Nat → Nat → Change) (start stop : Nat)

/-- An event mention is spoilt at its trigger or in one of its arguments. -/
def EventMention.SpoiltBy : Change :=
  InRecord ["id", "event_type", "trigger", "arguments"]
    [("trigger", Span.SpoiltBy start stop), ("arguments", InItem (ofArgument start stop))]

/-- An event is spoilt in one of its mentions. -/
def Event.SpoiltBy : Change :=
  InRecord ["id", "mentions"] [("mentions", InItem (EventMention.SpoiltBy ofArgument start stop))]

/-- A gold document is spoilt in one of its events. -/
def GoldDocument.SpoiltBy : Change :=
  InRecord ["doc_id", "events"] [("events", InItem (Event.SpoiltBy ofArgument start stop))]

end Gold

/-- A token is spoilt at its span. -/
def Token.SpoiltBy (start stop : Nat) : Change :=
  InRecord ["text", "span"] [("span", Span.SpoiltBy start stop)]

namespace Node

/-- A node is spoilt so many levels down: at its own span or token, or in one of its children. -/
def SpoiltAt (start stop : Nat) : Nat → Change
  | 0 => InRecord ["label", "span", "children", "head_child", "token"]
      [("span", Span.SpoiltBy start stop), ("token", Token.SpoiltBy start stop)]
  | depth + 1 => InRecord ["label", "span", "children", "head_child", "token"]
      [("children", InItem (SpoiltAt start stop depth))]

/-- A node is spoilt at some level. -/
def SpoiltBy (start stop : Nat) : Change := fun v w => ∃ depth, SpoiltAt start stop depth v w

end Node

/-- A parsed document is spoilt in the root of one of its sentences. -/
def ParsedDocument.SpoiltBy (start stop : Nat) : Change :=
  InRecord ["doc_id", "sentences"]
    [("sentences", InItem (InRecord ["root"] [("root", Node.SpoiltBy start stop)]))]

/-- The fault of a span with its ends swapped. -/
def Span.swapped (start stop : Nat) : Fault := { cause := .invalidSpan start stop }

namespace Json

variable {start stop : Nat} {v w : Json}

/-- A span with its ends swapped is refused for them. -/
theorem spoilt_span_eq_error (h : Span.SpoiltBy start stop v w) :
    Span.ofDatum .json w.toDatum = .error (Span.swapped start stop) := by
  obtain ⟨hlt, text, hread⟩ := h
  have hvalidate : Span.validate (start, stop, text) = .error (Span.swapped start stop) :=
    dif_neg (Nat.not_le.mpr hlt)
  rw [Span.ofDatum, hread]
  exact hvalidate

/-- The record of two offsets in the wrong order is a spoilt span, whatever stood there before. -/
theorem spoilt_offsets (hlt : stop < start) (hbound : start < Text.offsetBound) (v : Json) :
    Span.SpoiltBy start stop v (.object [("start", .natural start), ("end", .natural stop)]) := by
  have hstart : Shows Datum.toNatural (.natural start) start := .natural hbound
  have hstop : Shows Datum.toNatural (.natural stop) stop := .natural (Nat.lt_trans hlt hbound)
  have hrecord : Shows (Datum.toRecord "SpanRepr" Span.reader)
      (.record none [("start", .natural start), ("end", .natural stop)]) (start, stop, none) :=
    .record ["start", "end", "text"] rfl (by decide) (by simp)
      ((((hstart.finds rfl).map _).seq (hstop.finds rfl)).seq (.of_missing rfl rfl))
  exact ⟨hlt, none, hrecord⟩

/-- Nothing that spoils a span is read. -/
theorem refused_span (h : Span.SpoiltBy start stop v w) :
    Refused Span.ofDatum (Span.swapped start stop) v.toDatum w.toDatum :=
  refused_of_error (spoilt_span_eq_error h)

/-- A spoilt span is also refused where there may be none. -/
theorem refused_optionalSpan (h : Span.SpoiltBy start stop v w) :
    Refused (Datum.toOption Span.ofDatum) (Span.swapped start stop) v.toDatum w.toDatum := by
  have herror := spoilt_span_eq_error h
  have hw : w ≠ null := by
    intro heq
    rw [heq] at herror
    cases herror
  refine refused_of_error ?_
  rw [toOption_toDatum hw, herror]
  rfl

/-- A spoilt span refuses the text that it belongs to. -/
theorem refused_anchoredText (h : AnchoredText.SpoiltBy start stop v w) :
    Refused AnchoredText.ofDatum (Span.swapped start stop) v.toDatum w.toDatum :=
  h.refused rfl (.cons (by decide) (fun _ _ h => (refused_span h).at (by simp)) .nil)

instance : Response.reader.Lawful := by unfold Response.reader; infer_instance

/-- A response is refused for each of its spans. -/
theorem refused_response (h : Response.SpoiltBy start stop v w) :
    Refused Response.ofDatum (Span.swapped start stop) v.toDatum w.toDatum := by
  refine h.refused rfl
    (.cons (by decide) (fun _ _ h => (refused_anchoredText h).at ?_)
    (.cons (by decide) (fun _ _ h => (refused_span h).at ?_)
    (.cons (by decide) (fun _ _ h => (h.refused fun _ _ => refused_span).at ?_)
    (.cons (by decide) (fun _ _ h => (h.refused fun _ _ => refused_span).at ?_) .nil))))
  all_goals simp [Response.reader]

instance : RawMention.reader.Lawful := by unfold RawMention.reader; infer_instance

/-- A record of an argument is refused for its extent and for its head. -/
theorem refused_rawMention (h : RawMention.SpoiltBy start stop v w) :
    Refused RawMention.ofDatum (Span.swapped start stop) v.toDatum w.toDatum := by
  refine h.refused rfl
    (.cons (by decide) (fun _ _ h => (refused_span h).at ?_)
    (.cons (by decide) (fun _ _ h => (refused_optionalSpan h).at ?_) .nil))
  all_goals simp [RawMention.reader]

section GoldMention

/-- The kind in an object is the last value of that name. -/
theorem kind?_object (entries : List (String × Json)) :
    GoldMention.kind? (object entries).toDatum = (entries.reverse.lookup "kind").map toDatum := by
  rw [toDatum_object, GoldMention.kind?, Entries.lookup_ofList, ← List.map_reverse,
    Entries.lookup_map_snd]

variable {kind name : String} {reader : FieldReader Datum GoldMention} [reader.Lawful]
  {fault : Fault} {d d' : Datum}

/-- A mention is refused for one of its entries besides the kind. -/
theorem refused_goldMention_record {before after : List (String × Datum)}
    (hkind : GoldMention.kindReaders.lookup kind = some reader) (hname : name ∈ reader.names)
    (hfresh : "kind" ∉ reader.names)
    (hentries : (before ++ (name, d) :: after).lookup "kind" = some (.text kind))
    (h : RefusedAt reader name fault d d') :
    Refused GoldMention.ofDatum fault (.record none (before ++ (name, d) :: after))
      (.record none (before ++ (name, d') :: after)) := by
  have hne : name ≠ "kind" := fun heq => hfresh (heq ▸ hname)
  have hentry (x : Datum) : (before ++ (name, x) :: after).lookup "kind" = some (.text kind) := by
    rw [← hentries, List.lookup_append, List.lookup_append, List.lookup_cons, List.lookup_cons,
      beq_false_of_ne hne.symm]
  have hread (x : Datum) : GoldMention.ofDatum .json (.record none (before ++ (name, x) :: after)) =
      reader.run .json (Datum.passOver .json) ⟨before.filter (·.1 != "kind") ++
        (name, x) :: after.filter (·.1 != "kind"), false, false⟩ := by
    rw [goldMention_ofDatum_record (hentry x) hkind, List.filter_append,
      List.filter_cons_of_pos (by simpa using hne)]
  intro hok
  simp only [hread] at hok ⊢
  exact FieldReader.run_eq_error_of_either hname h hok

/-- A list that stands for a mention is refused for one of its items behind the kind. -/
theorem refused_goldMention_list {before : List Datum}
    (hkind : GoldMention.kindReaders.lookup kind = some reader)
    (hplace : reader.names[before.length]? = some name) (h : RefusedAt reader name fault d d')
    (after : List Datum) :
    Refused GoldMention.ofDatum fault (.list (.text kind :: before ++ d :: after))
      (.list (.text kind :: before ++ d' :: after)) := by
  have hread (x : Datum) : GoldMention.ofDatum .json (.list (.text kind :: before ++ x :: after)) =
      Datum.toRecord "GoldMention" reader .json (.list (before ++ x :: after)) :=
    ofKind_text _ hkind
  intro hok
  simp only [hread] at hok ⊢
  exact h.list hplace after hok

/-- A mention is refused for one of the fields of its kind. -/
theorem refused_goldMention_of_kind {fields : List (String × Change)} {names : List String}
    (hkind : GoldMention.kindReaders.lookup kind = some reader) (hreader : reader.names = names)
    (hfresh : "kind" ∉ names)
    (hfields : RefusedFields reader id names fault fields)
    (hv : GoldMention.kind? v.toDatum = some (.text kind))
    (h : InRecord ("kind" :: names) fields v w) :
    Refused GoldMention.ofDatum fault v.toDatum w.toDatum := by
  obtain ⟨field, hmem, hchange⟩ := h
  obtain ⟨hname, hrefused⟩ := hfields field hmem
  subst hreader
  obtain ⟨x, y, hxy, ⟨before, after, hx, hy⟩ | ⟨before, after, hplace, hx, hy⟩⟩ :=
    hchange.exists_data
  · rw [hx] at hv
    rw [hx, hy]
    exact refused_goldMention_record hkind hname hfresh hv (hrefused x y hxy)
  · rw [hx] at hv
    rw [hx, hy]
    cases before with
    | nil =>
        -- the first item is the kind, which is no field of its own reader
        have hsame : "kind" = field.1 := Option.some.inj hplace
        exact absurd (hsame ▸ hname) hfresh
    | cons first before =>
        obtain rfl : first = .text kind := Option.some.inj hv
        exact refused_goldMention_list hkind hplace (hrefused x y hxy) after

instance : GoldMention.entityReader.Lawful := by unfold GoldMention.entityReader; infer_instance

instance : GoldMention.fillerReader.Lawful := by unfold GoldMention.fillerReader; infer_instance

/-- A mention is refused for each of the spans that its kind has. -/
theorem refused_goldMention (h : GoldMention.SpoiltBy start stop v w) :
    Refused GoldMention.ofDatum (Span.swapped start stop) v.toDatum w.toDatum := by
  rcases h with ⟨hkind, h⟩ | ⟨hkind, h⟩
  · have hreader : GoldMention.kindReaders.lookup "entity" = some GoldMention.entityReader := rfl
    refine refused_goldMention_of_kind hreader rfl (by decide)
      (.cons (by decide) (fun _ _ h => (refused_span h).at ?_)
      (.cons (by decide) (fun _ _ h => (refused_optionalSpan h).at ?_) .nil)) hkind h
    all_goals simp [GoldMention.entityReader]
  · have hreader : GoldMention.kindReaders.lookup "filler" = some GoldMention.fillerReader := rfl
    refine refused_goldMention_of_kind hreader rfl (by decide)
      (.cons (by decide) (fun _ _ h => (refused_span h).at ?_) .nil) hkind h
    simp [GoldMention.fillerReader]

end GoldMention

/-- An inventory is refused for one of its mentions. -/
theorem refused_inventory (h : Inventory.SpoiltBy start stop v w) :
    Refused Inventory.ofDatum (Span.swapped start stop) v.toDatum w.toDatum :=
  h.refused rfl
    (.cons (by decide) (fun _ _ h => (h.refused fun _ _ => refused_goldMention).at (by simp)) .nil)

section Gold

variable {α : Type} {read : Decoder α} {ofArgument : Nat → Nat → Change}

/-- An event mention is refused for its trigger, and for its arguments if these are. -/
theorem refused_eventMention
    (hargument : ∀ v w, ofArgument start stop v w →
      Refused read (Span.swapped start stop) v.toDatum w.toDatum)
    (h : EventMention.SpoiltBy ofArgument start stop v w) :
    Refused (EventMention.ofDatum read) (Span.swapped start stop) v.toDatum w.toDatum :=
  h.refused rfl
    (.cons (by decide) (fun _ _ h => (refused_optionalSpan h).at (by simp))
    (.cons (by decide) (fun _ _ h => (h.refused hargument).at (by simp)) .nil))

/-- An event is refused for one of its mentions. -/
theorem refused_event
    (hargument : ∀ v w, ofArgument start stop v w →
      Refused read (Span.swapped start stop) v.toDatum w.toDatum)
    (h : Event.SpoiltBy ofArgument start stop v w) :
    Refused (Event.ofDatum read) (Span.swapped start stop) v.toDatum w.toDatum :=
  h.refused rfl (.cons (by decide)
    (fun _ _ h => (h.refused fun _ _ => refused_eventMention hargument).at (by simp)) .nil)

/-- A document is refused for one of its spans if its arguments are, whichever type they have. -/
theorem refused_goldDocument
    (hargument : ∀ v w, ofArgument start stop v w →
      Refused read (Span.swapped start stop) v.toDatum w.toDatum)
    (h : GoldDocument.SpoiltBy ofArgument start stop v w) :
    Refused (GoldDocument.ofDatum read) (Span.swapped start stop) v.toDatum w.toDatum :=
  h.refused rfl (.cons (by decide)
    (fun _ _ h => (h.refused fun _ _ => refused_event hargument).at (by simp)) .nil)

end Gold

section Trees

/-- A token is refused for its span. -/
theorem refused_token (h : Token.SpoiltBy start stop v w) :
    Refused Token.ofDatum (Span.swapped start stop) v.toDatum w.toDatum :=
  h.refused rfl (.cons (by decide) (fun _ _ h => (refused_span h).at (by simp)) .nil)

instance : Node.reader.Lawful := by unfold Node.reader; infer_instance

/-- A datum with the nodes that it holds if it is a list of children. -/
def nodeEntry (d : Datum) : Node.Entry := (d, Node.childrenOf .json d)

/-- Whether the children of an entry are read matters under one name only. -/
theorem judge_nodeEntry (name : String) (d : Datum) :
    Node.reader.judge .json name
        (d, if name = "children" then Node.childrenOf .json d else .ok []) =
      Node.reader.judge .json name (nodeEntry d) := by
  by_cases h : name = "children" <;> simp [Node.reader, nodeEntry, h]

/-- A node is refused for one of its entries. -/
theorem refused_node_record {name : String} {fault : Fault} {d d' : Datum}
    (hname : name ∈ Node.reader.names)
    (h : RefusedAt Node.reader name fault (nodeEntry d) (nodeEntry d'))
    (before after : List (String × Datum)) :
    Refused Node.ofDatum fault (.record none (before ++ (name, d) :: after))
      (.record none (before ++ (name, d') :: after)) := by
  have hread (x : Datum) : Node.ofDatum .json (.record none (before ++ (name, x) :: after)) =
      Node.ofFields .json ⟨Node.ofEntries .json before ++
        (name, x, if name = "children" then Node.childrenOf .json x else .ok []) ::
          Node.ofEntries .json after, false, false⟩ := by
    have hentries : Node.ofEntries .json (before ++ (name, x) :: after) =
        Node.ofEntries .json before ++
          (name, x, if name = "children" then Node.childrenOf .json x else .ok []) ::
            Node.ofEntries .json after := by
      simp only [Node.ofEntries_eq_map, List.map_append, List.map_cons]
    rw [Node.ofDatum, ← hentries]
    rfl
  intro hok
  simp only [hread] at hok ⊢
  refine FieldReader.run_eq_error_of_either hname ?_ hok
  rw [judge_nodeEntry, judge_nodeEntry]
  exact h

/-- A list that stands for a node is refused for one of its items. -/
theorem refused_node_list {name : String} {fault : Fault} {d d' : Datum} {before : List Datum}
    (hplace : Node.reader.names[before.length]? = some name)
    (h : RefusedAt Node.reader name fault (nodeEntry d) (nodeEntry d'))
    (after : List Datum) :
    Refused Node.ofDatum fault (.list (before ++ d :: after)) (.list (before ++ d' :: after)) := by
  have hplace' : Node.reader.names[(Node.ofItems .json before).length]? = some name := by
    rwa [Node.ofItems_eq_map, List.length_map]
  obtain ⟨before', after', surplus, hfields⟩ :=
    exists_fieldsOfList_eq (Node.ofItems .json before) (Node.ofItems .json after) hplace'
  have hread (x : Datum) : Node.ofDatum .json (.list (before ++ x :: after)) =
      Node.ofFields .json ⟨before' ++ (name, nodeEntry x) :: after', true, surplus⟩ := by
    have hitems : Node.ofItems .json (before ++ x :: after) =
        Node.ofItems .json before ++ nodeEntry x :: Node.ofItems .json after := by
      simp only [Node.ofItems_eq_map, List.map_append, List.map_cons, nodeEntry]
    rw [Node.ofDatum]
    simp only [hitems, hfields]
  intro hok
  simp only [hread] at hok ⊢
  exact FieldReader.run_eq_error_of_either (List.mem_of_getElem? hplace) h hok

/-- A node is refused for one of its fields. -/
theorem refused_node_of_field {fault : Fault} {fields : List (String × Change)}
    {names : List String} (h : InRecord names fields v w) (hreader : Node.reader.names = names)
    (hfields : RefusedFields Node.reader nodeEntry names fault fields) :
    Refused Node.ofDatum fault v.toDatum w.toDatum := by
  obtain ⟨field, hmem, hchange⟩ := h
  obtain ⟨hname, hrefused⟩ := hfields field hmem
  subst hreader
  obtain ⟨x, y, hxy, ⟨before, after, hx, hy⟩ | ⟨before, after, hplace, hx, hy⟩⟩ :=
    hchange.exists_data
  · rw [hx, hy]
    exact refused_node_record hname (hrefused x y hxy) before after
  · rw [hx, hy]
    exact refused_node_list hplace (hrefused x y hxy) after

/-- The children of a node are read like any list. -/
theorem childrenOf_toDatum (j : Json) :
    Node.childrenOf .json j.toDatum = Datum.toList Node.ofDatum .json j.toDatum := by
  cases j with
  | array items => rw [toDatum_array, Node.childrenOf_list]
  | object entries =>
      rw [toDatum_object]
      rfl
  | _ => rfl

/-- **A node is refused for a span at any depth.** -/
theorem refused_node {depth : Nat} (h : Node.SpoiltAt start stop depth v w) :
    Refused Node.ofDatum (Span.swapped start stop) v.toDatum w.toDatum := by
  induction depth generalizing v w with
  | zero =>
      refine refused_node_of_field h rfl
        (.cons (by decide) (fun _ _ h => (refused_span h).atEntry nodeEntry fun d => ?_)
        (.cons (by decide) (fun _ _ h => ?_) .nil))
      · simp [Node.reader, nodeEntry]
      · obtain ⟨hv, hw⟩ := InRecord.ne_null h
        refine ((refused_token h).ofOption hv hw).atEntry nodeEntry fun d => ?_
        simp [Node.reader, nodeEntry]
  | succ depth ih =>
      refine refused_node_of_field h rfl (.cons (by decide) (fun v w h => ?_) .nil)
      have hlist := h.refused fun _ _ => ih
      have hchildren : Refused Node.childrenOf (Span.swapped start stop) v.toDatum w.toDatum := by
        simpa only [Refused, childrenOf_toDatum] using hlist
      refine hchildren.atEntry nodeEntry fun d => ?_
      simp [Node.reader, nodeEntry]

/-- A sentence is refused for a node at any depth. -/
theorem refused_sentence (h : InRecord ["root"] [("root", Node.SpoiltBy start stop)] v w) :
    Refused ParsedDocument.sentenceOfDatum (Span.swapped start stop) v.toDatum w.toDatum :=
  h.refused rfl (.cons (by decide) (fun _ _ ⟨_, h⟩ => (refused_node h).at (by simp)) .nil)

/-- A parsed document is refused for one of its sentences. -/
theorem refused_parsedDocument (h : ParsedDocument.SpoiltBy start stop v w) :
    Refused ParsedDocument.ofDatum (Span.swapped start stop) v.toDatum w.toDatum :=
  h.refused rfl
    (.cons (by decide) (fun _ _ h => (h.refused fun _ _ => refused_sentence).at (by simp)) .nil)

end Trees

end Json

end MentionAlign
