import MentionAlign.Proofs.Json.SpanOrder

/-!
# JSON shapes round-trip and keep spans valid

For every structured type the same two things hold (`Json.Faithful`).  What is encoded is decoded as
the same value, with the texts of its spans.  And no value of the type comes from JSON in which one
of its spans has its ends swapped: such JSON is not decoded, and if only that span was wrong, the
fault is that span.

The first comes from `Json.Shows` and asks only that numbers fit 64 bits.  The second comes from
`Json.Refused`, for the places that `SpoiltBy` lists for the type; types without spans have none.
-/

namespace MentionAlign

/-- The spans of all mentions of an inventory. -/
def Inventory.spans (inventory : Inventory) : List Span :=
  inventory.mentions.flatMap GoldMention.spans

/-- The spans of a node and of its token; those of its children are not listed. -/
def Node.spans (n : Node) : List Span := n.span :: n.token.toList.map Token.span

/-- The spans of all nodes and tokens of a document. -/
def ParsedDocument.spans (doc : ParsedDocument) : List Span :=
  (Node.nodesAmong doc.sentences).flatMap Node.spans

/-- The head positions that the nodes of a document name. -/
def ParsedDocument.headChildren (doc : ParsedDocument) : List Nat :=
  (Node.nodesAmong doc.sentences).flatMap fun n => n.headChild.toList

/-- The nodes of a document hold what fits 64 bits if its spans and head positions do. -/
theorem ParsedDocument.inRange {doc : ParsedDocument} (hspans : ∀ s ∈ doc.spans, s.InRange)
    (hheads : ∀ n ∈ doc.headChildren, n < Text.offsetBound) :
    ∀ n ∈ Node.nodesAmong doc.sentences, n.InRange := by
  intro n hn
  refine ⟨hspans _ ?_, fun index hindex => hheads index ?_, fun t ht => hspans _ ?_⟩
  · exact List.mem_flatMap.mpr ⟨n, hn, List.mem_cons_self⟩
  · exact List.mem_flatMap.mpr ⟨n, hn, Option.mem_toList.mpr hindex⟩
  · have htoken : t.span ∈ n.token.toList.map Token.span :=
      List.mem_map_of_mem (Option.mem_toList.mpr ht)
    exact List.mem_flatMap.mpr ⟨n, hn, List.mem_cons_of_mem _ htoken⟩

namespace Json

/-- The JSON form of a type with the given spans, and with the given numbers besides these.

Spans are in order in every value of the type; `never_swapped` says that this is not because swapped
ends are put right or dropped while decoding. -/
structure Faithful (α : Type) [Structured α] (spansOf : α → List Span) (numbersOf : α → List Nat)
    (SpoiltBy : Nat → Nat → Change) : Prop where
  /-- A value whose numbers fit 64 bits is given back. -/
  decode_encode : ∀ a : α, (∀ s ∈ spansOf a, s.InRange) →
    (∀ n ∈ numbersOf a, n < Text.offsetBound) → decode (encode a) = .ok a
  /-- What is decoded has its spans in order. -/
  in_order : ∀ (j : Json) (a : α), decode j = .ok a → ∀ s ∈ spansOf a, s.start ≤ s.stop
  /-- JSON with a swapped span is not decoded. -/
  never_swapped : ∀ start stop v w, SpoiltBy start stop v w → ∀ a : α, decode w ≠ .ok a
  /-- If it would be decoded but for that span, the fault names the span. -/
  names_swapped : ∀ start stop v w, SpoiltBy start stop v w → ∀ a : α, decode v = .ok a →
    ∃ fault, (decode w : Except Fault α) = .error fault ∧ fault.message? =
      some ("invalid span: start " ++ toString start ++ " is after end " ++ toString stop)

/-- No place: the places of a type without spans. -/
def nowhere (_ _ : Nat) : Change := fun _ _ => False

/-- A form is faithful if it gives back what fits, and refuses what is spoilt. -/
theorem Faithful.of_refused {α : Type} [Structured α] {spansOf : α → List Span}
    {numbersOf : α → List Nat} {SpoiltBy : Nat → Nat → Change}
    (hshows : ∀ a : α, (∀ s ∈ spansOf a, s.InRange) →
      (∀ n ∈ numbersOf a, n < Text.offsetBound) → Shows Structured.ofDatum (Structured.toDatum a) a)
    (hrefused : ∀ start stop v w, SpoiltBy start stop v w →
      Refused (Structured.ofDatum : Decoder α) (Span.swapped start stop) v.toDatum w.toDatum) :
    Faithful α spansOf numbersOf SpoiltBy where
  decode_encode a hspans hnumbers := (hshows a hspans hnumbers).decode_encode
  in_order _ _ _ s _ := s.start_le_stop
  never_swapped start stop v w h a hw := by
    have herror : (decode w : Except Fault α) = .error (Span.swapped start stop) :=
      hrefused start stop v w h (.inr ⟨a, hw⟩)
    rw [hw] at herror
    cases herror
  names_swapped start stop v w h a hv :=
    ⟨Span.swapped start stop, hrefused start stop v w h (.inl ⟨a, hv⟩), rfl⟩

/-- The form of a type without spans is faithful if it gives back what fits. -/
theorem Faithful.of_shows {α : Type} [Structured α] {numbersOf : α → List Nat}
    (hshows : ∀ a : α, (∀ n ∈ numbersOf a, n < Text.offsetBound) →
      Shows Structured.ofDatum (Structured.toDatum a) a) :
    Faithful α (fun _ => []) numbersOf nowhere :=
  .of_refused (fun a _ => hshows a) fun _ _ _ _ h => h.elim

/-- **The JSON shapes round-trip and keep spans valid**, for every structured type of the aligner
and of its documents. -/
theorem shapes_round_trip_and_keep_spans_valid :
    Faithful Span (fun s => [s]) (fun _ => []) Span.SpoiltBy ∧
    Faithful AnchoredText (fun t => [t.span]) (fun _ => []) AnchoredText.SpoiltBy ∧
    Faithful Response Response.spans (fun _ => []) Response.SpoiltBy ∧
    Faithful RawMention RawMention.spans (fun _ => []) RawMention.SpoiltBy ∧
    Faithful GoldMention GoldMention.spans (fun _ => []) GoldMention.SpoiltBy ∧
    Faithful Inventory Inventory.spans (fun _ => []) Inventory.SpoiltBy ∧
    Faithful RoleTable (fun _ => []) (fun _ => []) nowhere ∧
    Faithful Config (fun _ => []) (fun _ => []) nowhere ∧
    Faithful Alignment (fun _ => []) (fun a => a.strategy?.toList) nowhere ∧
    Faithful (GoldDocument GoldMention) (GoldDocument.spans GoldMention.spans) (fun _ => [])
      (GoldDocument.SpoiltBy GoldMention.SpoiltBy) ∧
    Faithful (GoldDocument RawMention) (GoldDocument.spans RawMention.spans) (fun _ => [])
      (GoldDocument.SpoiltBy RawMention.SpoiltBy) ∧
    Faithful ParsedDocument ParsedDocument.spans ParsedDocument.headChildren
      ParsedDocument.SpoiltBy := by
  refine ⟨.of_refused (fun s hs _ => shows_span (hs s (by simp))) fun _ _ _ _ => refused_span,
    .of_refused (fun t ht _ => shows_anchoredText (ht t.span (by simp)))
      fun _ _ _ _ => refused_anchoredText,
    .of_refused (fun r hr _ => shows_response hr) fun _ _ _ _ => refused_response,
    .of_refused (fun m hm _ => shows_rawMention hm) fun _ _ _ _ => refused_rawMention,
    .of_refused (fun m hm _ => shows_goldMention hm) fun _ _ _ _ => refused_goldMention,
    .of_refused (fun inventory h _ => shows_inventory fun m hm s hs => ?inventory)
      fun _ _ _ _ => refused_inventory,
    .of_shows fun table _ => shows_roleTable table,
    .of_shows fun config _ => shows_config config,
    .of_shows fun a ha => shows_alignment fun index hindex => ?alignment,
    .of_refused (fun doc hdoc _ => shows_goldDocument (fun _ => shows_goldMention) hdoc)
      fun _ _ _ _ => refused_goldDocument fun _ _ => refused_goldMention,
    .of_refused (fun doc hdoc _ => shows_goldDocument (fun _ => shows_rawMention) hdoc)
      fun _ _ _ _ => refused_goldDocument fun _ _ => refused_rawMention,
    .of_refused (fun doc hspans hheads => shows_parsedDocument (doc.inRange hspans hheads))
      fun _ _ _ _ => refused_parsedDocument⟩
  case inventory => exact h s (List.mem_flatMap.mpr ⟨m, hm, hs⟩)
  case alignment => exact ha index (Option.mem_toList.mpr hindex)

/-- A head that an entity mention leaves out, and the span of a token two levels below a document:
both come back as they were, and with swapped ends each of them is named. -/
theorem round_trip_of_missing_head_and_token :
    let span (start stop : Nat) : Json :=
      .object [("start", .natural start), ("end", .natural stop)]
    let m : GoldMention := .entity
      { id := ⟨"m1"⟩, entity := "it's", extent := { start := 71, stop := 79 }, role := "Agent" }
    let mention (head : Json) : Json := .object [
      ("kind", .string "entity"), ("id", .string "m1"), ("entity_id", .string "it's"),
      ("extent", span 71 79), ("head", head), ("role", .string "Agent")]
    let noun : Node := { label := "NN", span := { start := 61, stop := 66 }
                         token := some { text := "Zoë\"", span := { start := 62, stop := 66 } } }
    let root : Node :=
      { label := "N\\P", span := { start := 61, stop := 77, text := some "a\nb" }
        children := [noun], headChild := some 4 }
    let doc : ParsedDocument := { docId := "d", sentences := [root] }
    let leaf (tokenSpan : Json) : Json := .object [
      ("label", .string "NN"), ("span", span 61 66), ("children", .array []), ("head_child", .null),
      ("token", .object [("text", .string "Zoë\""), ("span", tokenSpan)])]
    let tree (tokenSpan : Json) : Json := .object [
      ("label", .string "N\\P"),
      ("span", .object [("start", .natural 61), ("end", .natural 77), ("text", .string "a\nb")]),
      ("children", .array [leaf tokenSpan]), ("head_child", .natural 4), ("token", .null)]
    let parse (tokenSpan : Json) : Json := .object [
      ("doc_id", .string "d"), ("sentences", .array [.object [("root", tree tokenSpan)]])]
    (encode m = mention .null ∧ decode (mention .null) = .ok m ∧
      ∃ fault, (decode (mention (span 79 71)) : Except Fault GoldMention) = .error fault ∧
        fault.message? = some "invalid span: start 79 is after end 71") ∧
    encode doc = parse (span 62 66) ∧ decode (parse (span 62 66)) = .ok doc ∧
      ∃ fault, (decode (parse (span 66 62)) : Except Fault ParsedDocument) = .error fault ∧
        fault.message? = some "invalid span: start 66 is after end 62" := by
  intro span m mention noun root doc leaf tree parse
  obtain ⟨_, _, _, _, hmention, _, _, _, _, _, _, hparse⟩ := shapes_round_trip_and_keep_spans_valid
  have hm : decode (mention .null) = .ok m := by
    refine hmention.decode_encode m ?_ (by simp)
    simp [GoldMention.spans, GoldMention.extent, GoldMention.head?, Span.InRange,
      Text.offsetBound, m]
  have hdoc : decode (parse (span 62 66)) = .ok doc := by
    have hnodes : Node.nodesAmong doc.sentences = [root, noun] := rfl
    refine hparse.decode_encode doc ?_ ?_
    · rw [ParsedDocument.spans, hnodes]
      simp [Node.spans, Span.InRange, Text.offsetBound, root, noun]
    · rw [ParsedDocument.headChildren, hnodes]
      simp [Text.offsetBound, root, noun]
  have hhead : GoldMention.SpoiltBy 79 71 (mention .null) (mention (span 79 71)) := by
    have hkind : GoldMention.kind? (mention .null).toDatum = some (.text "entity") :=
      (kind?_object _).trans rfl
    have hspan := spoilt_offsets (by decide : 71 < 79) (by decide) .null
    exact .inl ⟨hkind, _, List.mem_cons_of_mem _ List.mem_cons_self,
      .named [_, _, _, _] [_] (by simp) hspan⟩
  have hleaf : Node.SpoiltAt 66 62 0 (leaf (span 62 66)) (leaf (span 66 62)) := by
    have hspan := spoilt_offsets (by decide : 62 < 66) (by decide) (span 62 66)
    have htoken : Token.SpoiltBy 66 62 (.object [("text", .string "Zoë\""), ("span", span 62 66)])
        (.object [("text", .string "Zoë\""), ("span", span 66 62)]) :=
      ⟨_, List.mem_cons_self, .named [_] [] (by simp) hspan⟩
    exact ⟨_, List.mem_cons_of_mem _ List.mem_cons_self, .named [_, _, _, _] [] (by simp) htoken⟩
  have htree : Node.SpoiltAt 66 62 1 (tree (span 62 66)) (tree (span 66 62)) :=
    ⟨_, List.mem_cons_self, .named [_, _] [_, _] (by simp) (InItem.item [] [] hleaf)⟩
  have hspoilt : ParsedDocument.SpoiltBy 66 62 (parse (span 62 66)) (parse (span 66 62)) := by
    refine ⟨_, List.mem_cons_self, .named [_] [] (by simp) (InItem.item [] [] ?_)⟩
    exact ⟨_, List.mem_cons_self, .named [] [] (by simp) ⟨1, htree⟩⟩
  exact ⟨⟨rfl, hm, hmention.names_swapped _ _ _ _ hhead _ hm⟩, rfl, hdoc,
    hparse.names_swapped _ _ _ _ hspoilt _ hdoc⟩

end Json

end MentionAlign
