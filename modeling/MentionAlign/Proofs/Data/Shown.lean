import MentionAlign.Data.Codec
import MentionAlign.Proofs.Data.Decoding

/-!
# Typed values and the notations that show them

Typed values are written in few shapes: texts, numbers, truth values, options, lists, and records of
named fields (`Datum.Plain`).  A datum shows a typed value (`Datum.Shows`) if it has these shapes,
if it nests up to a known depth and if it is decoded as the value.  This carries over from texts and
numbers to options, lists and records, so that a type needs one statement about its record.

All that is asked of a notation is one law, `TextCodec.ReadsBack`: the text that is written of data
of these shapes is read as these data.  Then a value that is shown within the depth of the notation
is written, and the text is read as that value (`TextCodec.ReadsBack.decode_encode`).
-/

namespace MentionAlign

namespace Datum

/-- The name can stand for a field: a letter or an underscore, with letters, digits and underscores
behind it. -/
def isName (name : String) : Bool :=
  match name.toList with
  | [] => false
  | c :: cs => (c.isAlpha || c = '_') && cs.all fun c => c.isAlphanum || c = '_'

/-- Structured data of the shapes that typed values are written in: no type names, no record without
entries and nothing that only a reader makes up. -/
inductive Plain : Datum → Prop
  | absent : Plain .absent
  | present {d : Datum} (h : Plain d) : Plain (.present d)
  | boolean (b : Bool) : Plain (.boolean b)
  | natural {n : Nat} (h : n < Text.offsetBound) : Plain (.natural n)
  | text (s : String) : Plain (.text s)
  | list {items : List Datum} (h : ∀ d ∈ items, Plain d) : Plain (.list items)
  | record {entries : List (String × Datum)} (hentries : entries ≠ [])
      (hnames : (entries.map Prod.fst).all isName = true) (h : ∀ e ∈ entries, Plain e.2) :
      Plain (.record none entries)

variable {α : Type} {read : Decoder α} {write : α → Datum} {m n : Nat} {d : Datum} {a : α}

/-- The datum shows the value: it has the shapes of typed values, it nests up to the depth and it is
decoded as the value. -/
structure Shows (read : Decoder α) (depth : Nat) (d : Datum) (a : α) : Prop where
  plain : Plain d
  nesting_le : d.nesting ≤ depth
  decodes : DecodesTo read d a

namespace Shows

theorem text (s : String) : Shows toText 0 (.text s) s where
  plain := .text s
  nesting_le := Nat.le_refl 0
  decodes := decodesTo_text s

theorem natural (hn : n < Text.offsetBound) : Shows toNatural 0 (.natural n) n where
  plain := .natural hn
  nesting_le := Nat.le_refl 0
  decodes := decodesTo_natural hn

/-- An optional value is shown if the value in it is. -/
theorem ofOption {value : Option α} (h : ∀ a ∈ value, Shows read n (write a) a) :
    Shows (toOption read) (n + 1) (.ofOption write value) value where
  plain := match value with
    | none => .absent
    | some a => .present (h a rfl).plain
  nesting_le := nesting_ofOption_le fun a ha => (h a ha).nesting_le
  decodes := decodesTo_ofOption fun a ha => (h a ha).decodes

/-- A list is shown if its items are. -/
theorem ofList {as : List α} (h : ∀ a ∈ as, Shows read n (write a) a) :
    Shows (toList read) (n + 2) (.ofList write as) as where
  plain := .list (List.forall_mem_map.mpr fun a ha => (h a ha).plain)
  nesting_le := nesting_ofList_le fun a ha => (h a ha).nesting_le
  decodes := decodesTo_ofList fun a ha => (h a ha).decodes

/-- A list is shown as deep as it nests if its items are, with no common bound on these. -/
theorem ofListExact {as : List α} (h : ∀ a ∈ as, Shows read (write a).nesting (write a) a) :
    Shows (toList read) (Datum.ofList write as).nesting (.ofList write as) as where
  plain := .list (List.forall_mem_map.mpr fun a ha => (h a ha).plain)
  nesting_le := Nat.le_refl _
  decodes := decodesTo_ofList fun a ha => (h a ha).decodes

/-- A field is found by its name if its value is shown. -/
theorem finds {name : String} {missing : Bool → Except Fault α} {entries : List (String × Datum)}
    (h : Shows read n d a) (hlookup : entries.lookup name = some d) :
    (FieldReader.field name read missing).Finds entries a :=
  FieldReader.finds_field hlookup h.decodes

/-- What a shown value needs around it: room for its depth. -/
theorem fits (h : Shows read m d a) (hmn : m ≤ n) : Plain d ∧ d.nesting ≤ n :=
  ⟨h.plain, Nat.le_trans h.nesting_le hmn⟩

/-- A record is shown as deep as it nests if its fields are found, if its names are names of fields
in their order and if its values have the shapes of typed values. -/
theorem recordExact {type : String} {reader : FieldReader Datum α}
    {entries : List (String × Datum)} (names : List String) (hreader : reader.names = names)
    (hnames : names.Nodup ∧ ∀ name ∈ names, isName name = true)
    (hsublist : (entries.map Prod.fst).Sublist names) (hentries : entries ≠ [])
    (hfinds : reader.Finds entries a) (hplain : ∀ e ∈ entries, Plain e.2) :
    Shows (toRecord type reader) (Datum.record none entries).nesting (.record none entries) a where
  plain := by
    refine .record hentries (List.all_eq_true.mpr fun name hname => ?_) hplain
    exact hnames.2 name (hsublist.subset hname)
  nesting_le := Nat.le_refl _
  decodes := decodesTo_record hentries hfinds (hreader ▸ hsublist) (hreader ▸ hnames.1)

/-- A record is shown two levels deeper than its values. -/
theorem record {type : String} {reader : FieldReader Datum α} {entries : List (String × Datum)}
    (names : List String) (hreader : reader.names = names)
    (hnames : names.Nodup ∧ ∀ name ∈ names, isName name = true)
    (hsublist : (entries.map Prod.fst).Sublist names) (hentries : entries ≠ [])
    (hfinds : reader.Finds entries a) (hparts : ∀ e ∈ entries, Plain e.2 ∧ e.2.nesting ≤ n) :
    Shows (toRecord type reader) (n + 2) (.record none entries) a := by
  obtain ⟨hplain, _, hdecodes⟩ := recordExact names hreader hnames hsublist hentries
    hfinds fun e he => (hparts e he).1
  refine ⟨hplain, nestingWithin_le_iff.mpr ⟨by omega, fun e he => ?_⟩, hdecodes⟩
  exact Nat.add_le_add_right (hparts e he).2 2

end Shows

end Datum

/-- A text is read as the datum: every typed value is read from it as it is decoded from the datum,
in a format with room for the datum. -/
def TextReader.ReadsAs (reader : TextReader) (s : String) (d : Datum) : Prop :=
  ∃ format : Format, format.admits d.nesting = true ∧
    ∀ (α : Type) (decode : Decoder α), reader.read decode s = decode format d

/-- **The law of a notation.**  Writing and reading are inverse on texts, numbers, truth values,
options, lists and records that nest up to the depth. -/
structure TextCodec.ReadsBack (codec : TextCodec) (depth : Nat) : Prop where
  inverse : ∀ d : Datum, d.Plain → d.nesting ≤ depth →
    ∃ s, codec.write? d = some s ∧ codec.ReadsAs s d

/-- **Typed values survive every lawful notation.**  A value that is shown within the depth of the
notation is written, and the text is read as that value. -/
theorem TextCodec.ReadsBack.decode_encode {α : Type} [Structured α] {codec : TextCodec}
    {n depth : Nat} {a : α} (hcodec : codec.ReadsBack depth)
    (hshows : Datum.Shows Structured.ofDatum n (Structured.toDatum a) a) (hroom : n ≤ depth) :
    ∃ s, codec.encode? a = some s ∧ codec.decode s = .ok a := by
  obtain ⟨s, hwrite, format, hformat, hread⟩ :=
    hcodec.inverse _ hshows.plain (Nat.le_trans hshows.nesting_le hroom)
  refine ⟨s, hwrite, ?_⟩
  rw [TextReader.decode, hread, hshows.decodes format hformat]

end MentionAlign
