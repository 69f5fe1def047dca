import MentionAlign.Alignment
import MentionAlign.Cascade.Aligner
import MentionAlign.Cascade.Strategy
import MentionAlign.Data.Codec
import MentionAlign.Data.Datum
import MentionAlign.Data.Fault
import MentionAlign.Data.Fields
import MentionAlign.Data.Json
import MentionAlign.Data.Ron
import MentionAlign.Data.Ron.Lexer
import MentionAlign.Data.Ron.Reader
import MentionAlign.Data.Ron.Token
import MentionAlign.Data.Ron.Writer
import MentionAlign.Data.Structured
import MentionAlign.Data.Toml
import MentionAlign.Data.Toml.Attempt
import MentionAlign.Data.Toml.Calendar
import MentionAlign.Data.Toml.Lexer
import MentionAlign.Data.Toml.Scalar
import MentionAlign.Data.Toml.Statement
import MentionAlign.Data.Toml.Table
import MentionAlign.Data.Toml.Token
import MentionAlign.Entries
import MentionAlign.Fixture.Basic
import MentionAlign.Fixture.Case
import MentionAlign.Fixture.Check
import MentionAlign.Fixture.Run
import MentionAlign.Gold
import MentionAlign.Gold.Notation
import MentionAlign.Head
import MentionAlign.InputError
import MentionAlign.LogRecord
import MentionAlign.Mention.Basic
import MentionAlign.Mention.Inventory
import MentionAlign.Predicate
import MentionAlign.Response.Basic
import MentionAlign.Role
import MentionAlign.Span.Basic
import MentionAlign.Span.Text
import MentionAlign.Structured.Cascade
import MentionAlign.Structured.Fixture
import MentionAlign.Structured.Gold
import MentionAlign.Structured.Ledger
import MentionAlign.Structured.Mention
import MentionAlign.Structured.Response
import MentionAlign.Structured.Span
import MentionAlign.Structured.Tree
import MentionAlign.Suite.Folder
import MentionAlign.Suite.Ledger
import MentionAlign.Suite.Report
import MentionAlign.Suite.Run
import MentionAlign.Suite.Totals
import MentionAlign.Text.Blank
import MentionAlign.Text.Combining
import MentionAlign.Text.Decimal
import MentionAlign.Text.Digits
import MentionAlign.Text.Lossy
import MentionAlign.Text.Printable
import MentionAlign.Text.Quoted
import MentionAlign.Text.Split
import MentionAlign.Tree.Bracketed
import MentionAlign.Tree.Document
import MentionAlign.Tree.Error
import MentionAlign.Tree.Lexeme
import MentionAlign.Tree.Node
import MentionAlign.View
import MentionAlign.Proofs.Span.Row
import MentionAlign.Proofs.Tree.Spelling
import MentionAlign.Proofs.Tree.Derivation
import MentionAlign.Proofs.Tree.Placement
import MentionAlign.Proofs.Tree.Document
import MentionAlign.Proofs.Tree.HeadSearch
import MentionAlign.Proofs.Tree.Geometry
import MentionAlign.Proofs.Tree.Construction
import MentionAlign.Proofs.Tree.Pruning
import MentionAlign.Proofs.Tree.Descent
import MentionAlign.Proofs.Tree.Lexing
import MentionAlign.Proofs.Tree.Refusal
import MentionAlign.Proofs.Head.Oracles
import MentionAlign.Proofs.Cascade.PrioritySearch
import MentionAlign.Proofs.Cascade.Rank
import MentionAlign.Proofs.Cascade.Inventories
import MentionAlign.Proofs.Cascade.Sight
import MentionAlign.Proofs.Cascade.Blocks
import MentionAlign.Proofs.Cascade.Likeness
import MentionAlign.Proofs.Data.Traversal
import MentionAlign.Proofs.Gold.Reading
import MentionAlign.Proofs.Mention.Units
import MentionAlign.Proofs.Cascade.Unmatched
import MentionAlign.Proofs.Text.Numerals
import MentionAlign.Proofs.Text.Offsets
import MentionAlign.Proofs.Text.Trimming
import MentionAlign.Proofs.Text.Joining
import MentionAlign.Proofs.Text.Lossy
import MentionAlign.Proofs.Span.Format
import MentionAlign.Proofs.Span.FirstSeen
import MentionAlign.Proofs.Span.Set
import MentionAlign.Proofs.Ron.Scanning
import MentionAlign.Proofs.Ron.Reading
import MentionAlign.Proofs.Data.Decoding
import MentionAlign.Proofs.Data.Shown
import MentionAlign.Proofs.Ron.Codec
import MentionAlign.Proofs.Structured.Span
import MentionAlign.Proofs.Gold.RoundTrip
import MentionAlign.Proofs.Structured.Tree
import MentionAlign.Proofs.Fixture.Cases
import MentionAlign.Proofs.Fixture.Expectations
import MentionAlign.Proofs.Fixture.GoldData
import MentionAlign.Proofs.Head.Resolution
import MentionAlign.Proofs.Suite.Loading
import MentionAlign.Proofs.Suite.Wording
import MentionAlign.Proofs.Suite.Accounting
import MentionAlign.Proofs.Suite.Discovery
import MentionAlign.Proofs.Cascade.Winner
import MentionAlign.Proofs.Cascade.Relaxation
import MentionAlign.Proofs.Predicate.Inquiry
import MentionAlign.Proofs.Cascade.Records
import MentionAlign.Proofs.Cascade.Layout
import MentionAlign.Proofs.Data.EntryOrder
import MentionAlign.Proofs.Data.FieldFaults
import MentionAlign.Proofs.Json.Reading
import MentionAlign.Proofs.Json.Typed
import MentionAlign.Proofs.Json.Place
import MentionAlign.Proofs.Json.SpanOrder
import MentionAlign.Proofs.Json.RoundTrip
import MentionAlign.Proofs.Response.Identifier
