import ClassDiagram.CommandLine
import ClassDiagram.Diagram.Basic
import ClassDiagram.Diagram.Rules
import ClassDiagram.Diagram.Written
import ClassDiagram.Digest.Md5
import ClassDiagram.Draft
import ClassDiagram.Dump.Report
import ClassDiagram.Dump.Settings
import ClassDiagram.Fuzz.Command
import ClassDiagram.Fuzz.Corpus
import ClassDiagram.Fuzz.Draws
import ClassDiagram.Fuzz.Generate
import ClassDiagram.Fuzz.Mutate
import ClassDiagram.Fuzz.Pieces
import ClassDiagram.Fuzz.Session
import ClassDiagram.Fuzz.Sketch
import ClassDiagram.Fuzz.Verdict
import ClassDiagram.Grammar.Document
import ClassDiagram.Grammar.Lexeme
import ClassDiagram.Grammar.Rejection
import ClassDiagram.Grammar.State
import ClassDiagram.Grammar.Terminal
import ClassDiagram.Main
import ClassDiagram.Proofs.Agreement
import ClassDiagram.Proofs.Automaton.Body
import ClassDiagram.Proofs.Automaton.Completeness
import ClassDiagram.Proofs.Automaton.Productions
import ClassDiagram.Proofs.Automaton.Soundness
import ClassDiagram.Proofs.Automaton.Steps
import ClassDiagram.Proofs.Automaton.Viability
import ClassDiagram.Proofs.Calls
import ClassDiagram.Proofs.Denotation
import ClassDiagram.Proofs.Descent.Acceptance
import ClassDiagram.Proofs.Descent.Account
import ClassDiagram.Proofs.Descent.Blame
import ClassDiagram.Proofs.Descent.Completeness
import ClassDiagram.Proofs.Descent.Passage
import ClassDiagram.Proofs.Descent.Sight
import ClassDiagram.Proofs.Descent.Soundness
import ClassDiagram.Proofs.ErrorPlaces
import ClassDiagram.Proofs.Forgetting
import ClassDiagram.Proofs.Formats.Hexadecimal
import ClassDiagram.Proofs.Formats.Textual
import ClassDiagram.Proofs.Json.Grammar
import ClassDiagram.Proofs.Json.Layout
import ClassDiagram.Proofs.Json.Reader
import ClassDiagram.Proofs.Json.RoundTrip
import ClassDiagram.Proofs.Lexing.Apart
import ClassDiagram.Proofs.Lexing.Munch
import ClassDiagram.Proofs.Lexing.Order
import ClassDiagram.Proofs.Lexing.Run
import ClassDiagram.Proofs.Lexing.Scan
import ClassDiagram.Proofs.Lexing.Spaced
import ClassDiagram.Proofs.Lexing.Spelling
import ClassDiagram.Proofs.Lexing.Symbol
import ClassDiagram.Proofs.Lexing.Trail
import ClassDiagram.Proofs.MaximalMunch
import ClassDiagram.Proofs.Phrase
import ClassDiagram.Proofs.Readers
import ClassDiagram.Proofs.Reports
import ClassDiagram.Proofs.ScannerCalls
import ClassDiagram.Proofs.Trees.Linear
import ClassDiagram.Proofs.Trees.Moved
import ClassDiagram.Proofs.Trees.Recovery
import ClassDiagram.Proofs.Trees.Thinning
import ClassDiagram.Proofs.Trees.Unplaced
import ClassDiagram.Proofs.Trees.WellFormed
import ClassDiagram.Proofs.Yaml.Ordinary
import ClassDiagram.Proofs.Yaml.Reader
import ClassDiagram.Proofs.Yaml.RoundTrip
import ClassDiagram.Proofs.Yaml.Scalars
import ClassDiagram.Proofs.Yaml.Steps
import ClassDiagram.Reader
import ClassDiagram.Record.Json
import ClassDiagram.Record.Shape
import ClassDiagram.Record.Value
import ClassDiagram.Storage.Fault
import ClassDiagram.Storage.Load
import ClassDiagram.Storage.Path
import ClassDiagram.Storage.Tree
import ClassDiagram.Text.Alphanumeric
import ClassDiagram.Text.Binary
import ClassDiagram.Text.Blank
import ClassDiagram.Text.CodeRange
import ClassDiagram.Text.Decimal
import ClassDiagram.Text.Digits
import ClassDiagram.Text.Encoding
import ClassDiagram.Text.Fixed
import ClassDiagram.Text.Hex
import ClassDiagram.Text.Newline
import ClassDiagram.Text.Numeral
import ClassDiagram.Text.Pattern
import ClassDiagram.Text.Place
import ClassDiagram.Text.Printable
import ClassDiagram.Text.Quoted
import ClassDiagram.Text.Raised
import ClassDiagram.Text.Shortest
import ClassDiagram.Text.Utf8
import ClassDiagram.Token.Basic
import ClassDiagram.Token.Cursor
import ClassDiagram.Token.Label
import ClassDiagram.Token.Layout
import ClassDiagram.Token.Operator
import ClassDiagram.Token.Rule
import ClassDiagram.Token.Scanner
import ClassDiagram.Yaml.Block
import ClassDiagram.Yaml.Implicit
import ClassDiagram.Yaml.Scalar
import ClassDiagram.Proofs.Composition
import ClassDiagram.Proofs.Relayout
import ClassDiagram.Proofs.Lexing.Spelled
import ClassDiagram.Proofs.Trees.Written
import ClassDiagram.Proofs.Fuzz.Sketches
import ClassDiagram.Proofs.Fuzz.Yields
import ClassDiagram.Proofs.Fuzz.Documents
import ClassDiagram.Proofs.Fuzz.Edits
import ClassDiagram.Proofs.Fuzz.Inputs
import ClassDiagram.Proofs.Fuzz.FileNames
import ClassDiagram.Proofs.Fuzz.Tests
import ClassDiagram.Proofs.Fuzz.Books
import ClassDiagram.Proofs.Fuzz.Runs
import ClassDiagram.Proofs.Trees.Declarations
import ClassDiagram.Proofs.Descent.Placement
import ClassDiagram.Proofs.Displacement
import ClassDiagram.Proofs.Positions
import ClassDiagram.Proofs.Lexing.Returns
import ClassDiagram.Proofs.LineEnds
import ClassDiagram.Proofs.Formats.Sameness
import ClassDiagram.Proofs.Records
import ClassDiagram.Proofs.Drafts
import ClassDiagram.Proofs.LineStarts
import ClassDiagram.Proofs.Suggestions
import ClassDiagram.Proofs.Lexing.Escapes
import ClassDiagram.Proofs.Fuzz.Lexemes
import ClassDiagram.Proofs.Fuzz.Deadlines
