import SourcePrinter.Text.Writer
import SourcePrinter.Text.Quoted
import SourcePrinter.Text.Lines
import SourcePrinter.Number.Shortest
import SourcePrinter.Name.Resolve
import SourcePrinter.Syntax.Size
import SourcePrinter.Syntax.Same
import SourcePrinter.Syntax.View
import SourcePrinter.Doc.Run
import SourcePrinter.Language.Document
import SourcePrinter.Language.CSharp
import SourcePrinter.Language.Swift
import SourcePrinter.Language.Custom
import SourcePrinter.Session
import SourcePrinter.Script
import SourcePrinter.Script.Machine
import SourcePrinter.Proofs.Events
import SourcePrinter.Proofs.Descent
import SourcePrinter.Proofs.Dialect
import SourcePrinter.Proofs.Faults
import SourcePrinter.Proofs.Nesting
import SourcePrinter.Proofs.Places
import SourcePrinter.Proofs.Policy
import SourcePrinter.Proofs.Depth
import SourcePrinter.Proofs.Complete
import SourcePrinter.Proofs.Ink
import SourcePrinter.Proofs.Signature
import SourcePrinter.Proofs.Shift
import SourcePrinter.Proofs.Bookkeeping
import SourcePrinter.Proofs.Names
import SourcePrinter.Proofs.Pieces
import SourcePrinter.Proofs.Alone
import SourcePrinter.Proofs.Bodies
import SourcePrinter.Proofs.Requirements
import SourcePrinter.Proofs.Reading
import SourcePrinter.Proofs.Closing.Context
import SourcePrinter.Proofs.Closing.Brace
import SourcePrinter.Proofs.Closing.CSharp
import SourcePrinter.Proofs.Closing.Swift
import SourcePrinter.Proofs.Closing.Dialect
import SourcePrinter.Proofs.Constructs
import SourcePrinter.Proofs.Constructs.CSharp
import SourcePrinter.Proofs.Constructs.Dialect
import SourcePrinter.Proofs.Brackets
import SourcePrinter.Proofs.Directives
import SourcePrinter.Proofs.Guards
import SourcePrinter.Proofs.Surroundings
import SourcePrinter.Proofs.Views
import SourcePrinter.Proofs.Marks
import SourcePrinter.Proofs.Literals
import SourcePrinter.Proofs.Lists
import SourcePrinter.Proofs.OneLine
import SourcePrinter.Proofs.OneLine.Context
import SourcePrinter.Proofs.OneLine.CSharp
import SourcePrinter.Proofs.OneLine.Swift
import SourcePrinter.Proofs.OneLine.Dialect
import SourcePrinter.Proofs.Quotes
import SourcePrinter.Proofs.Standalone
import SourcePrinter.Proofs.Integers
import SourcePrinter.Proofs.Release
import SourcePrinter.Proofs.Suspended
import SourcePrinter.Proofs.Transparent
import SourcePrinter.Proofs.Unseen
import SourcePrinter.Proofs.Margins
import SourcePrinter.Proofs.Comments
import SourcePrinter.Proofs.Conditions
import SourcePrinter.Proofs.Leads
import SourcePrinter.Proofs.Openings
import SourcePrinter.Proofs.Signs
import SourcePrinter.Proofs.Defaults
import SourcePrinter.Proofs.Seams
import SourcePrinter.Proofs.Separators
import SourcePrinter.Proofs.Operations
import SourcePrinter.Proofs.LineStarts
import SourcePrinter.Proofs.Machine.Exact
import SourcePrinter.Proofs.Machine.Runs
import SourcePrinter.Proofs.Machine.Steps
import SourcePrinter.Proofs.Machine.Range
import SourcePrinter.Proofs.Machine.Bookkeeping
import SourcePrinter.Proofs.Machine.Layout
import SourcePrinter.Proofs.Machine.Faults
import SourcePrinter.Proofs.Machine.Lists
