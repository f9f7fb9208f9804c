import PL0.Binary64.Basic
import PL0.Binary64.Shortest
import PL0.Binary64.Text
import PL0.Code.Emission
import PL0.Code.Instr
import PL0.Code.Listing
import PL0.Code.Lowering
import PL0.CommandLine.Directory
import PL0.CommandLine.Options
import PL0.CommandLine.Run
import PL0.Compile
import PL0.Grammar.Condition
import PL0.Grammar.Cursor
import PL0.Grammar.Expectation
import PL0.Grammar.Expr
import PL0.Grammar.Program
import PL0.Grammar.Recovery
import PL0.Grammar.Stmt
import PL0.Main
import PL0.Position
import PL0.Proofs.Binary64.Nearest
import PL0.Proofs.Binary64.Rounding
import PL0.Proofs.Binary64.Shortest
import PL0.Proofs.Binary64.Text
import PL0.Proofs.Code.Composition
import PL0.Proofs.Code.Constants
import PL0.Proofs.Code.Exits
import PL0.Proofs.Code.Failure
import PL0.Proofs.Code.Fields
import PL0.Proofs.Code.Jumps
import PL0.Proofs.Code.Layout
import PL0.Proofs.Code.Lines
import PL0.Proofs.Code.ListingLines
import PL0.Proofs.Code.Positions
import PL0.Proofs.Code.Registers
import PL0.Proofs.Code.Relocation
import PL0.Proofs.Code.Renumbering
import PL0.Proofs.Code.Shape
import PL0.Proofs.Code.Success
import PL0.Proofs.Code.Totality
import PL0.Proofs.Code.TypedLowering
import PL0.Proofs.Code.Typing
import PL0.Proofs.Code.Unambiguity
import PL0.Proofs.Compile
import PL0.Proofs.Grammar.Brevity
import PL0.Proofs.Grammar.Chains
import PL0.Proofs.Grammar.Conditions
import PL0.Proofs.Grammar.Contents
import PL0.Proofs.Grammar.Declarations
import PL0.Proofs.Grammar.Expressions
import PL0.Proofs.Grammar.Programs
import PL0.Proofs.Grammar.Reading
import PL0.Proofs.Grammar.Recovering
import PL0.Proofs.Grammar.RoundTrip
import PL0.Proofs.Grammar.Rules
import PL0.Proofs.Grammar.Spelling
import PL0.Proofs.Grammar.Statements
import PL0.Proofs.Meaning.Expressions
import PL0.Proofs.Meaning.Interpretation
import PL0.Proofs.Meaning.Machine
import PL0.Proofs.Meaning.Placement
import PL0.Proofs.Meaning.Preservation
import PL0.Proofs.Meaning.Simulation
import PL0.Proofs.Meaning.Source
import PL0.Proofs.Messages
import PL0.Proofs.Reading.Alternatives
import PL0.Proofs.Reading.Boundaries
import PL0.Proofs.Reading.DistinctNumbers
import PL0.Proofs.Reading.Dividers
import PL0.Proofs.Reading.ErrorOrder
import PL0.Proofs.Reading.Expressions
import PL0.Proofs.Reading.Functions
import PL0.Proofs.Reading.Input
import PL0.Proofs.Reading.Marks
import PL0.Proofs.Reading.Mistakes
import PL0.Proofs.Reading.Numbering
import PL0.Proofs.Reading.Positions
import PL0.Proofs.Reading.Recovering
import PL0.Proofs.Reading.Segments
import PL0.Proofs.Reading.Setting
import PL0.Proofs.Reading.Statements
import PL0.Proofs.Reading.Trials
import PL0.Proofs.Reports
import PL0.Proofs.Scope.Entries
import PL0.Proofs.Scope.Frames
import PL0.Proofs.Scope.History
import PL0.Proofs.Scope.Operations
import PL0.Proofs.Scope.Stack
import PL0.Proofs.Scope.Texts
import PL0.Proofs.Text.Lines
import PL0.Proofs.Text.Parts
import PL0.Proofs.Text.Quoted
import PL0.Proofs.Token.Counting
import PL0.Proofs.Token.Faults
import PL0.Proofs.Token.Lexemes
import PL0.Proofs.Token.Names
import PL0.Proofs.Token.Scanning
import PL0.Proofs.Token.Texts
import PL0.Proofs.Token.Writing
import PL0.Proofs.Tree.Displacement
import PL0.Proofs.Tree.Erasure
import PL0.Proofs.Tree.Leaves
import PL0.Proofs.Tree.Mentions
import PL0.Proofs.Tree.Occurrences
import PL0.Proofs.Tree.Sites
import PL0.Proofs.Typing.Acceptance
import PL0.Proofs.Typing.Annotations
import PL0.Proofs.Typing.DefinitionOrder
import PL0.Proofs.Typing.Exactness
import PL0.Proofs.Typing.FaultNames
import PL0.Proofs.Typing.FinishedScopes
import PL0.Proofs.Typing.Independence
import PL0.Proofs.Typing.Judgement
import PL0.Proofs.Typing.RecordedTypes
import PL0.Proofs.Typing.Relocation
import PL0.Proofs.Typing.Scopes
import PL0.Proofs.Typing.Strays
import PL0.Proofs.Walk.Agreement
import PL0.Proofs.Walk.Basic
import PL0.Proofs.Walk.Expressions
import PL0.Proofs.Walk.Programs
import PL0.Proofs.Walk.Statements
import PL0.Report
import PL0.Scope.Listing
import PL0.Scope.Table
import PL0.Scope.ValueType
import PL0.Text.ExtendingMark
import PL0.Text.Quoted
import PL0.Text.Unprintable
import PL0.Token.Basic
import PL0.Token.Scan
import PL0.Token.Table
import PL0.Tree.Basic
import PL0.Tree.Outline
import PL0.Typing.Analysis
import PL0.Typing.Check
import PL0.Typing.Checked
import PL0.Typing.Diagnostic
