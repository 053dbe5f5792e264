import PythonToCSharp.CSharp.Declaration
import PythonToCSharp.CSharp.Expression
import PythonToCSharp.CSharp.ExpressionText
import PythonToCSharp.CSharp.Identifier
import PythonToCSharp.CSharp.Level
import PythonToCSharp.CSharp.Literal
import PythonToCSharp.CSharp.Pattern
import PythonToCSharp.CSharp.Statement
import PythonToCSharp.CSharp.StatementLayout
import PythonToCSharp.CSharp.StatementWriter
import PythonToCSharp.Command.Arguments
import PythonToCSharp.Command.Run
import PythonToCSharp.Concrete.Dump
import PythonToCSharp.Concrete.SyntaxError
import PythonToCSharp.Concrete.Tree
import PythonToCSharp.Config.Decode
import PythonToCSharp.Config.Load
import PythonToCSharp.Config.Setting
import PythonToCSharp.Diagnostic
import PythonToCSharp.Files.Access
import PythonToCSharp.Files.Memory
import PythonToCSharp.Json.Value
import PythonToCSharp.Layout.Emitter
import PythonToCSharp.Layout.Forest
import PythonToCSharp.Layout.Writer
import PythonToCSharp.Lowering.Definition
import PythonToCSharp.Lowering.Expression
import PythonToCSharp.Lowering.Module
import PythonToCSharp.Lowering.Pattern
import PythonToCSharp.Lowering.State
import PythonToCSharp.Lowering.Statement
import PythonToCSharp.Main
import PythonToCSharp.Number.Double
import PythonToCSharp.Number.Shortest
import PythonToCSharp.Options
import PythonToCSharp.Python.Binding
import PythonToCSharp.Python.Display
import PythonToCSharp.Python.Hint
import PythonToCSharp.Python.Operator
import PythonToCSharp.Python.Span
import PythonToCSharp.Python.Tree
import PythonToCSharp.Python.Walk
import PythonToCSharp.Reading.Basic
import PythonToCSharp.Reading.Comparison
import PythonToCSharp.Reading.Expression
import PythonToCSharp.Reading.Module
import PythonToCSharp.Reading.PatternReader
import PythonToCSharp.Reading.Statement
import PythonToCSharp.Reading.StringToken
import PythonToCSharp.Scope.Frame
import PythonToCSharp.Scope.Stack
import PythonToCSharp.Text.Blank
import PythonToCSharp.Text.Bytes
import PythonToCSharp.Text.Digits
import PythonToCSharp.Text.Lines
import PythonToCSharp.Text.Quoted
import PythonToCSharp.Text.Visible
import PythonToCSharp.Toml.Document
import PythonToCSharp.Toml.Entries
import PythonToCSharp.Toml.Fault
import PythonToCSharp.Toml.Moment
import PythonToCSharp.Toml.Number
import PythonToCSharp.Toml.Scan
import PythonToCSharp.Toml.Text
import PythonToCSharp.Proofs.Layout.Printing
import PythonToCSharp.Proofs.Lowering.Steps
import PythonToCSharp.Proofs.Lowering.Rendering
import PythonToCSharp.Proofs.Lowering.Balance
import PythonToCSharp.Proofs.Grammar.Derivation
import PythonToCSharp.Proofs.Grammar.PatternDerivation
import PythonToCSharp.Proofs.Grammar.PatternPrinting
import PythonToCSharp.Proofs.Grammar.PatternTokens
import PythonToCSharp.Proofs.Grammar.Printing
import PythonToCSharp.Proofs.Lowering.OperatorText
import PythonToCSharp.Proofs.Execution.CSharp
import PythonToCSharp.Proofs.Execution.Python
import PythonToCSharp.Proofs.Execution.Emission
import PythonToCSharp.Proofs.Scope.Ownership
import PythonToCSharp.Proofs.Scope.Operations
import PythonToCSharp.Proofs.Scope.Effects
import PythonToCSharp.Proofs.Naming.Expressions
import PythonToCSharp.Proofs.Naming.Rendering
import PythonToCSharp.Proofs.Execution.Emitted
import PythonToCSharp.Proofs.Execution.Marks
import PythonToCSharp.Proofs.Execution.ReplacedBreaks
import PythonToCSharp.Proofs.Execution.Tries
import PythonToCSharp.Proofs.Execution.Loops
import PythonToCSharp.Proofs.Execution.Determinism
import PythonToCSharp.Proofs.Naming.Statements
import PythonToCSharp.Proofs.Naming.Steps
import PythonToCSharp.Proofs.Naming.Performance
import PythonToCSharp.Proofs.Naming.Declarations
import PythonToCSharp.Proofs.Naming.Coverage
import PythonToCSharp.Proofs.Naming.Hygiene
import PythonToCSharp.Proofs.Config.Merge
import PythonToCSharp.Proofs.Scope.Handles
import PythonToCSharp.Proofs.Scope.Usage
import PythonToCSharp.Proofs.Scope.History
import PythonToCSharp.Proofs.Toml.Keys
import PythonToCSharp.Proofs.Config.Layers
import PythonToCSharp.Proofs.Concrete.Faults
import PythonToCSharp.Proofs.Reading.Blocks
import PythonToCSharp.Proofs.Reading.Comparisons
import PythonToCSharp.Proofs.Reading.Nodes
import PythonToCSharp.Proofs.Reading.Outcome
import PythonToCSharp.Proofs.Reading.SignedPatterns
import PythonToCSharp.Proofs.Reading.StringTokens
import PythonToCSharp.Proofs.Layout.Buffers
import PythonToCSharp.Proofs.Grammar.Parentheses
import PythonToCSharp.Proofs.Lowering.NativeText
import PythonToCSharp.Proofs.Lowering.PatternTrees
import PythonToCSharp.Proofs.Lowering.Unsupported
import PythonToCSharp.Proofs.Lowering.PatternText
import PythonToCSharp.Proofs.Lowering.Exits
import PythonToCSharp.Proofs.Lowering.Returns
import PythonToCSharp.Proofs.Naming.Receiver
import PythonToCSharp.Proofs.Execution.Chains
import PythonToCSharp.Proofs.Literal.Quotes
import PythonToCSharp.Proofs.Literal.Values
import PythonToCSharp.Proofs.Literal.Integers
import PythonToCSharp.Proofs.Lowering.Quiet
import PythonToCSharp.Proofs.Lowering.SwitchArms
import PythonToCSharp.Proofs.Classes.Outline
import PythonToCSharp.Proofs.Classes.Placement
import PythonToCSharp.Proofs.Classes.Emission
import PythonToCSharp.Proofs.Classes.Bodies
import PythonToCSharp.Proofs.Classes.Fields
import PythonToCSharp.Proofs.Classes.Places
import PythonToCSharp.Proofs.Classes.Members
import PythonToCSharp.Proofs.Classes.Constructors
import PythonToCSharp.Proofs.Reading.Verbatim
import PythonToCSharp.Proofs.Comments.Lines
import PythonToCSharp.Proofs.Comments.Kept
import PythonToCSharp.Proofs.Findings.Constructs
import PythonToCSharp.Proofs.Findings.Reports
import PythonToCSharp.Proofs.Findings.Heads
import PythonToCSharp.Proofs.Findings.Statements
