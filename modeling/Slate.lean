import Slate.Main
import Slate.Proofs.Check.Walk
import Slate.Proofs.Typing.Agreement
import Slate.Proofs.Check.Mismatch
import Slate.Proofs.Folding.Evaluation
import Slate.Proofs.Paths.Recursion
import Slate.Proofs.Scope.Coherent
import Slate.Proofs.Typing.Declarative
import Slate.Proofs.Typing.Resolution
import Slate.Proofs.Check.Acceptance
import Slate.Proofs.Syntax.Grammar
import Slate.Proofs.Syntax.Literal
import Slate.Proofs.Syntax.Tokens
import Slate.Proofs.Syntax.Reader
import Slate.Proofs.Syntax.Derivation
import Slate.Proofs.Syntax.Soundness.Expression
import Slate.Proofs.Syntax.Soundness.Statement
import Slate.Proofs.Syntax.Completeness.Expression
import Slate.Proofs.Syntax.Completeness.Statement
import Slate.Proofs.Syntax.Acceptance
import Slate.Proofs.Scope.Stack
import Slate.Proofs.Folding.Execution
import Slate.Proofs.Syntax.Extension.Expression
import Slate.Proofs.Syntax.Extension.Statement
import Slate.Proofs.Syntax.Course
import Slate.Proofs.Syntax.Walk.Laws
import Slate.Proofs.Syntax.Walk.Expression
import Slate.Proofs.Syntax.Walk.Statement
import Slate.Proofs.Syntax.Concatenation
import Slate.Proofs.Check.Mirror
import Slate.Proofs.Paths.Traversal
import Slate.Proofs.Token.Pattern
import Slate.Proofs.Token.Munch
import Slate.Proofs.Token.MaximalMunch
import Slate.Proofs.Token.Lossless
import Slate.Proofs.Scope.Growth
import Slate.Proofs.Syntax.Spans
import Slate.Proofs.Syntax.Endless
import Slate.Proofs.Source.Merge
import Slate.Proofs.Source.Location
import Slate.Proofs.Token.Located
import Slate.Proofs.Check.Looks
import Slate.Proofs.Check.Moves
import Slate.Proofs.Check.Growth
import Slate.Proofs.Check.Pointing
import Slate.Proofs.Check.Record
import Slate.Proofs.Check.Binding
import Slate.Proofs.Syntax.Names
import Slate.Proofs.Folding.Dependence
import Slate.Proofs.Check.Context
import Slate.Proofs.Check.Bisimulation
import Slate.Proofs.Check.Incremental
import Slate.Proofs.Check.Weakening
import Slate.Proofs.Token.Printing
import Slate.Proofs.Syntax.CutShort
import Slate.Proofs.Syntax.Trace
import Slate.Proofs.Syntax.Nesting
import Slate.Proofs.Scope.Handles
import Slate.Proofs.Check.Holding
import Slate.Proofs.Check.Builtins
import Slate.Proofs.Folding.Filler
import Slate.Proofs.Syntax.Parts
import Slate.Proofs.Folding.Inlining
import Slate.Proofs.Folding.Typed
import Slate.Proofs.Syntax.Errors
import Slate.Proofs.Syntax.Quoting
import Slate.Proofs.Syntax.Braces
import Slate.Proofs.Syntax.Escapes
import Slate.Proofs.Token.LineBreaks
import Slate.Proofs.Syntax.Operands
import Slate.Proofs.Syntax.Integers
import Slate.Proofs.Syntax.Layout.Expression
import Slate.Proofs.Syntax.Layout.Statement
import Slate.Proofs.Analysis
import Slate.Syntax.Cursor
import Slate.Proofs.Syntax.Cursor.Expression
import Slate.Proofs.Syntax.Cursor.Statement
import Slate.Proofs.Syntax.Cursor.Budget
import Slate.Proofs.Syntax.Cursor.Progress
import Slate.Proofs.Source.Search
import Slate.Proofs.Check.Returns
import Slate.Proofs.Check.Jumps
import Slate.Proofs.Check.Replay
import Slate.Proofs.Scope.Walks
import Slate.Proofs.Paths.Skeleton
import Slate.Proofs.Text.Delimited
import Slate.Proofs.Scope.Dump
import Slate.Proofs.Toml.Reader
import Slate.Proofs.Toml.Quoted
import Slate.Proofs.Toml.Document
import Slate.Proofs.Toml.Table
import Slate.Proofs.Manifest
