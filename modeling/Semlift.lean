import Semlift.Config.Find
import Semlift.Config.Node
import Semlift.Config.Read
import Semlift.Config.Settings
import Semlift.Diagnostic
import Semlift.Files.Tree
import Semlift.Host.Job
import Semlift.Host.Root
import Semlift.Knowledge.Base
import Semlift.Knowledge.Core
import Semlift.Knowledge.Reasoner
import Semlift.Knowledge.Load
import Semlift.Knowledge.View
import Semlift.Lang.Expr
import Semlift.Lang.Stmt
import Semlift.Lift.Source
import Semlift.Lift.Lifter
import Semlift.Lift.Names
import Semlift.Lift.Template
import Semlift.Lower.Classify
import Semlift.Number.Double
import Semlift.Number.Layout
import Semlift.Number.Literal
import Semlift.Number.Places
import Semlift.Number.Read
import Semlift.Number.Shortest
import Semlift.Number.Truncate
import Semlift.Ontology.Answer
import Semlift.Ontology.ClassExpr
import Semlift.Ontology.ClassParser
import Semlift.Ontology.Entailment
import Semlift.Program.Basic
import Semlift.Program.Build
import Semlift.Program.ClassTable
import Semlift.Program.Flaw
import Semlift.Program.Placeholder
import Semlift.Program.Usage
import Semlift.Query.Basic
import Semlift.Query.Eval
import Semlift.Query.Filter
import Semlift.Query.Order
import Semlift.Query.Parser
import Semlift.Query.Table
import Semlift.Query.Token
import Semlift.Rdf.Graph
import Semlift.Rdf.Index
import Semlift.Rdf.Prefixes
import Semlift.Rdf.Term
import Semlift.Rdf.Turtle.Lexeme
import Semlift.Rdf.Turtle.Reader
import Semlift.Rdf.Vocabulary
import Semlift.Rdf.Writer
import Semlift.Run.Eval
import Semlift.Run.Exec
import Semlift.Run.Fault
import Semlift.Run.Machine
import Semlift.Run.Operator
import Semlift.Run.Parameter
import Semlift.Search
import Semlift.Shell.Arithmetic
import Semlift.Shell.Builtin
import Semlift.Shell.Escape
import Semlift.Shell.Exec
import Semlift.Shell.Expand
import Semlift.Shell.Format
import Semlift.Shell.Jobs
import Semlift.Shell.Meaning
import Semlift.Shell.Options
import Semlift.Shell.Pattern
import Semlift.Shell.Process
import Semlift.Shell.Program
import Semlift.Shell.Reader
import Semlift.Shell.Redirection
import Semlift.Shell.Scan
import Semlift.Shell.Signal
import Semlift.Shell.State
import Semlift.Shell.Syntax
import Semlift.Shell.Test
import Semlift.Shell.Variables
import Semlift.Shell.World
import Semlift.Store.Collect
import Semlift.Store.Heap
import Semlift.Store.Simulation
import Semlift.Store.State
import Semlift.Text.Byte
import Semlift.Text.Column
import Semlift.Text.Names
import Semlift.Value
import Semlift.Proofs.Lang.Mentions
import Semlift.Proofs.Search
import Semlift.Proofs.Store.Alive
import Semlift.Proofs.Store.Sound
import Semlift.Proofs.Except
import Semlift.Proofs.Program.Accepted
import Semlift.Proofs.Run.Values
import Semlift.Proofs.Lower.Lists
import Semlift.Proofs.Run.Exec
import Semlift.Proofs.Run.Reach
import Semlift.Proofs.Knowledge.TypeQuery
import Semlift.Proofs.Lift.Subject
import Semlift.Proofs.Lift.Predicate
import Semlift.Proofs.Ontology.Closure
import Semlift.Proofs.Run.Residual
import Semlift.Proofs.Run.Rules
import Semlift.Proofs.Run.Unchanged
import Semlift.Proofs.Run.Waiting
import Semlift.Proofs.Store.Reachable
import Semlift.Proofs.Store.Survivors
import Semlift.Proofs.Run.Collection
import Semlift.Proofs.Program.Concrete
import Semlift.Proofs.Run.Precluded
import Semlift.Proofs.Query.Join
import Semlift.Proofs.Rdf.Turtle.RoundTrip
import Semlift.Proofs.Lower.RoundTrip
import Semlift.Proofs.Knowledge.Consistent
import Semlift.Proofs.Knowledge.Reasoning
import Semlift.Proofs.Run.Calls
import Semlift.Proofs.Run.Nesting
import Semlift.Proofs.Run.Parameter
import Semlift.Proofs.Lift.Survivors
import Semlift.Proofs.Lift.FieldsApart
import Semlift.Proofs.Run.Substitute
import Semlift.Proofs.Query.Pages
import Semlift.Proofs.Number.Order
import Semlift.Proofs.Query.Ordering
import Semlift.Proofs.Lift.Blanks
import Semlift.Proofs.Lift.Holes
import Semlift.Proofs.Lift.Leaks
import Semlift.Proofs.Query.Progress
import Semlift.Proofs.Query.Total
import Semlift.Proofs.Query.Captures
import Semlift.Proofs.Query.Integers
import Semlift.Proofs.Run.Asking
import Semlift.Proofs.Run.Comparison
import Semlift.Proofs.Ontology.Denotation
import Semlift.Proofs.Program.Forest
import Semlift.Proofs.Text.Lines
import Semlift.Proofs.Ontology.Answer
import Semlift.Proofs.Knowledge.External
import Semlift.Proofs.Ontology.Spelling
import Semlift.Proofs.Ontology.ReadBack
import Semlift.Proofs.Program.Inherited
import Semlift.Proofs.Ontology.Turns
import Semlift.Proofs.Rdf.Turtle.Positions
import Semlift.Proofs.Rdf.Turtle.Fresh
import Semlift.Proofs.Rdf.Turtle.Terminator
import Semlift.Proofs.Rdf.Turtle.Cursor.Bounds
import Semlift.Proofs.Knowledge.Numerals
import Semlift.Proofs.Search.Distance
import Semlift.Proofs.Store.Identity
import Semlift.Proofs.Run.Arithmetic
import Semlift.Proofs.Run.Faults
import Semlift.Proofs.Run.Blame
