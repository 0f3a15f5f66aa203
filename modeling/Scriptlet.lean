import Scriptlet.Token.Basic
import Scriptlet.Token.Precedence
import Scriptlet.Token.Lexer
import Scriptlet.Tree.Basic
import Scriptlet.Tree.Equality
import Scriptlet.Tree.Printer
import Scriptlet.Tree.Traversal
import Scriptlet.Tree.Role
import Scriptlet.Tree.Consistency
import Scriptlet.Tree.Outline
import Scriptlet.Tree.Inspect
import Scriptlet.Report
import Scriptlet.Decimal
import Scriptlet.Parser.Diagnostic
import Scriptlet.Parser.Cursor
import Scriptlet.Parser.Basic
import Scriptlet.Parser.Tree
import Scriptlet.Eval.Value
import Scriptlet.Eval.Inspect
import Scriptlet.Eval.Fault
import Scriptlet.Eval.Operator
import Scriptlet.Eval.Store
import Scriptlet.Eval.Basic
import Scriptlet.Eval.Tree
import Scriptlet.Session
import Scriptlet.Console.Command
import Scriptlet.Console.Outcome
import Scriptlet.Console.Reply
import Scriptlet.Console.Repl
import Scriptlet.Console.Basic
import Scriptlet.Main
import Scriptlet.Proofs.Lexer.Spelling
import Scriptlet.Proofs.Lexer.MaximalMunch
import Scriptlet.Proofs.Lexer.Layout
import Scriptlet.Proofs.Tree.Nodes
import Scriptlet.Proofs.Tree.Roles
import Scriptlet.Proofs.Tree.Positions
import Scriptlet.Proofs.Parser.Grammar
import Scriptlet.Proofs.Parser.Strata
import Scriptlet.Proofs.Parser.Loops
import Scriptlet.Proofs.Parser.Building
import Scriptlet.Proofs.Parser.Course
import Scriptlet.Proofs.Parser.Reading
import Scriptlet.Proofs.Parser.Soundness
import Scriptlet.Proofs.Parser.Completeness
import Scriptlet.Proofs.Parser.Recognition
import Scriptlet.Proofs.Parser.WellSpelled
import Scriptlet.Proofs.Parser.Concatenation
import Scriptlet.Proofs.Parser.Names
import Scriptlet.Proofs.Parser.Consistency
import Scriptlet.Proofs.Parser.Window
import Scriptlet.Proofs.Parser.Mirroring
import Scriptlet.Proofs.Parser.Termination
import Scriptlet.Proofs.Printer.Tokens
import Scriptlet.Proofs.Printer.RoundTrip
import Scriptlet.Proofs.Printer.Joining
import Scriptlet.Proofs.Printer.Stability
import Scriptlet.Proofs.Eval.Interpreter
import Scriptlet.Proofs.Eval.Relating
import Scriptlet.Proofs.Eval.Frame
import Scriptlet.Proofs.Eval.Integrity
import Scriptlet.Proofs.Eval.Rules
import Scriptlet.Proofs.Eval.Derivations
import Scriptlet.Proofs.Eval.Termination
import Scriptlet.Proofs.Session.Concatenation
import Scriptlet.Proofs.Eval.Simulation
import Scriptlet.Proofs.Session.Noninterference
import Scriptlet.Proofs.Session.Atomicity
import Scriptlet.Proofs.Eval.Approximation
import Scriptlet.Proofs.Session.CallLimit
import Scriptlet.Proofs.Tree.Places
import Scriptlet.Proofs.Eval.Visits
import Scriptlet.Proofs.Eval.Scoping
import Scriptlet.Proofs.Session.LexicalScoping
import Scriptlet.Proofs.Session.TruthfulFaults
import Scriptlet.Proofs.Parser.OperatorChains
import Scriptlet.Proofs.Eval.Steps
import Scriptlet.Proofs.Session.ScopeGraph
import Scriptlet.Proofs.Eval.History
import Scriptlet.Proofs.Parser.Nesting
import Scriptlet.Proofs.Parser.Accounting
import Scriptlet.Proofs.Parser.Recovery
import Scriptlet.Proofs.Session.Arithmetic
import Scriptlet.Proofs.Eval.Passing
import Scriptlet.Proofs.Eval.Origins
import Scriptlet.Proofs.Eval.Tracing
import Scriptlet.Proofs.Session.FunctionIdentity
import Scriptlet.Proofs.Eval.Arguments
import Scriptlet.Proofs.Tree.Preorder
import Scriptlet.Proofs.Session.FunctionTexts
import Scriptlet.Proofs.Console.Transcript
