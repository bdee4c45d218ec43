import MethodLint.Config.Reader
import MethodLint.Diagnostic.Record
import MethodLint.Program
import MethodLint.Proofs.Arena.Cycles
import MethodLint.Proofs.Arena.History
import MethodLint.Proofs.Program.Freshness
import MethodLint.Proofs.Rule.Findings
import MethodLint.Proofs.Rule.History
import MethodLint.Proofs.Scope.History
import MethodLint.Rule
import MethodLint.Sink
import MethodLint.Table
import MethodLint.Proofs.Rule.Monotonicity
import MethodLint.Proofs.Rule.Reordering
import MethodLint.Proofs.Arena.Frame
import MethodLint.Proofs.Table.Transcript
import MethodLint.Proofs.Config.Grammar
import MethodLint.Proofs.Config.Quoted
import MethodLint.Proofs.Rule.Locality
import MethodLint.Proofs.Rule.Sinks
import MethodLint.Proofs.Config.Natural
import MethodLint.Proofs.Config.Values
import MethodLint.Proofs.Config.Containers
import MethodLint.Proofs.Config.Acceptance
import MethodLint.Proofs.LineTable.Positions
import MethodLint.Proofs.LineTable.Order
import MethodLint.Proofs.LineTable.Overflow
import MethodLint.Proofs.LineTable.Concatenation
import MethodLint.Proofs.Template.Expansion
import MethodLint.Proofs.Config.Offences
import MethodLint.Proofs.Tree.Ancestors
