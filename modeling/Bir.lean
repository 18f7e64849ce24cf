import Bir.LogFilter
import Bir.Main
import Bir.Proofs.Reachable
import Bir.Text.Utf8
import Bir.Proofs.ScopeGraph
import Bir.Proofs.State
import Bir.Proofs.Stacks
import Bir.Proofs.Bridging.Coupling
import Bir.Proofs.Bridging.Evaluation
import Bir.Proofs.Bridging.Transparency
import Bir.Proofs.Source.Parser
import Bir.Proofs.Source.Grammar
import Bir.Proofs.Source.Scan
import Bir.Proofs.Reports.Evaluation
import Bir.Proofs.Reports.Loading
import Bir.Proofs.Reports.Located
import Bir.Proofs.Frozen.Evaluation
import Bir.Proofs.Frozen.Loading
import Bir.Proofs.Levels
import Bir.Proofs.Declarations
import Bir.Proofs.Acyclic.Order
import Bir.Proofs.Walks
import Bir.Proofs.Nesting
import Bir.Proofs.Bindings.Constants
import Bir.Proofs.Bindings.Containment
import Bir.Proofs.Bindings.Names
import Bir.Proofs.Instances
import Bir.Proofs.Slots
import Bir.Proofs.Seeding
import Bir.Proofs.Depth
import Bir.Proofs.Halting.Loading
import Bir.Proofs.Layout.Loading
import Bir.Proofs.Source.Locality
import Bir.Proofs.Source.First
import Bir.Proofs.Source.Follow
import Bir.Proofs.Source.Passages
import Bir.Proofs.Source.Turns
import Bir.Proofs.Source.Adjacent
import Bir.Proofs.Source.Spelling
import Bir.Proofs.Source.Precedence
import Bir.Proofs.Source.Printing
import Bir.Proofs.Source.Impossible
import Bir.Proofs.Imports.Basic
import Bir.Proofs.Imports.Frame
import Bir.Proofs.Imports.Origins
import Bir.Proofs.Imports.Cycles
import Bir.Proofs.Exits.Stages
import Bir.Proofs.Exits.Misuse
import Bir.Proofs.Routing.Tree
import Bir.Proofs.Routing.Control
import Bir.Proofs.Routing.Owners
import Bir.Proofs.Routing.Foreign
import Bir.Proofs.Executing.Targets
import Bir.Proofs.Source.Prompt
import Bir.Proofs.Source.PromptExpressions
import Bir.Proofs.Source.PromptStatements
import Bir.Proofs.Source.Settled
import Bir.Proofs.Console
import Bir.Proofs.Source.Carets
import Bir.Proofs.Source.Numerals
import Bir.Proofs.Source.Strings
import Bir.Proofs.Arithmetic.Roots
import Bir.Proofs.Changes
import Bir.Proofs.Source.Unclosed
import Bir.Proofs.Resolution
import Bir.Proofs.Removals
import Bir.Proofs.Source.Leaves
import Bir.Proofs.Source.Consumption
import Bir.Proofs.Source.Placement
import Bir.Proofs.Source.Termination
