import Shading.Act
import Shading.TypeId
import Shading.Source.Supply
import Shading.Binary32.Text
import Shading.Diagnostic
import Shading.IR.Builder
import Shading.IR.Flow
import Shading.IR.Text
import Shading.Types.Hooks
import Shading.Lower.Unit
import Shading.Proofs.Machine
import Shading.Proofs.Structured
import Shading.Proofs.Body
import Shading.Proofs.Edits
import Shading.Proofs.Actions
import Shading.Proofs.Emission
import Shading.Proofs.Building
import Shading.Proofs.Hooks
import Shading.Proofs.Operators
import Shading.Proofs.Translation
import Shading.Proofs.Sites
import Shading.Proofs.Expressions
import Shading.Proofs.Statements
import Shading.Proofs.Functions
import Shading.Proofs.Execution
import Shading.Proofs.Evaluation
import Shading.Proofs.Memory
import Shading.Proofs.ScalarMachine
import Shading.Proofs.Agreement
import Shading.Proofs.Preservation
import Shading.Proofs.Outcomes
import Shading.Proofs.Faults
import Shading.Proofs.Framing
import Shading.Proofs.Closing
import Shading.Proofs.Declarations
import Shading.Proofs.Definitions
import Shading.Proofs.EndedBlocks
import Shading.Proofs.ClosedBodies
import Shading.Proofs.TypeIndexes
import Shading.Proofs.Mangling
import Shading.Proofs.Sessions
import Shading.Proofs.Correspondence
import Shading.Proofs.Choices
import Shading.Proofs.ReturnPaths
import Shading.Proofs.Safety
import Shading.Proofs.Completion
import Shading.Proofs.MissingReturns
import Shading.Proofs.Labels
import Shading.Proofs.Definedness
import Shading.Proofs.Dominance
import Shading.Proofs.SSAForm
import Shading.Proofs.Operands
import Shading.Proofs.Shapes
import Shading.Proofs.TypedExpressions
import Shading.Proofs.TypedStatements
import Shading.Proofs.ProgramFaults
import Shading.Proofs.Balance
import Shading.Proofs.Isolation
import Shading.Proofs.FreshUnits
import Shading.Proofs.Operations
import Shading.Proofs.Refusals
import Shading.Proofs.WellFormedness
import Shading.Proofs.Handles
import Shading.Proofs.Ownership
import Shading.Proofs.Lifetimes
import Shading.Proofs.Disposal
import Shading.Proofs.Accounts
import Shading.Proofs.Twins
import Shading.Proofs.TwinExpressions
import Shading.Proofs.TwinStatements
import Shading.Proofs.Splitting
import Shading.Proofs.Policies
import Shading.Proofs.Conversions
import Shading.Proofs.Registration
import Shading.Proofs.TwinFunctions
import Shading.Proofs.TwinModules
import Shading.Proofs.TwinHooks
import Shading.Proofs.TwinBuilders
import Shading.Proofs.TwinTables
import Shading.Proofs.TwinItems
import Shading.Proofs.Independence
import Shading.Proofs.RuntimeSymbols
import Shading.Proofs.Overloads
import Shading.Proofs.OpenBlocks
import Shading.Proofs.ImplicitExits
import Shading.Proofs.Places
import Shading.Proofs.TypeSoundness
import Shading.Proofs.Pruning
import Shading.Proofs.Scoping
import Shading.Proofs.NaturalLayout
import Shading.Proofs.Fallback
import Shading.Proofs.Listing
import Shading.Proofs.Lanes
import Shading.Proofs.RequestedLabels
import Shading.Proofs.Reports
