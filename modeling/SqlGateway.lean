import SqlGateway.Dialect.Definition
import SqlGateway.Main
import SqlGateway.Script.Backend
import SqlGateway.Proofs.Assembly.Shape
import SqlGateway.Proofs.Assembly.DistinctParents
import SqlGateway.Proofs.Assembly.Belonging
import SqlGateway.Proofs.Execution.PresumedRows
import SqlGateway.Proofs.DeclaredFilters
import SqlGateway.Proofs.Engine.Scheduling
import SqlGateway.Proofs.Engine.Transactions
import SqlGateway.Proofs.Query.Wording
import SqlGateway.Proofs.Query.Safety
import SqlGateway.Proofs.Number.Exact
import SqlGateway.Proofs.Request.Lexing
import SqlGateway.Proofs.Request.Printing
import SqlGateway.Proofs.Query.Nesting
import SqlGateway.Proofs.Query.Linking
import SqlGateway.Proofs.Query.Collisions
import SqlGateway.Proofs.Mutation.Tree
import SqlGateway.Proofs.Mutation.Binding
import SqlGateway.Proofs.Connection.Clients
import SqlGateway.Proofs.Connection.Ledgers
import SqlGateway.Proofs.Execution.PartialFailure
import SqlGateway.Proofs.Mutation.Documents
import SqlGateway.Proofs.Mutation.Projected
import SqlGateway.Proofs.Execution.Obliging
import SqlGateway.Proofs.Execution.Forest
import SqlGateway.Proofs.Engine.Modes
import SqlGateway.Proofs.Engine.KeptConnections
import SqlGateway.Proofs.Engine.Outcomes
import SqlGateway.Proofs.Engine.UndoneRequests
import SqlGateway.Proofs.Engine.Holdings
import SqlGateway.Proofs.Engine.Removal
import SqlGateway.Proofs.Schema.ActivationOrder
import SqlGateway.Proofs.Schema.Reactivation
import SqlGateway.Proofs.Schema.Directions
import SqlGateway.Proofs.Engine.Refreshes
import SqlGateway.Proofs.Mutation.ForcedColumns
import SqlGateway.Proofs.BlockedPhrases
import SqlGateway.Proofs.ReturnedKeys
import SqlGateway.Proofs.TableDefinitions
import SqlGateway.Proofs.Query.Templates
import SqlGateway.Proofs.Query.AbsentValues
import SqlGateway.Proofs.Query.ColumnReferences
import SqlGateway.Proofs.TableNames
import SqlGateway.Proofs.Query.Sorting
import SqlGateway.Proofs.Query.RowLimits
import SqlGateway.Proofs.Request.Numerals
import SqlGateway.Proofs.BoundIntegers
import SqlGateway.Proofs.Execution.TransformedRows
