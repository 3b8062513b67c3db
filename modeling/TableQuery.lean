import TableQuery.Main
import TableQuery.Table.Record
import TableQuery.Proofs.Engine.Bystander
import TableQuery.Proofs.Engine.Faults
import TableQuery.Proofs.Engine.Layout
import TableQuery.Proofs.Engine.Qualifier
import TableQuery.Proofs.Engine.Script
import TableQuery.Proofs.Evaluation.Aggregates
import TableQuery.Proofs.Evaluation.Derived
import TableQuery.Proofs.Evaluation.JoinFilter
import TableQuery.Proofs.Evaluation.Ordering
import TableQuery.Proofs.Evaluation.Partition
import TableQuery.Proofs.Evaluation.Replacement
import TableQuery.Proofs.Evaluation.Slice
import TableQuery.Proofs.Query.Roundtrip
import TableQuery.Proofs.Table.Ties
import TableQuery.Proofs.Text.IgnoredCase
import TableQuery.Proofs.Token.Lossless
import TableQuery.Proofs.Value.Between
import TableQuery.Proofs.Table.OuterJoin
import TableQuery.Proofs.Table.RowJoin
import TableQuery.Proofs.Query.Precedence
import TableQuery.Proofs.Token.Quoted
import TableQuery.Proofs.Token.Respaced
import TableQuery.Proofs.Query.Walk
import TableQuery.Proofs.Query.Completion
import TableQuery.Proofs.Value.Aggregate
import TableQuery.Proofs.Table.Grid
import TableQuery.Proofs.Table.Export
import TableQuery.Proofs.Scope.Brackets
import TableQuery.Proofs.Query.Termination
import TableQuery.Proofs.Engine.Closed
import TableQuery.Proofs.Evaluation.RepeatedKey
import TableQuery.Proofs.Engine.Generated
