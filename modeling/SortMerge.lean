import SortMerge.Plan.Yaml
import SortMerge.Proofs.Datum
import SortMerge.Proofs.Digest
import SortMerge.Proofs.Expr.Kleene
import SortMerge.Proofs.Expr.Unknown
import SortMerge.Proofs.External
import SortMerge.Proofs.Join.Copies
import SortMerge.Proofs.Join.Cursor
import SortMerge.Proofs.Join.Failure
import SortMerge.Proofs.Join.Filter
import SortMerge.Proofs.Join.Mirror
import SortMerge.Proofs.Join.Rowwise
import SortMerge.Proofs.Operator.Accounts
import SortMerge.Proofs.Operator.Aligned
import SortMerge.Proofs.Operator.Ready
import SortMerge.Proofs.Operator.Stored
import SortMerge.Proofs.Operator.Termination
import SortMerge.Proofs.Plan.Hash
import SortMerge.Proofs.Plan.Json
import SortMerge.Proofs.Schema
import SortMerge.Proofs.Tile.Encoding
