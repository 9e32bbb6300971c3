import GraphLisp.Multiverse
import GraphLisp.Region
import GraphLisp.Scope.Lookup
import GraphLisp.Session
import GraphLisp.Structure.Nesting
import GraphLisp.Universe.FolderTree
import GraphLisp.Proofs.Environment.Tables
import GraphLisp.Proofs.Environment.Alterations
import GraphLisp.Proofs.Environment.Restore
import GraphLisp.Proofs.Evaluator.Recorded
import GraphLisp.Proofs.Universe.Load
import GraphLisp.Proofs.Session.Failure
import GraphLisp.Proofs.Universe.Integrity
import GraphLisp.Proofs.Agreement
import GraphLisp.Proofs.Environment.Likeness
import GraphLisp.Proofs.Environment.Regions
import GraphLisp.Proofs.Evaluator.Likeness
import GraphLisp.Proofs.Session.Likeness
import GraphLisp.Proofs.Payload
import GraphLisp.Proofs.Session.Copies
import GraphLisp.Proofs.Environment.Record
import GraphLisp.Proofs.Json.Scalars
import GraphLisp.Proofs.Json.Values
import GraphLisp.Proofs.Session.Names
import GraphLisp.Proofs.Snapshot
import GraphLisp.Proofs.Universe.Folder
import GraphLisp.Proofs.Universe.Reload
import GraphLisp.Proofs.Environment.Alone
import GraphLisp.Proofs.Environment.OnRecord
import GraphLisp.Proofs.Universe.Histories
import GraphLisp.Proofs.Universe.Mutations
import GraphLisp.Proofs.Region.Unfolding
import GraphLisp.Proofs.Region.Planting
import GraphLisp.Proofs.Region.RoundTrip
import GraphLisp.Proofs.Universe.Decoded
import GraphLisp.Proofs.Session.Restart
import GraphLisp.Proofs.Json.Spelling
import GraphLisp.Proofs.Universe.Registration
import GraphLisp.Proofs.Environment.Built
import GraphLisp.Proofs.Region.Cycles
import GraphLisp.Proofs.Region.Selection
import GraphLisp.Proofs.Environment.Handles
import GraphLisp.Proofs.Evaluator.Standing
import GraphLisp.Proofs.Session.Standing
import GraphLisp.Proofs.Universe.Counters
import GraphLisp.Proofs.Universe.Handles
import GraphLisp.Proofs.Universe.Refusals
import GraphLisp.Proofs.Context
import GraphLisp.Proofs.Environment.Queries
import GraphLisp.Proofs.Region.Additions
import GraphLisp.Proofs.Evaluator.Calls
import GraphLisp.Proofs.Evaluator.Depth
import GraphLisp.Proofs.Evaluator.Bindings
import GraphLisp.Proofs.Payload.Exact
import GraphLisp.Proofs.Universe.Tracking
import GraphLisp.Proofs.Universe.Accesses
import GraphLisp.Proofs.Scope.Lookup
import GraphLisp.Proofs.Structure.Equality
import GraphLisp.Proofs.Context.TwoWay
import GraphLisp.Proofs.Print
