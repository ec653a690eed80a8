import EntityGraph.Model.Accessors
import EntityGraph.Model.Memo
import EntityGraph.Proofs.Access.Filtering
import EntityGraph.Proofs.Access.Mutations
import EntityGraph.Proofs.Filter.Soundness
import EntityGraph.Proofs.Relation.Eager
import EntityGraph.Proofs.Relation.Cost
import EntityGraph.Proofs.Listing.Pages
import EntityGraph.Proofs.Order.Depth
import EntityGraph.Proofs.Resolve.Identity
import EntityGraph.Sample.Library
import EntityGraph.Proofs.Store.Modify
import EntityGraph.Proofs.Relation.Holders
import EntityGraph.Proofs.Relation.Pairs
import EntityGraph.Proofs.Relation.Sync
import EntityGraph.Proofs.Resolve.Changes
import EntityGraph.Proofs.Resolve.Effect
import EntityGraph.Proofs.Resolve.Rejection
import EntityGraph.Proofs.Run.Trace
import EntityGraph.Proofs.Access.Selections
import EntityGraph.Proofs.Resolve.Requests
import EntityGraph.Proofs.TypeGraph.Complete
import EntityGraph.Proofs.Resolve.Single
import EntityGraph.Proofs.Relation.Conventional
import EntityGraph.Proofs.Order.Sorted
import EntityGraph.Proofs.TypeGraph.Agreement
import EntityGraph.Proofs.Resolve.Inputs
import EntityGraph.Proofs.Access.Secrets
import EntityGraph.Proofs.Faults.Requests
import EntityGraph.Proofs.Relation.Inverse
import EntityGraph.Proofs.Store.Serial
import EntityGraph.Proofs.Relation.Refusal
import EntityGraph.Proofs.Model.Memo
import EntityGraph.Proofs.Request.Exact
import EntityGraph.Proofs.TypeGraph.Names
import EntityGraph.Proofs.Faults.Internal
import EntityGraph.Proofs.Model.Convert
import EntityGraph.Proofs.Order.Again
import EntityGraph.Proofs.Listing.Replay
import EntityGraph.Proofs.TypeGraph.Abandoned
import EntityGraph.Proofs.Store.Atomic
import EntityGraph.Proofs.Store.Pattern
import EntityGraph.Proofs.Store.Positions
import EntityGraph.Proofs.Vocabulary.Plural
import EntityGraph.Proofs.Store.Ties
import EntityGraph.Proofs.Store.Widths
