import ContentApi.CommandLine
import ContentApi.Condition.Printer
import ContentApi.Expansion.Trace
import ContentApi.Main
import ContentApi.Proofs.Condition.Printing
import ContentApi.Proofs.Expansion.Accounting
import ContentApi.Proofs.Expansion.BranchContexts
import ContentApi.Proofs.Expansion.Depth
import ContentApi.Proofs.Expansion.Levels
import ContentApi.Proofs.Expansion.Opacity
import ContentApi.Proofs.Expansion.Shape
import ContentApi.Proofs.Path.Clause
import ContentApi.Proofs.Rejection
import ContentApi.Proofs.Rendering.Projected
import ContentApi.Proofs.Rendering.Visible
import ContentApi.Proofs.Request.Paths
import ContentApi.Proofs.Request.Projection
import ContentApi.Proofs.Request.Relations
import ContentApi.Proofs.Request.Separation
import ContentApi.Proofs.Request.Sorting
import ContentApi.Proofs.Request.Window
import ContentApi.Proofs.Service.Relations
import ContentApi.Proofs.Store.Freshness
import ContentApi.Proofs.Store.Paging
import ContentApi.Rehearsal
import ContentApi.Request.Body
import ContentApi.Proofs.Service.Serving
import ContentApi.Proofs.Json.Notation
import ContentApi.Proofs.Json.Reading
import ContentApi.Proofs.Json.Targets
import ContentApi.Proofs.Request.Body
import ContentApi.Proofs.Path.Stopping
import ContentApi.Proofs.Condition.Locality
import ContentApi.Proofs.Condition.Stopping
import ContentApi.Proofs.FirstRefused
import ContentApi.Proofs.Rehearsal.Reordering
import ContentApi.Proofs.Request.Cuts
