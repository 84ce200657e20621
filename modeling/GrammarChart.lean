import GrammarChart.Main
import GrammarChart.Model.Building
import GrammarChart.Service.Basic
import GrammarChart.Proofs.Diagram.Compilation
import GrammarChart.Proofs.Document.RoundTrip
import GrammarChart.Proofs.Diagram.Drawing
import GrammarChart.Proofs.Diagram.Seen
import GrammarChart.Proofs.Diagram.Sketches
import GrammarChart.Proofs.Document.Faces
import GrammarChart.Proofs.Document.Shown
import GrammarChart.Proofs.Agreement
import GrammarChart.Proofs.Diagram.Collected
import GrammarChart.Proofs.Diagram.Endpoints
import GrammarChart.Proofs.Document.Runs
import GrammarChart.Proofs.Document.Traces
import GrammarChart.Proofs.Files.Locations
import GrammarChart.Proofs.Document.Depth
import GrammarChart.Proofs.Document.Progress
import GrammarChart.Proofs.Document.Fresh
import GrammarChart.Proofs.Document.Once
import GrammarChart.Proofs.Store.Runs
import GrammarChart.Proofs.Service.Sessions
import GrammarChart.Proofs.Service.Failures
import GrammarChart.Proofs.Service.Confinement
import GrammarChart.Proofs.Document.Cycles
import GrammarChart.Proofs.Document.TwoLoaders
import GrammarChart.Proofs.Model.Inheritance
import GrammarChart.Proofs.Diagram.Unambiguous
import GrammarChart.Proofs.Document.DeadReferences
import GrammarChart.Proofs.BadDocuments
import GrammarChart.Proofs.Model.Edits
import GrammarChart.Proofs.Diagram.Normalizing
import GrammarChart.Proofs.Diagram.Unresolved
import GrammarChart.Proofs.Diagram.AssignedCalls
import GrammarChart.Proofs.Diagram.ImportedRules
import GrammarChart.Proofs.Document.Lookups
import GrammarChart.Proofs.Service.Isolation
import GrammarChart.Proofs.Diagram.UnknownElements
import GrammarChart.Proofs.Store.Damage
import GrammarChart.Proofs.Files.Making
import GrammarChart.Proofs.Store.FailedPuts
import GrammarChart.Proofs.Outputs
import GrammarChart.Proofs.Diagram.WriterRuns
import GrammarChart.Proofs.Tool.Rendering
import GrammarChart.Proofs.Document.Containers
