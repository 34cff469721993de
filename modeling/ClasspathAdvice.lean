import ClasspathAdvice.Exchange.Usage
import ClasspathAdvice.Document.Json.Printer
import ClasspathAdvice.Graph.Derived
import ClasspathAdvice.Main
import ClasspathAdvice.Proofs.Graph.Search
import ClasspathAdvice.Proofs.Graph.Topological
import ClasspathAdvice.Proofs.Graph.Route.Lengths
import ClasspathAdvice.Proofs.Graph.Dominance
import ClasspathAdvice.Proofs.Graph.Dominator.Chain
import ClasspathAdvice.Proofs.Graph.Dominator.Look
import ClasspathAdvice.Proofs.Graph.DominatorTree
import ClasspathAdvice.Proofs.Graph.Content
import ClasspathAdvice.Proofs.Graph.Dominator.Numbering
import ClasspathAdvice.Proofs.Graph.Dominator.Passes
import ClasspathAdvice.Proofs.Footprint.Assembly
import ClasspathAdvice.Proofs.Footprint.Attribution
import ClasspathAdvice.Proofs.Reduction.Merging
import ClasspathAdvice.Proofs.Reduction.Coverage
import ClasspathAdvice.Proofs.Declaration.Naming
import ClasspathAdvice.Proofs.Reduction.Application
import ClasspathAdvice.Proofs.Reduction.Quiet
import ClasspathAdvice.Proofs.Reduction.Stability.Agreed
import ClasspathAdvice.Proofs.Reduction.Stability
import ClasspathAdvice.Proofs.Reduction.Orderly
import ClasspathAdvice.Proofs.Graph.Route.Relaxation
import ClasspathAdvice.Proofs.Graph.Route.Walk
import ClasspathAdvice.Proofs.Graph.Route.Shortest
import ClasspathAdvice.Proofs.Graph.Route.Consistency
import ClasspathAdvice.Proofs.Reduction.Independence
import ClasspathAdvice.Proofs.Graph.Numbers
import ClasspathAdvice.Proofs.Graph.Reachable
import ClasspathAdvice.Proofs.Graph.History
import ClasspathAdvice.Graph.SharedMemo
import ClasspathAdvice.Proofs.Graph.SharedMemo
import ClasspathAdvice.Proofs.Explanation
import ClasspathAdvice.Proofs.Survey
import ClasspathAdvice.Proofs.Text.Wildcard
import ClasspathAdvice.Proofs.Declaration.Inference
import ClasspathAdvice.Proofs.Graph.Dominator.Termination
import ClasspathAdvice.Proofs.Survey.Traces
import ClasspathAdvice.Proofs.Report
import ClasspathAdvice.Proofs.ProjectModule.Locality
import ClasspathAdvice.Proofs.Reduction.Heedful
import ClasspathAdvice.Proofs.Survey.Namesakes
import ClasspathAdvice.Proofs.Reduction.Correct
import ClasspathAdvice.Proofs.Graph.Route.Extraction
import ClasspathAdvice.Proofs.Graph.SingleEntry
import ClasspathAdvice.Proofs.Graph.DominatorGraph
import ClasspathAdvice.Proofs.ProjectModule.Unobserved
import ClasspathAdvice.Proofs.Reduction.Simplification
import ClasspathAdvice.Proofs.Footprint.Independence
import ClasspathAdvice.Proofs.Graph.Derived
import ClasspathAdvice.Proofs.Footprint.Drawing
import ClasspathAdvice.Proofs.Graph.Dominator.Meeting
import ClasspathAdvice.Proofs.Survey.Names
import ClasspathAdvice.Proofs.Colors
import ClasspathAdvice.Proofs.Advice
import ClasspathAdvice.Proofs.Coordinates
