import CallGraph.Command.Run
import CallGraph.Cypher.Script
import CallGraph.Document.Exchange
import CallGraph.Document.Layout
import CallGraph.Main
import CallGraph.Proofs.Command.Outcome
import CallGraph.Proofs.Cypher.Building
import CallGraph.Proofs.Cypher.Containment
import CallGraph.Proofs.Cypher.Counting
import CallGraph.Proofs.Document.Editing
import CallGraph.Proofs.Document.Forms
import CallGraph.Proofs.Document.RoundTrip
import CallGraph.Proofs.Document.Truncation
import CallGraph.Proofs.Report.Dependence
import CallGraph.Proofs.Report.Missing
import CallGraph.Proofs.Report.Omissions
import CallGraph.Proofs.Command.Diagnostics
import CallGraph.Proofs.Command.Arrangements
import CallGraph.Proofs.Document.Places
import CallGraph.Proofs.Tables.LastWins
import CallGraph.Proofs.Document.Numbers
import CallGraph.Proofs.Document.Labels
import CallGraph.Proofs.Document.Loading
import CallGraph.Proofs.Report.Path
import CallGraph.Proofs.Report.Numbering
import CallGraph.Proofs.Cypher.ShortIds
