import Statechart.Expr.Cache
import Statechart.Main
import Statechart.Proofs.Expr.Completeness
import Statechart.Proofs.Expr.Following
import Statechart.Proofs.Event.Matching
import Statechart.Proofs.Arena.Hierarchy
import Statechart.Proofs.Arena.Built
import Statechart.Proofs.Document.Identifiers
import Statechart.Proofs.Document.Ordered
import Statechart.Proofs.Document.Including
import Statechart.Proofs.Document.Merging
import Statechart.Proofs.DataModel.Paths
import Statechart.Proofs.Arena.Depiction
import Statechart.Proofs.Arena.Acceptance
import Statechart.Proofs.Arena.CommonAncestor
import Statechart.Proofs.Configuration.Legal
import Statechart.Proofs.Configuration.Filling
import Statechart.Proofs.Configuration.Entry
import Statechart.Proofs.Configuration.Domain
import Statechart.Proofs.Selection.Choice
import Statechart.Proofs.Selection.Conflict
import Statechart.Proofs.Session.Frame
import Statechart.Proofs.Session.Microstep
import Statechart.Proofs.Session.Stability
import Statechart.Proofs.Session.Rounds
import Statechart.Proofs.Session.Queues
import Statechart.Proofs.Session.Recovery
import Statechart.Proofs.Session.Finality
import Statechart.Proofs.Session.Abort
import Statechart.Proofs.Session.Skip
import Statechart.Proofs.Session.Sources
import Statechart.Proofs.Session.Inert
import Statechart.Proofs.Session.Lifecycle
import Statechart.Proofs.Session.Bound
import Statechart.Proofs.Session.EntryPhase
import Statechart.Proofs.Session.EntrySet
import Statechart.Proofs.Session.Content
import Statechart.Proofs.Session.Domains
import Statechart.Proofs.Report.Latest
import Statechart.Proofs.Session.Reporting
import Statechart.Proofs.Session.Variables
import Statechart.Proofs.Session.Consulting
import Statechart.Proofs.Action.Walk
import Statechart.Proofs.Arena.Numbering
import Statechart.Proofs.Expr.IntegerOperands
