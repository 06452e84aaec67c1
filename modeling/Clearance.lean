import Clearance.Engine.Operation
import Clearance.Policy.File
import Clearance.Proofs.Induction
import Clearance.Proofs.Reader
import Clearance.Proofs.Canonical
import Clearance.Proofs.Keys
import Clearance.Proofs.RoundTrip
import Clearance.Proofs.FixedPoint
import Clearance.Proofs.Calls
import Clearance.Proofs.Grammar
import Clearance.Proofs.Meaning
import Clearance.Proofs.Decisions
import Clearance.Proofs.Questions
import Clearance.Proofs.Debugging
import Clearance.Proofs.Reordering
import Clearance.Proofs.Scanning
import Clearance.Proofs.Text
import Clearance.Proofs.TextChecks
import Clearance.Proofs.Framing
import Clearance.Proofs.Growth
import Clearance.Proofs.LoadedPolicies
import Clearance.Proofs.Simulation
import Clearance.Proofs.KeptTrees
import Clearance.Proofs.TypeNames
import Clearance.Proofs.Extraction
import Clearance.Proofs.GuardedRoundTrip
import Clearance.Proofs.Courses
import Clearance.Proofs.Traces
import Clearance.Proofs.Leaves
import Clearance.Proofs.Distribution
import Clearance.Proofs.Positions
import Clearance.Proofs.Wrappers
import Clearance.Proofs.Collapse
import Clearance.Proofs.Depth
import Clearance.Proofs.Sameness
import Clearance.Proofs.Walks
import Clearance.Proofs.DocumentOrder
