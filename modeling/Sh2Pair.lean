import Sh2Pair.Session.Basic
import Sh2Pair.Proofs.Operations
import Sh2Pair.Proofs.Steady
import Sh2Pair.Proofs.Course
import Sh2Pair.Proofs.Receipts
import Sh2Pair.Proofs.Skipping
import Sh2Pair.Proofs.Ledger
import Sh2Pair.Proofs.Snapshot
import Sh2Pair.Proofs.OneShot
import Sh2Pair.Proofs.Footprints
import Sh2Pair.Proofs.Strides
import Sh2Pair.Proofs.Quiet
import Sh2Pair.Proofs.Core
import Sh2Pair.Proofs.Transparency
import Sh2Pair.Proofs.Moments
import Sh2Pair.Proofs.History
import Sh2Pair.Proofs.Leaving
import Sh2Pair.Proofs.NameOrder
import Sh2Pair.Proofs.Accounting
import Sh2Pair.Proofs.Registrations
import Sh2Pair.Proofs.Failures
import Sh2Pair.Proofs.Announcements
import Sh2Pair.Proofs.Orders
import Sh2Pair.Proofs.Determinism
import Sh2Pair.Proofs.Watched
import Sh2Pair.Proofs.Mirrors
import Sh2Pair.Proofs.Trails
import Sh2Pair.Proofs.TurnOrder
import Sh2Pair.Proofs.Balance
import Sh2Pair.Proofs.Budget
import Sh2Pair.Proofs.LastWrite
import Sh2Pair.Proofs.Confinement
import Sh2Pair.Proofs.Isolation
import Sh2Pair.Proofs.Visits
import Sh2Pair.Proofs.Building
import Sh2Pair.Proofs.Requests
import Sh2Pair.Proofs.Splitting
import Sh2Pair.Proofs.Control
import Sh2Pair.Proofs.Errands
import Sh2Pair.Proofs.RoundTrip
import Sh2Pair.Proofs.ControlState
import Sh2Pair.Proofs.Unaligned
import Sh2Pair.Proofs.Listing
import Sh2Pair.Proofs.Diagnostics
import Sh2Pair.Proofs.Episodes
