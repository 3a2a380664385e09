import Crewd.Bus.Acknowledged
import Crewd.Bus.Lifecycle
import Crewd.Bus.Wakeups
import Crewd.Bus.Failures
import Crewd.Bus.Pulled
import Crewd.Bus.Lawful
import Crewd.Bus.Truthful
import Crewd.Bus.Deliverable
import Crewd.Bus.Leases
import Crewd.Bus.Ceiling
import Crewd.Bus.Sequence
import Crewd.Bus.Ordering
import Crewd.Bus.Depth
import Crewd.Fabric.Activity
import Crewd.Fabric.Recovery
import Crewd.Fabric.Idempotence
import Crewd.Fabric.Restarts
import Crewd.Fabric.Naming
import Crewd.Fabric.Sending
import Crewd.Fabric.Startable
import Crewd.Fabric.Registry
import Crewd.Bus.Denials
import Crewd.Bus.Pending
import Crewd.Bus.Rates
import Crewd.Bus.Authorship
import Crewd.AclFile
import Crewd.Framing
import Crewd.Handshake
import Crewd.Chain.Faults
import Crewd.Chain.KeyOrder
import Crewd.Chain.Inspection
import Crewd.Fabric.Results
import Crewd.Fabric.Engines
import Crewd.Fabric.Redelivery
import Crewd.Recount
import Crewd.Bus.Inbox
import Crewd.Bus.Outcomes
import Crewd.Bus.Backoff
import Crewd.Bus.Replies
import Crewd.Bus.Reports
import Crewd.Bus.Spending
import Crewd.Fabric.Atomicity
import Crewd.Fabric.Cancelling
import Crewd.Fabric.Ownership
import Crewd.Fabric.Tally
import Crewd.Refusals
import Crewd.RoundTrips
import Crewd.Calendar
import Crewd.Fabric.Journal
import Crewd.Engines.Notices
import Crewd.Engines.Pi
import Crewd.Engines.Conversations
import Crewd.Engines.Environment
import Crewd.Engines.Order
import Crewd.Client.Shim
