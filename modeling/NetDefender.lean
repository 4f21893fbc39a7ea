import NetDefender.Lib.Serial
import NetDefender.Lib.Keyed
import NetDefender.Lib.Windows
import NetDefender.Lib.Span
import NetDefender.Lib.Yielding
import NetDefender.Lib.Crc
import NetDefender.Lib.CString
import NetDefender.Lib.Framing
import NetDefender.Packet.Decode
import NetDefender.Packet.Bounds
import NetDefender.Stream.Model
import NetDefender.Stream.Queue
import NetDefender.Stream.Steps
import NetDefender.Stream.Content
import NetDefender.Stream.Counters
import NetDefender.Stream.Coverage
import NetDefender.Stream.Order
import NetDefender.Stream.Policy
import NetDefender.Stream.InOrder
import NetDefender.Stream.Results
import NetDefender.Stream.Charges
import NetDefender.Stream.Memory
import NetDefender.Stream.Merging
import NetDefender.Stream.Yielding
import NetDefender.Stream.Visible
import NetDefender.Stream.Earliest
import NetDefender.Flow.Model
import NetDefender.Flow.Session
import NetDefender.Flow.Updates
import NetDefender.Flow.Handshake
import NetDefender.Flow.Closing
import NetDefender.Flow.Table
import NetDefender.Flow.Counts
import NetDefender.Flow.Handles
import NetDefender.Proto.Detect
import NetDefender.Proto.Veto
import NetDefender.Http.Parser
import NetDefender.Http.Chunking
import NetDefender.Http.Feeding
import NetDefender.Tls.Parser
import NetDefender.Tls.Records
import NetDefender.Rules.Check
import NetDefender.Timer.Wheel
import NetDefender.Timer.Links
import NetDefender.Timer.Exactness
import NetDefender.Bridge.Process
import NetDefender.Bridge.Connection
import NetDefender.Bridge.Reparse
import NetDefender.Flow.Expiry
import NetDefender.Dns.Parser
import NetDefender.Dns.Reads
import NetDefender.Dns.Message
import NetDefender.Dns.Connection
import NetDefender.Dns.Sections
import NetDefender.Http.RoundTrip
import NetDefender.Http.Interleaving
import NetDefender.Behavior.Model
import NetDefender.Behavior.Runs
import NetDefender.Bridge.Contexts
import NetDefender.Bridge.Alerts
import NetDefender.Flow.Renaming
import NetDefender.Bridge.Beside
import NetDefender.Bridge.Independence
import NetDefender.Rules.Conditions
import NetDefender.Rules.AlertList
import NetDefender.Rules.Wire
import NetDefender.Behavior.Isolation
import NetDefender.Behavior.PortScan
import NetDefender.Behavior.Exfiltration
import NetDefender.Behavior.Counting
import NetDefender.Lib.Json
import NetDefender.Output.Builder
import NetDefender.Output.Members
import NetDefender.Output.Events
import NetDefender.Output.Lines
import NetDefender.Timer.Machine
import NetDefender.Timer.Refinement
import NetDefender.Timer.Reentry
import NetDefender.Timer.Periodic
import NetDefender.Timer.Absolute
import NetDefender.Lib.Buckets
import NetDefender.Netif.Ports
import NetDefender.Netif.Registration
import NetDefender.Netif.Lcores
import NetDefender.Netif.Partition
import NetDefender.Netif.Workers
import NetDefender.Netif.Selection
import NetDefender.Netif.Indexing
import NetDefender.Dns.Writes
import NetDefender.Tls.Fingerprints
import NetDefender.Lib.Loops
import NetDefender.Dns.Names
import NetDefender.Proto.Questions
import NetDefender.Output.Unions
import NetDefender.Lib.Reading
import NetDefender.Tls.Reads
import NetDefender.Tls.RoundTrip
import NetDefender.Tls.Coalescing
import NetDefender.Rules.Ja3
import NetDefender.Lib.Searching
import NetDefender.Proto.Patterns
import NetDefender.Output.Escaping
import NetDefender.Netif.Sizes
import NetDefender.Netif.Steering
import NetDefender.Timer.Updates
import NetDefender.Config.Tokens
import NetDefender.Config.Comments
import NetDefender.Config.Stream
import NetDefender.Config.Lines
import NetDefender.Config.Received
import NetDefender.Config.Blocks
import NetDefender.Timer.Draining
import NetDefender.Lib.Rings
import NetDefender.Timer.Nodes
import NetDefender.Lib.Ledger
import NetDefender.Netif.Receiving
import NetDefender.Netif.Interleaving
import NetDefender.Netif.Custody
import NetDefender.Netif.Reception
import NetDefender.Netif.Startup
import NetDefender.Netif.Undisturbed
import NetDefender.Config.Keywords
import NetDefender.Config.Guarding
import NetDefender.Config.Handlers
import NetDefender.Config.Loading
import NetDefender.Config.Ranges
import NetDefender.Config.Reloading
import NetDefender.Config.Sections
import NetDefender.Config.Printing
import NetDefender.Config.Settings
import NetDefender.Config.RoundTrip
import NetDefender.Lib.RingFamilies
import NetDefender.Sched.Registry
import NetDefender.Sched.Turns
