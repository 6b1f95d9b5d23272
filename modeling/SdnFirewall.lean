import SdnFirewall.Common.Dict
import SdnFirewall.Common.Prog
import SdnFirewall.Common.Sections
import SdnFirewall.Common.Parts
import SdnFirewall.Common.Runs
import SdnFirewall.Common.Scan
import SdnFirewall.Common.Cells
import SdnFirewall.Common.Window
import SdnFirewall.Common.Python
import SdnFirewall.OpenFlow.Table
import SdnFirewall.Packet.Headers
import SdnFirewall.Packet.Mininet
import SdnFirewall.Dpi.Engine
import SdnFirewall.Controller.State
import SdnFirewall.Controller.Effects
import SdnFirewall.Controller.Flush
import SdnFirewall.Controller.Trust
import SdnFirewall.Controller.Checks
import SdnFirewall.Controller.Handlers
import SdnFirewall.Controller.Sections
import SdnFirewall.Controller.Verdict
import SdnFirewall.Controller.Segments
import SdnFirewall.Controller.Dissector
import SdnFirewall.Rest.Wsgi
import SdnFirewall.Rest.Sections
import SdnFirewall.System.World
import SdnFirewall.System.Records
import SdnFirewall.System.Counters
import SdnFirewall.System.Tables
import SdnFirewall.System.Lookup
import SdnFirewall.System.Learning
import SdnFirewall.System.Network
import SdnFirewall.System.Fabric
import SdnFirewall.System.Interleaving
import SdnFirewall.Properties.Blocking
import SdnFirewall.Properties.Inspection
import SdnFirewall.Properties.Reassembly
import SdnFirewall.Properties.TrustTable
import SdnFirewall.Properties.Uninspected
import SdnFirewall.Properties.Bypass
import SdnFirewall.Properties.RateLimit
import SdnFirewall.Properties.Orphans
import SdnFirewall.Properties.Rejected
import SdnFirewall.Properties.Drops
import SdnFirewall.Properties.Reconnect
import SdnFirewall.Properties.Logging
import SdnFirewall.Properties.Expiry
import SdnFirewall.Properties.PerPacket
import SdnFirewall.Properties.NewSignature
import SdnFirewall.Properties.Payload
import SdnFirewall.Properties.Isolation
import SdnFirewall.Properties.ArrivalOrder
import SdnFirewall.Properties.Output
import SdnFirewall.Properties.Pipeline
import SdnFirewall.Properties.FlushExact
import SdnFirewall.Properties.PatternStore
import SdnFirewall.Properties.Accounting
import SdnFirewall.Properties.Gauge
import SdnFirewall.Properties.RateConfig
import SdnFirewall.Properties.RuleRequests
import SdnFirewall.Properties.FlowKey
import SdnFirewall.Properties.Moves
import SdnFirewall.Properties.Truncation
import SdnFirewall.Properties.Survival
import SdnFirewall.Dashboard.Rows
import SdnFirewall.Properties.Escaping
import SdnFirewall.Common.Numerals
import SdnFirewall.Common.Registers
import SdnFirewall.Packet.Addresses
import SdnFirewall.System.Dissection
import SdnFirewall.System.History
import SdnFirewall.Properties.Policy
import SdnFirewall.Properties.Determinism
import SdnFirewall.Common.Accounts
import SdnFirewall.Properties.Broadcasts
import SdnFirewall.Common.Framing
import SdnFirewall.Controller.RecvLoop
import SdnFirewall.Controller.Connection
import SdnFirewall.Controller.Dispatch
import SdnFirewall.System.Connections
import SdnFirewall.Properties.Handshakes
import SdnFirewall.Controller.SendQueue
import SdnFirewall.Common.Struct
import SdnFirewall.Controller.Oxm
import SdnFirewall.Controller.Wire
import SdnFirewall.Properties.Wire
