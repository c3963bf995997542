import Snmppp.Run
import Snmppp.Arena
import Snmppp.OrdSet
import Snmppp.Bytes
import Snmppp.Oid
import Snmppp.OidText
import Snmppp.Stem
import Snmppp.Kin
import Snmppp.Span
import Snmppp.Dotted
import Snmppp.Loop
import Snmppp.OidParse
import Snmppp.OidPrint
import Snmppp.Forest
import Snmppp.NetSnmp
import Snmppp.Varlist
import Snmppp.Pdu
import Snmppp.Get
import Snmppp.Trap
import Snmppp.Memory
import Snmppp.PduRun
import Snmppp.Adding
import Snmppp.BulkAdd
import Snmppp.AddRefine
import Snmppp.Store
import Snmppp.OrdMap
import Snmppp.Views
import Snmppp.ValueText
import Snmppp.Listing
import Snmppp.Subtree
import Snmppp.Mib
import Snmppp.MibName
import Snmppp.MibExact
import Snmppp.MibPlace
import Snmppp.TrapRelease
import Snmppp.TrapShape
import Snmppp.SyncRun
import Snmppp.BulkRun
import Snmppp.BulkOrder
import Snmppp.Release
import Snmppp.Walk
import Snmppp.Tag
import Snmppp.Handles
import Snmppp.Session
import Snmppp.SessionRun
import Snmppp.Ledger
import Snmppp.Twin
import Snmppp.Value
import Snmppp.Footprint
import Snmppp.ValueRun
import Snmppp.Locals
import Snmppp.Program
import Snmppp.ProgramRun
import Snmppp.ValueLeaks
import Snmppp.ProgramLeaks
import Snmppp.ProgramThrows
import Snmppp.Threads
import Snmppp.Calls
import Snmppp.SnmpCalls
import Snmppp.SessionThreads
import Snmppp.Cursor
import Snmppp.Agent
import Snmppp.AgentBulk
import Snmppp.AgentStore
import Snmppp.MibModule
import Snmppp.Exclusion
import Snmppp.Inits
import Snmppp.InitOrder
import Snmppp.Uptime
