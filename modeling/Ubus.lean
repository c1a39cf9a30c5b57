import Ubus.Lib.PatternWalk
import Ubus.Lib.Tree
import Ubus.Lib.Ownership
import Ubus.Lib.Pipe
import Ubus.Msg
import Ubus.Blob
import Ubus.Acl
import Ubus.AclLoad
import Ubus.State
import Ubus.Transport
import Ubus.Event
import Ubus.Obj
import Ubus.Proto
import Ubus.Main
import Ubus.Frame
import Ubus.Custody
import Ubus.Integrity
import Ubus.Lifecycle
import Ubus.Emission
import Ubus.Sends
import Ubus.Work
import Ubus.Handlers
import Ubus.Invariant
import Ubus.Dispatch
import Ubus.Io
import Ubus.Session
import Ubus.Moves
import Ubus.Turns
import Ubus.Ledger
import Ubus.Safety
import Ubus.Provenance
import Ubus.Validity
import Ubus.Bus
import Ubus.Refine
import Ubus.Effects
import Ubus.Serve
import Ubus.Lookup
import Ubus.Delivery
import Ubus.Access
import Ubus.Untouched
import Ubus.Atomic
import Ubus.World
import Ubus.Deeds
import Ubus.Watch
import Ubus.Replies
import Ubus.TypeCount
import Ubus.Changes
import Ubus.PathLookup
import Ubus.Bounds
import Ubus.Traffic
import Ubus.Shipment
import Ubus.Lanes
import Ubus.Arrival
import Ubus.Framing
import Ubus.Lib.Scan
import Ubus.Survey
import Ubus.Stages
import Ubus.Interest
import Ubus.Libubus.Notify
import Ubus.Libubus.Hook
import Ubus.Libubus.Descriptor
import Ubus.Accounting
import Ubus.Libubus.Signature
import Ubus.Libubus.AclIndex
import Ubus.Libubus.Receive
import Ubus.Libubus.Intact
