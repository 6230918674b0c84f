import DTun.Lib.Runs
import DTun.Lib.Lists
import DTun.Lib.CircularBuffer
import DTun.Lib.OrderedMap
import DTun.Lib.RingMemory
import DTun.Lib.Segments
import DTun.Lib.Permits
import DTun.Lib.Packed
import DTun.Lib.Framing
import DTun.Node.PortAllocator.Model
import DTun.Node.PortAllocator.Spec
import DTun.Node.PortAllocator.Invariant
import DTun.Node.PortAllocator.Search
import DTun.Node.PortAllocator.Wakeup
import DTun.Node.PortAllocator.Decay
import DTun.Node.ProxySession.Model
import DTun.Node.ProxySession.Flow
import DTun.Node.ProxySession.Relay
import DTun.Node.ProxySession.Control
import DTun.Node.ProxySession.Close
import DTun.Node.ProxyTCPClient.Model
import DTun.Node.ProxyTCPClient.Delivery
import DTun.Node.Tun2socks.Client
import DTun.Node.Tun2socks.Invariant
import DTun.Node.Tun2socks.Handlers
import DTun.Node.Tun2socks.Relay
import DTun.Util.StreamRead
import DTun.Util.ReadContract
import DTun.Util.StreamWrite
import DTun.Util.FailedWrite
import DTun.Util.UtpPair
import DTun.Util.Ltudp.Ports
import DTun.Util.Ltudp.Reverse
import DTun.Util.Ltudp.VirtualPorts
import DTun.Util.Ltudp.Active
import DTun.Util.Ltudp.Reply
import DTun.Util.Ltudp.Manager
import DTun.Util.Ltudp.Counted
import DTun.Util.Ltudp.Handles
import DTun.Util.Ltudp.ConnectFailure
import DTun.Util.Ltudp.Output
import DTun.Util.Utp.Manager
import DTun.Util.Utp.Routes
import DTun.Util.Utp.Sockets
import DTun.Util.Utp.Table
import DTun.Util.Utp.Output
import DTun.Util.OwnTransport
import DTun.Util.MTUDiscovery
import DTun.Util.OpWatch
import DTun.Util.SysReactor.Tokens
import DTun.Util.SysReactor.Registry
import DTun.Util.SysReactor.Loop
import DTun.Protocol
import DTun.Protocol.Layout
import DTun.Master.Server
import DTun.Master.Endpoints
import DTun.Master.Persistent
import DTun.Master.Lifetime
import DTun.Master.ReadLoop
import DTun.Node.MasterClient.Model
import DTun.Node.MasterClient.Spec
import DTun.Node.MasterClient.FreshIds
import DTun.Node.MasterClient.Routes
import DTun.Node.MasterClient.View
import DTun.Node.MasterClient.Queue
import DTun.Node.MasterClient.Outcome
import DTun.Node.MasterClient.Rendezvous
import DTun.Node.MasterClient.Spreading
import DTun.Node.MasterClient.ReadLoop
import DTun.Node.FastSession.Model
import DTun.Node.FastSession.Steps
import DTun.Node.FastSession.Turns
import DTun.Node.FastSession.Handlers
import DTun.Node.FastSession.Established
import DTun.Node.FastSession.Attempts
import DTun.Node.FastSession.Lockstep
import DTun.Node.FastSession.Requests
import DTun.Node.FastSession.Pings
import DTun.Node.Rendezvous.Session
import DTun.Node.Rendezvous.Fast
import DTun.Node.Rendezvous.FastModels
import DTun.Node.Rendezvous.SymmAcc
import DTun.Node.Rendezvous.SymmConn
import DTun.Node.Rendezvous.Completion
import DTun.Node.Rendezvous.Symm
import DTun.Node.Rendezvous.Symm.Turn
import DTun.Node.Rendezvous.Symm.AccTurns
import DTun.Node.Rendezvous.Symm.ConnTurns
import DTun.Node.Rendezvous.Symm.Lockstep
import DTun.Net.Framing
import DTun.Net.World
import DTun.Net.Honest
import DTun.Net.Outcome
import DTun.Net.Rendezvous
import DTun.Net.Requests
import DTun.Net.Orphan
import DTun.Net.Solo
