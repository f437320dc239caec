import NeighborDiscovery.Library.Expiry
import NeighborDiscovery.Library.Runs
import NeighborDiscovery.Library.SlotTable
import NeighborDiscovery.Library.BitPrefix
import NeighborDiscovery.Library.ErasingLoop
import NeighborDiscovery.Network.WireFormat
import NeighborDiscovery.Network.LengthFields
import NeighborDiscovery.Network.NetworkNeighborDiscoverer
import NeighborDiscovery.Network.SocketUpdates
import NeighborDiscovery.Network.NeighborTable
import NeighborDiscovery.Network.Iteration
import NeighborDiscovery.Network.DaemonRun
import NeighborDiscovery.Network.NeighborHistory
import NeighborDiscovery.Network.CliReply
import NeighborDiscovery.Network.IPv4Membership
import NeighborDiscovery.Network.MulticastTargets
import NeighborDiscovery.Network.Discovery
import NeighborDiscovery.Network.MulticastService
import NeighborDiscovery.Network.NetInterfaceManager
import NeighborDiscovery.Cli.CppCliNeighborRequestor
import NeighborDiscovery.Cli.ReplyStream
import NeighborDiscovery.Network.MutualDiscovery
import NeighborDiscovery.Network.Listening
import NeighborDiscovery.Network.ReceiveCourse
import NeighborDiscovery.Network.IterationFaults
import NeighborDiscovery.Network.RequestAnswer
import NeighborDiscovery.Network.HandleSafety
import NeighborDiscovery.Cli.Explanations
import NeighborDiscovery.Network.AnnouncementOrder
import NeighborDiscovery.Network.PrefixMatching
import NeighborDiscovery.Network.SendTargets
import NeighborDiscovery.Network.LoopPasses
import NeighborDiscovery.Network.ClientReplies
import NeighborDiscovery.Network.InterfaceCollection
import NeighborDiscovery.Network.Sockets.AddressTexts
import NeighborDiscovery.Unix.Sending
import NeighborDiscovery.Containers.History
import NeighborDiscovery.Library.Ownership
import NeighborDiscovery.Utility.Descriptors
import NeighborDiscovery.Unix.SocketOwnership
import NeighborDiscovery.Network.Sockets.ReceiverOwnership
import NeighborDiscovery.Library.PartialKernel
import NeighborDiscovery.Network.SubnetRelation
import NeighborDiscovery.Network.PrefixBounds
import NeighborDiscovery.Network.ByteCounter
import NeighborDiscovery.Library.Pacing
import NeighborDiscovery.Network.ListeningTime
import NeighborDiscovery.Processes.Process
import NeighborDiscovery.Processes.CppNeighborDiscovery
import NeighborDiscovery.Processes.Daemonize
import NeighborDiscovery.Processes.Retention
import NeighborDiscovery.Library.Broadcast
import NeighborDiscovery.Network.ForeignAnnouncements
import NeighborDiscovery.Network.DaemonNetwork
import NeighborDiscovery.Network.NetworkProgress
import NeighborDiscovery.Network.Convergence
import NeighborDiscovery.Library.Leases
import NeighborDiscovery.Library.Lockstep
import NeighborDiscovery.Network.DescriptorUse
import NeighborDiscovery.Library.Polling
import NeighborDiscovery.Network.TraversalOrders
import NeighborDiscovery.Processes.CliSession
import NeighborDiscovery.Library.NameRegistry
import NeighborDiscovery.Network.OwnInterfaces
import NeighborDiscovery.Processes.LinkSession
import NeighborDiscovery.Processes.ServerTakeover
