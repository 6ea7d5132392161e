import UserspaceRouter.Foundations.AssocMap
import UserspaceRouter.Foundations.OnesComplement
import UserspaceRouter.Foundations.TransitionSystem
import UserspaceRouter.Net.Checksum
import UserspaceRouter.Net.View
import UserspaceRouter.Router.Conntrack
import UserspaceRouter.Router.Nat
import UserspaceRouter.Router.Translate
import UserspaceRouter.Router.TranslateValid
import UserspaceRouter.Router.Firewall
import UserspaceRouter.Foundations.Intervals
import UserspaceRouter.Router.Pool
import UserspaceRouter.Foundations.Ownership
import UserspaceRouter.Net.Dhcp
import UserspaceRouter.Router.Dhcp
import UserspaceRouter.Router.DhcpWorkers
import UserspaceRouter.Router.Ports
import UserspaceRouter.Foundations.ByteMemory
import UserspaceRouter.Mem.Channel
import UserspaceRouter.Mem.FreeList
import UserspaceRouter.Mem.FreeBlocks
import UserspaceRouter.Mem.Heap
import UserspaceRouter.Foundations.Fifo
import UserspaceRouter.Mem.Ring
import UserspaceRouter.Router.NeighborQueues
import UserspaceRouter.Router.Reservations
import UserspaceRouter.Router.RoundTrip
import UserspaceRouter.Router.Boundary
import UserspaceRouter.Router.DhcpClient
import UserspaceRouter.Router.Fdb
import UserspaceRouter.Router.App
import UserspaceRouter.Router.Bridge
import UserspaceRouter.Router.FlowLife
import UserspaceRouter.Foundations.Outputs
import UserspaceRouter.Router.FlowIsolation
import UserspaceRouter.Router.Frame
import UserspaceRouter.Net.DhcpBuild
import UserspaceRouter.Router.DhcpMessages
import UserspaceRouter.Router.DhcpServers
import UserspaceRouter.Router.DhcpClientRuns
import UserspaceRouter.Router.DhcpLoss
import UserspaceRouter.Router.NatLimits
import UserspaceRouter.Router.NeighborRetries
import UserspaceRouter.Core.RwSpinLock
import UserspaceRouter.Router.ArpAnswers
import UserspaceRouter.Router.Sweeps
import UserspaceRouter.Dpdk.Queues
import UserspaceRouter.Foundations.Checked
import UserspaceRouter.Router.PoolRuns
import UserspaceRouter.Mem.Placement
import UserspaceRouter.Router.NeighborReverse
import UserspaceRouter.Foundations.PullIterator
import UserspaceRouter.Net.DhcpOptions
import UserspaceRouter.Net.Descent
import UserspaceRouter.Router.FrameRoundTrip
import UserspaceRouter.Router.DhcpReplies
import UserspaceRouter.Net.ChecksumUpdate
import UserspaceRouter.Core.Bitmask
import UserspaceRouter.Mem.ObjectPool
import UserspaceRouter.Net.Netmask
import UserspaceRouter.Router.ArpResponders
import UserspaceRouter.Net.InternetChecksum
import UserspaceRouter.Foundations.Locking
import UserspaceRouter.Core.Locks
import UserspaceRouter.Mem.ControlBlock
import UserspaceRouter.Router.Datapath
import UserspaceRouter.Router.DatapathInvariant
import UserspaceRouter.Router.DatapathSafety
import UserspaceRouter.Router.Account
import UserspaceRouter.Router.OneWorker
import UserspaceRouter.Router.Connections
