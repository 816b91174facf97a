import AudioFork.Buffers.DryPool
import AudioFork.Buffers.Marks
import AudioFork.Buffers.Newest
import AudioFork.Buffers.PoolAccounts
import AudioFork.Buffers.QueueFifo
import AudioFork.Buffers.RingThreads
import AudioFork.Config.WsUrl
import AudioFork.Module.HelloFits
import AudioFork.Module.LoadConfig
import AudioFork.Module.MediaBugs
import AudioFork.Module.Orders
import AudioFork.Module.Retirement
import AudioFork.Module.WriteReplace
import AudioFork.Net.Completion
import AudioFork.Net.EventLoop
import AudioFork.Net.Reassembly
import AudioFork.Net.ShardPool
import AudioFork.Net.WsConnection
import AudioFork.Playback.BargeIn
import AudioFork.Protocol.Classification
import AudioFork.Protocol.Nesting
import AudioFork.Session.AfterDeath
import AudioFork.Session.Alignment
import AudioFork.Session.Backpressure
import AudioFork.Session.Conservation
import AudioFork.Session.DrySpell
import AudioFork.Session.FlowControl
import AudioFork.Session.Gauges
import AudioFork.Session.GracefulDrain
import AudioFork.Session.KnownServer
import AudioFork.Session.Leases
import AudioFork.Session.Memory
import AudioFork.Session.ModifyWindow
import AudioFork.Session.Ownership
import AudioFork.Session.Reentry
import AudioFork.Session.Reports
import AudioFork.Session.Resume
import AudioFork.Session.Standing
import AudioFork.Session.StateMachine
import AudioFork.Session.TextDelivery
import AudioFork.Session.WireOrder
