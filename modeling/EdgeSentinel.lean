import EdgeSentinel.Library.Mealy
import EdgeSentinel.Library.Exec
import EdgeSentinel.Library.SizeT
import EdgeSentinel.Library.Links
import EdgeSentinel.Library.Ring
import EdgeSentinel.Library.BigEndian
import EdgeSentinel.Library.Words
import EdgeSentinel.Library.Counting
import EdgeSentinel.Library.Watermark
import EdgeSentinel.Library.CondVar
import EdgeSentinel.Library.BitPolynomial
import EdgeSentinel.Library.Crc
import EdgeSentinel.Domain
import EdgeSentinel.Fsm.Machine
import EdgeSentinel.Fsm.Step
import EdgeSentinel.Fsm.Counters
import EdgeSentinel.Fsm.Protection
import EdgeSentinel.Fsm.Latch
import EdgeSentinel.Fsm.Outage
import EdgeSentinel.Fsm.Unbounded
import EdgeSentinel.Fsm.Flapping
import EdgeSentinel.Pool.Model
import EdgeSentinel.Pool.FreeList
import EdgeSentinel.Pool.Ownership
import EdgeSentinel.Pool.Handle
import EdgeSentinel.Pool.Lifetime
import EdgeSentinel.Pool.Statistics
import EdgeSentinel.Pool.StalePointer
import EdgeSentinel.Queue.Model
import EdgeSentinel.Queue.Fifo
import EdgeSentinel.Queue.Waiters
import EdgeSentinel.Queue.Wakeup
import EdgeSentinel.Queue.Statistics
import EdgeSentinel.Protocols.Measurement
import EdgeSentinel.Protocols.UartFrame
import EdgeSentinel.Protocols.UartDecoder
import EdgeSentinel.Protocols.UartStream
import EdgeSentinel.Protocols.UartResync
import EdgeSentinel.Protocols.UartScan
import EdgeSentinel.Protocols.UartCrc
import EdgeSentinel.Protocols.CanMessage
import EdgeSentinel.Protocols.I2cSensor
import EdgeSentinel.Linux.UartSource
import EdgeSentinel.Linux.UartOutage
import EdgeSentinel.Linux.UartReadings
import EdgeSentinel.Linux.CanSource
import EdgeSentinel.Linux.Buses
import EdgeSentinel.Linux.Descriptor
import EdgeSentinel.Linux.Adapters
import EdgeSentinel.Ipc.Command
import EdgeSentinel.Ipc.Grammar
import EdgeSentinel.Ipc.Server
import EdgeSentinel.Ipc.Client
import EdgeSentinel.Ipc.Exchange
import EdgeSentinel.Linux.CommandServer
import EdgeSentinel.Linux.ServerLife
import EdgeSentinel.Linux.ServerPath
import EdgeSentinel.Linux.ServerStop
import EdgeSentinel.Runtime.Pipeline
import EdgeSentinel.Runtime.Model
import EdgeSentinel.Runtime.Ownership
import EdgeSentinel.Runtime.Accounting
import EdgeSentinel.Runtime.Lifecycle
import EdgeSentinel.Runtime.Refinement
import EdgeSentinel.Runtime.Shutdown
import EdgeSentinel.Runtime.Congestion
import EdgeSentinel.Runtime.Conservation
import EdgeSentinel.Runtime.Metrics
import EdgeSentinel.Runtime.Startup
import EdgeSentinel.Runtime.Latency
import EdgeSentinel.Runtime.Threads
import EdgeSentinel.Runtime.Termination
import EdgeSentinel.Runtime.Tally
import EdgeSentinel.Runtime.Snapshot
import EdgeSentinel.Daemon.Model
import EdgeSentinel.Daemon.Projection
import EdgeSentinel.Daemon.Response
import EdgeSentinel.Daemon.Stranded
import EdgeSentinel.Daemon.Steps
import EdgeSentinel.Daemon.Callers
import EdgeSentinel.Daemon.Delivery
import EdgeSentinel.Daemon.Exit
import EdgeSentinel.Daemon.Order
import EdgeSentinel.Daemon.Samples
import EdgeSentinel.Daemon.Recovery
