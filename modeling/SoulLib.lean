import SoulLib.Semantics.Runs
import SoulLib.Semantics.Interleaving
import SoulLib.Semantics.LinkedList
import SoulLib.Semantics.Unwinding
import SoulLib.Networking.NetworkManager
import SoulLib.Networking.Window
import SoulLib.Networking.ReceiveWindow
import SoulLib.Networking.Lane
import SoulLib.Networking.Delivery
import SoulLib.Networking.Acknowledgement
import SoulLib.Async.Task
import SoulLib.Async.TaskScheduler
import SoulLib.Async.Writes
import SoulLib.Async.Dependencies
import SoulLib.Async.Registration
import SoulLib.Async.Queues
import SoulLib.Async.Wakeups
import SoulLib.Async.Suspension
import SoulLib.Async.Graph
import SoulLib.Async.Observation
import SoulLib.Async.Outcomes
import SoulLib.Async.Bodies
import SoulLib.Async.Shutdown
import SoulLib.Time.FrameScheduler
import SoulLib.Async.Continuations
import SoulLib.Memory.ArenaAllocator
import SoulLib.Memory.MemoryManager
import SoulLib.Memory.PoolAllocator
import SoulLib.Memory.Accounting
import SoulLib.Memory.TaggedHeap
import SoulLib.Containers.Cells
import SoulLib.Networking.Transport
import SoulLib.Networking.AckWindow
import SoulLib.Networking.Host
import SoulLib.Networking.Retransmission
import SoulLib.Networking.Budget
import SoulLib.Networking.Receipts
import SoulLib.Networking.AckFiltering
import SoulLib.Networking.Isolation
import SoulLib.Networking.WrapAround
import SoulLib.Networking.Drain
import SoulLib.Time.TimeService
import SoulLib.Network.Client
import SoulLib.Network.TimeRequests
import SoulLib.Containers.PriorityQueue
import SoulLib.Containers.LowerBound
import SoulLib.Containers.Comparator
import SoulLib.Containers.SoulFlatMap
import SoulLib.Containers.SoulVector
import SoulLib.Containers.VectorMethods
import SoulLib.Containers.Vectors
import SoulLib.Containers.VectorRefinement
import SoulLib.Containers.VectorRuns
import SoulLib.Containers.VectorExceptions
import SoulLib.Containers.OwnElements
import SoulLib.Containers.ReservedCapacity
import SoulLib.Containers.Searcher
import SoulLib.Containers.Sequences
import SoulLib.Containers.Interchange
import SoulLib.Containers.FlatMapRefinement
import SoulLib.Containers.FlatMapSort
import SoulLib.Time.EventScheduler
import SoulLib.Time.DueEvents
import SoulLib.Time.Reentrancy
import SoulLib.Time.Repetition
import SoulLib.Memory.ArenaAlignment
import SoulLib.Memory.PoolLayout
import SoulLib.FileSystem.AesEncryption
import SoulLib.Containers.Heap
import SoulLib.Network.Fragmentation
import SoulLib.Time.Readings
import SoulLib.Time.TimerManager
import SoulLib.Containers.BinaryHeap
import SoulLib.Time.HeapScheduler
import SoulLib.Semantics.Keystream
import SoulLib.Semantics.Json
import SoulLib.Time.ExecutionOrder
import SoulLib.Memory.MemoryVisualizer
import SoulLib.Semantics.Ownership
import SoulLib.Memory.UniquePtr
import SoulLib.Semantics.Quoted
import SoulLib.Memory.Graphviz
import SoulLib.Time.EndTimes
import SoulLib.Semantics.Streams
import SoulLib.FileSystem.FileManager
import SoulLib.FileSystem.Files
import SoulLib.FileSystem.Sessions
import SoulLib.FileSystem.Serialization
import SoulLib.FileSystem.AsyncFileManager
import SoulLib.FileSystem.AsyncFiles
import SoulLib.Memory.SharedPtr
import SoulLib.Memory.SharedOwnership
import SoulLib.Networking.Connections
import SoulLib.Networking.TcpDelivery
import SoulLib.Networking.TcpSockets
import SoulLib.Containers.OrderedList
import SoulLib.Containers.Associative
import SoulLib.Containers.AssociativeRuns
import SoulLib.Containers.Adapters
import SoulLib.Containers.ContainerRuns
import SoulLib.Networking.Contents
import SoulLib.Networking.Datagrams
import SoulLib.Semantics.Linearizability
import SoulLib.Memory.RegistryCalls
import SoulLib.Async.Overtaking
import SoulLib.Network.Sockets
