import Tpt.Lib.Memory
import Tpt.Lib.Chain
import Tpt.MemPool.Model
import Tpt.MemPool.FreeList
import Tpt.MemPool.Allocator
import Tpt.MemPool.Simulation
import Tpt.MemPool.Growth
import Tpt.MemPool.Runs
import Tpt.MemPool.Refinement
import Tpt.MemPool.Correctness
import Tpt.MemPool.Separation
import Tpt.MemPool.Create
import Tpt.ConnMgr.Queue
import Tpt.ConnMgr.QueueRuns
import Tpt.ConnMgr.Pool
import Tpt.ConnMgr.PoolAccounting
import Tpt.ConnMgr.PoolCapacity
import Tpt.ConnMgr.PoolWakeups
import Tpt.Lib.Script
import Tpt.Splice.Model
import Tpt.Splice.Termination
import Tpt.Splice.Streams
import Tpt.Splice.Close
import Tpt.Philosophers.Model
import Tpt.Philosophers.Exclusion
import Tpt.Philosophers.Progress
import Tpt.Lib.Ring
import Tpt.SharedMemory.Queue
import Tpt.SharedMemory.Processes
import Tpt.SharedMemory.Restart
import Tpt.Supervisor.Model
import Tpt.Supervisor.Bookkeeping
import Tpt.Supervisor.Signals
import Tpt.Supervisor.Restart
import Tpt.HimProxy.Lifetime
import Tpt.HimProxy.Requests
import Tpt.HimProxy.RequestList
import Tpt.HimProxy.Receiving
import Tpt.HimProxy.Chunking
import Tpt.HimProxy.QueuedRequests
import Tpt.ConnMgr.TryPop
import Tpt.ConnMgr.Conn
import Tpt.HimProxy.ParseLoop
import Tpt.Splice.Descriptors
import Tpt.HimProxy.ClientBuffer
import Tpt.UnixSock.Isolation
import Tpt.Lib.Handles
import Tpt.Mongo.Model
import Tpt.Mongo.Exclusive
import Tpt.Bson.Codec
import Tpt.Bson.Format
import Tpt.Bson.Buffer
import Tpt.Bson.ErrorPaths
import Tpt.Bson.RoundTrip
import Tpt.Bson.Values
import Tpt.Bson.Nested
import Tpt.Mongo.PoolUri
import Tpt.LinuxNamespace.NetCnt
import Tpt.Other.BitScan
import Tpt.Other.MiniPrintf
import Tpt.Aio.Readers
import Tpt.EchoServer.Handler
import Tpt.Other.GenUniqNumbers
import Tpt.WaitForChild.Restart
import Tpt.EventServer.Model
import Tpt.EventServer.Sessions
import Tpt.Bson.Construction
import Tpt.Encoding.ZigZag
import Tpt.Lib.Fifo
import Tpt.SharedMemory.Fifo
import Tpt.MemPool.Ledger
import Tpt.Lib.EdgeTriggered
import Tpt.Lib.Progress
import Tpt.Poller.Descriptors
import Tpt.Poller.Draining
import Tpt.MemPool.Pools
import Tpt.Other.Condvar
import Tpt.ConnMgr.Lifetime
import Tpt.EchoServer.Deadlock
import Tpt.SharedMemory.Interrupts
import Tpt.SharedMemory.Survival
import Tpt.Lib.FdTable
import Tpt.Splice.Leaks
import Tpt.Other.Pipe
import Tpt.Udp.Echo
import Tpt.EchoServer.Service
import Tpt.Mongo.Completion
import Tpt.LinuxNamespace.Commands
import Tpt.Other.HttpClient
