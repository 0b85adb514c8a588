import Clia.Library.LabelledRun
import Clia.Library.ListStore
import Clia.Library.Pieces
import Clia.Library.Ring
import Clia.Base
import Clia.Container.FixedOStream
import Clia.Container.Printing
import Clia.Container.CircularBuffer
import Clia.Container.RingQueue
import Clia.Container.BoundedBlockingQueue
import Clia.Net.Buffer
import Clia.Net.BufferRefinement
import Clia.Net.InputBuffer
import Clia.Net.BufferMove
import Clia.Net.InetAddress
import Clia.Reactor.Channel
import Clia.Reactor.Registration
import Clia.Reactor.Polling
import Clia.Reactor.Interest
import Clia.Reactor.LoopThread
import Clia.Reactor.Quit
import Clia.Reactor.EventLoopThread
import Clia.Net.TcpConnection
import Clia.Net.SessionFrame
import Clia.Net.OutputStream
import Clia.Net.WriteComplete
import Clia.Net.GracefulShutdown
import Clia.Net.StateRace
import Clia.Net.ForeignShutdown
import Clia.Net.DeferredSend
import Clia.Net.SendErrors
import Clia.Net.Startup
import Clia.Net.TcpServer
import Clia.Net.ServerInvariant
import Clia.Net.SessionStage
import Clia.Net.ServerFrame
import Clia.Net.ServerSteps
import Clia.Net.ServerRun
import Clia.Net.History
import Clia.Net.NextLoop
import Clia.Net.Streams
import Clia.Net.ServerStreams
import Clia.Net.Lifecycle
import Clia.Net.EchoServer
import Clia.Net.Teardown
import Clia.Net.LoopPhases
import Clia.Net.Hangup
import Clia.Net.Rest
import Clia.Net.Ownership
import Clia.Net.Dispatch
import Clia.Log.AsyncLogger
import Clia.Log.Delivery
import Clia.Log.Admission
import Clia.Log.Shutdown
import Clia.Log.Recycling
import Clia.Log.FileAppender
import Clia.Log.Rolling
import Clia.Log.RollDiscipline
import Clia.Log.RollNames
import Clia.Log.Retention
import Clia.Log.Event
import Clia.Log.Line
import Clia.Log.LineOrder
import Clia.Log.FileLog
import Clia.Log.Pipeline
import Clia.Log.Join
import Clia.Log.SyncLogger
import Clia.Log.LoggerManger
import Clia.Util.StrFunc
import Clia.Util.Timestamp
import Clia.Util.CountDownLatch
