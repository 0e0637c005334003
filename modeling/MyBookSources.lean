import MyBookSources.Foundation.Bytes
import MyBookSources.Foundation.Execution
import MyBookSources.Foundation.Rfc6455
import MyBookSources.Foundation.Incremental
import MyBookSources.Foundation.Streaming
import MyBookSources.Foundation.Transducers
import MyBookSources.Foundation.SelfDelimiting
import MyBookSources.Foundation.WaitLoop
import MyBookSources.Foundation.LockStep
import MyBookSources.Foundation.MailText
import MyBookSources.Foundation.QuotedPrintable
import MyBookSources.Foundation.Base64
import MyBookSources.Foundation.FoldedHeaders
import MyBookSources.Foundation.SequentialWrites
import MyBookSources.Foundation.Polling
import MyBookSources.Foundation.Threads
import MyBookSources.Foundation.Fairness
import MyBookSources.Foundation.Handles
import MyBookSources.Foundation.SortedMap
import MyBookSources.Foundation.BoundedLines
import MyBookSources.Foundation.Segments
import MyBookSources.Foundation.Decimal
import MyBookSources.Foundation.OnesComplement
import MyBookSources.Foundation.Accumulation
import MyBookSources.Utils.StringUtil
import MyBookSources.Utils.StringUtilSpec
import MyBookSources.Utils.StringSegments
import MyBookSources.Net.Sockets
import MyBookSources.Net.Buffer
import MyBookSources.Net.BufferSpec
import MyBookSources.Net.BufferRefinement
import MyBookSources.Net.BufferFields
import MyBookSources.Net.ProtocolStream
import MyBookSources.Net.ProtocolStreamRoundTrip
import MyBookSources.Net.ProtocolStreamBounds
import MyBookSources.Net.LengthPrefixes
import MyBookSources.Net.Int64Fields
import MyBookSources.Net.Checksum
import MyBookSources.Net.Channel
import MyBookSources.Net.EPollPoller
import MyBookSources.Net.SelectPoller
import MyBookSources.Net.PollerEquivalence
import MyBookSources.Net.PollerUpdates
import MyBookSources.Net.PollPoller
import MyBookSources.Net.SelectEvents
import MyBookSources.Net.DescriptorSets
import MyBookSources.Net.EventLoop
import MyBookSources.Net.PendingFunctors
import MyBookSources.Net.EventLoopThread
import MyBookSources.Net.TcpConnection
import MyBookSources.Net.TcpConnectionSpec
import MyBookSources.Net.OutputPath
import MyBookSources.Net.ConnectionMachine
import MyBookSources.Net.TransientErrors
import MyBookSources.Net.ConnectionLifecycle
import MyBookSources.Net.ConcurrentClose
import MyBookSources.Net.ConnectionRemoval
import MyBookSources.Net.MessageDelivery
import MyBookSources.Net.OutputEffects
import MyBookSources.Net.SharedConnection
import MyBookSources.Net.HalfClose
import MyBookSources.Net.TcpServer
import MyBookSources.Net.ServerRemoval
import MyBookSources.Net.ServerStop
import MyBookSources.Net.ConnectionNames
import MyBookSources.Net.TimerQueue
import MyBookSources.Net.TimerRuns
import MyBookSources.Net.TimerOverloads
import MyBookSources.Net.TimerCallbacks
import MyBookSources.Net.Connector
import MyBookSources.Zlib.ZlibUtil
import MyBookSources.Zlib.StoredBlocks
import MyBookSources.Zlib.RoundTrip
import MyBookSources.Zlib.FixedBlock
import MyBookSources.Zlib.CompleteInflation
import MyBookSources.WebSocket.WebSocketHandshake
import MyBookSources.WebSocket.MyWebSocketSession
import MyBookSources.WebSocket.PackageDecoding
import MyBookSources.WebSocket.InputBuffer
import MyBookSources.WebSocket.PackageSending
import MyBookSources.WebSocket.FragmentedMessage
import MyBookSources.WebSocket.PackageReader
import MyBookSources.WebSocket.ReadCutting
import MyBookSources.WebSocket.SessionTrace
import MyBookSources.WebSocket.SessionOrder
import MyBookSources.WebSocket.SingleFrame
import MyBookSources.WebSocket.LengthBounds
import MyBookSources.WebSocket.PendingMessage
import MyBookSources.WebSocket.HandshakeHeaders
import MyBookSources.WebSocket.AcceptedKey
import MyBookSources.WebSocket.HeaderOrder
import MyBookSources.WebSocket.HandshakeReads
import MyBookSources.WebSocket.CompressionFlag
import MyBookSources.TimerV1.TimerManager
import MyBookSources.TimerV1.TimerIds
import MyBookSources.TimerV3.TimerManager
import MyBookSources.Base.AsyncLog
import MyBookSources.Base.StopCalls
import MyBookSources.Base.LogRolling
import MyBookSources.Base.FileWrites
import MyBookSources.Base.BinaryLog
import MyBookSources.Base.ReentrantTasks
import MyBookSources.Base.ConfigFileReader
import MyBookSources.Base.ConfigLines
import MyBookSources.SendMail.SmtpSocket
import MyBookSources.SendMail.SmtpDialogue
import MyBookSources.SendMail.ReplyCutting
import MyBookSources.SendMail.MessageText
import MyBookSources.SendMail.Base64RoundTrip
import MyBookSources.SendMail.Base64Bounds
import MyBookSources.RecvMail.EncodeUtil
import MyBookSources.RecvMail.MailHelper
import MyBookSources.RecvMail.Splitting
import MyBookSources.RecvMail.DateTimes
import MyBookSources.RecvMail.Trimming
import MyBookSources.RecvMail.BoundaryTags
import MyBookSources.RecvMail.BoundaryScan
import MyBookSources.RecvMail.PartAnalysis
import MyBookSources.RecvMail.MimeMail
import MyBookSources.RecvMail.PartCollection
import MyBookSources.RecvMail.RecordedParts
import MyBookSources.RecvMail.MailAnalysis
import MyBookSources.RecvMail.MailHistory
import MyBookSources.RecvMail.Base64LineBreaks
import MyBookSources.RecvMail.Base64Reads
import MyBookSources.RecvMail.HeaderTags
import MyBookSources.RecvMail.QuotedPrintableMemory
import MyBookSources.RecvMail.QuotedPrintableBounds
import MyBookSources.RecvMail.QuotedPrintableRoundTrip
import MyBookSources.RecvMail.EncodedWords
import MyBookSources.RecvMail.EncodedHeaders
import MyBookSources.RecvMail.HeaderReading
import MyBookSources.RecvMail.HeaderMeaning
import MyBookSources.RecvMail.Pop3Socket
import MyBookSources.RecvMail.ReceiveLoops
import MyBookSources.RecvMail.MailPositions
import MyBookSources.RecvMail.LogonCommands
import MyBookSources.SendMail.CompleteCommands
import MyBookSources.AsyncLogger.AsyncLogger
import MyBookSources.AsyncLogger.AsyncLoggerLinux
import MyBookSources.IOCPServer.IOCPModel
import MyBookSources.IOCPServer.PostedAccepts
import MyBookSources.IOCPServer.ClosedSockets
import MyBookSources.Foundation.Sha1
import MyBookSources.Foundation.Draining
import MyBookSources.WebSocket.AcceptValue
import MyBookSources.PackageFragments.RecvDataThread
import MyBookSources.PackageFragments.PackageStream
import MyBookSources.PackageFragments.FragmentedMessages
import MyBookSources.PackageFragments.ShortHeads
import MyBookSources.Foundation.WaitLoopProgress
import MyBookSources.Foundation.WaitLoopFairness
import MyBookSources.Base.TaskOrder
import MyBookSources.Net.LoopTurns
import MyBookSources.Net.TcpClient
import MyBookSources.WebSocket.BusinessSession
import MyBookSources.Foundation.Conversation
import MyBookSources.RecvMail.Pop3Session
import MyBookSources.Net.Acceptor
import MyBookSources.Foundation.Readiness
import MyBookSources.EpollServers.EpollServer
import MyBookSources.EpollServers.ReportedClients
import MyBookSources.EpollServers.Attention
import MyBookSources.EpollServers.SingleReports
import MyBookSources.WebSocket.MyWebSocketServer
import MyBookSources.IOCPServer.WorkerThreads
import MyBookSources.Foundation.OwnedHandles
import MyBookSources.PollServers.PollServer
import MyBookSources.PollServers.Descriptors
import MyBookSources.PollServers.EndedClients
import MyBookSources.PollServers.Rounds
