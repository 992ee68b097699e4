import HttpServer.Lib.ListSearch
import HttpServer.Bytes
import HttpServer.HttpMessage
import HttpServer.HttpParser
import HttpServer.RequestLine
import HttpServer.Config
import HttpServer.RecvRequest
import HttpServer.ContentLength
import HttpServer.Segmentation
import HttpServer.Framing
import HttpServer.Acceptance
import HttpServer.DecimalLength
import HttpServer.ConfigNumbers
import HttpServer.RecvPhases
import HttpServer.RecvFailures
import HttpServer.BufferBound
import HttpServer.Lib.SizeT
import HttpServer.IndexSafety
import HttpServer.Decimal
import HttpServer.HeaderFields
import HttpServer.RequestTokens
import HttpServer.RoundTrip
import HttpServer.HeaderLookup
import HttpServer.HeaderValues
import HttpServer.LookupOrder
import HttpServer.Lib.SepPath
import HttpServer.StaticFile
import HttpServer.Lib.StackPath
import HttpServer.PathForm
import HttpServer.StaticRoot
import HttpServer.StaticTarget
import HttpServer.PercentDecoding
import HttpServer.Router
import HttpServer.RouteSelection
import HttpServer.RouteHistory
import HttpServer.QueryString
import HttpServer.Lib.FlatJson
import HttpServer.JsonPages
import HttpServer.Lib.PartSearch
import HttpServer.WorkParams
import HttpServer.Lib.Machine
import HttpServer.Lib.Fifo
import HttpServer.Lib.CondVar
import HttpServer.BlockingQueue
import HttpServer.QueueFifo
import HttpServer.QueueWakeup
import HttpServer.Lib.Slots
import HttpServer.ThreadPool
import HttpServer.PoolDrain
import HttpServer.PoolShutdown
import HttpServer.PoolGauge
import HttpServer.Lib.Potential
import HttpServer.PoolTermination
import HttpServer.MonitoredPool
import HttpServer.PoolWaits
import HttpServer.Metrics
import HttpServer.Lib.SharedMax
import HttpServer.PeakConnections
import HttpServer.SendAll
import HttpServer.HandleClient
import HttpServer.OversizedHeader
import HttpServer.ResponseFraming
import HttpServer.Lib.StreamReader
import HttpServer.RequestStream
import HttpServer.Echo
import HttpServer.HeadRequests
import HttpServer.TcpServer
import HttpServer.Lib.KeyedHistory
import HttpServer.ConnectionLifecycle
import HttpServer.LifecycleRefinement
import HttpServer.ConnectionsClosed
import HttpServer.RequestCounters
import HttpServer.OutcomeClass
import HttpServer.Lib.TextCuts
import HttpServer.ResponseReading
import HttpServer.BytesSent
import HttpServer.SendPrefix
import HttpServer.ResponseStream
import HttpServer.Lib.LastWrite
import HttpServer.LoadGauges
import HttpServer.Listener
import HttpServer.StopRequest
import HttpServer.Lib.SharedHandle
import HttpServer.SocketClose
import HttpServer.ServerPool
import HttpServer.ServiceOrder
import HttpServer.ServerAccount
import HttpServer.ServerProgress
import HttpServer.ServerTermination
import HttpServer.Availability
import HttpServer.ResourceBound
import HttpServer.Lib.LockedJobs
import HttpServer.Lib.LockProgress
import HttpServer.Logger
import HttpServer.LogMessages
