import NetworkApplication.RelyGuarantee
import NetworkApplication.ErrorHandler
import NetworkApplication.Json
import NetworkApplication.Message
import NetworkApplication.Numerals
import NetworkApplication.JsonText
import NetworkApplication.MessageHandler
import NetworkApplication.Network
import NetworkApplication.TransportHandler
import NetworkApplication.Connection
import NetworkApplication.Session
import NetworkApplication.SyncRead
import NetworkApplication.Delivery
import NetworkApplication.Hoare
import NetworkApplication.Teardown
import NetworkApplication.RequestResponseHandler
import NetworkApplication.SegmentServer
import NetworkApplication.MissingSession
import NetworkApplication.SegmentClient
import NetworkApplication.SessionPool
import NetworkApplication.ReaderLoop
import NetworkApplication.Composition
import NetworkApplication.Writers
import NetworkApplication.Worker
import NetworkApplication.WorkerSafety
import NetworkApplication.Disciplines
import NetworkApplication.Registry
import NetworkApplication.MainWorker
import NetworkApplication.Running
import NetworkApplication.RegistryRuns
import NetworkApplication.Shutdown
import NetworkApplication.Flush
import NetworkApplication.Snapshot
import NetworkApplication.Encoding
import NetworkApplication.AsyncRead
import NetworkApplication.BadPayload
import NetworkApplication.Replies
import NetworkApplication.AsyncWrite
import NetworkApplication.Accepts
import NetworkApplication.Lifetime
import NetworkApplication.Admission
import NetworkApplication.Decoding
import NetworkApplication.Widths
import NetworkApplication.Requests
import NetworkApplication.Magic
import NetworkApplication.Configuration
import NetworkApplication.SetUp
import NetworkApplication.Listening
import NetworkApplication.Outstanding
import NetworkApplication.CallReturns
import NetworkApplication.Reencoding
import NetworkApplication.HandlerInvoker
import NetworkApplication.Echo
import NetworkApplication.InputStream
import NetworkApplication.Loops
import NetworkApplication.ServerConsole
import NetworkApplication.OperatorCommands
import NetworkApplication.ConsoleLoops
import NetworkApplication.Interference
import NetworkApplication.ConnectionIds
import NetworkApplication.PrefixCode
import NetworkApplication.Exchange
import NetworkApplication.StreamRoles
import NetworkApplication.StreamEnds
import NetworkApplication.Conversation
import NetworkApplication.ConversationRuns
import NetworkApplication.Quiescence
import NetworkApplication.Companions
import NetworkApplication.Histories
import NetworkApplication.Clients
import NetworkApplication.ClientsRuns
import NetworkApplication.Starvation
import NetworkApplication.Silence
import NetworkApplication.Meters
import NetworkApplication.Paces
import NetworkApplication.Rest
