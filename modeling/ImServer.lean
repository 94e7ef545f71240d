import ImServer.Lib.Block
import ImServer.Lib.Framing
import ImServer.Lib.Run
import ImServer.Lib.Index
import ImServer.Lib.Collection
import ImServer.Lib.Table
import ImServer.Lib.Turns
import ImServer.Lib.Prog
import ImServer.Lib.Withdraw
import ImServer.Lib.Protobuf
import ImServer.Lib.Batch
import ImServer.Lib.Rounds
import ImServer.Lib.Slots
import ImServer.Lib.SqlLiteral
import ImServer.Lib.Monitor
import ImServer.Lib.Crew
import ImServer.Lib.History
import ImServer.Lib.Serial
import ImServer.Lib.Threads
import ImServer.Base.SqlFilter
import ImServer.Base.SimpleBuffer
import ImServer.Base.ImPdu
import ImServer.Base.PduSetters
import ImServer.Base.ImConn
import ImServer.Base.Receive
import ImServer.Base.Stream
import ImServer.Base.Transmit
import ImServer.Base.BaseSocket
import ImServer.Base.EventDispatch
import ImServer.Base.ClientLink
import ImServer.Base.LinkRegistry
import ImServer.Cm.Transmission
import ImServer.Cm.LinkAction
import ImServer.Cm.ConnectionManager
import ImServer.Cm.Session
import ImServer.Cm.UserLink
import ImServer.Cm.Authorisation
import ImServer.Cm.LoginBinding
import ImServer.Cm.References
import ImServer.Base.ServerLink
import ImServer.Base.Reconnect
import ImServer.Base.ServerSession
import ImServer.Base.Zookeeper
import ImServer.Base.AssocSvr
import ImServer.Base.AssocRefresh
import ImServer.Base.Uid
import ImServer.Base.WorkerThread
import ImServer.Base.ThreadPool
import ImServer.Login.LoginCache
import ImServer.Login.LoginHandle
import ImServer.Login.DeviceRecords
import ImServer.Login.LoginRace
import ImServer.Login.RedisManager
import ImServer.Login.ChannelSets
import ImServer.Login.Presence
import ImServer.Data.CacheConn
import ImServer.Data.CacheLists
import ImServer.Data.CacheListWords
import ImServer.Data.ConnPool
import ImServer.Msg.OfflineMsg
import ImServer.Msg.DeliveredBatch
import ImServer.Msg.ChatDurability
import ImServer.Msg.SigHandler
import ImServer.Msg.GroupChat
import ImServer.Msg.Acknowledgement
import ImServer.Msg.CancelRace
import ImServer.Msg.OfflinePull
import ImServer.Msg.GroupContent
import ImServer.Msg.AckFinality
import ImServer.Msg.WrittenDocs
import ImServer.Group.GroupDb
import ImServer.Group.GroupChat
import ImServer.Group.GroupTasks
import ImServer.Group.TaskOutcomes
import ImServer.Group.InStep
import ImServer.Group.TaskEffects
import ImServer.Group.CacheAgreement
import ImServer.Group.GroupMaster
import ImServer.Group.GroupSize
import ImServer.Group.SoundCache
import ImServer.Group.Admission
import ImServer.Group.FanOut
import ImServer.Group.UnknownGroup
import ImServer.Group.SqlTexts
import ImServer.Group.MemberThreads
import ImServer.Group.CountRace
import ImServer.Msg.PduSizes
import ImServer.Msg.FilledPage
import ImServer.Msg.PullLoop
import ImServer.Base.ImThreadPool
import ImServer.Channel.MsgQueue
import ImServer.Channel.ChannelDb
import ImServer.Channel.ChannelNotify
import ImServer.Channel.ChannelRolls
import ImServer.Channel.ChannelChat
import ImServer.Channel.NotifyOrder
import ImServer.Channel.CancelAuthority
import ImServer.Channel.Membership
import ImServer.Channel.MembershipKept
import ImServer.Desktop.DesktopMsgTran
import ImServer.Desktop.GatewayAuthority
import ImServer.IPush.PostDataSender
import ImServer.IPush.PostPduCache
import ImServer.IPush.PostIndex
import ImServer.IPush.Http2Socket
import ImServer.Base.JsonWriter
import ImServer.IPush.PostData
import ImServer.Base.PacketMgr
import ImServer.WsSvr.UserMgr
import ImServer.WsSvr.CustSessions
import ImServer.CustomerService.OfflineMsgAck
import ImServer.APush.HttpClient
import ImServer.APush.HttpWait
import ImServer.APush.PushForms
import ImServer.Msg.StoredDoc
import ImServer.Msg.HangUpKept
import ImServer.Msg.BulkInsert
import ImServer.Msg.KeyExchange
import ImServer.Msg.RelationNotify
import ImServer.NotifyServer.GrpcNotifyService
import ImServer.Lib.Retry
import ImServer.Channel.PushSet
import ImServer.Channel.RetryHelpers
import ImServer.WsSvr.AgentKeys
import ImServer.Lib.Pages
import ImServer.WsSvr.HistoryPages
import ImServer.WsSvr.Dispatch
import ImServer.Lib.Base64url
import ImServer.IPush.JwkEncode
import ImServer.IPush.Authorization
import ImServer.Channel.LoginInfoList
import ImServer.Channel.CancelledText
import ImServer.Base.JsonValue
import ImServer.Base.JsonTokens
import ImServer.Base.JsonReader
import ImServer.Base.JsonRoundTrip
import ImServer.CustomerService.CustMsgBridge
import ImServer.Base.BufferRuns
import ImServer.Base.ByteStream
import ImServer.Lib.Base64
import ImServer.Base.Base64
import ImServer.Base.Aes
import ImServer.Lib.Cursor
import ImServer.Base.EventTimers
import ImServer.Msg.SignedRequests
import ImServer.IPush.BodyRead
import ImServer.Lib.Search
import ImServer.APush.XmppRead
import ImServer.Base.ConfigFile
import ImServer.APush.HwToken
import ImServer.Base.JsonShape
import ImServer.WsSvr.CustWebProxy
import ImServer.Desktop.JsonTexts
import ImServer.Base.StrExplode
import ImServer.Base.MemFind
import ImServer.Base.UrlCodec
import ImServer.Lib.JsonText
import ImServer.Base.JsonLiterals
import ImServer.Base.JsonComplete
import ImServer.IPush.HeartBeat
import ImServer.Channel.ChatFanOut
import ImServer.Lib.JsonPrinted
import ImServer.Desktop.JsonBridge
import ImServer.Lib.Watch
import ImServer.Base.Discovery
import ImServer.Base.Registered
import ImServer.Msg.OfflineSummary
import ImServer.Msg.Receipts
import ImServer.Cm.Delivery
import ImServer.Base.JsonStyled
import ImServer.Group.PlainIds
import ImServer.Group.SqlRows
import ImServer.Group.SqlTables
