import AiSwitch.Common.ByteString
import AiSwitch.Common.Delimited
import AiSwitch.Common.Effect
import AiSwitch.Common.Graded
import AiSwitch.Common.TwoRuns
import AiSwitch.Common.Protocol
import AiSwitch.Common.Transition
import AiSwitch.Common.Progress
import AiSwitch.Common.Mutex
import AiSwitch.Common.Wakeups
import AiSwitch.Common.AtomicObject
import AiSwitch.Common.Lending
import AiSwitch.Common.Ledger
import AiSwitch.Common.Exn
import AiSwitch.Common.Json
import AiSwitch.Common.JsonValue
import AiSwitch.Common.JsonText
import AiSwitch.Common.JsonDump
import AiSwitch.Common.KeyedMap
import AiSwitch.Common.SqlTokens
import AiSwitch.Common.MersenneTwister
import AiSwitch.Stream.SseHandler
import AiSwitch.Stream.Codec
import AiSwitch.Stream.Relay
import AiSwitch.Adapter.Basic
import AiSwitch.Adapter.OpenaiCompatible
import AiSwitch.Adapter.AnthropicParser
import AiSwitch.Adapter.Anthropic
import AiSwitch.Adapter.Endpoint
import AiSwitch.Adapter.RequestBody
import AiSwitch.Adapter.EventStream
import AiSwitch.Adapter.Factory
import AiSwitch.Db.Escaping
import AiSwitch.Db.Mysql
import AiSwitch.Db.Repository
import AiSwitch.Db.Operations
import AiSwitch.Db.KeyTable
import AiSwitch.Db.KeyStore
import AiSwitch.Db.KeySpace
import AiSwitch.Db.Linearizability
import AiSwitch.Db.ClientView
import AiSwitch.Db.TableChanges
import AiSwitch.Db.StatementText
import AiSwitch.Db.ConnectionPool
import AiSwitch.Db.PoolProgress
import AiSwitch.Db.PoolRefinement
import AiSwitch.Db.ConnectionLifetime
import AiSwitch.Middleware.RateLimiter
import AiSwitch.Middleware.TokenRuns
import AiSwitch.Middleware.TokenBucketSteps
import AiSwitch.Middleware.TokenRange
import AiSwitch.Middleware.TokenProgress
import AiSwitch.Middleware.TokenConfig
import AiSwitch.Middleware.RefillRange
import AiSwitch.Middleware.Chain
import AiSwitch.Middleware.ChainRuns
import AiSwitch.Middleware.ChainStops
import AiSwitch.Middleware.Authentication
import AiSwitch.Middleware.KeyQuota
import AiSwitch.Util.ThreadPool
import AiSwitch.Util.Shutdown
import AiSwitch.Util.WorkConservation
import AiSwitch.Util.Config
import AiSwitch.Startup
import AiSwitch.Main
import AiSwitch.Server.Http
import AiSwitch.Server.Router
import AiSwitch.Server.World
import AiSwitch.Server.Session
import AiSwitch.Server.Connection
import AiSwitch.Server.Authorization
import AiSwitch.Server.KeyManagement
import AiSwitch.Server.Buffers
import AiSwitch.Server.DisableKey
import AiSwitch.Server.RequestRule
import AiSwitch.Server.AuditTrail
import AiSwitch.Server.Secrecy
import AiSwitch.Server.UpstreamCalls
import AiSwitch.Server.Confinement
import AiSwitch.Server.ResponseBodies
import AiSwitch.Server.StreamOption
import AiSwitch.Server.Answers
import AiSwitch.Server.CreateKey
import AiSwitch.Server.NumbersKept
import AiSwitch.Server.StreamTask
import AiSwitch.Server.ErrorEvent
import AiSwitch.Server.ChatRequests
import AiSwitch.Server.RouteTable
import AiSwitch.Server.StreamWrites
import AiSwitch.Server.Delivery
import AiSwitch.Server.Exit
