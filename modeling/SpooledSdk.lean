import SpooledSdk.System
import SpooledSdk.Dict
import SpooledSdk.Registry
import SpooledSdk.Worker.Types
import SpooledSdk.Worker.Lease
import SpooledSdk.Worker.Sync
import SpooledSdk.Worker.SyncStep
import SpooledSdk.Worker.SyncMove
import SpooledSdk.Worker.SyncLease
import SpooledSdk.Worker.SyncLife
import SpooledSdk.Worker.SyncAck
import SpooledSdk.Worker.SyncEvents
import SpooledSdk.Worker.SyncSlots
import SpooledSdk.Worker.SyncStop
import SpooledSdk.Worker.Async
import SpooledSdk.Worker.AsyncStep
import SpooledSdk.Worker.AsyncMove
import SpooledSdk.Worker.AsyncLease
import SpooledSdk.Worker.AsyncLife
import SpooledSdk.Worker.AsyncAck
import SpooledSdk.Fifo
import SpooledSdk.Worker.AsyncQueue
import SpooledSdk.Worker.Acks
import SpooledSdk.Worker.AsyncStart
import SpooledSdk.Worker.Starts
import SpooledSdk.Worker.AsyncStop
import SpooledSdk.Worker.Stops
import SpooledSdk.Worker.AsyncCancel
import SpooledSdk.Errors
import SpooledSdk.Http.CircuitBreaker
import SpooledSdk.Http.Retry
import SpooledSdk.Json
import SpooledSdk.Http.Client
import SpooledSdk.Grpc.Stream
import SpooledSdk.Realtime.Events
import SpooledSdk.Realtime.Sse
import SpooledSdk.Realtime.SseBudget
import SpooledSdk.Realtime.Subscription
import SpooledSdk.Realtime.Unified
import SpooledSdk.Realtime.WsBudget
import SpooledSdk.Http.Refresh
import SpooledSdk.Http.RefreshLaw
import SpooledSdk.Realtime.JobStream
import SpooledSdk.Realtime.SseFilter
import SpooledSdk.Worker.AsyncSlots
import SpooledSdk.Worker.AsyncDrain
import SpooledSdk.Worker.Slots
import SpooledSdk.Worker.Drains
import SpooledSdk.Realtime.WsAgreement
import SpooledSdk.Realtime.OneConnection
import SpooledSdk.Regex
import SpooledSdk.Casing
import SpooledSdk.CasingLaw
import SpooledSdk.Config
import SpooledSdk.Resources
import SpooledSdk.ErrorMap
import SpooledSdk.Realtime.Parsers
import SpooledSdk.Realtime.SseLines
import SpooledSdk.Realtime.SseEnds
import SpooledSdk.Realtime.Consumers
import SpooledSdk.Realtime.Finality
import SpooledSdk.Codec
import SpooledSdk.Percent
import SpooledSdk.Http.Query
import SpooledSdk.Realtime.StreamUrl
import SpooledSdk.JsonText
import SpooledSdk.LiveList
import SpooledSdk.Realtime.Wire
import SpooledSdk.Base64
import SpooledSdk.Http.Jwt
import SpooledSdk.Http.TokenCache
import SpooledSdk.BoundedQueue
import SpooledSdk.Realtime.EventQueue
import SpooledSdk.Realtime.Handlers
import SpooledSdk.Progress
import SpooledSdk.Worker.SyncReturns
import SpooledSdk.Dialogue
import SpooledSdk.Worker.SyncRequests
import SpooledSdk.Worker.AsyncRequests
import SpooledSdk.Worker.Requests
import SpooledSdk.Worker.SyncHeartbeat
import SpooledSdk.Worker.SyncShutdown
