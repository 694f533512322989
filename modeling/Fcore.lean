import Fcore.Lib.Text
import Fcore.Lib.Lowercase
import Fcore.Lib.Json
import Fcore.Lib.Table
import Fcore.Lib.Runs
import Fcore.Lib.RowTable
import Fcore.Lib.Upsert
import Fcore.Lib.Aggregate
import Fcore.Lib.Run
import Fcore.Lib.Interleave
import Fcore.Lib.SlidingWindow
import Fcore.Lib.Slots
import Fcore.Lib.SortDedup
import Fcore.Lib.OneSided
import Fcore.Lib.Calendar
import Fcore.Lib.CalendarRange
import Fcore.Lib.Timeline
import Fcore.Lib.TimeRange
import Fcore.Lib.Mailbox
import Fcore.Lib.Notify
import Fcore.Lib.Base32
import Fcore.Lib.Except
import Fcore.Memory.Env
import Fcore.Memory.Wire
import Fcore.Memory.Connection
import Fcore.Config.Clash
import Fcore.Config.Inbound
import Fcore.Config.Value
import Fcore.Memory.Node
import Fcore.Memory.Registry
import Fcore.Memory.Subscription
import Fcore.Memory.Address
import Fcore.Memory.AddressText
import Fcore.Memory.AddressRange
import Fcore.Memory.Code
import Fcore.Memory.Code.Checksum
import Fcore.Entitlements
import Fcore.Config.Link
import Fcore.Metrics.Storage
import Fcore.Metrics.Snapshot
import Fcore.Metrics.Index
import Fcore.Metrics.Compaction
import Fcore.Metrics.Collect
import Fcore.Metrics.Saved
import Fcore.Metrics.Heartbeat
import Fcore.Traffic
import Fcore.Traffic.Attribution
import Fcore.Traffic.Conservation
import Fcore.Traffic.Anchor
import Fcore.Http.RateLimit
import Fcore.Http.Reply
import Fcore.Postgres.Db
import Fcore.Postgres.Connection
import Fcore.Postgres.Traffic
import Fcore.Postgres.Subscription
import Fcore.Postgres.Key
import Fcore.Postgres.Node
import Fcore.Postgres.Load
import Fcore.Postgres.ConnColumns
import Fcore.Sync.World
import Fcore.Sync.Connection
import Fcore.Sync.Life
import Fcore.Sync.Subscription
import Fcore.Sync.Renewal
import Fcore.Sync.Durability
import Fcore.Sync.Node
import Fcore.Sync.Status
import Fcore.Sync.Registration
import Fcore.Sync.View
import Fcore.Sync.Mirror
import Fcore.Sync.Threads
import Fcore.Sync.Announce
import Fcore.Tasks
import Fcore.Tasks.Exhaustion
import Fcore.Tasks.Booking
import Fcore.Tasks.Turn
import Fcore.Tasks.Metered
import Fcore.Tasks.Paid
import Fcore.Tasks.Reload
import Fcore.Tasks.Tombstones
import Fcore.Handlers.PrivateUser
import Fcore.Handlers.Share
import Fcore.Tasks.Revocation
import Fcore.Handlers.ConnectionSync
import Fcore.Handlers.ConnectionSync.Count
import Fcore.Handlers.Connection
import Fcore.Handlers.Connection.Pinned
import Fcore.Handlers.Connection.Addresses
import Fcore.Tasks.Spending
import Fcore.Tasks.DeviceLimit
import Fcore.Tasks.DeviceLimit.Fresh
import Fcore.Tasks.DeviceLimit.Restrictions
import Fcore.Tasks.Reconcile
import Fcore.Handlers.Amnezia
import Fcore.Handlers.Amnezia.Holders
import Fcore.Handlers.Amnezia.Agreement
import Fcore.Handlers.Amnezia.PoolWeights
import Fcore.Handlers.Amnezia.Services
import Fcore.Postgres.Report
import Fcore.Handlers.Report
import Fcore.Handlers.Report.Rich
import Fcore.Handlers.Pool
import Fcore.Handlers.Access
import Fcore.Handlers.Amnezia.Config
import Fcore.Handlers.ShareFeed
import Fcore.Handlers.ShareFeed.Token
import Fcore.Handlers.SubscriptionTraffic
import Fcore.Handlers.SubscriptionTraffic.Periods
import Fcore.Handlers.SubscriptionFeed
import Fcore.Handlers.SubscriptionFeed.Clash
import Fcore.Handlers.SubscriptionFeed.Visible
import Fcore.Handlers.ShareFeed.Access
import Fcore.Handlers.SubscriptionFeed.Lines
import Fcore.Handlers.PrivateNode
import Fcore.Handlers.PrivateNode.Mint
import Fcore.Handlers.PrivateNode.Owned
import Fcore.Handlers.PrivateNode.Ownership
import Fcore.Handlers.Key
import Fcore.Handlers.Key.Validate
import Fcore.Handlers.Key.Once
import Fcore.Handlers.Premium
import Fcore.Handlers.Iap
import Fcore.Node.SnapshotSync
import Fcore.Node.Tasks
import Fcore.Node.Agreement
import Fcore.Node.Received
import Fcore.Node.WriteThrough
import Fcore.Auth.Service
import Fcore.Auth.Downtime
import Fcore.Mesh.Store
import Fcore.Mesh.Register
import Fcore.Mesh.Issue
import Fcore.Mesh.Identity
import Fcore.Mesh.Skew
import Fcore.Mesh.Registry
import Fcore.Mesh.Send
import Fcore.Mesh.Canonical
import Fcore.Mesh.Devices
import Fcore.Mesh.World
import Fcore.Mesh.LongPoll
import Fcore.Mesh.Presence
import Fcore.Mesh.Mailbox
import Fcore.Alerts
import Fcore.Alerts.Protocol
import Fcore.Alerts.Restarts
import Fcore.Alerts.Thresholds
