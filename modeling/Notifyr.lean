import Notifyr.Theory.Prog
import Notifyr.Cost.Bill
import Notifyr.Cost.CostService
import Notifyr.Cost.Ledger
import Notifyr.Theory.Dict
import Notifyr.Utils.Paths
import Notifyr.Auth.Models
import Notifyr.Auth.Policies
import Notifyr.Auth.Combine
import Notifyr.Runtime.Bytes
import Notifyr.Auth.Password
import Notifyr.Auth.Login
import Notifyr.Auth.Token
import Notifyr.Auth.Assets
import Notifyr.Balancer.Json
import Notifyr.Balancer.Split
import Notifyr.Balancer.Merge
import Notifyr.Ingest.Steps
import Notifyr.Cost.Cancellation
import Notifyr.Container.Load
import Notifyr.Container.Build
import Notifyr.Cost.Totals
import Notifyr.Cost.CreditOps
import Notifyr.Cost.AuditTrail
import Notifyr.Cost.Overdraft
import Notifyr.Cost.Squash
import Notifyr.Services.Lifecycle
import Notifyr.Services.Propagation
import Notifyr.Services.PropagationWalk
import Notifyr.Ressource.Decorators
import Notifyr.Ressource.Layers
import Notifyr.Theory.TimedStore
import Notifyr.Utils.KeyBuilder
import Notifyr.Services.RedisService
import Notifyr.Depends.OrmCache
import Notifyr.Depends.CacheRuns
import Notifyr.Auth.Security
import Notifyr.Ressource.Blacklist
import Notifyr.Ressource.AdminRessource
import Notifyr.Ressource.PermissionCache
import Notifyr.Ressource.PermissionRuns
import Notifyr.Ingest.Comparable
import Notifyr.Services.JobKwargs
import Notifyr.Callback.EmailEvents
import Notifyr.Ingest.Upload
import Notifyr.Callback.CallEvents
import Notifyr.Callback.ContactEvents
import Notifyr.Callback.LinkEvents
import Notifyr.Callback.LinkStream
import Notifyr.Manager.Offload
import Notifyr.Balancer.Health
import Notifyr.Balancer.RoundRobin
import Notifyr.Database.Challenge
import Notifyr.Database.ClientGuards
import Notifyr.Manager.Background
import Notifyr.Manager.Firing
import Notifyr.Services.LeaderLoop
import Notifyr.Auth.IssueAuth
import Notifyr.Ressource.AuthRessource
import Notifyr.Server.Excludes
import Notifyr.Ressource.PolicyUpdates
import Notifyr.Theory.NestedDict
import Notifyr.Runtime.PyStr
import Notifyr.Runtime.JsonLoads
import Notifyr.Utils.Nesting
import Notifyr.Auth.Secrets
import Notifyr.Auth.Keystream
import Notifyr.Services.ProfileCredentials
import Notifyr.Services.ProfileRuns
import Notifyr.Auth.Generation
import Notifyr.Runtime.Urllib
import Notifyr.Services.TwilioService
import Notifyr.Depends.LinkQuery
import Notifyr.Services.LinkService
import Notifyr.Services.WebhookBatch
import Notifyr.Services.SettingService
import Notifyr.Theory.Upsert
import Notifyr.Database.Links
import Notifyr.Database.Analytics
import Notifyr.Theory.Marking
import Notifyr.Database.EmailDelivered
import Notifyr.Database.SmsDelivered
import Notifyr.Mail.Mime
import Notifyr.Mail.Replies
import Notifyr.Ressource.UseRoles
import Notifyr.Ingest.JsonLdFilter
import Notifyr.Database.Documents
import Notifyr.Services.ContactsService
import Notifyr.Manager.KeepAlive
import Notifyr.Mail.Tracker
import Notifyr.Ressource.GlobalVariables
import Notifyr.Utils.Serialized
import Notifyr.Utils.PathFilter
import Notifyr.Ingest.Search
import Notifyr.Utils.ModelCreation
import Notifyr.Utils.ModelRuns
import Notifyr.Ressource.ObjectStore
import Notifyr.Cost.ObjectCost
import Notifyr.Depends.ResCache
import Notifyr.Balancer.ClientCalls
import Notifyr.Cost.Settlement
import Notifyr.Balancer.CopyRequest
import Notifyr.Ingest.Ranges
import Notifyr.Ingest.JobSearch
import Notifyr.Ingest.Embeddings
import Notifyr.Database.Subscriptions
import Notifyr.Mail.MimeTree
import Notifyr.Ressource.ContactPipe
import Notifyr.Services.WebhookRetry
import Notifyr.Services.HttpOutbound
import Notifyr.Services.CustomService
import Notifyr.Theory.Longest
import Notifyr.Ingest.SliceMarkdown
import Notifyr.Ingest.CrawlResults
import Notifyr.Theory.Inherit
import Notifyr.Cost.LoadDefinitions
import Notifyr.Callback.TrackStream
import Notifyr.Services.MiniServices
import Notifyr.Server.WebSockets
import Notifyr.Database.References
import Notifyr.Services.Rotation
import Notifyr.Balancer.Relay
