import DddFramework.Library.Machine
import DddFramework.Library.Tally
import DddFramework.Library.Expiring
import DddFramework.Library.Limiter
import DddFramework.Library.Windows
import DddFramework.Keycloak.Jwks
import DddFramework.Library.Lookup
import DddFramework.Keycloak.UsableKeys
import DddFramework.Keycloak.JwksOutcome
import DddFramework.Keycloak.JwksClient
import DddFramework.Keycloak.JwksFreshness
import DddFramework.Keycloak.JwksCooldowns
import DddFramework.Keycloak.JwksBinding
import DddFramework.RateLimit.Policy
import DddFramework.RateLimit.FixedWindow
import DddFramework.RateLimit.SlidingWindow
import DddFramework.Library.Rounding
import DddFramework.RateLimit.LuaNumbers
import DddFramework.Library.Refill
import DddFramework.RateLimit.SlidingBurst
import DddFramework.RateLimit.TokenBucket
import DddFramework.RateLimit.BackwardClock
import DddFramework.Library.Denials
import DddFramework.RateLimit.Refusals
import DddFramework.RateLimit.BackwardBucket
import DddFramework.RateLimit.Remaining
import DddFramework.Library.Delimited
import DddFramework.RateLimit.Keys
import DddFramework.Library.Kleene
import DddFramework.Library.Fallible
import DddFramework.Filters.Dsl
import DddFramework.Filters.SqlFilters
import DddFramework.Filters.SqlMeaning
import DddFramework.Filters.CamelCase
import DddFramework.Library.Wildcards
import DddFramework.Filters.LikePatterns
import DddFramework.Filters.LikeMeaning
import DddFramework.Filters.MongoFilters
import DddFramework.Filters.Agreement
import DddFramework.Filters.CompileErrors
import DddFramework.Library.Base64
import DddFramework.Library.Ordering
import DddFramework.Library.Keyset
import DddFramework.Paging.Page
import DddFramework.Paging.SqlPages
import DddFramework.Paging.KeysetWalk
import DddFramework.Paging.Loop
import DddFramework.Paging.Batches
import DddFramework.Paging.MongoPages
import DddFramework.Paging.MongoWalk
import DddFramework.Paging.MongoKeyset
import DddFramework.Paging.CursorChecks
import DddFramework.Paging.SortParams
import DddFramework.Outbox.Message
import DddFramework.Outbox.Processor
import DddFramework.Outbox.Delivery
import DddFramework.Outbox.Copies
import DddFramework.Outbox.Lifecycle
import DddFramework.Outbox.Parallel
import DddFramework.Outbox.NotifyWorker
import DddFramework.Events.Dispatcher
import DddFramework.Library.CacheAside
import DddFramework.Cache.CachedRepository
import DddFramework.Cache.CrudRollback
import DddFramework.Cache.Races
import DddFramework.Cache.MultiLevel
import DddFramework.Cache.DeleteRaces
import DddFramework.Library.Lifetimes
import DddFramework.Cache.InMemory
import DddFramework.Cache.Ttl
import DddFramework.Library.Tasks
import DddFramework.S3.UploadStream
import DddFramework.S3.UploadedParts
import DddFramework.Domain.ApplyChanges
import DddFramework.Library.Strip
import DddFramework.Domain.Email
import DddFramework.Domain.Entities
import DddFramework.Library.Layers
import DddFramework.Keycloak.TokenVerifier
import DddFramework.Keycloak.VerifierRuns
import DddFramework.Library.Hosting
import DddFramework.RateLimit.Redis
import DddFramework.RateLimit.Http
import DddFramework.RateLimit.Budgets
import DddFramework.Outbox.Fairness
import DddFramework.Application.Context
import DddFramework.S3.DownloadStream
import DddFramework.S3.RoundTrip
import DddFramework.S3.DeleteByPrefix
import DddFramework.Library.Gather
import DddFramework.Events.RoutingKeys
import DddFramework.Events.RabbitPublisher
import DddFramework.Paging.BackEnds
import DddFramework.Events.Registry
import DddFramework.Outbox.Restored
import DddFramework.Library.Coroutines
import DddFramework.Application.Crud
import DddFramework.Outbox.Connections
