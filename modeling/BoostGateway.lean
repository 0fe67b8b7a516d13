import BoostGateway.Raft.Ballots
import BoostGateway.Raft.Schemas
import BoostGateway.Raft.Commands
import BoostGateway.Battle.WorldSafety
import BoostGateway.Battle.Inputs
import BoostGateway.Battle.GracePeriod
import BoostGateway.Battle.Notification
import BoostGateway.Match.Status
import BoostGateway.Leaderboard.Idempotency
import BoostGateway.Match.Ids
import BoostGateway.Match.Once
import BoostGateway.Match.Waiting
import BoostGateway.Gateway.ActorInvariants
import BoostGateway.Gateway.BattleStart
import BoostGateway.Gateway.Compression
import BoostGateway.Gateway.ConnectionUse
import BoostGateway.Gateway.Draining
import BoostGateway.Gateway.Memberships
import BoostGateway.Gateway.RateLimiter
import BoostGateway.Gateway.ReconnectWindow
import BoostGateway.Gateway.Retry
import BoostGateway.Login.BackendService
import BoostGateway.Persistence.EventStore
import BoostGateway.Persistence.ReplayStorage
import BoostGateway.Realtime.Ticks
import BoostGateway.Sdk.Client
import BoostGateway.Auth.Base64url
import BoostGateway.Persistence.BattleDataStore
import BoostGateway.Persistence.RedisLeaderboard
import BoostGateway.Room.Listing
