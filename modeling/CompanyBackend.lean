import CompanyBackend.Routes.ProfileRuns
import CompanyBackend.Routes.ChannelEscalation
import CompanyBackend.Users.Concurrent
import CompanyBackend.Bonfire.Ownership
import CompanyBackend.Bonfire.Forwarding
import CompanyBackend.Bonfire.Subscriber
import CompanyBackend.Broker.RateLimit
import CompanyBackend.Presence.Consistency
import CompanyBackend.Broker.Purge
import CompanyBackend.Signaling.Sessions
import CompanyBackend.Signaling.Identity
import CompanyBackend.Broker.Devices
import CompanyBackend.Coalesced.SingleFlight
import CompanyBackend.Coalesced.Freshness
import CompanyBackend.Ratelimits.Windows
import CompanyBackend.Routes.RoleRanks
import CompanyBackend.Files.Claims
import CompanyBackend.Files.Deduplication
import CompanyBackend.Routes.ServerEdit
import CompanyBackend.Voice.Moderation
import CompanyBackend.Voice.Nodes
import CompanyBackend.Members.Bans
import CompanyBackend.Bots.Companion
import CompanyBackend.Push.Privacy
import CompanyBackend.Push.Mentions
import CompanyBackend.Messages.Idempotency
import CompanyBackend.Messages.Notifications
import CompanyBackend.Users.Usernames
import CompanyBackend.Users.Decorations
import CompanyBackend.Users.Subscriptions
import CompanyBackend.Bonfire.ActiveServers
import CompanyBackend.Signer.Claims
import CompanyBackend.Signer.Codes
import CompanyBackend.Messages.Reactions
