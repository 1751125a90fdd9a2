import TelegramServer.Go.Basic
import TelegramServer.Lib.Runs
import TelegramServer.Lib.KeySort
import TelegramServer.Lib.HashChain
import TelegramServer.Audit.Event
import TelegramServer.Audit.Chain
import TelegramServer.Audit.Migration
import TelegramServer.Audit.Writer
import TelegramServer.Api.StrategyDispatch
import TelegramServer.Api.Cancellation
import TelegramServer.Dispatch.Limiter
import TelegramServer.Dispatch.Dispatcher
import TelegramServer.Go.Strings
import TelegramServer.Lib.Join
import TelegramServer.Lib.StateTriple
import TelegramServer.Lib.Table
import TelegramServer.Registry.Database
import TelegramServer.Dispatch.Resolvers
import TelegramServer.Dispatch.Recipients
import TelegramServer.Bot.Handlers
import TelegramServer.Bot.Changes
import TelegramServer.Bot.Agreement
import TelegramServer.Api.Addressing
import TelegramServer.Auth.KeyStore
import TelegramServer.Auth.KeyLifecycle
import TelegramServer.Adminui.Session
import TelegramServer.Adminui.Logout
import TelegramServer.Adminui.LoginBackoff
import TelegramServer.Api.AdminApps
import TelegramServer.Api.AppTransactions
import TelegramServer.Api.AppInvariant
import TelegramServer.Api.CapabilitySnapshots
import TelegramServer.Api.CapabilityGrants
import TelegramServer.Api.AuditIdentifiers
import TelegramServer.Adminui.AuditPages
import TelegramServer.Adminui.AuditWalk
import TelegramServer.Bot.Intrusion
import TelegramServer.Lib.Words
import TelegramServer.Bot.Texts
import TelegramServer.Bot.Effects
import TelegramServer.Bot.AdminFlag
import TelegramServer.Bot.SetUp
import TelegramServer.Bot.TokenPrivacy
import TelegramServer.Bot.Deeplink
import TelegramServer.Registry.Anonymization
import TelegramServer.Dispatch.Grades
import TelegramServer.Audit.Payload
import TelegramServer.Dispatch.Verdicts
import TelegramServer.Audit.Verification
import TelegramServer.Lib.Machine
import TelegramServer.Ratelimit.Limiter
import TelegramServer.Adminui.LoginLimiter
import TelegramServer.Ratelimit.RetryAfter
import TelegramServer.Api.AppLocks
import TelegramServer.Api.PatchEffect
import TelegramServer.Adminui.TestSend
import TelegramServer.Hook.Chain
import TelegramServer.Mocktelegram.LongPoll
import TelegramServer.Api.CapabilityForm
import TelegramServer.Bot.Provisioning
import TelegramServer.Lib.Grouping
import TelegramServer.Adminui.Latency
import TelegramServer.Auth.Argon2id
import TelegramServer.Go.Civil
import TelegramServer.Adminui.RequestChart
import TelegramServer.Adminui.Access
import TelegramServer.Api.Gateway
import TelegramServer.Api.AdminUsers
import TelegramServer.Api.Traffic
import TelegramServer.Adminui.Dashboard
import TelegramServer.Adminui.AuditLinks
import TelegramServer.Adminui.KeysConsole
import TelegramServer.Api.KeyRefinement
import TelegramServer.Adminui.KeysRefinement
import TelegramServer.Mocktelegram.Delivery
