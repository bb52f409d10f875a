import OtamanBridge.Afk.Monitor
import OtamanBridge.Afk.Notices
import OtamanBridge.Afk.Remaining
import OtamanBridge.Afk.Switch
import OtamanBridge.Approval.Anonymous
import OtamanBridge.Approval.FirstDecision
import OtamanBridge.Approval.LiveCard
import OtamanBridge.Approval.NoAllow
import OtamanBridge.Approval.Ownership
import OtamanBridge.Approval.SnoozeDeadline
import OtamanBridge.Approval.Wait
import OtamanBridge.Bus.Frontmatter
import OtamanBridge.Bus.Listing
import OtamanBridge.Bus.Once
import OtamanBridge.Bus.Overwrite
import OtamanBridge.Bus.Quarantine
import OtamanBridge.Bus.Recovery
import OtamanBridge.Bus.Surfacing
import OtamanBridge.Daemon.Ownership
import OtamanBridge.Dcr.AccessToken
import OtamanBridge.Dcr.Metadata
import OtamanBridge.Dcr.Sweep
import OtamanBridge.Hitl.Attribution
import OtamanBridge.Hook.FailSafe
import OtamanBridge.Http.Agreement
import OtamanBridge.Http.ControlRoutes
import OtamanBridge.Http.Exchange
import OtamanBridge.Http.Mcp
import OtamanBridge.Http.Posts
import OtamanBridge.Inbox.Isolation
import OtamanBridge.Inbox.MarkRead
import OtamanBridge.Inbox.RoundTrip
import OtamanBridge.Inbox.Since
import OtamanBridge.Inbox.Writers
import OtamanBridge.Linger.Accounts
import OtamanBridge.Linger.Early
import OtamanBridge.Login.Bound
import OtamanBridge.Login.Cookie
import OtamanBridge.Notify.Debounce
import OtamanBridge.Notify.Project
import OtamanBridge.Permission.Permitted
import OtamanBridge.Pm.Inbound
import OtamanBridge.Pm.OneIssue
import OtamanBridge.Pm.Resolve
import OtamanBridge.Registries.LinkIndex
import OtamanBridge.Registries.Reload
import OtamanBridge.Replies.Frame
import OtamanBridge.Spawn.Addressee
import OtamanBridge.Spawn.AtMostOne
import OtamanBridge.Spawn.Failures
import OtamanBridge.Spawn.Linger
import OtamanBridge.Spawn.ModeGrammar
import OtamanBridge.Spawn.Registry
import OtamanBridge.Spawn.Stale
import OtamanBridge.Team.Authority
import OtamanBridge.Telegram.Authority
import OtamanBridge.Telegram.Callback
import OtamanBridge.Telegram.Rendering
import OtamanBridge.Telegram.Topics
import OtamanBridge.Triggers.Delivery
import OtamanBridge.WebAuth.Refresh
import OtamanBridge.WebAuth.Shared
