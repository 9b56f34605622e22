import Ploydok.Audit.Concurrent
import Ploydok.Audit.Maintenance
import Ploydok.Exec.Stream
import Ploydok.Registry.Releases
import Ploydok.Auth.Lockout
import Ploydok.Auth.Replay
import Ploydok.Caddy.Requests
import Ploydok.Caddy.Reconcile
import Ploydok.Caddy.Allowlist
import Ploydok.Caddy.Layer4
import Ploydok.Deploy.Checkout
import Ploydok.Deploy.Lock
import Ploydok.Database.Atomicity
import Ploydok.Database.Redeploy
import Ploydok.Runtime.Ingress
import Ploydok.Runtime.Versions
import Ploydok.Runtime.SwarmRestart
import Ploydok.Runtime.AutoHeal
import Ploydok.Apps.EnvForm
import Ploydok.Apps.Completeness
import Ploydok.Agent.Guarantees
import Ploydok.Backups.Schedule
import Ploydok.Backups.Retention
import Ploydok.Tokens.Scopes
import Ploydok.Swarm.Retry
import Ploydok.Swarm.Health
import Ploydok.Orgs.Ownership
import Ploydok.Orgs.Invitations
import Ploydok.Auth.Regeneration
import Ploydok.Auth.Refresh
import Ploydok.Webhooks.Guard
import Ploydok.Static.Release
import Ploydok.Preview.Teardown
import Ploydok.Queue.DomainVerify
import Ploydok.Builds.LogArchive
import Ploydok.Builds.Cancel
import Ploydok.Builds.Fallback
import Ploydok.Schedule.Bookkeeping
import Ploydok.Webhooks.Pushes
import Ploydok.Marketplace.Isolation
import Ploydok.Notify.Dispatch
import Ploydok.Providers.RepoSync
import Ploydok.Marketplace.StartOrder
import Ploydok.Webhooks.Dedup
import Ploydok.Webhooks.Deliveries
import Ploydok.Advisories.Refresh
import Ploydok.Advisories.Severity
import Ploydok.Billing.Stripe
