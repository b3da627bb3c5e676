import TinyAgentOS.Tickets.Redemption
import TinyAgentOS.Projects.BoardAudit
import TinyAgentOS.Projects.ChatVerbs
import TinyAgentOS.Projects.TaskRoutes
import TinyAgentOS.Projects.InviteGuesses
import TinyAgentOS.Store.Migrations
import TinyAgentOS.Auth.Serialisable
import TinyAgentOS.Auth.SessionOwners
import TinyAgentOS.Gpu.Admissions
import TinyAgentOS.Scheduling.ResourceManager
import TinyAgentOS.Scheduling.MemoryLeases
import TinyAgentOS.Scheduling.Migration
import TinyAgentOS.Scheduling.MeshPull
import TinyAgentOS.Cluster.Drain
import TinyAgentOS.Cluster.Fencing
import TinyAgentOS.Cluster.LeaseDrops
import TinyAgentOS.Cluster.LeasedVram
import TinyAgentOS.Projects.InviteCap
import TinyAgentOS.Projects.Canvas
import TinyAgentOS.Projects.ListOrder
import TinyAgentOS.Projects.ProjectStore
import TinyAgentOS.Projects.Redeemable
import TinyAgentOS.Projects.A2aChannel
import TinyAgentOS.Projects.Routines
import TinyAgentOS.Cluster.PairingKeys
import TinyAgentOS.Cluster.PairingBlocks
import TinyAgentOS.Registry.Lifecycle
import TinyAgentOS.Registry.Slugs
import TinyAgentOS.Catalog.Monotone
import TinyAgentOS.Catalog.Badge
import TinyAgentOS.Governance.Policies
import TinyAgentOS.Broker.Grants
import TinyAgentOS.Chat.GroupPolicy
import TinyAgentOS.Scheduler.Dispatch
import TinyAgentOS.Cluster.WorkerRegistry
import TinyAgentOS.Browser.CopilotHub
import TinyAgentOS.Browser.Sessions
import TinyAgentOS.Browser.PrivilegedOps
import TinyAgentOS.Userspace.PackageBuild
import TinyAgentOS.Userspace.Install
import TinyAgentOS.OfficeStudio.Csv
import TinyAgentOS.Desktop.ProcessStore
import TinyAgentOS.Desktop.BrowserTabs
import TinyAgentOS.Chat.AgentTurns
import TinyAgentOS.OfficeStudio.Deck
import TinyAgentOS.OfficeStudio.TableRuns
import TinyAgentOS.Hub.Tampering
import TinyAgentOS.Desktop.CookieScope
import TinyAgentOS.Desktop.BoardDrops
import TinyAgentOS.Inbox.Gates
import TinyAgentOS.Notes.Revisions
import TinyAgentOS.Secrets.Migration
import TinyAgentOS.Contacts.Revocation
import TinyAgentOS.Contacts.Replays
import TinyAgentOS.Contacts.CollabResponses
import TinyAgentOS.Scheduler.Contention
import TinyAgentOS.Registry.OrgTree
import TinyAgentOS.Chat.AgentReplies
import TinyAgentOS.Scheduler.BackendLifecycle
import TinyAgentOS.Store.Downloads
import TinyAgentOS.Trace.Listings
import TinyAgentOS.Chat.ContextWindow
import TinyAgentOS.Chat.ThreadRecipients
import TinyAgentOS.Cluster.FailureTracker
import TinyAgentOS.Browser.Srcset
import TinyAgentOS.OfficeStudio.ColumnSort
import TinyAgentOS.AgentAuth.DecisionReads
import TinyAgentOS.Secrets.FailedWrites
import TinyAgentOS.Gpu.Priorities
