import Nakode.Activation.Exclusion
import Nakode.Activation.Journal
import Nakode.Activation.Requests
import Nakode.Activation.Writes
import Nakode.Agent.Redelivery
import Nakode.Background.Isolation
import Nakode.Domain.Envelopes
import Nakode.Skills.Advertised
import Nakode.ChildReports.Completion
import Nakode.Delegation.Briefing
import Nakode.Delegation.Executor
import Nakode.Delegation.Publication
import Nakode.Delegation.RunPages
import Nakode.Domain.Interactions
import Nakode.Domain.OwnerHistory
import Nakode.Domain.Questions
import Nakode.Domain.Redirects
import Nakode.Domain.Resend
import Nakode.Editor.Refines
import Nakode.Handoff.Delivery
import Nakode.Inbox.Dispatch
import Nakode.Inbox.Drain
import Nakode.Inbox.Evidence
import Nakode.Inbox.Listing
import Nakode.Inbox.Receipts
import Nakode.Inbox.Replay
import Nakode.Inbox.Steer
import Nakode.Kinship.Holds
import Nakode.Kinship.Revisions
import Nakode.Kinship.Stranding
import Nakode.Restoration.Runs
import Nakode.Routing.Accounts
import Nakode.Service.Convergence
import Nakode.Service.Fairness
import Nakode.Service.Receipts
import Nakode.Sync.Chunks
import Nakode.Sync.Deltas
import Nakode.Sync.Replay
import Nakode.Sync.Watch
import Nakode.Tools.Regions
import Nakode.Transcript.Paging
import Nakode.Transcript.Proven
import Nakode.Transcript.Soundness
import Nakode.Transcript.Windows
import Nakode.Tools.TodoRuns
import Nakode.Tools.Unique
import Nakode.Tools.Read
import Nakode.Tools.ReturnImage
import Nakode.Tools.Confinement
import Nakode.Bridges.Delivery
import Nakode.Bridges.Inbound
import Nakode.Lib.Outbox
import Nakode.Lib.Versions
