import Alos.Coop.System
import Alos.Json.Dumps
import Alos.Releases.Service
import Alos.Coop.Rely
import Alos.Releases.Segments
import Alos.Releases.Alone
import Alos.Releases.Index
import Alos.Releases.KillSwitch
import Alos.Releases.Failure
import Alos.Releases.Gates
import Alos.Coop.Serial
import Alos.Releases.Concurrent
import Alos.Authorization
import Alos.Tools.Executor
import Alos.Coop.Staged
import Alos.Tools.Gates
import Alos.Tools.Stages
import Alos.Tools.Access
import Alos.Tools.SourceContext
import Alos.Tools.Authority
import Alos.Tools.Once
import Alos.Tools.Outcomes
import Alos.Json.Fields
import Alos.Tools.Digest
import Alos.Tools.Replays
import Alos.Contracts
import Alos.Coop.Lock
import Alos.Registry.Entry
import Alos.Registry.Service
import Alos.Registry.Stages
import Alos.Registry.Moves
import Alos.Registry.Sync
import Alos.Registry.Lifecycle
import Alos.Registry.Lineage
import Alos.Registry.Shared
import Alos.Registry.AuthorityView
import Alos.Registry.Reads
import Alos.Registry.Atomicity
import Alos.Jobs.Models
import Alos.Jobs.Repository
import Alos.Jobs.Queue
import Alos.Jobs.Worker
import Alos.Jobs.Leases
import Alos.Coop.Embed
import Alos.Registry.Alone
import Alos.Errors
import Alos.Factory.Service
import Alos.Coop.Guards
import Alos.Factory.Checks
import Alos.Factory.Creation
import Alos.Factory.Drafts
import Alos.Factory.Failure
import Alos.Evidence
import Alos.Sources.Chunks
import Alos.Sources.Models
import Alos.Sources.Service
import Alos.Sources.Isolation
import Alos.Tools.Lifecycle
import Alos.Tools.MakerChecker
import Alos.Tools.Overlap
import Alos.Agents.Runs
import Alos.Agents.Repository
import Alos.Agents.Authority
import Alos.Agents.Completion
import Alos.Agents.Stores
import Alos.Registry.Stores
import Alos.Registry.Order
import Alos.Registry.Authorized
import Alos.Skills.Service
import Alos.Skills.Visibility
import Alos.Registry.Detail
import Alos.Registry.Sequential
import Alos.Skills.Assignment
import Alos.Skills.Prerequisites
import Alos.Skills.Assigned
import Alos.Memory.Repository
import Alos.Memory.Frame
import Alos.Memory.Retrieval
import Alos.Authentication.Directory
import Alos.Authentication.Service
import Alos.Authentication.Boundary
import Alos.Authentication.Failure
import Alos.Releases.Replay
import Alos.Registry.Versions
import Alos.Lines
import Alos.Sources.Partition
import Alos.Sources.Anchors
import Alos.Sources.Ranking
import Alos.Sources.Immutable
import Alos.Documents.Isolation
import Alos.Evidence.Atomicity
import Alos.Jobs.Idempotency
import Alos.Factory.Reuse
import Alos.Skills.NextVersion
import Alos.Registry.Genuine
import Alos.Skills.Trail
import Alos.Skills.Stages
import Alos.Skills.Frame
import Alos.Skills.Reports
import Alos.Tools.Standing
import Alos.Tools.Discipline
import Alos.Authorization.Enforcement
import Alos.Authentication.Tokens
import Alos.Observability.Correlation
import Alos.Integrations.Vetting
import Alos.Integrations.FailClosed
import Alos.Integrations.Secrecy
import Alos.Newest
import Alos.Measure
import Alos.Json.Spaced
import Alos.Audit.Repository
import Alos.Integrations.Genesis
import Alos.Research.Service
import Alos.Research.Authority
import Alos.Registry.Restart
import Alos.Jobs.Progress
import Alos.Authentication.Session
import Alos.Tools.Outputs
import Alos.Tools.Boundary
import Alos.Tools.Disclosure
import Alos.Skills.Catalogue
import Alos.Context.Projection
import Alos.Releases.Assurance
import Alos.Api.Drafts
import Alos.Coop.Erasure
import Alos.Registry.Isolation
import Alos.Api.Isolation
import Alos.Authentication.Registration
import Alos.Coop.Progress
import Alos.Registry.Progress
import Alos.Api.Progress
