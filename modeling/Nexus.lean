import Nexus.Billing.Admission
import Nexus.Billing.StripeConvergence
import Nexus.Consumption.LecternLists
import Nexus.Consumption.ReaderCursor
import Nexus.Consumption.ProjectionSql
import Nexus.Collections.SignedCursor
import Nexus.Surfaces.Refinement
import Nexus.Mutations.Services
import Nexus.Chat.CallLedger
import Nexus.Notes.LinkNotes
import Nexus.Jobs.PeriodicOnce
import Nexus.Libraries.Governed
import Nexus.Citations.Agreement
import Nexus.Media.Doorways
import Nexus.Playback.HeartbeatFence
import Nexus.Podcasts.Reingest
import Nexus.Media.ReindexFencing
import Nexus.Podcasts.AutoQueue
import Nexus.Podcasts.BackfillOnce
import Nexus.Prompts.Budget
import Nexus.Conversations.BranchGraph
import Nexus.Highlights.Segmentation
import Nexus.Chat.ToolIndices
import Nexus.Consumption.ActivityTimeline
import Nexus.Notes.BatchedCleanup
import Nexus.Libraries.PlacementOrder
import Nexus.Media.CanonicalShape
import Nexus.Highlights.QuoteRelocation
import Nexus.Chat.GenerationSettlement
import Nexus.Sharing.ResourceGrants
import Nexus.Podcasts.EpisodePages
import Nexus.Media.UrlRetraction
import Nexus.Podcasts.ForecastAgreement
import Nexus.Indexing.PlanSoundness
import Nexus.Dossiers.HeadView
import Nexus.Workspace.Defects
import Nexus.Reader.ProfileSync
