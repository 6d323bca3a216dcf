import CockatielEngine.Gate.HeldRelease
import CockatielEngine.Pipeline.HeldNotShown
import CockatielEngine.Pipeline.AuditFinal
import CockatielEngine.Pipeline.GatedTime
import CockatielEngine.Pipeline.ReplyOwnership
import CockatielEngine.Pipeline.StageBarrier
import CockatielEngine.Pipeline.NoStranded
import CockatielEngine.Pipeline.FailedCalls
import CockatielEngine.Pipeline.SweepErrors
import CockatielEngine.Pipeline.ChainOrder
import CockatielEngine.Connections.SlotOwnership
import CockatielEngine.Ingest.OnceAtIngest
import CockatielEngine.Blocks.CacheCoherence
import CockatielEngine.Blocks.StartupLoad
import CockatielEngine.Shutdown.AnsweredFirst
import CockatielEngine.Audit.ResolvedOnce
import CockatielEngine.Gate.OutstandingBlocks
import CockatielEngine.Gate.LastWord
import CockatielEngine.Pipeline.DrainSignal
import CockatielEngine.Database.PoisonedConnection
import CockatielEngine.Queries.ActorAuthority
import CockatielEngine.Pricing.ExactCharges
import CockatielEngine.Connections.SoundVerdicts
import CockatielEngine.Pipeline.RecoveryDrain
import CockatielEngine.Database.BackupPromotion
import CockatielEngine.Database.FailedRestore
import CockatielEngine.Streams.StreakRestart
import CockatielEngine.Ingest.EnrichChatUser
import CockatielEngine.Prompts.PromptRoutes
import CockatielEngine.Database.TimelineIds
import CockatielEngine.Registry.ModuleRegistry
import CockatielEngine.Queries.SurfacesAgree
import CockatielEngine.Pipeline.SweepOrder
import CockatielEngine.Database.StageWrites
import CockatielEngine.Pipeline.AudioRoundTrip
import CockatielEngine.Pipeline.AckConservation
import CockatielEngine.Commands.Recipients
import CockatielEngine.Pipeline.ResendFidelity
import CockatielEngine.Pipeline.ChainRefresh
import CockatielEngine.Sets.SharedMarks
import CockatielEngine.Blocks.SharedAliases
import CockatielEngine.Channels.BoundedChannel
import CockatielEngine.Pipeline.SendToModule
import CockatielEngine.Concurrency.Settles
import CockatielEngine.Pipeline.AlikeFor
import CockatielEngine.Pipeline.InFlight
import CockatielEngine.Pipeline.HandlerRuns
import CockatielEngine.Pipeline.Aside
import CockatielEngine.Pipeline.PauseDelays
import CockatielEngine.Connections.PinGate
import CockatielEngine.Shutdown.ShutdownSignal
import CockatielEngine.Queries.StreamControl
import CockatielEngine.Queries.TimeoutExpiry
import CockatielEngine.Queries.ScoreDelta
import CockatielEngine.Config.Document
import CockatielEngine.Config.EngineConfig
import CockatielEngine.Config.UpdateConfig
import CockatielEngine.Config.Placement
import CockatielEngine.Config.AutoConfig
import CockatielEngine.Config.OrderingStep
import CockatielEngine.Config.SettledFiles
import CockatielEngine.Config.OperatorWins
import CockatielEngine.Text.Lines
import CockatielEngine.Text.Trimming
import CockatielEngine.Text.EnvFile
import CockatielEngine.Text.EnvMerge
import CockatielEngine.Config.Secrets
import CockatielEngine.Config.SecretsRestart
import CockatielEngine.Config.Credentials
import CockatielEngine.Config.JsonStrings
import CockatielEngine.Config.CredentialsSaved
import CockatielEngine.Commands.ClosestCommand
import CockatielEngine.Database.TimelineCull
import CockatielEngine.Ranks.RankChart
import CockatielEngine.Connections.UserDbRequests
import CockatielEngine.Channels.DroppedResponses
import CockatielEngine.Channels.LogReserve
import CockatielEngine.Connections.Admission
import CockatielEngine.Database.Maintenance
import CockatielEngine.Registry.Discovery
