import Tgtc.DiskLedger
import Tgtc.DiskVolume
import Tgtc.UpstreamLedger
import Tgtc.Wakeups
import Tgtc.Fairness
import Tgtc.Bypass
import Tgtc.Shutdown
import Tgtc.Settlement
import Tgtc.Custody
import Tgtc.Deliveries
import Tgtc.DownloadTask
import Tgtc.TaskMoves
import Tgtc.TaskOwnership
import Tgtc.TicketPromise
import Tgtc.Abandoned
import Tgtc.HandOffCapacity
import Tgtc.FileCopies
import Tgtc.Directory
import Tgtc.DirectoryChanges
import Tgtc.DirectoryNames
import Tgtc.Forests
import Tgtc.FolderForest
import Tgtc.FolderMoves
import Tgtc.FollowerDelivery
import Tgtc.Publication
import Tgtc.TailLock
import Tgtc.SessionLocks
import Tgtc.BuildSession
import Tgtc.CacheService
import Tgtc.JoinedSessions
import Tgtc.Invalidation
import Tgtc.VersionIsolation
import Tgtc.DiskHandles
import Tgtc.UpstreamHandles
import Tgtc.SessionLeases
import Tgtc.LeaseReturns
import Tgtc.MergePermits
import Tgtc.MirrorExecutions
import Tgtc.AnchorOnce
import Tgtc.AnchorSource
import Tgtc.Backfill
import Tgtc.BackfillRuns
import Tgtc.MirrorForwards
import Tgtc.MirrorRecovery
import Tgtc.MirrorRules
import Tgtc.MirrorTasks
import Tgtc.CapacityPolicy
import Tgtc.ChunkMerge
import Tgtc.CacheDirectory
import Tgtc.CachePins
import Tgtc.SourceStreams
import Tgtc.SpoolFiles
import Tgtc.CacheCounter
import Tgtc.Degradation
import Tgtc.UploadSystem
import Tgtc.UploadCustody
import Tgtc.UploadMoves
import Tgtc.SuccessorSource
import Tgtc.VersionFence
import Tgtc.SessionCourse
import Tgtc.LeaseTenure
import Tgtc.LeaseDisk
import Tgtc.ChunkRequests
import Tgtc.FreeCapacity
import Tgtc.Reclaiming
import Tgtc.AccountPool
import Tgtc.AccountAttempts
import Tgtc.AccountRegistry
import Tgtc.Escalation
import Tgtc.ReplicationRounds
import Tgtc.RoundOverlap
import Tgtc.RuleConsistency
import Tgtc.DirectoryTrash
import Tgtc.RowLocks
import Tgtc.TrashRemoval
import Tgtc.SharedObjects
import Tgtc.ShareLinks
import Tgtc.PreviewSessions
import Tgtc.ShareRequests
import Tgtc.ShareQuota
import Tgtc.ShareRevocation
import Tgtc.PasswordLock
import Tgtc.RateLimits
import Tgtc.IpBans
import Tgtc.ConfigCache
import Tgtc.ByteRange
import Tgtc.RangeQuota
import Tgtc.Observations
import Tgtc.ShareEndpoints
import Tgtc.ShareSecrecy
import Tgtc.BotDocuments
import Tgtc.BotLinks
import Tgtc.BotDownloads
import Tgtc.BotOffsets
import Tgtc.BotQuota
import Tgtc.UpdateTasks
import Tgtc.UpdateOutcomes
import Tgtc.LoginAnswers
import Tgtc.TokenRevocation
import Tgtc.UpdateTimeouts
import Tgtc.VerificationCodes
import Tgtc.AddressBlocks
import Tgtc.IpWhitelist
import Tgtc.AttackBans
import Tgtc.MinuteMetrics
import Tgtc.Precedence
import Tgtc.SemanticVersions
import Tgtc.UpdateChecks
import Tgtc.FileVerification
import Tgtc.UploadScheduler
import Tgtc.ChunkedUpload
import Tgtc.ChunkTokens
import Tgtc.ChunkWork
import Tgtc.ChunkedUploads
import Tgtc.UploadEntries
import Tgtc.QueueWorkers
import Tgtc.AdmissionProbes
import Tgtc.AccountSelection
import Tgtc.EnqueueRetries
import Tgtc.DirectRelay
import Tgtc.FailedOverwrites
import Tgtc.RateWindows
import Tgtc.AttackIsolation
import Tgtc.CursorPages
