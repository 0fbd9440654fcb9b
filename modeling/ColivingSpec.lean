import ColivingSpec.ContentNode.ClockLedger
import ColivingSpec.ContentNode.ExportByWallet
import ColivingSpec.ContentNode.FindSyncRequests
import ColivingSpec.ContentNode.TranscodeHandOff
import ColivingSpec.ContentNode.IssueSyncRequest
import ColivingSpec.ContentNode.LatestBlockNumber
import ColivingSpec.ContentNode.LockExclusion
import ColivingSpec.ContentNode.MergeCoverage
import ColivingSpec.ContentNode.Servability
import ColivingSpec.ContentNode.RevokedSessions
import ColivingSpec.ContentNode.StoredFiles
import ColivingSpec.ContentNode.SyncCleanup
import ColivingSpec.ContentNode.SyncConvergence
import ColivingSpec.ContentNode.SyncDeduplication
import ColivingSpec.ContentNode.SyncMode
import ColivingSpec.ContentNode.SyncSuccessRates
import ColivingSpec.ContentNode.UpdateReplicaSet
import ColivingSpec.ContentNode.UploadStatus
import ColivingSpec.ContentNode.WriteAuthorisation
import ColivingSpec.ContentNode.WriteQuorum
import ColivingSpec.Contracts.TrustedNotifierManager
import ColivingSpec.DataContracts.ReplicaSetAuthority
import ColivingSpec.DataContracts.UserFactory
import ColivingSpec.Discovery.CatalogueCounts
import ColivingSpec.Discovery.ChainFollowing
import ColivingSpec.Discovery.ListeningHistory
import ColivingSpec.Discovery.BalanceRefresh
import ColivingSpec.Discovery.EventScanner
import ColivingSpec.Discovery.ResponseCache
import ColivingSpec.Discovery.DeactivatedUsers
import ColivingSpec.Discovery.SupporterRankUps
import ColivingSpec.Discovery.Attestation
import ColivingSpec.Discovery.SkippedEvents
import ColivingSpec.Discovery.ContentAvailability
import ColivingSpec.Discovery.ContentListOrder
import ColivingSpec.Discovery.FeedPages
import ColivingSpec.Discovery.PoisonTransactions
import ColivingSpec.Discovery.ProcessEvents
import ColivingSpec.Discovery.SkippedTransactions
import ColivingSpec.Discovery.SocialCounts
import ColivingSpec.Discovery.SocialCurrent
import ColivingSpec.Discovery.SolanaPolls
import ColivingSpec.Identity.ContentListUpdates
import ColivingSpec.Identity.MilestoneProcessing
import ColivingSpec.Identity.NotificationRanges
import ColivingSpec.Identity.SentOnce
import ColivingSpec.Identity.RelayedInstructions
import ColivingSpec.Libs.NodeHealth
import ColivingSpec.Libs.TimingOrder
import ColivingSpec.Solana.AnchorCurrent
import ColivingSpec.Solana.Plays
import ColivingSpec.Solana.SplToken
import ColivingSpec.Solana.UserTips
import ColivingSpec.Solana.PlayBatches
import ColivingSpec.Solana.TransactionBatches
import ColivingSpec.System.DecreaseRequests
import ColivingSpec.System.DelegatorLists
import ColivingSpec.System.Endpoints
import ColivingSpec.System.RecordAccess
import ColivingSpec.System.RewardClaims
import ColivingSpec.System.Rounds
import ColivingSpec.System.StakeBounds
import ColivingSpec.System.ServiceTypes
import ColivingSpec.System.VotingStake
import ColivingSpec.Governance.Execution
import ColivingSpec.System.SignedTransfers
