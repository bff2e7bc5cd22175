import RepoAccess.Config.Codec
import RepoAccess.Config.Environment
import RepoAccess.Config.Merge
import RepoAccess.Config.Reload
import RepoAccess.Engine.Operations
import RepoAccess.IdentityStore
import RepoAccess.Memory.Store
import RepoAccess.Sql.Opening
import RepoAccess.Sql.Script
import RepoAccess.Proofs.Execution
import RepoAccess.Proofs.Rows
import RepoAccess.Proofs.Writers.Holders
import RepoAccess.Proofs.Writers.Account
import RepoAccess.Proofs.Writers.Promises
import RepoAccess.Proofs.Writers.Counts
import RepoAccess.Proofs.Writers.Clearing
import RepoAccess.Proofs.Writers.Claim
import RepoAccess.Proofs.Course.Event
import RepoAccess.Proofs.Operations
import RepoAccess.Proofs.Course.Effect
import RepoAccess.Proofs.Addressees
import RepoAccess.Proofs.Agreement
import RepoAccess.Proofs.Listing
import RepoAccess.Proofs.AccountRuns
import RepoAccess.Proofs.Course.History
import RepoAccess.Proofs.SourceHistory
import RepoAccess.Proofs.PendingHistory
import RepoAccess.Proofs.RowHistory
import RepoAccess.Proofs.Changes
import RepoAccess.Proofs.AliasGroups
import RepoAccess.Proofs.Migration
import RepoAccess.Proofs.Deletion
import RepoAccess.Proofs.Revocation
import RepoAccess.Proofs.PathChecks
import RepoAccess.Proofs.PathDecisions
import RepoAccess.Proofs.StoredRules
import RepoAccess.Proofs.RuleLists
import RepoAccess.Proofs.PathGrammar
import RepoAccess.Proofs.PathLevels
import RepoAccess.Proofs.FollowedLayer
import RepoAccess.Proofs.Course.System
import RepoAccess.Proofs.LinkedAccounts
import RepoAccess.Proofs.Justification
import RepoAccess.Proofs.Disarming
import RepoAccess.Proofs.Interleaving
import RepoAccess.Proofs.Mutation
import RepoAccess.Proofs.Dialogue
import RepoAccess.Proofs.Moments
import RepoAccess.Proofs.Failure
import RepoAccess.Proofs.Locking.Keys
import RepoAccess.Proofs.Locking.Care
import RepoAccess.Proofs.StatementText
import RepoAccess.Proofs.Locking
import RepoAccess.Proofs.Codec.Digits
import RepoAccess.Proofs.Codec.Tree
import RepoAccess.Proofs.Codec.Calendar
import RepoAccess.Proofs.Codec.Moment
import RepoAccess.Proofs.Codec.Law
import RepoAccess.Proofs.Codec
import RepoAccess.Proofs.Settings
import RepoAccess.Proofs.Layers
import RepoAccess.Proofs.HiddenPassword
import RepoAccess.Proofs.Utf8
import RepoAccess.Proofs.Variables
import RepoAccess.Proofs.ConnectionUrl
import RepoAccess.Proofs.LastGoodFile
import RepoAccess.Proofs.FailureCounts
import RepoAccess.Proofs.RowCodec
import RepoAccess.Proofs.SourceRows
import RepoAccess.Proofs.StoredRecords
