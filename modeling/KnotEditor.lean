import KnotEditor.Sync.VersionLoss
import KnotEditor.Sync.RacingHeads
import KnotEditor.Sync.PartialReader
import KnotEditor.Sync.PredicateAuthoring
import KnotEditor.CollectionUpdates
import KnotEditor.FileCatalogRuns
import KnotEditor.Desktop.RecoveryCopySafety
import KnotEditor.Desktop.CatalogGraphRuns
import KnotEditor.Document.ProposalSafety
import KnotEditor.Desktop.LinkAgreement
import KnotEditor.Sync.LiveAuthorityRuns
import KnotEditor.Desktop.DocumentWorkspaceHistory
import KnotEditor.SearchSafety
import KnotEditor.CheckpointRepairSafety
import KnotEditor.Desktop.SiteReviewRuns
import KnotEditor.Endpoint.SaveSupersession
import KnotEditor.StartupRuns
import KnotEditor.VaultLocking
import KnotEditor.DjotMergeLines
import KnotEditor.DjotMergeBlocks
import KnotEditor.Sync.MergeBase
import KnotEditor.Sync.TailReceipt
import KnotEditor.Desktop.PreferencesRuns
import KnotEditor.Desktop.RecoveryRuns
import KnotEditor.PublishHostRuns
import KnotEditor.Desktop.CollectionSafety
import KnotEditor.Mark.ConditionalFetch
import KnotEditor.Mark.ExportReach
import KnotEditor.Desktop.RecoveryRetention
import KnotEditor.Reference.RegistryRuns
import KnotEditor.Document.FailedSaves
import KnotEditor.Wordnet.IgnoredSubtrees
import KnotEditor.Wordnet.ExclusionReport
import KnotEditor.ClipPassage
import KnotEditor.Sync.AuthorityRevision
import KnotEditor.Readings.LinkFences
import KnotEditor.Desktop.FoldIdentities
import KnotEditor.Document.HardWrapInvariance
import KnotEditor.Desktop.RecipeHistoryRuns
import KnotEditor.Desktop.PaneMeasures
import KnotEditor.RosetteAgreement
import KnotEditor.Desktop.ContextNavigation
import KnotEditor.Sync.CheckpointHistory
import KnotEditor.Sync.PairedWriters
import KnotEditor.BoundedRead
import KnotEditor.Mark.Calendar
import KnotEditor.Desktop.MetreEditorRuns
import KnotEditor.Desktop.SceneCanvas
