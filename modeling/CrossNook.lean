import CrossNook.Storage.AtomicSave
import CrossNook.Progress.Codec
import CrossNook.Book.BinaryIdentity
import CrossNook.Identity.Agreement
import CrossNook.Sync.Evidence
import CrossNook.Sync.Convergence
import CrossNook.Sync.OneSided
import CrossNook.App.ReaderConflict
import CrossNook.Sync.Configured
import CrossNook.Net.TlsReceive
import CrossNook.Platform.StorageVerify
import CrossNook.UI.Intents
import CrossNook.Account.Pairing
import CrossNook.Account.AccountPaths
import CrossNook.Net.StatusLine
import CrossNook.Storage.BurstErrors
import CrossNook.Net.DnsExchange
import CrossNook.UI.RenderFit
import CrossNook.Sync.ProfileController
import CrossNook.Sync.Validators
import CrossNook.Platform.Unescape
import CrossNook.Library.EntryTypes
import CrossNook.UI.PowerKey
import CrossNook.App.AccountSetupUi
import CrossNook.App.PositionIndexes
import CrossNook.Graphics.Encoding
import CrossNook.UI.Ellipsis
import CrossNook.UI.FieldBounds
import CrossNook.Graphics.Raster
import CrossNook.Time.SntpExchange
import CrossNook.Sync.Provenance
import CrossNook.App.ReaderPages
import CrossNook.Platform.InputPolls
import CrossNook.Platform.Display
import CrossNook.Net.TlsRelay
import CrossNook.Net.TlsTrust
import CrossNook.Net.TlsWaits
import CrossNook.System.Agreement
import CrossNook.UI.Picture
import CrossNook.UI.Redraw
import CrossNook.App.AccountSetupMain
