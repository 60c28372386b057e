import Vautr.Api
import Vautr.Audit
import Vautr.Auth
import Vautr.Bearer
import Vautr.Blacklist
import Vautr.Challenges
import Vautr.CursorExpiry
import Vautr.EmergencyKit
import Vautr.EpochGate
import Vautr.FileKeys
import Vautr.Files
import Vautr.FirstBoot
import Vautr.Import
import Vautr.KeyWipe
import Vautr.Labels
import Vautr.LoginPhases
import Vautr.LoginReplay
import Vautr.MachineTokens
import Vautr.MinGeneration
import Vautr.Occ
import Vautr.OffboardRuns
import Vautr.OfflineQueue
import Vautr.OrgRoles
import Vautr.ProjectAccess
import Vautr.PushVersions
import Vautr.RecoveryRevokes
import Vautr.RotationAgreement
import Vautr.RotationRace
import Vautr.RotationSafety
import Vautr.SecondFactor
import Vautr.SecretPatches
import Vautr.SecretAccess
import Vautr.Suspension
import Vautr.Telemetry
import Vautr.TelemetryRuns
import Vautr.TokenFormat
import Vautr.Tombstones
import Vautr.TwoDevices
import Vautr.Updater
import Vautr.VaultEvents
import Vautr.WebClient
import Vautr.WebEdits
import Vautr.WebRotation
import Vautr.WebSync
import Vautr.Webauthn
import Vautr.WebauthnGate
import Vautr.FileStream
import Vautr.FileRoundTrip
import Vautr.FileIntegrity
import Vautr.Executions
import Vautr.ItemServer
import Vautr.ItemWrites
import Vautr.PushBatch
import Vautr.FixedWindow
import Vautr.RateLimits
import Vautr.Archive
import Vautr.Base32
import Vautr.Totp
import Vautr.CrashReports
import Vautr.Export
import Vautr.RecoveryAnswers
import Vautr.ImportRuns
import Vautr.Words
import Vautr.Search
import Vautr.Restore
import Vautr.RestoreTest
import Vautr.CrashText
import Vautr.CiphertextCache
import Vautr.Generator
import Vautr.Histograms
import Vautr.Quarantine
import Vautr.UiStore
import Vautr.ClientRuns
import Vautr.ConflictChoice
import Vautr.TombstoneFlush
import Vautr.GroupKeys
import Vautr.WebResolve
import Vautr.Sharing
import Vautr.GroupAccess
import Vautr.WebCatchUp
import Vautr.Backups
import Vautr.ContentIndex
import Vautr.SearchIndex
import Vautr.Turns
import Vautr.Uploads
import Vautr.FileOwners
