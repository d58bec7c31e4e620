import AioVpn.Coroutine.Prog
import AioVpn.Coroutine.Pool
import AioVpn.Coroutine.Outline
import AioVpn.Coroutine.AtRest
import AioVpn.Data.ExceptFold
import AioVpn.Data.Blocks
import AioVpn.Text.JavaString
import AioVpn.Text.Lines
import AioVpn.Text.Rfc4648
import AioVpn.Crypto.Key
import AioVpn.Crypto.Base64
import AioVpn.Crypto.Encodings
import AioVpn.Crypto.Masks
import AioVpn.Config.Attribute
import AioVpn.Config.Inet
import AioVpn.Config.Sections
import AioVpn.Config.Applications
import AioVpn.Config.Config
import AioVpn.Config.Reading
import AioVpn.Config.Declarative
import AioVpn.Config.AttributeText
import AioVpn.Config.WgQuick
import AioVpn.Config.Readable
import AioVpn.Config.NamedApplications
import AioVpn.Backend.VpnBuilder
import AioVpn.Backend.NativeHandles
import AioVpn.Backend.Endpoints
import AioVpn.Backend.GoBackend
import AioVpn.Backend.GoBackendSpec
import AioVpn.Backend.AbstractBackend
import AioVpn.Backend.Lifecycle
import AioVpn.Backend.FailedSwitch
import AioVpn.App.WireGuardBackend
import AioVpn.App.WireGuardSpec
import AioVpn.App.ConnectedFlag
import AioVpn.App.TunnelRace
import AioVpn.Backend.AppFilters
import AioVpn.Routing.TunnelValidator
import AioVpn.Repo.SplitTunnel
import AioVpn.Repo.RemovedLines
import AioVpn.Repo.InsertedLine
import AioVpn.Repo.SplitTunnelParse
import AioVpn.Repo.DeviceRepository
import AioVpn.Repo.Session
import AioVpn.Settings.SettingsStore
import AioVpn.Settings.SplitTunnelingActivity
import AioVpn.Settings.UninstalledApps
import AioVpn.Routing.Ranking
import AioVpn.Home.HomeActivity
import AioVpn.Home.HomeSpec
import AioVpn.Home.OneOperation
import AioVpn.Home.AttemptSpec
import AioVpn.Home.DisconnectedMeansDown
import AioVpn.Home.ConnectedMeansUp
import AioVpn.Home.Selection
import AioVpn.Login.ServerListActivity
import AioVpn.Updater.Updater
import AioVpn.Updater.VerifiedInstall
import AioVpn.Updater.NoTrap
import AioVpn.Config.RoundTrip
import AioVpn.Backend.Uapi
import AioVpn.Backend.UserspaceString
import AioVpn.Crypto.Malformed
import AioVpn.Backend.EndpointLines
import AioVpn.Home.SmartCandidates
import AioVpn.Coroutine.Trace
import AioVpn.Home.Failover
import AioVpn.Config.Equality
import AioVpn.Home.SelectionMode
import AioVpn.Login.ServerList
import AioVpn.Updater.SizeLimit
import AioVpn.Config.Prefixes
import AioVpn.Login.ChosenFilter
import AioVpn.Login.FetchedServers
import AioVpn.Crypto.Curve25519
import AioVpn.Crypto.FieldArithmetic
import AioVpn.Crypto.KeyAgreement
import AioVpn.Config.Faults
import AioVpn.Shell.CommandRuns
import AioVpn.Backend.Deployed
import AioVpn.Backend.WgQuickBackend
import AioVpn.Backend.WgQuickRuns
import AioVpn.Tools.CString
import AioVpn.Tools.Encoding
import AioVpn.Text.Utf8
import AioVpn.Tools.ConfigFile
import AioVpn.Tools.WgQuickUp
import AioVpn.Backend.WgQuickRollback
import AioVpn.Backend.WgQuickDevices
