import PamDesktop.Updater.Admission
import PamDesktop.Updater.Helpers
import PamDesktop.Updater.Cycle
import PamDesktop.Updater.Publish
import PamDesktop.Packager.BundleManifest
import PamDesktop.Packager.Materialize
import PamDesktop.Packager.Activation
import PamDesktop.Packager.Exclusions
import PamDesktop.Packager.Links
import PamDesktop.Packager.Entry
import PamDesktop.Packager.PlatformVersion
import PamDesktop.Worker.Queue
import PamDesktop.Gateway.EventStream
import PamDesktop.Gateway.Isolation
import PamDesktop.Shell.Windows
import PamDesktop.Shell.BackgroundAgent
import PamDesktop.Shell.Startup
import PamDesktop.Shell.Lifecycle
import PamDesktop.Scheduler.Reloads
import PamDesktop.Gateway.Reload
import PamDesktop.Gateway.Watcher
import PamDesktop.Php.CommandInvoker
import PamDesktop.Php.Application
import PamDesktop.Php.Identifier
import PamDesktop.Php.MenuAgreement
import PamDesktop.Php.Resolving
import PamDesktop.Php.Plugins
import PamDesktop.Php.BuilderAgreement
import PamDesktop.Php.CapabilityAgreement
import PamDesktop.Shell.Shortcuts
import PamDesktop.Shell.Presenter
import PamDesktop.Shell.Telemetry
import PamDesktop.Shell.Snapshot
import PamDesktop.Shell.PermissionAudit
import PamDesktop.Shell.WindowState
import PamDesktop.Shell.ProcessOutput
import PamDesktop.Shell.Fingerprint
import PamDesktop.Shell.MenuUpdates
import PamDesktop.Shell.OtlpHeaders
import PamDesktop.Launcher.HostArchive
import PamDesktop.Launcher.HostCacheEnds
import PamDesktop.Updater.Precedence
import PamDesktop.Native.FileWatch
import PamDesktop.Native.StoreRuns
import PamDesktop.Native.Terminal
import PamDesktop.Native.Generations
import PamDesktop.Native.GenerationRuns
import PamDesktop.Native.Transactions
import PamDesktop.Native.Confinement
import PamDesktop.Workstation.Commands
import PamDesktop.Workstation.Undo
import PamDesktop.Workstation.Recovery
import PamDesktop.Workstation.Viewport
import PamDesktop.Native.Search
import PamDesktop.Updater.StageCalls
import PamDesktop.Shell.EventLoop
import PamDesktop.Shell.MenuHandles
import PamDesktop.Packager.Documents
import PamDesktop.Worker.Sandbox
import PamDesktop.Packager.Publication
import PamDesktop.Gateway.Performance
import PamDesktop.Shell.CrashReports
