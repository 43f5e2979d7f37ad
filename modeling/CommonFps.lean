import CommonFps.Lib.Driven
import CommonFps.Lib.Window
import CommonFps.Lib.Rounding
import CommonFps.Fps.Rate
import CommonFps.Fps.VideoOut
import CommonFps.Fps.Agreement
import CommonFps.Fps.DisplayFilter
import CommonFps.ShellUi.GuardWrite
import CommonFps.ShellUi.Transaction
import CommonFps.ShellUi.Prologue
import CommonFps.ShellUi.Renderer
import CommonFps.ShellUi.Handshake
import CommonFps.Lib.Single
import CommonFps.Overlay.Config
import CommonFps.Overlay.Wire
import CommonFps.Fps.DceDevice
import CommonFps.Worker.Injector
import CommonFps.Worker.Gate
import CommonFps.Worker.Shown
import CommonFps.Worker.Standby
import CommonFps.Lib.Bytes
import CommonFps.Lib.Numeral
import CommonFps.Settings.Text
import CommonFps.Settings.Form
import CommonFps.Settings.Store
import CommonFps.Settings.Http
import CommonFps.Settings.Socket
import CommonFps.Settings.Page
import CommonFps.ShellUi.Receiver
import CommonFps.ShellUi.Release
import CommonFps.Autoload.AutoloadGuard
import CommonFps.Autoload.SceneGuard
import CommonFps.Fps.DceDiscovery
import CommonFps.Fps.DisplayHistory
import CommonFps.Settings.Encoding
import CommonFps.Lib.X86
import CommonFps.ShellUi.Boundaries
import CommonFps.Lib.Handles
import CommonFps.ShellUi.Mono
import CommonFps.ShellUi.Widgets
import CommonFps.ShellUi.WidgetSpecs
import CommonFps.ShellUi.WidgetPresent
import CommonFps.ShellUi.WidgetRuns
import CommonFps.Overlay.Fit
import CommonFps.Lib.Tiles
import CommonFps.ShellUi.DebuggerTransfer
import CommonFps.Lib.Memory
import CommonFps.ShellUi.Elf
import CommonFps.ShellUi.ElfLoader
import CommonFps.ShellUi.ElfAddresses
import CommonFps.Lib.Locked
import CommonFps.Worker.SessionLog
import CommonFps.Lib.Records
import CommonFps.Worker.ProcessTable
import CommonFps.Fps.ProcRead
import CommonFps.Fps.Discovery
import CommonFps.Fps.Selection
import CommonFps.Lib.Checksum
import CommonFps.ShellUi.RecordBytes
import CommonFps.Lib.BufferReader
import CommonFps.ShellUi.PrologueReads
import CommonFps.Fps.BackOff
import CommonFps.ShellUi.Numbers
import CommonFps.System.Delivery
import CommonFps.System.Measured
import CommonFps.ShellUi.RemoteCall
import CommonFps.ShellUi.Injection
import CommonFps.Lib.Patches
import CommonFps.ShellUi.LoadedImage
import CommonFps.ShellUi.InjectedImage
import CommonFps.System.RendererThread
import CommonFps.Lib.Machine
import CommonFps.ShellUi.Hook
import CommonFps.Settings.Service
import CommonFps.Worker.Steady
import CommonFps.Settings.MediaLauncher
import CommonFps.System.Startup
