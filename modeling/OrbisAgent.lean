import OrbisAgent.Buffer.BoundedFifo
import OrbisAgent.Buffer.ConcurrentFlush
import OrbisAgent.Buffer.FlushOnce
import OrbisAgent.Buffer.FlushProgress
import OrbisAgent.Buffer.LocalBuffer
import OrbisAgent.Buffer.Pruning
import OrbisAgent.Cli.Arguments
import OrbisAgent.Cli.BrokerUri
import OrbisAgent.Cli.DeviceIdentity
import OrbisAgent.Cli.HostRefinement
import OrbisAgent.Cli.InstallHistory
import OrbisAgent.Cli.Installation
import OrbisAgent.Cli.Lifetime
import OrbisAgent.Cli.Main
import OrbisAgent.Cli.Onboarding
import OrbisAgent.Cli.Prerm
import OrbisAgent.Cli.RegisterAck
import OrbisAgent.Cli.Shutdown
import OrbisAgent.Cli.Uninstall
import OrbisAgent.Config.Base64
import OrbisAgent.Config.Base64Decoded
import OrbisAgent.Config.Base64Overflow
import OrbisAgent.Config.CanonicalBase64
import OrbisAgent.Config.ConfigManager
import OrbisAgent.Config.LoadContract
import OrbisAgent.Config.SaveCrash
import OrbisAgent.Config.SaveFrame
import OrbisAgent.Config.SavedFile
import OrbisAgent.Config.StoredToken
import OrbisAgent.Config.Token
import OrbisAgent.Config.Uuid
import OrbisAgent.Constants
import OrbisAgent.Core.AtomicQueue
import OrbisAgent.Core.MessageQueue
import OrbisAgent.Core.ProcFiles
import OrbisAgent.Core.QueueWakeups
import OrbisAgent.Lib.Assignment
import OrbisAgent.Lib.Binary64
import OrbisAgent.Lib.Bindings
import OrbisAgent.Lib.BitString
import OrbisAgent.Lib.ByteString
import OrbisAgent.Lib.CText
import OrbisAgent.Lib.DropOldest
import OrbisAgent.Lib.Extraction
import OrbisAgent.Lib.FileSystem
import OrbisAgent.Lib.FileTree
import OrbisAgent.Lib.IdTable
import OrbisAgent.Lib.InputStream
import OrbisAgent.Lib.Ipv4
import OrbisAgent.Lib.Json
import OrbisAgent.Lib.JsonText
import OrbisAgent.Lib.LockOrder
import OrbisAgent.Lib.MachineNumbers
import OrbisAgent.Lib.SignedInt
import OrbisAgent.Lib.Simulation
import OrbisAgent.Lib.Supervision
import OrbisAgent.Lib.Toml
import OrbisAgent.Lib.TomlText
import OrbisAgent.Lib.Trace
import OrbisAgent.Lib.Transition
import OrbisAgent.Lib.Utf8
import OrbisAgent.Lib.Window
import OrbisAgent.Mqtt.Addressing
import OrbisAgent.Mqtt.Backoff
import OrbisAgent.Mqtt.Client
import OrbisAgent.Mqtt.Delivery
import OrbisAgent.Mqtt.LogSink
import OrbisAgent.Mqtt.Reconnect
import OrbisAgent.Mqtt.ReconnectStop
import OrbisAgent.Mqtt.Resubscribe
import OrbisAgent.Mqtt.SubscriptionQos
import OrbisAgent.Platform.LinuxService
import OrbisAgent.Plugins.ArrayText
import OrbisAgent.Plugins.CollectFaults
import OrbisAgent.Plugins.CpuRam
import OrbisAgent.Plugins.Disk
import OrbisAgent.Plugins.DockerStats
import OrbisAgent.Plugins.ItemIsolation
import OrbisAgent.Plugins.PluginLifecycle
import OrbisAgent.Plugins.PluginLoader
import OrbisAgent.Plugins.SyslogCollector
import OrbisAgent.Services.Acknowledgement
import OrbisAgent.Services.CommandExecutor
import OrbisAgent.Services.CommandOrder
import OrbisAgent.Services.CommandProgress
import OrbisAgent.Services.CommandQueue
import OrbisAgent.Services.CommandResults
import OrbisAgent.Services.ConcurrentUpdate
import OrbisAgent.Services.FileDigest
import OrbisAgent.Services.Heartbeat
import OrbisAgent.Services.HeartbeatLives
import OrbisAgent.Services.InterfaceChoice
import OrbisAgent.Services.JournalLines
import OrbisAgent.Services.JournalWindow
import OrbisAgent.Services.LogBatches
import OrbisAgent.Services.LogCollector
import OrbisAgent.Services.LogDelivery
import OrbisAgent.Services.LogMetadata
import OrbisAgent.Services.LogPassage
import OrbisAgent.Services.LogSources
import OrbisAgent.Services.LoopService
import OrbisAgent.Services.NetworkScanner
import OrbisAgent.Services.OpenPorts
import OrbisAgent.Services.PortList
import OrbisAgent.Services.Presence
import OrbisAgent.Services.ResultOrder
import OrbisAgent.Services.RunLoop
import OrbisAgent.Services.ScanTasks
import OrbisAgent.Services.SerialUpdate
import OrbisAgent.Services.ShellOutput
import OrbisAgent.Services.ShellPayload
import OrbisAgent.Services.ShellPipe
import OrbisAgent.Services.ShellTimeout
import OrbisAgent.Services.StopExecutor
import OrbisAgent.Services.Subnet
import OrbisAgent.Services.Supervised
import OrbisAgent.Services.SystemMetrics
import OrbisAgent.Services.UpdateManager
import OrbisAgent.Services.UpdateRefinement
import OrbisAgent.Services.UpdateRequests
import OrbisAgent.Services.UpdateResults
