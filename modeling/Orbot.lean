import Orbot.Lib.Transition
import Orbot.Lib.SortedSearch
import Orbot.Lib.Ledger
import Orbot.Lib.LastMatch
import Orbot.Lib.PendingWrites
import Orbot.Lib.Quoting
import Orbot.Lib.Writes
import Orbot.Lib.Fields
import Orbot.Lib.GreedyMatch
import Orbot.Java.Text
import Orbot.Java.Pattern
import Orbot.TransProxy.Command
import Orbot.TransProxy.Netfilter
import Orbot.TransProxy.TorTransProxy
import Orbot.TransProxy.Execution
import Orbot.TransProxy.ToolPaths
import Orbot.TransProxy.WholeDevice
import Orbot.TransProxy.PerApp
import Orbot.TransProxy.TorifiedApps
import Orbot.Vpn.AppRouting
import Orbot.Vpn.OrbotVpnManager
import Orbot.Vpn.StoppedVpn
import Orbot.Service.Prefs
import Orbot.Service.TransparentProxy
import Orbot.Service.Torrc
import Orbot.Service.Ports
import Orbot.Service.TorrcLayout
import Orbot.Service.Bridges
import Orbot.Service.ExitNodes
import Orbot.Service.ExitCommands
import Orbot.Service.NetworkSwitch
import Orbot.Control.Reply
import Orbot.Control.ReplyFormat
import Orbot.Control.Commands
import Orbot.Control.Decode
import Orbot.Control.Event
import Orbot.Service.TorEventHandler
import Orbot.Control.React
import Orbot.Control.Connection
import Orbot.Control.Delivery
import Orbot.Control.Requests
import Orbot.Control.ReaderEnd
import Orbot.Manager.BridgeChange
import Orbot.Manager.OrbotManager
import Orbot.Manager.Listener
import Orbot.Install.TorResourceInstaller
import Orbot.Install.Upgrade
import Orbot.Lifecycle.TorService
import Orbot.Lifecycle.FailedStart
import Orbot.Lifecycle.PublishedConnection
import Orbot.Lifecycle.SingleTor
import Orbot.Lifecycle.Shutdown
import Orbot.Lifecycle.Alone
import Orbot.Lifecycle.AwaitConfig
import Orbot.Control.Settings
import Orbot.Control.DataBlock
import Orbot.Control.Info
import Orbot.Control.CircuitEvent
import Orbot.Service.BuiltNodes
import Orbot.Service.Traffic
import Orbot.Service.OutboundProxy
import Orbot.Service.DefaultBridges
import Orbot.Service.HiddenServices
import Orbot.Service.OnionNames
import Orbot.TransProxy.ExitCodes
import Orbot.Service.TransproxyNotice
import Orbot.Service.TorServiceUtils
import Orbot.Install.CopyFile
import Orbot.Control.PasswordDigest
import Orbot.Manager.ValidNodes
import Orbot.Manager.LogText
import Orbot.Manager.ErrorReport
import Orbot.Lib.Numbered
import Orbot.Java.LineBuffer
import Orbot.Java.Search
import Orbot.RootCommands.Command
import Orbot.RootCommands.Shell
import Orbot.RootCommands.Attribution
import Orbot.RootCommands.Close
import Orbot.RootCommands.ExecuteCommand
import Orbot.Lib.CommonSuffix
import Orbot.Pdnsd.Rhn
import Orbot.Pdnsd.DecompressName
import Orbot.Pdnsd.DomainMatch
import Orbot.Pdnsd.CompressName
import Orbot.Pdnsd.Record
import Orbot.Pdnsd.Rrs2Cent
import Orbot.Lib.Ends
import Orbot.Pdnsd.Accepted
import Orbot.Pdnsd.AddRr
import Orbot.Pdnsd.AnswerRead
import Orbot.Pdnsd.ComposeAnswer
import Orbot.Pdnsd.AnswerTraced
