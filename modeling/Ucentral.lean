import Ucentral.Lib.Effect
import Ucentral.Lib.Decimal
import Ucentral.Lib.Inet
import Ucentral.Lib.Merge
import Ucentral.Router.Fib
import Ucentral.Plat.Cfg
import Ucentral.Plat.Device
import Ucentral.Router.Apply
import Ucentral.Router.Walk
import Ucentral.Router.Heal
import Ucentral.Lib.Json
import Ucentral.Router.Restore
import Ucentral.Proto.Session
import Ucentral.Proto.Uuids
import Ucentral.Plat.Vlans
import Ucentral.Plat.Apply
import Ucentral.Lib.Parser
import Ucentral.Lib.JsonText
import Ucentral.Lib.JsonCut
import Ucentral.Lib.JsonRead
import Ucentral.Proto.CfgPorts
import Ucentral.Proto.CfgParse
import Ucentral.Proto.CfgChecks
import Ucentral.Proto.CfgSafety
import Ucentral.Proto.VlanIds
import Ucentral.Proto.Handle
import Ucentral.Proto.Receive
import Ucentral.Lib.Fifo
import Ucentral.Plat.Log
import Ucentral.Proto.Replies
import Ucentral.Lib.Triple
import Ucentral.Plat.Switch
import Ucentral.Plat.Dot1x
import Ucentral.Plat.Radius
import Ucentral.Plat.Stp
import Ucentral.Plat.Relay
import Ucentral.Plat.Frame
import Ucentral.Proto.Sections
import Ucentral.Proto.Speeds
import Ucentral.Plat.RelayApply
import Ucentral.Proto.RelayCfg
import Ucentral.Lib.Index
import Ucentral.Plat.PortCache
import Ucentral.Proto.PortIds
import Ucentral.Client.Txq
import Ucentral.Client.Outbox
import Ucentral.Client.Delivery
import Ucentral.Plat.Base64
import Ucentral.Proto.ScriptReply
import Ucentral.Client.Enroll
import Ucentral.Plat.ScriptLock
import Ucentral.Client.JsonParser
import Ucentral.Plat.Rtty
import Ucentral.Proto.PortList
import Ucentral.Client.JsonFeed
import Ucentral.Router.DiffLoop
import Ucentral.Proto.SelectPorts
import Ucentral.Proto.Selection
import Ucentral.Proto.SelectOrder
import Ucentral.Proto.EthernetCfg
import Ucentral.Proto.Narrowing
import Ucentral.Proto.MetricsCfg
import Ucentral.Plat.RelayInit
import Ucentral.Plat.Poe
import Ucentral.Plat.StpRead
import Ucentral.Plat.VlanMembers
import Ucentral.Plat.HostKeys
import Ucentral.Plat.PortRif
import Ucentral.Client.EnrollCa
import Ucentral.Plat.MetricsFile
import Ucentral.Plat.Periodic
import Ucentral.Proto.RoutePasses
import Ucentral.Proto.RouteKeys
import Ucentral.Proto.StpInstances
import Ucentral.Lib.ParserStates
import Ucentral.Proto.Isolation
import Ucentral.Lib.Cells
import Ucentral.Proto.Interfaces
import Ucentral.Plat.ScriptLines
import Ucentral.Plat.ScriptText
import Ucentral.Plat.ScriptTimeout
import Ucentral.Lib.CString
import Ucentral.Lib.Inet6
import Ucentral.Plat.LldpPeer
import Ucentral.Plat.YangPath
import Ucentral.Plat.AuthClients
import Ucentral.Plat.MacList
import Ucentral.Lib.Netlink
import Ucentral.Plat.IpList
import Ucentral.Plat.IpBatches
import Ucentral.Lib.Block
import Ucentral.Plat.Base64Bounds
import Ucentral.Lib.Loop
import Ucentral.Proto.BitmapLoop
import Ucentral.Plat.ScriptPtr
import Ucentral.Plat.IgmpBuf
import Ucentral.Plat.Gateways
import Ucentral.Lib.Groups
import Ucentral.Proto.MacTable
import Ucentral.Plat.StreamReader
import Ucentral.Plat.PollThread
import Ucentral.Plat.Events
import Ucentral.Proto.Events
import Ucentral.Lib.Monitor
import Ucentral.Lib.Yang
import Ucentral.Plat.Leaves
import Ucentral.Plat.ImgDl
import Ucentral.Proto.Upgrade
import Ucentral.Plat.LeafSwitch
import Ucentral.Plat.Reload
