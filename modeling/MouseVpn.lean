import MouseVpn.Protocol.Framing
import MouseVpn.Server.Endpoints
import MouseVpn.Server.HandshakeCache
import MouseVpn.Server.DownlinkBatch
import MouseVpn.Windows.CapturePartition
import MouseVpn.Windows.Filter
import MouseVpn.Windows.BlockedPrefixes
import MouseVpn.Windows.CrashSafety
import MouseVpn.AdminApi.ReportRace
import MouseVpn.AdminApi.ReportLaws
import MouseVpn.Linux.StaleRequest
import MouseVpn.Server.RateNewcomers
import MouseVpn.Server.State
import MouseVpn.Server.FirstStart
import MouseVpn.Windows.SplitTunnelWedge
import MouseVpn.Windows.FlowWatcher
import MouseVpn.Client.SessionSwitch
import MouseVpn.Client.ForgedResponses
import MouseVpn.Client.Backoff
import MouseVpn.Gui.Settings
import MouseVpn.Gui.HelperStatus
import MouseVpn.Gui.HelperLog
import MouseVpn.Linux.DnsWire
import MouseVpn.Linux.RouteRecords
import MouseVpn.Linux.Reliability
import MouseVpn.Windows.RouteRepair
import MouseVpn.Windows.LossDiagnostics
import MouseVpn.Android.TunDescriptor
import MouseVpn.Android.TunnelMtu
import MouseVpn.Android.PublishedHandle
import MouseVpn.Apple.PacketBatch
import MouseVpn.Windows.RestartLoop
import MouseVpn.Server.TrafficOwnership
import MouseVpn.Server.UplinkDelivery
