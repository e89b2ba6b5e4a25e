import MixiPgw.Ctrl.Checksum
import MixiPgw.Ctrl.InnerWalks
import MixiPgw.Ctrl.PacketMemory
import MixiPgw.Ctrl.Proxy
import MixiPgw.Ctrl.ProxyDependence
import MixiPgw.Ctrl.ProxyStats
import MixiPgw.Ctrl.RouterAdvert
import MixiPgw.Ctrl.Subscribers
import MixiPgw.Data.Decapsulation
import MixiPgw.Data.OuterHeaders
import MixiPgw.Data.Ownership
import MixiPgw.Data.Policing
import MixiPgw.Data.Reception
import MixiPgw.Data.Spoofing
import MixiPgw.Data.TransferPasses
import MixiPgw.Data.Transmission
import MixiPgw.Data.UsageLog
import MixiPgw.Data.UsageTransfer
import MixiPgw.ErrorReplies
import MixiPgw.Table.Deletion
import MixiPgw.Table.Enumeration
import MixiPgw.Table.Interchange
import MixiPgw.Table.Interleaving
import MixiPgw.Table.Notices
import MixiPgw.Tools.AaaWalks
import MixiPgw.Tools.Apn
import MixiPgw.Tools.BfdHandshake
import MixiPgw.Tools.Decap
import MixiPgw.Tools.DiameterRecv
import MixiPgw.Tools.GtpcInterop
import MixiPgw.Tools.GxSessions
import MixiPgw.Tools.Radius
import MixiPgw.Tools.RadiusAttributes
import MixiPgw.Tools.RadiusBatch
import MixiPgw.UeKey
import MixiPgw.WarmUp
