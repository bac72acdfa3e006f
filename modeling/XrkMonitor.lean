import XrkMonitor.SharedHash.InsertAfter
import XrkMonitor.SharedHash.RowSizes
import XrkMonitor.Attr.Set
import XrkMonitor.WarnAttr.ToDb
import XrkMonitor.WarnAttr.MinWarn
import XrkMonitor.StrAttr.Flush
import XrkMonitor.LogSearch.FileOrder
import XrkMonitor.LogSearch.Complete
import XrkMonitor.LogSearch.Tail
import XrkMonitor.LogWrite.Owner
import XrkMonitor.WarnQueue.HandOver
import XrkMonitor.Config.Machines
import XrkMonitor.Config.TestKeys
import XrkMonitor.Config.AttrTypes
import XrkMonitor.Config.ViewBind
import XrkMonitor.Config.WarnOrder
import XrkMonitor.ServerVmem.Reclaim
import XrkMonitor.AttrTree.Limit
import XrkMonitor.ServerRing.Fifo
import XrkMonitor.Packet.Dispatch
import XrkMonitor.Packet.TlvWalk
import XrkMonitor.Packet.ErrorAnswer
import XrkMonitor.MtLog.FreqLimit
import XrkMonitor.Attr.StrSend
import XrkMonitor.Attr.SpecBounds
import XrkMonitor.Sync.RespSafety
import XrkMonitor.Sync.CachedConfig
import XrkMonitor.Sync.CheckTimer
import XrkMonitor.ConfigFile.Update
import XrkMonitor.AttrDay.Safety
import XrkMonitor.Browser.RequestSize
import XrkMonitor.Browser.Requests
import XrkMonitor.Browser.FormBody
import XrkMonitor.LogSearch.Bmh
import XrkMonitor.ServerLog.LogSize
import XrkMonitor.WarnAttr.Alarm
import XrkMonitor.AttrDay.Summary
import XrkMonitor.AttrDay.ReportAttrs
import XrkMonitor.Config.ExcepAttr
import XrkMonitor.Config.ModuleOrder
import XrkMonitor.LogSpec.Attribution
import XrkMonitor.LogVmem.Runs
import XrkMonitor.IpInfo.Refresh
import XrkMonitor.LogRing.Abandoned
import XrkMonitor.LogBatch.TextEmission
import XrkMonitor.ServerLog.FreqCtrl
import XrkMonitor.LogRelay.Run
import XrkMonitor.Timer.OnTime
import XrkMonitor.Timer.Payload
import XrkMonitor.PluginReport.ConfigTime
import XrkMonitor.Packet.Counts
import XrkMonitor.Packet.Handshake
