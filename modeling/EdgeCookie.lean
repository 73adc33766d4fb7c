import EdgeCookie.Bytes
import EdgeCookie.Headers
import EdgeCookie.SipHash
import EdgeCookie.Haraka
import EdgeCookie.Bloom
import EdgeCookie.Csum
import EdgeCookie.Timestamp
import EdgeCookie.SwitchAgent
import EdgeCookie.BoundedMap
import EdgeCookie.Server
import EdgeCookie.ServerIn
import EdgeCookie.ServerEn
import EdgeCookie.HybridCookie
import EdgeCookie.Runs
import EdgeCookie.ServerRun
import EdgeCookie.AgentChecks
import EdgeCookie.CookieRun
import EdgeCookie.CopyBack
import EdgeCookie.Handshake
import EdgeCookie.LostUpdate
import EdgeCookie.SynCookie
import EdgeCookie.Translation
import EdgeCookie.AckFilter
import EdgeCookie.CreateGate
import EdgeCookie.KeyChange
import EdgeCookie.System
import EdgeCookie.EntryKinds
import EdgeCookie.CookieCount
import EdgeCookie.Link
import EdgeCookie.KeyTables
import EdgeCookie.Reconnect
import EdgeCookie.XskMap
import EdgeCookie.Fifo
import EdgeCookie.Batch
import EdgeCookie.Xsknf
import EdgeCookie.RingMoves
import EdgeCookie.FrameRun
import EdgeCookie.BatchCounts
import EdgeCookie.OneInterface
import EdgeCookie.WaitLoop
import EdgeCookie.ParseArgs
import EdgeCookie.OptionList
import EdgeCookie.OnesSum
import EdgeCookie.Checksum
import EdgeCookie.CsumLaws
import EdgeCookie.Normalise
import EdgeCookie.SecondSyn
import EdgeCookie.OneReset
import EdgeCookie.ForeignFrames
import EdgeCookie.OutboundCookie
import EdgeCookie.ClientAgent
import EdgeCookie.FastPath
import EdgeCookie.ServerSums
import EdgeCookie.FinalAck
import EdgeCookie.ResetFrame
import EdgeCookie.SynackFrame
import EdgeCookie.SmartAgent
import EdgeCookie.SmartServer
import EdgeCookie.SmartChecks
import EdgeCookie.CheckedFlows
import EdgeCookie.SmartCookie
import EdgeCookie.SmartTag
import EdgeCookie.SmartSyn
import EdgeCookie.SmartEcho
import EdgeCookie.Confirmation
import EdgeCookie.Chain
import EdgeCookie.Khashmap
import EdgeCookie.KhashmapMap
import EdgeCookie.KhashmapRun
import EdgeCookie.Access
import EdgeCookie.OptionReads
import EdgeCookie.FrameOwner
import EdgeCookie.XskSockets
import EdgeCookie.PacketOrder
import EdgeCookie.Flood
import EdgeCookie.Isolation
import EdgeCookie.SeedChanges
import EdgeCookie.KhashmapLockFree
import EdgeCookie.SmartNumbers
