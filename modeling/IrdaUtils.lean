import IrdaUtils.Lib.ByteOrder
import IrdaUtils.Lib.Memory
import IrdaUtils.Lib.Runs
import IrdaUtils.Spec.NetBuf
import IrdaUtils.Spec.Capture
import IrdaUtils.Spec.Decoder
import IrdaUtils.Spec.Ircomm
import IrdaUtils.Spec.Obex
import IrdaUtils.Spec.Irlmp
import IrdaUtils.Spec.Irlap
import IrdaUtils.Spec.Irdadump
import IrdaUtils.Spec.Tracking
import IrdaUtils.Sanity.Upper
import IrdaUtils.Sanity.Tracking
import IrdaUtils.Sanity.Kept
import IrdaUtils.Sanity.Table
import IrdaUtils.Spec.Ledger
import IrdaUtils.Sanity.Ledger
import IrdaUtils.Proofs.Capture
import IrdaUtils.Proofs.NetBuf
import IrdaUtils.Sanity.Loop
import IrdaUtils.Proofs.FrameKept
import IrdaUtils.Proofs.Timestamps
import IrdaUtils.Proofs.Replay
import IrdaUtils.Proofs.Provenance
import IrdaUtils.Proofs.Connections
import IrdaUtils.Proofs.Links
import IrdaUtils.Spec.Fits
import IrdaUtils.Sanity.Twin
import IrdaUtils.Sanity.Rest
import IrdaUtils.Sanity.Side
import IrdaUtils.Sanity.SideLap
import IrdaUtils.Proofs.Mirror
import IrdaUtils.Proofs.OwnBytes
import IrdaUtils.Proofs.Answers
import IrdaUtils.Lib.Calls
import IrdaUtils.Spec.Irattach
import IrdaUtils.Proofs.TtyRestored
import IrdaUtils.Lib.Decimal
import IrdaUtils.Spec.Psion
import IrdaUtils.Proofs.PsionHeader
import IrdaUtils.Proofs.Transfer
import IrdaUtils.Spec.Irdaping
import IrdaUtils.Proofs.RoundTrip
import IrdaUtils.Spec.Irkbd
import IrdaUtils.Proofs.Watchdog
import IrdaUtils.Spec.Ircard
import IrdaUtils.Proofs.TransmitQueue
import IrdaUtils.Spec.IrcardLink
import IrdaUtils.Proofs.StaleLink
import IrdaUtils.Lib.PortIo
import IrdaUtils.Spec.Findchip
import IrdaUtils.Proofs.ConfigMode
import IrdaUtils.Lib.PrefixCode
import IrdaUtils.Spec.ObexWire
import IrdaUtils.Proofs.ObexFraming
import IrdaUtils.Proofs.ObexValues
import IrdaUtils.Lib.Tlv
import IrdaUtils.Lib.Stores
import IrdaUtils.Spec.ParamWire
import IrdaUtils.Spec.Writes
import IrdaUtils.Proofs.ConnCache
import IrdaUtils.Proofs.IrcommParams
import IrdaUtils.Proofs.QosParams
import IrdaUtils.Sanity.Line
import IrdaUtils.Proofs.TimeDiff
import IrdaUtils.Proofs.TextCopies
import IrdaUtils.Proofs.FrameWrites
import IrdaUtils.Lib.Masks
import IrdaUtils.Lib.PortDevice
import IrdaUtils.Proofs.Subframes
import IrdaUtils.Proofs.Injection
import IrdaUtils.Spec.ToshSmcinit
import IrdaUtils.Proofs.ToshRegisters
import IrdaUtils.Proofs.PortDecoding
import IrdaUtils.Spec.Smcinit
import IrdaUtils.Proofs.SmcinitStatus
import IrdaUtils.Proofs.SmcinitKeys
import IrdaUtils.Spec.Devlist
import IrdaUtils.Proofs.Devlist
import IrdaUtils.Proofs.Instances
import IrdaUtils.Proofs.FirstMatch
import IrdaUtils.Spec.Options
import IrdaUtils.Proofs.Options
import IrdaUtils.Spec.PsionMain
import IrdaUtils.Proofs.PsionMain
import IrdaUtils.Spec.Irnetd
import IrdaUtils.Proofs.Requests
import IrdaUtils.Proofs.PingSize
import IrdaUtils.Spec.ChipInfo
import IrdaUtils.Proofs.WinbondReport
import IrdaUtils.Spec.Gfindchip
import IrdaUtils.Proofs.ResultLabels
import IrdaUtils.Lib.Words
import IrdaUtils.Sanity.Header
import IrdaUtils.Proofs.HeaderFields
import IrdaUtils.Proofs.LossNotes
import IrdaUtils.Lib.Accesses
import IrdaUtils.Spec.Traced
import IrdaUtils.Proofs.ParamWalks
import IrdaUtils.Proofs.Narrowing
import IrdaUtils.Spec.Irdaspray
import IrdaUtils.Proofs.Spray
import IrdaUtils.Spec.Irsockets
import IrdaUtils.Proofs.TextTransfer
import IrdaUtils.Lib.ConfigKeys
import IrdaUtils.Spec.Nsc
import IrdaUtils.Proofs.FindchipRuns
import IrdaUtils.Proofs.NscReport
import IrdaUtils.Spec.DumpMain
import IrdaUtils.Proofs.Dumps
import IrdaUtils.Lib.Banked
import IrdaUtils.Spec.IrcardPorts
import IrdaUtils.Proofs.IrcardBanks
import IrdaUtils.Proofs.IrcardWire
import IrdaUtils.Proofs.IrcardRing
import IrdaUtils.Spec.Tosh2450
import IrdaUtils.Proofs.Tosh2450
import IrdaUtils.Lib.Arguments
import IrdaUtils.Lib.Columns
import IrdaUtils.Spec.Irda
import IrdaUtils.Proofs.IrdaCommand
import IrdaUtils.Proofs.IrdaRows
import IrdaUtils.Proofs.Tosh1800
