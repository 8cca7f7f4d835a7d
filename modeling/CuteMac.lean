import CuteMac.Lib.Machine
import CuteMac.Scsi.Target
import CuteMac.Scsi.Ncr5380
import CuteMac.Scsi.Bus
import CuteMac.Scsi.Ncr5380.Transaction
import CuteMac.Scsi.Ncr5380.Steps
import CuteMac.Scsi.Ncr5380.DataOut
import CuteMac.Scsi.Ncr5380.Transfer
import CuteMac.Scsi.Ncr53c94
import CuteMac.Scsi.Ncr53c94.Coherence
import CuteMac.Scsi.Ncr53c94.Blocks
import CuteMac.Lib.Framing
import CuteMac.Floppy.Gcr
import CuteMac.Floppy.Geometry
import CuteMac.Floppy.Mfm
import CuteMac.Floppy.Container
import CuteMac.Floppy.Image
import CuteMac.Floppy.Drive
import CuteMac.Floppy.Scan
import CuteMac.Floppy.Invariant
import CuteMac.Floppy.DriveRange
import CuteMac.Floppy.DiskCopy
import CuteMac.Floppy.Session
import CuteMac.Floppy.MfmWrite
import CuteMac.Scsi.BlockDevice
import CuteMac.Scsi.CdRomDevice
import CuteMac.Scsi.Sense
import CuteMac.Scsi.BlockStore
import CuteMac.Scsi.MediaChange
import CuteMac.Lib.Stuffing
import CuteMac.Modem.Network
import CuteMac.Modem.Slip
import CuteMac.Modem.Telnet
import CuteMac.Lib.Crc
import CuteMac.Modem.Ppp
import CuteMac.Modem.Ipcp
import CuteMac.Scc.Receive
import CuteMac.Adb.Conservation
import CuteMac.Scsi.Ncr53c94.Select
import CuteMac.Scsi.SameCommand
import CuteMac.Floppy.MfmFraming
import CuteMac.Floppy.Tracks
import CuteMac.Floppy.MfmTrack
import CuteMac.Floppy.GcrTrack
import CuteMac.Floppy.MfmHead
import CuteMac.Lib.Countdown
import CuteMac.Via.Via6522
import CuteMac.Via.Slices
import CuteMac.Via.KeyboardPort
import CuteMac.Core.MachineScheduler
import CuteMac.MacPlus.Input
import CuteMac.MacPlus.MouseButton
import CuteMac.Network.Dp8390
import CuteMac.Network.ReceiveRing
import CuteMac.Network.UnreadFrames
import CuteMac.Rtc.MacRtc
import CuteMac.Rtc.ParameterRam
import CuteMac.Core.EmulationSession
import CuteMac.Core.FailedInsertion
import CuteMac.Cpu.Pmmu
import CuteMac.Lib.Pages
import CuteMac.Cpu.TranslationTables
import CuteMac.Cpu.TranslationCache
import CuteMac.Cpu.CrossPage
import CuteMac.Core.PhysicalMemoryMap
import CuteMac.MacIIcx.Memory
import CuteMac.MacIIcx.FastPath
import CuteMac.Storage.FloppyClassifier
import CuteMac.Storage.DiskImageManager
import CuteMac.Storage.CatalogAtomicity
import CuteMac.Cuda.CudaController
import CuteMac.Cuda.Packets
import CuteMac.Cuda.Counters
import CuteMac.Cuda.Transactions
import CuteMac.Video.AcceleratedVideoCard
import CuteMac.Video.Transfers
import CuteMac.Lib.WriteLog
import CuteMac.Lib.Overwrites
import CuteMac.Rom.RomPatcher
import CuteMac.NuBus.NuBusCard
import CuteMac.Video.MacintoshIIVideoCard
import CuteMac.Video.VideoFrame
import CuteMac.Video.AppleDisplayCard
import CuteMac.Lib.ByteLanes
import CuteMac.Video.CardMemory
import CuteMac.Video.DafbVideo
import CuteMac.Lib.Fallible
import CuteMac.Lib.SignedWord
import CuteMac.Video.FrameBounds
import CuteMac.Config.Configuration
import CuteMac.Config.SessionMedia
import CuteMac.Config.ProfileFile
import CuteMac.Config.RoundTrip
import CuteMac.Config.IntegerRange
import CuteMac.Cpu.DebugTranslate
import CuteMac.Floppy.RejectedWrite
import CuteMac.Modem.EchoReply
import CuteMac.Modem.HayesModem
import CuteMac.Scsi.CdAddressing
import CuteMac.Scsi.Ncr5380.PseudoDma
import CuteMac.Via.TimerRegisters
import CuteMac.Quadra700.Memory
import CuteMac.Core.ByteAccess
import CuteMac.Quadra700.Widths
import CuteMac.Fpu.M68kCpu
import CuteMac.Fpu.Operands
import CuteMac.Fpu.StateFrame
import CuteMac.Fpu.PackedDecimal
import CuteMac.Fpu.Instructions
import CuteMac.Fpu.ContextSwitch
import CuteMac.Fpu.Blocks
import CuteMac.Fpu.Refused
import CuteMac.Fpu.MoveMultiple
import CuteMac.Fpu.OneBlock
import CuteMac.Fpu.IntegerOperands
import CuteMac.Fpu.ExceptionStatus
import CuteMac.Fpu.ExtendedNumber
import CuteMac.Fpu.ExponentOperations
import CuteMac.Fpu.PackedText
import CuteMac.Fpu.PackedRounding
import CuteMac.Fpu.PackedStore
import CuteMac.Cpu.TransparentTranslation
import CuteMac.Audio.AppleSoundChip
import CuteMac.Audio.FifoQueue
import CuteMac.MacPlus.Audio
import CuteMac.Printer.ImageWriterII
import CuteMac.Core.EventDispatch
import CuteMac.Core.PageDirectory
import CuteMac.Cpu.HistoryBits040
import CuteMac.Cpu.HistoryBits
import CuteMac.Floppy.IwmController
import CuteMac.Lib.Recogniser
import CuteMac.Lib.Scaled
import CuteMac.Lib.Digits
import CuteMac.Lib.Chunks
import CuteMac.Debug.GdbStub
import CuteMac.Debug.PacketFraming
import CuteMac.Video.DafbRaster
import CuteMac.Video.CuteMacVideoCard
import CuteMac.Video.AcceptedCards
import CuteMac.Video.BlankingSlices
import CuteMac.Video.PaletteEndpoints
import CuteMac.M68k.Returns
import CuteMac.M68k.Comparisons
import CuteMac.M68k.Decimal
import CuteMac.Fpu.Addition
import CuteMac.Fpu.OperationRuns
import CuteMac.Fpu.IntegerRounding
import CuteMac.M68k.RegisterChains
import CuteMac.M68k.MoveMultiple
