import VitaGdb.Lib.Runs
import VitaGdb.Lib.RankedLocks
import VitaGdb.Lib.ByteMem
import VitaGdb.Lib.SlotTable
import VitaGdb.Lib.UndoTable
import VitaGdb.Lib.KeyedSlots
import VitaGdb.Lib.FlaggedSlots
import VitaGdb.Lib.HandleTable
import VitaGdb.Lib.BoundedFifo
import VitaGdb.Lib.ArmArch
import VitaGdb.Lib.RecordBytes
import VitaGdb.Lib.Windows
import VitaGdb.Lib.Xml
import VitaGdb.Lib.Numerals
import VitaGdb.Kernel.Basic
import VitaGdb.Kernel.Mpsc
import VitaGdb.Kernel.MpscSteps
import VitaGdb.Kernel.MpscRuns
import VitaGdb.Kernel.Calls
import VitaGdb.Gdb.Armv7
import VitaGdb.Gdb.Sessions
import VitaGdb.Gdb.SessionSpecs
import VitaGdb.Gdb.SwPatches
import VitaGdb.Gdb.PlantRace
import VitaGdb.Gdb.WatchRegisters
import VitaGdb.Gdb.MemoryWrites
import VitaGdb.Gdb.Pool
import VitaGdb.Gdb.Handlers
import VitaGdb.Gdb.Recognise
import VitaGdb.Gdb.Target
import VitaGdb.Gdb.EventLoop
import VitaGdb.Gdb.TcpConn
import VitaGdb.Gdb.TcpWrite
import VitaGdb.Gdb.ConnPool
import VitaGdb.Gdb.Threads
import VitaGdb.Gdb.CallbackRuns
import VitaGdb.Gdb.WakeUps
import VitaGdb.Gdb.Delivery
import VitaGdb.Gdb.Launch
import VitaGdb.Gdb.Reuse
import VitaGdb.Gdb.Exclusive
import VitaGdb.ArmNextPc.Insn
import VitaGdb.ArmNextPc.NextPc
import VitaGdb.ArmNextPc.ItBlock
import VitaGdb.ArmNextPc.Covariance
import VitaGdb.ArmNextPc.AluWrites
import VitaGdb.ArmNextPc.Shapes
import VitaGdb.ArmNextPc.DataReads
import VitaGdb.ArmNextPc.Branches
import VitaGdb.Gdb.Resume
import VitaGdb.Gdb.RegisterAccess
import VitaGdb.Gdb.RegisterWrites
import VitaGdb.Gdb.System
import VitaGdb.Gdb.ResumeActions
import VitaGdb.Gdb.Stepping
import VitaGdb.Gdb.Stops
import VitaGdb.Kernel.UserText
import VitaGdb.Kernel.StreamWriter
import VitaGdb.Kernel.ArgvWriter
import VitaGdb.Gdb.CpuState
import VitaGdb.Gdb.SwFailures
import VitaGdb.Gdb.ResumeStep
import VitaGdb.Gdb.WatchHits
import VitaGdb.Gdb.BreakRegisters
import VitaGdb.Gdb.HwReplies
import VitaGdb.Gdb.Attaching
import VitaGdb.Gdb.ObjectReads
import VitaGdb.Gdb.LibraryList
import VitaGdb.Gdb.LaunchPath
import VitaGdb.Gdb.Halting
import VitaGdb.ArmNextPc.Footprint
import VitaGdb.Gdb.BrokenConn
import VitaGdb.Gdb.RingLength
import VitaGdb.Gdb.SlotKeys
import VitaGdb.Kernel.Physical
import VitaGdb.Gdb.Locks
import VitaGdb.Gdb.Server
import VitaGdb.Gdb.EventFlags
import VitaGdb.Gdb.MonitorText
import VitaGdb.Gdb.Monitor
