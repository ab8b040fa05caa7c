import KarteOs.Syscall.Confinement
import KarteOs.X86.Progress
import KarteOs.X86.Protection
import KarteOs.Process.Placement
import KarteOs.Sched.Priority
import KarteOs.Riscv.Timer
import KarteOs.Driver.Dma
import KarteOs.Driver.VirtioBlk
import KarteOs.Driver.Files
import KarteOs.Syscall.PipeBlocking
import KarteOs.Syscall.AccessMode
import KarteOs.Syscall.SlotRecycling
import KarteOs.Syscall.Wait
import KarteOs.Syscall.ThreadGroup
import KarteOs.Driver.LockExclusion
import KarteOs.Driver.NetTransmit
import KarteOs.Driver.NetReceive
import KarteOs.Capauth
import KarteOs.Sync.Mutex
import KarteOs.Syscall.EpollEvents
import KarteOs.Syscall.EpollWait
import KarteOs.Syscall.EpollIsolation
import KarteOs.Process.FrameConservation
import KarteOs.Fabric.Failover
import KarteOs.Fabric.ToolTable
import KarteOs.Fabric.RemoteNodes
import KarteOs.Device.Firmware
import KarteOs.Device.Bridge
import KarteOs.Mm.Walkers
import KarteOs.Fabric.CallSupply
import KarteOs.Sched.FifoLevels
import KarteOs.Mm.VmaCapacity
import KarteOs.Syscall.ProtectionMap
import KarteOs.Driver.PipeStream
import KarteOs.Driver.RamBytes
import KarteOs.Driver.RamPaths
import KarteOs.Syscall.Getdents
import KarteOs.Syscall.PipeCreation
import KarteOs.Syscall.Fork
import KarteOs.KernelLog
import KarteOs.KvPool
import KarteOs.Llm
import KarteOs.Sed
import KarteOs.Mqtt
import KarteOs.Tokpipe
import KarteOs.Driver.NvmeQueue
import KarteOs.Driver.MountResolution
