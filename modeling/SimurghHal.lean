import SimurghHal.Lib.RadixTree
import SimurghHal.Lib.BoundedTable
import SimurghHal.Lib.OnDemand
import SimurghHal.Lib.Words
import SimurghHal.Lib.Simulation
import SimurghHal.Lib.Loop
import SimurghHal.Lib.Switching
import SimurghHal.Lib.SwitchCheck
import SimurghHal.Lib.Stack
import SimurghHal.Lib.ByteMemory
import SimurghHal.Lib.SavedFrame
import SimurghHal.Lib.Preempting
import SimurghHal.Lib.Clearing
import SimurghHal.Lib.Polling
import SimurghHal.Core.Error
import SimurghHal.Core.Memory
import SimurghHal.Core.Boot
import SimurghHal.Core.Image
import SimurghHal.Manifest.Raw
import SimurghHal.Manifest.Append
import SimurghHal.Manifest.Dynamic
import SimurghHal.Manifest.Conversion
import SimurghHal.Manifest.Build
import SimurghHal.Cpu.ContextSwitch
import SimurghHal.Cpu.Trampoline
import SimurghHal.Cpu.Nesting
import SimurghHal.Cpu.TrapEntry
import SimurghHal.Cpu.Threads
import SimurghHal.Cpu.Features
import SimurghHal.Cpu.BootEntry
import SimurghHal.Cpu.Descriptors
import SimurghHal.Paging.Tables
import SimurghHal.Paging.Invariant
import SimurghHal.Paging.Hardware
import SimurghHal.Paging.Formats
import SimurghHal.Paging.Refinement
import SimurghHal.Paging.Failure
import SimurghHal.Paging.Capacity
import SimurghHal.Paging.OutOfRange
import SimurghHal.Paging.LinkedTables
import SimurghHal.Paging.WriteXorExecute
import SimurghHal.Paging.Activation
import SimurghHal.Devices.Timer
import SimurghHal.Devices.TimerRange
import SimurghHal.Devices.Oneshot
import SimurghHal.Devices.Interrupt
import SimurghHal.Devices.Ipi
import SimurghHal.Devices.Dispatch
import SimurghHal.Devices.Registration
import SimurghHal.Devices.Distributor
import SimurghHal.Devices.Completion
import SimurghHal.Devices.Hart
import SimurghHal.Devices.LocalApic
import SimurghHal.Devices.ApicModes
import SimurghHal.Devices.Preemption
import SimurghHal.Devices.Direct
import SimurghHal.Devices.Token
import SimurghHal.Devices.Authority
import SimurghHal.Devices.MappedAddress
import SimurghHal.Devices.Compute
import SimurghHal.Devices.ComputeScan
import SimurghHal.Devices.BarSize
import SimurghHal.Devices.ComputeIdentity
import SimurghHal.Devices.Power
import SimurghHal.Devices.Thermal
import SimurghHal.DeviceTree.Walker
import SimurghHal.DeviceTree.Blob
import SimurghHal.DeviceTree.Trace
import SimurghHal.DeviceTree.Encode
import SimurghHal.DeviceTree.Discovery
import SimurghHal.DeviceTree.Complete
import SimurghHal.DeviceTree.Termination
import SimurghHal.Firmware.Acpi
import SimurghHal.Firmware.AcpiTables
import SimurghHal.Firmware.AcpiBounds
import SimurghHal.Firmware.UefiMap
import SimurghHal.Firmware.MapParsing
import SimurghHal.Firmware.Accounting
import SimurghHal.Kernel.Serial
import SimurghHal.Kernel.Report
import SimurghHal.Kernel.Handover
