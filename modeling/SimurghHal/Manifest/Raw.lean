import SimurghHal.Lib.BoundedTable

/-!
# The raw hardware manifest (`hal-manifest/src/raw.rs`)

The fixed-size structures handed from the hardware layer to the root task. The
explicit padding fields of the source carry no information and are left out.
Accessors that slice an array return `none` where the source would panic on an
out-of-range slice.
-/

namespace SimurghHal.Manifest

def maxMemoryRegions : ℕ := 64
def maxComputeDevices : ℕ := 32
def maxPowerDomains : ℕ := 16
def shortNameMaxLen : ℕ := 32

inductive MemoryRegionKindRaw where
  | usable
  | reserved
  | acpiReclaimable
  | acpiNvs
  | mmio
  | kernelImage
  | bootReserved
  deriving DecidableEq, Repr

structure MemoryRegionRaw where
  baseAddr : UInt64
  lengthBytes : UInt64
  kind : MemoryRegionKindRaw
  behindIommu : Bool
  deriving DecidableEq, Repr

def MemoryRegionRaw.zero : MemoryRegionRaw :=
  ⟨0, 0, .reserved, false⟩

inductive ComputeKindRaw where
  | cpu
  | gpu
  | npu
  | tpu
  | fpga
  deriving DecidableEq, Repr

structure VendorIdRaw where
  id : UInt32
  deriving DecidableEq, Repr

structure ComputeDeviceRaw where
  kind : ComputeKindRaw
  vendor : VendorIdRaw
  hasDedicatedMemory : Bool
  dedicatedMemoryBytes : UInt64
  unifiedMemoryCapable : Bool
  bandwidthToCpuMbps : UInt64
  shortName : Vector UInt8 shortNameMaxLen
  shortNameLen : UInt8
  deviceIndex : UInt32
  deriving DecidableEq, Repr

def ComputeDeviceRaw.zero : ComputeDeviceRaw where
  kind := .cpu
  vendor := ⟨0⟩
  hasDedicatedMemory := false
  dedicatedMemoryBytes := 0
  unifiedMemoryCapable := false
  bandwidthToCpuMbps := 0
  shortName := Vector.replicate _ 0
  shortNameLen := 0
  deviceIndex := 0

inductive InterruptControllerKindRaw where
  | apicXapic
  | apicX2apic
  | gicv3
  | gicv4
  | plicClic
  deriving DecidableEq, Repr

structure InterruptControllerInfoRaw where
  kind : InterruptControllerKindRaw
  primaryBase : UInt64
  hasSecondary : Bool
  secondaryBase : UInt64
  irqLineCount : UInt32
  ipiTargetCoreCount : UInt32
  deriving DecidableEq, Repr

def InterruptControllerInfoRaw.zero : InterruptControllerInfoRaw :=
  ⟨.apicXapic, 0, false, 0, 0, 0⟩

inductive TimerKindRaw where
  | tsc
  | hpet
  | armGenericTimer
  | riscvSbiTimer
  deriving DecidableEq, Repr

structure TimerInfoRaw where
  kind : TimerKindRaw
  frequencyHz : UInt64
  supportsTickless : Bool
  deriving DecidableEq, Repr

def TimerInfoRaw.zero : TimerInfoRaw :=
  ⟨.tsc, 0, false⟩

structure PowerDomainRaw where
  domainId : UInt32
  associatedComputeDeviceIndex : UInt32
  supportsDvfs : Bool
  hasThermalSensor : Bool
  deriving DecidableEq, Repr

/-- Sentinel for a domain that belongs to no single compute device (`u32::MAX`). -/
def PowerDomainRaw.noAssociatedDevice : UInt32 := 0xFFFFFFFF

def PowerDomainRaw.zero : PowerDomainRaw :=
  ⟨0, PowerDomainRaw.noAssociatedDevice, false, false⟩

structure HardwareManifestRaw where
  cpuCoreCount : UInt32
  cpuFeatureFlags : UInt64
  memoryRegionCount : UInt32
  memoryRegions : Vector MemoryRegionRaw maxMemoryRegions
  computeDeviceCount : UInt32
  computeDevices : Vector ComputeDeviceRaw maxComputeDevices
  interruptController : InterruptControllerInfoRaw
  timer : TimerInfoRaw
  powerDomainCount : UInt32
  powerDomains : Vector PowerDomainRaw maxPowerDomains
  deriving DecidableEq

namespace HardwareManifestRaw

/-- `HardwareManifestRaw::zeroed`. -/
def zeroed : HardwareManifestRaw where
  cpuCoreCount := 0
  cpuFeatureFlags := 0
  memoryRegionCount := 0
  memoryRegions := Vector.replicate _ .zero
  computeDeviceCount := 0
  computeDevices := Vector.replicate _ .zero
  interruptController := .zero
  timer := .zero
  powerDomainCount := 0
  powerDomains := Vector.replicate _ .zero

/-- `memory_regions()`. -/
def memoryRegionsSlice (m : HardwareManifestRaw) : Option (List MemoryRegionRaw) :=
  BoundedTable.slice m.memoryRegions m.memoryRegionCount

/-- `compute_devices()`. -/
def computeDevicesSlice (m : HardwareManifestRaw) : Option (List ComputeDeviceRaw) :=
  BoundedTable.slice m.computeDevices m.computeDeviceCount

/-- `power_domains()`. -/
def powerDomainsSlice (m : HardwareManifestRaw) : Option (List PowerDomainRaw) :=
  BoundedTable.slice m.powerDomains m.powerDomainCount

/-- `push_memory_region`: the result and the manifest afterwards. -/
def pushMemoryRegion (m : HardwareManifestRaw) (region : MemoryRegionRaw) :
    Except Unit Unit × HardwareManifestRaw :=
  match BoundedTable.push m.memoryRegions m.memoryRegionCount region with
  | none => (.error (), m)
  | some (v, c) => (.ok (), { m with memoryRegions := v, memoryRegionCount := c })

/-- `push_compute_device`: the device's own index is overwritten by its slot. -/
def pushComputeDevice (m : HardwareManifestRaw) (device : ComputeDeviceRaw) :
    Except Unit Unit × HardwareManifestRaw :=
  match BoundedTable.push m.computeDevices m.computeDeviceCount
      { device with deviceIndex := m.computeDeviceCount } with
  | none => (.error (), m)
  | some (v, c) => (.ok (), { m with computeDevices := v, computeDeviceCount := c })

/-- `push_power_domain`. -/
def pushPowerDomain (m : HardwareManifestRaw) (domain : PowerDomainRaw) :
    Except Unit Unit × HardwareManifestRaw :=
  match BoundedTable.push m.powerDomains m.powerDomainCount domain with
  | none => (.error (), m)
  | some (v, c) => (.ok (), { m with powerDomains := v, powerDomainCount := c })

end HardwareManifestRaw

end SimurghHal.Manifest
