import SimurghHal.Devices.Power
import SimurghHal.Devices.Timer
import SimurghHal.Manifest.Append

/-!
# Building the manifest (`built_hardware_manifest` in `hal-*/src/memory.rs`)

The three crates fold what their subsystems report into one manifest, in the same
order. The subsystems that only report values here are records of these values.
-/

namespace SimurghHal.Manifest

open Compute Power

/-- What `MemoryBootstrap` reports. -/
structure MemoryReport where
  physicalMemoryMap : List MemoryRegionRaw
  iommuPresent : Bool

/-- What `CpuAbstraction` reports. -/
structure CpuReport where
  coreCount : UInt64
  featureFlags : UInt64

/-- `CpuFeatureFlags::IOMMU_CAPABLE`. -/
def iommuCapable : UInt64 := (1 : UInt64) <<< 8

/-- `mark_iommu_capable`. -/
def CpuReport.markIommuCapable (cpu : CpuReport) (present : Bool) : CpuReport :=
  { cpu with
    featureFlags :=
      if present then cpu.featureFlags ||| iommuCapable
      else cpu.featureFlags &&& ~~~iommuCapable }

/-- What `InterruptController` reports. -/
structure InterruptReport where
  detectedKind : InterruptControllerKindRaw
  primaryBase : UInt64
  secondaryBase : Option UInt64
  irqLineCount : UInt32
  ipiTargetCoreCount : UInt32

/-- `built_hardware_manifest`. Refused pushes are ignored, as in the source. -/
def builtHardwareManifest {arch : Arch} (memory : MemoryReport) (compute : ComputeDiscovery)
    (power : PowerThermalImpl) (cpu : CpuReport) (interrupt : InterruptReport)
    (timer : Timer arch) : HardwareManifestRaw :=
  let manifest : HardwareManifestRaw :=
    { HardwareManifestRaw.zeroed with
      cpuCoreCount := cpu.coreCount.toUInt32
      cpuFeatureFlags := cpu.featureFlags }
  let manifest := memory.physicalMemoryMap.foldl
    (fun m region => (m.pushMemoryRegion region).2) manifest
  let manifest := compute.enumerateComputeDevices.foldl
    (fun m device => (m.pushComputeDevice device).2) manifest
  let manifest := power.enumeratePowerDomains.foldl
    (fun m domain => (m.pushPowerDomain domain).2) manifest
  { manifest with
    interruptController :=
      { kind := interrupt.detectedKind
        primaryBase := interrupt.primaryBase
        hasSecondary := interrupt.secondaryBase.isSome
        secondaryBase := interrupt.secondaryBase.getD 0
        irqLineCount := interrupt.irqLineCount
        ipiTargetCoreCount := interrupt.ipiTargetCoreCount }
    timer :=
      { kind := timer.detectedKind
        frequencyHz := timer.frequencyHz
        supportsTickless := timer.supportsTickless }
    cpuFeatureFlags := (cpu.markIommuCapable memory.iommuPresent).featureFlags }

/-- The pushes made, in order. -/
def buildOps (regions : List MemoryRegionRaw) (devices : List ComputeDeviceRaw)
    (domains : List PowerDomainRaw) : List PushOp :=
  regions.map .memoryRegion ++ devices.map .computeDevice ++ domains.map .powerDomain

theorem filterMap_buildOps (regions : List MemoryRegionRaw) (devices : List ComputeDeviceRaw)
    (domains : List PowerDomainRaw) :
    (buildOps regions devices domains).filterMap PushOp.memoryRegion? = regions ∧
      (buildOps regions devices domains).filterMap PushOp.computeDevice? = devices ∧
      (buildOps regions devices domains).filterMap PushOp.powerDomain? = domains := by
  refine ⟨?_, ?_, ?_⟩
  · simp [buildOps, List.filterMap_append, List.filterMap_map, Function.comp_def,
      PushOp.memoryRegion?]
  · simp [buildOps, List.filterMap_append, List.filterMap_map, Function.comp_def,
      PushOp.computeDevice?]
  · simp [buildOps, List.filterMap_append, List.filterMap_map, Function.comp_def,
      PushOp.powerDomain?]

/-- The tables of the built manifest: what the subsystems enumerate, up to the capacities
and with the devices numbered. -/
theorem builtHardwareManifest_tables {arch : Arch} (memory : MemoryReport)
    (compute : ComputeDiscovery) (power : PowerThermalImpl) (cpu : CpuReport)
    (interrupt : InterruptReport) (timer : Timer arch) :
    let m := builtHardwareManifest memory compute power cpu interrupt timer
    m.memoryRegionsSlice = some (memory.physicalMemoryMap.take maxMemoryRegions) ∧
      m.computeDevicesSlice = some (numbered compute.enumerateComputeDevices) ∧
      m.powerDomainsSlice = some power.enumeratePowerDomains := by
  have hstart : HoldsFirst
      { HardwareManifestRaw.zeroed with
        cpuCoreCount := cpu.coreCount.toUInt32
        cpuFeatureFlags := cpu.featureFlags } [] :=
    ⟨BoundedTable.slice_zero _, BoundedTable.slice_zero _, BoundedTable.slice_zero _⟩
  have hpushed := hstart.pushAll (buildOps memory.physicalMemoryMap
    compute.enumerateComputeDevices power.enumeratePowerDomains)
  obtain ⟨hregions, hdevices, hdomains⟩ := hpushed
  obtain ⟨hr, hd, hp⟩ := filterMap_buildOps memory.physicalMemoryMap
    compute.enumerateComputeDevices power.enumeratePowerDomains
  rw [List.nil_append, hr] at hregions
  rw [List.nil_append, hd, List.take_of_length_le] at hdevices
  rw [List.nil_append, hp, List.take_of_length_le] at hdomains
  simp only [pushAll, buildOps, List.foldl_append, List.foldl_map] at hregions hdevices hdomains
  · exact ⟨hregions, hdevices, hdomains⟩
  · exact (BoundedTable.Buffer.length_entries _).le.trans power.domains.count_le
  · rw [length_numbered]
    exact (BoundedTable.Buffer.length_entries _).le.trans compute.devices.count_le

/-- The tables of a manifest refer to each other and to the discovered devices by
position. -/
structure CrossReferenced (compute : ComputeDiscovery) (devices : List ComputeDeviceRaw)
    (domains : List PowerDomainRaw) : Prop where
  length_devices : devices.length = compute.enumerateComputeDevices.length
  deviceIndex : ∀ (k : ℕ) (hk : k < devices.length), devices[k].deviceIndex.toNat = k
  deviceByIndex : ∀ k : UInt32, compute.deviceByIndex k = devices[k.toNat]?
  domainId : ∀ (i : ℕ) (hi : i < domains.length), domains[i].domainId.toNat = i
  package : domains[0]?.map PowerDomainRaw.associatedComputeDeviceIndex =
    some PowerDomainRaw.noAssociatedDevice
  associated : ∀ k : ℕ, k + 1 < 16 → k < devices.length →
    domains[k + 1]?.map (fun d => d.associatedComputeDeviceIndex.toNat) = some k
  distinct : ∀ (i j : ℕ) (hi : i + 1 < domains.length) (hj : j + 1 < domains.length), i ≠ j →
    domains[i + 1].associatedComputeDeviceIndex ≠ domains[j + 1].associatedComputeDeviceIndex

/-- Only index 0 is ever found. -/
theorem deviceByIndex_new (arch : Arch) (ecamBase : UInt64) (space : ConfigSpace) (k : UInt32) :
    (ComputeDiscovery.new arch ecamBase space).deviceByIndex k =
      if k = 0 then (ComputeDiscovery.new arch ecamBase space).enumerateComputeDevices.head?
      else none := by
  rw [ComputeDiscovery.deviceByIndex]
  have hzero : ∀ d ∈ (ComputeDiscovery.new arch ecamBase space).enumerateComputeDevices,
      d.deviceIndex = 0 := fun _ hd => (unnamed_of_mem_enumerate hd).1
  generalize (ComputeDiscovery.new arch ecamBase space).enumerateComputeDevices = devices at hzero ⊢
  split
  · next hk =>
    subst hk
    cases devices with
    | nil => rfl
    | cons d devices => simp [hzero d List.mem_cons_self]
  · next hk =>
    rw [List.find?_eq_none]
    intro d hd
    rw [hzero d hd, beq_iff_eq]
    exact fun h => hk h.symm

section CrossReferences

variable {arch : Arch} {ecamBase : UInt64} {space : ConfigSpace} {rdmsr : UInt32 → UInt64}

theorem length_enumerate_new :
    (ComputeDiscovery.new arch ecamBase space).enumerateComputeDevices.length =
      min maxComputeDevices (discoverable (mechanism arch ecamBase) space).length := by
  rw [enumerateComputeDevices_new, List.length_take]

/-- With two devices the second one cannot be looked up. -/
theorem not_crossReferenced {devices : List ComputeDeviceRaw} {domains : List PowerDomainRaw}
    (hmany : 1 < (discoverable (mechanism arch ecamBase) space).length) :
    ¬ CrossReferenced (ComputeDiscovery.new arch ecamBase space) devices domains := by
  intro h
  have hlen : 1 < devices.length := by
    rw [h.length_devices, length_enumerate_new]
    exact lt_min (by decide) hmany
  have hfind := h.deviceByIndex 1
  rw [deviceByIndex_new, if_neg (by decide)] at hfind
  have hnone : devices.length ≤ 1 := List.getElem?_eq_none_iff.mp hfind.symm
  omega

/-- Without a device there is only the package domain. -/
theorem crossReferenced_nil {compute : ComputeDiscovery} (dvfs thermal : Bool)
    (hdevices : compute.enumerateComputeDevices = []) :
    CrossReferenced compute [] (domainList dvfs thermal []) where
  length_devices := by rw [hdevices]
  deviceIndex k hk := absurd hk (Nat.not_lt_zero k)
  deviceByIndex k := by rw [ComputeDiscovery.deviceByIndex, hdevices]; rfl
  domainId := domainId_domainList dvfs thermal (by decide)
  package := rfl
  associated k _ hk := absurd hk (Nat.not_lt_zero k)
  distinct i _ hi := absurd hi (by simp)

/-- The index a single device is stored with is the one it was discovered with. -/
theorem crossReferenced_singleton {compute : ComputeDiscovery} {d : ComputeDeviceRaw}
    (dvfs thermal : Bool) (hdevices : compute.enumerateComputeDevices = [d])
    (hzero : d.deviceIndex = 0) :
    CrossReferenced compute (numbered [d]) (domainList dvfs thermal [d]) := by
  have hnumbered : numbered [d] = [d] := by
    cases d
    cases hzero
    rfl
  rw [hnumbered]
  refine ⟨by rw [hdevices], ?_, ?_, ?_, rfl, ?_, ?_⟩
  · intro k hk
    obtain rfl : k = 0 := Nat.lt_one_iff.mp hk
    rw [List.getElem_cons_zero, hzero]
    rfl
  · intro k
    rw [ComputeDiscovery.deviceByIndex, hdevices, List.find?_singleton, hzero]
    by_cases hk : k = 0
    · subst hk
      rfl
    · have hpos : 1 ≤ k.toNat := by
        by_contra hlt
        exact hk (UInt32.toNat_inj.mp (by simpa using hlt))
      rw [List.getElem?_eq_none (by simpa using hpos), if_neg]
      simpa using fun h => hk h.symm
  · exact domainId_domainList dvfs thermal (show 1 < maxPowerDomains by decide)
  · intro k _ hk
    obtain rfl : k = 0 := Nat.lt_one_iff.mp hk
    change some d.deviceIndex.toNat = some 0
    rw [hzero]
    rfl
  · intro i j hi hj hne
    simp only [length_domainList, List.length_singleton] at hi hj
    omega

/-- The references in the built manifest are consistent exactly when the configuration
space holds at most one recognised function: discovery leaves every device index at 0
and only the copies in the manifest are numbered. -/
theorem builtHardwareManifest_crossReferenced_iff (arch : Arch) (ecamBase : UInt64)
    (space : ConfigSpace) (rdmsr : UInt32 → UInt64) (memory : MemoryReport) (cpu : CpuReport)
    (interrupt : InterruptReport) (timer : Timer arch) :
    let compute := ComputeDiscovery.new arch ecamBase space
    let power := PowerThermalImpl.new arch rdmsr compute
    let m := builtHardwareManifest memory compute power cpu interrupt timer
    (∃ devices domains, m.computeDevicesSlice = some devices ∧ m.powerDomainsSlice = some domains ∧
        CrossReferenced compute devices domains) ↔
      (discoverable (mechanism arch ecamBase) space).length ≤ 1 := by
  intro compute power m
  constructor
  · rintro ⟨devices, domains, -, -, h⟩
    by_contra hmany
    exact not_crossReferenced (not_le.mp hmany) h
  · intro hle
    obtain ⟨-, hdevices, hdomains⟩ :=
      builtHardwareManifest_tables memory compute power cpu interrupt timer
    refine ⟨_, _, hdevices, hdomains, ?_⟩
    have hlen : compute.enumerateComputeDevices.length ≤ 1 := by
      rw [length_enumerate_new]
      exact (min_le_right _ _).trans hle
    rw [enumeratePowerDomains_new, List.take_of_length_le (hlen.trans (by decide))]
    have hzero : ∀ d ∈ compute.enumerateComputeDevices, d.deviceIndex = 0 :=
      fun _ hd => (unnamed_of_mem_enumerate hd).1
    rcases hfound : compute.enumerateComputeDevices with _ | ⟨d, _ | ⟨d', rest⟩⟩
    · exact crossReferenced_nil _ _ hfound
    · rw [hfound] at hzero
      exact crossReferenced_singleton _ _ hfound (hzero d List.mem_cons_self)
    · rw [hfound] at hlen
      simp at hlen

end CrossReferences

/-- Two display controllers in the first two slots of bus 0. -/
def twoGpus : ConfigSpace := fun address =>
  if address.bus = 0 ∧ address.device < 2 ∧ address.function = 0 then
    if address.offset = 0x00 then ⟨0x123410DE, 0⟩
    else if address.offset = 0x08 then ⟨0x03000000, 0⟩
    else ⟨0, 0⟩
  else ⟨0xFFFFFFFF, 0⟩

/-- With two display controllers the references are not consistent. -/
theorem builtHardwareManifest_twoGpus :
    let compute := ComputeDiscovery.new .x86_64 0 twoGpus
    let power := PowerThermalImpl.new .x86_64 (fun _ => 0) compute
    let timer : Timer .x86_64 := (⟨1000000000, true, false⟩ : X86_64.Timer)
    let m := builtHardwareManifest ⟨[], false⟩ compute power ⟨1, 0⟩
      ⟨.apicXapic, 0xFEE00000, none, 24, 1⟩ timer
    ¬ ∃ devices domains, m.computeDevicesSlice = some devices ∧
      m.powerDomainsSlice = some domains ∧ CrossReferenced compute devices domains := by
  rintro compute power timer m ⟨devices, domains, -, -, h⟩
  have hmany : 1 < (discoverable .ports twoGpus).length := by
    refine lt_of_lt_of_le ?_ (length_firstBus_le .ports twoGpus)
    decide +kernel
  exact @not_crossReferenced .x86_64 0 twoGpus devices domains hmany h

end SimurghHal.Manifest
