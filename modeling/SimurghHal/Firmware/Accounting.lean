import SimurghHal.Firmware.UefiMap
import SimurghHal.Manifest.Build
import SimurghHal.Manifest.Dynamic

/-!
# Accounting of usable memory

The way of the page counts from the UEFI memory map through the raw manifest to
`total_usable_memory_bytes`. They are multiplied once for each descriptor and summed up at
the end, in 64-bit words both times.
-/

namespace SimurghHal.Firmware

open Manifest Manifest.Dynamic Compute Power

/-- The usable bytes in some descriptors. -/
def usableBytes (descriptors : List UefiMemoryDescriptor) : ℕ :=
  ((descriptors.filter fun d => classifyUefiType d.ty = .usable).map
    fun d => d.numberOfPages.toNat * 4096).sum

/-- The blob is accepted by `from_uefi_memory_map` of this architecture, which then reports
this. RISC-V has no UEFI memory map. -/
def Accepted (mem : Mem) (uefiMemoryMap : UInt64) (report : MemoryReport) : Arch → Prop
  | .x86_64 => ∃ memory, Loop.Settles
      (fun fuel => X86_64.Memory.fromUefiMemoryMap fuel mem uefiMemoryMap) memory ∧
        report = ⟨memory.physicalMemoryMap, memory.iommuPresent⟩
  | .arm64 => ∃ memory, Loop.Settles
      (fun fuel => Arm64.Memory.fromUefiMemoryMap fuel mem uefiMemoryMap) memory ∧
        report = ⟨memory.physicalMemoryMap, memory.iommuPresent⟩
  | .riscv64 => False

/-- The accounting is exact: no multiplication wraps, no addition does, and the total is
what the descriptors say. -/
structure ExactAccounting {Cap : Type} (descriptors : List UefiMemoryDescriptor)
    (manifest : HardwareManifest Cap) : Prop where
  products : ∀ d ∈ descriptors, (regionOf d).lengthBytes.toNat = d.numberOfPages.toNat * 4096
  additions : Words.SumsExactly manifest.usableLengths
  total : manifest.totalUsableMemoryBytes.toNat = usableBytes descriptors

section Accounting

variable {arch : Arch} {mem : Mem} {uefiMemoryMap : UInt64} {report : MemoryReport}

theorem Accepted.physicalMemoryMap_eq (h : Accepted mem uefiMemoryMap report arch) :
    report.physicalMemoryMap = specRegions mem uefiMemoryMap report.iommuPresent := by
  cases arch with
  | x86_64 =>
    obtain ⟨memory, ⟨enough, henough⟩, rfl⟩ := h
    exact X86_64.physicalMemoryMap_eq (henough enough le_rfl)
  | arm64 =>
    obtain ⟨memory, ⟨enough, henough⟩, rfl⟩ := h
    exact Arm64.physicalMemoryMap_eq (henough enough le_rfl)
  | riscv64 => exact h.elim

theorem length_firstDescriptors_le : (firstDescriptors mem uefiMemoryMap).length ≤ 64 := by
  rw [firstDescriptors, List.length_map, List.length_range]
  exact min_le_right _ _

/-- The built manifest can be converted, and the conversion keeps the regions. -/
theorem fromRaw_builtHardwareManifest (Cap : Type) (arch : Arch) (ecamBase : UInt64)
    (space : ConfigSpace) (report : MemoryReport) (power : PowerThermalImpl) (cpu : CpuReport)
    (interrupt : InterruptReport) (timer : Timer arch) :
    ∃ manifest, HardwareManifest.fromRaw Cap (builtHardwareManifest report
        (ComputeDiscovery.new arch ecamBase space) power cpu interrupt timer) = some manifest ∧
      manifest.memoryRegions =
        (report.physicalMemoryMap.take maxMemoryRegions).map MemoryRegion.fromRaw := by
  obtain ⟨hregions, hdevices, hdomains⟩ := builtHardwareManifest_tables report
    (ComputeDiscovery.new arch ecamBase space) power cpu interrupt timer
  generalize builtHardwareManifest report (ComputeDiscovery.new arch ecamBase space) power cpu
    interrupt timer = raw at hregions hdevices hdomains ⊢
  have hsome : (HardwareManifest.fromRaw Cap raw).isSome := by
    refine (HardwareManifest.fromRaw_isSome_iff Cap raw).mpr ⟨?_, ⟨_, hdevices, ?_⟩, ?_⟩
    · exact (BoundedTable.slice_isSome_iff _ _).mp (Option.isSome_of_eq_some hregions)
    · intro device hdevice
      obtain ⟨i, hi, rfl⟩ := List.mem_mapIdx.mp hdevice
      have hname := (unnamed_of_mem_enumerate (List.getElem_mem hi)).2
      show UInt8.toNat (ComputeDeviceRaw.shortNameLen _) ≤ 32
      rw [hname]
      decide
    · exact (BoundedTable.slice_isSome_iff _ _).mp (Option.isSome_of_eq_some hdomains)
  obtain ⟨manifest, hmanifest⟩ := Option.isSome_iff_exists.mp hsome
  obtain ⟨regions, hregions', hmap⟩ := HardwareManifest.memoryRegions_of_fromRaw hmanifest
  rw [hregions] at hregions'
  cases hregions'
  exact ⟨manifest, hmanifest, hmap⟩

/-- A page count whose product does not wrap. -/
theorem toNat_lengthBytes_eq_iff (d : UefiMemoryDescriptor) :
    (regionOf d).lengthBytes.toNat = d.numberOfPages.toNat * 4096 ↔
      d.numberOfPages.toNat < 2 ^ 52 := by
  rw [regionOf, UInt64.toNat_mul]
  simp only [pageSize, UInt64.reduceToNat]
  constructor
  · intro h
    have hlt := Nat.mod_lt (d.numberOfPages.toNat * 4096) (show 2 ^ 64 > 0 by decide)
    omega
  · intro h
    exact Nat.mod_eq_of_lt (by omega)

theorem kind_fromRaw_eq_usable_iff (kind : MemoryRegionKindRaw) :
    MemoryRegionKind.fromRaw kind = .usable ↔ kind = .usable := by
  cases kind <;> decide

/-- The lengths summed up are those of the usable descriptors. -/
theorem usableLengths_eq {Cap : Type} {manifest : HardwareManifest Cap} {iommuPresent : Bool}
    (h : manifest.memoryRegions =
      ((specRegions mem uefiMemoryMap iommuPresent).take maxMemoryRegions).map
        MemoryRegion.fromRaw) :
    manifest.usableLengths =
      ((firstDescriptors mem uefiMemoryMap).filter fun d => classifyUefiType d.ty = .usable).map
        fun d => (regionOf d).lengthBytes := by
  have hshort : (specRegions mem uefiMemoryMap iommuPresent).length ≤ maxMemoryRegions := by
    rw [specRegions, List.length_map]
    exact length_firstDescriptors_le
  rw [HardwareManifest.usableLengths, h, List.take_of_length_le hshort, specRegions,
    funext (specRegion_eq iommuPresent), List.map_map, List.filter_map, List.map_map]
  have hkind : ∀ d : UefiMemoryDescriptor, decide ((MemoryRegion.fromRaw
      { regionOf d with behindIommu := iommuPresent }).kind = .usable) =
        decide (classifyUefiType d.ty = .usable) :=
    fun d => decide_eq_decide.mpr (kind_fromRaw_eq_usable_iff _)
  exact congrArg (List.map _) (List.filter_congr fun d _ => hkind d)

variable (Cap : Type) (ecamBase : UInt64) (space : ConfigSpace) (power : PowerThermalImpl)
  (cpu : CpuReport) (interrupt : InterruptReport) (timer : Timer arch)

/-- The accounting is exact if and only if every descriptor recorded has fewer than `2 ^ 52`
pages, usable or not, and the usable ones have fewer than `2 ^ 64` bytes together. -/
theorem totalUsableMemoryBytes_exact_iff (haccepted : Accepted mem uefiMemoryMap report arch) :
    ∃ manifest, HardwareManifest.fromRaw Cap (builtHardwareManifest report
        (ComputeDiscovery.new arch ecamBase space) power cpu interrupt timer) = some manifest ∧
      (ExactAccounting (firstDescriptors mem uefiMemoryMap) manifest ↔
        (∀ d ∈ firstDescriptors mem uefiMemoryMap, d.numberOfPages.toNat < 2 ^ 52) ∧
          usableBytes (firstDescriptors mem uefiMemoryMap) < 2 ^ 64) := by
  obtain ⟨manifest, hmanifest, hregions⟩ := fromRaw_builtHardwareManifest Cap arch ecamBase space
    report power cpu interrupt timer
  rw [haccepted.physicalMemoryMap_eq] at hregions
  have hlengths := usableLengths_eq hregions
  refine ⟨manifest, hmanifest, ?_, ?_⟩
  · intro hexact
    refine ⟨fun d hd => (toNat_lengthBytes_eq_iff d).mp (hexact.products d hd), ?_⟩
    rw [← hexact.total]
    exact manifest.totalUsableMemoryBytes.toNat_lt
  · rintro ⟨hpages, htotal⟩
    have hproducts : ∀ d ∈ firstDescriptors mem uefiMemoryMap,
        (regionOf d).lengthBytes.toNat = d.numberOfPages.toNat * 4096 :=
      fun d hd => (toNat_lengthBytes_eq_iff d).mpr (hpages d hd)
    have hsum : (manifest.usableLengths.map UInt64.toNat).sum =
        usableBytes (firstDescriptors mem uefiMemoryMap) := by
      rw [hlengths, List.map_map, usableBytes]
      exact congrArg List.sum
        (List.map_congr_left fun d hd => hproducts d (List.mem_of_mem_filter hd))
    refine ⟨hproducts, (Words.sumsExactly_iff _).mpr (hsum ▸ htotal), ?_⟩
    rw [HardwareManifest.totalUsableMemoryBytes, Words.toNat_wrapSum, hsum]
    exact Nat.mod_eq_of_lt htotal

end Accounting

/-! A machine without devices -/

def noDevices : ConfigSpace := fun _ => ⟨0xFFFFFFFF, 0⟩

def plainPower : PowerThermalImpl := .new .x86_64 (fun _ => 0) (.new .x86_64 0 noDevices)

def plainInterrupt : InterruptReport := ⟨.apicXapic, 0xFEE00000, none, 24, 1⟩

def plainTimer : Timer .x86_64 := (⟨1000000000, true, false⟩ : X86_64.Timer)

def plainMachine (report : MemoryReport) : HardwareManifestRaw :=
  builtHardwareManifest report (.new .x86_64 0 noDevices) plainPower ⟨1, 0⟩ plainInterrupt plainTimer

theorem exists_accepted (mem : Mem) (uefiMemoryMap : UInt64) :
    ∃ report, Accepted mem uefiMemoryMap report .x86_64 := by
  obtain ⟨memory, hmemory⟩ := X86_64.exists_settles_fromUefiMemoryMap mem uefiMemoryMap
  exact ⟨_, memory, hmemory, rfl⟩

theorem totalUsableMemoryBytes_exact_sixteenPages :
    ∃ report manifest, Accepted (oneRegionMem 16) 0 report .x86_64 ∧
      HardwareManifest.fromRaw Unit (plainMachine report) = some manifest ∧
      ExactAccounting (firstDescriptors (oneRegionMem 16) 0) manifest ∧
      manifest.totalUsableMemoryBytes.toNat = 65536 := by
  obtain ⟨report, haccepted⟩ := exists_accepted (oneRegionMem 16) 0
  obtain ⟨manifest, hmanifest, hiff⟩ := totalUsableMemoryBytes_exact_iff Unit 0
    noDevices plainPower ⟨1, 0⟩ plainInterrupt plainTimer haccepted
  have hexact := hiff.mpr ⟨by decide, by decide⟩
  refine ⟨report, manifest, haccepted, hmanifest, hexact, ?_⟩
  rw [hexact.total]
  decide

/-- One region with `2 ^ 52 + 16` pages, of which 16 are reported. -/
theorem totalUsableMemoryBytes_wraps :
    ∃ report manifest, Accepted (oneRegionMem 0x10000000000010) 0 report .x86_64 ∧
      HardwareManifest.fromRaw Unit (plainMachine report) = some manifest ∧
      manifest.totalUsableMemoryBytes.toNat = 65536 ∧
      usableBytes (firstDescriptors (oneRegionMem 0x10000000000010) 0) = 2 ^ 64 + 65536 := by
  obtain ⟨report, haccepted⟩ := exists_accepted (oneRegionMem 0x10000000000010) 0
  obtain ⟨manifest, hmanifest, hregions⟩ := fromRaw_builtHardwareManifest Unit .x86_64 0
    noDevices report plainPower ⟨1, 0⟩ plainInterrupt plainTimer
  rw [haccepted.physicalMemoryMap_eq] at hregions
  refine ⟨report, manifest, haccepted, hmanifest, ?_, by decide⟩
  rw [HardwareManifest.totalUsableMemoryBytes, usableLengths_eq hregions]
  decide

end SimurghHal.Firmware
