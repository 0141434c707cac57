import SimurghHal.Core.Error
import SimurghHal.Manifest.Append
import SimurghHal.Manifest.Dynamic

/-!
# The boot information structure (`hal-core/src/boot.rs`)

`BootInfo.validate` is what the microkernel calls on the structure it is handed
before it uses any field of it. The module settles which validated structures have
their two ranges apart, and which of them the consumers of the embedded manifest can
read without an out-of-range slice.
-/

namespace SimurghHal

open Manifest

/-- `BootProtocol`. -/
inductive BootProtocol where
  | uefi
  | sbiDeviceTree
  deriving DecidableEq, Repr

def bootInfoMagic : UInt64 := 0x48414C424F4F5431
def bootInfoVersion : UInt32 := 1

structure BootInfo where
  magic : UInt64
  version : UInt32
  protocol : BootProtocol
  hardwareManifest : HardwareManifestRaw
  initialPageTablePhys : UInt64
  kernelImagePhysStart : UInt64
  kernelImagePhysEnd : UInt64
  bootReservedPhysStart : UInt64
  bootReservedPhysEnd : UInt64
  bootCoreId : UInt32
  deriving DecidableEq

namespace BootInfo

/-- `BootInfo::new`. -/
def new (protocol : BootProtocol) (hardwareManifest : HardwareManifestRaw)
    (initialPageTablePhys : UInt64) (kernelImagePhysRange bootReservedPhysRange : UInt64 × UInt64)
    (bootCoreId : UInt32) : BootInfo where
  magic := bootInfoMagic
  version := bootInfoVersion
  protocol := protocol
  hardwareManifest := hardwareManifest
  initialPageTablePhys := initialPageTablePhys
  kernelImagePhysStart := kernelImagePhysRange.1
  kernelImagePhysEnd := kernelImagePhysRange.2
  bootReservedPhysStart := bootReservedPhysRange.1
  bootReservedPhysEnd := bootReservedPhysRange.2
  bootCoreId := bootCoreId

/-- `BootInfo::validate`. -/
def validate (b : BootInfo) : Except HalError Unit :=
  if b.magic ≠ bootInfoMagic then .error .malformedBootInfo
  else if b.version ≠ bootInfoVersion then .error .malformedBootInfo
  else if b.kernelImagePhysEnd < b.kernelImagePhysStart then .error .malformedBootInfo
  else if b.bootReservedPhysEnd < b.bootReservedPhysStart then .error .malformedBootInfo
  else .ok ()

/-- `BootInfo::overlaps_kernel_image`. -/
def overlapsKernelImage (b : BootInfo) (addr : UInt64) : Bool :=
  addr ≥ b.kernelImagePhysStart && addr < b.kernelImagePhysEnd

/-- `BootInfo::overlaps_boot_reserved`. -/
def overlapsBootReserved (b : BootInfo) (addr : UInt64) : Bool :=
  addr ≥ b.bootReservedPhysStart && addr < b.bootReservedPhysEnd

theorem validate_eq_ok_iff (b : BootInfo) :
    b.validate = .ok () ↔ b.magic = bootInfoMagic ∧ b.version = bootInfoVersion ∧
      b.kernelImagePhysStart ≤ b.kernelImagePhysEnd ∧
      b.bootReservedPhysStart ≤ b.bootReservedPhysEnd := by
  rw [validate]
  split
  · simp_all
  · split
    · simp_all
    · split
      · simp_all
      · split <;> simp_all

/-- The two ranges are ordered and share no address. -/
def RangesDisciplined (b : BootInfo) : Prop :=
  b.kernelImagePhysStart ≤ b.kernelImagePhysEnd ∧
    b.bootReservedPhysStart ≤ b.bootReservedPhysEnd ∧
    ∀ addr, ¬ (b.overlapsKernelImage addr = true ∧ b.overlapsBootReserved addr = true)

/-- `validate` accepts only disciplined ranges, and rejects none for them. -/
def EnforcesRanges (b : BootInfo) : Prop :=
  (b.validate = .ok () → b.RangesDisciplined) ∧
    (b.magic = bootInfoMagic → b.version = bootInfoVersion → b.RangesDisciplined →
      b.validate = .ok ())

/-- One range is empty, or one ends where or before the other starts. -/
def RangesApart (b : BootInfo) : Prop :=
  b.kernelImagePhysEnd ≤ b.kernelImagePhysStart ∨
    b.bootReservedPhysEnd ≤ b.bootReservedPhysStart ∨
    b.kernelImagePhysEnd ≤ b.bootReservedPhysStart ∨
    b.bootReservedPhysEnd ≤ b.kernelImagePhysStart

/-- Both membership tests compare the address with the two ends of a half-open range. -/
theorem inRange_iff {first last addr : UInt64} :
    (addr ≥ first && addr < last) = true ↔
      first.toNat ≤ addr.toNat ∧ addr.toNat < last.toNat := by
  rw [Bool.and_eq_true, decide_eq_true_iff, decide_eq_true_iff, ge_iff_le,
    UInt64.le_iff_toNat_le, UInt64.lt_iff_toNat_lt]

/-- If there is a common address, the later start is one. -/
theorem no_shared_iff (b : BootInfo) :
    (∀ addr, ¬ (b.overlapsKernelImage addr = true ∧ b.overlapsBootReserved addr = true)) ↔
      b.RangesApart := by
  simp only [overlapsKernelImage, overlapsBootReserved, inRange_iff]
  simp only [RangesApart, UInt64.le_iff_toNat_le]
  constructor
  · intro h
    have hkernel := h b.kernelImagePhysStart
    have hreserved := h b.bootReservedPhysStart
    omega
  · intro h addr
    omega

/-- `validate` keeps what it documents of the two ranges exactly when it rejects for the magic
or the version, or the ranges are apart. It never compares the one range with the other. -/
theorem enforcesRanges_iff (b : BootInfo) :
    b.EnforcesRanges ↔
      b.magic ≠ bootInfoMagic ∨ b.version ≠ bootInfoVersion ∨ b.RangesApart := by
  rw [EnforcesRanges, validate_eq_ok_iff]
  constructor
  · rintro ⟨hsound, -⟩
    by_cases hmagic : b.magic = bootInfoMagic
    · by_cases hversion : b.version = bootInfoVersion
      · refine .inr (.inr ?_)
        by_cases hkernel : b.kernelImagePhysStart ≤ b.kernelImagePhysEnd
        · by_cases hreserved : b.bootReservedPhysStart ≤ b.bootReservedPhysEnd
          · exact (no_shared_iff b).mp (hsound ⟨hmagic, hversion, hkernel, hreserved⟩).2.2
          · exact .inr (.inl (UInt64.le_of_lt (UInt64.not_le.mp hreserved)))
        · exact .inl (UInt64.le_of_lt (UInt64.not_le.mp hkernel))
      · exact .inr (.inl hversion)
    · exact .inl hmagic
  · intro h
    refine ⟨?_, fun hmagic hversion hranges => ⟨hmagic, hversion, hranges.1, hranges.2.1⟩⟩
    rintro ⟨hmagic, hversion, hkernel, hreserved⟩
    have hapart := (h.resolve_left (not_not.mpr hmagic)).resolve_left (not_not.mpr hversion)
    exact ⟨hkernel, hreserved, (no_shared_iff b).mpr hapart⟩

/-- The upper half of the kernel image is also the lower half of the boot-reserved range. -/
theorem validate_accepts_overlap :
    let b := BootInfo.new .uefi .zeroed 0 (0x100000, 0x300000) (0x200000, 0x400000) 0
    b.validate = .ok () ∧ b.overlapsKernelImage 0x200000 = true ∧
      b.overlapsBootReserved 0x200000 = true ∧ ¬ b.EnforcesRanges := by
  intro b
  have hok : b.validate = .ok () := by decide
  have hkernel : b.overlapsKernelImage 0x200000 = true := by decide
  have hreserved : b.overlapsBootReserved 0x200000 = true := by decide
  exact ⟨hok, hkernel, hreserved, fun h => (h.1 hok).2.2 0x200000 ⟨hkernel, hreserved⟩⟩

end BootInfo

/-- The three accessors and the conversion to the heap-backed manifest complete
without an out-of-range slice. -/
def SafeToConsume (Cap : Type) (m : HardwareManifestRaw) : Prop :=
  m.memoryRegionsSlice.isSome ∧ m.computeDevicesSlice.isSome ∧ m.powerDomainsSlice.isSome ∧
    (Dynamic.HardwareManifest.fromRaw Cap m).isSome

/-- The length fields of a manifest stay within the arrays they refer to. -/
def WithinCapacity (m : HardwareManifestRaw) : Prop :=
  m.memoryRegionCount.toNat ≤ 64 ∧ m.computeDeviceCount.toNat ≤ 32 ∧
    m.powerDomainCount.toNat ≤ 16 ∧
    ∀ i : Fin 32, i < m.computeDeviceCount.toNat → (m.computeDevices.get i).shortNameLen.toNat ≤ 32

/-- A listed device is one at a position below the count. -/
theorem listed_iff {m : HardwareManifestRaw} (hcount : m.computeDeviceCount.toNat ≤ 32)
    (P : ComputeDeviceRaw → Prop) :
    (∃ devices, m.computeDevicesSlice = some devices ∧ ∀ device ∈ devices, P device) ↔
      ∀ i : Fin 32, i < m.computeDeviceCount.toNat → P (m.computeDevices.get i) := by
  have hslice : m.computeDevicesSlice =
      some (m.computeDevices.toList.take m.computeDeviceCount.toNat) := if_pos hcount
  have hlen : m.computeDevices.toList.length = 32 := m.computeDevices.length_toList
  simp only [hslice, Option.some.injEq, exists_eq_left']
  constructor
  · intro h i hi
    refine h _ (List.mem_take_iff_getElem.mpr ⟨i, ?_, rfl⟩)
    omega
  · intro h device hdevice
    obtain ⟨i, hi, rfl⟩ := List.mem_take_iff_getElem.mp hdevice
    exact h ⟨i, by omega⟩ (by show i < _; omega)

theorem safeToConsume_iff (Cap : Type) (m : HardwareManifestRaw) :
    SafeToConsume Cap m ↔ WithinCapacity m := by
  have hregions : m.memoryRegionsSlice.isSome ↔ m.memoryRegionCount.toNat ≤ 64 :=
    BoundedTable.slice_isSome_iff _ _
  have hdevices : m.computeDevicesSlice.isSome ↔ m.computeDeviceCount.toNat ≤ 32 :=
    BoundedTable.slice_isSome_iff _ _
  have hdomains : m.powerDomainsSlice.isSome ↔ m.powerDomainCount.toNat ≤ 16 :=
    BoundedTable.slice_isSome_iff _ _
  rw [SafeToConsume, WithinCapacity, Dynamic.HardwareManifest.fromRaw_isSome_iff, hregions, hdevices, hdomains]
  constructor
  · rintro ⟨h1, h2, h3, -, hnames, -⟩
    exact ⟨h1, h2, h3, (listed_iff h2 _).mp hnames⟩
  · rintro ⟨h1, h2, h3, hnames⟩
    exact ⟨h1, h2, h3, h1, (listed_iff h2 _).mpr hnames, h3⟩

/-- `validate` does not look at the manifest. A boot structure is rejected by one of
its four checks, or else it is safe to consume exactly when the counts and name
lengths of its manifest were right to begin with. -/
theorem validate_safeToConsume_iff (Cap : Type) (b : BootInfo) :
    (b.validate = .ok () → SafeToConsume Cap b.hardwareManifest) ↔
      (b.magic ≠ bootInfoMagic ∨ b.version ≠ bootInfoVersion ∨
        b.kernelImagePhysEnd < b.kernelImagePhysStart ∨
        b.bootReservedPhysEnd < b.bootReservedPhysStart ∨
        WithinCapacity b.hardwareManifest) := by
  rw [BootInfo.validate_eq_ok_iff, safeToConsume_iff]
  constructor
  · intro h
    by_cases hm : b.magic = bootInfoMagic
    · by_cases hv : b.version = bootInfoVersion
      · by_cases hk : b.kernelImagePhysEnd < b.kernelImagePhysStart
        · exact .inr (.inr (.inl hk))
        · by_cases hr : b.bootReservedPhysEnd < b.bootReservedPhysStart
          · exact .inr (.inr (.inr (.inl hr)))
          · exact .inr (.inr (.inr (.inr (h ⟨hm, hv, UInt64.not_lt.mp hk, UInt64.not_lt.mp hr⟩))))
      · exact .inr (.inl hv)
    · exact .inl hm
  · rintro (hm | hv | hk | hr | hcap) ⟨hm', hv', hk', hr'⟩
    · exact absurd hm' hm
    · exact absurd hv' hv
    · exact absurd hk (UInt64.not_lt.mpr hk')
    · exact absurd hr (UInt64.not_lt.mpr hr')
    · exact hcap

/-- A zeroed manifest whose region count is 65 passes validation, and its first
accessor slices out of range. -/
theorem validate_accepts_overlong_count :
    let b := BootInfo.new .uefi { HardwareManifestRaw.zeroed with memoryRegionCount := 65 }
      0 (0, 0) (0, 0) 0
    b.validate = .ok () ∧ b.hardwareManifest.memoryRegionsSlice = none := by
  decide

/-- Manifests built by the push operations have counts within capacity, so that only
the name lengths of the pushed devices are left to the caller. -/
theorem withinCapacity_pushAll {ops : List PushOp}
    (h : ∀ device, PushOp.computeDevice device ∈ ops → device.shortNameLen.toNat ≤ 32) :
    WithinCapacity (pushAll .zeroed ops) := by
  have hfirst := holdsFirst_pushAll ops
  have hcount := count_le_capacity hfirst (.computeDevice .zero)
  refine ⟨count_le_capacity hfirst (.memoryRegion .zero), hcount,
    count_le_capacity hfirst (.powerDomain .zero), ?_⟩
  refine (listed_iff hcount fun device => device.shortNameLen.toNat ≤ 32).mp ⟨_, hfirst.devices, ?_⟩
  intro device hdevice
  obtain ⟨i, hi, rfl⟩ := List.mem_mapIdx.mp (List.mem_of_mem_take hdevice)
  obtain ⟨op, hop, hdev⟩ := List.mem_filterMap.mp (List.getElem_mem hi)
  cases op with
  | computeDevice d =>
    obtain rfl := Option.some.inj hdev
    have hname := h _ hop
    exact hname
  | memoryRegion r => cases hdev
  | powerDomain d => cases hdev

end SimurghHal
