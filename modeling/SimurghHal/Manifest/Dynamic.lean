import SimurghHal.Lib.Words
import SimurghHal.Manifest.Raw

/-!
# The heap-backed manifest (`hal-manifest/src/lib.rs`)

`HardwareManifest.fromRaw` converts the raw manifest once an allocator is
available. It slices three tables by their counts and every device name by its
length, and is undefined (`none`) where one of these slices would panic.
-/

namespace SimurghHal.Manifest.Dynamic

structure CpuInfo where
  coreCount : ℕ
  featureFlags : UInt64
  deriving DecidableEq, Repr

inductive MemoryRegionKind where
  | usable
  | reserved
  | acpiReclaimable
  | acpiNvs
  | mmio
  | kernelImage
  | bootReserved
  deriving DecidableEq, Repr

def MemoryRegionKind.fromRaw : MemoryRegionKindRaw → MemoryRegionKind
  | .usable => .usable
  | .reserved => .reserved
  | .acpiReclaimable => .acpiReclaimable
  | .acpiNvs => .acpiNvs
  | .mmio => .mmio
  | .kernelImage => .kernelImage
  | .bootReserved => .bootReserved

structure MemoryRegion where
  baseAddr : UInt64
  lengthBytes : UInt64
  kind : MemoryRegionKind
  behindIommu : Bool
  deriving DecidableEq, Repr

def MemoryRegion.fromRaw (raw : MemoryRegionRaw) : MemoryRegion :=
  ⟨raw.baseAddr, raw.lengthBytes, .fromRaw raw.kind, raw.behindIommu⟩

inductive ComputeKind where
  | cpu
  | gpu
  | npu
  | tpu
  | fpga
  deriving DecidableEq, Repr

def ComputeKind.fromRaw : ComputeKindRaw → ComputeKind
  | .cpu => .cpu
  | .gpu => .gpu
  | .npu => .npu
  | .tpu => .tpu
  | .fpga => .fpga

/-- A compute device, generic over the type of capability tokens. -/
structure ComputeDevice (Cap : Type) where
  kind : ComputeKind
  vendor : UInt32
  dedicatedMemoryBytes : Option UInt64
  unifiedMemoryCapable : Bool
  bandwidthToCpuMbps : UInt64
  name : String
  deviceIndex : UInt32
  capabilityToken : Option Cap
  deriving DecidableEq, Repr

/-- Bytes allowed after a given first byte of a multi-byte UTF-8 sequence. -/
def utf8SecondRange (first : UInt8) : UInt8 × UInt8 :=
  if first = 0xE0 then (0xA0, 0xBF)
  else if first = 0xED then (0x80, 0x9F)
  else if first = 0xF0 then (0x90, 0xBF)
  else if first = 0xF4 then (0x80, 0x8F)
  else (0x80, 0xBF)

/-- Length of the UTF-8 sequence a first byte announces, 0 for an invalid one. -/
def utf8Width (first : UInt8) : ℕ :=
  if first < 0x80 then 1
  else if 0xC2 ≤ first && first ≤ 0xDF then 2
  else if 0xE0 ≤ first && first ≤ 0xEF then 3
  else if 0xF0 ≤ first && first ≤ 0xF4 then 4
  else 0

/-- Continuation bytes of a sequence: the first must lie in `range`, the following
ones anywhere in `0x80..=0xBF`. Returns the code point, or `none` at the first
byte that does not fit, with the remaining input. -/
def utf8Continue : ℕ → UInt8 × UInt8 → ℕ → List UInt8 → Option ℕ × List UInt8
  | 0, _, acc, rest => (some acc, rest)
  | _ + 1, _, _, [] => (none, [])
  | n + 1, range, acc, b :: rest =>
    if range.1 ≤ b && b ≤ range.2 then
      utf8Continue n (0x80, 0xBF) (acc * 64 + b.toNat % 64) rest
    else (none, b :: rest)

/-- `String::from_utf8_lossy`: each maximal invalid sequence becomes U+FFFD. The
counter bounds the number of characters by the number of bytes. -/
def fromUtf8LossyAux : ℕ → List UInt8 → List Char
  | 0, _ => []
  | _ + 1, [] => []
  | n + 1, b :: rest =>
    match utf8Width b with
    | 0 => Char.ofNat 0xFFFD :: fromUtf8LossyAux n rest
    | w + 1 =>
      let lead := if w = 0 then b.toNat else b.toNat % 2 ^ (6 - w)
      match utf8Continue w (utf8SecondRange b) lead rest with
      | (some c, rest') => Char.ofNat c :: fromUtf8LossyAux n rest'
      | (none, rest') => Char.ofNat 0xFFFD :: fromUtf8LossyAux n rest'

def fromUtf8Lossy (bytes : List UInt8) : String :=
  String.ofList (fromUtf8LossyAux bytes.length bytes)

/-- `ComputeDevice::from_raw`. -/
def ComputeDevice.fromRaw (Cap : Type) (raw : ComputeDeviceRaw) : Option (ComputeDevice Cap) :=
  if raw.shortNameLen.toNat ≤ shortNameMaxLen then
    some {
      kind := .fromRaw raw.kind
      vendor := raw.vendor.id
      dedicatedMemoryBytes := if raw.hasDedicatedMemory then some raw.dedicatedMemoryBytes else none
      unifiedMemoryCapable := raw.unifiedMemoryCapable
      bandwidthToCpuMbps := raw.bandwidthToCpuMbps
      name := fromUtf8Lossy (raw.shortName.toList.take raw.shortNameLen.toNat)
      deviceIndex := raw.deviceIndex
      capabilityToken := none }
  else none

inductive InterruptControllerKind where
  | apicXapic
  | apicX2apic
  | gicv3
  | gicv4
  | plicClic
  deriving DecidableEq, Repr

def InterruptControllerKind.fromRaw : InterruptControllerKindRaw → InterruptControllerKind
  | .apicXapic => .apicXapic
  | .apicX2apic => .apicX2apic
  | .gicv3 => .gicv3
  | .gicv4 => .gicv4
  | .plicClic => .plicClic

structure InterruptControllerInfo where
  kind : InterruptControllerKind
  primaryBase : UInt64
  secondaryBase : Option UInt64
  irqLineCount : UInt32
  ipiTargetCoreCount : UInt32
  deriving DecidableEq, Repr

def InterruptControllerInfo.fromRaw (raw : InterruptControllerInfoRaw) : InterruptControllerInfo :=
  ⟨.fromRaw raw.kind, raw.primaryBase, if raw.hasSecondary then some raw.secondaryBase else none,
    raw.irqLineCount, raw.ipiTargetCoreCount⟩

inductive TimerKind where
  | tsc
  | hpet
  | armGenericTimer
  | riscvSbiTimer
  deriving DecidableEq, Repr

def TimerKind.fromRaw : TimerKindRaw → TimerKind
  | .tsc => .tsc
  | .hpet => .hpet
  | .armGenericTimer => .armGenericTimer
  | .riscvSbiTimer => .riscvSbiTimer

structure TimerInfo where
  kind : TimerKind
  frequencyHz : UInt64
  supportsTickless : Bool
  deriving DecidableEq, Repr

def TimerInfo.fromRaw (raw : TimerInfoRaw) : TimerInfo :=
  ⟨.fromRaw raw.kind, raw.frequencyHz, raw.supportsTickless⟩

structure PowerDomain where
  domainId : UInt32
  associatedComputeDeviceIndex : Option UInt32
  supportsDvfs : Bool
  hasThermalSensor : Bool
  deriving DecidableEq, Repr

def PowerDomain.fromRaw (raw : PowerDomainRaw) : PowerDomain :=
  let associated :=
    if raw.associatedComputeDeviceIndex = PowerDomainRaw.noAssociatedDevice then none
    else some raw.associatedComputeDeviceIndex
  ⟨raw.domainId, associated, raw.supportsDvfs, raw.hasThermalSensor⟩

structure HardwareManifest (Cap : Type) where
  cpu : CpuInfo
  memoryRegions : List MemoryRegion
  computeDevices : List (ComputeDevice Cap)
  interruptController : InterruptControllerInfo
  timer : TimerInfo
  powerDomains : List PowerDomain
  deriving DecidableEq, Repr

/-- `HardwareManifest::from_raw`. -/
def HardwareManifest.fromRaw (Cap : Type) (raw : HardwareManifestRaw) :
    Option (HardwareManifest Cap) := do
  let memoryRegions := (← raw.memoryRegionsSlice).map .fromRaw
  let computeDevices ← (← raw.computeDevicesSlice).mapM (ComputeDevice.fromRaw Cap)
  let powerDomains := (← raw.powerDomainsSlice).map .fromRaw
  return {
    cpu := ⟨raw.cpuCoreCount.toNat, raw.cpuFeatureFlags⟩
    memoryRegions
    computeDevices
    interruptController := .fromRaw raw.interruptController
    timer := .fromRaw raw.timer
    powerDomains }

/-- The lengths that `total_usable_memory_bytes` sums up. -/
def HardwareManifest.usableLengths {Cap : Type} (manifest : HardwareManifest Cap) : List UInt64 :=
  (manifest.memoryRegions.filter (·.kind = .usable)).map (·.lengthBytes)

/-- `total_usable_memory_bytes`. -/
def HardwareManifest.totalUsableMemoryBytes {Cap : Type} (manifest : HardwareManifest Cap) :
    UInt64 :=
  Words.wrapSum manifest.usableLengths

theorem ComputeDevice.fromRaw_isSome_iff (Cap : Type) (raw : ComputeDeviceRaw) :
    (ComputeDevice.fromRaw Cap raw).isSome ↔ raw.shortNameLen.toNat ≤ shortNameMaxLen := by
  rw [ComputeDevice.fromRaw]
  split <;> simp_all

theorem mapM_isSome_iff {α β : Type} (f : α → Option β) (xs : List α) :
    (xs.mapM f).isSome ↔ ∀ x ∈ xs, (f x).isSome := by
  induction xs with
  | nil => simp
  | cons x xs ih =>
    rw [List.mapM_cons]
    cases hx : f x with
    | none => simp [hx]
    | some y =>
      cases hxs : xs.mapM f with
      | none => simp_all
      | some ys => simp_all

/-- The conversion is defined exactly when the counts and the lengths of the listed
names stay within their arrays. -/
theorem HardwareManifest.fromRaw_isSome_iff (Cap : Type) (raw : HardwareManifestRaw) :
    (HardwareManifest.fromRaw Cap raw).isSome ↔
      raw.memoryRegionCount.toNat ≤ maxMemoryRegions ∧
      (∃ devices, raw.computeDevicesSlice = some devices ∧
        ∀ device ∈ devices, device.shortNameLen.toNat ≤ shortNameMaxLen) ∧
      raw.powerDomainCount.toNat ≤ maxPowerDomains := by
  have hregions := BoundedTable.slice_isSome_iff raw.memoryRegions raw.memoryRegionCount
  have hdomains := BoundedTable.slice_isSome_iff raw.powerDomains raw.powerDomainCount
  rw [← hregions, ← hdomains]
  unfold HardwareManifest.fromRaw
  simp only [← HardwareManifestRaw.memoryRegionsSlice.eq_1, ← HardwareManifestRaw.powerDomainsSlice.eq_1]
  cases raw.memoryRegionsSlice with
  | none => simp
  | some regions =>
    cases raw.computeDevicesSlice with
    | none => simp
    | some devices =>
      have hmap := mapM_isSome_iff (ComputeDevice.fromRaw Cap) devices
      simp only [ComputeDevice.fromRaw_isSome_iff] at hmap
      cases hdev : devices.mapM (ComputeDevice.fromRaw Cap) with
      | none =>
        rw [hdev] at hmap
        simp_all
      | some ds =>
        rw [hdev] at hmap
        cases raw.powerDomainsSlice <;> simp_all

theorem HardwareManifest.memoryRegions_of_fromRaw {Cap : Type} {raw : HardwareManifestRaw}
    {manifest : HardwareManifest Cap} (h : HardwareManifest.fromRaw Cap raw = some manifest) :
    ∃ regions, raw.memoryRegionsSlice = some regions ∧
      manifest.memoryRegions = regions.map .fromRaw := by
  unfold HardwareManifest.fromRaw at h
  obtain ⟨regions, hregions, h⟩ := Option.bind_eq_some_iff.mp h
  obtain ⟨_, _, h⟩ := Option.bind_eq_some_iff.mp h
  obtain ⟨_, _, h⟩ := Option.bind_eq_some_iff.mp h
  obtain ⟨_, _, h⟩ := Option.bind_eq_some_iff.mp h
  cases h
  exact ⟨regions, hregions, rfl⟩

end SimurghHal.Manifest.Dynamic
