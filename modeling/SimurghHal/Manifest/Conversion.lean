import SimurghHal.Manifest.Append
import SimurghHal.Manifest.Dynamic
import Mathlib.Data.List.Forall2

/-!
# What the conversion of a manifest keeps

The raw manifest is built by pushes and by writes to its scalar fields. Its conversion
(`HardwareManifest.fromRaw`) has one entry for each entry in use, and two manifests with
the same image agree in everything that is in use. What is not in use has no influence on
the image: payloads behind a flag that is not set, and array slots behind the counts.
-/

namespace SimurghHal.Manifest

/-- One step of building a manifest. A scalar field that is no count is written as a
whole. -/
inductive BuildOp where
  | push (op : PushOp)
  | cpuCoreCount (count : UInt32)
  | cpuFeatureFlags (flags : UInt64)
  | interruptController (info : InterruptControllerInfoRaw)
  | timer (info : TimerInfoRaw)
  deriving DecidableEq

namespace BuildOp

def apply (m : HardwareManifestRaw) : BuildOp → HardwareManifestRaw
  | .push op => (op.push m).2
  | .cpuCoreCount count => { m with cpuCoreCount := count }
  | .cpuFeatureFlags flags => { m with cpuFeatureFlags := flags }
  | .interruptController info => { m with interruptController := info }
  | .timer info => { m with timer := info }

end BuildOp

/-- The manifest after a sequence of steps from `zeroed()` on. -/
def build (ops : List BuildOp) : HardwareManifestRaw := ops.foldl BuildOp.apply .zeroed

/-- The tables of a built manifest are filled by its pushes alone. -/
theorem holdsFirst_build (ops : List BuildOp) : ∃ pushes, HoldsFirst (build ops) pushes := by
  induction ops using List.reverseRecOn with
  | nil => exact ⟨[], holdsFirst_zeroed⟩
  | append_singleton ops op ih =>
    obtain ⟨pushes, h⟩ := ih
    rw [build, List.foldl_append]
    cases op with
    | push op => exact ⟨pushes ++ [op], h.push op⟩
    | cpuCoreCount count => exact ⟨pushes, h.regions, h.devices, h.domains⟩
    | cpuFeatureFlags flags => exact ⟨pushes, h.regions, h.devices, h.domains⟩
    | interruptController info => exact ⟨pushes, h.regions, h.devices, h.domains⟩
    | timer info => exact ⟨pushes, h.regions, h.devices, h.domains⟩

namespace Dynamic

variable {Cap : Type}

/-! ### Entry by entry -/

/-- An optional value that is stored as a flag and a payload. -/
def Encodes (flag : Bool) (payload : UInt64) (value : Option UInt64) : Prop :=
  ∀ x, value = some x ↔ flag = true ∧ payload = x

structure MemoryRegion.Matches (raw : MemoryRegionRaw) (region : MemoryRegion) : Prop where
  baseAddr : region.baseAddr = raw.baseAddr
  lengthBytes : region.lengthBytes = raw.lengthBytes
  kind : region.kind = .fromRaw raw.kind
  behindIommu : region.behindIommu = raw.behindIommu

structure ComputeDevice.Matches (raw : ComputeDeviceRaw) (device : ComputeDevice Cap) : Prop where
  kind : device.kind = .fromRaw raw.kind
  vendor : device.vendor = raw.vendor.id
  dedicatedMemory :
    Encodes raw.hasDedicatedMemory raw.dedicatedMemoryBytes device.dedicatedMemoryBytes
  unifiedMemoryCapable : device.unifiedMemoryCapable = raw.unifiedMemoryCapable
  bandwidthToCpuMbps : device.bandwidthToCpuMbps = raw.bandwidthToCpuMbps
  name : device.name = fromUtf8Lossy (raw.shortName.toList.take raw.shortNameLen.toNat)
  deviceIndex : device.deviceIndex = raw.deviceIndex
  capabilityToken : device.capabilityToken = none

structure PowerDomain.Matches (raw : PowerDomainRaw) (domain : PowerDomain) : Prop where
  domainId : domain.domainId = raw.domainId
  associated : ∀ index, domain.associatedComputeDeviceIndex = some index ↔
    raw.associatedComputeDeviceIndex ≠ PowerDomainRaw.noAssociatedDevice ∧
      raw.associatedComputeDeviceIndex = index
  supportsDvfs : domain.supportsDvfs = raw.supportsDvfs
  hasThermalSensor : domain.hasThermalSensor = raw.hasThermalSensor

structure InterruptControllerInfo.Matches (raw : InterruptControllerInfoRaw)
    (info : InterruptControllerInfo) : Prop where
  kind : info.kind = .fromRaw raw.kind
  primaryBase : info.primaryBase = raw.primaryBase
  secondary : Encodes raw.hasSecondary raw.secondaryBase info.secondaryBase
  irqLineCount : info.irqLineCount = raw.irqLineCount
  ipiTargetCoreCount : info.ipiTargetCoreCount = raw.ipiTargetCoreCount

structure TimerInfo.Matches (raw : TimerInfoRaw) (info : TimerInfo) : Prop where
  kind : info.kind = .fromRaw raw.kind
  frequencyHz : info.frequencyHz = raw.frequencyHz
  supportsTickless : info.supportsTickless = raw.supportsTickless

/-- The image has an entry for each raw entry in use, in order and field by field. -/
structure HardwareManifest.Matches (raw : HardwareManifestRaw) (manifest : HardwareManifest Cap) :
    Prop where
  coreCount : manifest.cpu.coreCount = raw.cpuCoreCount.toNat
  featureFlags : manifest.cpu.featureFlags = raw.cpuFeatureFlags
  regionCount : manifest.memoryRegions.length = raw.memoryRegionCount.toNat
  regions : ∃ regions, raw.memoryRegionsSlice = some regions ∧
    List.Forall₂ MemoryRegion.Matches regions manifest.memoryRegions
  deviceCount : manifest.computeDevices.length = raw.computeDeviceCount.toNat
  devices : ∃ devices, raw.computeDevicesSlice = some devices ∧
    List.Forall₂ ComputeDevice.Matches devices manifest.computeDevices
  domainCount : manifest.powerDomains.length = raw.powerDomainCount.toNat
  domains : ∃ domains, raw.powerDomainsSlice = some domains ∧
    List.Forall₂ PowerDomain.Matches domains manifest.powerDomains
  interruptController : manifest.interruptController.Matches raw.interruptController
  timer : manifest.timer.Matches raw.timer

theorem encodes_ite (flag : Bool) (payload : UInt64) :
    Encodes flag payload (if flag then some payload else none) := by
  intro x
  cases flag <;> simp

/-- A payload behind a flag that is not set does not matter. -/
theorem ite_congr_flag {flag flag' : Bool} {payload payload' : UInt64} (hflag : flag = flag')
    (hpayload : flag = true → payload = payload') :
    (if flag then some payload else none) = if flag' then some payload' else none := by
  subst hflag
  split
  · next hset => rw [hpayload hset]
  · rfl

/-- Two encodings of one value agree in the flag, and in the payload if it is set. -/
theorem Encodes.congr {flag flag' : Bool} {payload payload' : UInt64} {value : Option UInt64}
    (h : Encodes flag payload value) (h' : Encodes flag' payload' value) :
    flag = flag' ∧ (flag = true → payload = payload') := by
  cases flag with
  | true =>
    obtain ⟨hflag, hpayload⟩ := (h' payload).mp ((h payload).mpr ⟨rfl, rfl⟩)
    exact ⟨hflag.symm, fun _ => hpayload.symm⟩
  | false =>
    refine ⟨?_, fun htrue => absurd htrue Bool.false_ne_true⟩
    by_contra hne
    have hflag : flag' = true := (Bool.not_eq_false flag').mp (Ne.symm hne)
    exact Bool.false_ne_true ((h payload').mp ((h' payload').mpr ⟨hflag, rfl⟩)).1

theorem MemoryRegionKind.fromRaw_injective : Function.Injective MemoryRegionKind.fromRaw := by
  intro a b h
  cases a <;> cases b <;> first | rfl | cases h

theorem ComputeKind.fromRaw_injective : Function.Injective ComputeKind.fromRaw := by
  intro a b h
  cases a <;> cases b <;> first | rfl | cases h

theorem InterruptControllerKind.fromRaw_injective :
    Function.Injective InterruptControllerKind.fromRaw := by
  intro a b h
  cases a <;> cases b <;> first | rfl | cases h

theorem TimerKind.fromRaw_injective : Function.Injective TimerKind.fromRaw := by
  intro a b h
  cases a <;> cases b <;> first | rfl | cases h

theorem MemoryRegion.matches_fromRaw (raw : MemoryRegionRaw) :
    MemoryRegion.Matches raw (.fromRaw raw) :=
  ⟨rfl, rfl, rfl, rfl⟩

theorem ComputeDevice.matches_of_fromRaw {raw : ComputeDeviceRaw} {device : ComputeDevice Cap}
    (h : ComputeDevice.fromRaw Cap raw = some device) : device.Matches raw := by
  rw [ComputeDevice.fromRaw] at h
  split at h
  · cases h
    exact ⟨rfl, rfl, encodes_ite _ _, rfl, rfl, rfl, rfl, rfl⟩
  · cases h

theorem PowerDomain.matches_fromRaw (raw : PowerDomainRaw) :
    PowerDomain.Matches raw (.fromRaw raw) := by
  refine ⟨rfl, fun index => ?_, rfl, rfl⟩
  rw [PowerDomain.fromRaw]
  dsimp only
  split
  · next h => simp [h]
  · next h => simp [h]

theorem InterruptControllerInfo.matches_fromRaw (raw : InterruptControllerInfoRaw) :
    InterruptControllerInfo.Matches raw (.fromRaw raw) :=
  ⟨rfl, rfl, encodes_ite _ _, rfl, rfl⟩

theorem TimerInfo.matches_fromRaw (raw : TimerInfoRaw) : TimerInfo.Matches raw (.fromRaw raw) :=
  ⟨rfl, rfl, rfl⟩

/-! ### What is in use -/

/-- The devices agree up to their names and the payload behind a flag that is not set. -/
structure SameDevice (raw raw' : ComputeDeviceRaw) : Prop where
  kind : raw.kind = raw'.kind
  vendor : raw.vendor = raw'.vendor
  hasDedicatedMemory : raw.hasDedicatedMemory = raw'.hasDedicatedMemory
  dedicatedMemoryBytes :
    raw.hasDedicatedMemory = true → raw.dedicatedMemoryBytes = raw'.dedicatedMemoryBytes
  unifiedMemoryCapable : raw.unifiedMemoryCapable = raw'.unifiedMemoryCapable
  bandwidthToCpuMbps : raw.bandwidthToCpuMbps = raw'.bandwidthToCpuMbps
  deviceIndex : raw.deviceIndex = raw'.deviceIndex

structure SameInterruptController (raw raw' : InterruptControllerInfoRaw) : Prop where
  kind : raw.kind = raw'.kind
  primaryBase : raw.primaryBase = raw'.primaryBase
  hasSecondary : raw.hasSecondary = raw'.hasSecondary
  secondaryBase : raw.hasSecondary = true → raw.secondaryBase = raw'.secondaryBase
  irqLineCount : raw.irqLineCount = raw'.irqLineCount
  ipiTargetCoreCount : raw.ipiTargetCoreCount = raw'.ipiTargetCoreCount

/-- The manifests agree in everything that is in use, names apart. -/
structure SameInUse (raw raw' : HardwareManifestRaw) : Prop where
  cpuCoreCount : raw.cpuCoreCount = raw'.cpuCoreCount
  cpuFeatureFlags : raw.cpuFeatureFlags = raw'.cpuFeatureFlags
  memoryRegionCount : raw.memoryRegionCount = raw'.memoryRegionCount
  memoryRegions : raw.memoryRegionsSlice = raw'.memoryRegionsSlice
  computeDeviceCount : raw.computeDeviceCount = raw'.computeDeviceCount
  computeDevices : Option.Rel (List.Forall₂ SameDevice) raw.computeDevicesSlice
    raw'.computeDevicesSlice
  interruptController : SameInterruptController raw.interruptController raw'.interruptController
  timer : raw.timer = raw'.timer
  powerDomainCount : raw.powerDomainCount = raw'.powerDomainCount
  powerDomains : raw.powerDomainsSlice = raw'.powerDomainsSlice

/-- The names of the devices in use. -/
def shortNames (raw : HardwareManifestRaw) : Option (List (List UInt8)) :=
  raw.computeDevicesSlice.map fun devices =>
    devices.map fun device => device.shortName.toList.take device.shortNameLen.toNat

/-- The lengths of the names in use are within their arrays. -/
def NamesFit (raw : HardwareManifestRaw) : Prop :=
  ∀ devices, raw.computeDevicesSlice = some devices →
    ∀ device ∈ devices, device.shortNameLen.toNat ≤ shortNameMaxLen

theorem MemoryRegion.Matches.eq {raw raw' : MemoryRegionRaw} {region : MemoryRegion}
    (h : region.Matches raw) (h' : region.Matches raw') : raw = raw' := by
  obtain ⟨base, length, kind, iommu⟩ := raw
  obtain ⟨base', length', kind', iommu'⟩ := raw'
  obtain rfl : base = base' := h.baseAddr.symm.trans h'.baseAddr
  obtain rfl : length = length' := h.lengthBytes.symm.trans h'.lengthBytes
  obtain rfl : kind = kind' := MemoryRegionKind.fromRaw_injective (h.kind.symm.trans h'.kind)
  obtain rfl : iommu = iommu' := h.behindIommu.symm.trans h'.behindIommu
  rfl

theorem ComputeDevice.Matches.sameDevice {raw raw' : ComputeDeviceRaw}
    {device : ComputeDevice Cap} (h : device.Matches raw) (h' : device.Matches raw') :
    SameDevice raw raw' := by
  obtain ⟨hflag, hpayload⟩ := h.dedicatedMemory.congr h'.dedicatedMemory
  refine ⟨ComputeKind.fromRaw_injective (h.kind.symm.trans h'.kind), ?_, hflag, hpayload,
    h.unifiedMemoryCapable.symm.trans h'.unifiedMemoryCapable,
    h.bandwidthToCpuMbps.symm.trans h'.bandwidthToCpuMbps,
    h.deviceIndex.symm.trans h'.deviceIndex⟩
  exact congrArg VendorIdRaw.mk (h.vendor.symm.trans h'.vendor)

/-- The sentinel is no index, so no domain with a device is taken for one without. -/
theorem PowerDomain.Matches.eq {raw raw' : PowerDomainRaw} {domain : PowerDomain}
    (h : domain.Matches raw) (h' : domain.Matches raw') : raw = raw' := by
  have hindex : raw.associatedComputeDeviceIndex = raw'.associatedComputeDeviceIndex := by
    by_cases hnone : raw.associatedComputeDeviceIndex = PowerDomainRaw.noAssociatedDevice
    · -- otherwise the other one would have an index, and the image would have it
      by_contra hne
      have hsome : raw'.associatedComputeDeviceIndex ≠ PowerDomainRaw.noAssociatedDevice :=
        fun hnone' => hne (hnone.trans hnone'.symm)
      have hvalue := (h'.associated _).mpr ⟨hsome, rfl⟩
      exact ((h.associated _).mp hvalue).1 hnone
    · have hvalue := (h.associated _).mpr ⟨hnone, rfl⟩
      exact ((h'.associated _).mp hvalue).2.symm
  obtain ⟨id, index, dvfs, sensor⟩ := raw
  obtain ⟨id', index', dvfs', sensor'⟩ := raw'
  obtain rfl : id = id' := h.domainId.symm.trans h'.domainId
  obtain rfl : index = index' := hindex
  obtain rfl : dvfs = dvfs' := h.supportsDvfs.symm.trans h'.supportsDvfs
  obtain rfl : sensor = sensor' := h.hasThermalSensor.symm.trans h'.hasThermalSensor
  rfl

theorem InterruptControllerInfo.Matches.same {raw raw' : InterruptControllerInfoRaw}
    {info : InterruptControllerInfo} (h : info.Matches raw) (h' : info.Matches raw') :
    SameInterruptController raw raw' := by
  obtain ⟨hflag, hpayload⟩ := h.secondary.congr h'.secondary
  exact ⟨InterruptControllerKind.fromRaw_injective (h.kind.symm.trans h'.kind),
    h.primaryBase.symm.trans h'.primaryBase, hflag, hpayload,
    h.irqLineCount.symm.trans h'.irqLineCount,
    h.ipiTargetCoreCount.symm.trans h'.ipiTargetCoreCount⟩

theorem TimerInfo.Matches.eq {raw raw' : TimerInfoRaw} {info : TimerInfo}
    (h : info.Matches raw) (h' : info.Matches raw') : raw = raw' := by
  obtain ⟨kind, frequency, tickless⟩ := raw
  obtain ⟨kind', frequency', tickless'⟩ := raw'
  obtain rfl : kind = kind' := TimerKind.fromRaw_injective (h.kind.symm.trans h'.kind)
  obtain rfl : frequency = frequency' := h.frequencyHz.symm.trans h'.frequencyHz
  obtain rfl : tickless = tickless' := h.supportsTickless.symm.trans h'.supportsTickless
  rfl

/-- Two lists that correspond to one list, entry by entry. -/
theorem forall₂_of_common {α β : Type} {R : α → β → Prop} {S : α → α → Prop} {xs xs' : List α}
    {ys : List β} (hRS : ∀ x x' y, R x y → R x' y → S x x') (h : List.Forall₂ R xs ys)
    (h' : List.Forall₂ R xs' ys) : List.Forall₂ S xs xs' := by
  induction h generalizing xs' with
  | nil =>
    cases h'
    exact .nil
  | cons hxy _ ih =>
    obtain _ | ⟨hxy', hrest'⟩ := h'
    exact .cons (hRS _ _ _ hxy hxy') (ih hrest')

/-- Equal images come from manifests that agree in everything in use. -/
theorem HardwareManifest.Matches.sameInUse {raw raw' : HardwareManifestRaw}
    {manifest : HardwareManifest Cap} (h : manifest.Matches raw) (h' : manifest.Matches raw') :
    SameInUse raw raw' := by
  obtain ⟨regions, hregions, hmatch⟩ := h.regions
  obtain ⟨regions', hregions', hmatch'⟩ := h'.regions
  obtain ⟨devices, hdevices, hdevice⟩ := h.devices
  obtain ⟨devices', hdevices', hdevice'⟩ := h'.devices
  obtain ⟨domains, hdomains, hdomain⟩ := h.domains
  obtain ⟨domains', hdomains', hdomain'⟩ := h'.domains
  refine ⟨UInt32.toNat_inj.mp (h.coreCount.symm.trans h'.coreCount),
    h.featureFlags.symm.trans h'.featureFlags,
    UInt32.toNat_inj.mp (h.regionCount.symm.trans h'.regionCount), ?_,
    UInt32.toNat_inj.mp (h.deviceCount.symm.trans h'.deviceCount), ?_,
    h.interruptController.same h'.interruptController, h.timer.eq h'.timer,
    UInt32.toNat_inj.mp (h.domainCount.symm.trans h'.domainCount), ?_⟩
  · have hsame := forall₂_of_common (R := MemoryRegion.Matches) (fun _ _ _ h h' => h.eq h')
      hmatch hmatch'
    rw [List.forall₂_eq_eq_eq] at hsame
    rw [hregions, hregions', hsame]
  · rw [hdevices, hdevices']
    exact .some (forall₂_of_common (fun _ _ _ h h' => h.sameDevice h') hdevice hdevice')
  · have hsame := forall₂_of_common (R := PowerDomain.Matches) (fun _ _ _ h h' => h.eq h')
      hdomain hdomain'
    rw [List.forall₂_eq_eq_eq] at hsame
    rw [hdomains, hdomains', hsame]

/-! ### The conversion -/

theorem mapM_eq_some_iff {α β : Type} {f : α → Option β} {xs : List α} {ys : List β} :
    xs.mapM f = some ys ↔ List.Forall₂ (fun x y => f x = some y) xs ys := by
  induction xs generalizing ys with
  | nil => simp [eq_comm]
  | cons x xs ih =>
    rw [List.mapM_cons]
    constructor
    · intro h
      obtain ⟨y, hy, h⟩ := Option.bind_eq_some_iff.mp h
      obtain ⟨rest, hrest, h⟩ := Option.bind_eq_some_iff.mp h
      cases h
      exact .cons hy (ih.mp hrest)
    · intro h
      obtain _ | ⟨hy, hrest⟩ := h
      rw [hy, ih.mpr hrest]
      rfl

theorem forall₂_map {α β : Type} {R : α → β → Prop} (f : α → β) (hf : ∀ x, R x (f x))
    (xs : List α) : List.Forall₂ R xs (xs.map f) := by
  rw [List.forall₂_map_right_iff, List.forall₂_same]
  exact fun x _ => hf x

/-- The image of a manifest matches it. -/
theorem HardwareManifest.matches_of_fromRaw {raw : HardwareManifestRaw}
    {manifest : HardwareManifest Cap} (h : HardwareManifest.fromRaw Cap raw = some manifest) :
    manifest.Matches raw := by
  unfold HardwareManifest.fromRaw at h
  obtain ⟨regions, hregions, h⟩ := Option.bind_eq_some_iff.mp h
  obtain ⟨devices, hdevices, h⟩ := Option.bind_eq_some_iff.mp h
  obtain ⟨images, himages, h⟩ := Option.bind_eq_some_iff.mp h
  obtain ⟨domains, hdomains, h⟩ := Option.bind_eq_some_iff.mp h
  cases h
  have hdevice := (mapM_eq_some_iff.mp himages).imp fun _ _ => ComputeDevice.matches_of_fromRaw
  refine ⟨rfl, rfl, ?_, ⟨regions, hregions, ?_⟩, ?_, ⟨devices, hdevices, hdevice⟩, ?_,
    ⟨domains, hdomains, ?_⟩, InterruptControllerInfo.matches_fromRaw _,
    TimerInfo.matches_fromRaw _⟩
  · exact (List.length_map _).trans (BoundedTable.length_of_slice hregions)
  · exact forall₂_map _ MemoryRegion.matches_fromRaw regions
  · exact hdevice.length_eq.symm.trans (BoundedTable.length_of_slice hdevices)
  · exact (List.length_map _).trans (BoundedTable.length_of_slice hdomains)
  · exact forall₂_map _ PowerDomain.matches_fromRaw domains

theorem SameDevice.fromRaw_eq {raw raw' : ComputeDeviceRaw} (h : SameDevice raw raw')
    (hname : raw.shortName.toList.take raw.shortNameLen.toNat =
      raw'.shortName.toList.take raw'.shortNameLen.toNat)
    (hfit : raw.shortNameLen.toNat ≤ shortNameMaxLen)
    (hfit' : raw'.shortNameLen.toNat ≤ shortNameMaxLen) :
    ComputeDevice.fromRaw Cap raw = ComputeDevice.fromRaw Cap raw' := by
  have hmemory := ite_congr_flag h.hasDedicatedMemory h.dedicatedMemoryBytes
  rw [ComputeDevice.fromRaw, ComputeDevice.fromRaw, if_pos hfit, if_pos hfit', h.kind, h.vendor,
    hmemory, h.unifiedMemoryCapable, h.bandwidthToCpuMbps, hname, h.deviceIndex]

theorem mapM_fromRaw_eq {raws raws' : List ComputeDeviceRaw}
    (h : List.Forall₂ SameDevice raws raws')
    (hnames : raws.map (fun raw => raw.shortName.toList.take raw.shortNameLen.toNat) =
      raws'.map fun raw => raw.shortName.toList.take raw.shortNameLen.toNat)
    (hfit : ∀ raw ∈ raws, raw.shortNameLen.toNat ≤ shortNameMaxLen)
    (hfit' : ∀ raw ∈ raws', raw.shortNameLen.toNat ≤ shortNameMaxLen) :
    raws.mapM (ComputeDevice.fromRaw Cap) = raws'.mapM (ComputeDevice.fromRaw Cap) := by
  induction h with
  | nil => rfl
  | cons hsame _ ih =>
    rw [List.map_cons, List.map_cons, List.cons.injEq] at hnames
    obtain ⟨hhead, htail⟩ := List.forall_mem_cons.mp hfit
    obtain ⟨hhead', htail'⟩ := List.forall_mem_cons.mp hfit'
    rw [List.mapM_cons, List.mapM_cons, hsame.fromRaw_eq hnames.1 hhead hhead',
      ih hnames.2 htail htail']

theorem SameInterruptController.fromRaw_eq {raw raw' : InterruptControllerInfoRaw}
    (h : SameInterruptController raw raw') :
    InterruptControllerInfo.fromRaw raw = InterruptControllerInfo.fromRaw raw' := by
  have hsecondary := ite_congr_flag h.hasSecondary h.secondaryBase
  rw [InterruptControllerInfo.fromRaw, InterruptControllerInfo.fromRaw, h.kind, h.primaryBase,
    hsecondary, h.irqLineCount, h.ipiTargetCoreCount]

/-- The conversion, with the devices converted in one step. -/
theorem HardwareManifest.fromRaw_eq (raw : HardwareManifestRaw) :
    HardwareManifest.fromRaw Cap raw =
      raw.memoryRegionsSlice.bind fun regions =>
        (raw.computeDevicesSlice.bind fun devices =>
          devices.mapM (ComputeDevice.fromRaw Cap)).bind fun computeDevices =>
            raw.powerDomainsSlice.map fun domains =>
              { cpu := ⟨raw.cpuCoreCount.toNat, raw.cpuFeatureFlags⟩
                memoryRegions := regions.map .fromRaw
                computeDevices
                interruptController := .fromRaw raw.interruptController
                timer := .fromRaw raw.timer
                powerDomains := domains.map .fromRaw } := by
  unfold HardwareManifest.fromRaw
  cases raw.memoryRegionsSlice with
  | none => rfl
  | some regions =>
    cases raw.computeDevicesSlice with
    | none => rfl
    | some devices =>
      cases hdevices : devices.mapM (ComputeDevice.fromRaw Cap) with
      | none => simp [hdevices]
      | some images =>
        cases raw.powerDomainsSlice with
        | none => simp [hdevices]
        | some domains => simp [hdevices]

/-- Nothing but what is in use has an influence on the image. -/
theorem SameInUse.fromRaw_eq {raw raw' : HardwareManifestRaw} (h : SameInUse raw raw')
    (hnames : shortNames raw = shortNames raw') (hfit : NamesFit raw) (hfit' : NamesFit raw') :
    HardwareManifest.fromRaw Cap raw = HardwareManifest.fromRaw Cap raw' := by
  have hdevices : (raw.computeDevicesSlice.bind fun devices =>
      devices.mapM (ComputeDevice.fromRaw Cap)) =
      raw'.computeDevicesSlice.bind fun devices => devices.mapM (ComputeDevice.fromRaw Cap) := by
    have hsame := h.computeDevices
    rw [NamesFit] at hfit hfit'
    rw [shortNames, shortNames] at hnames
    cases hslice : raw.computeDevicesSlice with
    | none =>
      rw [hslice] at hsame
      cases hslice' : raw'.computeDevicesSlice with
      | none => rfl
      | some devices' =>
        rw [hslice'] at hsame
        cases hsame
    | some devices =>
      rw [hslice] at hsame hnames
      cases hslice' : raw'.computeDevicesSlice with
      | none =>
        rw [hslice'] at hsame
        cases hsame
      | some devices' =>
        rw [hslice'] at hsame hnames
        obtain hsame | hsame := hsame
        exact mapM_fromRaw_eq hsame (Option.some.inj hnames) (hfit _ hslice) (hfit' _ hslice')
  rw [HardwareManifest.fromRaw_eq, HardwareManifest.fromRaw_eq, h.cpuCoreCount,
    h.cpuFeatureFlags, h.memoryRegions, hdevices, h.timer, h.powerDomains,
    h.interruptController.fromRaw_eq]

end Dynamic

open SimurghHal.Manifest.Dynamic

/-- The conversion of a built manifest is defined: its counts are within the tables. -/
theorem exists_fromRaw_build (Cap : Type) {ops : List BuildOp} (hfit : NamesFit (build ops)) :
    ∃ manifest, HardwareManifest.fromRaw Cap (build ops) = some manifest := by
  obtain ⟨pushes, h⟩ := holdsFirst_build ops
  apply Option.isSome_iff_exists.mp
  rw [HardwareManifest.fromRaw_isSome_iff]
  refine ⟨?_, ⟨_, h.devices, hfit _ h.devices⟩, ?_⟩
  · exact (BoundedTable.slice_isSome_iff _ _).mp (Option.isSome_of_eq_some h.regions)
  · exact (BoundedTable.slice_isSome_iff _ _).mp (Option.isSome_of_eq_some h.domains)

/-- Manifests built by pushes and writes are converted entry by entry. Their images are
equal only if they agree in everything in use, and nothing else has an influence. -/
theorem fromRaw_faithful (Cap : Type) (ops ops' : List BuildOp) (hfit : NamesFit (build ops))
    (hfit' : NamesFit (build ops')) :
    (∃ manifest, HardwareManifest.fromRaw Cap (build ops) = some manifest ∧
      manifest.Matches (build ops)) ∧
    (HardwareManifest.fromRaw Cap (build ops) = HardwareManifest.fromRaw Cap (build ops') →
      SameInUse (build ops) (build ops')) ∧
    (SameInUse (build ops) (build ops') → shortNames (build ops) = shortNames (build ops') →
      HardwareManifest.fromRaw Cap (build ops) = HardwareManifest.fromRaw Cap (build ops')) := by
  obtain ⟨manifest, hmanifest⟩ := exists_fromRaw_build Cap hfit
  have hmatch := HardwareManifest.matches_of_fromRaw hmanifest
  refine ⟨⟨manifest, hmanifest, hmatch⟩, fun heq => ?_, fun hsame hnames => ?_⟩
  · rw [hmanifest] at heq
    exact hmatch.sameInUse (HardwareManifest.matches_of_fromRaw heq.symm)
  · exact hsame.fromRaw_eq hnames hfit hfit'

/-- A GPU whose payload for dedicated memory is not in use. -/
def sampleDevice (dedicatedMemoryBytes : UInt64) : ComputeDeviceRaw :=
  { ComputeDeviceRaw.zero with kind := .gpu, dedicatedMemoryBytes }

/-- A platform with this device. -/
def sampleBuild (dedicatedMemoryBytes : UInt64) : List BuildOp :=
  [.cpuCoreCount 4, .push (.computeDevice (sampleDevice dedicatedMemoryBytes)),
    .push (.powerDomain .zero)]

theorem computeDevicesSlice_sampleBuild (dedicatedMemoryBytes : UInt64) :
    (build (sampleBuild dedicatedMemoryBytes)).computeDevicesSlice =
      some [sampleDevice dedicatedMemoryBytes] := by
  rfl

theorem fromRaw_faithful_unused_payload :
    HardwareManifest.fromRaw Unit (build (sampleBuild 0)) =
      HardwareManifest.fromRaw Unit (build (sampleBuild 4096)) := by
  have hfit : ∀ bytes, NamesFit (build (sampleBuild bytes)) := by
    intro bytes devices hdevices device hdevice
    rw [computeDevicesSlice_sampleBuild] at hdevices
    cases hdevices
    cases List.mem_singleton.mp hdevice
    exact Nat.zero_le _
  refine (fromRaw_faithful Unit (sampleBuild 0) (sampleBuild 4096) (hfit 0) (hfit 4096)).2.2 ?_ ?_
  · refine ⟨rfl, rfl, rfl, rfl, rfl, ?_, ⟨rfl, rfl, rfl, fun _ => rfl, rfl, rfl⟩, rfl, rfl, rfl⟩
    rw [computeDevicesSlice_sampleBuild, computeDevicesSlice_sampleBuild]
    exact .some (.cons ⟨rfl, rfl, rfl, fun h => absurd h Bool.false_ne_true, rfl, rfl, rfl⟩ .nil)
  · rw [shortNames, shortNames, computeDevicesSlice_sampleBuild, computeDevicesSlice_sampleBuild]
    rfl

end SimurghHal.Manifest
