import SimurghHal.Manifest.Raw
import Mathlib.Data.List.Induction

/-!
# Appending to the raw manifest

Any interleaving of the three push operations, started from the zeroed manifest,
leaves in each table the first values pushed to it, in order and up to the
capacity of the table. Compute devices are numbered by their position.
-/

namespace SimurghHal.Manifest

/-- One call of a push operation. -/
inductive PushOp where
  | memoryRegion (region : MemoryRegionRaw)
  | computeDevice (device : ComputeDeviceRaw)
  | powerDomain (domain : PowerDomainRaw)
  deriving DecidableEq

namespace PushOp

def memoryRegion? : PushOp → Option MemoryRegionRaw
  | .memoryRegion region => some region
  | _ => none

def computeDevice? : PushOp → Option ComputeDeviceRaw
  | .computeDevice device => some device
  | _ => none

def powerDomain? : PushOp → Option PowerDomainRaw
  | .powerDomain domain => some domain
  | _ => none

/-- Capacity of the table the operation appends to. -/
def capacity : PushOp → ℕ
  | .memoryRegion _ => maxMemoryRegions
  | .computeDevice _ => maxComputeDevices
  | .powerDomain _ => maxPowerDomains

/-- Number of entries in the table the operation appends to. -/
def count (m : HardwareManifestRaw) : PushOp → UInt32
  | .memoryRegion _ => m.memoryRegionCount
  | .computeDevice _ => m.computeDeviceCount
  | .powerDomain _ => m.powerDomainCount

def push (m : HardwareManifestRaw) : PushOp → Except Unit Unit × HardwareManifestRaw
  | .memoryRegion region => m.pushMemoryRegion region
  | .computeDevice device => m.pushComputeDevice device
  | .powerDomain domain => m.pushPowerDomain domain

/-- `m'` differs from `m` in the operation's own table and its count at most. -/
def OnlyOwnTable (m m' : HardwareManifestRaw) : PushOp → Prop
  | .memoryRegion _ => m' =
      { m with memoryRegions := m'.memoryRegions, memoryRegionCount := m'.memoryRegionCount }
  | .computeDevice _ => m' =
      { m with computeDevices := m'.computeDevices, computeDeviceCount := m'.computeDeviceCount }
  | .powerDomain _ => m' =
      { m with powerDomains := m'.powerDomains, powerDomainCount := m'.powerDomainCount }

theorem push_onlyOwnTable (m : HardwareManifestRaw) (op : PushOp) :
    op.OnlyOwnTable m (op.push m).2 := by
  cases op with
  | memoryRegion region =>
    simp only [push, OnlyOwnTable, HardwareManifestRaw.pushMemoryRegion]
    split <;> rfl
  | computeDevice device =>
    simp only [push, OnlyOwnTable, HardwareManifestRaw.pushComputeDevice]
    split <;> rfl
  | powerDomain domain =>
    simp only [push, OnlyOwnTable, HardwareManifestRaw.pushPowerDomain]
    split <;> rfl

/-- A refused push leaves the manifest alone. -/
theorem push_error {m : HardwareManifestRaw} {op : PushOp} (h : (op.push m).1 = .error ()) :
    (op.push m).2 = m := by
  cases op with
  | memoryRegion region =>
    simp only [push, HardwareManifestRaw.pushMemoryRegion] at h ⊢
    split at h
    · rfl
    · cases h
  | computeDevice device =>
    simp only [push, HardwareManifestRaw.pushComputeDevice] at h ⊢
    split at h
    · rfl
    · cases h
  | powerDomain domain =>
    simp only [push, HardwareManifestRaw.pushPowerDomain] at h ⊢
    split at h
    · rfl
    · cases h

/-- A push is refused exactly when its table has no room left. -/
theorem push_error_iff (m : HardwareManifestRaw) (op : PushOp) :
    (op.push m).1 = .error () ↔ op.capacity ≤ (op.count m).toNat := by
  cases op with
  | memoryRegion region =>
    rw [capacity, count, ← BoundedTable.push_eq_none_iff m.memoryRegions _ region]
    simp only [push, HardwareManifestRaw.pushMemoryRegion]
    split <;> simp_all
  | computeDevice device =>
    rw [capacity, count, ← BoundedTable.push_eq_none_iff m.computeDevices _
      { device with deviceIndex := m.computeDeviceCount }]
    simp only [push, HardwareManifestRaw.pushComputeDevice]
    split <;> simp_all
  | powerDomain domain =>
    rw [capacity, count, ← BoundedTable.push_eq_none_iff m.powerDomains _ domain]
    simp only [push, HardwareManifestRaw.pushPowerDomain]
    split <;> simp_all

end PushOp

/-- The manifest after a sequence of pushes. -/
def pushAll (m : HardwareManifestRaw) (ops : List PushOp) : HardwareManifestRaw :=
  ops.foldl (fun m op => (op.push m).2) m

/-- The devices as the manifest stores them: numbered by their position. -/
def numbered (devices : List ComputeDeviceRaw) : List ComputeDeviceRaw :=
  devices.mapIdx fun i device => { device with deviceIndex := UInt32.ofNat i }

theorem numbered_concat (devices : List ComputeDeviceRaw) (device : ComputeDeviceRaw) :
    numbered (devices ++ [device]) =
      numbered devices ++ [{ device with deviceIndex := UInt32.ofNat devices.length }] := by
  rw [numbered, List.mapIdx_concat]
  rfl

@[simp] theorem length_numbered (devices : List ComputeDeviceRaw) :
    (numbered devices).length = devices.length :=
  List.length_mapIdx

theorem take_numbered (devices : List ComputeDeviceRaw) (n : ℕ) :
    (numbered devices).take n = numbered (devices.take n) := by
  ext i device
  simp only [numbered, List.getElem?_take, List.getElem?_mapIdx]
  split <;> rfl

namespace HardwareManifestRaw

variable (m : HardwareManifestRaw)

@[simp] theorem computeDevicesSlice_pushMemoryRegion (region : MemoryRegionRaw) :
    (m.pushMemoryRegion region).2.computeDevicesSlice = m.computeDevicesSlice := by
  rw [pushMemoryRegion]
  split <;> rfl

@[simp] theorem powerDomainsSlice_pushMemoryRegion (region : MemoryRegionRaw) :
    (m.pushMemoryRegion region).2.powerDomainsSlice = m.powerDomainsSlice := by
  rw [pushMemoryRegion]
  split <;> rfl

@[simp] theorem memoryRegionsSlice_pushComputeDevice (device : ComputeDeviceRaw) :
    (m.pushComputeDevice device).2.memoryRegionsSlice = m.memoryRegionsSlice := by
  rw [pushComputeDevice]
  split <;> rfl

@[simp] theorem powerDomainsSlice_pushComputeDevice (device : ComputeDeviceRaw) :
    (m.pushComputeDevice device).2.powerDomainsSlice = m.powerDomainsSlice := by
  rw [pushComputeDevice]
  split <;> rfl

@[simp] theorem memoryRegionsSlice_pushPowerDomain (domain : PowerDomainRaw) :
    (m.pushPowerDomain domain).2.memoryRegionsSlice = m.memoryRegionsSlice := by
  rw [pushPowerDomain]
  split <;> rfl

@[simp] theorem computeDevicesSlice_pushPowerDomain (domain : PowerDomainRaw) :
    (m.pushPowerDomain domain).2.computeDevicesSlice = m.computeDevicesSlice := by
  rw [pushPowerDomain]
  split <;> rfl

variable {m}

theorem memoryRegionsSlice_pushMemoryRegion {xs : List MemoryRegionRaw} (region : MemoryRegionRaw)
    (h : m.memoryRegionsSlice = some (xs.take maxMemoryRegions)) :
    (m.pushMemoryRegion region).2.memoryRegionsSlice =
      some ((xs ++ [region]).take maxMemoryRegions) := by
  rcases BoundedTable.push_of_slice_take region (by decide) h with
    ⟨hp, -, hs⟩ | ⟨v, c, hp, -, hs⟩
  · rw [pushMemoryRegion, hp]
    exact hs
  · rw [pushMemoryRegion, hp]
    exact hs

theorem powerDomainsSlice_pushPowerDomain {xs : List PowerDomainRaw} (domain : PowerDomainRaw)
    (h : m.powerDomainsSlice = some (xs.take maxPowerDomains)) :
    (m.pushPowerDomain domain).2.powerDomainsSlice =
      some ((xs ++ [domain]).take maxPowerDomains) := by
  rcases BoundedTable.push_of_slice_take domain (by decide) h with
    ⟨hp, -, hs⟩ | ⟨v, c, hp, -, hs⟩
  · rw [pushPowerDomain, hp]
    exact hs
  · rw [pushPowerDomain, hp]
    exact hs

theorem computeDevicesSlice_pushComputeDevice {xs : List ComputeDeviceRaw}
    (device : ComputeDeviceRaw)
    (h : m.computeDevicesSlice = some ((numbered xs).take maxComputeDevices)) :
    (m.pushComputeDevice device).2.computeDevicesSlice =
      some ((numbered (xs ++ [device])).take maxComputeDevices) := by
  rw [numbered_concat]
  rcases BoundedTable.push_of_slice_take { device with deviceIndex := m.computeDeviceCount }
    (by decide) h with ⟨hp, hfull, -⟩ | ⟨v, c, hp, hcount, hs⟩
  · rw [pushComputeDevice, hp, List.take_append_of_le_length hfull]
    exact h
  · -- the index the source stores is the number of devices pushed before
    have hindex : m.computeDeviceCount = UInt32.ofNat xs.length := by
      rw [← length_numbered, ← hcount, UInt32.ofNat_toNat]
    rw [pushComputeDevice, hp, ← hindex]
    exact hs

end HardwareManifestRaw

/-- The tables of `m` hold the first values pushed by `ops`. -/
structure HoldsFirst (m : HardwareManifestRaw) (ops : List PushOp) : Prop where
  regions : m.memoryRegionsSlice =
    some ((ops.filterMap PushOp.memoryRegion?).take maxMemoryRegions)
  devices : m.computeDevicesSlice =
    some ((numbered (ops.filterMap PushOp.computeDevice?)).take maxComputeDevices)
  domains : m.powerDomainsSlice =
    some ((ops.filterMap PushOp.powerDomain?).take maxPowerDomains)

theorem holdsFirst_zeroed : HoldsFirst .zeroed [] :=
  ⟨BoundedTable.slice_zero _, BoundedTable.slice_zero _, BoundedTable.slice_zero _⟩

/-- One push, accepted or refused, keeps the description of all three tables. -/
theorem HoldsFirst.push {m : HardwareManifestRaw} {ops : List PushOp} (h : HoldsFirst m ops)
    (op : PushOp) : HoldsFirst (op.push m).2 (ops ++ [op]) := by
  obtain ⟨hregions, hdevices, hdomains⟩ := h
  cases op with
  | memoryRegion region =>
    refine ⟨?_, ?_, ?_⟩
    · simpa [PushOp.push, PushOp.memoryRegion?] using
        HardwareManifestRaw.memoryRegionsSlice_pushMemoryRegion region hregions
    · simpa [PushOp.push, PushOp.computeDevice?, List.filterMap_cons] using hdevices
    · simpa [PushOp.push, PushOp.powerDomain?, List.filterMap_cons] using hdomains
  | computeDevice device =>
    refine ⟨?_, ?_, ?_⟩
    · simpa [PushOp.push, PushOp.memoryRegion?, List.filterMap_cons] using hregions
    · simpa [PushOp.push, PushOp.computeDevice?] using
        HardwareManifestRaw.computeDevicesSlice_pushComputeDevice device hdevices
    · simpa [PushOp.push, PushOp.powerDomain?, List.filterMap_cons] using hdomains
  | powerDomain domain =>
    refine ⟨?_, ?_, ?_⟩
    · simpa [PushOp.push, PushOp.memoryRegion?, List.filterMap_cons] using hregions
    · simpa [PushOp.push, PushOp.computeDevice?, List.filterMap_cons] using hdevices
    · simpa [PushOp.push, PushOp.powerDomain?] using
        HardwareManifestRaw.powerDomainsSlice_pushPowerDomain domain hdomains

/-- What one push keeps, a sequence of pushes keeps. -/
theorem HoldsFirst.pushAll {m : HardwareManifestRaw} {ops : List PushOp} (h : HoldsFirst m ops)
    (more : List PushOp) : HoldsFirst (pushAll m more) (ops ++ more) := by
  induction more using List.reverseRecOn with
  | nil =>
    rw [List.append_nil]
    exact h
  | append_singleton more op ih =>
    rw [Manifest.pushAll, List.foldl_append, ← List.append_assoc]
    exact ih.push op

/-- Every manifest built by pushes holds the first values pushed. -/
theorem holdsFirst_pushAll (ops : List PushOp) : HoldsFirst (pushAll .zeroed ops) ops :=
  holdsFirst_zeroed.pushAll ops

theorem count_le_capacity {m : HardwareManifestRaw} {ops : List PushOp} (h : HoldsFirst m ops)
    (op : PushOp) : (op.count m).toNat ≤ op.capacity := by
  cases op with
  | memoryRegion region =>
    exact (BoundedTable.slice_isSome_iff _ _).mp (Option.isSome_of_eq_some h.regions)
  | computeDevice device =>
    exact (BoundedTable.slice_isSome_iff _ _).mp (Option.isSome_of_eq_some h.devices)
  | powerDomain domain =>
    exact (BoundedTable.slice_isSome_iff _ _).mp (Option.isSome_of_eq_some h.domains)

/-- Append semantics over whole runs. After any sequence of pushes the three tables
hold the first 64, 32 and 16 values pushed to them, devices numbered by position.
The next push fails exactly when its own table is full, leaves the manifest alone
when it fails, and touches nothing but its own table and count when it succeeds. -/
theorem pushAll_zeroed (ops : List PushOp) :
    let m := pushAll .zeroed ops
    m.memoryRegionsSlice = some ((ops.filterMap PushOp.memoryRegion?).take 64) ∧
      m.computeDevicesSlice = some (((ops.filterMap PushOp.computeDevice?).take 32).mapIdx
        fun i device => { device with deviceIndex := UInt32.ofNat i }) ∧
      m.powerDomainsSlice = some ((ops.filterMap PushOp.powerDomain?).take 16) ∧
      ∀ op : PushOp,
        ((op.push m).1 = .error () ↔ (op.count m).toNat = op.capacity) ∧
        ((op.push m).1 = .error () → (op.push m).2 = m) ∧
        op.OnlyOwnTable m (op.push m).2 := by
  intro m
  have h := holdsFirst_pushAll ops
  refine ⟨h.regions, ?_, h.domains, ?_⟩
  · rw [h.devices, take_numbered]
    rfl
  · intro op
    refine ⟨?_, PushOp.push_error, op.push_onlyOwnTable m⟩
    have hle : (op.count m).toNat ≤ op.capacity := count_le_capacity h op
    rw [op.push_error_iff m]
    omega

end SimurghHal.Manifest
