import SimurghHal.Devices.Compute

/-!
# Power domains (`hal-*/src/power.rs`)

Domain 0 is the CPU package. One domain follows for each discovered compute device,
as long as the table has room.
-/

namespace SimurghHal.Power

open Manifest BoundedTable Compute

def cpuPackageDomainId : UInt32 := 0
def msrTemperatureTarget : UInt32 := 0x1A2
def msrRaplPowerUnit : UInt32 := 0x606

abbrev DomainTable := Buffer PowerDomainRaw maxPowerDomains

/-- The loop body over the discovered devices. `.error` is `break`. -/
def addDeviceDomain (domains : DomainTable) (device : ComputeDeviceRaw) :
    Except DomainTable DomainTable :=
  if h : domains.count < maxPowerDomains then
    .ok (domains.add h
      { PowerDomainRaw.zero with
        domainId := UInt32.ofNat domains.count
        associatedComputeDeviceIndex := device.deviceIndex
        supportsDvfs := false
        hasThermalSensor := false })
  else .error domains

/-- The package domain alone. -/
def packageOnly (supportsDvfs hasThermalSensor : Bool) : DomainTable :=
  (⟨Vector.replicate _ .zero, 0, Nat.zero_le _⟩ : DomainTable).add (by decide)
    { PowerDomainRaw.zero with
      domainId := cpuPackageDomainId
      associatedComputeDeviceIndex := PowerDomainRaw.noAssociatedDevice
      supportsDvfs := supportsDvfs
      hasThermalSensor := hasThermalSensor }

/-- The table built by `PowerThermalImpl::new`. -/
def buildDomains (supportsDvfs hasThermalSensor : Bool) (compute : ComputeDiscovery) :
    DomainTable :=
  Loop.final (Loop.loop addDeviceDomain compute.enumerateComputeDevices
    (packageOnly supportsDvfs hasThermalSensor))

structure PowerThermalImpl where
  domains : DomainTable

namespace X86_64

/-- `PowerThermalImpl` of `hal-x86_64`, with what it reads from the MSRs. -/
structure PowerThermalImpl extends Power.PowerThermalImpl where
  tccActivationTempC : ℤ
  raplSupported : Bool

/-- `PowerThermalImpl::new`. Frequency control comes with RAPL and the package always
has a thermal sensor. -/
def PowerThermalImpl.new (rdmsr : UInt32 → UInt64) (compute : ComputeDiscovery) :
    PowerThermalImpl :=
  let tempTarget := rdmsr msrTemperatureTarget
  let raplUnits := rdmsr msrRaplPowerUnit
  let raplSupported : Bool := raplUnits ≠ 0
  { domains := buildDomains raplSupported true compute
    tccActivationTempC := (tempTarget >>> 16 &&& 0xFF).toNat
    raplSupported := raplSupported }

end X86_64

namespace Arm64

/-- `PowerThermalImpl::new`. -/
def PowerThermalImpl.new (compute : ComputeDiscovery) : PowerThermalImpl :=
  ⟨buildDomains false false compute⟩

end Arm64

namespace Riscv64

/-- `PowerThermalImpl::new`. -/
def PowerThermalImpl.new (compute : ComputeDiscovery) : PowerThermalImpl :=
  ⟨buildDomains false false compute⟩

end Riscv64

namespace PowerThermalImpl

/-- The constructor of an architecture crate; only x86_64 reads MSRs. -/
def new (arch : Arch) (rdmsr : UInt32 → UInt64) (compute : ComputeDiscovery) : PowerThermalImpl :=
  match arch with
  | .x86_64 => (X86_64.PowerThermalImpl.new rdmsr compute).toPowerThermalImpl
  | .arm64 => Arm64.PowerThermalImpl.new compute
  | .riscv64 => Riscv64.PowerThermalImpl.new compute

/-- `enumerate_power_domains`. -/
def enumeratePowerDomains (power : PowerThermalImpl) : List PowerDomainRaw :=
  power.domains.entries

/-- `find_domain`. -/
def findDomain (power : PowerThermalImpl) (domainId : UInt32) : Option PowerDomainRaw :=
  power.enumeratePowerDomains.find? fun d => d.domainId == domainId

end PowerThermalImpl

/-! ### The table in closed form -/

/-- The package domain. -/
def packageDomain (supportsDvfs hasThermalSensor : Bool) : PowerDomainRaw :=
  ⟨0, PowerDomainRaw.noAssociatedDevice, supportsDvfs, hasThermalSensor⟩

/-- The domain of the device at position `i`. -/
def deviceDomain (i : ℕ) (device : ComputeDeviceRaw) : PowerDomainRaw :=
  ⟨UInt32.ofNat (i + 1), device.deviceIndex, false, false⟩

/-- The package domain followed by one domain per device. -/
def domainList (supportsDvfs hasThermalSensor : Bool) (devices : List ComputeDeviceRaw) :
    List PowerDomainRaw :=
  packageDomain supportsDvfs hasThermalSensor :: devices.mapIdx deviceDomain

theorem domainList_concat (dvfs thermal : Bool) (devices : List ComputeDeviceRaw)
    (device : ComputeDeviceRaw) :
    domainList dvfs thermal (devices ++ [device]) =
      domainList dvfs thermal devices ++ [deviceDomain devices.length device] := by
  rw [domainList, List.mapIdx_concat]
  rfl

@[simp] theorem length_domainList (dvfs thermal : Bool) (devices : List ComputeDeviceRaw) :
    (domainList dvfs thermal devices).length = devices.length + 1 := by
  simp [domainList]

/-- The loop was left with the domains of the first 15 devices. -/
def Full (dvfs thermal : Bool) (domains : DomainTable) (devices : List ComputeDeviceRaw) : Prop :=
  maxPowerDomains ≤ devices.length + 1 ∧
    domains.entries = domainList dvfs thermal (devices.take (maxPowerDomains - 1))

theorem Full.append {dvfs thermal : Bool} {domains : DomainTable}
    {devices : List ComputeDeviceRaw} (more : List ComputeDeviceRaw)
    (h : Full dvfs thermal domains devices) : Full dvfs thermal domains (devices ++ more) := by
  have hlen : maxPowerDomains - 1 ≤ devices.length := Nat.sub_le_of_le_add h.1
  refine ⟨?_, ?_⟩
  · rw [List.length_append]
    have := h.1
    omega
  · rw [h.2, List.take_append_of_le_length hlen]

theorem length_le_of_entries {dvfs thermal : Bool} {domains : DomainTable}
    {devices : List ComputeDeviceRaw} (h : domains.entries = domainList dvfs thermal devices) :
    domains.count = devices.length + 1 ∧ devices.length ≤ maxPowerDomains - 1 := by
  have hcount : domains.count = devices.length + 1 := by
    rw [← Buffer.length_entries, h, length_domainList]
  have hle := domains.count_le
  exact ⟨hcount, by omega⟩

theorem addDeviceDomain_outcome {dvfs thermal : Bool} (domains : DomainTable)
    (device : ComputeDeviceRaw) (devices : List ComputeDeviceRaw)
    (h : domains.entries = domainList dvfs thermal devices) :
    Loop.Outcome (fun s xs => s.entries = domainList dvfs thermal xs) (Full dvfs thermal)
      (devices ++ [device]) (addDeviceDomain domains device) := by
  obtain ⟨hcount, hle⟩ := length_le_of_entries h
  rw [addDeviceDomain]
  split
  · show Buffer.entries _ = _
    rw [Buffer.entries_add, h, hcount, domainList_concat]
    rfl
  · next hfull =>
    have hlen : maxPowerDomains ≤ devices.length + 1 := by
      rw [← hcount]
      exact not_lt.mp hfull
    refine Full.append [device] ⟨hlen, ?_⟩
    rw [h, List.take_of_length_le hle]

/-- The table holds the package domain and the domains of the first 15 devices. -/
theorem entries_buildDomains (dvfs thermal : Bool) (compute : ComputeDiscovery) :
    (buildDomains dvfs thermal compute).entries =
      domainList dvfs thermal (compute.enumerateComputeDevices.take (maxPowerDomains - 1)) := by
  have hloop := Loop.loop_collect addDeviceDomain_outcome (fun _ _ more h => h.append more)
    compute.enumerateComputeDevices (packageOnly dvfs thermal) [] rfl
  rw [List.nil_append, List.flatMap_singleton'] at hloop
  refine hloop.final (fun domains h => ?_) (fun domains h => h.2)
  rw [h, List.take_of_length_le (length_le_of_entries h).2]

/-- Which flags the package domain gets. -/
def packageFlags (arch : Arch) (rdmsr : UInt32 → UInt64) : Bool × Bool :=
  match arch with
  | .x86_64 => (rdmsr msrRaplPowerUnit ≠ 0, true)
  | .arm64 => (false, false)
  | .riscv64 => (false, false)

theorem enumeratePowerDomains_new (arch : Arch) (rdmsr : UInt32 → UInt64)
    (compute : ComputeDiscovery) :
    (PowerThermalImpl.new arch rdmsr compute).enumeratePowerDomains =
      domainList (packageFlags arch rdmsr).1 (packageFlags arch rdmsr).2
        (compute.enumerateComputeDevices.take (maxPowerDomains - 1)) := by
  cases arch with
  | x86_64 => exact entries_buildDomains _ _ compute
  | arm64 => exact entries_buildDomains _ _ compute
  | riscv64 => exact entries_buildDomains _ _ compute

/-- Ids are positions. -/
theorem domainId_domainList (dvfs thermal : Bool) {devices : List ComputeDeviceRaw}
    (hlen : devices.length < maxPowerDomains) (i : ℕ)
    (hi : i < (domainList dvfs thermal devices).length) :
    (domainList dvfs thermal devices)[i].domainId.toNat = i := by
  rw [length_domainList] at hi
  cases i with
  | zero => rfl
  | succ i =>
    simp only [domainList, List.getElem_cons_succ, List.getElem_mapIdx, deviceDomain]
    refine UInt32.toNat_ofNat_of_lt' ?_
    simp only [maxPowerDomains] at hlen
    simp only [UInt32.size]
    omega

/-- Looking up a domain by its id is indexing the table. -/
theorem findDomain_new (arch : Arch) (rdmsr : UInt32 → UInt64) (compute : ComputeDiscovery)
    (domainId : UInt32) :
    (PowerThermalImpl.new arch rdmsr compute).findDomain domainId =
      (PowerThermalImpl.new arch rdmsr compute).enumeratePowerDomains[domainId.toNat]? := by
  rw [PowerThermalImpl.findDomain, enumeratePowerDomains_new]
  have hlen : (compute.enumerateComputeDevices.take (maxPowerDomains - 1)).length <
      maxPowerDomains := by
    rw [List.length_take]
    exact lt_of_le_of_lt (min_le_left _ _) (by decide)
  have hid := domainId_domainList (packageFlags arch rdmsr).1 (packageFlags arch rdmsr).2 hlen
  generalize domainList _ _ _ = domains at hid ⊢
  by_cases hin : domainId.toNat < domains.length
  · rw [List.getElem?_eq_getElem hin, List.find?_eq_some_iff_getElem]
    refine ⟨?_, domainId.toNat, hin, rfl, ?_⟩
    · rw [beq_iff_eq, ← UInt32.toNat_inj, hid _ hin]
    · -- an earlier domain has a smaller id
      intro j hj
      rw [Bool.not_eq_true', beq_eq_false_iff_ne, Ne, ← UInt32.toNat_inj, hid j (by omega)]
      omega
  · rw [List.getElem?_eq_none (not_lt.mp hin), List.find?_eq_none]
    intro d hd
    obtain ⟨j, hj, rfl⟩ := List.getElem_of_mem hd
    rw [beq_iff_eq, ← UInt32.toNat_inj, hid j hj]
    omega

end SimurghHal.Power
