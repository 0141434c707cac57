import SimurghHal.Core.Error
import SimurghHal.Lib.Loop
import SimurghHal.Manifest.Raw
import Mathlib.Logic.Function.Basic

/-!
# Compute device discovery (`hal-*/src/compute.rs`)

The scan visits every bus, device and function of the PCI configuration space, sizes
the first base address register of each function it recognises and records up to 32
of them. The three crates differ only in how they reach the configuration space.

Configuration registers are modelled as words some of whose bits are implemented;
a write changes these bits only, which is what sizing a base address register relies
on. Functions that are not there read as all ones.
-/

namespace SimurghHal.Compute

open Manifest BoundedTable

/-! ### Configuration space -/

structure ConfigRegister where
  value : UInt32
  /-- The bits a write can change. -/
  implemented : UInt32
  deriving DecidableEq, Repr

def ConfigRegister.write (r : ConfigRegister) (value : UInt32) : ConfigRegister :=
  { r with value := (r.value &&& ~~~r.implemented) ||| (value &&& r.implemented) }

/-- Where the hardware finds a configuration register. -/
structure ConfigAddress where
  bus : UInt8
  device : UInt8
  function : UInt8
  offset : UInt8
  deriving DecidableEq, Repr

abbrev ConfigSpace := ConfigAddress → ConfigRegister

/-- The address `pci_config_read_u32` writes to port `0xCF8`. -/
def portAddress (bus device function offset : UInt8) : UInt32 :=
  (1 : UInt32) <<< 31 ||| bus.toUInt32 <<< 16 ||| device.toUInt32 <<< 11 ||| function.toUInt32 <<< 8 |||
    (offset.toUInt32 &&& 0xFC)

/-- How the host bridge reads an address written to port `0xCF8`. -/
def decodePort (address : UInt32) : ConfigAddress where
  bus := (address >>> 16).toUInt8
  device := (address >>> 11 &&& 0x1F).toUInt8
  function := (address >>> 8 &&& 0x7).toUInt8
  offset := (address &&& 0xFC).toUInt8

/-- `ecam_offset`. -/
def ecamOffset (bus device function : UInt8) : UInt64 :=
  bus.toUInt64 <<< 20 ||| device.toUInt64 <<< 15 ||| function.toUInt64 <<< 12

/-- The address `ecam_read_u32` accesses. -/
def ecamAddress (ecamBase : UInt64) (bus device function offset : UInt8) : UInt64 :=
  ecamBase + ecamOffset bus device function + offset.toUInt64

/-- How the host bridge reads an address inside its memory-mapped window. -/
def decodeEcam (ecamBase address : UInt64) : ConfigAddress where
  bus := ((address - ecamBase) >>> 20).toUInt8
  device := ((address - ecamBase) >>> 15 &&& 0x1F).toUInt8
  function := ((address - ecamBase) >>> 12 &&& 0x7).toUInt8
  offset := (address - ecamBase).toUInt8

/-- The two ways to reach the configuration space. -/
inductive Mechanism where
  | ports
  | ecam (ecamBase : UInt64)
  deriving DecidableEq, Repr

/-- The register an access reaches. -/
def Mechanism.target (mech : Mechanism) (bus device function offset : UInt8) : ConfigAddress :=
  match mech with
  | .ports => decodePort (portAddress bus device function offset)
  | .ecam ecamBase => decodeEcam ecamBase (ecamAddress ecamBase bus device function offset)

/-- `pci_config_read_u32` and `ecam_read_u32`. -/
def configRead (mech : Mechanism) (space : ConfigSpace) (bus device function offset : UInt8) :
    UInt32 :=
  (space (mech.target bus device function offset)).value

/-- `pci_config_write_u32` and `ecam_write_u32`. -/
def configWrite (mech : Mechanism) (space : ConfigSpace) (bus device function offset : UInt8)
    (value : UInt32) : ConfigSpace :=
  let address := mech.target bus device function offset
  Function.update space address ((space address).write value)

structure PciDeviceHeader where
  vendorId : UInt16
  deviceId : UInt16
  classCode : UInt8
  subclass : UInt8
  headerType : UInt8
  deriving DecidableEq, Repr

/-- `read_pci_header`. -/
def readPciHeader (mech : Mechanism) (space : ConfigSpace) (bus device function : UInt8) :
    Option PciDeviceHeader :=
  let dword0 := configRead mech space bus device function 0x00
  let vendorId := (dword0 &&& 0xFFFF).toUInt16
  if vendorId = 0xFFFF then none
  else
    let deviceId := (dword0 >>> 16).toUInt16
    let dword2 := configRead mech space bus device function 0x08
    let subclass := (dword2 >>> 16 &&& 0xFF).toUInt8
    let classCode := (dword2 >>> 24 &&& 0xFF).toUInt8
    let dword3 := configRead mech space bus device function 0x0C
    let headerType := (dword3 >>> 16 &&& 0xFF).toUInt8
    some ⟨vendorId, deviceId, classCode, subclass, headerType⟩

/-- `probe_bar_size`: the size and the configuration space afterwards. -/
def probeBarSize (mech : Mechanism) (space : ConfigSpace) (bus device function barIndex : UInt8) :
    Option UInt64 × ConfigSpace :=
  let offset := 0x10 + barIndex * 4
  let original := configRead mech space bus device function offset
  if original &&& 0x1 ≠ 0 then (none, space)
  else
    let space₁ := configWrite mech space bus device function offset 0xFFFFFFFF
    let sizeMask := configRead mech space₁ bus device function offset
    let space₂ := configWrite mech space₁ bus device function offset original
    if sizeMask = 0 then (none, space₂)
    else
      let sizeBits := sizeMask &&& 0xFFFFFFF0
      (some ((~~~sizeBits).toUInt64 + 1), space₂)

theorem word_restored (v m : UInt32) :
    ((v &&& ~~~m ||| 0xFFFFFFFF &&& m) &&& ~~~m) ||| (v &&& m) = v := by
  apply UInt32.toBitVec_inj.mp
  apply BitVec.eq_of_getLsbD_eq
  intro i hi
  simp only [UInt32.toBitVec_or, UInt32.toBitVec_and, UInt32.toBitVec_not, BitVec.getLsbD_or,
    BitVec.getLsbD_and, BitVec.getLsbD_not, hi]
  cases v.toBitVec.getLsbD i <;> cases m.toBitVec.getLsbD i <;> simp

/-- Sizing a base address register puts its value back. -/
theorem probeBarSize_snd (mech : Mechanism) (space : ConfigSpace)
    (bus device function barIndex : UInt8) :
    (probeBarSize mech space bus device function barIndex).2 = space := by
  have hrestored : ∀ offset, configWrite mech
      (configWrite mech space bus device function offset 0xFFFFFFFF) bus device function offset
      (configRead mech space bus device function offset) = space := by
    intro offset
    funext address
    simp only [configWrite, configRead, Function.update_self, Function.update_idem]
    by_cases haddr : address = mech.target bus device function offset
    · rw [haddr, Function.update_self, ConfigRegister.write, ConfigRegister.write, word_restored]
    · rw [Function.update_of_ne haddr]
  simp only [probeBarSize, hrestored]
  split
  · rfl
  · split <;> rfl

/-! ### The scan -/

def pciClassDisplayController : UInt8 := 0x03
def pciClassProcessingAccelerator : UInt8 := 0x12
def knownNpuTpuVendorIds : List (UInt16 × ComputeKindRaw) := [(0x1AE0, .tpu)]

/-- `classify_pci_device`. -/
def classifyPciDevice (header : PciDeviceHeader) : Option ComputeKindRaw :=
  if header.classCode = pciClassDisplayController then some .gpu
  else if header.classCode = pciClassProcessingAccelerator then some .npu
  else (knownNpuTpuVendorIds.find? fun entry => header.vendorId == entry.1).map Prod.snd

/-- `ComputeDiscovery`: the devices recorded and their number. -/
structure ComputeDiscovery where
  devices : Buffer ComputeDeviceRaw maxComputeDevices

namespace ComputeDiscovery

/-- `enumerate_compute_devices`. -/
def enumerateComputeDevices (compute : ComputeDiscovery) : List ComputeDeviceRaw :=
  compute.devices.entries

/-- `device_by_index`. -/
def deviceByIndex (compute : ComputeDiscovery) (deviceIndex : UInt32) : Option ComputeDeviceRaw :=
  compute.enumerateComputeDevices.find? fun d => d.deviceIndex == deviceIndex

end ComputeDiscovery

/-- The entry recorded for a function; `device_index` is left at 0. -/
def deviceEntry (header : PciDeviceHeader) (kind : ComputeKindRaw)
    (dedicatedMemoryBytes : Option UInt64) : ComputeDeviceRaw :=
  { ComputeDeviceRaw.zero with
    kind := kind
    vendor := ⟨header.vendorId.toUInt32⟩
    hasDedicatedMemory := dedicatedMemoryBytes.isSome
    dedicatedMemoryBytes := dedicatedMemoryBytes.getD 0
    unifiedMemoryCapable := false }

/-- The values `0`, …, `n - 1` of a `u8` loop variable. -/
def bytes (n : ℕ) : List UInt8 := (List.range n).map UInt8.ofNat

/-- What the scan carries along. -/
structure ScanState where
  devices : Buffer ComputeDeviceRaw maxComputeDevices
  space : ConfigSpace

section Scan

variable (mech : Mechanism)

/-- The innermost loop body. `.error` is `break 'bus_scan`. -/
def scanFunction (bus device : UInt8) (st : ScanState) (function : UInt8) :
    Except ScanState ScanState :=
  match readPciHeader mech st.space bus device function with
  | none => .ok st
  | some header =>
    match classifyPciDevice header with
    | none => .ok st
    | some kind =>
      if h : st.devices.count < maxComputeDevices then
        let (dedicatedMemoryBytes, space) := probeBarSize mech st.space bus device function 0
        .ok ⟨st.devices.add h (deviceEntry header kind dedicatedMemoryBytes), space⟩
      else .error st

/-- Number of functions to visit, from the header of function 0. -/
def functionCount (header0 : PciDeviceHeader) : ℕ :=
  if header0.headerType &&& 0x80 ≠ 0 then 8 else 1

def scanDevice (bus : UInt8) (st : ScanState) (device : UInt8) : Except ScanState ScanState :=
  match readPciHeader mech st.space bus device 0 with
  | none => .ok st
  | some header0 =>
    Loop.loop (scanFunction mech bus device) (bytes (functionCount header0)) st

def scanBus (st : ScanState) (bus : UInt8) : Except ScanState ScanState :=
  Loop.loop (scanDevice mech bus) (bytes 32) st

/-- `ComputeDiscovery::new`: what is found and the configuration space afterwards. -/
def scan (space : ConfigSpace) : ScanState :=
  Loop.final (Loop.loop (scanBus mech) (bytes 256)
    ⟨⟨Vector.replicate _ .zero, 0, Nat.zero_le _⟩, space⟩)

end Scan

def qemuVirtDefaultEcamBase : UInt64 := 0x30000000

/-- How each crate reaches the configuration space. ARM64 is told the base of the
window, RISC-V uses a constant. -/
def mechanism (arch : Arch) (ecamBase : UInt64) : Mechanism :=
  match arch with
  | .x86_64 => .ports
  | .arm64 => .ecam ecamBase
  | .riscv64 => .ecam qemuVirtDefaultEcamBase

/-- `ComputeDiscovery::new`. -/
def ComputeDiscovery.new (arch : Arch) (ecamBase : UInt64) (space : ConfigSpace) :
    ComputeDiscovery :=
  ⟨(scan (mechanism arch ecamBase) space).devices⟩

/-- `rescan`: what it returns, the discovery and the configuration space afterwards. The
filter is not used. -/
def ComputeDiscovery.rescan (arch : Arch) (ecamBase : UInt64) (compute : ComputeDiscovery)
    (_kindFilter : Option ComputeKindRaw) (space : ConfigSpace) :
    Except HalError Unit × ComputeDiscovery × ConfigSpace :=
  let scanned := scan (mechanism arch ecamBase) space
  let fresh : ComputeDiscovery := ⟨scanned.devices⟩
  if fresh.devices.count > maxComputeDevices then
    (.error .tooManyComputeDevices, compute, scanned.space)
  else
    (.ok (), ⟨⟨fresh.devices.array, fresh.devices.count, fresh.devices.count_le⟩⟩, scanned.space)

/-! ### What the scan finds -/

section Found

variable (mech : Mechanism) (space : ConfigSpace)

/-- The entry for one function, if it is there and recognised. -/
def entryAt (bus device function : UInt8) : Option ComputeDeviceRaw :=
  (readPciHeader mech space bus device function).bind fun header =>
    (classifyPciDevice header).map fun kind =>
      deviceEntry header kind (probeBarSize mech space bus device function 0).1

/-- The entries for the functions of one device, in order. -/
def deviceEntries (bus device : UInt8) : List ComputeDeviceRaw :=
  match readPciHeader mech space bus device 0 with
  | none => []
  | some header0 =>
    (bytes (functionCount header0)).flatMap fun function =>
      (entryAt mech space bus device function).toList

/-- The entries for all functions the scan can reach, in the order of the scan and
without a limit on their number. -/
def discoverable : List ComputeDeviceRaw :=
  (bytes 256).flatMap fun bus => (bytes 32).flatMap fun device =>
    deviceEntries mech space bus device

/-- The scan goes on: every entry seen so far is recorded. -/
def Recorded (st : ScanState) (found : List ComputeDeviceRaw) : Prop :=
  st.space = space ∧ st.devices.entries = found

/-- The scan was left: there were more entries than there is room for. -/
def Overflowed (st : ScanState) (found : List ComputeDeviceRaw) : Prop :=
  maxComputeDevices ≤ found.length ∧ st.devices.entries = found.take maxComputeDevices

variable {mech space}

theorem Overflowed.append {st : ScanState} {found : List ComputeDeviceRaw}
    (more : List ComputeDeviceRaw) (h : Overflowed st found) :
    Overflowed st (found ++ more) := by
  refine ⟨?_, ?_⟩
  · rw [List.length_append]
    exact h.1.trans (Nat.le_add_right _ _)
  · rw [h.2, List.take_append_of_le_length h.1]

theorem scanFunction_outcome (bus device : UInt8) (st : ScanState) (function : UInt8)
    (found : List ComputeDeviceRaw) (hst : Recorded space st found) :
    Loop.Outcome (Recorded space) Overflowed
      (found ++ (entryAt mech space bus device function).toList)
      (scanFunction mech bus device st function) := by
  obtain ⟨rfl, rfl⟩ := hst
  simp only [scanFunction, entryAt]
  cases readPciHeader mech st.space bus device function with
  | none => exact ⟨rfl, (List.append_nil _).symm⟩
  | some header =>
    simp only [Option.bind_some]
    cases classifyPciDevice header with
    | none => exact ⟨rfl, (List.append_nil _).symm⟩
    | some kind =>
      simp only [Option.map_some, Option.toList_some]
      split
      · next hroom => exact ⟨probeBarSize_snd mech st.space bus device function 0,
          Buffer.entries_add _ hroom _⟩
      · next hfull =>
        have hlen : maxComputeDevices ≤ st.devices.entries.length := by
          rw [Buffer.length_entries]
          exact not_lt.mp hfull
        refine Overflowed.append _ ⟨hlen, ?_⟩
        rw [List.take_of_length_le]
        rw [Buffer.length_entries]
        exact st.devices.count_le

theorem scanDevice_outcome (bus : UInt8) (st : ScanState) (device : UInt8)
    (found : List ComputeDeviceRaw) (hst : Recorded space st found) :
    Loop.Outcome (Recorded space) Overflowed (found ++ deviceEntries mech space bus device)
      (scanDevice mech bus st device) := by
  rw [scanDevice, deviceEntries, hst.1]
  cases readPciHeader mech space bus device 0 with
  | none => exact ⟨hst.1, hst.2.trans (List.append_nil _).symm⟩
  | some header0 =>
    exact Loop.loop_collect (scanFunction_outcome bus device) (fun _ _ more h => h.append more)
      _ st found hst

/-- The scan records the entries it can reach, in order, as far as there is room. -/
theorem entries_scan (mech : Mechanism) (space : ConfigSpace) :
    (scan mech space).devices.entries = (discoverable mech space).take maxComputeDevices := by
  have hbus : ∀ st bus found, Recorded space st found →
      Loop.Outcome (Recorded space) Overflowed
        (found ++ (bytes 32).flatMap (deviceEntries mech space bus)) (scanBus mech st bus) :=
    fun st bus found hst => Loop.loop_collect (scanDevice_outcome bus)
      (fun _ _ more h => h.append more) _ st found hst
  rw [scan, discoverable]
  generalize bytes 256 = buses
  have hscan := Loop.loop_collect hbus (fun _ _ more h => h.append more) buses
    ⟨⟨Vector.replicate _ .zero, 0, Nat.zero_le _⟩, space⟩ [] ⟨rfl, rfl⟩
  rw [List.nil_append] at hscan
  refine hscan.final (fun st hst => ?_) (fun st hst => hst.2)
  -- a scan that was not left has found no more than fits
  rw [hst.2, List.take_of_length_le]
  rw [← hst.2, Buffer.length_entries]
  exact st.devices.count_le

end Found

theorem enumerateComputeDevices_new (arch : Arch) (ecamBase : UInt64) (space : ConfigSpace) :
    (ComputeDiscovery.new arch ecamBase space).enumerateComputeDevices =
      (discoverable (mechanism arch ecamBase) space).take maxComputeDevices :=
  entries_scan _ _

theorem bytes_succ (n : ℕ) :
    bytes (n + 1) = 0 :: (List.range n).map fun i => UInt8.ofNat (i + 1) := by
  rw [bytes, List.range_succ_eq_map, List.map_cons, List.map_map]
  rfl

/-- The functions of bus 0 are among those the scan can reach. -/
theorem length_firstBus_le (mech : Mechanism) (space : ConfigSpace) :
    ((bytes 32).flatMap (deviceEntries mech space 0)).length ≤
      (discoverable mech space).length := by
  rw [discoverable, bytes_succ 255, List.flatMap_cons, List.length_append]
  exact Nat.le_add_right _ _

/-- No discovered device carries an index of its own, and none a name. -/
theorem unnamed_of_mem_deviceEntries {mech : Mechanism} {space : ConfigSpace}
    {bus device : UInt8} {d : ComputeDeviceRaw} (h : d ∈ deviceEntries mech space bus device) :
    d.deviceIndex = 0 ∧ d.shortNameLen = 0 := by
  rw [deviceEntries] at h
  split at h
  · cases h
  · obtain ⟨function, -, hd⟩ := List.mem_flatMap.mp h
    obtain ⟨header, -, hd⟩ := Option.bind_eq_some_iff.mp (Option.mem_toList.mp hd)
    obtain ⟨kind, -, rfl⟩ := Option.map_eq_some_iff.mp hd
    exact ⟨rfl, rfl⟩

theorem unnamed_of_mem_enumerate {arch : Arch} {ecamBase : UInt64} {space : ConfigSpace}
    {d : ComputeDeviceRaw}
    (h : d ∈ (ComputeDiscovery.new arch ecamBase space).enumerateComputeDevices) :
    d.deviceIndex = 0 ∧ d.shortNameLen = 0 := by
  rw [enumerateComputeDevices_new] at h
  obtain ⟨bus, -, hbus⟩ := List.mem_flatMap.mp (List.mem_of_mem_take h)
  obtain ⟨device, -, hdevice⟩ := List.mem_flatMap.mp hbus
  exact unnamed_of_mem_deviceEntries hdevice

end SimurghHal.Compute
