import SimurghHal.Core.Image
import SimurghHal.Cpu.Features
import SimurghHal.DeviceTree.Complete
import SimurghHal.Devices.ApicModes
import SimurghHal.Devices.ComputeScan
import SimurghHal.Firmware.Accounting
import SimurghHal.Firmware.AcpiTables
import SimurghHal.Manifest.Conversion

/-!
# What the kernel is handed (`hal-*/src/lib.rs`)

The constructors run one after the other, each on its part of the machine, and what they have
found goes through the raw manifest into the one the kernel works with. The entry points leave
out some of the arguments that the constructors declare, which are given here. A machine is
described by its firmware tables, its configuration space and its registers, and the kernel's
manifest by what there is in such a machine (`handover`).
-/

namespace SimurghHal

open Manifest Manifest.Dynamic Compute Power

namespace Interrupt

open Manifest

/-- `detected_kind`. -/
def Apic.ApicMode.detectedKind : Apic.ApicMode → InterruptControllerKindRaw
  | .xapic _ => .apicXapic
  | .x2apic => .apicX2apic

/-- `primary_base`. -/
def Apic.ApicMode.primaryBase : Apic.ApicMode → UInt64
  | .xapic mmioBase => mmioBase
  | .x2apic => 0

/-- What a controller that has just been constructed says of itself. -/
def Apic.report (mode : Apic.ApicMode) : InterruptReport :=
  ⟨mode.detectedKind, mode.primaryBase, none, UInt32.ofNat Apic.irqTableSize, 1⟩

def Gic.report (gicdBase : UInt64) : InterruptReport :=
  ⟨.gicv3, gicdBase, none, UInt32.ofNat Gic.maxTrackedIntids, 1⟩

def Plic.report (plicBase : UInt64) : InterruptReport :=
  ⟨.plicClic, plicBase, none, UInt32.ofNat Plic.maxTrackedSources, 1⟩

end Interrupt

def Riscv64.qemuVirtDefaultTimebaseFrequencyHz : UInt64 := 10000000

/-- `Timer::new`. -/
def Riscv64.Timer.new (sbiTimeAvailable : Bool) : Riscv64.Timer :=
  ⟨qemuVirtDefaultTimebaseFrequencyHz, sbiTimeAvailable⟩

namespace Handover

/-- The constructors behind the first two, and `built_hardware_manifest`. One core is counted. -/
def assemble {arch : Arch} (memory : MemoryReport) (ecamBase : UInt64) (space : ConfigSpace)
    (rdmsr : UInt32 → UInt64) (featureFlags : UInt64) (interrupt : InterruptReport)
    (timer : Timer arch) : HardwareManifestRaw :=
  let compute := ComputeDiscovery.new arch ecamBase space
  let power := PowerThermalImpl.new arch rdmsr compute
  builtHardwareManifest memory compute power ⟨1, featureFlags⟩ interrupt timer

/-! ### The facts about a machine -/

/-- What there is to find, apart from the compute devices. -/
structure Facts (arch : Arch) where
  regions : List MemoryRegionRaw
  length_regions : regions.length ≤ maxMemoryRegions
  iommuPresent : Bool
  features : Cpu.Feature → Bool
  interrupt : InterruptReport
  timer : Timer arch
  rdmsr : UInt32 → UInt64
  ecamBase : UInt64
  space : ConfigSpace

/-- The functions that are compute devices, with their kinds. -/
def computeFunctions (space : ConfigSpace) : List (PciFunction × ComputeKindRaw) :=
  PciFunction.all.filterMap fun p => (kindAt space p).map fun kind => (p, kind)

/-- A device in the kernel's manifest. -/
def computeDevice (Cap : Type) (space : ConfigSpace) (k : ℕ)
    (found : PciFunction × ComputeKindRaw) : ComputeDevice Cap where
  kind := .fromRaw found.2
  vendor := (headerAt space found.1).vendorId.toUInt32
  dedicatedMemoryBytes := barSize (space (found.1.register 0x10))
  unifiedMemoryCapable := false
  bandwidthToCpuMbps := 0
  name := ""
  deviceIndex := UInt32.ofNat k
  capabilityToken := none

/-- A domain for the package, and one for each of the first 15 devices. These have not been
numbered yet when the domains are made. -/
def powerDomains (dvfs thermal : Bool) (deviceCount : ℕ) : List PowerDomain :=
  ⟨0, none, dvfs, thermal⟩ ::
    (List.range (min (maxPowerDomains - 1) deviceCount)).map fun k =>
      ⟨UInt32.ofNat (k + 1), some 0, false, false⟩

namespace Facts

variable {arch : Arch} (facts : Facts arch)

/-- The devices there is room for. -/
def devices : List (PciFunction × ComputeKindRaw) :=
  (computeFunctions facts.space).take maxComputeDevices

/-- The manifest the kernel works with. -/
def inventory (Cap : Type) : HardwareManifest Cap where
  cpu := ⟨1, Cpu.Feature.flags (Cpu.Feature.all.filter
    (Function.update facts.features .iommuCapable facts.iommuPresent))⟩
  memoryRegions := facts.regions.map .fromRaw
  computeDevices := facts.devices.mapIdx (computeDevice Cap facts.space)
  interruptController :=
    ⟨.fromRaw facts.interrupt.detectedKind, facts.interrupt.primaryBase,
      facts.interrupt.secondaryBase, facts.interrupt.irqLineCount,
      facts.interrupt.ipiTargetCoreCount⟩
  timer :=
    ⟨.fromRaw facts.timer.detectedKind, facts.timer.frequencyHz, facts.timer.supportsTickless⟩
  powerDomains := powerDomains (packageFlags arch facts.rdmsr).1 (packageFlags arch facts.rdmsr).2
    facts.devices.length

/-- The manifest the crate assembles once the firmware's tables have been read. -/
def manifest : HardwareManifestRaw :=
  assemble ⟨facts.regions, facts.iommuPresent⟩ facts.ecamBase facts.space facts.rdmsr
    (Cpu.Feature.flags (Cpu.Feature.all.filter facts.features)) facts.interrupt facts.timer

end Facts

/-! ### From the raw manifest to the kernel's -/

/-- Pushing does not change the number of cores. -/
theorem cpuCoreCount_pushAll (m : HardwareManifestRaw) (ops : List PushOp) :
    (pushAll m ops).cpuCoreCount = m.cpuCoreCount := by
  induction ops generalizing m with
  | nil => rfl
  | cons op ops ih =>
    have hown := op.push_onlyOwnTable m
    rw [pushAll, List.foldl_cons, ← pushAll, ih]
    cases op <;> rw [hown]

theorem mapM_mapIdx_map {α β γ δ : Type} {f : γ → Option δ} {e : α → β} {g : ℕ → β → γ}
    {h : ℕ → α → δ} (hf : ∀ i a, f (g i (e a)) = some (h i a)) (xs : List α) :
    ((xs.map e).mapIdx g).mapM f = some (xs.mapIdx h) := by
  induction xs generalizing g h with
  | nil => rfl
  | cons x xs ih =>
    rw [List.map_cons, List.mapIdx_cons, List.mapIdx_cons, List.mapM_cons, hf,
      ih fun i => hf (i + 1)]
    rfl

/-- What the scan records of a function. -/
def recorded (space : ConfigSpace) (found : PciFunction × ComputeKindRaw) : ComputeDeviceRaw :=
  deviceEntry (headerAt space found.1) found.2 (barSize (space (found.1.register 0x10)))

theorem fromRaw_recorded (Cap : Type) (space : ConfigSpace) (k : ℕ)
    (found : PciFunction × ComputeKindRaw) :
    ComputeDevice.fromRaw Cap { recorded space found with deviceIndex := UInt32.ofNat k } =
      some (computeDevice Cap space k found) := by
  have hname : (recorded space found).shortNameLen.toNat ≤ shortNameMaxLen :=
    (by decide : (0 : UInt8).toNat ≤ shortNameMaxLen)
  rw [ComputeDevice.fromRaw, if_pos hname, computeDevice, recorded]
  generalize barSize (space (found.1.register 0x10)) = dedicatedMemoryBytes
  cases dedicatedMemoryBytes <;> rfl

namespace Facts

variable {arch : Arch} (facts : Facts arch)

theorem enumerateComputeDevices_eq :
    (ComputeDiscovery.new arch facts.ecamBase facts.space).enumerateComputeDevices =
      facts.devices.map (recorded facts.space) := by
  rw [enumerateComputeDevices_new, discoverable_eq, devices, computeFunctions, List.map_take,
    List.map_filterMap]
  refine congrArg _ (congrArg (List.filterMap · _) (funext fun p => ?_))
  rw [reportAt, Option.map_map]
  rfl

theorem mapM_fromRaw_numbered (Cap : Type) :
    (numbered (ComputeDiscovery.new arch facts.ecamBase facts.space).enumerateComputeDevices).mapM
        (ComputeDevice.fromRaw Cap) =
      some (facts.devices.mapIdx (computeDevice Cap facts.space)) := by
  rw [enumerateComputeDevices_eq, numbered]
  exact mapM_mapIdx_map (fromRaw_recorded Cap facts.space) facts.devices

theorem map_fromRaw_domains :
    (PowerThermalImpl.new arch facts.rdmsr
        (ComputeDiscovery.new arch facts.ecamBase facts.space)).enumeratePowerDomains.map
        PowerDomain.fromRaw =
      powerDomains (packageFlags arch facts.rdmsr).1 (packageFlags arch facts.rdmsr).2
        facts.devices.length := by
  rw [enumeratePowerDomains_new, enumerateComputeDevices_eq, domainList, List.map_cons,
    powerDomains]
  refine congrArg₂ List.cons rfl (List.ext_getElem (by simp) fun k hk hk' => ?_)
  simp only [List.getElem_map, List.getElem_mapIdx, List.getElem_take, List.getElem_range]
  rfl

theorem fromRaw_interrupt (interrupt : InterruptReport) :
    InterruptControllerInfo.fromRaw
        { kind := interrupt.detectedKind
          primaryBase := interrupt.primaryBase
          hasSecondary := interrupt.secondaryBase.isSome
          secondaryBase := interrupt.secondaryBase.getD 0
          irqLineCount := interrupt.irqLineCount
          ipiTargetCoreCount := interrupt.ipiTargetCoreCount } =
      ⟨.fromRaw interrupt.detectedKind, interrupt.primaryBase, interrupt.secondaryBase,
        interrupt.irqLineCount, interrupt.ipiTargetCoreCount⟩ := by
  rw [InterruptControllerInfo.fromRaw]
  cases interrupt.secondaryBase <;> rfl

/-- The raw manifest stands for what there is in the machine. -/
theorem fromRaw_manifest (Cap : Type) :
    HardwareManifest.fromRaw Cap facts.manifest = some (facts.inventory Cap) := by
  let compute := ComputeDiscovery.new arch facts.ecamBase facts.space
  obtain ⟨hregions, hdevices, hdomains⟩ := builtHardwareManifest_tables
    ⟨facts.regions, facts.iommuPresent⟩ compute (.new arch facts.rdmsr compute)
    ⟨1, Cpu.Feature.flags (Cpu.Feature.all.filter facts.features)⟩ facts.interrupt facts.timer
  have hcores := cpuCoreCount_pushAll
    { HardwareManifestRaw.zeroed with
      cpuCoreCount := (1 : UInt64).toUInt32
      cpuFeatureFlags := Cpu.Feature.flags (Cpu.Feature.all.filter facts.features) }
    (buildOps facts.regions compute.enumerateComputeDevices
      (PowerThermalImpl.new arch facts.rdmsr compute).enumeratePowerDomains)
  simp only [pushAll, buildOps, List.foldl_append, List.foldl_map] at hcores
  have hflags := Cpu.featureFlags_markIommuCapable 1 facts.features facts.iommuPresent
  rw [List.take_of_length_le facts.length_regions] at hregions
  rw [HardwareManifest.fromRaw_eq, manifest, assemble, hregions, hdevices, hdomains,
    Option.bind_some, Option.bind_some, mapM_fromRaw_numbered, Option.bind_some,
    Option.map_some, inventory, map_fromRaw_domains]
  congr 3
  · exact congrArg UInt32.toNat hcores
  · exact fromRaw_interrupt facts.interrupt

end Facts

/-! ### The machines -/

open Firmware

/-- The RSDP leads to these ACPI tables. Without an RSDP or an XSDT there are none. -/
def Lists (mem : Mem) (rsdpPhys : UInt64) (listing : List Table) : Prop :=
  Describes mem rsdpPhys listing ∨
    listing = [] ∧ (rsdpPhys = 0 ∨ u64At mem (rsdpPhys + 24) = 0)

/-- A table with this signature is listed. -/
def hasTable (listing : List Table) (signature : List UInt8) : Bool :=
  listing.any fun table => table.signature = signature

theorem Lists.tables_at {mem : Mem} {rsdpPhys : UInt64} {listing : List Table}
    (h : Lists mem rsdpPhys listing) :
    List.Forall₂ (fun addr (table : Table) => table.At mem addr) (tables mem rsdpPhys) listing := by
  obtain hdescribes | ⟨rfl, hnone⟩ := h
  · exact hdescribes.tables_at
  · have hempty : tables mem rsdpPhys = [] := by
      rw [tables]
      split
      · rfl
      · next hrsdp => exact if_pos (hnone.resolve_left hrsdp)
    rw [hempty]
    exact .nil

theorem hasTable_iff {listing : List Table} {signature : List UInt8} :
    hasTable listing signature = true ↔ ∃ table ∈ listing, table.signature = signature := by
  simp only [hasTable, List.any_eq_true, decide_eq_true_iff]

theorem length_specRegions_le (mem : Mem) (uefiMemoryMap : UInt64) (iommuPresent : Bool) :
    (specRegions mem uefiMemoryMap iommuPresent).length ≤ maxMemoryRegions := by
  rw [specRegions, List.length_map]
  exact length_firstDescriptors_le

namespace X86_64

open Interrupt SimurghHal.X86_64 Firmware.X86_64

/-- What the constructors read, with the ACPI tables that stand in the memory. -/
structure Machine where
  mem : Mem
  uefiMemoryMap : UInt64
  listing : List Table
  lists : Lists mem (locateAcpiRsdp mem uefiMemoryMap) listing
  cpuid : CpuidSource
  rdmsr : UInt32 → UInt64
  hpetPresent : Bool
  space : ConfigSpace

namespace Machine

variable (machine : Machine)

def interrupt : InterruptReport :=
  Apic.report (.new (machine.cpuid 1 0).ecx (machine.rdmsr Apic.ia32ApicBaseMsr))

def timer : SimurghHal.Timer .x86_64 := Timer.new machine.cpuid machine.hpetPresent

/-- The manifest of the boot, with bounded fuel. -/
def manifest (fuel : ℕ) : Option HardwareManifestRaw :=
  (Memory.fromUefiMemoryMap fuel machine.mem machine.uefiMemoryMap).map fun memory =>
    assemble ⟨memory.physicalMemoryMap, memory.iommuPresent⟩ 0 machine.space machine.rdmsr
      (Cpu.X86_64.detectFeatureFlags machine.cpuid) machine.interrupt machine.timer

/-- An IOMMU is announced by a DMAR. -/
def facts : Facts .x86_64 where
  regions := specRegions machine.mem machine.uefiMemoryMap (hasTable machine.listing dmarSignature)
  length_regions := length_specRegions_le _ _ _
  iommuPresent := hasTable machine.listing dmarSignature
  features := Cpu.X86_64.reported machine.cpuid
  interrupt := machine.interrupt
  timer := machine.timer
  rdmsr := machine.rdmsr
  ecamBase := 0
  space := machine.space

theorem acpiDmarPresent_eq :
    acpiDmarPresent machine.mem (locateAcpiRsdp machine.mem machine.uefiMemoryMap) =
      hasTable machine.listing dmarSignature :=
  Bool.eq_iff_iff.mpr ((any_signature_iff machine.lists.tables_at).trans hasTable_iff.symm)

theorem iommuPresent_eq {fuel : ℕ} {memory : Memory}
    (h : Memory.fromUefiMemoryMap fuel machine.mem machine.uefiMemoryMap = some memory) :
    memory.iommuPresent = hasTable machine.listing dmarSignature := by
  rw [Memory.fromUefiMemoryMap, Option.map_eq_some_iff] at h
  obtain ⟨parsed, -, rfl⟩ := h
  rw [← machine.acpiDmarPresent_eq]

theorem settles_manifest :
    Loop.Settles (fun fuel => machine.manifest fuel) machine.facts.manifest := by
  obtain ⟨memory, hmemory⟩ :=
    exists_settles_fromUefiMemoryMap machine.mem machine.uefiMemoryMap
  obtain ⟨enough, henough⟩ := hmemory
  have hmap := henough enough le_rfl
  have hregions := physicalMemoryMap_eq hmap
  have hiommu := machine.iommuPresent_eq hmap
  have hvalue : assemble ⟨memory.physicalMemoryMap, memory.iommuPresent⟩ 0 machine.space
      machine.rdmsr (Cpu.X86_64.detectFeatureFlags machine.cpuid) machine.interrupt
      machine.timer = machine.facts.manifest := by
    rw [hregions, hiommu, Cpu.X86_64.detectFeatureFlags_eq]
    simp only [Facts.manifest, facts]
  rw [← hvalue]
  exact Loop.Settles.map ⟨enough, henough⟩ _

end Machine

end X86_64

namespace Arm64

open Interrupt SimurghHal.Arm64 Firmware.Arm64

structure Machine where
  mem : Mem
  uefiMemoryMap : UInt64
  listing : List Table
  lists : Lists mem (locateAcpiRsdp mem uefiMemoryMap) listing
  ids : Cpu.Arm64.IdRegisters
  cntfrq : UInt64
  ecamBase : UInt64
  space : ConfigSpace

namespace Machine

variable (machine : Machine)

def timer : SimurghHal.Timer .arm64 := (Timer.new machine.cntfrq).1

/-- The manifest of the boot, with bounded fuel. The constructors read no MSRs. -/
def manifest (fuel : ℕ) : Option HardwareManifestRaw :=
  (Memory.fromUefiMemoryMap fuel machine.mem machine.uefiMemoryMap).map fun memory =>
    assemble ⟨memory.physicalMemoryMap, memory.iommuPresent⟩ machine.ecamBase machine.space
      (fun _ => 0) (Cpu.Arm64.detectFeatureFlags machine.ids) (Gic.report memory.gicdBase)
      machine.timer

/-- The base of the distributor, or the one that is assumed. -/
def gicdBase : UInt64 := (discovered machine.listing).gicdBase.getD qemuVirtDefaultGicdBase

/-- An IOMMU is announced by an IORT. -/
def facts : Facts .arm64 where
  regions := specRegions machine.mem machine.uefiMemoryMap (hasTable machine.listing iortSignature)
  length_regions := length_specRegions_le _ _ _
  iommuPresent := hasTable machine.listing iortSignature
  features := Cpu.Arm64.reported machine.ids
  interrupt := Gic.report machine.gicdBase
  timer := machine.timer
  rdmsr := fun _ => 0
  ecamBase := machine.ecamBase
  space := machine.space

theorem settles_acpiDiscover :
    Loop.Settles (fun fuel =>
      acpiDiscover fuel machine.mem (locateAcpiRsdp machine.mem machine.uefiMemoryMap))
      (discovered machine.listing) := by
  have hstep : ∀ addr (table : Table) result, table.At machine.mem addr →
      Loop.Settles (fun fuel => discoverTable fuel machine.mem result addr)
        (table.contribute result) :=
    fun _ _ result hat => settles_discoverTable hat result
  exact Loop.Settles.foldlM hstep machine.lists.tables_at _

theorem smmuPresent_eq :
    (discovered machine.listing).smmuPresent = hasTable machine.listing iortSignature :=
  Bool.eq_iff_iff.mpr ((smmuPresent_discovered _).trans hasTable_iff.symm)

theorem exists_settles_memory :
    ∃ memory, Loop.Settles
        (fun fuel => Memory.fromUefiMemoryMap fuel machine.mem machine.uefiMemoryMap) memory ∧
      memory.iommuPresent = (discovered machine.listing).smmuPresent ∧
      memory.gicdBase = machine.gicdBase := by
  obtain ⟨parsed, hparsed, -, -⟩ := exists_settles_parse machine.mem machine.uefiMemoryMap
  exact ⟨_, hparsed.bind (machine.settles_acpiDiscover.map _), rfl, rfl⟩

theorem settles_manifest :
    Loop.Settles (fun fuel => machine.manifest fuel) machine.facts.manifest := by
  obtain ⟨memory, ⟨enough, henough⟩, hiommu, hbase⟩ := machine.exists_settles_memory
  have hregions := physicalMemoryMap_eq (henough enough le_rfl)
  have hvalue : assemble ⟨memory.physicalMemoryMap, memory.iommuPresent⟩ machine.ecamBase
      machine.space (fun _ => 0) (Cpu.Arm64.detectFeatureFlags machine.ids)
      (Gic.report memory.gicdBase) machine.timer = machine.facts.manifest := by
    rw [hregions, hiommu, hbase, machine.smmuPresent_eq, Cpu.Arm64.detectFeatureFlags_eq]
    simp only [Facts.manifest, facts]
  rw [← hvalue]
  exact Loop.Settles.map ⟨enough, henough⟩ _

end Machine

end Arm64

namespace Riscv64

open Interrupt DeviceTree

/-- What the constructors read, with the tree that the blob encodes. -/
structure Machine where
  blob : Blob
  tree : Tree
  encoded : tree.Encoded blob
  sbi : Cpu.Riscv64.Sbi
  space : ConfigSpace

namespace Machine

variable (machine : Machine)

def timer : SimurghHal.Timer .riscv64 :=
  SimurghHal.Riscv64.Timer.new (Cpu.Riscv64.sbiProbeExtension machine.sbi Cpu.Riscv64.sbiExtTime)

/-- The manifest of the boot, with bounded fuel. The base of the configuration space is a
constant. -/
def manifest (fuel : ℕ) : Option HardwareManifestRaw :=
  (Memory.fromDeviceTree fuel machine.blob).map fun memory =>
    assemble ⟨memory.physicalMemoryMap, memory.iommuPresent⟩ 0 machine.space (fun _ => 0)
      Cpu.Riscv64.detectFeatureFlags (Plic.report memory.plicBase) machine.timer

/-- Some `compatible` property has the text `iommu` in it. -/
def hasIommu : Bool :=
  machine.tree.root.properties.any fun (name, value) =>
    name = compatibleName && containsText iommuText value

/-- The tree has a say in the IOMMU only: of the memory and the interrupt controller the
defaults are reported. -/
def facts : Facts .riscv64 where
  regions := [⟨qemuVirtDefaultMemoryBase, qemuVirtDefaultMemorySize, .usable, machine.hasIommu⟩]
  length_regions := (by decide : 1 ≤ maxMemoryRegions)
  iommuPresent := machine.hasIommu
  features := Cpu.Riscv64.reported
  interrupt := Plic.report qemuVirtDefaultPlicBase
  timer := machine.timer
  rdmsr := fun _ => 0
  ecamBase := 0
  space := machine.space

theorem hasIommu_iff : machine.hasIommu = true ↔ machine.tree.root.HasIommu := by
  simp only [hasIommu, Body.HasIommu, List.any_eq_true, Bool.and_eq_true, decide_eq_true_iff,
    containsText_iff, Prod.exists]
  constructor
  · rintro ⟨name, value, hmem, rfl, htext⟩
    exact ⟨value, hmem, htext⟩
  · rintro ⟨value, hmem, htext⟩
    exact ⟨compatibleName, value, hmem, rfl, htext⟩

theorem exists_settles_memory :
    ∃ memory, Loop.Settles (fun fuel => Memory.fromDeviceTree fuel machine.blob) memory ∧
      memory.physicalMemoryMap = machine.facts.regions ∧
      memory.iommuPresent = machine.hasIommu ∧ memory.plicBase = qemuVirtDefaultPlicBase := by
  have hencoded := machine.encoded
  obtain ⟨fuel, hfuel⟩ := returns_of_encoded hencoded
  obtain ⟨header, hread⟩ := FdtHeader.exists_read hencoded.magic
  have htotal := (u32At machine.blob 4).toNat_lt
  have hwithin := hencoded.struct_within
  have hsize := hencoded.struct_size
  have hlt : (u32At machine.blob 8).toNat + machine.tree.block.size < 2 ^ 32 := by omega
  obtain ⟨hbase, hlength, hplic⟩ := nothingFound_block machine.blob machine.tree hlt
  obtain ⟨-, hhas⟩ := tracking_block hencoded.block hlt
  generalize ((machine.tree.block.tokens (u32At machine.blob 8).toNat).foldl
    (Tracking.handle machine.blob) .initial).result = result at hfuel hbase hlength hplic hhas
  have hiommu : result.iommuPresent = machine.hasIommu :=
    Bool.eq_iff_iff.mpr (hhas.trans machine.hasIommu_iff.symm)
  have hwalk : Loop.Settles (fun fuel => walkDeviceTree fuel machine.blob) result := by
    simp only [walkDeviceTree, hread] at hfuel ⊢
    exact Loop.Returns.settles ⟨fuel, hfuel⟩
  refine ⟨_, hwalk.map Memory.ofDiscovery, ?_, hiommu, ?_⟩
  · rw [Memory.physicalMemoryMap, Memory.ofDiscovery, BoundedTable.Buffer.entries_add, hbase,
      hlength, hiommu]
    rfl
  · rw [Memory.ofDiscovery, hplic]
    rfl

theorem settles_manifest :
    Loop.Settles (fun fuel => machine.manifest fuel) machine.facts.manifest := by
  obtain ⟨memory, hmemory, hregions, hiommu, hbase⟩ := machine.exists_settles_memory
  have hvalue : assemble ⟨memory.physicalMemoryMap, memory.iommuPresent⟩ 0 machine.space
      (fun _ => 0) Cpu.Riscv64.detectFeatureFlags (Plic.report memory.plicBase) machine.timer =
      machine.facts.manifest := by
    rw [hregions, hiommu, hbase, Cpu.Riscv64.detectFeatureFlags_eq]
    simp only [Facts.manifest, facts]
  rw [← hvalue]
  exact hmemory.map _

end Machine

end Riscv64

/-- A machine of an architecture. -/
def Machine : Arch → Type
  | .x86_64 => X86_64.Machine
  | .arm64 => Arm64.Machine
  | .riscv64 => Riscv64.Machine

namespace Machine

def manifest (fuel : ℕ) : {arch : Arch} → Machine arch → Option HardwareManifestRaw
  | .x86_64, machine => X86_64.Machine.manifest machine fuel
  | .arm64, machine => Arm64.Machine.manifest machine fuel
  | .riscv64, machine => Riscv64.Machine.manifest machine fuel

def facts : {arch : Arch} → Machine arch → Facts arch
  | .x86_64, machine => X86_64.Machine.facts machine
  | .arm64, machine => Arm64.Machine.facts machine
  | .riscv64, machine => Riscv64.Machine.facts machine

theorem settles_manifest {arch : Arch} (machine : Machine arch) :
    Loop.Settles (fun fuel => machine.manifest fuel) machine.facts.manifest := by
  cases arch with
  | x86_64 => exact X86_64.Machine.settles_manifest machine
  | arm64 => exact Arm64.Machine.settles_manifest machine
  | riscv64 => exact Riscv64.Machine.settles_manifest machine

end Machine

/-! ### The handover -/

/-- Linker symbols that are in order stay in order as addresses. -/
theorem linkerSymbolAddr_le {symbol symbol' : ℕ} (hle : symbol ≤ symbol') (hlt : symbol' < 2 ^ 64) :
    linkerSymbolAddr symbol ≤ linkerSymbolAddr symbol' := by
  rw [UInt64.le_iff_toNat_le, toNat_linkerSymbolAddr (hle.trans_lt hlt), toNat_linkerSymbolAddr hlt]
  exact hle

/-- Every structure that the entry point assembles passes the check. -/
theorem validate_assembleBootInfo {arch : Arch} (layout : ImageLayout arch)
    (hardwareManifest : HardwareManifestRaw) (currentPageTablePhys : UInt64)
    (bootCoreId : UInt32) :
    (assembleBootInfo layout hardwareManifest currentPageTablePhys bootCoreId).validate =
      .ok () := by
  have hfits : bootStackTop arch layout.toSectionSizes < 2 ^ 64 := layout.fits
  have htop : bootStackBottom arch layout.toSectionSizes ≤
      bootStackTop arch layout.toSectionSizes := Nat.le_add_right _ _
  obtain ⟨hstart, hend⟩ := loadedSections_bounds arch layout.toSectionSizes
    (s := ⟨bootAddr arch, layout.boot⟩) (List.mem_cons_self ..)
  refine (BootInfo.validate_eq_ok_iff _).mpr ⟨rfl, rfl, ?_, ?_⟩
  · refine linkerSymbolAddr_le (hstart.trans ((Nat.le_add_right _ _).trans hend)) ?_
    exact lt_of_le_of_lt (Nat.sub_le _ _) hfits
  · exact linkerSymbolAddr_le htop hfits

/-- The boot comes to an end on every machine with well-formed firmware tables. The structure it
leaves behind passes its check, and the kernel's manifest is the inventory of the machine. -/
theorem handover (Cap : Type) {arch : Arch} (machine : Machine arch) (layout : ImageLayout arch)
    (currentPageTablePhys : UInt64) (bootCoreId : UInt32) :
    ∃ bootInfo,
      Loop.Settles (fun fuel => (machine.manifest fuel).map fun hardwareManifest =>
        assembleBootInfo layout hardwareManifest currentPageTablePhys bootCoreId) bootInfo ∧
      bootInfo.validate = .ok () ∧
      HardwareManifest.fromRaw Cap bootInfo.hardwareManifest =
        some (machine.facts.inventory Cap) :=
  ⟨_, machine.settles_manifest.map _, validate_assembleBootInfo layout _ _ _,
    machine.facts.fromRaw_manifest Cap⟩

/-- QEMU's `virt` machine with the timer extension and no devices. -/
def Riscv64.virt : Riscv64.Machine where
  blob := DeviceTree.sampleBlob 0x8000000
  tree := DeviceTree.sampleTree 0x8000000
  encoded := DeviceTree.encoded_sample 0x8000000
  sbi := fun _ _ _ => (0, 1)
  space := fun _ => ⟨0xFFFFFFFF, 0⟩

/-- The kernel of that machine learns of its 128 MiB. -/
theorem handover_virt :
    ∃ bootInfo : BootInfo, bootInfo.validate = .ok () ∧
      (HardwareManifest.fromRaw Unit bootInfo.hardwareManifest).map (·.memoryRegions) =
        some [.fromRaw ⟨0x80000000, 0x8000000, .usable, false⟩] := by
  obtain ⟨bootInfo, -, hvalid, hmanifest⟩ :=
    handover Unit (show Machine .riscv64 from Riscv64.virt)
      ⟨⟨4096, 4096, 4096, 4096, 4096⟩, by decide⟩ 0 0
  refine ⟨bootInfo, hvalid, ?_⟩
  have hregions : Riscv64.virt.facts.regions = [⟨0x80000000, 0x8000000, .usable, false⟩] := by
    decide +kernel
  rw [hmanifest, Option.map_some, Facts.inventory]
  exact congrArg (fun regions => some (regions.map MemoryRegion.fromRaw)) hregions

end Handover

end SimurghHal
