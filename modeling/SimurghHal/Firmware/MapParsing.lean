import SimurghHal.Firmware.AcpiBounds
import SimurghHal.Firmware.UefiMap

/-!
# Parsing the UEFI memory map to the end

`from_uefi_memory_map` records the regions that the map lists, and looks into the ACPI tables on
the way. On ARM64 it scans the MADT, at offsets that are 32-bit words, and does not come back
from a MADT that leads the scan round in a circle.
-/

namespace SimurghHal.Firmware

/-- Parsing is the specification: on both architectures it comes to an end and gives the regions
that the map lists, which differ in the IOMMU flag alone. Only descriptors of the map are read. -/
structure ParsesBySpec (mem : Mem) (uefiMemoryMap : UInt64) : Prop where
  inside : ∃ parsed, Loop.Settles (fun fuel => parse fuel mem uefiMemoryMap) parsed ∧
    ∀ addr ∈ parsed.reads, InsideMap mem uefiMemoryMap addr
  x86_64 : ∃ memory, Loop.Settles
      (fun fuel => X86_64.Memory.fromUefiMemoryMap fuel mem uefiMemoryMap) memory ∧
    memory.physicalMemoryMap = specRegions mem uefiMemoryMap memory.iommuPresent
  arm64 : ∃ memory, Loop.Settles
      (fun fuel => Arm64.Memory.fromUefiMemoryMap fuel mem uefiMemoryMap) memory ∧
    memory.physicalMemoryMap = specRegions mem uefiMemoryMap memory.iommuPresent
  same : ∀ fuel memory memory',
    X86_64.Memory.fromUefiMemoryMap fuel mem uefiMemoryMap = some memory →
      Arm64.Memory.fromUefiMemoryMap fuel mem uefiMemoryMap = some memory' →
        memory.physicalMemoryMap.map (fun region => { region with behindIommu := false }) =
          memory'.physicalMemoryMap.map fun region => { region with behindIommu := false }

/-- The chain of sub-structures of a MADT ends: each has a length and is no distributor, up to
one that is past the table, has length zero or is a distributor. -/
def ChainEnds (mem : Mem) (madtAddr : UInt64) (length : UInt32) : Prop :=
  ∃ n, (∀ m < n, Arm64.IsSkipped mem madtAddr length (entryOffset mem madtAddr m)) ∧
    ¬ Arm64.IsSkipped mem madtAddr length (entryOffset mem madtAddr n)

/-- This for every MADT that the RSDP leads to. -/
def ChainsEnd (mem : Mem) (rsdpPhys : UInt64) : Prop :=
  ∀ addr ∈ tables mem rsdpPhys, (AcpiSdtHeader.read mem addr).signature = madtSignature →
    ChainEnds mem addr (AcpiSdtHeader.read mem addr).length

namespace Arm64

variable {mem : Mem} {rsdpPhys uefiMemoryMap : UInt64}

/-- Discovery has scanned every MADT by the time it comes back. -/
theorem chainsEnd_of_acpiDiscover {fuel : ℕ} {result : AcpiDiscoveryResult}
    (h : acpiDiscover fuel mem rsdpPhys = some result) : ChainsEnd mem rsdpPhys := by
  intro addr haddr hmadt
  obtain ⟨base, hbase⟩ := exists_scan_of_foldlM h addr haddr hmadt
  exact exists_settles_iff.mp ⟨base, Loop.Returns.settles ⟨fuel, hbase⟩⟩

theorem exists_settles_acpiDiscover (h : ChainsEnd mem rsdpPhys) :
    ∃ result, Loop.Settles (fun fuel => acpiDiscover fuel mem rsdpPhys) result :=
  Loop.exists_settles_foldlM _ _ fun addr haddr =>
    exists_settles_discoverTable fun hmadt => exists_settles_iff.mpr (h addr haddr hmadt)

/-- The map itself is always parsed, so that only the scans of the MADTs decide. -/
theorem exists_settles_fromUefiMemoryMap_iff :
    (∃ memory, Loop.Settles
        (fun fuel => Memory.fromUefiMemoryMap fuel mem uefiMemoryMap) memory) ↔
      ChainsEnd mem (locateAcpiRsdp mem uefiMemoryMap) := by
  constructor
  · rintro ⟨memory, enough, hmemory⟩
    obtain ⟨parsed, -, hrest⟩ := Option.bind_eq_some_iff.mp (hmemory enough le_rfl)
    obtain ⟨result, hresult, -⟩ := Option.map_eq_some_iff.mp hrest
    exact chainsEnd_of_acpiDiscover hresult
  · intro h
    obtain ⟨parsed, hparsed, -, -⟩ := exists_settles_parse mem uefiMemoryMap
    obtain ⟨acpi, hacpi⟩ := exists_settles_acpiDiscover h
    exact ⟨_, hparsed.bind (hacpi.map _)⟩

end Arm64

/-- Parsing is the specification exactly when the scans of the MADTs come to an end. Nothing else
in the map or the tables can keep it from that. -/
theorem parsesBySpec_iff (mem : Mem) (uefiMemoryMap : UInt64) :
    ParsesBySpec mem uefiMemoryMap ↔ ChainsEnd mem (locateAcpiRsdp mem uefiMemoryMap) := by
  constructor
  · intro h
    obtain ⟨memory, hmemory, -⟩ := h.arm64
    exact Arm64.exists_settles_fromUefiMemoryMap_iff.mp ⟨memory, hmemory⟩
  · intro h
    refine ⟨?_, ?_, ?_, ?_⟩
    · obtain ⟨parsed, hparsed, -, hreads⟩ := exists_settles_parse mem uefiMemoryMap
      refine ⟨parsed, hparsed, fun addr haddr => ?_⟩
      rw [hreads] at haddr
      exact insideMap_of_mem_reads haddr
    · obtain ⟨memory, enough, henough⟩ :=
        X86_64.exists_settles_fromUefiMemoryMap mem uefiMemoryMap
      exact ⟨memory, ⟨enough, henough⟩, X86_64.physicalMemoryMap_eq (henough enough le_rfl)⟩
    · obtain ⟨memory, enough, henough⟩ := Arm64.exists_settles_fromUefiMemoryMap_iff.mpr h
      exact ⟨memory, ⟨enough, henough⟩, Arm64.physicalMemoryMap_eq (henough enough le_rfl)⟩
    · intro fuel memory memory' hmemory hmemory'
      rw [X86_64.physicalMemoryMap_eq hmemory, Arm64.physicalMemoryMap_eq hmemory',
        map_specRegions_unmarked, map_specRegions_unmarked]

/-! ### A MADT without an end -/

/-- An empty map, an RSDP at `0x1000` and an XSDT at `0x1040` with one pointer, to a MADT at 4 GiB
that is one byte short of 4 GiB long and filled with sub-structures of four bytes. -/
def circularImage : Mem := fun addr =>
  if 0x100000008 ≤ addr then 4
  else
    ([(8, 40), (0x11, 0x10), (0x1018, 0x40), (0x1019, 0x10), (0x1044, 44), (0x1068, 1),
      (0x100000000, 0x41), (0x100000001, 0x50), (0x100000002, 0x49), (0x100000003, 0x43),
      (0x100000004, 0xFF), (0x100000005, 0xFF), (0x100000006, 0xFF),
      (0x100000007, 0xFF)].lookup addr).getD 0

theorem circularImage_of_le {offset : UInt32} (h : 8 ≤ offset.toNat) :
    circularImage (0x100000000 + offset.toUInt64) = 4 ∧
      circularImage (0x100000000 + offset.toUInt64 + 1) = 4 := by
  have hlt := offset.toNat_lt
  have haddr : (0x100000000 + offset.toUInt64).toNat = 2 ^ 32 + offset.toNat := by
    rw [UInt64.toNat_add, UInt32.toNat_toUInt64]
    simp only [UInt64.reduceToNat]
    omega
  have hnext : (0x100000000 + offset.toUInt64 + 1).toNat = 2 ^ 32 + offset.toNat + 1 := by
    rw [UInt64.toNat_add, haddr]
    simp only [UInt64.reduceToNat]
    omega
  constructor
  · refine if_pos ?_
    rw [UInt64.le_iff_toNat_le, haddr]
    simp only [UInt64.reduceToNat]
    omega
  · refine if_pos ?_
    rw [UInt64.le_iff_toNat_le, hnext]
    simp only [UInt64.reduceToNat]
    omega

/-- The offset behind the last sub-structure wraps to the signature of the table, whose second
byte is taken for a length. -/
theorem entryOffset_circularImage (n : ℕ) :
    (entryOffset circularImage 0x100000000 n).toNat % 4 = 0 ∧
      (entryOffset circularImage 0x100000000 n).toNat ≠ 4 := by
  induction n with
  | zero => decide
  | succ n ih =>
    obtain ⟨hmod, hne⟩ := ih
    rw [entryOffset]
    generalize entryOffset circularImage 0x100000000 n = offset at hmod hne
    have hlt := offset.toNat_lt
    by_cases hzero : offset = 0
    · subst hzero
      decide
    · have hpos : offset.toNat ≠ 0 := fun h => hzero (UInt32.toNat_inj.mp h)
      have hnext : (offset + (4 : UInt8).toUInt32).toNat = (offset.toNat + 4) % 2 ^ 32 :=
        UInt32.toNat_add ..
      rw [(circularImage_of_le (by omega)).2, hnext]
      omega

theorem isSkipped_circularImage (n : ℕ) :
    Arm64.IsSkipped circularImage 0x100000000 0xFFFFFFFF
      (entryOffset circularImage 0x100000000 n) := by
  obtain ⟨hmod, hne⟩ := entryOffset_circularImage n
  generalize entryOffset circularImage 0x100000000 n = offset at hmod hne
  have hlt := offset.toNat_lt
  by_cases hzero : offset = 0
  · subst hzero
    exact ⟨by decide, by decide, by decide⟩
  · have hpos : offset.toNat ≠ 0 := fun h => hzero (UInt32.toNat_inj.mp h)
    obtain ⟨htype, hlength⟩ := circularImage_of_le (show 8 ≤ offset.toNat by omega)
    refine ⟨?_, ?_, ?_⟩
    · rw [UInt32.lt_iff_toNat_lt]
      simp only [UInt32.reduceToNat]
      omega
    · rw [htype]
      decide
    · rw [hlength]
      decide

/-- The scan of that MADT goes round in a circle. -/
theorem not_parsesBySpec_circularImage : ¬ ParsesBySpec circularImage 0 := by
  intro h
  obtain ⟨memory, hmemory, -⟩ := h.arm64
  have hends := Arm64.exists_settles_fromUefiMemoryMap_iff.mp ⟨memory, hmemory⟩
  have hrsdp : locateAcpiRsdp circularImage 0 = 0x1000 := by decide +kernel
  have htables : tables circularImage 0x1000 = [0x100000000] := by decide +kernel
  have hread : AcpiSdtHeader.read circularImage 0x100000000 = ⟨madtSignature, 0xFFFFFFFF⟩ := by
    decide +kernel
  rw [hrsdp, ChainsEnd, htables] at hends
  obtain ⟨n, -, hn⟩ := hends 0x100000000 (List.mem_cons_self ..) (by rw [hread])
  rw [hread] at hn
  exact hn (isSkipped_circularImage n)

end SimurghHal.Firmware
