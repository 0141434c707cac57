import SimurghHal.Core.Memory
import SimurghHal.Firmware.Acpi

/-!
# The UEFI memory map (`from_uefi_memory_map` in `hal-x86_64` and `hal-arm64`)

The blob starts with a header of two words, the size of the descriptor array and the
size of one descriptor. The descriptors follow, and behind them the address of the ACPI
RSDP. Both crates parse the descriptors with the same code.
-/

namespace SimurghHal.Firmware

open Manifest BoundedTable

/-- `UefiMemoryType`. -/
inductive UefiMemoryType where
  | reservedMemoryType
  | loaderCode
  | loaderData
  | bootServicesCode
  | bootServicesData
  | runtimeServicesCode
  | runtimeServicesData
  | conventionalMemory
  | unusableMemory
  | acpiReclaimMemory
  | acpiMemoryNvs
  | memoryMappedIo
  | memoryMappedIoPortSpace
  | palCode
  | persistentMemory
  deriving DecidableEq, Repr

/-- `UefiMemoryType::from_u32`. -/
def UefiMemoryType.fromU32 (value : UInt32) : Option UefiMemoryType :=
  match value.toNat with
  | 0 => some .reservedMemoryType
  | 1 => some .loaderCode
  | 2 => some .loaderData
  | 3 => some .bootServicesCode
  | 4 => some .bootServicesData
  | 5 => some .runtimeServicesCode
  | 6 => some .runtimeServicesData
  | 7 => some .conventionalMemory
  | 8 => some .unusableMemory
  | 9 => some .acpiReclaimMemory
  | 10 => some .acpiMemoryNvs
  | 11 => some .memoryMappedIo
  | 12 => some .memoryMappedIoPortSpace
  | 13 => some .palCode
  | 14 => some .persistentMemory
  | _ => none

/-- `classify_uefi_type`. -/
def classifyUefiType (ty : UInt32) : MemoryRegionKindRaw :=
  match UefiMemoryType.fromU32 ty with
  | some .conventionalMemory | some .bootServicesCode | some .bootServicesData
  | some .loaderCode | some .loaderData => .usable
  | some .acpiReclaimMemory => .acpiReclaimable
  | some .acpiMemoryNvs => .acpiNvs
  | some .memoryMappedIo | some .memoryMappedIoPortSpace => .mmio
  | some .runtimeServicesCode | some .runtimeServicesData | some .reservedMemoryType
  | some .unusableMemory | some .palCode | none => .reserved
  | some .persistentMemory => .reserved

/-- `UefiMemoryDescriptor`, as far as it is used. -/
structure UefiMemoryDescriptor where
  ty : UInt32
  physicalStart : UInt64
  numberOfPages : UInt64
  deriving DecidableEq, Repr

/-- `size_of::<UefiMemoryDescriptor>()`. -/
def descriptorBytes : UInt64 := 40

def UefiMemoryDescriptor.read (mem : Mem) (addr : UInt64) : UefiMemoryDescriptor :=
  ⟨u32At mem addr, u64At mem (addr + 8), u64At mem (addr + 24)⟩

structure UefiMemoryMapHeader where
  mapSize : UInt64
  descriptorSize : UInt64
  deriving DecidableEq, Repr

/-- `size_of::<UefiMemoryMapHeader>()`. -/
def headerBytes : UInt64 := 16

def UefiMemoryMapHeader.read (mem : Mem) (uefiMemoryMap : UInt64) : UefiMemoryMapHeader :=
  ⟨u64At mem uefiMemoryMap, u64At mem (uefiMemoryMap + 8)⟩

structure DescriptorIter where
  current : UInt64
  remainingBytes : UInt64
  descriptorSize : UInt64
  deriving DecidableEq, Repr

/-- `DescriptorIter::next`. -/
def DescriptorIter.next (mem : Mem) (it : DescriptorIter) :
    Option (UefiMemoryDescriptor × DescriptorIter) :=
  if it.remainingBytes < it.descriptorSize ∨ it.descriptorSize < descriptorBytes then none
  else some (.read mem it.current, {
    current := it.current + it.descriptorSize
    remainingBytes := it.remainingBytes - it.descriptorSize
    descriptorSize := it.descriptorSize })

/-- The region for a descriptor. The product wraps. -/
def regionOf (descriptor : UefiMemoryDescriptor) : MemoryRegionRaw where
  baseAddr := descriptor.physicalStart
  lengthBytes := descriptor.numberOfPages * pageSize
  kind := classifyUefiType descriptor.ty
  behindIommu := false

/-- The regions recorded, and the addresses of the descriptors read for them. -/
structure Parsed where
  regions : Buffer MemoryRegionRaw maxMemoryRegions
  reads : List UInt64

/-- The loop body of `from_uefi_memory_map`. A descriptor is read before the loop is left
for want of space. -/
def parseBody (mem : Mem) (s : DescriptorIter × Parsed) :
    Option (Except Parsed (DescriptorIter × Parsed)) :=
  match s.1.next mem with
  | none => some (.error s.2)
  | some (descriptor, it) =>
    let reads := s.2.reads ++ [s.1.current]
    if h : s.2.regions.count < maxMemoryRegions then
      some (.ok (it, ⟨s.2.regions.add h (regionOf descriptor), reads⟩))
    else some (.error ⟨s.2.regions, reads⟩)

/-- The loop of `from_uefi_memory_map` with bounded fuel. -/
def parse (fuel : ℕ) (mem : Mem) (uefiMemoryMap : UInt64) : Option Parsed :=
  let header := UefiMemoryMapHeader.read mem uefiMemoryMap
  Loop.whileLoop (parseBody mem) fuel
    (⟨uefiMemoryMap + headerBytes, header.mapSize, header.descriptorSize⟩,
      ⟨⟨Vector.replicate _ .zero, 0, Nat.zero_le _⟩, []⟩)

/-- `locate_acpi_rsdp`. -/
def locateAcpiRsdp (mem : Mem) (uefiMemoryMap : UInt64) : UInt64 :=
  u64At mem (uefiMemoryMap + (headerBytes + (UefiMemoryMapHeader.read mem uefiMemoryMap).mapSize))

/-- Marks all regions when there is an IOMMU. -/
def markBehindIommu (iommuPresent : Bool) (regions : Buffer MemoryRegionRaw maxMemoryRegions) :
    Buffer MemoryRegionRaw maxMemoryRegions :=
  if iommuPresent then regions.mapEntries fun region => { region with behindIommu := true }
  else regions

namespace X86_64

/-- `Memory` of `hal-x86_64`. -/
structure Memory where
  regions : Buffer MemoryRegionRaw maxMemoryRegions
  iommuPresent : Bool

/-- `physical_memory_map`. -/
def Memory.physicalMemoryMap (memory : Memory) : List MemoryRegionRaw := memory.regions.entries

/-- `Memory::from_uefi_memory_map` with bounded fuel. -/
def Memory.fromUefiMemoryMap (fuel : ℕ) (mem : Mem) (uefiMemoryMap : UInt64) : Option Memory :=
  (parse fuel mem uefiMemoryMap).map fun parsed =>
    let iommuPresent := acpiDmarPresent mem (locateAcpiRsdp mem uefiMemoryMap)
    ⟨markBehindIommu iommuPresent parsed.regions, iommuPresent⟩

end X86_64

namespace Arm64

def qemuVirtDefaultGicdBase : UInt64 := 0x08000000

/-- `Memory` of `hal-arm64`. -/
structure Memory where
  regions : Buffer MemoryRegionRaw maxMemoryRegions
  iommuPresent : Bool
  gicdBase : UInt64

/-- `physical_memory_map`. -/
def Memory.physicalMemoryMap (memory : Memory) : List MemoryRegionRaw := memory.regions.entries

/-- `Memory::from_uefi_memory_map` with bounded fuel. -/
def Memory.fromUefiMemoryMap (fuel : ℕ) (mem : Mem) (uefiMemoryMap : UInt64) : Option Memory :=
  (parse fuel mem uefiMemoryMap).bind fun parsed =>
    (acpiDiscover fuel mem (locateAcpiRsdp mem uefiMemoryMap)).map fun acpi =>
      ⟨markBehindIommu acpi.smmuPresent parsed.regions, acpi.smmuPresent,
        acpi.gicdBase.getD qemuVirtDefaultGicdBase⟩

end Arm64

/-! ### What the map says -/

/-- The number of descriptors in the map. -/
def descriptorCount (header : UefiMemoryMapHeader) : ℕ :=
  if 40 ≤ header.descriptorSize.toNat then header.mapSize.toNat / header.descriptorSize.toNat
  else 0

/-- The offset of a descriptor in the blob. -/
def descriptorOffset (header : UefiMemoryMapHeader) (i : ℕ) : ℕ :=
  16 + i * header.descriptorSize.toNat

/-- One descriptor of the map. -/
def descriptorAt (mem : Mem) (uefiMemoryMap : UInt64) (i : ℕ) : UefiMemoryDescriptor :=
  .read mem (uefiMemoryMap +
    UInt64.ofNat (descriptorOffset (UefiMemoryMapHeader.read mem uefiMemoryMap) i))

/-- The region for a descriptor by the specification. -/
def specRegion (iommuPresent : Bool) (descriptor : UefiMemoryDescriptor) : MemoryRegionRaw where
  baseAddr := descriptor.physicalStart
  lengthBytes := UInt64.ofNat (descriptor.numberOfPages.toNat * 4096 % 2 ^ 64)
  kind := classifyUefiType descriptor.ty
  behindIommu := iommuPresent

/-- The descriptors there is room for. -/
def firstDescriptors (mem : Mem) (uefiMemoryMap : UInt64) : List UefiMemoryDescriptor :=
  (List.range (min (descriptorCount (UefiMemoryMapHeader.read mem uefiMemoryMap)) 64)).map
    (descriptorAt mem uefiMemoryMap)

/-- The regions by the specification. -/
def specRegions (mem : Mem) (uefiMemoryMap : UInt64) (iommuPresent : Bool) :
    List MemoryRegionRaw :=
  (firstDescriptors mem uefiMemoryMap).map (specRegion iommuPresent)

/-- The bytes of a descriptor at this address are all inside the map. -/
def InsideMap (mem : Mem) (uefiMemoryMap addr : UInt64) : Prop :=
  ∃ offset, addr = uefiMemoryMap + UInt64.ofNat offset ∧ 16 ≤ offset ∧
    offset + 40 ≤ 16 + (UefiMemoryMapHeader.read mem uefiMemoryMap).mapSize.toNat

section Parse

variable {mem : Mem} {uefiMemoryMap : UInt64} {header : UefiMemoryMapHeader}

/-- The loop has recorded the first `k` descriptors. -/
structure ParsedFirst (mem : Mem) (uefiMemoryMap : UInt64) (header : UefiMemoryMapHeader) (k : ℕ)
    (s : DescriptorIter × Parsed) : Prop where
  current : s.1.current = uefiMemoryMap + UInt64.ofNat (descriptorOffset header k)
  remaining : s.1.remainingBytes.toNat + k * header.descriptorSize.toNat = header.mapSize.toNat
  stride : s.1.descriptorSize = header.descriptorSize
  regions : s.2.regions.entries = (List.range k).map fun i =>
    regionOf (.read mem (uefiMemoryMap + UInt64.ofNat (descriptorOffset header i)))
  reads : s.2.reads =
    (List.range k).map fun i => uefiMemoryMap + UInt64.ofNat (descriptorOffset header i)

theorem ParsedFirst.count {k : ℕ} {s : DescriptorIter × Parsed}
    (h : ParsedFirst mem uefiMemoryMap header k s) : s.2.regions.count = k := by
  rw [← Buffer.length_entries, h.regions, List.length_map, List.length_range]

theorem lt_descriptorCount_iff (k : ℕ) :
    k < descriptorCount header ↔ 40 ≤ header.descriptorSize.toNat ∧
      (k + 1) * header.descriptorSize.toNat ≤ header.mapSize.toNat := by
  rw [descriptorCount]
  split
  · next hstride =>
    rw [← Nat.succ_le_iff, Nat.le_div_iff_mul_le (by omega)]
    exact (and_iff_right hstride).symm
  · next hstride =>
    exact ⟨fun h => absurd h (Nat.not_lt_zero k), fun h => absurd h.1 hstride⟩

/-- The iterator yields another descriptor exactly when the map has one. -/
theorem ParsedFirst.next_eq {k : ℕ} {s : DescriptorIter × Parsed}
    (h : ParsedFirst mem uefiMemoryMap header k s) :
    s.1.next mem = if k < descriptorCount header then
        some (.read mem s.1.current, {
          current := s.1.current + header.descriptorSize
          remainingBytes := s.1.remainingBytes - header.descriptorSize
          descriptorSize := header.descriptorSize })
      else none := by
  have hremaining := h.remaining
  have hmore : (s.1.remainingBytes < header.descriptorSize ∨
      header.descriptorSize < descriptorBytes) ↔ ¬ k < descriptorCount header := by
    rw [lt_descriptorCount_iff, UInt64.lt_iff_toNat_lt, UInt64.lt_iff_toNat_lt, Nat.succ_mul]
    simp only [descriptorBytes, UInt64.reduceToNat]
    omega
  rw [DescriptorIter.next, h.stride]
  by_cases hk : k < descriptorCount header
  · rw [if_neg (by rw [hmore]; exact not_not.mpr hk), if_pos hk]
  · rw [if_pos (hmore.mpr hk), if_neg hk]

/-- One iteration records one more descriptor. -/
theorem ParsedFirst.step {k : ℕ} {s : DescriptorIter × Parsed}
    (h : ParsedFirst mem uefiMemoryMap header k s) (hk : k < descriptorCount header)
    (hspace : k < maxMemoryRegions) :
    ∃ s', parseBody mem s = some (.ok s') ∧
      ParsedFirst mem uefiMemoryMap header (k + 1) s' := by
  have hcount : s.2.regions.count < maxMemoryRegions := by rwa [h.count]
  have hbody : parseBody mem s = some (.ok (⟨s.1.current + header.descriptorSize,
      s.1.remainingBytes - header.descriptorSize, header.descriptorSize⟩,
      ⟨s.2.regions.add hcount (regionOf (.read mem s.1.current)),
        s.2.reads ++ [s.1.current]⟩)) := by
    rw [parseBody, h.next_eq, if_pos hk]
    exact dif_pos hcount
  refine ⟨_, hbody, ?_, ?_, rfl, ?_, ?_⟩
  · rw [h.current, descriptorOffset, descriptorOffset, UInt64.add_assoc, Nat.succ_mul,
      ← Nat.add_assoc, UInt64.ofNat_add (_ + _), UInt64.ofNat_toNat]
  · obtain ⟨_, hfits⟩ := (lt_descriptorCount_iff k).mp hk
    have hremaining := h.remaining
    rw [Nat.succ_mul] at hfits ⊢
    have hle : header.descriptorSize ≤ s.1.remainingBytes := by
      rw [UInt64.le_iff_toNat_le]
      omega
    rw [UInt64.toNat_sub_of_le _ _ hle]
    omega
  · rw [Buffer.entries_add, h.regions, h.current, List.range_succ, List.map_append, List.map_singleton]
  · rw [h.reads, h.current, List.range_succ, List.map_append, List.map_singleton]

variable (mem uefiMemoryMap)

/-- The parser records the first 64 descriptors of the map, and reads at most one more. -/
theorem exists_settles_parse :
    let header := UefiMemoryMapHeader.read mem uefiMemoryMap
    ∃ parsed, Loop.Settles (fun fuel => parse fuel mem uefiMemoryMap) parsed ∧
      parsed.regions.entries = (List.range (min (descriptorCount header) 64)).map
        (fun i => regionOf (descriptorAt mem uefiMemoryMap i)) ∧
      parsed.reads = (List.range (min (descriptorCount header) 65)).map
        fun i => uefiMemoryMap + UInt64.ofNat (descriptorOffset header i) := by
  intro header
  let start : DescriptorIter × Parsed :=
    (⟨uefiMemoryMap + headerBytes, header.mapSize, header.descriptorSize⟩,
      ⟨⟨Vector.replicate _ .zero, 0, Nat.zero_le _⟩, []⟩)
  have hstart : ParsedFirst mem uefiMemoryMap header 0 start :=
    ⟨by simp [start, descriptorOffset, headerBytes], by simp [start], rfl, by simp [start, Buffer.entries],
      by simp [start]⟩
  -- the iterations before the one that leaves the loop
  have hreach : ∀ k, k ≤ descriptorCount header → k ≤ 64 → ∃ s,
      Loop.Reaches (parseBody mem) start s ∧ ParsedFirst mem uefiMemoryMap header k s := by
    intro k
    induction k with
    | zero => exact fun _ _ => ⟨start, .refl, hstart⟩
    | succ k ih =>
      intro hk hspace
      obtain ⟨s, hs, hfirst⟩ := ih (by omega) (by omega)
      obtain ⟨s', hbody, hnext⟩ := hfirst.step (by omega) (show k < 64 by omega)
      exact ⟨s', hs.tail hbody, hnext⟩
  by_cases hall : descriptorCount header ≤ 64
  · obtain ⟨s, hs, hfirst⟩ := hreach _ le_rfl hall
    have hleave : parseBody mem s = some (.error s.2) := by
      rw [parseBody, hfirst.next_eq, if_neg (lt_irrefl _)]
    refine ⟨s.2, ((Loop.returns_of_leave hleave).of_reaches hs).settles, ?_, ?_⟩
    · rw [Nat.min_eq_left hall]
      exact hfirst.regions
    · rw [Nat.min_eq_left (by omega)]
      exact hfirst.reads
  · obtain ⟨s, hs, hfirst⟩ := hreach 64 (by omega) le_rfl
    have hfull : ¬ s.2.regions.count < maxMemoryRegions := by
      rw [hfirst.count]
      exact lt_irrefl 64
    have hleave : parseBody mem s =
        some (.error ⟨s.2.regions, s.2.reads ++ [s.1.current]⟩) := by
      rw [parseBody, hfirst.next_eq, if_pos (by omega)]
      exact dif_neg hfull
    refine ⟨_, ((Loop.returns_of_leave hleave).of_reaches hs).settles, ?_, ?_⟩
    · rw [Nat.min_eq_right (by omega)]
      exact hfirst.regions
    · rw [Nat.min_eq_right (by omega), List.range_succ, List.map_append, List.map_singleton,
        ← hfirst.reads, ← hfirst.current]

variable {mem uefiMemoryMap}

theorem entries_of_parse {fuel : ℕ} {parsed : Parsed}
    (h : parse fuel mem uefiMemoryMap = some parsed) :
    parsed.regions.entries = (firstDescriptors mem uefiMemoryMap).map regionOf := by
  obtain ⟨parsed', hsettles, hentries, -⟩ := exists_settles_parse mem uefiMemoryMap
  have hreturns : Loop.Returns (parseBody mem) _ parsed := ⟨fuel, h⟩
  rw [hreturns.settles.unique hsettles, hentries, firstDescriptors, List.map_map]
  rfl

/-- Every descriptor read has its offset in the map, and lies inside it as a whole. -/
theorem insideMap_of_mem_reads {k : ℕ} {addr : UInt64}
    (h : addr ∈ (List.range (min (descriptorCount (.read mem uefiMemoryMap)) k)).map
      fun i => uefiMemoryMap + UInt64.ofNat (descriptorOffset (.read mem uefiMemoryMap) i)) :
    InsideMap mem uefiMemoryMap addr := by
  obtain ⟨i, hi, rfl⟩ := List.mem_map.mp h
  rw [List.mem_range] at hi
  obtain ⟨hstride, hfits⟩ := (lt_descriptorCount_iff i).mp (lt_of_lt_of_le hi (min_le_left _ _))
  refine ⟨_, rfl, ?_, ?_⟩
  · rw [descriptorOffset]
    omega
  · rw [descriptorOffset]
    rw [Nat.succ_mul] at hfits
    omega

theorem specRegion_eq (iommuPresent : Bool) (descriptor : UefiMemoryDescriptor) :
    specRegion iommuPresent descriptor =
      { regionOf descriptor with behindIommu := iommuPresent } := by
  have hlength : UInt64.ofNat (descriptor.numberOfPages.toNat * 4096 % 2 ^ 64) =
      descriptor.numberOfPages * pageSize := by
    apply UInt64.toNat_inj.mp
    rw [UInt64.toNat_ofNat', UInt64.toNat_mul, Nat.mod_mod]
    simp only [pageSize, UInt64.reduceToNat]
  rw [specRegion, hlength, regionOf]

theorem entries_markBehindIommu {fuel : ℕ} {parsed : Parsed}
    (h : parse fuel mem uefiMemoryMap = some parsed) (iommuPresent : Bool) :
    (markBehindIommu iommuPresent parsed.regions).entries =
      specRegions mem uefiMemoryMap iommuPresent := by
  have hentries := entries_of_parse h
  rw [specRegions, funext (specRegion_eq iommuPresent)]
  cases iommuPresent with
  | false =>
    rw [markBehindIommu, if_neg Bool.false_ne_true, hentries]
    rfl
  | true =>
    rw [markBehindIommu, if_pos rfl, Buffer.entries_mapEntries, hentries, List.map_map]
    rfl

theorem X86_64.physicalMemoryMap_eq {fuel : ℕ} {memory : X86_64.Memory}
    (h : X86_64.Memory.fromUefiMemoryMap fuel mem uefiMemoryMap = some memory) :
    memory.physicalMemoryMap = specRegions mem uefiMemoryMap memory.iommuPresent := by
  obtain ⟨parsed, hparsed, rfl⟩ := Option.map_eq_some_iff.mp h
  rw [X86_64.Memory.physicalMemoryMap, entries_markBehindIommu hparsed]

theorem Arm64.physicalMemoryMap_eq {fuel : ℕ} {memory : Arm64.Memory}
    (h : Arm64.Memory.fromUefiMemoryMap fuel mem uefiMemoryMap = some memory) :
    memory.physicalMemoryMap = specRegions mem uefiMemoryMap memory.iommuPresent := by
  obtain ⟨parsed, hparsed, hrest⟩ := Option.bind_eq_some_iff.mp h
  obtain ⟨acpi, _, rfl⟩ := Option.map_eq_some_iff.mp hrest
  rw [Arm64.Memory.physicalMemoryMap, entries_markBehindIommu hparsed]

variable (mem uefiMemoryMap)

theorem X86_64.exists_settles_fromUefiMemoryMap :
    ∃ memory, Loop.Settles
      (fun fuel => X86_64.Memory.fromUefiMemoryMap fuel mem uefiMemoryMap) memory := by
  obtain ⟨parsed, hparsed, -, -⟩ := exists_settles_parse mem uefiMemoryMap
  exact ⟨_, hparsed.map _⟩

theorem map_specRegions_unmarked (iommuPresent : Bool) :
    (specRegions mem uefiMemoryMap iommuPresent).map
        (fun region => { region with behindIommu := false }) =
      specRegions mem uefiMemoryMap false := by
  rw [specRegions, List.map_map]
  rfl

end Parse

/-- A map of one descriptor, conventional memory at 1 MiB, and no ACPI tables. -/
def oneRegionMem (pages : UInt64) : Mem := fun addr =>
  match addr.toNat with
  | 0 => 40
  | 8 => 40
  | 16 => 7
  | 26 => 0x10
  | offset => if 40 ≤ offset ∧ offset < 48 then (pages >>> (8 * (addr - 40))).toUInt8 else 0

end SimurghHal.Firmware
