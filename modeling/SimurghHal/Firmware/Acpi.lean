import SimurghHal.Lib.Loop
import Mathlib.Data.List.Range

/-!
# ACPI tables (`hal-x86_64/src/memory.rs`, `hal-arm64/src/memory.rs`)

Physical memory, and the walk from the RSDP over the XSDT to the tables the two crates
look for. Addresses and lengths are machine words, and arithmetic on them wraps. The
scan of a MADT has no bound in the source and is run with fuel.
-/

namespace SimurghHal.Firmware

/-- Physical memory. -/
abbrev Mem := UInt64 → UInt8

/-- The little-endian number of the given number of bytes. -/
def readLe (mem : Mem) (addr : UInt64) : ℕ → ℕ
  | 0 => 0
  | n + 1 => (mem addr).toNat + 256 * readLe mem (addr + 1) n

def u32At (mem : Mem) (addr : UInt64) : UInt32 := UInt32.ofNat (readLe mem addr 4)

def u64At (mem : Mem) (addr : UInt64) : UInt64 := UInt64.ofNat (readLe mem addr 8)

/-- `AcpiSdtHeader`, as far as it is used. -/
structure AcpiSdtHeader where
  signature : List UInt8
  length : UInt32
  deriving DecidableEq, Repr

/-- `size_of::<AcpiSdtHeader>()`. -/
def acpiSdtHeaderSize : ℕ := 36

def AcpiSdtHeader.read (mem : Mem) (addr : UInt64) : AcpiSdtHeader :=
  ⟨[mem addr, mem (addr + 1), mem (addr + 2), mem (addr + 3)], u32At mem (addr + 4)⟩

/-- The ASCII codes of `DMAR`, `APIC` and `IORT`. -/
def dmarSignature : List UInt8 := [0x44, 0x4D, 0x41, 0x52]
def madtSignature : List UInt8 := [0x41, 0x50, 0x49, 0x43]
def iortSignature : List UInt8 := [0x49, 0x4F, 0x52, 0x54]

/-- The number of tables an XSDT at this address lists. -/
def entryCount (mem : Mem) (xsdtAddr : UInt64) : UInt64 :=
  ((AcpiSdtHeader.read mem xsdtAddr).length.toUInt64 - UInt64.ofNat acpiSdtHeaderSize) / 8

/-- The address of one of these tables. -/
def tableAddr (mem : Mem) (xsdtAddr : UInt64) (i : ℕ) : UInt64 :=
  u64At mem (xsdtAddr + UInt64.ofNat acpiSdtHeaderSize + UInt64.ofNat i * 8)

/-- The tables reachable from the RSDP, none when there is no RSDP or no XSDT. -/
def tables (mem : Mem) (rsdpPhys : UInt64) : List UInt64 :=
  if rsdpPhys = 0 then []
  else
    let xsdtAddr := u64At mem (rsdpPhys + 24)
    if xsdtAddr = 0 then []
    else (List.range (entryCount mem xsdtAddr).toNat).map (tableAddr mem xsdtAddr)

namespace X86_64

/-- `acpi_dmar_present`. -/
def acpiDmarPresent (mem : Mem) (rsdpPhys : UInt64) : Bool :=
  (tables mem rsdpPhys).any fun addr => (AcpiSdtHeader.read mem addr).signature = dmarSignature

end X86_64

namespace Arm64

def madtGicDistributorType : UInt8 := 0x0C

/-- The loop body of `find_gicd_in_madt`, over the offset into the table. -/
def madtBody (mem : Mem) (madtAddr : UInt64) (length : UInt32) (offset : UInt32) :
    Option (Except (Option UInt64) UInt32) :=
  if offset < length then
    let entry := madtAddr + offset.toUInt64
    let entryType := mem entry
    let entryLength := mem (entry + 1)
    if entryType = madtGicDistributorType then some (.error (some (u64At mem (entry + 8))))
    else if entryLength = 0 then some (.error none)
    else some (.ok (offset + entryLength.toUInt32))
  else some (.error none)

/-- The sub-structures start behind two fields of the MADT itself. -/
def madtStart : UInt32 := UInt32.ofNat acpiSdtHeaderSize + 8

/-- `find_gicd_in_madt` with bounded fuel. -/
def findGicdInMadt (fuel : ℕ) (mem : Mem) (madtAddr : UInt64) (length : UInt32) :
    Option (Option UInt64) :=
  Loop.whileLoop (madtBody mem madtAddr length) fuel madtStart

structure AcpiDiscoveryResult where
  gicdBase : Option UInt64
  smmuPresent : Bool
  deriving DecidableEq, Repr

/-- What one table contributes. -/
def discoverTable (fuel : ℕ) (mem : Mem) (result : AcpiDiscoveryResult) (addr : UInt64) :
    Option AcpiDiscoveryResult :=
  let header := AcpiSdtHeader.read mem addr
  if header.signature = madtSignature then
    (findGicdInMadt fuel mem addr header.length).map fun base => { result with gicdBase := base }
  else if header.signature = iortSignature then some { result with smmuPresent := true }
  else some result

/-- `acpi_discover` with bounded fuel. -/
def acpiDiscover (fuel : ℕ) (mem : Mem) (rsdpPhys : UInt64) : Option AcpiDiscoveryResult :=
  (tables mem rsdpPhys).foldlM (discoverTable fuel mem) ⟨none, false⟩

/-- Something stands at this offset that is neither a distributor nor of length zero. -/
def IsSkipped (mem : Mem) (madtAddr : UInt64) (length offset : UInt32) : Prop :=
  offset < length ∧ mem (madtAddr + offset.toUInt64) ≠ madtGicDistributorType ∧
    mem (madtAddr + offset.toUInt64 + 1) ≠ 0

theorem madtBody_of_isSkipped {mem : Mem} {madtAddr : UInt64} {length offset : UInt32}
    (h : IsSkipped mem madtAddr length offset) :
    madtBody mem madtAddr length offset =
      some (.ok (offset + (mem (madtAddr + offset.toUInt64 + 1)).toUInt32)) := by
  rw [madtBody, if_pos h.1, if_neg h.2.1, if_neg h.2.2]

theorem exists_leave_of_not_isSkipped {mem : Mem} {madtAddr : UInt64} {length offset : UInt32}
    (h : ¬ IsSkipped mem madtAddr length offset) :
    ∃ base, madtBody mem madtAddr length offset = some (.error base) := by
  by_cases hlt : offset < length
  · by_cases htype : mem (madtAddr + offset.toUInt64) = madtGicDistributorType
    · exact ⟨_, by rw [madtBody, if_pos hlt, if_pos htype]⟩
    · by_cases hzero : mem (madtAddr + offset.toUInt64 + 1) = 0
      · exact ⟨_, by rw [madtBody, if_pos hlt, if_neg htype, if_pos hzero]⟩
      · exact absurd ⟨hlt, htype, hzero⟩ h
  · exact ⟨_, by rw [madtBody, if_neg hlt]⟩

/-- A table takes discovery no further than the scan that it asks for. -/
theorem exists_settles_discoverTable {mem : Mem} {addr : UInt64}
    (hscan : (AcpiSdtHeader.read mem addr).signature = madtSignature → ∃ base, Loop.Settles
      (fun fuel => findGicdInMadt fuel mem addr (AcpiSdtHeader.read mem addr).length) base)
    (result : AcpiDiscoveryResult) :
    ∃ result', Loop.Settles (fun fuel => discoverTable fuel mem result addr) result' := by
  by_cases hmadt : (AcpiSdtHeader.read mem addr).signature = madtSignature
  · obtain ⟨base, hbase⟩ := hscan hmadt
    refine ⟨{ result with gicdBase := base }, ?_⟩
    simpa only [discoverTable, if_pos hmadt] using hbase.map _
  · by_cases hiort : (AcpiSdtHeader.read mem addr).signature = iortSignature
    · refine ⟨{ result with smmuPresent := true }, ?_⟩
      simpa only [discoverTable, if_neg hmadt, if_pos hiort] using .pure _
    · refine ⟨result, ?_⟩
      simpa only [discoverTable, if_neg hmadt, if_neg hiort] using .pure _

end Arm64

end SimurghHal.Firmware
