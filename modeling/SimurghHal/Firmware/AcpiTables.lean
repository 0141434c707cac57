import SimurghHal.Firmware.Acpi
import Mathlib.Data.Nat.Digits.Defs
import Mathlib.Data.List.Forall2

/-!
# Memory that holds well-formed ACPI tables

What the firmware means by its tables: a listing of tables, one of which may be a MADT
with its list of sub-structures. `Describes` relates a listing to the bytes in memory. In
such a memory the walks of the two crates find exactly what is listed, and the order of
the listing does not matter.
-/

namespace SimurghHal.Firmware

/-- The bytes from this address on begin with these. -/
def Holds (mem : Mem) : UInt64 → List UInt8 → Prop
  | _, [] => True
  | addr, b :: bs => mem addr = b ∧ Holds mem (addr + 1) bs

instance decidableHolds (mem : Mem) : ∀ addr bytes, Decidable (Holds mem addr bytes)
  | _, [] => isTrue trivial
  | addr, b :: bs =>
    @instDecidableAnd (mem addr = b) _ inferInstance (decidableHolds mem (addr + 1) bs)

theorem holds_append {mem : Mem} {xs ys : List UInt8} {addr : UInt64} :
    Holds mem addr (xs ++ ys) ↔
      Holds mem addr xs ∧ Holds mem (addr + UInt64.ofNat xs.length) ys := by
  induction xs generalizing addr with
  | nil => simp [Holds]
  | cons x xs ih =>
    have haddr : addr + 1 + UInt64.ofNat xs.length = addr + UInt64.ofNat (xs.length + 1) := by
      rw [UInt64.ofNat_add, UInt64.add_assoc, UInt64.add_comm 1]
      rfl
    rw [List.cons_append, Holds, Holds, ih, haddr, and_assoc, List.length_cons]

theorem readLe_of_holds {mem : Mem} {bytes : List UInt8} {addr : UInt64}
    (h : Holds mem addr bytes) :
    readLe mem addr bytes.length = Nat.ofDigits 256 (bytes.map UInt8.toNat) := by
  induction bytes generalizing addr with
  | nil => rfl
  | cons b bs ih =>
    obtain ⟨hb, hbs⟩ := h
    rw [List.length_cons, readLe, hb, ih hbs, List.map_cons, Nat.ofDigits_cons]

/-- A sub-structure of a MADT: the type and what stands behind the length byte. -/
structure MadtEntry where
  entryType : UInt8
  payload : List UInt8
  fits : payload.length + 2 < 256
  distributor : entryType = Arm64.madtGicDistributorType → payload.length = 22

namespace MadtEntry

def size (entry : MadtEntry) : ℕ := entry.payload.length + 2

def bytes (entry : MadtEntry) : List UInt8 :=
  entry.entryType :: UInt8.ofNat entry.size :: entry.payload

def IsDistributor (entry : MadtEntry) : Prop := entry.entryType = Arm64.madtGicDistributorType

instance : DecidablePred IsDistributor :=
  fun entry => inferInstanceAs (Decidable (entry.entryType = Arm64.madtGicDistributorType))

/-- `physical_base_address`, behind two reserved bytes and the GIC ID. -/
def physicalBaseAddress (entry : MadtEntry) : UInt64 :=
  UInt64.ofNat (Nat.ofDigits 256 (((entry.payload.drop 6).take 8).map UInt8.toNat))

@[simp] theorem length_bytes (entry : MadtEntry) : entry.bytes.length = entry.size := rfl

theorem size_lt (entry : MadtEntry) : entry.size < 256 := entry.fits

theorem toNat_ofNat_size (entry : MadtEntry) : (UInt8.ofNat entry.size).toNat = entry.size := by
  rw [UInt8.toNat_ofNat']
  exact Nat.mod_eq_of_lt entry.size_lt

theorem ofNat_size_ne_zero (entry : MadtEntry) : UInt8.ofNat entry.size ≠ 0 := by
  intro hzero
  have hsize := congrArg UInt8.toNat hzero
  rw [toNat_ofNat_size, size] at hsize
  simp at hsize

end MadtEntry

/-- The bytes of the sub-structures, one after the other. -/
def entryBytes (entries : List MadtEntry) : List UInt8 := entries.flatMap MadtEntry.bytes

/-- The base address in the first distributor entry. -/
def firstDistributor (entries : List MadtEntry) : Option UInt64 :=
  (entries.find? fun entry => entry.IsDistributor).map MadtEntry.physicalBaseAddress

/-- A table that the XSDT lists. Of other tables than a MADT only the signature matters. -/
inductive Table where
  | madt (entries : List MadtEntry)
  | other (signature : List UInt8) (hother : signature ≠ madtSignature)

namespace Table

def signature : Table → List UInt8
  | .madt _ => madtSignature
  | .other signature _ => signature

/-- The table stands at this address. -/
def At (mem : Mem) (addr : UInt64) : Table → Prop
  | .madt entries =>
    (AcpiSdtHeader.read mem addr).signature = madtSignature ∧
      (AcpiSdtHeader.read mem addr).length.toNat = 44 + (entryBytes entries).length ∧
        Holds mem (addr + 44) (entryBytes entries)
  | .other signature _ => (AcpiSdtHeader.read mem addr).signature = signature

instance (mem : Mem) (addr : UInt64) : (table : Table) → Decidable (table.At mem addr)
  | .madt _ => inferInstanceAs (Decidable (_ ∧ _ ∧ _))
  | .other _ _ => inferInstanceAs (Decidable (_ = _))

theorem At.signature_eq {mem : Mem} {addr : UInt64} {table : Table} (h : table.At mem addr) :
    (AcpiSdtHeader.read mem addr).signature = table.signature := by
  cases table with
  | madt entries => exact h.1
  | other signature hother => exact h

end Table

/-- The RSDP leads to an XSDT that lists these tables. -/
structure Describes (mem : Mem) (rsdpPhys : UInt64) (listing : List Table) : Prop where
  rsdp_ne_zero : rsdpPhys ≠ 0
  xsdt_ne_zero : u64At mem (rsdpPhys + 24) ≠ 0
  length_eq : (AcpiSdtHeader.read mem (u64At mem (rsdpPhys + 24))).length.toNat =
    acpiSdtHeaderSize + 8 * listing.length
  table_at : ∀ i (hi : i < listing.length),
    (listing.get ⟨i, hi⟩).At mem (tableAddr mem (u64At mem (rsdpPhys + 24)) i)

/-- At most one MADT is listed, though more than one pointer may lead to it. -/
def OneMadt (listing : List Table) : Prop :=
  ∀ entries entries', .madt entries ∈ listing → .madt entries' ∈ listing → entries = entries'

theorem toNat_entryCount {mem : Mem} {xsdtAddr : UInt64}
    (h : acpiSdtHeaderSize ≤ (AcpiSdtHeader.read mem xsdtAddr).length.toNat) :
    (entryCount mem xsdtAddr).toNat =
      ((AcpiSdtHeader.read mem xsdtAddr).length.toNat - acpiSdtHeaderSize) / 8 := by
  have hlt := (AcpiSdtHeader.read mem xsdtAddr).length.toNat_lt
  rw [acpiSdtHeaderSize] at h ⊢
  rw [entryCount, UInt64.toNat_div, UInt64.toNat_sub, UInt32.toNat_toUInt64]
  simp only [acpiSdtHeaderSize, UInt64.reduceOfNat, UInt64.reduceToNat]
  omega

/-- The walk comes to the listed tables, in the order of the listing. -/
theorem Describes.tables_at {mem : Mem} {rsdpPhys : UInt64} {listing : List Table}
    (h : Describes mem rsdpPhys listing) :
    List.Forall₂ (fun addr (table : Table) => table.At mem addr) (tables mem rsdpPhys) listing := by
  have hcount : (entryCount mem (u64At mem (rsdpPhys + 24))).toNat = listing.length := by
    rw [toNat_entryCount (by rw [h.length_eq]; exact Nat.le_add_right _ _), h.length_eq]
    omega
  rw [tables, if_neg h.rsdp_ne_zero, if_neg h.xsdt_ne_zero, hcount, List.forall₂_iff_get]
  refine ⟨by rw [List.length_map, List.length_range], fun i hi hi' => ?_⟩
  simpa using h.table_at i hi'

/-! ### The scan of a MADT -/

theorem Holds.entry {mem : Mem} {addr : UInt64} {entry : MadtEntry}
    (h : Holds mem addr entry.bytes) :
    mem addr = entry.entryType ∧ mem (addr + 1) = UInt8.ofNat entry.size :=
  ⟨h.1, h.2.1⟩

/-- The read of the base address finds the bytes of the payload behind the GIC ID. -/
theorem u64At_of_distributor {mem : Mem} {addr : UInt64} {entry : MadtEntry}
    (hdist : entry.IsDistributor) (h : Holds mem addr entry.bytes) :
    u64At mem (addr + 8) = entry.physicalBaseAddress := by
  have hlength := entry.distributor hdist
  have hpayload : Holds mem (addr + 1 + 1) entry.payload := h.2.2
  rw [← List.take_append_drop 6 entry.payload, holds_append] at hpayload
  have hsix : (entry.payload.take 6).length = 6 := by
    rw [List.length_take]
    omega
  have haddr : addr + 1 + 1 + UInt64.ofNat 6 = addr + 8 := by
    rw [UInt64.add_assoc, UInt64.add_assoc]
    rfl
  have hrest := hpayload.2
  rw [hsix, haddr, ← List.take_append_drop 8 (entry.payload.drop 6), holds_append] at hrest
  have height : ((entry.payload.drop 6).take 8).length = 8 := by
    rw [List.length_take, List.length_drop]
    omega
  have hread := readLe_of_holds hrest.1
  rw [height] at hread
  rw [u64At, hread, MadtEntry.physicalBaseAddress]

theorem addr_add_offset {addr : UInt64} {offset : UInt32} {n : ℕ} {b : UInt8} (hb : b.toNat = n)
    (hfits : offset.toNat + n < 2 ^ 32) :
    addr + offset.toUInt64 + UInt64.ofNat n = addr + (offset + b.toUInt32).toUInt64 := by
  have hsum : offset.toUInt64 + UInt64.ofNat n = (offset + b.toUInt32).toUInt64 := by
    apply UInt64.toNat_inj.mp
    rw [UInt64.toNat_add, UInt32.toNat_toUInt64, UInt32.toNat_toUInt64, UInt32.toNat_add,
      UInt8.toNat_toUInt32, UInt64.toNat_ofNat', hb]
    omega
  rw [UInt64.add_assoc, hsum]

/-- From the start of any sub-structure the scan comes to the first distributor entry among
the remaining ones. -/
theorem returns_madtBody {mem : Mem} {madtAddr : UInt64} {length : UInt32}
    {entries : List MadtEntry} {offset : UInt32}
    (hlength : length.toNat = offset.toNat + (entryBytes entries).length)
    (hholds : Holds mem (madtAddr + offset.toUInt64) (entryBytes entries)) :
    Loop.Returns (Arm64.madtBody mem madtAddr length) offset (firstDistributor entries) := by
  induction entries generalizing offset with
  | nil =>
    have hend : ¬ offset < length := by
      rw [UInt32.lt_iff_toNat_lt, hlength]
      exact Nat.lt_irrefl _
    exact Loop.returns_of_leave (by rw [Arm64.madtBody, if_neg hend]; rfl)
  | cons entry entries ih =>
    rw [entryBytes, List.flatMap_cons, ← entryBytes, holds_append] at hholds
    rw [entryBytes, List.flatMap_cons, ← entryBytes, List.length_append,
      entry.length_bytes] at hlength
    obtain ⟨hentry, hrest⟩ := hholds
    have hpos : 0 < entry.size := Nat.succ_pos _
    have hlt : offset < length := by
      rw [UInt32.lt_iff_toNat_lt, hlength]
      omega
    have htype := hentry.entry.1
    have hsize := hentry.entry.2
    by_cases hdist : entry.IsDistributor
    · refine Loop.returns_of_leave ?_
      rw [Arm64.madtBody, if_pos hlt, if_pos (htype.trans hdist),
        u64At_of_distributor hdist hentry, firstDistributor, List.find?_cons_of_pos (by simpa)]
      rfl
    · have hstep : Arm64.madtBody mem madtAddr length offset =
          some (.ok (offset + (UInt8.ofNat entry.size).toUInt32)) := by
        have hskipped : Arm64.IsSkipped mem madtAddr length offset := by
          refine ⟨hlt, ?_, ?_⟩
          · rwa [htype]
          · rw [hsize]
            exact entry.ofNat_size_ne_zero
        rw [Arm64.madtBody_of_isSkipped hskipped, hsize]
      have hfits : offset.toNat + entry.size < 2 ^ 32 := by
        have := length.toNat_lt
        omega
      have hnext : (offset + (UInt8.ofNat entry.size).toUInt32).toNat =
          offset.toNat + entry.size := by
        rw [UInt32.toNat_add, UInt8.toNat_toUInt32, entry.toNat_ofNat_size,
          Nat.mod_eq_of_lt hfits]
      rw [entry.length_bytes, addr_add_offset entry.toNat_ofNat_size hfits] at hrest
      have hfind : firstDistributor (entry :: entries) = firstDistributor entries := by
        rw [firstDistributor, List.find?_cons_of_neg (by simpa), firstDistributor]
      rw [hfind]
      exact (ih (by rw [hnext]; omega) hrest).of_reaches (.single hstep)

theorem settles_findGicdInMadt {mem : Mem} {addr : UInt64} {entries : List MadtEntry}
    (h : (Table.madt entries).At mem addr) :
    Loop.Settles (fun fuel =>
      Arm64.findGicdInMadt fuel mem addr (AcpiSdtHeader.read mem addr).length)
      (firstDistributor entries) := by
  obtain ⟨-, hlength, hholds⟩ := h
  exact (returns_madtBody hlength hholds).settles

/-! ### The walk over the listing -/

/-- What a table adds to the result of discovery. -/
def Table.contribute (result : Arm64.AcpiDiscoveryResult) (table : Table) :
    Arm64.AcpiDiscoveryResult :=
  match table with
  | .madt entries => { result with gicdBase := firstDistributor entries }
  | .other signature _ =>
    if signature = iortSignature then { result with smmuPresent := true } else result

theorem settles_discoverTable {mem : Mem} {addr : UInt64} {table : Table}
    (h : table.At mem addr) (result : Arm64.AcpiDiscoveryResult) :
    Loop.Settles (fun fuel => Arm64.discoverTable fuel mem result addr)
      (table.contribute result) := by
  cases table with
  | madt entries =>
    simpa only [Arm64.discoverTable, if_pos h.1, Table.contribute] using
      (settles_findGicdInMadt h).map _
  | other signature hother =>
    have hsig : (AcpiSdtHeader.read mem addr).signature = signature := h
    simp only [Arm64.discoverTable, hsig, if_neg hother, Table.contribute]
    split
    · exact .pure _
    · exact .pure _

/-- What discovery of a listing comes to. -/
def discovered (listing : List Table) : Arm64.AcpiDiscoveryResult :=
  listing.foldl Table.contribute ⟨none, false⟩

theorem Describes.settles_acpiDiscover {mem : Mem} {rsdpPhys : UInt64} {listing : List Table}
    (h : Describes mem rsdpPhys listing) :
    Loop.Settles (fun fuel => Arm64.acpiDiscover fuel mem rsdpPhys) (discovered listing) := by
  have hstep : ∀ addr (table : Table) result, table.At mem addr →
      Loop.Settles (fun fuel => Arm64.discoverTable fuel mem result addr)
        (table.contribute result) :=
    fun _ _ result hat => settles_discoverTable hat result
  exact Loop.Settles.foldlM hstep h.tables_at _

theorem smmuPresent_contribute (result : Arm64.AcpiDiscoveryResult) (table : Table) :
    (table.contribute result).smmuPresent = true ↔
      result.smmuPresent = true ∨ table.signature = iortSignature := by
  cases table with
  | madt entries =>
    have hne : ¬ madtSignature = iortSignature := by decide
    simp [Table.contribute, Table.signature, hne]
  | other signature hother =>
    by_cases hiort : signature = iortSignature
    · simp [Table.contribute, Table.signature, hiort]
    · simp [Table.contribute, Table.signature, hiort]

theorem smmuPresent_foldl (listing : List Table) (result : Arm64.AcpiDiscoveryResult) :
    (listing.foldl Table.contribute result).smmuPresent = true ↔
      result.smmuPresent = true ∨ ∃ table ∈ listing, table.signature = iortSignature := by
  induction listing generalizing result with
  | nil => simp
  | cons table listing ih =>
    rw [List.foldl_cons, ih, smmuPresent_contribute, or_assoc, List.exists_mem_cons_iff]

/-- Once the base is found, or when there is no MADT to find it in, it stays. -/
theorem gicdBase_foldl_of_eq {listing : List Table} {base : Option UInt64}
    (hall : ∀ entries, .madt entries ∈ listing → firstDistributor entries = base)
    {result : Arm64.AcpiDiscoveryResult} (hresult : result.gicdBase = base) :
    (listing.foldl Table.contribute result).gicdBase = base := by
  induction listing generalizing result with
  | nil => exact hresult
  | cons table listing ih =>
    refine ih (fun entries hentries => hall entries (List.mem_cons_of_mem _ hentries)) ?_
    cases table with
    | madt entries => exact hall entries (List.mem_cons_self ..)
    | other signature hother =>
      rw [Table.contribute]
      split <;> exact hresult

theorem gicdBase_discovered_of_mem {listing : List Table} (hone : OneMadt listing)
    {entries : List MadtEntry} (hmem : .madt entries ∈ listing) :
    (discovered listing).gicdBase = firstDistributor entries := by
  have hall : ∀ entries', .madt entries' ∈ listing →
      firstDistributor entries' = firstDistributor entries :=
    fun entries' hentries' => congrArg _ (hone _ _ hentries' hmem)
  -- behind the MADT nothing changes the base any more
  obtain ⟨before, after, rfl⟩ := List.append_of_mem hmem
  rw [discovered, List.foldl_append, List.foldl_cons]
  exact gicdBase_foldl_of_eq (fun entries' hentries' => hall entries' (by simp [hentries'])) rfl

theorem gicdBase_discovered_of_notMem {listing : List Table}
    (hnone : ∀ entries, .madt entries ∉ listing) : (discovered listing).gicdBase = none :=
  gicdBase_foldl_of_eq (fun entries hentries => absurd hentries (hnone entries)) rfl

theorem smmuPresent_discovered (listing : List Table) :
    (discovered listing).smmuPresent = true ↔
      ∃ table ∈ listing, table.signature = iortSignature := by
  rw [discovered, smmuPresent_foldl]
  simp

theorem any_signature_iff {mem : Mem} {addrs : List UInt64} {listing : List Table}
    {signature : List UInt8}
    (hat : List.Forall₂ (fun addr (table : Table) => table.At mem addr) addrs listing) :
    (addrs.any fun addr => (AcpiSdtHeader.read mem addr).signature = signature) = true ↔
      ∃ table ∈ listing, table.signature = signature := by
  induction hat with
  | nil => simp
  | cons hhead _ ih =>
    simp only [List.any_cons, Bool.or_eq_true, decide_eq_true_iff, List.exists_mem_cons_iff,
      hhead.signature_eq]
    exact or_congr_right ih

theorem Describes.acpiDmarPresent_iff {mem : Mem} {rsdpPhys : UInt64} {listing : List Table}
    (h : Describes mem rsdpPhys listing) :
    X86_64.acpiDmarPresent mem rsdpPhys = true ↔
      ∃ table ∈ listing, table.signature = dmarSignature :=
  any_signature_iff h.tables_at

theorem OneMadt.perm {listing listing' : List Table} (hone : OneMadt listing)
    (hperm : listing'.Perm listing) : OneMadt listing' :=
  fun entries entries' hmem hmem' =>
    hone entries entries' (hperm.mem_iff.mp hmem) (hperm.mem_iff.mp hmem')

/-- Discovery does not depend on the order of the listing. -/
theorem discovered_perm {listing listing' : List Table} (hone : OneMadt listing)
    (hperm : listing'.Perm listing) : discovered listing' = discovered listing := by
  have hsmmu : (discovered listing').smmuPresent = (discovered listing).smmuPresent := by
    rw [Bool.eq_iff_iff, smmuPresent_discovered, smmuPresent_discovered]
    simp only [hperm.mem_iff]
  have hgicd : (discovered listing').gicdBase = (discovered listing).gicdBase := by
    by_cases hmadt : ∃ entries, Table.madt entries ∈ listing
    · obtain ⟨entries, hmem⟩ := hmadt
      rw [gicdBase_discovered_of_mem hone hmem,
        gicdBase_discovered_of_mem (hone.perm hperm) (hperm.mem_iff.mpr hmem)]
    · have hnone : ∀ entries, Table.madt entries ∉ listing := not_exists.mp hmadt
      rw [gicdBase_discovered_of_notMem hnone, gicdBase_discovered_of_notMem
        fun entries hmem => hnone entries (hperm.mem_iff.mp hmem)]
  calc discovered listing' =
        ⟨(discovered listing').gicdBase, (discovered listing').smmuPresent⟩ := rfl
    _ = ⟨(discovered listing).gicdBase, (discovered listing).smmuPresent⟩ := by rw [hgicd, hsmmu]

/-- The two crates find exactly what the tables say: the IORT and the DMAR when they are
listed, and the base in the first distributor entry of the MADT. Listing the same tables in
another order gives the same results. -/
theorem discovery_finds_listed {mem : Mem} {rsdpPhys : UInt64} {listing : List Table}
    (hdesc : Describes mem rsdpPhys listing) (hone : OneMadt listing) :
    ∃ result, Loop.Settles (fun fuel => Arm64.acpiDiscover fuel mem rsdpPhys) result ∧
      (result.smmuPresent = true ↔ ∃ table ∈ listing, table.signature = iortSignature) ∧
      (∀ entries, .madt entries ∈ listing → result.gicdBase = firstDistributor entries) ∧
      ((∀ entries, .madt entries ∉ listing) → result.gicdBase = none) ∧
      (X86_64.acpiDmarPresent mem rsdpPhys = true ↔
        ∃ table ∈ listing, table.signature = dmarSignature) ∧
      ∀ mem' rsdpPhys' listing', Describes mem' rsdpPhys' listing' → listing'.Perm listing →
        Loop.Settles (fun fuel => Arm64.acpiDiscover fuel mem' rsdpPhys') result ∧
          X86_64.acpiDmarPresent mem' rsdpPhys' = X86_64.acpiDmarPresent mem rsdpPhys := by
  refine ⟨discovered listing, hdesc.settles_acpiDiscover, smmuPresent_discovered listing,
    fun _ => gicdBase_discovered_of_mem hone, gicdBase_discovered_of_notMem,
    hdesc.acpiDmarPresent_iff, fun mem' rsdpPhys' listing' hdesc' hperm => ⟨?_, ?_⟩⟩
  · rw [← discovered_perm hone hperm]
    exact hdesc'.settles_acpiDiscover
  · rw [Bool.eq_iff_iff, hdesc'.acpiDmarPresent_iff, hdesc.acpiDmarPresent_iff]
    simp only [hperm.mem_iff]

/-- An RSDP at `0x1000` and an XSDT at `0x1040` with two pointers, whose low bytes are given.
At `0x1100` stands a MADT with a local APIC and a distributor, at `0x1180` an IORT. -/
def acpiImage (first second : UInt8) : Mem := fun addr =>
  ([(0x1018, 0x40), (0x1019, 0x10), (0x1044, 52),
    (0x1064, first), (0x1065, 0x11), (0x106C, second), (0x106D, 0x11),
    (0x1100, 0x41), (0x1101, 0x50), (0x1102, 0x49), (0x1103, 0x43), (0x1104, 76),
    (0x112D, 8), (0x1134, 0x0C), (0x1135, 24), (0x113F, 0x08),
    (0x1180, 0x49), (0x1181, 0x4F), (0x1182, 0x52), (0x1183, 0x54)].lookup addr).getD 0

def imageEntries : List MadtEntry :=
  [⟨0, [0, 0, 0, 0, 0, 0], by decide, by decide⟩,
    ⟨0x0C, [0, 0, 0, 0, 0, 0, 0, 0, 0, 0x08, 0, 0, 0, 0, 0, 0, 0, 0, 0, 0, 0, 0],
      by decide, by decide⟩]

def imageListing : List Table := [.madt imageEntries, .other iortSignature (by decide)]

theorem describes_acpiImage : Describes (acpiImage 0x00 0x80) 0x1000 imageListing where
  rsdp_ne_zero := by decide
  xsdt_ne_zero := by decide +kernel
  length_eq := by decide +kernel
  table_at := by decide +kernel

theorem describes_acpiImage_reverse :
    Describes (acpiImage 0x80 0x00) 0x1000 imageListing.reverse where
  rsdp_ne_zero := by decide
  xsdt_ne_zero := by decide +kernel
  length_eq := by decide +kernel
  table_at := by decide +kernel

theorem oneMadt_imageListing : OneMadt imageListing := by
  intro entries entries' hmem hmem'
  simp only [imageListing, List.mem_cons, Table.madt.injEq, reduceCtorEq, List.not_mem_nil,
    or_false] at hmem hmem'
  rw [hmem, hmem']

theorem discovery_of_acpiImage :
    ∃ result, result.gicdBase = some 0x08000000 ∧ result.smmuPresent = true ∧
      Loop.Settles (fun fuel => Arm64.acpiDiscover fuel (acpiImage 0x00 0x80) 0x1000) result ∧
      Loop.Settles (fun fuel => Arm64.acpiDiscover fuel (acpiImage 0x80 0x00) 0x1000) result := by
  obtain ⟨result, hsettles, hsmmu, hgicd, -, -, hperm⟩ :=
    discovery_finds_listed describes_acpiImage oneMadt_imageListing
  refine ⟨result, ?_, ?_, hsettles,
    (hperm _ _ _ describes_acpiImage_reverse (List.reverse_perm _)).1⟩
  · rw [hgicd imageEntries (List.mem_cons_self ..)]
    decide +kernel
  · exact hsmmu.mpr ⟨_, List.mem_cons_of_mem _ (List.mem_cons_self ..), rfl⟩

end SimurghHal.Firmware
