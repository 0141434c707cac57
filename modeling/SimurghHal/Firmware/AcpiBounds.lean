import SimurghHal.Firmware.AcpiTables

/-!
# What the ACPI walks read of a malformed table

The bytes that the walks read of the tables they walk over, the headers aside, and when all
of them lie inside the lengths that the tables declare. The walks subtract the size of a
header from the length of the XSDT without a check, and the scan of a MADT only checks that
a sub-structure starts inside the table.
-/

namespace SimurghHal.Firmware

/-- A byte that is read of a table of some declared length. -/
structure EntryRead where
  length : UInt32
  offset : ℕ
  deriving DecidableEq

def EntryRead.Inside (read : EntryRead) : Prop := read.offset < read.length.toNat

/-- The length that the XSDT declares. -/
def xsdtLength (mem : Mem) (rsdpPhys : UInt64) : UInt32 :=
  (AcpiSdtHeader.read mem (u64At mem (rsdpPhys + 24))).length

/-- The byte `j` of the pointer `i` of the XSDT. -/
def pointerRead (mem : Mem) (rsdpPhys : UInt64) (i j : ℕ) : EntryRead :=
  ⟨xsdtLength mem rsdpPhys, acpiSdtHeaderSize + 8 * i + j⟩

/-- The size of the header can be subtracted from the length, if the walk comes to that. -/
def NoUnderflow (mem : Mem) (rsdpPhys : UInt64) : Prop :=
  rsdpPhys ≠ 0 → u64At mem (rsdpPhys + 24) ≠ 0 →
    acpiSdtHeaderSize ≤ (xsdtLength mem rsdpPhys).toNat

namespace X86_64

/-- `acpi_dmar_present` reads this byte: it comes to a pointer when no table before it is a
DMAR. -/
def DmarReads (mem : Mem) (rsdpPhys : UInt64) (read : EntryRead) : Prop :=
  ∃ before addr after, tables mem rsdpPhys = before ++ addr :: after ∧
    (∀ earlier ∈ before, (AcpiSdtHeader.read mem earlier).signature ≠ dmarSignature) ∧
      ∃ j < 8, read = pointerRead mem rsdpPhys before.length j

/-- The loop of `acpi_dmar_present` is over a range and always ends. -/
def DmarStaysInside (mem : Mem) (rsdpPhys : UInt64) : Prop :=
  NoUnderflow mem rsdpPhys ∧ ∀ read, DmarReads mem rsdpPhys read → read.Inside

end X86_64

namespace Arm64

/-- What one iteration of the scan reads: the type and the length of a sub-structure, and all
of a distributor entry. -/
def entryReads (mem : Mem) (madtAddr : UInt64) (length offset : UInt32) : List EntryRead :=
  if offset < length then
    ⟨length, offset.toNat⟩ :: ⟨length, offset.toNat + 1⟩ ::
      if mem (madtAddr + offset.toUInt64) = madtGicDistributorType then
        (List.range 24).map fun k => ⟨length, offset.toNat + k⟩
      else []
  else []

/-- `find_gicd_in_madt` reads this byte. -/
def FindGicdReads (mem : Mem) (madtAddr : UInt64) (length : UInt32) (read : EntryRead) : Prop :=
  ∃ offset, Loop.Reaches (madtBody mem madtAddr length) madtStart offset ∧
    read ∈ entryReads mem madtAddr length offset

def FindGicdStaysInside (mem : Mem) (madtAddr : UInt64) (length : UInt32) : Prop :=
  (∃ base, Loop.Settles (fun fuel => findGicdInMadt fuel mem madtAddr length) base) ∧
    ∀ read, FindGicdReads mem madtAddr length read → read.Inside

/-- `acpi_discover` reads this byte: it comes to a pointer when it is done with the tables
before it, and it scans the table behind the pointer when that is a MADT. -/
def DiscoverReads (mem : Mem) (rsdpPhys : UInt64) (read : EntryRead) : Prop :=
  ∃ before addr after, tables mem rsdpPhys = before ++ addr :: after ∧
    (∃ result, Loop.Settles
      (fun fuel => before.foldlM (discoverTable fuel mem) ⟨none, false⟩) result) ∧
      ((∃ j < 8, read = pointerRead mem rsdpPhys before.length j) ∨
        (AcpiSdtHeader.read mem addr).signature = madtSignature ∧
          FindGicdReads mem addr (AcpiSdtHeader.read mem addr).length read)

def DiscoverStaysInside (mem : Mem) (rsdpPhys : UInt64) : Prop :=
  NoUnderflow mem rsdpPhys ∧
    (∃ result, Loop.Settles (fun fuel => acpiDiscover fuel mem rsdpPhys) result) ∧
      ∀ read, DiscoverReads mem rsdpPhys read → read.Inside

end Arm64

/-! ### Tables that are safe to walk -/

/-- There is no XSDT, or its length covers its header. -/
def XsdtOk (mem : Mem) (rsdpPhys : UInt64) : Prop :=
  rsdpPhys = 0 ∨ u64At mem (rsdpPhys + 24) = 0 ∨
    acpiSdtHeaderSize ≤ (xsdtLength mem rsdpPhys).toNat

/-- Where the sub-structures start, each one behind the one before. Offsets are 32-bit. -/
def entryOffset (mem : Mem) (madtAddr : UInt64) : ℕ → UInt32
  | 0 => Arm64.madtStart
  | n + 1 =>
    let offset := entryOffset mem madtAddr n
    offset + (mem (madtAddr + offset.toUInt64 + 1)).toUInt32

/-- The first two bytes of what stands at this offset are inside the table, and all of it is
when it is a distributor. -/
def EntryFits (mem : Mem) (madtAddr : UInt64) (length offset : UInt32) : Prop :=
  offset < length → offset.toNat + 2 ≤ length.toNat ∧
    (mem (madtAddr + offset.toUInt64) = Arm64.madtGicDistributorType →
      offset.toNat + 24 ≤ length.toNat)

/-- The sub-structures come to an end, and up to there they fit. -/
def MadtOk (mem : Mem) (madtAddr : UInt64) (length : UInt32) : Prop :=
  ∃ n, (∀ m < n, Arm64.IsSkipped mem madtAddr length (entryOffset mem madtAddr m)) ∧
    ¬ Arm64.IsSkipped mem madtAddr length (entryOffset mem madtAddr n) ∧
      ∀ m ≤ n, EntryFits mem madtAddr length (entryOffset mem madtAddr m)

/-! ### The XSDT -/

theorem noUnderflow_iff (mem : Mem) (rsdpPhys : UInt64) :
    NoUnderflow mem rsdpPhys ↔ XsdtOk mem rsdpPhys := by
  rw [NoUnderflow, XsdtOk, imp_iff_not_or, imp_iff_not_or, not_not, not_not]

/-- With a length that covers the header, every pointer the walk comes to is inside. -/
theorem pointerRead_inside {mem : Mem} {rsdpPhys : UInt64} {before after : List UInt64}
    {addr : UInt64} {j : ℕ} (hok : XsdtOk mem rsdpPhys)
    (htables : tables mem rsdpPhys = before ++ addr :: after) (hj : j < 8) :
    (pointerRead mem rsdpPhys before.length j).Inside := by
  have hlength := congrArg List.length htables
  rw [List.length_append, List.length_cons] at hlength
  by_cases hrsdp : rsdpPhys = 0
  · rw [tables, if_pos hrsdp, List.length_nil] at hlength
    omega
  · by_cases hxsdt : u64At mem (rsdpPhys + 24) = 0
    · rw [tables, if_neg hrsdp, if_pos hxsdt, List.length_nil] at hlength
      omega
    · have hheader := (hok.resolve_left hrsdp).resolve_left hxsdt
      rw [tables, if_neg hrsdp, if_neg hxsdt, List.length_map, List.length_range,
        toNat_entryCount hheader, ← xsdtLength] at hlength
      show acpiSdtHeaderSize + 8 * before.length + j < (xsdtLength mem rsdpPhys).toNat
      omega

theorem X86_64.dmarStaysInside_iff (mem : Mem) (rsdpPhys : UInt64) :
    DmarStaysInside mem rsdpPhys ↔ XsdtOk mem rsdpPhys := by
  rw [DmarStaysInside, noUnderflow_iff, and_iff_left_iff_imp]
  rintro hok read ⟨before, addr, after, htables, -, j, hj, rfl⟩
  exact pointerRead_inside hok htables hj

/-! ### The MADT -/

section Madt

variable {mem : Mem} {madtAddr : UInt64} {length offset : UInt32}

/-- The scan goes from one sub-structure to the next. -/
theorem reaches_iff : Loop.Reaches (Arm64.madtBody mem madtAddr length) Arm64.madtStart offset ↔
    ∃ n, offset = entryOffset mem madtAddr n ∧
      ∀ m < n, Arm64.IsSkipped mem madtAddr length (entryOffset mem madtAddr m) := by
  constructor
  · intro h
    induction h with
    | refl => exact ⟨0, rfl, fun m hm => absurd hm (Nat.not_lt_zero m)⟩
    | @tail offset next _ hstep ih =>
      obtain ⟨n, rfl, hskipped⟩ := ih
      by_cases hn : Arm64.IsSkipped mem madtAddr length (entryOffset mem madtAddr n)
      · rw [Arm64.madtBody_of_isSkipped hn] at hstep
        cases hstep
        refine ⟨n + 1, rfl, fun m hm => ?_⟩
        obtain hm | rfl := Nat.lt_succ_iff_lt_or_eq.mp hm
        · exact hskipped m hm
        · exact hn
      · obtain ⟨base, hbase⟩ := Arm64.exists_leave_of_not_isSkipped hn
        rw [hbase] at hstep
        cases hstep
  · rintro ⟨n, rfl, hskipped⟩
    induction n with
    | zero => exact .refl
    | succ n ih =>
      refine (ih fun m hm => hskipped m (Nat.lt_succ_of_lt hm)).tail ?_
      exact Arm64.madtBody_of_isSkipped (hskipped n (Nat.lt_succ_self n))

/-- One iteration reads inside the table exactly when what it looks at fits. -/
theorem entryReads_inside_iff :
    (∀ read ∈ Arm64.entryReads mem madtAddr length offset, read.Inside) ↔
      EntryFits mem madtAddr length offset := by
  rw [Arm64.entryReads, EntryFits]
  by_cases hlt : offset < length
  · have hlt' := UInt32.lt_iff_toNat_lt.mp hlt
    by_cases htype : mem (madtAddr + offset.toUInt64) = Arm64.madtGicDistributorType
    · rw [if_pos hlt, if_pos htype]
      simp only [hlt, htype, true_imp_iff, List.forall_mem_cons, List.forall_mem_map,
        List.mem_range, EntryRead.Inside]
      constructor
      · intro ⟨_, _, hall⟩
        have := hall 23 (by decide)
        omega
      · intro ⟨_, hfits⟩
        refine ⟨hlt', by omega, fun k hk => by omega⟩
    · rw [if_pos hlt, if_neg htype]
      simp only [hlt, htype, true_imp_iff, false_imp_iff, and_true, List.forall_mem_cons,
        EntryRead.Inside, List.not_mem_nil, implies_true]
      exact ⟨fun h => h.2, fun h => ⟨hlt', h⟩⟩
  · simp [hlt]

theorem findGicdReads_inside_iff :
    (∀ read, Arm64.FindGicdReads mem madtAddr length read → read.Inside) ↔
      ∀ n, (∀ m < n, Arm64.IsSkipped mem madtAddr length (entryOffset mem madtAddr m)) →
        EntryFits mem madtAddr length (entryOffset mem madtAddr n) := by
  constructor
  · intro h n hskipped
    refine entryReads_inside_iff.mp fun read hread => h read ⟨_, ?_, hread⟩
    exact reaches_iff.mpr ⟨n, rfl, hskipped⟩
  · rintro h read ⟨offset, hreach, hread⟩
    obtain ⟨n, rfl, hskipped⟩ := reaches_iff.mp hreach
    exact entryReads_inside_iff.mpr (h n hskipped) read hread

theorem exists_settles_iff :
    (∃ base, Loop.Settles (fun fuel => Arm64.findGicdInMadt fuel mem madtAddr length) base) ↔
      ∃ n, (∀ m < n, Arm64.IsSkipped mem madtAddr length (entryOffset mem madtAddr m)) ∧
        ¬ Arm64.IsSkipped mem madtAddr length (entryOffset mem madtAddr n) := by
  constructor
  · rintro ⟨base, enough, hbase⟩
    have hreturns : Loop.Returns (Arm64.madtBody mem madtAddr length) Arm64.madtStart base :=
      ⟨enough, hbase enough le_rfl⟩
    obtain ⟨offset, hreach, hleave⟩ := hreturns.exists_leave
    obtain ⟨n, rfl, hskipped⟩ := reaches_iff.mp hreach
    refine ⟨n, hskipped, fun hn => ?_⟩
    rw [Arm64.madtBody_of_isSkipped hn] at hleave
    cases hleave
  · rintro ⟨n, hskipped, hn⟩
    obtain ⟨base, hbase⟩ := Arm64.exists_leave_of_not_isSkipped hn
    have hreach := reaches_iff.mpr ⟨n, rfl, hskipped⟩
    exact ⟨base, ((Loop.returns_of_leave hbase).of_reaches hreach).settles⟩

theorem Arm64.findGicdStaysInside_iff (mem : Mem) (madtAddr : UInt64) (length : UInt32) :
    FindGicdStaysInside mem madtAddr length ↔ MadtOk mem madtAddr length := by
  rw [FindGicdStaysInside, exists_settles_iff, findGicdReads_inside_iff]
  constructor
  · rintro ⟨⟨n, hskipped, hn⟩, hfits⟩
    exact ⟨n, hskipped, hn, fun m hm => hfits m fun k hk => hskipped k (hk.trans_le hm)⟩
  · rintro ⟨n, hskipped, hn, hfits⟩
    refine ⟨⟨n, hskipped, hn⟩, fun m hm => hfits m ?_⟩
    -- the scan does not get past the first thing it does not skip
    exact Nat.le_of_not_lt fun hlt => hn (hm n hlt)

end Madt

/-! ### Discovery -/

namespace Arm64

/-- A walk that comes to an end has scanned every MADT on its way. -/
theorem exists_scan_of_foldlM {fuel : ℕ} {mem : Mem} {addrs : List UInt64}
    {result result' : AcpiDiscoveryResult}
    (h : addrs.foldlM (discoverTable fuel mem) result = some result') :
    ∀ addr ∈ addrs, (AcpiSdtHeader.read mem addr).signature = madtSignature →
      ∃ base, findGicdInMadt fuel mem addr (AcpiSdtHeader.read mem addr).length = some base := by
  induction addrs generalizing result with
  | nil => exact fun addr haddr => absurd haddr List.not_mem_nil
  | cons first addrs ih =>
    rw [List.foldlM_cons] at h
    obtain ⟨next, hfirst, hrest⟩ := Option.bind_eq_some_iff.mp h
    intro addr haddr hmadt
    obtain rfl | haddr := List.mem_cons.mp haddr
    · rw [discoverTable, if_pos hmadt] at hfirst
      obtain ⟨base, hbase, -⟩ := Option.map_eq_some_iff.mp hfirst
      exact ⟨base, hbase⟩
    · exact ih hrest addr haddr hmadt

theorem discoverStaysInside_iff (mem : Mem) (rsdpPhys : UInt64) :
    DiscoverStaysInside mem rsdpPhys ↔ XsdtOk mem rsdpPhys ∧
      ∀ addr ∈ tables mem rsdpPhys, (AcpiSdtHeader.read mem addr).signature = madtSignature →
        MadtOk mem addr (AcpiSdtHeader.read mem addr).length := by
  rw [DiscoverStaysInside, noUnderflow_iff]
  refine and_congr_right fun hok => ?_
  constructor
  · rintro ⟨⟨result, enough, hresult⟩, hreads⟩ addr haddr hmadt
    have hscan : ∀ addr ∈ tables mem rsdpPhys,
        (AcpiSdtHeader.read mem addr).signature = madtSignature → ∃ base, Loop.Settles
          (fun fuel => findGicdInMadt fuel mem addr (AcpiSdtHeader.read mem addr).length) base := by
      intro addr haddr hmadt
      obtain ⟨base, hbase⟩ := exists_scan_of_foldlM (hresult enough le_rfl) addr haddr hmadt
      exact ⟨base, Loop.Returns.settles ⟨enough, hbase⟩⟩
    refine (findGicdStaysInside_iff ..).mp ⟨hscan addr haddr hmadt, fun read hread => ?_⟩
    -- the walk comes to this table, since it comes to an end
    obtain ⟨before, after, htables⟩ := List.append_of_mem haddr
    refine hreads read ⟨before, addr, after, htables, ?_, .inr ⟨hmadt, hread⟩⟩
    refine Loop.exists_settles_foldlM _ _ fun earlier hearlier => ?_
    have hmem : earlier ∈ tables mem rsdpPhys := by
      rw [htables]
      exact List.mem_append_left _ hearlier
    exact exists_settles_discoverTable (hscan earlier hmem)
  · intro hmadts
    have hinside := fun addr haddr hmadt =>
      (findGicdStaysInside_iff mem addr _).mpr (hmadts addr haddr hmadt)
    constructor
    · exact Loop.exists_settles_foldlM _ _ fun addr haddr =>
        exists_settles_discoverTable fun hmadt => (hinside addr haddr hmadt).1
    · rintro read ⟨before, addr, after, htables, -, ⟨j, hj, rfl⟩ | ⟨hmadt, hread⟩⟩
      · exact pointerRead_inside hok htables hj
      · have haddr : addr ∈ tables mem rsdpPhys := by
          rw [htables]
          exact List.mem_append_right _ (List.mem_cons_self ..)
        exact (hinside addr haddr hmadt).2 read hread

end Arm64

/-- The walks come to an end and read only inside the tables exactly when the length of the
XSDT covers its header, and in every MADT that is scanned the chain of sub-structures ends
before it reaches one that the table cuts off. -/
theorem walks_stay_inside_iff (mem : Mem) :
    (∀ rsdpPhys, X86_64.DmarStaysInside mem rsdpPhys ↔ XsdtOk mem rsdpPhys) ∧
      (∀ madtAddr length,
        Arm64.FindGicdStaysInside mem madtAddr length ↔ MadtOk mem madtAddr length) ∧
      ∀ rsdpPhys, Arm64.DiscoverStaysInside mem rsdpPhys ↔ XsdtOk mem rsdpPhys ∧
        ∀ addr ∈ tables mem rsdpPhys, (AcpiSdtHeader.read mem addr).signature = madtSignature →
          MadtOk mem addr (AcpiSdtHeader.read mem addr).length :=
  ⟨X86_64.dmarStaysInside_iff mem, Arm64.findGicdStaysInside_iff mem,
    Arm64.discoverStaysInside_iff mem⟩

/-- A table of 45 bytes ends behind the type of its first sub-structure, whose length is read
all the same. An XSDT at `0x2000` that declares no length at all makes the count wrap. -/
theorem walks_leave_tables :
    ¬ Arm64.FindGicdStaysInside (fun _ => 0) 0x1000 45 ∧
      ¬ X86_64.DmarStaysInside (fun addr => if addr = 0x1019 then 0x20 else 0) 0x1000 ∧
      ¬ Arm64.DiscoverStaysInside (fun addr => if addr = 0x1019 then 0x20 else 0) 0x1000 := by
  have hxsdt : ¬ XsdtOk (fun addr => if addr = 0x1019 then 0x20 else 0) 0x1000 := by
    rw [XsdtOk]
    decide +kernel
  refine ⟨fun h => ?_, fun h => hxsdt ((noUnderflow_iff ..).mp h.1),
    fun h => hxsdt ((noUnderflow_iff ..).mp h.1)⟩
  have hinside : EntryRead.Inside ⟨45, 45⟩ :=
    h.2 _ ⟨Arm64.madtStart, .refl, by decide +kernel⟩
  exact absurd hinside (Nat.lt_irrefl 45)

end SimurghHal.Firmware
