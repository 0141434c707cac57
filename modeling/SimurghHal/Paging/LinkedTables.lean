import SimurghHal.Core.Image
import SimurghHal.Paging.Formats

/-!
# Table entries for tables at their link addresses

The static tables are in `.bss`, so the pointers `map_page` packs into entries are link
addresses, `KERNEL_VMA_BASE` above the physical ones. An entry has no room for one: its
upper bits end up outside the address field, and reading the entry back gives another
pointer.
-/

namespace SimurghHal.Paging

open Words

/-- The bits of a table entry that hold the address of the table. -/
def addressFieldMask : Arch → UInt64
  | .x86_64 => X86_64.addrMask
  | .arm64 => Arm64.addrMask
  | .riscv64 => 0x003FFFFFFFFFFC00

/-- The address a table entry holds. -/
def addressField (arch : Arch) (entry : UInt64) : UInt64 :=
  match arch with
  | .x86_64 => entry &&& X86_64.addrMask
  | .arm64 => entry &&& Arm64.addrMask
  | .riscv64 => Riscv64.ppn entry <<< 12

/-- The flags `map_page` gives an entry for a table. -/
def tableFlags : Arch → UInt64
  | .x86_64 => X86_64.ptePresent ||| X86_64.pteWritable ||| X86_64.pteUserAccessible
  | .arm64 => Arm64.pteValid ||| Arm64.pteTableOrPage
  | .riscv64 => Riscv64.pteValid

/-- The entry stored for the table at `pointer`, which is at `phys` in physical memory,
leads the hardware and `map_page` to that table. -/
structure RoundTrips (arch : Arch) (phys pointer : UInt64) : Prop where
  address : addressField arch ((format arch).tableEntry pointer) = phys
  flags : (format arch).tableEntry pointer &&& ~~~addressFieldMask arch = tableFlags arch
  decoded : (format arch).tablePtr ((format arch).tableEntry pointer) = pointer

/-- Fields below a mask do not reach the flags beside it. -/
theorem or_and_not_mask {x c m : UInt64} (hx : x &&& m = x) (hc : c &&& ~~~m = c) :
    (x ||| c) &&& ~~~m = c := by
  rw [and_or_distrib_right, ← hx, UInt64.and_assoc, UInt64.and_not_self, UInt64.and_zero,
    UInt64.zero_or, hc]

/-- Tables at physical addresses would be found again. -/
theorem roundTrips_of_physical (arch : Arch) {phys : UInt64} (haligned : phys.toNat % 4096 = 0)
    (hlt : phys.toNat < 2 ^ physBits arch) : RoundTrips arch phys phys := by
  have hdecoded : (format arch).tablePtr ((format arch).tableEntry phys) = phys :=
    tablePtr_of_decode ((format_lawful arch).decode_tableEntry phys haligned hlt)
  cases arch with
  | x86_64 =>
    refine ⟨hdecoded, ?_, hdecoded⟩
    show X86_64.format.tableEntry phys &&& ~~~X86_64.addrMask = _
    rw [X86_64.tableEntry_eq]
    exact or_and_not_mask (X86_64.and_addrMask_of_aligned haligned hlt) (by decide)
  | arm64 =>
    refine ⟨hdecoded, ?_, hdecoded⟩
    show Arm64.format.tableEntry phys &&& ~~~Arm64.addrMask = _
    rw [Arm64.tableEntry_eq]
    exact or_and_not_mask (Arm64.and_addrMask_of_aligned haligned hlt) (by decide)
  | riscv64 =>
    have hpack : ((phys >>> 12) <<< 10).toNat = phys.toNat / 4096 * 1024 := by
      have hzero := toNat_pack (x := phys) (c := 0) (by decide)
      rw [UInt64.or_zero, UInt64.toNat_zero, Nat.add_zero] at hzero
      exact hzero
    -- the page number is stored from bit 10 on and ends below bit 54
    refine ⟨hdecoded, or_and_not_mask (and_run_eq_self (a := 10) (b := 54) (by omega) (by decide)
      ?_ ?_) (by decide), hdecoded⟩
    · rw [hpack]
      simp only [physBits] at hlt
      omega
    · rw [hpack]
      omega

/-! ### Link addresses -/

section Linked

variable {phys pointer : UInt64}

theorem bit_eq_decide (x : UInt64) (i : ℕ) : bit x i = decide (x.toNat / 2 ^ i % 2 = 1) :=
  Nat.testBit_eq_decide_div_mod_eq

/-- A bit outside the address field that no flag uses gives an entry away. -/
theorem flags_ne_of_bit {arch : Arch} {e : UInt64} (i : ℕ) (he : bit e i = true)
    (hmask : bit (~~~addressFieldMask arch) i = true) (hflags : bit (tableFlags arch) i = false) :
    e &&& ~~~addressFieldMask arch ≠ tableFlags arch := by
  intro h
  have hbit := congrArg (bit · i) h
  simp only [bit_and, he, hmask, hflags, Bool.and_self] at hbit
  cases hbit

/-- Every link address has its upper bits set, and they end up beside the address field. -/
theorem tableEntry_flags_ne (arch : Arch)
    (hpointer : pointer.toNat = kernelVmaBase arch + phys.toNat) :
    (format arch).tableEntry pointer &&& ~~~addressFieldMask arch ≠ tableFlags arch := by
  have hlt := pointer.toNat_lt
  have hbit : bit pointer 63 = true := by
    rw [bit_eq_decide, decide_eq_true_eq]
    cases arch <;> simp only [kernelVmaBase] at hpointer <;> omega
  cases arch with
  | x86_64 =>
    refine flags_ne_of_bit 63 ?_ (by decide) (by decide)
    rw [show (format .x86_64).tableEntry pointer = pointer ||| 7 from X86_64.tableEntry_eq _,
      bit_or, hbit, Bool.true_or]
  | arm64 =>
    refine flags_ne_of_bit 63 ?_ (by decide) (by decide)
    rw [show (format .arm64).tableEntry pointer = pointer ||| 3 from Arm64.tableEntry_eq _,
      bit_or, hbit, Bool.true_or]
  | riscv64 =>
    -- bit 63 of the pointer is stored two bits lower
    refine flags_ne_of_bit 61 ?_ (by decide) (by decide)
    have hpack := toNat_pack (x := pointer) (c := Riscv64.pteValid) (by decide)
    rw [bit_eq_decide, decide_eq_true_eq]
    show (((pointer >>> 12) <<< 10) ||| Riscv64.pteValid).toNat / 2 ^ 61 % 2 = 1
    rw [hpack, show Riscv64.pteValid.toNat = 1 from rfl]
    simp only [kernelVmaBase] at hpointer
    omega

/-- What is read back from an entry fits into a physical address, which no link address
does. -/
theorem tablePtr_ne (arch : Arch) (hpointer : pointer.toNat = kernelVmaBase arch + phys.toNat)
    (e : UInt64) : (format arch).tablePtr e ≠ pointer := by
  have hmask : ∀ m : UInt64, (e &&& m).toNat ≤ m.toNat := by
    intro m
    rw [UInt64.toNat_and]
    exact Nat.and_le_right
  intro h
  have hnat := congrArg UInt64.toNat h
  cases arch with
  | x86_64 =>
    have hle := hmask X86_64.addrMask
    simp only [kernelVmaBase] at hpointer
    rw [show X86_64.addrMask.toNat = 0x000FFFFFFFFFF000 from rfl] at hle
    change (e &&& X86_64.addrMask).toNat = _ at hnat
    omega
  | arm64 =>
    have hle := hmask Arm64.addrMask
    simp only [kernelVmaBase] at hpointer
    rw [show Arm64.addrMask.toNat = 0x0000FFFFFFFFF000 from rfl] at hle
    change (e &&& Arm64.addrMask).toNat = _ at hnat
    omega
  | riscv64 =>
    have hfield := toNat_shiftRight_and (x := e) (s := 10) (m := 0x0FFFFFFFFFFF) (k := 44)
      (by decide) (by decide)
    simp only [kernelVmaBase] at hpointer
    change (((e >>> 10) &&& 0x0FFFFFFFFFFF) <<< 12).toNat = _ at hnat
    rw [UInt64.toNat_shiftLeft, hfield] at hnat
    simp only [UInt64.reduceToNat, Nat.reduceMod, Nat.shiftLeft_eq] at hnat
    omega

/-- On two of the architectures even the address field is wrong: it keeps some of the bits
of the link base. -/
theorem addressField_ne (arch : Arch) (harch : arch ≠ .arm64)
    (hpointer : pointer.toNat = kernelVmaBase arch + phys.toNat) :
    addressField arch ((format arch).tableEntry pointer) ≠ phys := by
  have hlt := pointer.toNat_lt
  intro h
  have hnat := congrArg UInt64.toNat h
  cases arch with
  | arm64 => exact harch rfl
  | x86_64 =>
    simp only [kernelVmaBase] at hpointer
    have hentry : addressField .x86_64 ((format .x86_64).tableEntry pointer) =
        pointer &&& X86_64.addrMask := by
      show X86_64.format.tableEntry pointer &&& X86_64.addrMask = _
      rw [X86_64.tableEntry_eq, and_or_distrib_right,
        show (7 : UInt64) &&& X86_64.addrMask = 0 by decide, UInt64.or_zero]
    rw [hentry, toNat_and_run (a := 12) (b := 52) (by omega) (by decide)] at hnat
    omega
  | riscv64 =>
    simp only [kernelVmaBase] at hpointer
    have hentry : addressField .riscv64 ((format .riscv64).tableEntry pointer) =
        ((pointer >>> 12) &&& 0x0FFFFFFFFFFF) <<< 12 := by
      show Riscv64.ppn (((pointer >>> 12) <<< 10) ||| Riscv64.pteValid) <<< 12 = _
      rw [Riscv64.ppn, pack_shiftRight (by decide)]
    rw [hentry, Riscv64.toNat_ppnField] at hnat
    omega

end Linked

/-- No table at its link address is found again. The flag bits are wrong on every
architecture and so is the pointer `map_page` goes on with; on x86_64 and RISC-V the
hardware is sent to another address, too. -/
theorem not_roundTrips_of_linked (arch : Arch) (phys pointer : UInt64)
    (hpointer : pointer.toNat = kernelVmaBase arch + phys.toNat) :
    ¬ RoundTrips arch phys pointer ∧
      (format arch).tableEntry pointer &&& ~~~addressFieldMask arch ≠ tableFlags arch ∧
      (format arch).tablePtr ((format arch).tableEntry pointer) ≠ pointer ∧
      (arch ≠ .arm64 → addressField arch ((format arch).tableEntry pointer) ≠ phys) :=
  ⟨fun h => tablePtr_ne arch hpointer _ h.decoded, tableEntry_flags_ne arch hpointer,
    tablePtr_ne arch hpointer _, fun harch => addressField_ne arch harch hpointer⟩

/-- A table in the `.bss` of the image `onePageEach`. -/
theorem not_roundTrips_of_linked_bss :
    ¬ RoundTrips .x86_64 0x204000 0xffffffff80204000 ∧
      ¬ RoundTrips .arm64 0x40204000 0xffff000040204000 ∧
      ¬ RoundTrips .riscv64 0x80204000 0xFFFFFFC080204000 :=
  ⟨(not_roundTrips_of_linked .x86_64 _ _ rfl).1, (not_roundTrips_of_linked .arm64 _ _ rfl).1,
    (not_roundTrips_of_linked .riscv64 _ _ rfl).1⟩

/-- `map_page` goes on at `0xFFFFF80204000` instead of at the table it has allocated. -/
theorem roundTrips_fails_x86_64 :
    ¬ RoundTrips .x86_64 0x204000 0xffffffff80204000 ∧
      (format .x86_64).tablePtr ((format .x86_64).tableEntry 0xffffffff80204000) =
        0x000FFFFF80204000 := by
  refine ⟨fun h => absurd h.decoded (by decide), by decide⟩

end SimurghHal.Paging
