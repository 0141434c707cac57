import SimurghHal.Paging.Hardware

/-!
# Entries of the three formats

What the generic results need to know about the bit layouts: pointers to tables
survive being packed into an entry, the hardware takes a table entry for an
unrestricted table, two addresses share a slot exactly when they agree on the bits
that are translated, and what an entry of the last level grants.
-/

namespace SimurghHal.Paging

open Words

/-- Number of virtual address bits that select an entry or a byte of the page. -/
def vaBits : Arch → ℕ
  | .x86_64 => 48
  | .arm64 => 48
  | .riscv64 => 39

/-- A format that keeps table pointers in place, below a mask and above flag bits that
include the present bit. -/
theorem lawful_of_mask {F : PagingFormat} {b : ℕ} {mask c : UInt64} (hb : 12 ≤ b)
    (hmask : mask.toNat = 2 ^ b - 2 ^ 12) (hentry : ∀ n, F.tableEntry n = n ||| c)
    (hptr : ∀ e, F.tablePtr e = e &&& mask) (hc : c &&& mask = 0) (hpresent : F.present = 1)
    (hbit : bit c 0 = true) : F.Lawful b := by
  refine ⟨fun n ha hlt => ?_⟩
  have hn : n &&& mask = n := and_run_eq_self hb hmask hlt ha
  have hset : ¬ F.tableEntry n &&& F.present = 0 := by
    rw [hentry, hpresent, and_one_eq_zero_iff, bit_or, hbit, Bool.or_true]
    decide
  rw [decode, if_neg hset, hptr, hentry, or_and_of_disjoint hn hc]

namespace X86_64

theorem and_addrMask_of_aligned {n : UInt64} (ha : n.toNat % 4096 = 0) (hlt : n.toNat < 2 ^ 52) :
    n &&& addrMask = n :=
  and_run_eq_self (a := 12) (b := 52) (by omega) (by decide) hlt ha

theorem alignDown_and_addrMask {addr : UInt64} (h : addr.toNat < 2 ^ 52) :
    alignDown addr pageSize &&& addrMask = alignDown addr pageSize :=
  and_addrMask_of_aligned (alignDown_mod addr) ((alignDown_lt_two_pow_iff (by decide)).mpr h)

theorem tableEntry_eq (n : UInt64) : format.tableEntry n = n ||| 7 := by
  simp only [format, UInt64.or_assoc]
  rfl

theorem lawful : format.Lawful 52 :=
  lawful_of_mask (by omega) (show addrMask.toNat = _ by decide) tableEntry_eq (fun _ => rfl)
    (by decide) rfl (by decide)

theorem viewLawful : ViewLawful format 52 view := by
  refine ⟨?_, ?_, ?_⟩
  · intro level e he
    rw [show format.present = 1 from rfl, and_one_eq_zero_iff] at he
    simp [view, he]
  · intro level n ha hlt
    have hn := and_addrMask_of_aligned ha hlt
    have hbit : ∀ i, bit addrMask i = false → bit (n ||| 7) i = bit 7 i :=
      fun i hi => bit_or_of_and_eq_self hn hi
    have h63 : bit (n ||| 7) 63 = false := (hbit 63 (by decide)).trans (by decide)
    have h0 : bit (n ||| 7) 0 = true := (hbit 0 (by decide)).trans (by decide)
    have h1 : bit (n ||| 7) 1 = true := (hbit 1 (by decide)).trans (by decide)
    have h2 : bit (n ||| 7) 2 = true := (hbit 2 (by decide)).trans (by decide)
    have h7 : bit (n ||| 7) 7 = false := (hbit 7 (by decide)).trans (by decide)
    have hptr : (n ||| 7) &&& addrMask = n := or_and_of_disjoint hn (by decide)
    -- bit 7 would make the entry a large page at the two levels above the last
    rw [tableEntry_eq]
    match level with
    | 0 => simp [view, h0, h1, h2, h7, h63, hptr, Rights.all]
    | 1 => simp [view, h0, h1, h2, h7, h63, hptr, Rights.all]
    | _ + 2 => simp [view, h0, h1, h2, h7, h63, hptr, Rights.all]
  · intro e n r
    unfold view
    split <;> simp

theorem permissionsToFlags_bits (perms : MapPermissions) :
    permissionsToFlags perms &&& addrMask = 0 ∧ bit (permissionsToFlags perms) 1 = perms.writable ∧
      bit (permissionsToFlags perms) 2 = false ∧
      bit (permissionsToFlags perms) 4 = perms.deviceUncached ∧
      bit (permissionsToFlags perms) 63 = !perms.executable := by
  obtain ⟨r, w, x, u⟩ := perms
  revert r w x u
  decide

/-- What the hardware makes of the entry `map_page` writes. -/
theorem view_leafEntry (phys : UInt64) (perms : MapPermissions) :
    view 0 (format.leafEntry phys (permissionsToFlags perms)) =
      .page (phys &&& addrMask) 0xFFF ⟨true, perms.writable, perms.executable, false⟩
        perms.deviceUncached := by
  obtain ⟨hmask, h1, h2, h4, h63⟩ := permissionsToFlags_bits perms
  have hbase : format.leafEntry phys (permissionsToFlags perms) &&& addrMask =
      phys &&& addrMask := by
    simp only [format, UInt64.or_assoc]
    refine or_and_of_disjoint ?_ ?_
    · rw [UInt64.and_assoc, UInt64.and_self]
    · rw [and_or_distrib_right, hmask]
      rfl
  have hbit : ∀ i, bit addrMask i = false → bit ptePresent i = false →
      bit (format.leafEntry phys (permissionsToFlags perms)) i =
        bit (permissionsToFlags perms) i := by
    intro i hi hp
    simp [format, hi, hp]
  have hpresent : bit (format.leafEntry phys (permissionsToFlags perms)) 0 = true := by
    simp [format, show bit ptePresent 0 = true by decide]
  simp only [view, hpresent, hbase, hbit 1 (by decide) (by decide), hbit 2 (by decide) (by decide),
    hbit 4 (by decide) (by decide), hbit 63 (by decide) (by decide), h1, h2, h4, h63]
  simp

end X86_64

namespace Arm64

theorem and_addrMask_of_aligned {n : UInt64} (ha : n.toNat % 4096 = 0) (hlt : n.toNat < 2 ^ 48) :
    n &&& addrMask = n :=
  and_run_eq_self (a := 12) (b := 48) (by omega) (by decide) hlt ha

theorem alignDown_and_addrMask {addr : UInt64} (h : addr.toNat < 2 ^ 48) :
    alignDown addr pageSize &&& addrMask = alignDown addr pageSize :=
  and_addrMask_of_aligned (alignDown_mod addr) ((alignDown_lt_two_pow_iff (by decide)).mpr h)

theorem tableEntry_eq (n : UInt64) : format.tableEntry n = n ||| 3 := by
  simp only [format, UInt64.or_assoc]
  rfl

theorem lawful : format.Lawful 48 :=
  lawful_of_mask (by omega) (show addrMask.toNat = _ by decide) tableEntry_eq (fun _ => rfl)
    (by decide) rfl (by decide)

theorem viewLawful : ViewLawful format 48 view := by
  refine ⟨?_, ?_, ?_⟩
  · intro level e he
    rw [show format.present = 1 from rfl, and_one_eq_zero_iff] at he
    simp [view, he]
  · intro level n ha hlt
    have hn := and_addrMask_of_aligned ha hlt
    have hbit : ∀ i, bit addrMask i = false → bit (n ||| 3) i = bit 3 i :=
      fun i hi => bit_or_of_and_eq_self hn hi
    have h0 : bit (n ||| 3) 0 = true := (hbit 0 (by decide)).trans (by decide)
    have h1 : bit (n ||| 3) 1 = true := (hbit 1 (by decide)).trans (by decide)
    have h59 : bit (n ||| 3) 59 = false := (hbit 59 (by decide)).trans (by decide)
    have h61 : bit (n ||| 3) 61 = false := (hbit 61 (by decide)).trans (by decide)
    have h62 : bit (n ||| 3) 62 = false := (hbit 62 (by decide)).trans (by decide)
    have hptr : (n ||| 3) &&& addrMask = n := or_and_of_disjoint hn (by decide)
    rw [tableEntry_eq]
    match level with
    | 0 => simp [view, h0, h1, h59, h61, h62, hptr, Rights.all]
    | 1 => simp [view, h0, h1, h59, h61, h62, hptr, Rights.all]
    | _ + 2 => simp [view, h0, h1, h59, h61, h62, hptr, Rights.all]
  · intro e n r
    simp only [view]
    split
    · simp
    · split <;> simp

/-- The bits of an entry of the last level below the address. -/
def leafBits (perms : MapPermissions) : UInt64 :=
  permissionsToFlags perms ||| (pteValid ||| (pteTableOrPage ||| pteAccessFlag))

theorem leafEntry_eq (phys : UInt64) (perms : MapPermissions) :
    format.leafEntry phys (permissionsToFlags perms) = (phys &&& addrMask) ||| leafBits perms := by
  simp only [format, leafBits, UInt64.or_assoc]

/-- The flags never reach the access permission field: bits 7 and 6 stay clear
whether the mapping is to be writable or not. -/
theorem leafBits_bits (perms : MapPermissions) :
    leafBits perms &&& addrMask = 0 ∧ bit (leafBits perms) 0 = true ∧
      bit (leafBits perms) 1 = true ∧ bit (leafBits perms) 10 = true ∧
      bit (leafBits perms) 6 = false ∧ bit (leafBits perms) 7 = false ∧
      bit (leafBits perms) 53 = !perms.executable ∧
      ((leafBits perms >>> 2) &&& (7 : UInt64) == 1) = perms.deviceUncached := by
  obtain ⟨r, w, x, u⟩ := perms
  revert r w x u
  decide

theorem bit_leafEntry (phys : UInt64) (perms : MapPermissions) {i : ℕ}
    (hi : bit addrMask i = false) :
    bit (format.leafEntry phys (permissionsToFlags perms)) i = bit (leafBits perms) i := by
  rw [leafEntry_eq, bit_or, bit_and, hi, Bool.and_false, Bool.false_or]

/-- What the hardware makes of the entry `map_page` writes. -/
theorem view_leafEntry (phys : UInt64) (perms : MapPermissions) :
    view 0 (format.leafEntry phys (permissionsToFlags perms)) =
      .page (phys &&& addrMask) 0xFFF ⟨true, true, perms.executable, false⟩
        perms.deviceUncached := by
  obtain ⟨hmask, h0, h1, h10, h6, h7, h53, hattr⟩ := leafBits_bits perms
  have hbase : format.leafEntry phys (permissionsToFlags perms) &&& addrMask =
      phys &&& addrMask := by
    rw [leafEntry_eq]
    exact or_and_of_disjoint (by rw [UInt64.and_assoc, UInt64.and_self]) hmask
  have hattr' : (format.leafEntry phys (permissionsToFlags perms) >>> 2) &&& (7 : UInt64) =
      (leafBits perms >>> 2) &&& 7 := by
    rw [leafEntry_eq, UInt64.shiftRight_or, and_or_distrib_right, UInt64.shiftRight_and,
      UInt64.and_assoc, show (addrMask >>> 2) &&& 7 = 0 by decide, UInt64.and_zero, UInt64.zero_or]
  simp only [view, hbase, hattr', hattr, bit_leafEntry phys perms (i := 0) (by decide),
    bit_leafEntry phys perms (i := 1) (by decide), bit_leafEntry phys perms (i := 6) (by decide),
    bit_leafEntry phys perms (i := 7) (by decide), bit_leafEntry phys perms (i := 10) (by decide),
    bit_leafEntry phys perms (i := 53) (by decide), h0, h1, h6, h7, h10, h53]
  simp

end Arm64

namespace Riscv64

/-- The page number field holds 44 bits. -/
theorem toNat_ppnField (x : UInt64) :
    (((x >>> 12) &&& 0x0FFFFFFFFFFF) <<< 12).toNat = x.toNat / 4096 % 2 ^ 44 * 4096 := by
  have hfield := toNat_shiftRight_and (x := x) (s := 12) (m := 0x0FFFFFFFFFFF) (k := 44)
    (by decide) (by decide)
  rw [UInt64.toNat_shiftLeft, hfield]
  simp only [UInt64.reduceToNat, Nat.reduceMod, Nat.shiftLeft_eq, Nat.reducePow]
  omega

theorem ppnField_of_aligned {n : UInt64} (ha : n.toNat % 4096 = 0) (hlt : n.toNat < 2 ^ 56) :
    ((n >>> 12) &&& 0x0FFFFFFFFFFF) <<< 12 = n := by
  apply UInt64.toNat_inj.mp
  rw [toNat_ppnField]
  omega

theorem pack_reserved {n c : UInt64} (hlt : n.toNat < 2 ^ 56) (hc : c.toNat < 2 ^ 10) :
    (((n >>> 12) <<< 10) ||| c) >>> 54 = 0 := by
  apply UInt64.toNat_inj.mp
  rw [UInt64.toNat_shiftRight, toNat_pack hc]
  simp only [UInt64.reduceToNat, Nat.reduceMod, Nat.shiftRight_eq_div_pow, Nat.reducePow]
  omega

theorem tablePtr_tableEntry {n : UInt64} (ha : n.toNat % 4096 = 0) (hlt : n.toNat < 2 ^ 56) :
    format.tablePtr (format.tableEntry n) = n := by
  simp only [format]
  rw [pack_shiftRight (by decide)]
  exact ppnField_of_aligned ha hlt

theorem lawful : format.Lawful 56 := by
  refine ⟨fun n ha hlt => ?_⟩
  have hpresent : format.tableEntry n &&& format.present ≠ 0 := by
    rw [show format.present = 1 from rfl, Ne, and_one_eq_zero_iff]
    simp only [format, bit_pack (show 0 < 10 by omega)]
    decide
  rw [decode, if_neg hpresent, tablePtr_tableEntry ha hlt]

theorem viewLawful : ViewLawful format 56 view := by
  refine ⟨?_, ?_, ?_⟩
  · intro level e he
    rw [show format.present = 1 from rfl, and_one_eq_zero_iff] at he
    simp [view, he]
  · intro level n ha hlt
    have hbit : ∀ i < 10, bit (format.tableEntry n) i = bit pteValid i := fun i hi => bit_pack hi
    have hreserved : format.tableEntry n >>> 54 = 0 := pack_reserved hlt (by decide)
    have hptr : ppn (format.tableEntry n) <<< 12 = n := tablePtr_tableEntry ha hlt
    simp only [view, hreserved, hptr, hbit 0 (by omega), hbit 1 (by omega), hbit 2 (by omega),
      hbit 3 (by omega), hbit 4 (by omega), hbit 6 (by omega), hbit 7 (by omega),
      show bit pteValid 0 = true by decide, show bit pteValid 1 = false by decide,
      show bit pteValid 2 = false by decide, show bit pteValid 3 = false by decide,
      show bit pteValid 4 = false by decide, show bit pteValid 6 = false by decide,
      show bit pteValid 7 = false by decide]
    simp
  · intro e n r
    simp only [view]
    split
    · simp
    · split
      · simp
      · split <;> simp

/-- The bits of an entry of the last level below the page number. -/
def leafBits (perms : MapPermissions) : UInt64 :=
  permissionsToFlags perms ||| (pteValid ||| (pteAccessed ||| pteDirty))

theorem leafEntry_eq (phys : UInt64) (perms : MapPermissions) :
    format.leafEntry phys (permissionsToFlags perms) =
      ((phys >>> 12) <<< 10) ||| leafBits perms := by
  simp only [format, leafBits, UInt64.or_assoc]

theorem leafBits_bits (perms : MapPermissions) :
    (leafBits perms).toNat < 2 ^ 10 ∧ bit (leafBits perms) 0 = true ∧
      bit (leafBits perms) 1 = true ∧ bit (leafBits perms) 2 = perms.writable ∧
      bit (leafBits perms) 3 = perms.executable ∧ bit (leafBits perms) 4 = false ∧
      bit (leafBits perms) 6 = true ∧ bit (leafBits perms) 7 = true := by
  obtain ⟨r, w, x, u⟩ := perms
  revert r w x u
  decide

/-- What the hardware makes of the entry `map_page` writes. -/
theorem view_leafEntry {phys : UInt64} (hphys : phys.toNat < 2 ^ 56) (perms : MapPermissions) :
    view 0 (format.leafEntry phys (permissionsToFlags perms)) =
      .page (((phys >>> 12) &&& 0x0FFFFFFFFFFF) <<< 12) 0xFFF
        ⟨true, perms.writable, perms.executable, false⟩ false := by
  obtain ⟨hlt, h0, h1, h2, h3, h4, h6, h7⟩ := leafBits_bits perms
  have hbit : ∀ i < 10, bit (format.leafEntry phys (permissionsToFlags perms)) i =
      bit (leafBits perms) i := by
    intro i hi
    rw [leafEntry_eq, bit_pack hi]
  have hreserved : format.leafEntry phys (permissionsToFlags perms) >>> 54 = 0 := by
    rw [leafEntry_eq, pack_reserved hphys hlt]
  have hppn : ppn (format.leafEntry phys (permissionsToFlags perms)) =
      (phys >>> 12) &&& 0x0FFFFFFFFFFF := by
    rw [ppn, leafEntry_eq, pack_shiftRight hlt]
  simp only [view, hreserved, hppn, hbit 0 (by omega), hbit 1 (by omega), hbit 2 (by omega),
    hbit 3 (by omega), hbit 4 (by omega), hbit 6 (by omega), hbit 7 (by omega), h0, h1, h2, h3, h4,
    h6, h7]
  simp

end Riscv64

/-! ### All three formats -/

theorem format_lawful : ∀ arch, (format arch).Lawful (physBits arch)
  | .x86_64 => X86_64.lawful
  | .arm64 => Arm64.lawful
  | .riscv64 => Riscv64.lawful

theorem format_viewLawful : ∀ arch, ViewLawful (format arch) (physBits arch) (view arch)
  | .x86_64 => X86_64.viewLawful
  | .arm64 => Arm64.viewLawful
  | .riscv64 => Riscv64.viewLawful

theorem tableIndex_eq {virt shift : UInt64} (h : shift.toNat < 64) :
    tableIndex virt shift = virt.toNat / 2 ^ shift.toNat % 512 :=
  toNat_shiftRight_and (k := 9) h (by decide)

/-- Two addresses use the same table of the last level exactly when they agree on
the translated bits above it. -/
theorem slotOf_fst_eq_iff (arch : Arch) (a v : UInt64) :
    (slotOf (format arch) a).1 = (slotOf (format arch) v).1 ↔
      a.toNat / 2 ^ 21 % 2 ^ (vaBits arch - 21) = v.toNat / 2 ^ 21 % 2 ^ (vaBits arch - 21) := by
  have hidx : ∀ x : UInt64, tableIndex x 39 = x.toNat / 2 ^ 39 % 512 ∧
      tableIndex x 30 = x.toNat / 2 ^ 30 % 512 ∧ tableIndex x 21 = x.toNat / 2 ^ 21 % 512 := by
    intro x
    exact ⟨tableIndex_eq (by decide), tableIndex_eq (by decide), tableIndex_eq (by decide)⟩
  -- the indices are the digits of the address to base 512
  obtain ⟨a1, a2, a3⟩ := hidx a
  obtain ⟨v1, v2, v3⟩ := hidx v
  cases arch <;>
    simp only [slotOf, format, X86_64.format, Arm64.format, Riscv64.format, vaBits, List.map_cons,
      List.map_nil, List.cons.injEq, and_true, a1, a2, a3, v1, v2, v3, Nat.reducePow,
      Nat.reduceSub] <;>
    omega

/-- Two addresses select the same entry exactly when they agree on the translated
bits of their page numbers. -/
theorem slotOf_eq_iff (arch : Arch) (a v : UInt64) :
    slotOf (format arch) a = slotOf (format arch) v ↔
      a.toNat / 4096 % 2 ^ (vaBits arch - 12) = v.toNat / 4096 % 2 ^ (vaBits arch - 12) := by
  have hidx : ∀ x : UInt64, (slotOf (format arch) x).2 = x.toNat / 2 ^ 12 % 512 :=
    fun x => tableIndex_eq (by decide)
  rw [Prod.ext_iff, slotOf_fst_eq_iff, hidx, hidx]
  cases arch <;> simp only [vaBits, Nat.reducePow, Nat.reduceSub] <;> omega

theorem slotOf_eq_iff_of_lt {arch : Arch} {a v : UInt64} (ha : a.toNat < 2 ^ vaBits arch)
    (hv : v.toNat < 2 ^ vaBits arch) :
    slotOf (format arch) a = slotOf (format arch) v ↔ a.toNat / 4096 = v.toNat / 4096 := by
  rw [slotOf_eq_iff]
  cases arch <;> simp only [vaBits, Nat.reducePow, Nat.reduceSub] at * <;> omega

/-- Rights the entries written for `perms` grant. The ARM64 entries do not encode
`writable`. -/
def grantedRights : Arch → MapPermissions → Rights
  | .arm64, perms => ⟨true, true, perms.executable, false⟩
  | _, perms => ⟨true, perms.writable, perms.executable, false⟩

/-- Whether the entries written for `perms` switch caching off. -/
def grantedUncached : Arch → MapPermissions → Bool
  | .riscv64, _ => false
  | _, perms => perms.deviceUncached

theorem alignDown_or_offset (virt : UInt64) :
    alignDown virt pageSize ||| (virt &&& 0xFFF) = virt := by
  rw [alignDown, ← and_or_distrib_left, show ~~~(pageSize - 1) ||| 0xFFF = -1 by decide,
    UInt64.and_neg_one]

/-- An address inside the physical range is mapped to itself by the entry written
for its page. -/
theorem pageTranslation_leafEntry (arch : Arch) (perms : MapPermissions) {virt : UInt64}
    (h : virt.toNat < 2 ^ vaBits arch) :
    pageTranslation virt (view arch 0 ((format arch).leafEntry (alignDown virt pageSize)
      ((format arch).permissionsToFlags perms))) =
      some ⟨virt, grantedRights arch perms, grantedUncached arch perms⟩ := by
  cases arch with
  | x86_64 =>
    have hmask := X86_64.alignDown_and_addrMask (h.trans (by decide))
    show pageTranslation virt (X86_64.view 0 (X86_64.format.leafEntry (alignDown virt pageSize)
      (X86_64.permissionsToFlags perms))) = _
    rw [X86_64.view_leafEntry, hmask]
    simp only [pageTranslation, alignDown_or_offset]
    rfl
  | arm64 =>
    have hmask := Arm64.alignDown_and_addrMask h
    show pageTranslation virt (Arm64.view 0 (Arm64.format.leafEntry (alignDown virt pageSize)
      (Arm64.permissionsToFlags perms))) = _
    rw [Arm64.view_leafEntry, hmask]
    simp only [pageTranslation, alignDown_or_offset]
    rfl
  | riscv64 =>
    have hlt : (alignDown virt pageSize).toNat < 2 ^ 56 :=
      (alignDown_lt_two_pow_iff (by decide)).mpr (h.trans (by decide))
    show pageTranslation virt (Riscv64.view 0 (Riscv64.format.leafEntry (alignDown virt pageSize)
      (Riscv64.permissionsToFlags perms))) = _
    rw [Riscv64.view_leafEntry hlt, Riscv64.ppnField_of_aligned (alignDown_mod virt) hlt]
    simp only [pageTranslation, alignDown_or_offset]
    rfl

/-- The hardware walk on tables built by the boot code. -/
theorem translate_eq {arch : Arch} {L : FrameLayout (physBits arch)} {s : PageTables}
    (hs : Inv (format arch) L s) {virt : UInt64} (h : InRange arch virt) :
    translate arch L s virt = pageTranslation virt (view arch 0
      (leafAt (format arch) L s (slotOf (format arch) virt).1 (slotOf (format arch) virt).2)) := by
  rw [translate, if_pos h, walkFrom_eq (format_viewLawful arch) hs]

end SimurghHal.Paging
