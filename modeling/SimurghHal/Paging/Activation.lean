import SimurghHal.Paging.Refinement

/-!
# Switching to the boot tables (`activate_page_tables` of `hal-*/src/memory.rs`)

`activate_page_tables` writes the control registers of the memory management unit, and
`current_page_table_phys` reads the root back for the boot structure. What the hardware then
does with an address depends on all of these registers, also on those the code leaves as it
found them: on x86_64 no-execute enable, write protection, the number of levels and the types
of memory, and on ARM64 the output size, which the new value of `TCR_EL1` sets to 32 bits, and
the write-implies-no-execute bit.

The rights are those of the code that runs the tables. None of its pages is open to user mode,
so that the bits about such pages (`SMEP`, `SMAP`, `PAN`, `SUM`) have no say. What a TLB still
holds of earlier tables is left out.

`mmu_activatePageTables` says what is left of the mappings, and `mmu_during_activation` that
what is mapped afterwards goes on being translated while the registers are written.
-/

namespace SimurghHal.Paging

open Words

/-! ### The registers and what they select -/

namespace X86_64

/-- The control registers in 64-bit mode, `EFER` and the PAT. A processor has 32 to 52 physical
address bits. -/
structure Registers where
  cr0 : UInt64
  cr3 : UInt64
  cr4 : UInt64
  efer : UInt64
  pat : UInt64
  physicalBits : ℕ
  physicalBits_bounds : 32 ≤ physicalBits ∧ physicalBits ≤ 52
  deriving DecidableEq, Repr

/-- `CR0.WP`. -/
def Registers.writeProtect (r : Registers) : Bool := bit r.cr0 16

/-- `CR4.LA57`. -/
def Registers.fiveLevels (r : Registers) : Bool := bit r.cr4 12

/-- `EFER.NXE`. -/
def Registers.noExecute (r : Registers) : Bool := bit r.efer 11

/-- The type with this index in the PAT is not cached. -/
def Registers.uncached (r : Registers) (index : UInt64) : Bool :=
  let type := (r.pat >>> ((8 : UInt64) * index)) &&& 7
  type == 0 || type == 7

/-- The index an entry has from its bits `PWT`, `PCD` and `PAT`. -/
def patIndex (level : ℕ) (e : UInt64) : UInt64 :=
  (if bit e 3 then 1 else 0) + (if bit e 4 then 2 else 0) +
    if bit e (if level = 0 then 7 else 12) then 4 else 0

/-- Bit 63 of an entry is reserved unless no-execute is enabled, and so are the address bits that
the processor does not have. -/
def mmuView (r : Registers) (level : ℕ) (e : UInt64) : EntryView :=
  if bit e 63 && !r.noExecute then .fault
  else match view level e with
  | .fault => .fault
  | .table next rights => if next.toNat < 2 ^ r.physicalBits then .table next rights else .fault
  | .page base mask rights _ =>
    if base.toNat < 2 ^ r.physicalBits then .page base mask rights (r.uncached (patIndex level e))
    else .fault

/-- In ring 0 everything is writable unless `CR0.WP` is set. -/
def Registers.kernel (r : Registers) (t : Translation) : Translation :=
  { t with rights := { t.rights with writable := t.rights.writable || !r.writeProtect } }

/-- Addresses of 57 bits. -/
def InRange57 (virt : UInt64) : Prop := virt >>> 56 = 0 ∨ virt >>> 56 = 0xFF

instance (virt : UInt64) : Decidable (InRange57 virt) := inferInstanceAs (Decidable (_ ∨ _))

/-- Translation in 4-level paging, and in 5-level paging with one more table above. -/
def mmu (r : Registers) (frames : UInt64 → ℕ → UInt64) (virt : UInt64) : Option Translation :=
  let walk shifts :=
    (walkFrom (mmuView r) frames virt (shifts ++ [12]) (r.cr3 &&& addrMask) .all).map r.kernel
  if r.fiveLevels then
    if InRange57 virt then walk (48 :: format.tableShifts) else none
  else if InRange .x86_64 virt then walk format.tableShifts
  else none

end X86_64

namespace Arm64

structure Registers where
  mair : UInt64
  ttbr0 : UInt64
  tcr : UInt64
  sctlr : UInt64
  deriving DecidableEq, Repr

/-- `SCTLR_EL1.M`. -/
def Registers.enabled (r : Registers) : Bool := bit r.sctlr 0

/-- `SCTLR_EL1.WXN`. -/
def Registers.writeNoExecute (r : Registers) : Bool := bit r.sctlr 19

/-- The output size that `TCR_EL1.IPS` selects. -/
def Registers.outputBits (r : Registers) : ℕ :=
  match ((r.tcr >>> 32) &&& 7).toNat with
  | 0 => 32
  | 1 => 36
  | 2 => 40
  | 3 => 42
  | 4 => 44
  | _ => 48

/-- `T0SZ` = 16, walks by `TTBR0_EL1` not disabled, 4 KiB granule. -/
def Registers.fourLevels (r : Registers) : Prop :=
  r.tcr &&& 0x3F = 16 ∧ r.tcr &&& 0x80 = 0 ∧ (r.tcr >>> 14) &&& 3 = 0

instance (r : Registers) : Decidable r.fourLevels :=
  inferInstanceAs (Decidable (_ ∧ _ ∧ _))

/-- The attributes an entry selects in `MAIR_EL1` are those of device memory. -/
def Registers.device (r : Registers) (e : UInt64) : Bool :=
  (r.mair >>> ((8 : UInt64) * ((e >>> 2) &&& 7))) &&& 0xFF == 0

/-- Addresses beyond the output size fault, in entries for tables as well. -/
def mmuView (r : Registers) (level : ℕ) (e : UInt64) : EntryView :=
  match view level e with
  | .fault => .fault
  | .table next rights => if next.toNat < 2 ^ r.outputBits then .table next rights else .fault
  | .page base mask rights _ =>
    if base.toNat < 2 ^ r.outputBits then
      .page base mask { rights with
        executable := rights.executable && !(r.writeNoExecute && rights.writable) } (r.device e)
    else .fault

/-- Translation of the lower address range. Other table geometries are left out. -/
def mmu (r : Registers) (frames : UInt64 → ℕ → UInt64) (virt : UInt64) : Option Translation :=
  if r.enabled then
    if r.fourLevels ∧ InRange .arm64 virt ∧ (r.ttbr0 &&& addrMask).toNat < 2 ^ r.outputBits then
      walkFrom (mmuView r) frames virt (format.tableShifts ++ [12]) (r.ttbr0 &&& addrMask) .all
    else none
  else some ⟨virt, .all, true⟩

end Arm64

namespace Riscv64

structure Registers where
  satp : UInt64
  deriving DecidableEq, Repr

/-- Mode 0 translates nothing, mode 8 is Sv39. The longer modes are left out. -/
def mmu (r : Registers) (frames : UInt64 → ℕ → UInt64) (virt : UInt64) : Option Translation :=
  if r.satp >>> 60 = 0 then some ⟨virt, .all, false⟩
  else if r.satp >>> 60 = 8 ∧ InRange .riscv64 virt then
    walkFrom view frames virt (format.tableShifts ++ [12]) ((r.satp &&& 0x0FFFFFFFFFFF) <<< 12) .all
  else none

end Riscv64

def Registers : Arch → Type
  | .x86_64 => X86_64.Registers
  | .arm64 => Arm64.Registers
  | .riscv64 => Riscv64.Registers

/-- What the hardware makes of an address. -/
def mmu : (arch : Arch) → Registers arch → (UInt64 → ℕ → UInt64) → UInt64 → Option Translation
  | .x86_64 => X86_64.mmu
  | .arm64 => Arm64.mmu
  | .riscv64 => Riscv64.mmu

/-! ### The code -/

/-- The value for `TCR_EL1`: `T0SZ`, `IRGN0`, `ORGN0`, `SH0` and `TG0`. -/
def Arm64.tcrValue : UInt64 :=
  (16 : UInt64) ||| ((0b01 : UInt64) <<< 8) ||| ((0b01 : UInt64) <<< 10) ||| ((0b11 : UInt64) <<< 12) |||
    ((0b00 : UInt64) <<< 14)

/-- `M`, `C` and `I` of `SCTLR_EL1`. -/
def Arm64.sctlrBits : UInt64 :=
  ((1 : UInt64) <<< 0) ||| ((1 : UInt64) <<< 2) ||| ((1 : UInt64) <<< 12)

/-- The register writes of `activate_page_tables`, in order. -/
def activationWrites : (arch : Arch) → FrameLayout (physBits arch) →
    List (Registers arch → Registers arch)
  | .x86_64, L => [fun (r : X86_64.Registers) => { r with cr3 := L.root }]
  | .arm64, L =>
    [ fun (r : Arm64.Registers) => { r with mair := 0x00FF },
      fun (r : Arm64.Registers) => { r with ttbr0 := L.root },
      fun (r : Arm64.Registers) => { r with tcr := Arm64.tcrValue },
      fun (r : Arm64.Registers) => { r with sctlr := r.sctlr ||| Arm64.sctlrBits } ]
  | .riscv64, L =>
    [fun (_ : Riscv64.Registers) => { satp := ((8 : UInt64) <<< 60) ||| (L.root >>> 12) }]

/-- The registers after the first writes. -/
def activateUpTo (arch : Arch) (L : FrameLayout (physBits arch)) (r : Registers arch) (k : ℕ) :
    Registers arch := ((activationWrites arch L).take k).foldl (fun r write => write r) r

/-- `activate_page_tables`. -/
def activatePageTables (arch : Arch) (L : FrameLayout (physBits arch)) (r : Registers arch) :
    Registers arch := (activationWrites arch L).foldl (fun r write => write r) r

/-- `current_page_table_phys`. -/
def currentPageTablePhys : (arch : Arch) → Registers arch → UInt64
  | .x86_64, (r : X86_64.Registers) => r.cr3
  | .arm64, (r : Arm64.Registers) => r.ttbr0
  | .riscv64, (r : Riscv64.Registers) => (r.satp &&& 0x0FFFFFFFFFFF) <<< 12

/-! ### Walks with the registers as activated -/

/-- The same tables, known to lie lower. -/
def FrameLayout.narrow {b b' : ℕ} (L : FrameLayout b) (hroot : L.root.toNat < 2 ^ b')
    (hpool : ∀ k, (L.pool k).toNat < 2 ^ b') : FrameLayout b' :=
  { L with root_lt := hroot, pool_lt := hpool }

theorem Inv.narrow {F : PagingFormat} {b b' : ℕ} {L : FrameLayout b} {s : PageTables}
    (hs : Inv F L s) (hroot : L.root.toNat < 2 ^ b') (hpool : ∀ k, (L.pool k).toNat < 2 ^ b') :
    Inv F (L.narrow hroot hpool) s := ⟨hs.next_le, hs.tree, hs.reached⟩

section Walk

variable {virt : UInt64} {calls : List MapCall}

/-- A walk over the tables of a run of calls that reads entries as `v` does. -/
theorem walkFrom_mapRegions (arch : Arch) {L : FrameLayout (physBits arch)} {b : ℕ}
    {v : ℕ → UInt64 → EntryView} (hv : ViewLawful (format arch) b v)
    (hroot : L.root.toNat < 2 ^ b) (hpool : ∀ k, (L.pool k).toNat < 2 ^ b)
    (hvirt : virt.toNat < 2 ^ lowerBits arch)
    (hok : AllOk arch L .empty calls)
    (hrange : ∀ c ∈ calls, roundedEnd c.region ≤ 2 ^ lowerBits arch) :
    walkFrom v (mapRegions arch L .empty calls).frames virt ((format arch).tableShifts ++ [12])
        L.root .all =
      (calls.reverse.find? fun c => overlapsPage c.region virt).bind fun c =>
        pageTranslation virt (v 0 ((format arch).leafEntry (alignDown virt pageSize)
          ((format arch).permissionsToFlags c.perms))) := by
  have hinv : Inv (format arch) L (mapRegions arch L .empty calls) :=
    inv_mapRegions calls _ inv_empty
  have hwalk := walkFrom_eq hv (hinv.narrow hroot hpool) virt
  have hleaf := leafAt_mapRegions hvirt calls _ inv_empty hok hrange
  refine hwalk.trans ((congrArg (fun e => pageTranslation virt (v 0 e)) hleaf).trans ?_)
  cases calls.reverse.find? fun c => overlapsPage c.region virt with
  | some c => rfl
  | none =>
    show pageTranslation virt (v 0 (leafAt (format arch) L .empty _ _)) = none
    rw [leafAt_empty, hv.fault_of_absent 0 0 UInt64.zero_and]
    rfl

end Walk

namespace X86_64

theorem mmuView_lawful (r : Registers) : ViewLawful format r.physicalBits (mmuView r) := by
  refine ⟨?_, ?_, ?_⟩
  · intro level e he
    rw [mmuView, viewLawful.fault_of_absent level e he]
    split <;> rfl
  · intro level n ha hlt
    have hlt' : n.toNat < 2 ^ 52 :=
      hlt.trans_le (Nat.pow_le_pow_right (by decide) r.physicalBits_bounds.2)
    have h63 : bit (format.tableEntry n) 63 = false := by
      rw [tableEntry_eq]
      exact (bit_or_of_and_eq_self (and_addrMask_of_aligned ha hlt') (by decide)).trans (by decide)
    rw [mmuView, h63, viewLawful.view_tableEntry level n ha hlt']
    exact if_pos hlt
  · intro e n r' htable
    rw [mmuView] at htable
    split at htable
    · cases htable
    · split at htable
      · cases htable
      · next next rights hview => exact viewLawful.view_zero_ne_table _ _ _ hview
      · split at htable <;> cases htable

theorem bit_leafEntry (phys : UInt64) (perms : MapPermissions) {i : ℕ}
    (hmask : bit addrMask i = false) (hpresent : bit ptePresent i = false) :
    bit (format.leafEntry phys (permissionsToFlags perms)) i =
      bit (permissionsToFlags perms) i := by
  simp [format, hmask, hpresent]

/-- Device memory has both cache bits, and everything else none. -/
theorem patIndex_leafEntry (phys : UInt64) (perms : MapPermissions) :
    patIndex 0 (format.leafEntry phys (permissionsToFlags perms)) =
      if perms.deviceUncached then 3 else 0 := by
  rw [patIndex, if_pos rfl, bit_leafEntry _ _ (by decide) (by decide),
    bit_leafEntry _ _ (by decide) (by decide), bit_leafEntry _ _ (by decide) (by decide)]
  obtain ⟨r, w, x, u⟩ := perms
  revert r w x u
  decide

theorem mmuView_leafEntry (r : Registers) (phys : UInt64) (perms : MapPermissions) :
    mmuView r 0 (format.leafEntry phys (permissionsToFlags perms)) =
      if (r.noExecute || perms.executable) ∧ (phys &&& addrMask).toNat < 2 ^ r.physicalBits then
        .page (phys &&& addrMask) 0xFFF ⟨true, perms.writable, perms.executable, false⟩
          (r.uncached (if perms.deviceUncached then 3 else 0))
      else .fault := by
  have h63 : bit (format.leafEntry phys (permissionsToFlags perms)) 63 = !perms.executable := by
    rw [bit_leafEntry _ _ (by decide) (by decide)]
    exact (permissionsToFlags_bits perms).2.2.2.2
  rw [mmuView, h63, view_leafEntry, patIndex_leafEntry]
  cases r.noExecute <;> cases perms.executable <;> simp

end X86_64

namespace Arm64

/-- Whatever the registers were, addresses have 32 bits from then on. -/
theorem outputBits_tcrValue (r : Registers) (h : r.tcr = tcrValue) : r.outputBits = 32 := by
  rw [Registers.outputBits, h]
  rfl

theorem mmuView_lawful {r : Registers} (h : r.outputBits ≤ 48) :
    ViewLawful format r.outputBits (mmuView r) := by
  refine ⟨?_, ?_, ?_⟩
  · intro level e he
    rw [mmuView, viewLawful.fault_of_absent level e he]
  · intro level n ha hlt
    have hlt' : n.toNat < 2 ^ 48 := hlt.trans_le (Nat.pow_le_pow_right (by decide) h)
    rw [mmuView, viewLawful.view_tableEntry level n ha hlt']
    exact if_pos hlt
  · intro e n r' htable
    rw [mmuView] at htable
    split at htable
    · cases htable
    · next next rights hview => exact viewLawful.view_zero_ne_table _ _ _ hview
    · split at htable <;> cases htable

/-- The attribute index of an entry is 0 or 1. -/
theorem device_leafEntry {r : Registers} (h : r.mair = 0x00FF) (phys : UInt64)
    (perms : MapPermissions) :
    r.device (format.leafEntry phys (permissionsToFlags perms)) = perms.deviceUncached := by
  have hattr : (format.leafEntry phys (permissionsToFlags perms) >>> 2) &&& (7 : UInt64) =
      (leafBits perms >>> 2) &&& 7 := by
    rw [leafEntry_eq, UInt64.shiftRight_or, and_or_distrib_right, UInt64.shiftRight_and,
      UInt64.and_assoc, show (addrMask >>> 2) &&& 7 = 0 by decide, UInt64.and_zero, UInt64.zero_or]
  rw [Registers.device, hattr, h]
  clear hattr
  obtain ⟨r, w, x, u⟩ := perms
  revert r w x u
  decide

end Arm64

namespace Riscv64

theorem satp_mode {root : UInt64} (h : root.toNat < 2 ^ 56) :
    (((8 : UInt64) <<< 60) ||| (root >>> 12)) >>> 60 = 8 := by
  have hzero : (root >>> 12) >>> 60 = 0 := by
    apply UInt64.toNat_inj.mp
    simp only [UInt64.toNat_shiftRight, UInt64.reduceToNat, Nat.reduceMod,
      Nat.shiftRight_eq_div_pow, Nat.reducePow]
    omega
  rw [UInt64.shiftRight_or, hzero]
  decide

theorem satp_root {root : UInt64} (ha : root.toNat % 4096 = 0) (h : root.toNat < 2 ^ 56) :
    ((((8 : UInt64) <<< 60) ||| (root >>> 12)) &&& 0x0FFFFFFFFFFF) <<< 12 = root := by
  have hmode : ((8 : UInt64) <<< 60) &&& 0x0FFFFFFFFFFF = 0 := by decide
  rw [and_or_distrib_right, hmode, UInt64.zero_or]
  exact ppnField_of_aligned ha h

end Riscv64

/-! ### The mappings after activation -/

/-- What the registers the code leaves alone, and the output size, make of a translation. -/
def effective : (arch : Arch) → Registers arch → Translation → Option Translation
  | .x86_64, (r : X86_64.Registers), t =>
    if (r.noExecute || t.rights.executable) ∧ t.phys.toNat < 2 ^ r.physicalBits then
      some (r.kernel { t with uncached := r.uncached (if t.uncached then 3 else 0) })
    else none
  | .arm64, (r : Arm64.Registers), t =>
    if t.phys.toNat < 2 ^ 32 then
      some { t with rights := { t.rights with
        executable := t.rights.executable && !(r.writeNoExecute && t.rights.writable) } }
    else none
  | .riscv64, _, t => some t

/-- The tables lie below an address. -/
def FrameLayout.Below {b : ℕ} (L : FrameLayout b) (bound : ℕ) : Prop :=
  L.root.toNat < bound ∧ ∀ k, (L.pool k).toNat < bound

/-- The hardware walks four levels, and has the addresses of the tables. -/
def Reachable : (arch : Arch) → FrameLayout (physBits arch) → Registers arch → Prop
  | .x86_64, L, (r : X86_64.Registers) => r.fiveLevels = false ∧ L.Below (2 ^ r.physicalBits)
  | .arm64, L, _ => L.Below (2 ^ 32)
  | .riscv64, _, _ => True

section Mappings

variable {virt : UInt64} {calls : List MapCall}

theorem X86_64.pageTranslation_mmuView (r : Registers) (perms : MapPermissions)
    (h : virt.toNat < 2 ^ lowerBits .x86_64) :
    (pageTranslation virt (mmuView r 0 (format.leafEntry (alignDown virt pageSize)
        (permissionsToFlags perms)))).map r.kernel =
      effective .x86_64 r ⟨virt, grantedRights .x86_64 perms, grantedUncached .x86_64 perms⟩ := by
  have hbase := alignDown_and_addrMask (h.trans (by decide))
  have hiff := @alignDown_lt_two_pow_iff virt _
    ((by decide : 12 ≤ 32).trans r.physicalBits_bounds.1)
  rw [mmuView_leafEntry, hbase]
  show _ = if (r.noExecute || perms.executable) ∧ virt.toNat < 2 ^ r.physicalBits then some _
    else none
  by_cases hpage : (r.noExecute || perms.executable) ∧ virt.toNat < 2 ^ r.physicalBits
  · rw [if_pos hpage, if_pos ⟨hpage.1, hiff.mpr hpage.2⟩]
    simp only [pageTranslation, alignDown_or_offset, Option.map_some]
    rfl
  · rw [if_neg hpage, if_neg fun h => hpage ⟨h.1, hiff.mp h.2⟩]
    rfl

theorem Arm64.pageTranslation_mmuView {r : Registers} (hmair : r.mair = 0x00FF)
    (htcr : r.tcr = tcrValue) (perms : MapPermissions)
    (h : virt.toNat < 2 ^ lowerBits .arm64) :
    pageTranslation virt (mmuView r 0 (format.leafEntry (alignDown virt pageSize)
        (permissionsToFlags perms))) =
      effective .arm64 r ⟨virt, grantedRights .arm64 perms, grantedUncached .arm64 perms⟩ := by
  have hbase := alignDown_and_addrMask h
  have hiff : (alignDown virt pageSize).toNat < 2 ^ 32 ↔ virt.toNat < 2 ^ 32 :=
    alignDown_lt_two_pow_iff (by decide)
  rw [mmuView, view_leafEntry, device_leafEntry hmair, outputBits_tcrValue r htcr, hbase]
  simp only [hiff, effective, grantedRights, grantedUncached]
  split
  · simp only [pageTranslation, alignDown_or_offset]
  · rfl

/-- The registers of ARM64 after activation. -/
def Arm64.activated (root : UInt64) (r : Registers) : Registers :=
  ⟨0x00FF, root, tcrValue, r.sctlr ||| sctlrBits⟩

theorem Arm64.enabled_activated (root : UInt64) (r : Registers) :
    (activated root r).enabled = true := by
  have hbit : bit sctlrBits 0 = true := by decide
  rw [Registers.enabled, activated, bit_or, hbit, Bool.or_true]

theorem Arm64.fourLevels_activated (root : UInt64) (r : Registers) :
    (activated root r).fourLevels :=
  ⟨show tcrValue &&& 0x3F = 16 by decide, show tcrValue &&& 0x80 = 0 by decide,
    show (tcrValue >>> 14) &&& 3 = 0 by decide⟩

theorem Arm64.effective_activated (root : UInt64) (r : Registers) (t : Translation) :
    effective .arm64 (activated root r) t = effective .arm64 r t := by
  have hbit : bit sctlrBits 19 = false := by decide
  have hwxn : (activated root r).writeNoExecute = r.writeNoExecute := by
    rw [Registers.writeNoExecute, activated, bit_or, hbit, Bool.or_false]
    rfl
  simp only [effective, hwxn]

/-- After any run of successful calls, from any earlier contents of the registers, the hardware
translates an address as the last call over its page says. -/
theorem mmu_mapRegions (arch : Arch) {L : FrameLayout (physBits arch)} {r : Registers arch}
    (hL : Reachable arch L r) (hvirt : virt.toNat < 2 ^ lowerBits arch)
    (hok : AllOk arch L .empty calls)
    (hrange : ∀ c ∈ calls, roundedEnd c.region ≤ 2 ^ lowerBits arch) :
    mmu arch (activatePageTables arch L r) (mapRegions arch L .empty calls).frames virt =
      (calls.reverse.find? fun c => overlapsPage c.region virt).bind fun c =>
        effective arch r ⟨virt, grantedRights arch c.perms, grantedUncached arch c.perms⟩ := by
  have hin := inRange_of_lt hvirt
  cases arch with
  | x86_64 =>
    obtain ⟨hfour, hrootLt, hpoolLt⟩ := hL
    have hroot := X86_64.and_addrMask_of_aligned L.root_aligned L.root_lt
    let r' : X86_64.Registers := { r with cr3 := L.root }
    have hwalk := walkFrom_mapRegions .x86_64 (X86_64.mmuView_lawful r') hrootLt hpoolLt hvirt hok
      hrange
    show X86_64.mmu r' _ _ = _
    rw [X86_64.mmu, if_neg (Bool.not_eq_true _ ▸ hfour : ¬ r'.fiveLevels = true), if_pos hin,
      show r'.cr3 = L.root from rfl, hroot]
    refine (congrArg (Option.map r'.kernel) hwalk).trans ?_
    rw [Option.map_bind]
    exact congrArg _ (funext fun c => X86_64.pageTranslation_mmuView r' c.perms hvirt)
  | arm64 =>
    obtain ⟨hrootLt, hpoolLt⟩ := hL
    have hroot := Arm64.and_addrMask_of_aligned L.root_aligned L.root_lt
    have hfour := Arm64.fourLevels_activated L.root r
    have hbits : (Arm64.activated L.root r).outputBits = 32 := Arm64.outputBits_tcrValue _ rfl
    show Arm64.mmu (Arm64.activated L.root r) _ _ = _
    rw [Arm64.mmu, if_pos (Arm64.enabled_activated L.root r),
      show (Arm64.activated L.root r).ttbr0 = L.root from rfl, hroot,
      if_pos ⟨hfour, hin, hbits ▸ hrootLt⟩]
    refine (walkFrom_mapRegions .arm64 (Arm64.mmuView_lawful (hbits ▸ by decide))
      (hbits ▸ hrootLt) (fun k => hbits ▸ hpoolLt k) hvirt hok hrange).trans ?_
    exact congrArg _ (funext fun c => (Arm64.pageTranslation_mmuView rfl rfl c.perms hvirt).trans
      (Arm64.effective_activated _ _ _))
  | riscv64 =>
    have hmode := Riscv64.satp_mode L.root_lt
    have hroot := Riscv64.satp_root L.root_aligned L.root_lt
    show Riscv64.mmu ⟨((8 : UInt64) <<< 60) ||| (L.root >>> 12)⟩ _ _ = _
    rw [Riscv64.mmu, if_neg (hmode.symm ▸ by decide), if_pos ⟨hmode, hin⟩, hroot]
    refine (walkFrom_mapRegions .riscv64 (format_viewLawful .riscv64) L.root_lt L.pool_lt hvirt
      hok hrange).trans ?_
    exact congrArg _ (funext fun c => pageTranslation_leafEntry .riscv64 c.perms
      (hvirt.trans_le (lowerBits_le_vaBits .riscv64)))

end Mappings

/-- The memory management unit of ARM64 was off. -/
def StartsOff : (arch : Arch) → Registers arch → Prop
  | .arm64, (r : Arm64.Registers) => r.enabled = false
  | _, _ => True

@[simp] theorem Rights.meet_self (rights : Rights) : rights.meet rights = rights := by
  simp [Rights.meet]

@[simp] theorem Rights.meet_all (rights : Rights) : rights.meet .all = rights := by
  simp [Rights.meet, Rights.all]

theorem phys_of_effective {arch : Arch} {r : Registers arch} {t t' : Translation}
    (h : effective arch r t = some t') : t'.phys = t.phys := by
  cases arch with
  | x86_64 =>
    simp only [effective, Option.ite_none_right_eq_some] at h
    rw [← Option.some.inj h.2]
    rfl
  | arm64 =>
    simp only [effective, Option.ite_none_right_eq_some] at h
    rw [← Option.some.inj h.2]
  | riscv64 => rw [Option.some.inj h]

/-- After the last write the switch is complete. -/
theorem activateUpTo_of_length_le {arch : Arch} {L : FrameLayout (physBits arch)} {k : ℕ}
    (h : (activationWrites arch L).length ≤ k) (r : Registers arch) :
    activateUpTo arch L r k = activatePageTables arch L r := by
  rw [activateUpTo, List.take_of_length_le h, activatePageTables]

/-- Up to the last write of ARM64, the unit is off. -/
theorem Arm64.mmu_activateUpTo {L : FrameLayout (physBits .arm64)} {r : Registers}
    (h : r.enabled = false) {k : ℕ} (hk : k < 4) (frames : UInt64 → ℕ → UInt64)
    (virt : UInt64) :
    Paging.mmu .arm64 (activateUpTo .arm64 L r k) frames virt = some ⟨virt, .all, true⟩ := by
  have hoff : ∀ r' : Registers, r'.sctlr = r.sctlr →
      Arm64.mmu r' frames virt = some ⟨virt, .all, true⟩ := by
    intro r' hsame
    have henabled : ¬ r'.enabled = true := by
      rw [Registers.enabled, hsame]
      exact Bool.not_eq_true _ ▸ h
    rw [Arm64.mmu, if_neg henabled]
  match k, hk with
  | 0, _ => exact hoff _ rfl
  | 1, _ => exact hoff _ rfl
  | 2, _ => exact hoff _ rfl
  | 3, _ => exact hoff _ rfl

/-- While the registers are being written, an address whose mapping is good afterwards keeps
meaning itself, with the rights of that mapping at least. -/
theorem mmu_during_activation (arch : Arch) (L : FrameLayout (physBits arch))
    (r : Registers arch) (hL : Reachable arch L r) (hoff : StartsOff arch r)
    (calls : List MapCall) (hok : AllOk arch L .empty calls)
    (hrange : ∀ c ∈ calls, roundedEnd c.region ≤ 2 ^ lowerBits arch)
    (virt : UInt64) (hvirt : virt.toNat < 2 ^ lowerBits arch) (t : Translation)
    (ht : mmu arch (activatePageTables arch L r) (mapRegions arch L .empty calls).frames virt =
      some t) (k : ℕ) (hk : 0 < k) :
    ∃ t', mmu arch (activateUpTo arch L r k) (mapRegions arch L .empty calls).frames virt =
        some t' ∧ t'.phys = virt ∧ t.rights.meet t'.rights = t.rights := by
  have hphys : t.phys = virt := by
    rw [mmu_mapRegions arch hL hvirt hok hrange, Option.bind_eq_some_iff] at ht
    obtain ⟨c, -, hc⟩ := ht
    exact phys_of_effective hc
  by_cases hlen : (activationWrites arch L).length ≤ k
  · rw [activateUpTo_of_length_le hlen]
    exact ⟨t, ht, hphys, Rights.meet_self _⟩
  · -- only ARM64 has a write before the last one
    cases arch with
    | x86_64 => exact absurd hk hlen
    | riscv64 => exact absurd hk hlen
    | arm64 =>
      exact ⟨_, Arm64.mmu_activateUpTo hoff (Nat.not_le.mp hlen) _ virt, rfl, Rights.meet_all _⟩

/-- A page of code on ARM64, after the third of the four writes. -/
theorem mmu_during_activation_code :
    let calls : List MapCall := [⟨usable 0x40080000 0x1000, .kernelCode⟩]
    let r : Arm64.Registers := ⟨0, 0, 0, 0⟩
    let L := sampleLayout .arm64
    ∃ t', mmu .arm64 (activateUpTo .arm64 L r 3) (mapRegions .arm64 L .empty calls).frames
        0x40080010 = some t' ∧ t'.phys = 0x40080010 ∧
      Rights.meet ⟨true, true, true, false⟩ t'.rights = ⟨true, true, true, false⟩ := by
  intro calls r L
  have hL : Reachable .arm64 L r := ⟨by decide, by decide⟩
  have hok : AllOk .arm64 L .empty calls := ⟨by decide +kernel, trivial⟩
  refine mmu_during_activation .arm64 L r hL (show r.enabled = false by decide) calls hok
    (by decide) 0x40080010 (by decide) ⟨0x40080010, ⟨true, true, true, false⟩, false⟩ ?_ 3
    (by decide)
  exact (mmu_mapRegions .arm64 hL (by decide) hok (by decide)).trans (by decide)

end SimurghHal.Paging
