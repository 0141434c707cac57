import SimurghHal.Core.Error
import SimurghHal.Lib.Words
import SimurghHal.Manifest.Raw

/-!
# Addresses and mapping permissions (`hal-core/src/memory.rs`)

Addresses are 64-bit words on all three targets. Arithmetic on them wraps, as in
the release profile of the workspace.
-/

namespace SimurghHal

open Manifest

/-- `hal_core::memory::MemoryRegion`, the raw region of the manifest. -/
abbrev MemoryRegion := MemoryRegionRaw

/-- `PhysAddr::align_down`. -/
def alignDown (addr align : UInt64) : UInt64 := addr &&& ~~~(align - 1)

/-- `PhysAddr::align_up`. -/
def alignUp (addr align : UInt64) : UInt64 := (addr + align - 1) &&& ~~~(align - 1)

/-- `PAGE_SIZE`, the same on all three architectures. -/
def pageSize : UInt64 := 4096

/-- `hal_core::memory::MapPermissions`. -/
structure MapPermissions where
  readable : Bool
  writable : Bool
  executable : Bool
  deviceUncached : Bool
  deriving DecidableEq, Repr

namespace MapPermissions

def kernelCode : MapPermissions := ⟨true, false, true, false⟩
def kernelData : MapPermissions := ⟨true, true, false, false⟩
def kernelRodata : MapPermissions := ⟨true, false, false, false⟩
def deviceMmio : MapPermissions := ⟨true, true, false, true⟩

end MapPermissions

theorem toNat_alignDown (addr : UInt64) :
    (alignDown addr pageSize).toNat = addr.toNat / 4096 * 4096 := by
  have hlt : addr.toNat / 4096 * 4096 < 2 ^ 64 := by
    have := addr.toNat_lt
    omega
  have hrun := Words.toNat_and_run (x := addr) (m := ~~~(pageSize - 1)) (a := 12) (b := 64)
    (by omega) (by decide)
  rw [alignDown, hrun]
  exact Nat.mod_eq_of_lt hlt

theorem alignDown_mod (addr : UInt64) : (alignDown addr pageSize).toNat % 4096 = 0 := by
  rw [toNat_alignDown]
  exact Nat.mul_mod_left _ _

/-- A page has an address of so many bits exactly when an address in it has. -/
theorem alignDown_lt_two_pow_iff {addr : UInt64} {bits : ℕ} (h : 12 ≤ bits) :
    (alignDown addr pageSize).toNat < 2 ^ bits ↔ addr.toNat < 2 ^ bits := by
  obtain ⟨k, rfl⟩ := Nat.exists_eq_add_of_le h
  have hpow : 2 ^ (12 + k) = 2 ^ k * 4096 := by
    rw [Nat.pow_add, Nat.mul_comm]
  rw [toNat_alignDown, hpow, Nat.mul_lt_mul_right (by decide)]
  exact Nat.div_lt_iff_lt_mul (by decide)

/-- Rounding up does not wrap unless the address lies in the last page. -/
theorem toNat_alignUp {addr : UInt64} (h : addr.toNat + 4095 < 2 ^ 64) :
    (alignUp addr pageSize).toNat = (addr.toNat + 4095) / 4096 * 4096 := by
  have hadd : (addr + pageSize - 1).toNat = addr.toNat + 4095 := by
    rw [UInt64.toNat_sub, UInt64.toNat_add]
    simp only [pageSize, UInt64.reduceToNat]
    omega
  have hdown := toNat_alignDown (addr + pageSize - 1)
  rw [hadd] at hdown
  exact hdown

/-- Rounded addresses are multiples of the page size, wrapped or not. -/
theorem alignUp_mod (addr : UInt64) : (alignUp addr pageSize).toNat % 4096 = 0 :=
  alignDown_mod (addr + pageSize - 1)

end SimurghHal
