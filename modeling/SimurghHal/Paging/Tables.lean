import SimurghHal.Core.Memory
import SimurghHal.Lib.RadixTree

/-!
# Boot page tables (`hal-*/src/memory.rs`)

The page-table code of the three architecture crates differs in the number of
levels and in the layout of the entries only. It is modelled once over a
`PagingFormat`; `X86_64.format`, `Arm64.format` and `Riscv64.format` hold what
each crate has of its own.

The static tables are frames of physical memory. A fallible operation returns
its result together with the tables as it leaves them, also when it fails.
-/

namespace SimurghHal.Paging

open Manifest

/-- `TABLE_POOL_SIZE`. -/
def tablePoolSize : ℕ := 16

/-- The static tables as the linker places them: pointers are physical addresses
of `physBits` bits, and no two tables share a frame. -/
structure FrameLayout (physBits : ℕ) where
  root : UInt64
  pool : Fin tablePoolSize → UInt64
  root_aligned : root.toNat % 4096 = 0
  root_lt : root.toNat < 2 ^ physBits
  pool_aligned : ∀ k, (pool k).toNat % 4096 = 0
  pool_lt : ∀ k, (pool k).toNat < 2 ^ physBits
  pool_injective : Function.Injective pool
  pool_ne_root : ∀ k, pool k ≠ root

/-- The contents of the table frames, entry by entry, and `TABLE_POOL_NEXT`. -/
structure PageTables where
  frames : UInt64 → ℕ → UInt64
  next : ℕ

/-- All tables zeroed and none of the pool in use. -/
def PageTables.empty : PageTables := ⟨fun _ _ => 0, 0⟩

/-- What distinguishes the page tables of one architecture. -/
structure PagingFormat where
  /-- Position of the index of each intermediate level, the root first. -/
  tableShifts : List UInt64
  /-- The bit an entry must have to be followed. -/
  present : UInt64
  /-- The entry that points to a further table. -/
  tableEntry : UInt64 → UInt64
  /-- The table an entry points to. -/
  tablePtr : UInt64 → UInt64
  /-- The entry of the last level for a physical page and its flags. -/
  leafEntry : UInt64 → UInt64 → UInt64
  permissionsToFlags : MapPermissions → UInt64

/-- `((virt >> shift) & 0x1FF) as usize`. -/
def tableIndex (virt shift : UInt64) : ℕ := ((virt >>> shift) &&& 0x1FF).toNat

/-- `alloc_table`. -/
def allocTable {b : ℕ} (L : FrameLayout b) (s : PageTables) : Except HalError UInt64 × PageTables :=
  if h : s.next < tablePoolSize then
    (.ok (L.pool ⟨s.next, h⟩), { s with next := s.next + 1 })
  else (.error .invalidMemoryRegion, s)

/-- The loop of `map_page` over the intermediate levels, from the table at `table`. -/
def walkTables (F : PagingFormat) {b : ℕ} (L : FrameLayout b) (virt : UInt64) :
    List UInt64 → UInt64 → PageTables → Except HalError UInt64 × PageTables
  | [], table, s => (.ok table, s)
  | shift :: shifts, table, s =>
    let i := tableIndex virt shift
    if s.frames table i &&& F.present = 0 then
      match allocTable L s with
      | (.error e, s') => (.error e, s')
      | (.ok newTable, s') =>
        let frames := RadixTree.write s'.frames table i (F.tableEntry newTable)
        walkTables F L virt shifts (F.tablePtr (frames table i)) { s' with frames }
    else walkTables F L virt shifts (F.tablePtr (s.frames table i)) s

/-- `map_page`. -/
def mapPage (F : PagingFormat) {b : ℕ} (L : FrameLayout b) (virt phys flags : UInt64)
    (s : PageTables) : Except HalError Unit × PageTables :=
  match walkTables F L virt F.tableShifts L.root s with
  | (.error e, s') => (.error e, s')
  | (.ok table, s') =>
    (.ok (), { s' with
      frames := RadixTree.write s'.frames table (tableIndex virt 12) (F.leafEntry phys flags) })

/-- The `while addr < end` loop of `setup_identity_mapping`. The counter bounds
the number of pages; `mapLoop_pages` shows that the loop always ends by its own
condition. -/
def mapLoop (F : PagingFormat) {b : ℕ} (L : FrameLayout b) (endAddr flags : UInt64) :
    ℕ → UInt64 → PageTables → Except HalError Unit × PageTables
  | 0, _, s => (.ok (), s)
  | fuel + 1, addr, s =>
    if addr < endAddr then
      match mapPage F L addr addr flags s with
      | (.error e, s') => (.error e, s')
      | (.ok (), s') => mapLoop F L endAddr flags fuel (addr + pageSize) s'
    else (.ok (), s)

/-- First address mapped for a region. -/
def startAddr (region : MemoryRegion) : UInt64 := alignDown region.baseAddr pageSize

/-- End of the address range mapped for a region. -/
def endAddr (region : MemoryRegion) : UInt64 :=
  alignUp (region.baseAddr + region.lengthBytes) pageSize

/-- `setup_identity_mapping`. -/
def setupIdentityMapping (F : PagingFormat) {b : ℕ} (L : FrameLayout b) (region : MemoryRegion)
    (perms : MapPermissions) (s : PageTables) : Except HalError UInt64 × PageTables :=
  if region.lengthBytes = 0 then (.error .invalidMemoryRegion, s)
  else
    let start := startAddr region
    let stop := endAddr region
    let fuel := (stop.toNat - start.toNat) / 4096 + 1
    match mapLoop F L stop (F.permissionsToFlags perms) fuel start s with
    | (.error e, s') => (.error e, s')
    | (.ok (), s') => (.ok start, s')

/-! ### x86_64: four levels -/

namespace X86_64

def pteWritable : UInt64 := (1 : UInt64) <<< 1
def pteUserAccessible : UInt64 := (1 : UInt64) <<< 2
def pteWriteThrough : UInt64 := (1 : UInt64) <<< 3
def pteCacheDisable : UInt64 := (1 : UInt64) <<< 4
def pteNoExecute : UInt64 := (1 : UInt64) <<< 63
def ptePresent : UInt64 := (1 : UInt64) <<< 0
def addrMask : UInt64 := 0x000FFFFFFFFFF000

/-- `permissions_to_flags`. -/
def permissionsToFlags (perms : MapPermissions) : UInt64 :=
  let flags := if perms.writable then pteWritable else 0
  let flags := if !perms.executable then flags ||| pteNoExecute else flags
  if perms.deviceUncached then flags ||| (pteCacheDisable ||| pteWriteThrough) else flags

def format : PagingFormat where
  tableShifts := [39, 30, 21]
  present := ptePresent
  tableEntry newTable := newTable ||| ptePresent ||| pteWritable ||| pteUserAccessible
  tablePtr entry := entry &&& addrMask
  leafEntry phys flags := (phys &&& addrMask) ||| flags ||| ptePresent
  permissionsToFlags := permissionsToFlags

end X86_64

/-! ### ARM64: four levels, 4 KiB granule -/

namespace Arm64

def pteValid : UInt64 := (1 : UInt64) <<< 0
def pteTableOrPage : UInt64 := (1 : UInt64) <<< 1
def pteAttrNormal : UInt64 := (0 : UInt64) <<< 2
def pteAttrDevice : UInt64 := (1 : UInt64) <<< 2
def pteApRwEl1 : UInt64 := (0 : UInt64) <<< 6
def pteShareabilityInner : UInt64 := (0b11 : UInt64) <<< 8
def pteAccessFlag : UInt64 := (1 : UInt64) <<< 10
def ptePxn : UInt64 := (1 : UInt64) <<< 53
def pteUxn : UInt64 := (1 : UInt64) <<< 54
def addrMask : UInt64 := 0x0000FFFFFFFFF000

/-- `permissions_to_flags`. -/
def permissionsToFlags (perms : MapPermissions) : UInt64 :=
  let flags := pteShareabilityInner
  let flags := flags ||| (if perms.deviceUncached then pteAttrDevice else pteAttrNormal)
  let flags := if perms.writable then flags ||| pteApRwEl1 else flags
  if !perms.executable then flags ||| (ptePxn ||| pteUxn) else flags

def format : PagingFormat where
  tableShifts := [39, 30, 21]
  present := pteValid
  tableEntry newTable := newTable ||| pteValid ||| pteTableOrPage
  tablePtr entry := entry &&& addrMask
  leafEntry phys flags :=
    (phys &&& addrMask) ||| flags ||| pteValid ||| pteTableOrPage ||| pteAccessFlag
  permissionsToFlags := permissionsToFlags

end Arm64

/-! ### RISC-V: Sv39 -/

namespace Riscv64

def pteValid : UInt64 := (1 : UInt64) <<< 0
def pteRead : UInt64 := (1 : UInt64) <<< 1
def pteWrite : UInt64 := (1 : UInt64) <<< 2
def pteExecute : UInt64 := (1 : UInt64) <<< 3
def pteAccessed : UInt64 := (1 : UInt64) <<< 6
def pteDirty : UInt64 := (1 : UInt64) <<< 7

/-- `permissions_to_flags`. Cacheability has no bit in this format. -/
def permissionsToFlags (perms : MapPermissions) : UInt64 :=
  let flags := pteRead
  let flags := if perms.writable then flags ||| pteWrite else flags
  if perms.executable then flags ||| pteExecute else flags

def format : PagingFormat where
  tableShifts := [30, 21]
  present := pteValid
  tableEntry newTable := ((newTable >>> 12) <<< 10) ||| pteValid
  tablePtr entry := ((entry >>> 10) &&& 0x0FFFFFFFFFFF) <<< 12
  leafEntry phys flags :=
    ((phys >>> 12) <<< 10) ||| flags ||| pteValid ||| pteAccessed ||| pteDirty
  permissionsToFlags := permissionsToFlags

end Riscv64

/-! ### The three architectures together -/

/-- Width of a physical address in the entries of each format. -/
def physBits : Arch → ℕ
  | .x86_64 => 52
  | .arm64 => 48
  | .riscv64 => 56

def format : Arch → PagingFormat
  | .x86_64 => X86_64.format
  | .arm64 => Arm64.format
  | .riscv64 => Riscv64.format

/-- One call of `setup_identity_mapping`. -/
structure MapCall where
  region : MemoryRegion
  perms : MapPermissions
  deriving DecidableEq, Repr

/-- `setup_identity_mapping` of the architecture crate `arch`. -/
def mapRegion (arch : Arch) (L : FrameLayout (physBits arch)) (s : PageTables) (c : MapCall) :
    Except HalError UInt64 × PageTables :=
  setupIdentityMapping (format arch) L c.region c.perms s

/-- The tables after a sequence of calls, successful or not. -/
def mapRegions (arch : Arch) (L : FrameLayout (physBits arch)) (s : PageTables)
    (calls : List MapCall) : PageTables :=
  calls.foldl (fun s c => (mapRegion arch L s c).2) s

/-- All calls of a sequence return `Ok`. -/
def AllOk (arch : Arch) (L : FrameLayout (physBits arch)) :
    PageTables → List MapCall → Prop
  | _, [] => True
  | s, c :: calls => (mapRegion arch L s c).1.isOk ∧ AllOk arch L (mapRegion arch L s c).2 calls

end SimurghHal.Paging
