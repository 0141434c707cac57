import SimurghHal.Core.Boot

/-!
# The loaded image (`linker.ld`) and the ranges reported of it

The three linker scripts place the same five sections and differ in their two bases.
`.boot` is linked where it is loaded; every section after it is linked
`KERNEL_VMA_BASE` above its load address. The entry points hand addresses of linker
symbols to `BootInfo::new` as physical addresses: the symbols around the image are
translated back by the script, those around the boot stack are not.
-/

namespace SimurghHal

open Manifest

def kernelVmaBase : Arch → ℕ
  | .x86_64 => 0xffffffff80000000
  | .arm64 => 0xffff000000000000
  | .riscv64 => 0xFFFFFFC000000000

def kernelLmaBase : Arch → ℕ
  | .x86_64 => 0x00200000
  | .arm64 => 0x40200000
  | .riscv64 => 0x80200000

/-- `ALIGN` of a linker script. -/
def align (addr alignment : ℕ) : ℕ := (addr + (alignment - 1)) / alignment * alignment

/-- Sizes of what the sections collect; `bss` is without the boot stack at its end. -/
structure SectionSizes where
  boot : ℕ
  text : ℕ
  rodata : ℕ
  data : ℕ
  bss : ℕ
  deriving DecidableEq, Repr

/-! ### Link addresses -/

section Link

variable (arch : Arch) (sizes : SectionSizes)

def bootAddr : ℕ := align (kernelLmaBase arch) 4096

def textAddr : ℕ := align (kernelVmaBase arch + (kernelLmaBase arch + sizes.boot)) 4096

def rodataAddr : ℕ := align (textAddr arch sizes + sizes.text) 4096

def dataAddr : ℕ := align (rodataAddr arch sizes + sizes.rodata) 4096

def bssAddr : ℕ := align (dataAddr arch sizes + sizes.data) 4096

/-- `__boot_stack_bottom`. -/
def bootStackBottom : ℕ := align (bssAddr arch sizes + sizes.bss) 16

/-- `__boot_stack_top`. -/
def bootStackTop : ℕ := bootStackBottom arch sizes + 0x10000

/-- `__kernel_image_phys_start`. -/
def kernelImagePhysStart : ℕ := kernelLmaBase arch

/-- `__kernel_image_phys_end`. -/
def kernelImagePhysEnd : ℕ := bootStackTop arch sizes - kernelVmaBase arch

end Link

/-- Sizes with which the image does not run past the end of the address space. -/
structure ImageLayout (arch : Arch) extends SectionSizes where
  fits : bootStackTop arch toSectionSizes < 0x10000000000000000

/-- Where a section is loaded. -/
structure LoadedSection where
  loadAddr : ℕ
  size : ℕ
  deriving DecidableEq, Repr

def LoadedSection.Holds (s : LoadedSection) (addr : UInt64) : Prop :=
  s.loadAddr ≤ addr.toNat ∧ addr.toNat < s.loadAddr + s.size

instance (s : LoadedSection) (addr : UInt64) : Decidable (s.Holds addr) :=
  inferInstanceAs (Decidable (_ ∧ _))

/-- The sections with the load addresses their `AT` gives them. -/
def loadedSections (arch : Arch) (sizes : SectionSizes) : List LoadedSection :=
  [⟨bootAddr arch, sizes.boot⟩,
    ⟨textAddr arch sizes - kernelVmaBase arch, sizes.text⟩,
    ⟨rodataAddr arch sizes - kernelVmaBase arch, sizes.rodata⟩,
    ⟨dataAddr arch sizes - kernelVmaBase arch, sizes.data⟩,
    ⟨bssAddr arch sizes - kernelVmaBase arch, bootStackTop arch sizes - bssAddr arch sizes⟩]

/-- The boot stack where it is loaded, at the end of `.bss`. -/
def loadedBootStack (arch : Arch) (sizes : SectionSizes) : LoadedSection :=
  ⟨bootStackBottom arch sizes - kernelVmaBase arch,
    bootStackTop arch sizes - bootStackBottom arch sizes⟩

/-! ### The boot information -/

/-- `linker_symbol_addr`. -/
def linkerSymbolAddr (symbol : ℕ) : UInt64 := UInt64.ofNat symbol

def bootProtocol : Arch → BootProtocol
  | .x86_64 => .uefi
  | .arm64 => .uefi
  | .riscv64 => .sbiDeviceTree

/-- The structure `hal_*_rust_entry` assembles. -/
def assembleBootInfo {arch : Arch} (layout : ImageLayout arch)
    (hardwareManifest : HardwareManifestRaw) (currentPageTablePhys : UInt64)
    (bootCoreId : UInt32) : BootInfo :=
  let kernelImagePhysRange := (linkerSymbolAddr (kernelImagePhysStart arch),
    linkerSymbolAddr (kernelImagePhysEnd arch layout.toSectionSizes))
  let bootReservedPhysRange := (linkerSymbolAddr (bootStackBottom arch layout.toSectionSizes),
    linkerSymbolAddr (bootStackTop arch layout.toSectionSizes))
  BootInfo.new (bootProtocol arch) hardwareManifest currentPageTablePhys kernelImagePhysRange
    bootReservedPhysRange bootCoreId

/-- The ranges describe what is loaded: all of the image, and exactly the boot stack. -/
structure DescribesImage (arch : Arch) (sizes : SectionSizes) (b : BootInfo) : Prop where
  kernelImage : ∀ s ∈ loadedSections arch sizes, ∀ addr, s.Holds addr →
    b.overlapsKernelImage addr
  bootReserved : ∀ addr, b.overlapsBootReserved addr ↔ (loadedBootStack arch sizes).Holds addr

/-! ### What the ranges cover -/

theorem le_align (addr : ℕ) {alignment : ℕ} (h : 0 < alignment) : addr ≤ align addr alignment := by
  have hdiv := Nat.div_add_mod (addr + (alignment - 1)) alignment
  have hmod := Nat.mod_lt (addr + (alignment - 1)) h
  rw [align, mul_comm]
  omega

section Addresses

variable (arch : Arch) (sizes : SectionSizes)

/-- The sections follow each other. -/
theorem sections_ordered :
    kernelVmaBase arch + (kernelLmaBase arch + sizes.boot) ≤ textAddr arch sizes ∧
      textAddr arch sizes + sizes.text ≤ rodataAddr arch sizes ∧
      rodataAddr arch sizes + sizes.rodata ≤ dataAddr arch sizes ∧
      dataAddr arch sizes + sizes.data ≤ bssAddr arch sizes ∧
      bssAddr arch sizes + sizes.bss ≤ bootStackBottom arch sizes :=
  ⟨le_align _ (by decide), le_align _ (by decide), le_align _ (by decide), le_align _ (by decide),
    le_align _ (by decide)⟩

theorem bootAddr_eq : bootAddr arch = kernelLmaBase arch := by
  cases arch <;> rfl

/-- Every section lies between the two bounds of the image. -/
theorem loadedSections_bounds {s : LoadedSection} (hs : s ∈ loadedSections arch sizes) :
    kernelImagePhysStart arch ≤ s.loadAddr ∧
      s.loadAddr + s.size ≤ kernelImagePhysEnd arch sizes := by
  obtain ⟨htext, hrodata, hdata, hbss, hstack⟩ := sections_ordered arch sizes
  -- the lower base is page aligned, so `.boot` starts the image
  have hboot := bootAddr_eq arch
  simp only [loadedSections, List.mem_cons, List.not_mem_nil, or_false] at hs
  rcases hs with rfl | rfl | rfl | rfl | rfl <;>
    simp only [kernelImagePhysStart, kernelImagePhysEnd, bootStackTop] <;> omega

end Addresses

theorem toNat_linkerSymbolAddr {symbol : ℕ} (h : symbol < 2 ^ 64) :
    (linkerSymbolAddr symbol).toNat = symbol :=
  UInt64.toNat_ofNat_of_lt' h

/-- A check against two linker symbols is a check against their addresses. -/
theorem between_linkerSymbolAddr_iff {start stop : ℕ} (hstart : start < 2 ^ 64)
    (hstop : stop < 2 ^ 64) (addr : UInt64) :
    (decide (addr ≥ linkerSymbolAddr start) && decide (addr < linkerSymbolAddr stop)) = true ↔
      start ≤ addr.toNat ∧ addr.toNat < stop := by
  rw [BootInfo.inRange_iff, toNat_linkerSymbolAddr hstart, toNat_linkerSymbolAddr hstop]

section Ranges

variable {arch : Arch} (layout : ImageLayout arch) (hardwareManifest : HardwareManifestRaw)
  (currentPageTablePhys : UInt64) (bootCoreId : UInt32)

theorem overlapsKernelImage_iff (addr : UInt64) :
    (assembleBootInfo layout hardwareManifest currentPageTablePhys bootCoreId).overlapsKernelImage
        addr = true ↔
      kernelImagePhysStart arch ≤ addr.toNat ∧
        addr.toNat < kernelImagePhysEnd arch layout.toSectionSizes := by
  have hfits := layout.fits
  have hstart : kernelImagePhysStart arch < 2 ^ 64 := by cases arch <;> decide
  have hend : kernelImagePhysEnd arch layout.toSectionSizes < 2 ^ 64 := by
    rw [kernelImagePhysEnd]
    omega
  exact between_linkerSymbolAddr_iff hstart hend addr

theorem overlapsBootReserved_iff (addr : UInt64) :
    (assembleBootInfo layout hardwareManifest currentPageTablePhys bootCoreId).overlapsBootReserved
        addr = true ↔
      bootStackBottom arch layout.toSectionSizes ≤ addr.toNat ∧
        addr.toNat < bootStackTop arch layout.toSectionSizes := by
  have htop : bootStackTop arch layout.toSectionSizes < 2 ^ 64 := layout.fits
  have hbottom : bootStackBottom arch layout.toSectionSizes < 2 ^ 64 := by
    rw [bootStackTop] at htop
    omega
  exact between_linkerSymbolAddr_iff hbottom htop addr

end Ranges

/-- No byte of the loaded boot stack is in the reserved range: it is `KERNEL_VMA_BASE` below
it. -/
theorem overlapsBootReserved_bootStack {arch : Arch} (layout : ImageLayout arch)
    (hardwareManifest : HardwareManifestRaw) (currentPageTablePhys : UInt64) (bootCoreId : UInt32)
    {addr : UInt64} (haddr : (loadedBootStack arch layout.toSectionSizes).Holds addr) :
    (assembleBootInfo layout hardwareManifest currentPageTablePhys bootCoreId).overlapsBootReserved
      addr = false := by
  rw [Bool.eq_false_iff, Ne, overlapsBootReserved_iff]
  have hbase : 0x10000 ≤ kernelVmaBase arch := by cases arch <;> decide
  obtain ⟨htext, hrodata, hdata, hbss, hstack⟩ := sections_ordered arch layout.toSectionSizes
  obtain ⟨-, hlt⟩ := haddr
  simp only [loadedBootStack, bootStackTop] at hlt
  -- the stack is shorter than the distance between the two addresses it has
  omega

/-- On every image the kernel range covers all that is loaded, and the reserved range
misses the boot stack altogether. -/
theorem assembleBootInfo_not_describesImage (arch : Arch) (layout : ImageLayout arch)
    (hardwareManifest : HardwareManifestRaw) (currentPageTablePhys : UInt64)
    (bootCoreId : UInt32) :
    let b := assembleBootInfo layout hardwareManifest currentPageTablePhys bootCoreId
    (∀ s ∈ loadedSections arch layout.toSectionSizes, ∀ addr, s.Holds addr →
        b.overlapsKernelImage addr = true) ∧
      (∀ addr, (loadedBootStack arch layout.toSectionSizes).Holds addr →
        b.overlapsBootReserved addr = false) ∧
      ¬ DescribesImage arch layout.toSectionSizes b := by
  intro b
  refine ⟨?_, ?_, ?_⟩
  · intro s hs addr haddr
    have hbounds := loadedSections_bounds arch layout.toSectionSizes hs
    exact (overlapsKernelImage_iff layout _ _ _ addr).mpr
      ⟨hbounds.1.trans haddr.1, haddr.2.trans_le hbounds.2⟩
  · exact fun addr haddr => overlapsBootReserved_bootStack layout _ _ _ haddr
  · intro hdescribes
    have hfits := layout.fits
    -- the lowest byte of the stack
    have hbottom : (loadedBootStack arch layout.toSectionSizes).Holds
        (UInt64.ofNat (loadedBootStack arch layout.toSectionSizes).loadAddr) := by
      rw [LoadedSection.Holds, UInt64.toNat_ofNat_of_lt']
      · simp only [loadedBootStack, bootStackTop]
        omega
      · change bootStackBottom arch layout.toSectionSizes - kernelVmaBase arch < 2 ^ 64
        rw [bootStackTop] at hfits
        omega
    have hfalse := overlapsBootReserved_bootStack layout hardwareManifest currentPageTablePhys
      bootCoreId hbottom
    exact Bool.false_ne_true (hfalse.symm.trans ((hdescribes.bootReserved _).mpr hbottom))

/-- One page in each section. -/
def onePageEach : ImageLayout .x86_64 := ⟨⟨4096, 4096, 4096, 4096, 4096⟩, by decide⟩

/-- The boot stack starts at `0x205000`, and is reported at `0xffffffff80205000`. -/
theorem assembleBootInfo_not_describesImage_onePageEach :
    ¬ DescribesImage .x86_64 onePageEach.toSectionSizes
      (assembleBootInfo onePageEach HardwareManifestRaw.zeroed 0 0) := by
  intro hdescribes
  have hstack := (hdescribes.bootReserved 0x205000).mpr (by decide)
  exact absurd hstack (by decide)

end SimurghHal
