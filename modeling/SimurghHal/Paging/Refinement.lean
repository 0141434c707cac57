import SimurghHal.Paging.Formats

/-!
# Translations after a sequence of mapping calls

The specification of the boot mapping is the list of calls itself: an address is
translated to itself by the most recent call whose region overlaps its page.
`translate_mapRegions` shows that the tables built by the code realise it on the
architectures whose entries encode all permissions.
-/

namespace SimurghHal.Paging

/-- Width of the lower half of the address space. -/
def lowerBits : Arch → ℕ
  | .x86_64 => 47
  | .arm64 => 48
  | .riscv64 => 38

/-- The end of a region, rounded up to a page, as an exact integer. -/
def roundedEnd (region : MemoryRegion) : ℕ :=
  (region.baseAddr.toNat + region.lengthBytes.toNat + 4095) / 4096 * 4096

/-- The page of `virt` and the region have a byte in common. -/
def overlapsPage (region : MemoryRegion) (virt : UInt64) : Bool :=
  decide (0 < region.lengthBytes.toNat ∧
    region.baseAddr.toNat < (virt.toNat / 4096 + 1) * 4096 ∧
    virt.toNat / 4096 * 4096 < region.baseAddr.toNat + region.lengthBytes.toNat)

theorem lowerBits_le_vaBits (arch : Arch) : 2 ^ lowerBits arch ≤ 2 ^ vaBits arch := by
  cases arch <;> decide

theorem inRange_of_lt {arch : Arch} {virt : UInt64} (h : virt.toNat < 2 ^ lowerBits arch) :
    InRange arch virt := by
  have hshift : ∀ k : UInt64, k.toNat < 64 → virt.toNat < 2 ^ k.toNat → virt >>> k = 0 := by
    intro k hk hlt
    apply UInt64.toNat_inj.mp
    rw [UInt64.toNat_shiftRight, Nat.mod_eq_of_lt hk, Nat.shiftRight_eq_div_pow,
      Nat.div_eq_of_lt hlt]
    rfl
  cases arch with
  | x86_64 => exact .inl (hshift 47 (by decide) h)
  | arm64 => exact hshift 48 (by decide) h
  | riscv64 => exact .inl (hshift 38 (by decide) h)

section Regions

variable {arch : Arch} {L : FrameLayout (physBits arch)} {s : PageTables}

/-- Rounding is exact for regions in the lower half. -/
theorem toNat_endAddr {region : MemoryRegion} (h : roundedEnd region ≤ 2 ^ lowerBits arch) :
    (endAddr region).toNat = roundedEnd region := by
  have hpow : 2 ^ lowerBits arch ≤ 2 ^ 48 := by cases arch <;> decide
  have hsum : (region.baseAddr + region.lengthBytes).toNat =
      region.baseAddr.toNat + region.lengthBytes.toNat := by
    rw [UInt64.toNat_add]
    refine Nat.mod_eq_of_lt ?_
    unfold roundedEnd at h
    omega
  rw [endAddr, toNat_alignUp, hsum]
  · rfl
  · rw [hsum]
    unfold roundedEnd at h
    omega

theorem toNat_startAddr (region : MemoryRegion) :
    (startAddr region).toNat = region.baseAddr.toNat / 4096 * 4096 :=
  toNat_alignDown _

/-- The range of pages mapped for a region ends inside the address space. -/
theorem start_add_pageCount_lt (region : MemoryRegion) :
    (startAddr region).toNat + 4096 * pageCount region < 2 ^ 64 := by
  have hstart := (startAddr region).toNat_lt
  have hend := (endAddr region).toNat_lt
  unfold pageCount
  omega

/-- The pages mapped for a region in the lower half are those it overlaps. -/
theorem exists_page_iff {region : MemoryRegion} (h : roundedEnd region ≤ 2 ^ lowerBits arch)
    (hlen : region.lengthBytes ≠ 0) {virt : UInt64} (hv : virt.toNat < 2 ^ lowerBits arch) :
    (∃ i < pageCount region,
      slotOf (format arch) (pageAt (startAddr region) i) = slotOf (format arch) virt) ↔
      overlapsPage region virt = true := by
  have hva := lowerBits_le_vaBits arch
  have hpos : 0 < region.lengthBytes.toNat := by
    rw [Nat.pos_iff_ne_zero]
    exact fun h0 => hlen (UInt64.toNat_inj.mp h0)
  have hcount : pageCount region = (roundedEnd region - region.baseAddr.toNat / 4096 * 4096) / 4096 := by
    rw [pageCount, toNat_endAddr h, toNat_startAddr]
  have hpage : ∀ i < pageCount region, (pageAt (startAddr region) i).toNat =
      region.baseAddr.toNat / 4096 * 4096 + 4096 * i := by
    intro i hi
    have := start_add_pageCount_lt region
    rw [toNat_pageAt (by omega), toNat_startAddr]
  have hslot : ∀ i < pageCount region,
      (slotOf (format arch) (pageAt (startAddr region) i) = slotOf (format arch) virt ↔
        region.baseAddr.toNat / 4096 + i = virt.toNat / 4096) := by
    intro i hi
    have hp := hpage i hi
    have hlt : (pageAt (startAddr region) i).toNat < 2 ^ vaBits arch := by
      unfold roundedEnd at hcount h
      omega
    rw [slotOf_eq_iff_of_lt hlt (by omega), hp]
    omega
  rw [overlapsPage, decide_eq_true_iff]
  unfold roundedEnd at hcount
  constructor
  · rintro ⟨i, hi, he⟩
    rw [hslot i hi] at he
    omega
  · -- the page of `virt` counted from the first page of the region
    rintro ⟨-, hlo, hhi⟩
    refine ⟨virt.toNat / 4096 - region.baseAddr.toNat / 4096, by omega, ?_⟩
    rw [hslot _ (by omega)]
    omega

/-- One successful call, seen from an address in the lower half. -/
theorem leafAt_mapRegion (hs : Inv (format arch) L s) {c : MapCall}
    (hok : (mapRegion arch L s c).1.isOk) (hc : roundedEnd c.region ≤ 2 ^ lowerBits arch)
    {virt : UInt64} (hv : virt.toNat < 2 ^ lowerBits arch) :
    leafAt (format arch) L (mapRegion arch L s c).2
        (slotOf (format arch) virt).1 (slotOf (format arch) virt).2 =
      if overlapsPage c.region virt then
        (format arch).leafEntry (alignDown virt pageSize) ((format arch).permissionsToFlags c.perms)
      else leafAt (format arch) L s (slotOf (format arch) virt).1 (slotOf (format arch) virt).2 := by
  obtain ⟨r, s', k, hcall, -, -, hmapped, hres⟩ :=
    setupIdentityMapping_spec (format_lawful arch) hs c.region c.perms
  rw [mapRegion, hcall] at hok ⊢
  rcases hres with ⟨rfl, rfl, hlen⟩ | ⟨rfl, -⟩ | ⟨rfl, -⟩
  · have hlenSlot : (slotOf (format arch) virt).1.length = (format arch).tableShifts.length := by
      simp [slotOf]
    have hiff := exists_page_iff hc hlen hv
    rcases hmapped _ (slotOf (format arch) virt).2 hlenSlot with ⟨i, hi, hslot, hleaf⟩ | ⟨hnone, hleaf⟩
    · -- the page written last for this slot is the page of `virt`
      have hpage : pageAt (startAddr c.region) i = alignDown virt pageSize := by
        have hlt := start_add_pageCount_lt c.region
        have hi' : (pageAt (startAddr c.region) i).toNat = (startAddr c.region).toNat + 4096 * i :=
          toNat_pageAt (by omega)
        have hva := lowerBits_le_vaBits arch
        have hstart := toNat_startAddr c.region
        have hbound : (pageAt (startAddr c.region) i).toNat < 2 ^ vaBits arch := by
          have hend := toNat_endAddr hc
          unfold pageCount at hi
          omega
        have hsame := (slotOf_eq_iff_of_lt hbound (by omega)).mp hslot
        apply UInt64.toNat_inj.mp
        rw [toNat_alignDown]
        omega
      rw [if_pos (hiff.mp ⟨i, hi, hslot⟩), hleaf, hpage]
    · have hfalse : ¬ overlapsPage c.region virt = true := by
        rw [← hiff]
        rintro ⟨i, hi, hslot⟩
        exact hnone i hi hslot
      rw [if_neg hfalse, hleaf]
  · cases hok
  · cases hok

theorem mapRegions_concat (calls : List MapCall) (c : MapCall) :
    mapRegions arch L s (calls ++ [c]) = (mapRegion arch L (mapRegions arch L s calls) c).2 := by
  simp [mapRegions]

theorem inv_mapRegion (hs : Inv (format arch) L s) (c : MapCall) :
    Inv (format arch) L (mapRegion arch L s c).2 := by
  obtain ⟨r, s', k, hcall, hinv, -⟩ :=
    setupIdentityMapping_spec (format_lawful arch) hs c.region c.perms
  rw [mapRegion, hcall]
  exact hinv

/-- Every state the boot code can reach satisfies the tree invariant. -/
theorem inv_mapRegions (calls : List MapCall) :
    ∀ s, Inv (format arch) L s → Inv (format arch) L (mapRegions arch L s calls) := by
  induction calls with
  | nil => exact fun s hs => hs
  | cons c calls ih => exact fun s hs => ih _ (inv_mapRegion hs c)

/-- A run of successful calls: the last overlapping call decides. -/
theorem leafAt_mapRegions {virt : UInt64} (hv : virt.toNat < 2 ^ lowerBits arch)
    (calls : List MapCall) :
    ∀ s, Inv (format arch) L s → AllOk arch L s calls →
      (∀ c ∈ calls, roundedEnd c.region ≤ 2 ^ lowerBits arch) →
      leafAt (format arch) L (mapRegions arch L s calls)
          (slotOf (format arch) virt).1 (slotOf (format arch) virt).2 =
        match calls.reverse.find? fun c => overlapsPage c.region virt with
        | some c => (format arch).leafEntry (alignDown virt pageSize)
            ((format arch).permissionsToFlags c.perms)
        | none => leafAt (format arch) L s (slotOf (format arch) virt).1
            (slotOf (format arch) virt).2 := by
  induction calls with
  | nil => exact fun s _ _ _ => rfl
  | cons c calls ih =>
    intro s hs hok hrange
    have hstep := leafAt_mapRegion hs hok.1 (hrange c List.mem_cons_self) hv
    have hrest := ih _ (inv_mapRegion hs c) hok.2 fun c' hc' => hrange c' (List.mem_cons_of_mem _ hc')
    rw [List.reverse_cons, List.find?_append]
    -- a later call that overlaps decides; otherwise this call is the last to do so
    rw [show mapRegions arch L s (c :: calls) = mapRegions arch L (mapRegion arch L s c).2 calls
      from rfl, hrest]
    cases hfind : calls.reverse.find? fun c => overlapsPage c.region virt with
    | some c' => rfl
    | none =>
      rw [hstep]
      by_cases hover : overlapsPage c.region virt = true
      · simp [hover]
      · simp [hover]

theorem translate_mapRegions_granted {virt : UInt64} (hv : virt.toNat < 2 ^ lowerBits arch)
    {calls : List MapCall} (hok : AllOk arch L .empty calls)
    (hrange : ∀ c ∈ calls, roundedEnd c.region ≤ 2 ^ lowerBits arch) :
    translate arch L (mapRegions arch L .empty calls) virt =
      (calls.reverse.find? fun c => overlapsPage c.region virt).map fun c =>
        ⟨virt, grantedRights arch c.perms, grantedUncached arch c.perms⟩ := by
  have hva := lowerBits_le_vaBits arch
  have hinv : Inv (format arch) L (mapRegions arch L .empty calls) :=
    inv_mapRegions calls _ inv_empty
  rw [translate_eq hinv (inRange_of_lt hv), leafAt_mapRegions hv calls _ inv_empty hok hrange]
  cases calls.reverse.find? fun c => overlapsPage c.region virt with
  | some c => exact pageTranslation_leafEntry arch c.perms (by omega)
  | none =>
    show pageTranslation virt (view arch 0 (leafAt (format arch) L .empty _ _)) = none
    rw [leafAt_empty, (format_viewLawful arch).fault_of_absent 0 0 UInt64.zero_and]
    rfl

end Regions

/-- After any sequence of successful calls in the lower half, the hardware walk of
an address there succeeds exactly when some mapped region overlaps its page. It
then yields the address itself, for the supervisor only, with the permissions of
the most recent such call. -/
theorem translate_mapRegions (arch : Arch) (harch : arch = .x86_64 ∨ arch = .riscv64)
    (L : FrameLayout (physBits arch)) (calls : List MapCall) (hok : AllOk arch L .empty calls)
    (hrange : ∀ c ∈ calls, roundedEnd c.region ≤ 2 ^ lowerBits arch)
    (virt : UInt64) (hvirt : virt.toNat < 2 ^ lowerBits arch) :
    translate arch L (mapRegions arch L .empty calls) virt =
      (calls.reverse.find? fun c => overlapsPage c.region virt).map fun c =>
        { phys := virt
          rights := { readable := true, writable := c.perms.writable,
                      executable := c.perms.executable, user := false }
          uncached := decide (arch = .x86_64) && c.perms.deviceUncached } := by
  rw [translate_mapRegions_granted hvirt hok hrange]
  rcases harch with rfl | rfl
  · simp [grantedRights, grantedUncached]
  · simp [grantedRights, grantedUncached]

/-- One placement of the tables: the root at 1 MiB, the pool behind it. -/
def sampleLayout (arch : Arch) : FrameLayout (physBits arch) where
  root := 0x100000
  pool k := 0x101000 + 0x1000 * UInt64.ofNat k
  root_aligned := by decide
  root_lt := by cases arch <;> decide
  pool_aligned := by decide
  pool_lt := by cases arch <;> decide
  pool_injective := by
    unfold Function.Injective
    decide
  pool_ne_root := by decide

/-- The usable memory `[base, base + length)`. -/
def usable (base length : UInt64) : MemoryRegion := ⟨base, length, .usable, false⟩

/-- Code at 0x1000..0x2FFF, then a device page over its second half. -/
theorem translate_mapRegions_overlay :
    let calls : List MapCall :=
      [⟨usable 0x1000 0x2000, .kernelCode⟩, ⟨usable 0x2010 0x20, .deviceMmio⟩]
    translate .x86_64 (sampleLayout .x86_64) (mapRegions .x86_64 (sampleLayout .x86_64) .empty calls)
        0x2ABC =
      some ⟨0x2ABC, ⟨true, true, false, false⟩, true⟩ := by
  intro calls
  rw [translate_mapRegions .x86_64 (.inl rfl) (sampleLayout .x86_64) calls
    ⟨by decide +kernel, by decide +kernel, trivial⟩ (by decide) 0x2ABC (by decide)]
  decide

end SimurghHal.Paging
