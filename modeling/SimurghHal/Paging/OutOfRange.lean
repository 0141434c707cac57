import SimurghHal.Paging.Capacity

/-!
# Regions outside the mappable range

`setup_identity_mapping` looks at the length of a region only. What it does with a region that
reaches beyond the addresses that can be mapped is decided by the wrapped page range and by
the table pool: the range may be empty, and the pages in it are entered at the slots their
translated bits select.
-/

namespace SimurghHal.Paging

open RadixTree OnDemand

section Failing

variable {F : PagingFormat} {b : ℕ} {L : FrameLayout b} {s : PageTables}

/-- A loop that fails has mapped the pages before the first one whose tables do not fit. -/
theorem mapLoop_fails (hF : F.Lawful b) {stop : UInt64} (flags : UInt64)
    (hstop : stop.toNat % 4096 = 0) :
    ∀ (fuel : ℕ) (addr : UInt64) (s : PageTables), addr.toNat % 4096 = 0 →
      (stop.toNat - addr.toNat) / 4096 < fuel → Inv F L s →
      ∀ e s', mapLoop F L stop flags fuel addr s = (.error e, s') →
      ∃ k < (stop.toNat - addr.toNat) / 4096, PrefixMapped F L s s' flags addr k ∧
        s.next + missing (HasTable F L) s (pagePaths F addr k) ≤ tablePoolSize ∧
        tablePoolSize < s.next + missing (HasTable F L) s (pagePaths F addr (k + 1)) := by
  intro fuel
  induction fuel with
  | zero =>
    intro addr s _ hfuel
    exact absurd hfuel (Nat.not_lt_zero _)
  | succ fuel ih =>
    intro addr s haddr hfuel hs e s' hloop
    rw [mapLoop] at hloop
    split at hloop
    · next hlt =>
      have hnext := toNat_add_pageSize hlt haddr hstop
      have hltNat := UInt64.lt_iff_toNat_lt.mp hlt
      obtain ⟨r, s₁, hpage, hinv, -, hres⟩ := mapPage_spec hF hs addr addr flags
      have hserves := mapPage_serves hF hs addr addr flags
      rw [hpage] at hloop hserves
      rcases hres with ⟨rfl, hleaf⟩ | ⟨rfl, -, hleaf⟩
      · obtain ⟨k, hk, hmapped, hfits, hshort⟩ :=
          ih (addr + pageSize) s₁ (by omega) (by omega) hinv e s' hloop
        rcases hserves.2 with ⟨-, hprovides⟩ | ⟨hfail, -⟩
        · have hused : s₁.next = s.next + missing (HasTable F L) s (tablePaths F addr) :=
            hprovides.used_eq
          have hhas : ∀ q, HasTable F L s₁ q ↔ HasTable F L s q ∨ q ∈ tablePaths F addr :=
            hprovides.has_iff
          -- what this page needed is not missing for the pages behind it
          refine ⟨k + 1, by omega, .cons hleaf hmapped, ?_, ?_⟩
          · rw [pagePaths_succ, missing_union hhas]
            omega
          · rw [pagePaths_succ, missing_union hhas]
            omega
        · exact absurd rfl hfail
      · obtain ⟨-, rfl⟩ := Prod.mk.inj hloop
        rcases hserves.2 with ⟨hok, -⟩ | ⟨-, hfails⟩
        · cases hok
        · have hshort := hfails.short
          refine ⟨0, by omega, .zero hleaf, hs.next_le, ?_⟩
          rw [pagePaths_succ]
          exact hshort.trans_le (Nat.add_le_add_left (missing_mono Finset.subset_union_left) _)
    · cases hloop

end Failing

section Regions

variable {arch : Arch} {L : FrameLayout (physBits arch)} {s : PageTables} {c : MapCall}

/-- The tables that the first `n` pages of a region lack. -/
def missingForPages (arch : Arch) (L : FrameLayout (physBits arch)) (s : PageTables)
    (region : MemoryRegion) (n : ℕ) : ℕ :=
  missing (HasTable (format arch) L) s (pagePaths (format arch) (startAddr region) n)

theorem missingForPages_mono (arch : Arch) (L : FrameLayout (physBits arch)) (s : PageTables)
    (region : MemoryRegion) {m n : ℕ} (h : m ≤ n) :
    missingForPages arch L s region m ≤ missingForPages arch L s region n :=
  missing_mono (pagePaths_mono _ h)

theorem mapRegion_fails (hs : Inv (format arch) L s) (hlen : c.region.lengthBytes ≠ 0)
    (herr : ¬ (mapRegion arch L s c).1.isOk = true) :
    (mapRegion arch L s c).1 = .error .invalidMemoryRegion ∧
      ∃ k < pageCount c.region,
        PrefixMapped (format arch) L s (mapRegion arch L s c).2
          ((format arch).permissionsToFlags c.perms) (startAddr c.region) k ∧
        s.next + missingForPages arch L s c.region k ≤ tablePoolSize ∧
        tablePoolSize < s.next + missingForPages arch L s c.region (k + 1) := by
  have hfails := mapLoop_fails (L := L) (format_lawful arch)
    ((format arch).permissionsToFlags c.perms)
    (show (endAddr c.region).toNat % 4096 = 0 from alignUp_mod _) (pageCount c.region + 1)
    (startAddr c.region) s (startAddr_mod c.region) (Nat.lt_succ_self _) hs
  obtain ⟨r, s', k, hcall, -, -, -, hres⟩ :=
    setupIdentityMapping_spec (format_lawful arch) hs c.region c.perms
  rw [mapRegion] at herr ⊢
  have herror : r = .error .invalidMemoryRegion := by
    rcases hres with ⟨rfl, -⟩ | ⟨rfl, -⟩ | ⟨rfl, -⟩
    · rw [hcall] at herr
      exact absurd rfl herr
    · rfl
    · rfl
  subst herror
  rw [hcall]
  refine ⟨rfl, hfails .invalidMemoryRegion s' ?_⟩
  rw [setupIdentityMapping_of_length_ne_zero hlen] at hcall
  rcases hloop : mapLoop (format arch) L (endAddr c.region)
    ((format arch).permissionsToFlags c.perms) (pageCount c.region + 1) (startAddr c.region) s
    with ⟨e | _, s''⟩
  · rw [hloop] at hcall
    obtain ⟨herror, rfl⟩ := Prod.mk.inj hcall
    cases herror
    rfl
  · rw [hloop] at hcall
    cases (Prod.mk.inj hcall).1

end Regions

/-- The call is refused and every translation is as before. -/
def RejectsUnchanged (arch : Arch) (L : FrameLayout (physBits arch)) (s : PageTables)
    (c : MapCall) : Prop :=
  (mapRegion arch L s c).1 = .error .invalidMemoryRegion ∧
    ∀ virt, translate arch L (mapRegion arch L s c).2 virt = translate arch L s virt

/-- A call for a region of positive length, wherever it lies, is refused without a trace
exactly when the pool has no room for the tables of its pages, and each page it gets to
before that was mapped in the same way already. -/
theorem mapRegion_rejectsUnchanged_iff (arch : Arch) (L : FrameLayout (physBits arch))
    (calls : List MapCall) (c : MapCall) (hlen : c.region.lengthBytes ≠ 0) :
    let s := mapRegions arch L .empty calls
    RejectsUnchanged arch L s c ↔
      tablePoolSize < s.next + missingForPages arch L s c.region (pageCount c.region) ∧
        ∀ i < pageCount c.region,
          s.next + missingForPages arch L s c.region (i + 1) ≤ tablePoolSize →
          ∀ virt, SameEntry arch (pageAt (startAddr c.region) i) virt →
            translate arch L s virt =
              mappedTranslation arch c.perms (pageAt (startAddr c.region) i) virt := by
  intro s
  have hs : Inv (format arch) L s := inv_mapRegions calls _ inv_empty
  have hinv := inv_mapRegion hs c
  have hbound := start_add_pageCount_lt c.region
  have hmono := @missingForPages_mono arch L s c.region
  constructor
  · rintro ⟨herr, hsame⟩
    have hfail : ¬ (mapRegion arch L s c).1.isOk = true := by
      rw [herr]
      exact Bool.false_ne_true
    obtain ⟨-, k, hk, hmapped, hfits, hshort⟩ := mapRegion_fails hs hlen hfail
    refine ⟨hshort.trans_le (Nat.add_le_add_left (hmono hk) _), ?_⟩
    intro i hi hroom virt hentry
    -- a page whose tables fit comes before the one at which the call has failed
    have hik : i < k := by
      by_contra hge
      have hle := hmono (Nat.add_le_add_right (not_lt.mp hge) 1)
      omega
    rw [← hsame virt]
    exact (hmapped.translate hs hinv (by omega) virt).1 i hik hentry
  · rintro ⟨hshort, hpages⟩
    have hfail : ¬ (mapRegion arch L s c).1.isOk = true := by
      rw [(isOk_mapRegion_iff hs hlen).1]
      exact not_le.mpr hshort
    obtain ⟨herr, k, hk, hmapped, hfits, -⟩ := mapRegion_fails hs hlen hfail
    refine ⟨herr, fun virt => ?_⟩
    obtain ⟨hinside, houtside⟩ := hmapped.translate hs hinv (by omega) virt
    by_cases hvirt : ∃ i < k, SameEntry arch (pageAt (startAddr c.region) i) virt
    · obtain ⟨i, hi, hentry⟩ := hvirt
      rw [hinside i hi hentry]
      have hle := hmono (show i + 1 ≤ k from hi)
      exact (hpages i (hi.trans hk) (by omega) virt hentry).symm
    · exact houtside fun i hi hentry => hvirt ⟨i, hi, hentry⟩

/-- The page at 2^47 with the pool used up: nothing happens. -/
theorem mapRegion_rejectsUnchanged_full :
    let L := sampleLayout .x86_64
    let s := mapRegions .x86_64 L .empty (scatteredCalls ++ [straddlingCall])
    RejectsUnchanged .x86_64 L s ⟨usable 0x800000000000 0x1000, .kernelData⟩ := by
  intro L s
  have hcount : pageCount (usable 0x800000000000 0x1000) = 1 := by decide +kernel
  have hshort : tablePoolSize <
      s.next + missingForPages .x86_64 L s (usable 0x800000000000 0x1000) 1 := by
    decide +kernel
  refine (mapRegion_rejectsUnchanged_iff .x86_64 L (scatteredCalls ++ [straddlingCall])
    ⟨usable 0x800000000000 0x1000, .kernelData⟩ (by decide)).mpr ⟨?_, ?_⟩
  · rw [hcount]
    exact hshort
  · intro i hi hroom
    obtain rfl : i = 0 := Nat.lt_one_iff.mp (hi.trans_eq hcount)
    exact absurd hroom (not_le.mpr hshort)

/-- With fresh tables, the last page of the address space is accepted and nothing is mapped,
and the page at 2^48 is entered at the slot of address 0. -/
theorem mapRegion_accepts_outOfRange :
    let L := sampleLayout .x86_64
    let wrapping : MapCall := ⟨usable 0xFFFFFFFFFFFFF000 0x1000, .kernelData⟩
    let beyond : MapCall := ⟨usable 0x1000000000000 0x1000, .kernelData⟩
    ¬ RejectsUnchanged .x86_64 L .empty wrapping ∧
      (mapRegion .x86_64 L .empty wrapping).1 = .ok 0xFFFFFFFFFFFFF000 ∧
      (mapRegion .x86_64 L .empty wrapping).2.next = 0 ∧
      ¬ RejectsUnchanged .x86_64 L .empty beyond ∧
      translate .x86_64 L (mapRegion .x86_64 L .empty beyond).2 0 =
        some ⟨0x1000000000000, ⟨true, true, false, false⟩, false⟩ := by
  intro L wrapping beyond
  have hwrapping : (mapRegion .x86_64 L .empty wrapping).1 = .ok 0xFFFFFFFFFFFFF000 := by
    decide +kernel
  have hbeyond : (mapRegion .x86_64 L .empty beyond).1 = .ok 0x1000000000000 := by
    decide +kernel
  refine ⟨fun h => ?_, hwrapping, by decide +kernel, fun h => ?_, by decide +kernel⟩
  · have herr := h.1
    rw [hwrapping] at herr
    cases herr
  · have herr := h.1
    rw [hbeyond] at herr
    cases herr

end SimurghHal.Paging
