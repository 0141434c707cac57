import SimurghHal.Paging.Refinement
import Mathlib.Data.Fintype.Pigeonhole

/-!
# Mapping calls that fail

`setup_identity_mapping` writes page by page and undoes nothing. A call that fails
on a region of positive length has used up the table pool and leaves a prefix of
its pages mapped.
-/

namespace SimurghHal.Paging

/-- The translation of `virt` by the entry written for the page at `page`. -/
def mappedTranslation (arch : Arch) (perms : MapPermissions) (page virt : UInt64) :
    Option Translation :=
  if InRange arch virt then
    pageTranslation virt (view arch 0
      ((format arch).leafEntry page ((format arch).permissionsToFlags perms)))
  else none

/-- The two addresses are looked up in the same entry of the last level: their page
numbers agree in the bits that are translated. -/
def SameEntry (arch : Arch) (a v : UInt64) : Prop :=
  a.toNat / 4096 % 2 ^ (vaBits arch - 12) = v.toNat / 4096 % 2 ^ (vaBits arch - 12)

section Prefix

variable {arch : Arch} {L : FrameLayout (physBits arch)} {s s' : PageTables}

theorem leafEntry_ne_zero (arch : Arch) (phys : UInt64) (perms : MapPermissions) :
    (format arch).leafEntry phys ((format arch).permissionsToFlags perms) ≠ 0 := by
  intro h0
  have hbit : Words.bit ((format arch).leafEntry phys ((format arch).permissionsToFlags perms)) 0 =
      true := by
    cases arch with
    | x86_64 =>
      simp [format, X86_64.format, show Words.bit X86_64.ptePresent 0 = true by decide]
    | arm64 =>
      simp [format, Arm64.format, show Words.bit Arm64.pteValid 0 = true by decide]
    | riscv64 =>
      simp [format, Riscv64.format, show Words.bit Riscv64.pteValid 0 = true by decide]
  rw [h0] at hbit
  exact absurd hbit (by decide)

/-- The pool bounds the length of a mapped prefix: 17 pages at distances of 2 MiB
would need 17 tables of the last level. -/
theorem PrefixMapped.length_le (hs' : Inv (format arch) L s') {perms : MapPermissions}
    {addr : UInt64} {k : ℕ}
    (h : PrefixMapped (format arch) L s s' ((format arch).permissionsToFlags perms) addr k)
    (hend : addr.toNat + 4096 * k < 2 ^ 64) : k ≤ 8192 := by
  by_contra hk
  have htable : ∀ n : Fin 17, ∃ f : Fin tablePoolSize,
      RadixTree.descend (decode (format arch)) s'.frames L.root
        (slotOf (format arch) (pageAt addr (512 * n))).1 = some (L.pool f) := by
    intro n
    have hlen : (slotOf (format arch) (pageAt addr (512 * n))).1.length =
        (format arch).tableShifts.length := by
      simp [slotOf]
    -- the entry of this page has been written, so its table is there
    have hne : leafAt (format arch) L s' (slotOf (format arch) (pageAt addr (512 * n))).1
        (slotOf (format arch) (pageAt addr (512 * n))).2 ≠ 0 := by
      rcases h _ (slotOf (format arch) (pageAt addr (512 * n))).2 hlen with
        ⟨i, -, -, hleaf⟩ | ⟨hnone, -⟩
      · rw [hleaf]
        exact leafEntry_ne_zero arch _ perms
      · exact absurd rfl (hnone (512 * n) (by omega))
    cases ht : RadixTree.descend (decode (format arch)) s'.frames L.root
        (slotOf (format arch) (pageAt addr (512 * n))).1 with
    | none => simp [leafAt, RadixTree.lookup, ht] at hne
    | some t =>
      have hpath : (slotOf (format arch) (pageAt addr (512 * n))).1 ≠ [] := by
        intro he
        rw [he] at hlen
        cases arch <;> cases hlen
      obtain ⟨f, -, rfl⟩ := hs'.reached hpath hlen.le ht
      exact ⟨f, rfl⟩
  -- two of the 17 pages share a pool table, so they share the path to it
  choose f hf using htable
  obtain ⟨n, m, hnm, hfnm⟩ := Fintype.exists_ne_map_eq_of_card_lt f (by decide)
  have hm := hf m
  rw [← hfnm] at hm
  have hpath := hs'.tree.inj (by simp [slotOf]) (by simp [slotOf]) (hf n) hm
  rw [slotOf_fst_eq_iff, toNat_pageAt (by omega), toNat_pageAt (by omega)] at hpath
  apply hnm
  apply Fin.ext
  cases arch <;> simp only [vaBits, Nat.reducePow, Nat.reduceSub] at hpath <;> omega

/-- A mapped prefix in terms of translations: the pages of the prefix are mapped,
every other address is translated as before. -/
theorem PrefixMapped.translate (hs : Inv (format arch) L s) (hs' : Inv (format arch) L s')
    {perms : MapPermissions} {addr : UInt64} {k : ℕ}
    (h : PrefixMapped (format arch) L s s' ((format arch).permissionsToFlags perms) addr k)
    (hend : addr.toNat + 4096 * k < 2 ^ 64) (virt : UInt64) :
    (∀ i < k, SameEntry arch (pageAt addr i) virt →
      translate arch L s' virt = mappedTranslation arch perms (pageAt addr i) virt) ∧
    ((∀ i < k, ¬ SameEntry arch (pageAt addr i) virt) →
      translate arch L s' virt = translate arch L s virt) := by
  have hk := h.length_le hs' hend
  have hlen : (slotOf (format arch) virt).1.length = (format arch).tableShifts.length := by
    simp [slotOf]
  have hslot := h (slotOf (format arch) virt).1 (slotOf (format arch) virt).2 hlen
  by_cases hrange : InRange arch virt
  · rw [translate_eq hs hrange, translate_eq hs' hrange]
    rcases hslot with ⟨j, hj, hslot, hleaf⟩ | ⟨hnone, hleaf⟩
    · have hsame : SameEntry arch (pageAt addr j) virt := (slotOf_eq_iff arch _ _).mp hslot
      refine ⟨?_, fun hnot => absurd hsame (hnot j hj)⟩
      intro i hi hi'
      -- a prefix this short has no two pages in the same entry
      have hij : i = j := by
        have he : SameEntry arch (pageAt addr i) (pageAt addr j) := hi'.trans hsame.symm
        rw [SameEntry, toNat_pageAt (by omega), toNat_pageAt (by omega)] at he
        cases arch <;> simp only [vaBits, Nat.reducePow, Nat.reduceSub] at he <;> omega
      subst hij
      rw [hleaf, mappedTranslation, if_pos hrange]
    · refine ⟨?_, fun _ => by rw [hleaf]⟩
      intro i hi hi'
      exact absurd ((slotOf_eq_iff arch _ _).mpr hi') (hnone i hi)
  · have hnone : ∀ u, Paging.translate arch L u virt = none := fun u => if_neg hrange
    simp [hnone, mappedTranslation, hrange]

end Prefix

/-- A call that fails either was given an empty region and changes nothing, or has
exhausted the table pool. In that case it leaves the first `k` pages of the region
mapped, for some `k` short of all its pages, and every other address as it was. -/
theorem mapRegion_error (arch : Arch) (L : FrameLayout (physBits arch)) (calls : List MapCall)
    (c : MapCall) (e : HalError)
    (herr : (mapRegion arch L (mapRegions arch L .empty calls) c).1 = .error e) :
    let s := mapRegions arch L .empty calls
    let s' := (mapRegion arch L s c).2
    (c.region.lengthBytes = 0 ∧ s' = s) ∨
      (s'.next = tablePoolSize ∧ ∃ k < pageCount c.region, ∀ virt,
        (∀ i < k, SameEntry arch (pageAt (startAddr c.region) i) virt →
          translate arch L s' virt =
            mappedTranslation arch c.perms (pageAt (startAddr c.region) i) virt) ∧
        ((∀ i < k, ¬ SameEntry arch (pageAt (startAddr c.region) i) virt) →
          translate arch L s' virt = translate arch L s virt)) := by
  intro s s'
  have hs : Inv (format arch) L s := inv_mapRegions calls _ inv_empty
  obtain ⟨r, t, k, hcall, hinv, -, hmapped, hres⟩ :=
    setupIdentityMapping_spec (format_lawful arch) hs c.region c.perms
  have hs' : s' = t := by
    show (mapRegion arch L s c).2 = t
    rw [mapRegion, hcall]
  rw [mapRegion, hcall] at herr
  rw [hs']
  rcases hres with ⟨rfl, -⟩ | ⟨-, hlen, ht, -⟩ | ⟨-, -, hk, hfull⟩
  · cases herr
  · exact .inl ⟨hlen, ht⟩
  · refine .inr ⟨hfull, k, hk, fun virt => ?_⟩
    have hlt := start_add_pageCount_lt c.region
    exact hmapped.translate hs hinv (by omega) virt

/-- Five pages in five different 512 GiB ranges use 15 of the 16 pool tables. -/
def scatteredCalls : List MapCall :=
  [⟨usable 0x7FFFFFE000 0x1000, .kernelData⟩, ⟨usable 0x10000000000 0x1000, .kernelData⟩,
    ⟨usable 0x18000000000 0x1000, .kernelData⟩, ⟨usable 0x20000000000 0x1000, .kernelData⟩,
    ⟨usable 0x28000000000 0x1000, .kernelData⟩]

/-- Two pages on either side of the first 512 GiB. -/
def straddlingCall : MapCall := ⟨usable 0x7FFFFFF000 0x2000, .kernelData⟩

/-- The call fails at its second page; the first stays mapped and the last table of
the pool is gone. -/
theorem mapRegion_error_not_atomic :
    let L := sampleLayout .x86_64
    let s := mapRegions .x86_64 L .empty scatteredCalls
    let s' := (mapRegion .x86_64 L s straddlingCall).2
    (mapRegion .x86_64 L s straddlingCall).1 = .error .invalidMemoryRegion ∧
      s.next = 15 ∧ s'.next = 16 ∧ translate .x86_64 L s 0x7FFFFFF000 = none ∧
      translate .x86_64 L s' 0x7FFFFFF000 =
        some ⟨0x7FFFFFF000, ⟨true, true, false, false⟩, false⟩ := by
  decide +kernel

theorem mapRegion_error_straddling :
    let L := sampleLayout .x86_64
    let s := mapRegions .x86_64 L .empty scatteredCalls
    let s' := (mapRegion .x86_64 L s straddlingCall).2
    let start := startAddr straddlingCall.region
    s'.next = tablePoolSize ∧ ∃ k < pageCount straddlingCall.region, ∀ virt,
      (∀ i < k, SameEntry .x86_64 (pageAt start i) virt → translate .x86_64 L s' virt =
        mappedTranslation .x86_64 straddlingCall.perms (pageAt start i) virt) ∧
      ((∀ i < k, ¬ SameEntry .x86_64 (pageAt start i) virt) →
        translate .x86_64 L s' virt = translate .x86_64 L s virt) := by
  have herr : (mapRegion .x86_64 (sampleLayout .x86_64)
      (mapRegions .x86_64 (sampleLayout .x86_64) .empty scatteredCalls) straddlingCall).1 =
      .error .invalidMemoryRegion := by
    decide +kernel
  rcases mapRegion_error .x86_64 (sampleLayout .x86_64) scatteredCalls straddlingCall _ herr with
    ⟨hlen, -⟩ | h
  · exact absurd hlen (by decide)
  · exact h

end SimurghHal.Paging
