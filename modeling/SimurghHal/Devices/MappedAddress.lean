import SimurghHal.Devices.Direct

/-!
# The address a mapping call returns

`setup_identity_mapping` maps whole pages and returns the address of the first one, so the
first byte of a region is at the returned address only when the region starts a page.
`map_mmio_region` passes the address on.
-/

namespace SimurghHal.Direct

open Paging Manifest

/-- The bytes from `virt` on are the physical bytes from `base` on. -/
def ReachesBytes (arch : Arch) (L : FrameLayout (physBits arch)) (s : PageTables)
    (virt base length : UInt64) : Prop :=
  ∀ i < length.toNat, ∃ t, translate arch L s (virt + UInt64.ofNat i) = some t ∧
    t.phys = base + UInt64.ofNat i

section Returned

variable {arch : Arch} {L : FrameLayout (physBits arch)} {s : PageTables} {c : MapCall}
  {v : UInt64}

theorem eq_startAddr_of_ok (hs : Inv (format arch) L s) (hok : (mapRegion arch L s c).1 = .ok v) :
    v = startAddr c.region ∧ c.region.lengthBytes ≠ 0 := by
  obtain ⟨r, s', k, hcall, -, -, -, hres⟩ :=
    setupIdentityMapping_spec (format_lawful arch) hs c.region c.perms
  rw [mapRegion, hcall] at hok
  rcases hres with ⟨rfl, -, hlen⟩ | ⟨rfl, -⟩ | ⟨rfl, -⟩
  · exact ⟨(Except.ok.inj hok).symm, hlen⟩
  · cases hok
  · cases hok

/-- A successful call maps every address in a page of its region to itself. -/
theorem translate_of_ok (hs : Inv (format arch) L s) (hok : (mapRegion arch L s c).1 = .ok v)
    (hc : roundedEnd c.region ≤ 2 ^ lowerBits arch) {virt : UInt64}
    (hv : virt.toNat < 2 ^ lowerBits arch) (hover : overlapsPage c.region virt = true) :
    translate arch L (mapRegion arch L s c).2 virt =
      some ⟨virt, grantedRights arch c.perms, grantedUncached arch c.perms⟩ := by
  have hisOk : (mapRegion arch L s c).1.isOk = true := by
    rw [hok]
    rfl
  rw [translate_eq (inv_mapRegion hs c) (inRange_of_lt hv), leafAt_mapRegion hs hisOk hc hv,
    if_pos hover]
  exact pageTranslation_leafEntry arch c.perms (hv.trans_le (lowerBits_le_vaBits arch))

theorem roundedEnd_le {region : MemoryRegion}
    (h : region.baseAddr.toNat + region.lengthBytes.toNat ≤ 2 ^ lowerBits arch) :
    roundedEnd region ≤ 2 ^ lowerBits arch := by
  unfold roundedEnd
  cases arch <;> simp only [lowerBits, Nat.reducePow] at h ⊢ <;> omega

/-- What the call returns is the first byte of the region exactly when the region starts a
page. -/
theorem reachesBytes_mapRegion_iff (hs : Inv (format arch) L s)
    (hok : (mapRegion arch L s c).1 = .ok v)
    (hc : c.region.baseAddr.toNat + c.region.lengthBytes.toNat ≤ 2 ^ lowerBits arch) :
    ReachesBytes arch L (mapRegion arch L s c).2 v c.region.baseAddr c.region.lengthBytes ↔
      c.region.baseAddr.toNat % 4096 = 0 := by
  obtain ⟨hstart, hlen⟩ := eq_startAddr_of_ok hs hok
  have hpow : 2 ^ lowerBits arch ≤ 2 ^ 48 := by cases arch <;> decide
  have hpos : 0 < c.region.lengthBytes.toNat := by
    rw [Nat.pos_iff_ne_zero]
    exact fun h0 => hlen (UInt64.toNat_inj.mp h0)
  have hv : v.toNat = c.region.baseAddr.toNat / 4096 * 4096 := by
    rw [hstart, toNat_startAddr]
  have haddr : ∀ i < c.region.lengthBytes.toNat, (v + UInt64.ofNat i).toNat = v.toNat + i := by
    intro i hi
    rw [UInt64.toNat_add, UInt64.toNat_ofNat', Nat.mod_eq_of_lt (show i < 2 ^ 64 by omega)]
    exact Nat.mod_eq_of_lt (by omega)
  have htranslate : ∀ i < c.region.lengthBytes.toNat,
      translate arch L (mapRegion arch L s c).2 (v + UInt64.ofNat i) =
        some ⟨v + UInt64.ofNat i, grantedRights arch c.perms, grantedUncached arch c.perms⟩ := by
    intro i hi
    have hi' := haddr i hi
    refine translate_of_ok hs hok (roundedEnd_le hc) (by omega) ?_
    rw [overlapsPage, decide_eq_true_iff]
    omega
  constructor
  · intro hreach
    -- the first byte decides: the returned address is mapped to itself
    obtain ⟨t, ht, hphys⟩ := hreach 0 hpos
    rw [htranslate 0 hpos] at ht
    obtain rfl := Option.some.inj ht
    have hbase : v = c.region.baseAddr := by simpa using hphys
    rw [← hbase, hv]
    exact Nat.mul_mod_left _ _
  · intro haligned i hi
    have hbase : v = c.region.baseAddr := by
      apply UInt64.toNat_inj.mp
      omega
    exact ⟨_, htranslate i hi, by rw [hbase]⟩

end Returned

/-- A verified call of `map_mmio_region` is the mapping call for that region. -/
theorem mapMmioRegion_ok {arch : Arch} {A : DirectAccess arch} {nowNs : UInt64}
    {token : CapabilityToken} {phys size v : UInt64} {st : DirectState}
    (h : (mapMmioRegion A nowNs token phys size st).1 = .ok v) :
    let c : MapCall := ⟨⟨phys, size, .mmio, A.iommuPresent⟩, .deviceMmio⟩
    (mapRegion arch A.layout st.tables c).1 = .ok v ∧
      (mapMmioRegion A nowNs token phys size st).2.tables =
        (mapRegion arch A.layout st.tables c).2 := by
  rw [mapMmioRegion] at h ⊢
  split at h
  · cases h
  · exact ⟨h, rfl⟩

/-- In every state the boot code can reach, the address a successful call returns for a region
in the lower half leads to the bytes of the region if and only if the region starts at a page
boundary; likewise for verified calls of `map_mmio_region`. -/
theorem returned_address_reaches_iff (arch : Arch) (A : DirectAccess arch) (calls : List MapCall)
    (base length : UInt64) (hrange : base.toNat + length.toNat ≤ 2 ^ lowerBits arch) :
    let s := mapRegions arch A.layout .empty calls
    (∀ kind behindIommu perms v,
      let result := mapRegion arch A.layout s ⟨⟨base, length, kind, behindIommu⟩, perms⟩
      result.1 = .ok v →
        (ReachesBytes arch A.layout result.2 v base length ↔ base.toNat % 4096 = 0)) ∧
      ∀ nowNs token countersRead v,
        let result := mapMmioRegion A nowNs token base length ⟨s, countersRead⟩
        result.1 = .ok v →
          (ReachesBytes arch A.layout result.2.tables v base length ↔ base.toNat % 4096 = 0) := by
  intro s
  have hs : Inv (format arch) A.layout s := inv_mapRegions calls _ inv_empty
  refine ⟨?_, ?_⟩
  · intro kind behindIommu perms v result hok
    exact reachesBytes_mapRegion_iff hs hok hrange
  · intro nowNs token countersRead v result hok
    obtain ⟨hmap, htables⟩ := mapMmioRegion_ok hok
    rw [htables]
    exact reachesBytes_mapRegion_iff hs hmap hrange

/-- A page of registers mapped through a token for it. -/
theorem returned_address_reaches_page :
    let token := CapabilityToken.new 1 (.mmioRegion 0x10001000 0x1000) 1000
    let result := mapMmioRegion acceptingAccess 0 token 0x10001000 0x1000 ⟨.empty, []⟩
    ReachesBytes .riscv64 acceptingAccess.layout result.2.tables 0x10001000 0x10001000 0x1000 := by
  intro token result
  have hok : result.1 = .ok 0x10001000 := by decide +kernel
  exact ((returned_address_reaches_iff .riscv64 acceptingAccess [] 0x10001000 0x1000
    (by decide)).2 0 token [] 0x10001000 hok).mpr (by decide)

/-- Registers at `0x10001040`: the call returns `0x10001000`, which is not where they are. -/
theorem returned_address_misses_offset :
    let token := CapabilityToken.new 1 (.mmioRegion 0x10001040 0x20) 1000
    let result := mapMmioRegion acceptingAccess 0 token 0x10001040 0x20 ⟨.empty, []⟩
    result.1 = .ok 0x10001000 ∧
      (translate .riscv64 acceptingAccess.layout result.2.tables 0x10001000).map
        Translation.phys = some 0x10001000 ∧
      ¬ ReachesBytes .riscv64 acceptingAccess.layout result.2.tables 0x10001000 0x10001040
        0x20 := by
  intro token result
  have htranslate : (translate .riscv64 acceptingAccess.layout result.2.tables 0x10001000).map
      Translation.phys = some 0x10001000 := by
    decide +kernel
  refine ⟨by decide +kernel, htranslate, fun hreach => ?_⟩
  obtain ⟨t, ht, hphys⟩ := hreach 0 (by decide)
  rw [show (0x10001000 : UInt64) + UInt64.ofNat 0 = 0x10001000 by decide] at ht
  rw [ht, Option.map_some, hphys] at htranslate
  exact absurd htranslate (by decide)

end SimurghHal.Direct
