import SimurghHal.Devices.ComputeScan

/-!
# What a device index denotes across rescans

`device_by_index` finds an entry by its index, and an entry was made from one function of
the configuration space. The index is meant to be the stable identity of that function.
The scan leaves every index at 0, so index 0 denotes whichever function comes first: it
moves to another function as soon as one is plugged in before it.
-/

namespace SimurghHal.Compute

open Manifest BoundedTable

/-- The functions a scan lists. -/
def listed (space : ConfigSpace) : List PciFunction := (recognised space).take maxComputeDevices

/-- The function behind the entry `device_by_index` finds, for a discovery that scanned this
configuration space. -/
def ComputeDiscovery.denotes (compute : ComputeDiscovery) (space : ConfigSpace)
    (deviceIndex : UInt32) : Option PciFunction :=
  (((listed space).zip compute.enumerateComputeDevices).find? fun entry =>
    entry.2.deviceIndex == deviceIndex).map Prod.fst

section Lookup

variable {arch : Arch} {ecamBase : UInt64} {space : ConfigSpace}

/-- Looking up among the second components finds the second component. -/
theorem find?_zip {α β : Type*} {R : α → β → Prop} (P : β → Bool) {as : List α} {bs : List β}
    (h : List.Forall₂ R as bs) :
    ((as.zip bs).find? fun e => P e.2).map Prod.snd = bs.find? P ∧
      ∀ e ∈ as.zip bs, R e.1 e.2 := by
  induction h with
  | nil => exact ⟨rfl, by simp⟩
  | @cons a b as bs hab _ ih =>
    refine ⟨?_, ?_⟩
    · rw [List.zip_cons_cons, List.find?_cons, List.find?_cons]
      cases P b with
      | false => exact ih.1
      | true => rfl
    · rintro e he
      rw [List.zip_cons_cons] at he
      rcases List.mem_cons.mp he with rfl | he
      · exact hab
      · exact ih.2 e he

/-- The entry found says what the registers of the function denoted say. -/
theorem exists_deviceByIndex_of_denotes {deviceIndex : UInt32} {p : PciFunction}
    (h : (ComputeDiscovery.new arch ecamBase space).denotes space deviceIndex = some p) :
    ∃ d, (ComputeDiscovery.new arch ecamBase space).deviceByIndex deviceIndex = some d ∧
      Reports space p d := by
  obtain ⟨⟨q, d⟩, hfind, rfl⟩ := Option.map_eq_some_iff.mp h
  have hzip := find?_zip (fun d : ComputeDeviceRaw => d.deviceIndex == deviceIndex)
    (forall₂_enumerate_new arch ecamBase space)
  refine ⟨d, ?_, reports_of_reportAt (hzip.2 _ (List.mem_of_find?_eq_some hfind))⟩
  rw [ComputeDiscovery.deviceByIndex, ← hzip.1]
  exact congrArg (Option.map Prod.snd) hfind

/-- Index 0 denotes the first function that is recognised, other indices denote nothing. -/
theorem denotes_new (deviceIndex : UInt32) :
    (ComputeDiscovery.new arch ecamBase space).denotes space deviceIndex =
      if deviceIndex = 0 then (recognised space).head? else none := by
  have hzero : ∀ d ∈ (ComputeDiscovery.new arch ecamBase space).enumerateComputeDevices,
      d.deviceIndex = 0 := fun _ hd => (unnamed_of_mem_enumerate hd).1
  have hlen := (forall₂_enumerate_new arch ecamBase space).length_eq
  rw [ComputeDiscovery.denotes, listed]
  generalize (ComputeDiscovery.new arch ecamBase space).enumerateComputeDevices = devices
    at hzero hlen
  cases hfound : recognised space with
  | nil => simp
  | cons p rest =>
    rw [hfound, show maxComputeDevices = 31 + 1 from rfl, List.take_succ_cons] at hlen
    rw [show maxComputeDevices = 31 + 1 from rfl, List.take_succ_cons]
    cases devices with
    | nil => simp at hlen
    | cons d devices =>
      by_cases hindex : deviceIndex = 0
      · rw [if_pos hindex, List.zip_cons_cons, List.find?_cons_of_pos]
        · rfl
        · simp [hzero d List.mem_cons_self, hindex]
      · rw [if_neg hindex, List.find?_eq_none.mpr, Option.map_none]
        intro e he
        rw [hzero e.2 (List.of_mem_zip he).2, beq_iff_eq]
        exact fun h => hindex h.symm

end Lookup

/-! ### The first function -/

/-- The first function in the order of the buses that counts and has a kind. -/
def FirstRecognised (space : ConfigSpace) (p : PciFunction) : Prop :=
  p.Addressable ∧ (kindAt space p).isSome ∧
    ∀ q, q.Addressable → q.Before p → kindAt space q = none

theorem PciFunction.Before.asymm {p q : PciFunction} (h : p.Before q) : ¬ q.Before p := by
  simp only [PciFunction.Before, UInt8.lt_iff_toNat_lt, ← UInt8.toNat_inj] at h ⊢
  omega

theorem mem_recognised_iff_kindAt {space : ConfigSpace} {p : PciFunction} :
    p ∈ recognised space ↔ p.Addressable ∧ (kindAt space p).isSome := by
  rw [recognised, List.mem_filter, PciFunction.mem_all]

theorem head?_recognised_iff {space : ConfigSpace} {p : PciFunction} :
    (recognised space).head? = some p ↔ FirstRecognised space p := by
  have hsorted := pairwise_recognised space
  constructor
  · intro hhead
    obtain ⟨rest, hrest⟩ := List.head?_eq_some_iff.mp hhead
    have hp : p ∈ recognised space := List.mem_of_head? hhead
    rw [mem_recognised_iff_kindAt] at hp
    refine ⟨hp.1, hp.2, fun q hq hbefore => ?_⟩
    -- a function with a kind would be listed, behind the head of the sorted list
    by_contra hkind
    have hmem : q ∈ recognised space :=
      mem_recognised_iff_kindAt.mpr ⟨hq, Option.isSome_iff_ne_none.mpr hkind⟩
    rw [hrest] at hmem hsorted
    rcases List.mem_cons.mp hmem with rfl | hmem
    · exact hbefore.asymm hbefore
    · exact hbefore.asymm (List.rel_of_pairwise_cons hsorted hmem)
  · rintro ⟨hp, hkind, hfirst⟩
    have hmem : p ∈ recognised space := mem_recognised_iff_kindAt.mpr ⟨hp, hkind⟩
    cases hlist : recognised space with
    | nil =>
      rw [hlist] at hmem
      cases hmem
    | cons q rest =>
      rw [hlist] at hmem hsorted
      rcases List.mem_cons.mp hmem with rfl | hmem
      · rfl
      · have hq : q ∈ recognised space := hlist ▸ List.mem_cons_self
        rw [mem_recognised_iff_kindAt] at hq
        have hnone := hfirst q hq.1 (List.rel_of_pairwise_cons hsorted hmem)
        rw [hnone] at hq
        cases hq.2

/-! ### Runs of rescans -/

/-- A call of `rescan` and the configuration space it meets. -/
structure Rescan where
  kindFilter : Option ComputeKindRaw
  space : ConfigSpace

/-- An index goes on denoting its function as long as that is there, and is not passed on
to another function that was listed already. -/
def KeepsIdentity (before after : ConfigSpace) (compute compute' : ComputeDiscovery) : Prop :=
  ∀ deviceIndex p, compute.denotes before deviceIndex = some p →
    (Present after p → compute'.denotes after deviceIndex = some p) ∧
      (¬ Present after p → ∀ q, compute'.denotes after deviceIndex = some q → q ≠ p →
        q ∉ listed before)

/-- Every rescan of a run keeps what the indices denote. -/
def IdentityKept (arch : Arch) (ecamBase : UInt64) :
    ComputeDiscovery → ConfigSpace → List Rescan → Prop
  | _, _, [] => True
  | compute, before, r :: rs =>
    let compute' := (compute.rescan arch ecamBase r.kindFilter r.space).2.1
    KeepsIdentity before r.space compute compute' ∧ IdentityKept arch ecamBase compute' r.space rs

/-- The first recognised function stays the first one, or is gone and followed by one that
was not listed. -/
def FirstStays (before after : ConfigSpace) : Prop :=
  ∀ p, FirstRecognised before p →
    (Present after p → FirstRecognised after p) ∧
      (¬ Present after p → ∀ q, FirstRecognised after q → q ∉ listed before)

theorem FirstRecognised.present {space : ConfigSpace} {p : PciFunction}
    (h : FirstRecognised space p) : Present space p := by
  obtain ⟨kind, hkind⟩ := Option.isSome_iff_exists.mp h.2.1
  exact (kindAt_eq_some_iff.mp hkind).1.1

theorem keepsIdentity_new_iff {arch : Arch} {ecamBase : UInt64} {before after : ConfigSpace} :
    KeepsIdentity before after (ComputeDiscovery.new arch ecamBase before)
        (ComputeDiscovery.new arch ecamBase after) ↔ FirstStays before after := by
  simp only [KeepsIdentity, denotes_new]
  constructor
  · intro h p hp
    have hkeep := h 0 p
    simp only [if_pos, head?_recognised_iff] at hkeep
    refine ⟨(hkeep hp).1, fun hgone q hq => (hkeep hp).2 hgone q hq ?_⟩
    rintro rfl
    exact hgone hq.present
  · intro h deviceIndex p hp
    split at hp
    · next hindex =>
      simp only [hindex, if_pos, head?_recognised_iff] at hp ⊢
      exact ⟨(h p hp).1, fun hgone q hq _ => (h p hp).2 hgone q hq⟩
    · cases hp

/-- Identities are kept through a run exactly when no rescan finds another function in
front of the first one, and one that is gone is not followed by one listed before. -/
theorem identityKept_iff (arch : Arch) (ecamBase : UInt64) (boot : ConfigSpace)
    (rescans : List Rescan) :
    IdentityKept arch ecamBase (ComputeDiscovery.new arch ecamBase boot) boot rescans ↔
      List.IsChain FirstStays (boot :: rescans.map Rescan.space) := by
  induction rescans generalizing boot with
  | nil => exact iff_of_true trivial (.singleton _)
  | cons r rs ih =>
    rw [IdentityKept, List.map_cons, List.isChain_cons_cons, rescan_eq_new]
    exact and_congr keepsIdentity_new_iff (ih r.space)

/-- Display controllers as function 0 of the devices from `first` to 1 on bus 0. -/
def gpusFrom (first : UInt8) : ConfigSpace := fun address =>
  if address.bus = 0 ∧ first ≤ address.device ∧ address.device < 2 ∧ address.function = 0 then
    if address.offset = 0x00 then ⟨0x123410DE, 0⟩
    else if address.offset = 0x08 then ⟨0x03000000, 0⟩
    else ⟨0, 0⟩
  else ⟨0xFFFFFFFF, 0⟩

theorem firstRecognised_gpusFrom_one : FirstRecognised (gpusFrom 1) ⟨0, 1, 0⟩ := by
  refine ⟨by decide, by decide, ?_⟩
  rintro ⟨bus, device, function⟩ - hbefore
  have hdevice : ¬ (1 : UInt8) ≤ device ∨ ¬ bus = 0 := by
    simp only [PciFunction.Before, UInt8.lt_iff_toNat_lt, UInt8.le_iff_toNat_le,
      ← UInt8.toNat_inj] at hbefore ⊢
    simp only [UInt8.reduceToNat] at hbefore ⊢
    omega
  have habsent : ¬ Present (gpusFrom 1) ⟨bus, device, function⟩ := by
    rw [Present, headerAt, PciFunction.register, gpusFrom, if_neg]
    · exact not_not.mpr rfl
    · rintro ⟨hbus, hle, -, -⟩
      exact hdevice.elim (fun h => h hle) fun h => h hbus
  rw [kindAt, if_neg fun hc => habsent hc.1]

/-- A controller plugged in as device 0 takes over index 0 from the one in device 1. -/
theorem identityKept_fails_hotAdd :
    ¬ IdentityKept .x86_64 0 (ComputeDiscovery.new .x86_64 0 (gpusFrom 1)) (gpusFrom 1)
      [⟨none, gpusFrom 0⟩] := by
  rw [IdentityKept, rescan_eq_new]
  rintro ⟨hkeep, -⟩
  have hfirst := (keepsIdentity_new_iff.mp hkeep ⟨0, 1, 0⟩ firstRecognised_gpusFrom_one).1
    (by decide)
  have hnone := hfirst.2.2 ⟨0, 0, 0⟩ (by decide) (by decide)
  exact absurd hnone (by decide)

end SimurghHal.Compute
