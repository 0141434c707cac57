import SimurghHal.Lib.OnDemand
import SimurghHal.Paging.Failure
import Mathlib.Order.Interval.Finset.Nat

/-!
# The table pool

The intermediate tables are made on demand from a pool of 16. A table is identified by the
path of indices that leads to it, and the walk for an address needs one for every nonempty
prefix of its path. A call succeeds exactly when the pool has room for the tables that its
pages need and that are not there yet.
-/

namespace SimurghHal.Paging

open RadixTree OnDemand

/-- Nonempty prefixes of `is`, each behind `p`. -/
def pathsBelow : List ℕ → List ℕ → Finset (List ℕ)
  | _, [] => ∅
  | p, i :: is => {p ++ [i]} ∪ pathsBelow (p ++ [i]) is

/-- The tables below the root that the walk for an address goes through. -/
def tablePaths (F : PagingFormat) (virt : UInt64) : Finset (List ℕ) :=
  pathsBelow [] (slotOf F virt).1

/-- There is a table below the root at this path. -/
def HasTable (F : PagingFormat) {b : ℕ} (L : FrameLayout b) (s : PageTables) (q : List ℕ) : Prop :=
  q ≠ [] ∧ q.length ≤ F.tableShifts.length ∧ (descend (decode F) s.frames L.root q).isSome

instance (F : PagingFormat) {b : ℕ} (L : FrameLayout b) (s : PageTables) :
    DecidablePred (HasTable F L s) :=
  fun _ => inferInstanceAs (Decidable (_ ∧ _ ∧ _))

theorem mem_pathsBelow {q p is : List ℕ} :
    q ∈ pathsBelow p is ↔ ∃ r, r ≠ [] ∧ r <+: is ∧ q = p ++ r := by
  induction is generalizing p with
  | nil =>
    simp only [pathsBelow, Finset.notMem_empty, false_iff]
    rintro ⟨r, hr, hprefix, -⟩
    exact hr (List.prefix_nil.mp hprefix)
  | cons i is ih =>
    rw [pathsBelow, Finset.mem_union, Finset.mem_singleton, ih]
    constructor
    · rintro (rfl | ⟨r, -, hprefix, rfl⟩)
      · exact ⟨[i], by simp, by simp, rfl⟩
      · exact ⟨i :: r, by simp, by simpa using hprefix, by simp⟩
    · rintro ⟨r, hr, hprefix, rfl⟩
      obtain ⟨j, r, rfl⟩ := List.exists_cons_of_ne_nil hr
      obtain ⟨rfl, hrest⟩ := List.cons_prefix_cons.mp hprefix
      cases r with
      | nil => exact .inl rfl
      | cons k r => exact .inr ⟨k :: r, by simp, hrest, by simp⟩

/-- The walk for an address needs a table for every nonempty prefix of its path. -/
theorem mem_tablePaths {F : PagingFormat} {virt : UInt64} {q : List ℕ} :
    q ∈ tablePaths F virt ↔ q ≠ [] ∧ q <+: (slotOf F virt).1 := by
  rw [tablePaths, mem_pathsBelow]
  simp only [List.nil_append]
  constructor
  · rintro ⟨r, hr, hprefix, rfl⟩
    exact ⟨hr, hprefix⟩
  · rintro ⟨hq, hprefix⟩
    exact ⟨q, hq, hprefix, rfl⟩

section Growth

variable {F : PagingFormat} {b : ℕ} {L : FrameLayout b} {s s₁ s₂ : PageTables}

/-- Tables stay where they are. -/
def KeepsTables (F : PagingFormat) {b : ℕ} (L : FrameLayout b) (s s' : PageTables) : Prop :=
  ∀ q t, q.length ≤ F.tableShifts.length → descend (decode F) s.frames L.root q = some t →
    descend (decode F) s'.frames L.root q = some t

theorem KeepsTables.trans (h₁ : KeepsTables F L s s₁) (h₂ : KeepsTables F L s₁ s₂) :
    KeepsTables F L s s₂ :=
  fun q t hq ht => h₂ q t hq (h₁ q t hq ht)

/-- What an operation that needs the tables `A` does to the tables. -/
def Serves (F : PagingFormat) {b : ℕ} (L : FrameLayout b) (s s' : PageTables)
    (A : Finset (List ℕ)) (ok : Prop) : Prop :=
  KeepsTables F L s s' ∧
    ((ok ∧ Provides (HasTable F L) PageTables.next s s' A) ∨
      (¬ ok ∧ Fails (HasTable F L) PageTables.next tablePoolSize s s' A))

/-- What is provided first is not needed again by what comes after. -/
theorem Serves.after {A B : Finset (List ℕ)} {ok : Prop} (hkept : KeepsTables F L s s₁)
    (hprovides : Provides (HasTable F L) PageTables.next s s₁ A) (h : Serves F L s₁ s₂ B ok) :
    Serves F L s s₂ (A ∪ B) ok := by
  obtain ⟨hkept', ⟨hok, hprovides'⟩ | ⟨hfail, hfails⟩⟩ := h
  · exact ⟨hkept.trans hkept', .inl ⟨hok, hprovides.trans hprovides'⟩⟩
  · exact ⟨hkept.trans hkept', .inr ⟨hfail, hprovides.fails hfails⟩⟩

theorem Serves.refl (s : PageTables) {ok : Prop} (hok : ok) : Serves F L s s ∅ ok :=
  ⟨fun _ _ _ ht => ht, .inl ⟨hok, .refl s⟩⟩

variable {p : List ℕ} {t : UInt64} {i : ℕ}

/-- Linking the next table of the pool provides the table at that path. -/
theorem provides_link (hF : F.Lawful b) (hs : Inv F L s) (hp : p.length < F.tableShifts.length)
    (ht : descend (decode F) s.frames L.root p = some t)
    (habsent : decode F (s.frames t i) = none) (hn : s.next < tablePoolSize) :
    let s₁ : PageTables := ⟨write s.frames t i (F.tableEntry (L.pool ⟨s.next, hn⟩)), s.next + 1⟩
    KeepsTables F L s s₁ ∧ Provides (HasTable F L) PageTables.next s s₁ {p ++ [i]} := by
  intro s₁
  have hdesc : ∀ {q : List ℕ}, q.length ≤ F.tableShifts.length →
      descend (decode F) s₁.frames L.root q =
        if q = p ++ [i] then some (L.pool ⟨s.next, hn⟩) else descend (decode F) s.frames L.root q :=
    fun hq => hs.tree.descend_link decode_zero hp ht habsent ⟨_, le_refl _, rfl⟩
      (hF.decode_pool _) hq
  have hnone : descend (decode F) s.frames L.root (p ++ [i]) = none := by
    rw [descend_concat_of_some ht, habsent]
  have hlen : (p ++ [i]).length ≤ F.tableShifts.length := by
    rw [List.length_append, List.length_singleton]
    omega
  refine ⟨?_, provides_of_make ?_ ?_ rfl⟩
  · intro q u hq hu
    rw [hdesc hq, if_neg, hu]
    rintro rfl
    rw [hnone] at hu
    cases hu
  · rintro ⟨-, -, hsome⟩
    rw [hnone] at hsome
    cases hsome
  · intro q
    constructor
    · rintro ⟨hq, hqlen, hsome⟩
      rw [hdesc hqlen] at hsome
      split at hsome
      · next he => exact .inr he
      · exact .inl ⟨hq, hqlen, hsome⟩
    · rintro (⟨hq, hqlen, hsome⟩ | rfl)
      · refine ⟨hq, hqlen, ?_⟩
        rw [hdesc hqlen]
        split
        · rfl
        · exact hsome
      · refine ⟨by simp, hlen, ?_⟩
        rw [hdesc hlen, if_pos rfl]
        rfl

theorem walkTables_serves (hF : F.Lawful b) (virt : UInt64) :
    ∀ (shifts : List UInt64) (table : UInt64) (s : PageTables) (p : List ℕ), Inv F L s →
      descend (decode F) s.frames L.root p = some table →
      p.length + shifts.length = F.tableShifts.length →
      Serves F L s (walkTables F L virt shifts table s).2
        (pathsBelow p (shifts.map (tableIndex virt))) (walkTables F L virt shifts table s).1.isOk := by
  intro shifts
  induction shifts with
  | nil => exact fun table s p _ _ _ => .refl s rfl
  | cons shift shifts ih =>
    intro table s p hs hp hlen
    rw [List.length_cons] at hlen
    have hplt : p.length < F.tableShifts.length := by omega
    rw [List.map_cons, pathsBelow]
    -- the entry leads on, after the next table was linked if need be, or the pool is used up
    rcases walkTables_step hF hs hplt hp virt shift shifts with
      ⟨u, s₁, hw, hs₁, hp₁, hstep⟩ | ⟨hw, hdec, hfull⟩
    · have hrest := ih u s₁ _ hs₁ hp₁ (by simp; omega)
      have hfirst : KeepsTables F L s s₁ ∧
          Provides (HasTable F L) PageTables.next s s₁ {p ++ [tableIndex virt shift]} := by
        rcases hstep with rfl | ⟨hdec, hn, rfl⟩
        · refine ⟨fun q t _ ht => ht, provides_of_has ⟨by simp, by simp; omega, ?_⟩⟩
          rw [hp₁]
          rfl
        · exact provides_link hF hs hplt hp hdec hn
      rw [hw]
      exact .after hfirst.1 hfirst.2 hrest
    · rw [hw]
      refine ⟨fun q t _ ht => ht, .inr ⟨Bool.false_ne_true, ?_⟩⟩
      refine fails_of_full (x := p ++ [tableIndex virt shift]) ?_ (by simp) hfull.ge
      rintro ⟨-, -, hsome⟩
      rw [descend_concat_of_some hp, hdec] at hsome
      cases hsome

/-- Writing an entry of the last level leaves the tables alone. -/
theorem provides_setLeaf (hs : Inv F L s) (hp : p.length = F.tableShifts.length)
    (ht : descend (decode F) s.frames L.root p = some t) (e : UInt64) :
    KeepsTables F L s { s with frames := write s.frames t i e } ∧
      Provides (HasTable F L) PageTables.next s { s with frames := write s.frames t i e } ∅ := by
  have hdesc : ∀ {q : List ℕ}, q.length ≤ F.tableShifts.length →
      descend (decode F) (write s.frames t i e) L.root q = descend (decode F) s.frames L.root q :=
    fun hq => hs.tree.descend_setLeaf hp ht hq
  refine ⟨fun q u hq hu => (hdesc hq).trans hu, ⟨fun q => ?_, ?_⟩⟩
  · simp only [HasTable, Finset.notMem_empty, or_false]
    exact and_congr_right fun _ => and_congr_right fun hq => by rw [hdesc hq]
  · simp [missing]

theorem mapPage_serves (hF : F.Lawful b) (hs : Inv F L s) (virt phys flags : UInt64) :
    Serves F L s (mapPage F L virt phys flags s).2 (tablePaths F virt)
      (mapPage F L virt phys flags s).1.isOk := by
  have hserves := walkTables_serves hF virt F.tableShifts L.root s [] hs rfl (by simp)
  obtain ⟨r, s₁, hw, hinv, -, -, hres⟩ :=
    walkTables_spec hF virt F.tableShifts L.root s [] hs rfl (by simp)
  rw [hw] at hserves
  rw [mapPage, hw]
  rcases hres with ⟨u, rfl, hu⟩ | ⟨rfl, -⟩
  · -- the leaf is written into a table that is there by now
    rw [List.nil_append] at hu
    have hleaf := provides_setLeaf (i := tableIndex virt 12) hinv (by simp) hu
      (F.leafEntry phys flags)
    rcases hserves with ⟨hkept, ⟨-, hprovides⟩ | ⟨hfail, -⟩⟩
    · refine ⟨hkept.trans hleaf.1, .inl ⟨rfl, ?_⟩⟩
      have htrans := hprovides.trans hleaf.2
      rwa [Finset.union_empty] at htrans
    · exact absurd rfl hfail
  · exact hserves

/-- The tables needed for `n` pages from `addr` on. -/
def pagePaths (F : PagingFormat) (addr : UInt64) (n : ℕ) : Finset (List ℕ) :=
  (Finset.range n).biUnion fun i => tablePaths F (pageAt addr i)

theorem mem_pagePaths {addr : UInt64} {n : ℕ} {q : List ℕ} :
    q ∈ pagePaths F addr n ↔ ∃ i < n, q ∈ tablePaths F (pageAt addr i) := by
  simp only [pagePaths, Finset.mem_biUnion, Finset.mem_range]

theorem pagePaths_succ (addr : UInt64) (n : ℕ) :
    pagePaths F addr (n + 1) = tablePaths F addr ∪ pagePaths F (addr + pageSize) n := by
  ext q
  rw [Finset.mem_union, mem_pagePaths, mem_pagePaths]
  constructor
  · rintro ⟨i, hi, hq⟩
    cases i with
    | zero =>
      rw [pageAt_zero] at hq
      exact .inl hq
    | succ i =>
      rw [← pageAt_succ] at hq
      exact .inr ⟨i, Nat.lt_of_succ_lt_succ hi, hq⟩
  · rintro (hq | ⟨i, hi, hq⟩)
    · exact ⟨0, Nat.succ_pos n, by rwa [pageAt_zero]⟩
    · exact ⟨i + 1, Nat.succ_lt_succ hi, by rwa [← pageAt_succ]⟩

theorem pagePaths_mono (addr : UInt64) {m n : ℕ} (h : m ≤ n) :
    pagePaths F addr m ⊆ pagePaths F addr n := by
  intro q hq
  obtain ⟨i, hi, hq⟩ := mem_pagePaths.mp hq
  exact mem_pagePaths.mpr ⟨i, hi.trans_le h, hq⟩

theorem mapLoop_serves (hF : F.Lawful b) {stop : UInt64} (flags : UInt64)
    (hstop : stop.toNat % 4096 = 0) :
    ∀ (fuel : ℕ) (addr : UInt64) (s : PageTables), addr.toNat % 4096 = 0 →
      (stop.toNat - addr.toNat) / 4096 < fuel → Inv F L s →
      Serves F L s (mapLoop F L stop flags fuel addr s).2
        (pagePaths F addr ((stop.toNat - addr.toNat) / 4096))
        (mapLoop F L stop flags fuel addr s).1.isOk := by
  intro fuel
  induction fuel with
  | zero =>
    intro addr s _ hfuel
    exact absurd hfuel (Nat.not_lt_zero _)
  | succ fuel ih =>
    intro addr s haddr hfuel hs
    by_cases hlt : addr < stop
    · have hnext := toNat_add_pageSize hlt haddr hstop
      have hltNat := UInt64.lt_iff_toNat_lt.mp hlt
      have hcount : (stop.toNat - addr.toNat) / 4096 =
          (stop.toNat - (addr + pageSize).toNat) / 4096 + 1 := by
        omega
      obtain ⟨r, s₁, hpage, hinv, -, hres⟩ := mapPage_spec hF hs addr addr flags
      have hserves := mapPage_serves hF hs addr addr flags
      rw [hpage] at hserves
      rw [mapLoop, if_pos hlt, hpage, hcount, pagePaths_succ]
      rcases hres with ⟨rfl, -⟩ | ⟨rfl, -⟩
      · have hrest := ih (addr + pageSize) s₁ (by omega) (by omega) hinv
        rcases hserves with ⟨hkept, ⟨-, hprovides⟩ | ⟨hfail, -⟩⟩
        · exact .after hkept hprovides hrest
        · exact absurd rfl hfail
      · rcases hserves with ⟨hkept, ⟨hok, -⟩ | ⟨hfail, hfails⟩⟩
        · cases hok
        · exact ⟨hkept, .inr ⟨hfail, hfails.mono Finset.subset_union_left⟩⟩
    · have hcount : (stop.toNat - addr.toNat) / 4096 = 0 := by
        rw [UInt64.lt_iff_toNat_lt] at hlt
        omega
      rw [mapLoop, if_neg hlt, hcount]
      exact .refl s rfl

theorem setupIdentityMapping_serves (hF : F.Lawful b) (hs : Inv F L s) {region : MemoryRegion}
    (hlen : region.lengthBytes ≠ 0) (perms : MapPermissions) :
    Serves F L s (setupIdentityMapping F L region perms s).2
      (pagePaths F (startAddr region) (pageCount region))
      (setupIdentityMapping F L region perms s).1.isOk := by
  have hserves := mapLoop_serves (L := L) hF (F.permissionsToFlags perms)
    (show (endAddr region).toNat % 4096 = 0 from alignUp_mod _) (pageCount region + 1)
    (startAddr region) s (startAddr_mod region) (Nat.lt_succ_self _) hs
  rw [setupIdentityMapping_of_length_ne_zero hlen]
  rcases hloop : mapLoop F L (endAddr region) (F.permissionsToFlags perms) (pageCount region + 1)
    (startAddr region) s with ⟨_ | _, s'⟩
  · rw [hloop] at hserves
    exact hserves
  · rw [hloop] at hserves
    exact hserves

end Growth

/-! ### Whole runs -/

/-- The tables that the pages of a region need, from the page of its first byte to the page of
its last. -/
def neededTables (arch : Arch) (region : MemoryRegion) : Finset (List ℕ) :=
  (Finset.Ico (region.baseAddr.toNat / 4096) (roundedEnd region / 4096)).biUnion fun n =>
    tablePaths (format arch) (UInt64.ofNat (4096 * n))

/-- How many of these are not there yet. -/
def missingTables (arch : Arch) (L : FrameLayout (physBits arch)) (s : PageTables)
    (region : MemoryRegion) : ℕ :=
  missing (HasTable (format arch) L) s (neededTables arch region)

/-- The tables handed out so far are the first of the pool, and each of them is linked at
exactly one place. -/
def PoolUsedOnce (F : PagingFormat) {b : ℕ} (L : FrameLayout b) (s : PageTables) : Prop :=
  s.next ≤ tablePoolSize ∧ ∀ k : Fin tablePoolSize,
    (k < s.next → ∃! q, q.length ≤ F.tableShifts.length ∧
      descend (decode F) s.frames L.root q = some (L.pool k)) ∧
    (s.next ≤ k → ∀ q, q.length ≤ F.tableShifts.length →
      descend (decode F) s.frames L.root q ≠ some (L.pool k))

section Runs

variable {arch : Arch} {L : FrameLayout (physBits arch)} {s : PageTables}

theorem pageAt_eq_ofNat (region : MemoryRegion) (i : ℕ) :
    pageAt (startAddr region) i = UInt64.ofNat (4096 * (region.baseAddr.toNat / 4096 + i)) := by
  have hstart : startAddr region = UInt64.ofNat (4096 * (region.baseAddr.toNat / 4096)) := by
    rw [← UInt64.ofNat_toNat (x := startAddr region), toNat_startAddr, Nat.mul_comm]
  rw [pageAt, hstart, ← UInt64.ofNat_add, Nat.mul_add]

/-- In the lower half the range the code computes is the exact one. -/
theorem neededTables_eq {region : MemoryRegion} (h : roundedEnd region ≤ 2 ^ lowerBits arch) :
    neededTables arch region = pagePaths (format arch) (startAddr region) (pageCount region) := by
  have hcount : pageCount region = roundedEnd region / 4096 - region.baseAddr.toNat / 4096 := by
    rw [pageCount, toNat_endAddr h, toNat_startAddr]
    unfold roundedEnd
    omega
  ext q
  simp only [neededTables, mem_pagePaths, Finset.mem_biUnion, Finset.mem_Ico, pageAt_eq_ofNat,
    hcount]
  constructor
  · rintro ⟨n, hn, hq⟩
    refine ⟨n - region.baseAddr.toNat / 4096, by omega, ?_⟩
    rwa [Nat.add_sub_cancel' hn.1]
  · rintro ⟨i, hi, hq⟩
    exact ⟨_, by omega, hq⟩

theorem not_hasTable_empty (F : PagingFormat) {b : ℕ} (L : FrameLayout b) (q : List ℕ) :
    ¬ HasTable F L .empty q := by
  rintro ⟨hq, -, hsome⟩
  obtain ⟨i, q, rfl⟩ := List.exists_cons_of_ne_nil hq
  simp [descend, PageTables.empty, decode_zero] at hsome

/-- A call provides some tables, whether it succeeds or not. -/
theorem exists_provides_mapRegion (hs : Inv (format arch) L s) (c : MapCall) :
    ∃ A, Provides (HasTable (format arch) L) PageTables.next s (mapRegion arch L s c).2 A := by
  by_cases hlen : c.region.lengthBytes = 0
  · refine ⟨∅, ?_⟩
    rw [mapRegion, setupIdentityMapping, if_pos hlen]
    exact .refl s
  · rcases (setupIdentityMapping_serves (format_lawful arch) hs hlen c.perms).2 with
      ⟨-, hprovides⟩ | ⟨-, hfails⟩
    · exact ⟨_, hprovides⟩
    · obtain ⟨A, -, hprovides⟩ := hfails.partly
      exact ⟨A, hprovides⟩

theorem exists_provides_mapRegions (calls : List MapCall) :
    ∃ A, Provides (HasTable (format arch) L) PageTables.next .empty
      (mapRegions arch L .empty calls) A := by
  induction calls using List.reverseRecOn with
  | nil => exact ⟨∅, .refl _⟩
  | append_singleton calls c ih =>
    obtain ⟨A, hA⟩ := ih
    obtain ⟨B, hB⟩ := exists_provides_mapRegion (inv_mapRegions calls _ inv_empty) c
    rw [mapRegions_concat]
    exact ⟨A ∪ B, hA.trans hB⟩

/-- As many tables are reached as were handed out, so each one handed out is reached. -/
theorem poolUsedOnce_of_provides (hs : Inv (format arch) L s) {A : Finset (List ℕ)}
    (hA : Provides (HasTable (format arch) L) PageTables.next .empty s A) :
    PoolUsedOnce (format arch) L s := by
  have hmem : ∀ q ∈ A, HasTable (format arch) L s q := fun q hq => (hA.has_iff q).mpr (.inr hq)
  have hcard : s.next = A.card := by
    rw [hA.used_eq, missing, Finset.filter_true_of_mem fun q _ => not_hasTable_empty _ L q]
    exact Nat.zero_add _
  have hindex : ∀ q ∈ A, ∃ k : Fin tablePoolSize, k < s.next ∧
      descend (decode (format arch)) s.frames L.root q = some (L.pool k) := by
    intro q hq
    obtain ⟨hne, hlen, hsome⟩ := hmem q hq
    obtain ⟨t, ht⟩ := Option.isSome_iff_exists.mp hsome
    obtain ⟨k, hk, rfl⟩ := hs.reached hne hlen ht
    exact ⟨k, hk, ht⟩
  -- `index` is injective, and there are as many paths in `A` as tables handed out
  choose index hlt hdesc using hindex
  have hsurj := Finset.surj_on_of_inj_on_of_card_le (s := A) (t := Finset.range s.next)
    (fun q hq => (index q hq).val) (fun q hq => Finset.mem_range.mpr (hlt q hq)) ?_
    (by rw [Finset.card_range, hcard])
  · refine ⟨hs.next_le, fun k => ⟨fun hk => ?_, fun hk q hq hreach => ?_⟩⟩
    · obtain ⟨q, hq, hkq⟩ := hsurj k (Finset.mem_range.mpr hk)
      have hpool : descend (decode (format arch)) s.frames L.root q = some (L.pool k) := by
        rw [hdesc q hq, show k = index q hq from Fin.ext hkq]
      exact ⟨q, ⟨(hmem q hq).2.1, hpool⟩, fun r hr => hs.tree.inj hr.1 (hmem q hq).2.1 hr.2 hpool⟩
    · exact hs.tree.unreached ⟨k, hk, rfl⟩ hq hreach
  · intro q r hq hr hqr
    have hpool := hdesc r hr
    rw [← show index q hq = index r hr from Fin.ext hqr] at hpool
    exact hs.tree.inj (hmem q hq).2.1 (hmem r hr).2.1 (hdesc q hq) hpool

/-- In every state the boot code can reach, pool tables are in use once. -/
theorem poolUsedOnce_mapRegions (calls : List MapCall) :
    PoolUsedOnce (format arch) L (mapRegions arch L .empty calls) := by
  obtain ⟨A, hA⟩ := exists_provides_mapRegions (L := L) calls
  exact poolUsedOnce_of_provides (inv_mapRegions calls _ inv_empty) hA

theorem keepsTables_mapRegion (hs : Inv (format arch) L s) {c : MapCall}
    (hlen : c.region.lengthBytes ≠ 0) : KeepsTables (format arch) L s (mapRegion arch L s c).2 :=
  (setupIdentityMapping_serves (format_lawful arch) hs hlen c.perms).1

/-- A call with pages succeeds exactly when the pool has room for the tables they lack. -/
theorem isOk_mapRegion_iff (hs : Inv (format arch) L s) {c : MapCall}
    (hlen : c.region.lengthBytes ≠ 0) :
    let k := missing (HasTable (format arch) L) s
      (pagePaths (format arch) (startAddr c.region) (pageCount c.region))
    ((mapRegion arch L s c).1.isOk = true ↔ s.next + k ≤ tablePoolSize) ∧
      ((mapRegion arch L s c).1.isOk = true → (mapRegion arch L s c).2.next = s.next + k) := by
  intro k
  have hinv := inv_mapRegion hs c
  rcases (setupIdentityMapping_serves (format_lawful arch) hs hlen c.perms).2 with
    ⟨hok, hprovides⟩ | ⟨hfail, hfails⟩
  · have hnext : (mapRegion arch L s c).2.next = s.next + k := hprovides.used_eq
    exact ⟨iff_of_true hok (hnext ▸ hinv.next_le), fun _ => hnext⟩
  · exact ⟨iff_of_false hfail (not_le.mpr hfails.short), fun hok => absurd hok hfail⟩

end Runs

/-- The pool is used exactly: in every state the boot code can reach, a call for a region in the
lower half succeeds if and only if the pool has room for the tables its pages need and do not
have yet, and then takes that many. No pool table is in two places, none beyond the counter is
in use, and tables stay where they are. -/
theorem mapRegion_capacity (arch : Arch) (L : FrameLayout (physBits arch)) (calls : List MapCall)
    (region : MemoryRegion) (perms : MapPermissions) (hlen : region.lengthBytes ≠ 0)
    (hrange : roundedEnd region ≤ 2 ^ lowerBits arch) :
    let s := mapRegions arch L .empty calls
    let k := missingTables arch L s region
    let result := mapRegion arch L s ⟨region, perms⟩
    (result.1.isOk = true ↔ k ≤ tablePoolSize - s.next) ∧
      (result.1.isOk = true → result.2.next = s.next + k) ∧
      PoolUsedOnce (format arch) L s ∧ PoolUsedOnce (format arch) L result.2 ∧
      KeepsTables (format arch) L s result.2 := by
  intro s k result
  have hs : Inv (format arch) L s := inv_mapRegions calls _ inv_empty
  obtain ⟨hiff, hnext⟩ := isOk_mapRegion_iff hs (c := ⟨region, perms⟩) hlen
  rw [← neededTables_eq hrange] at hiff hnext
  refine ⟨?_, hnext, poolUsedOnce_mapRegions calls, ?_, keepsTables_mapRegion hs hlen⟩
  · rw [hiff]
    have hle := hs.next_le
    show s.next + k ≤ tablePoolSize ↔ k ≤ tablePoolSize - s.next
    omega
  · have hafter := poolUsedOnce_mapRegions (L := L) (calls ++ [⟨region, perms⟩])
    rwa [mapRegions_concat] at hafter

/-- One table is left and three are missing. -/
theorem mapRegion_capacity_straddling :
    let L := sampleLayout .x86_64
    let s := mapRegions .x86_64 L .empty scatteredCalls
    s.next = 15 ∧ missingTables .x86_64 L s straddlingCall.region = 3 ∧
      ¬ (mapRegion .x86_64 L s straddlingCall).1.isOk = true := by
  intro L s
  have hnext : s.next = 15 := by decide +kernel
  have hmissing : missingTables .x86_64 L s straddlingCall.region = 3 := by decide +kernel
  have hcapacity := mapRegion_capacity .x86_64 L scatteredCalls straddlingCall.region
    straddlingCall.perms (by decide) (by decide)
  refine ⟨hnext, hmissing, ?_⟩
  rw [show straddlingCall = ⟨straddlingCall.region, straddlingCall.perms⟩ from rfl, hcapacity.1,
    hmissing, hnext]
  decide

end SimurghHal.Paging
