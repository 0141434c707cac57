import SimurghHal.Paging.Tables

/-!
# The tree invariant of the boot page tables

`Inv` says that the tables reached from the root form a tree of the pool tables
handed out so far. Every operation keeps it, and what an operation does to the
entries of the last level (`leafAt`) is the whole of its effect on translations:
`mapPage` writes one of them or none, `mapLoop` those of a prefix of its pages.
-/

namespace SimurghHal.Paging

open RadixTree

/-- The table an entry leads to, as `map_page` reads it. -/
def decode (F : PagingFormat) (entry : UInt64) : Option UInt64 :=
  if entry &&& F.present = 0 then none else some (F.tablePtr entry)

/-- Entries for tables of at most `b` address bits can be read back. -/
structure PagingFormat.Lawful (F : PagingFormat) (b : ℕ) : Prop where
  decode_tableEntry : ∀ n : UInt64, n.toNat % 4096 = 0 → n.toNat < 2 ^ b →
    decode F (F.tableEntry n) = some n

/-- Pool tables from number `k` on. -/
def poolFrom {b : ℕ} (L : FrameLayout b) (k : ℕ) : Set UInt64 :=
  { n | ∃ i : Fin tablePoolSize, k ≤ i ∧ L.pool i = n }

/-- The entry of the last level at index `j` below path `q`, 0 where no table is. -/
def leafAt (F : PagingFormat) {b : ℕ} (L : FrameLayout b) (s : PageTables)
    (q : List ℕ) (j : ℕ) : UInt64 :=
  (lookup (decode F) s.frames L.root q j).getD 0

/-- The path of table indices and the last index for a virtual address. -/
def slotOf (F : PagingFormat) (virt : UInt64) : List ℕ × ℕ :=
  (F.tableShifts.map (tableIndex virt), tableIndex virt 12)

structure Inv (F : PagingFormat) {b : ℕ} (L : FrameLayout b) (s : PageTables) : Prop where
  next_le : s.next ≤ tablePoolSize
  tree : IsTree (decode F) F.tableEntry 0 s.frames L.root F.tableShifts.length
    (poolFrom L s.next)
  /-- Below the root there are only tables handed out by `alloc_table`. -/
  reached : ∀ ⦃p t⦄, p ≠ [] → p.length ≤ F.tableShifts.length →
    descend (decode F) s.frames L.root p = some t →
    ∃ k : Fin tablePoolSize, k < s.next ∧ L.pool k = t

section Steps

variable {F : PagingFormat} {b : ℕ} {L : FrameLayout b} {s : PageTables}

theorem decode_zero : decode F 0 = none := by
  simp [decode]

theorem decode_eq_none_iff {e : UInt64} : decode F e = none ↔ e &&& F.present = 0 := by
  rw [decode]
  split
  · next h => exact iff_of_true rfl h
  · next h => exact iff_of_false (fun he => nomatch he) h

theorem tablePtr_of_decode {e t : UInt64} (h : decode F e = some t) : F.tablePtr e = t := by
  rw [decode] at h
  split at h
  · cases h
  · exact Option.some.inj h

theorem PagingFormat.Lawful.decode_pool (hF : F.Lawful b) (k : Fin tablePoolSize) :
    decode F (F.tableEntry (L.pool k)) = some (L.pool k) :=
  hF.decode_tableEntry _ (L.pool_aligned k) (L.pool_lt k)

theorem inv_empty : Inv F L .empty := by
  refine ⟨Nat.zero_le _, ?_, ?_⟩
  · refine IsTree.of_empty decode_zero (fun _ => rfl) ?_
    rintro n ⟨k, -, rfl⟩
    exact ⟨L.pool_ne_root k, fun _ => rfl⟩
  · intro p t hp _ ht
    cases p with
    | nil => exact absurd rfl hp
    | cons i p => simp [descend, PageTables.empty, decode_zero] at ht

theorem leafAt_empty (q : List ℕ) (j : ℕ) : leafAt F L .empty q j = 0 := by
  simp only [leafAt, lookup, PageTables.empty]
  cases descend (decode F) (fun _ _ => 0) L.root q with
  | none => rfl
  | some t => rfl

/-- The pool without its next table is the pool from the following one on. -/
theorem poolFrom_succ (h : s.next < tablePoolSize) :
    poolFrom L s.next \ {L.pool ⟨s.next, h⟩} = poolFrom L (s.next + 1) := by
  ext n
  constructor
  · -- a pool table other than the next one has a larger number
    rintro ⟨⟨k, hk, rfl⟩, hne⟩
    refine ⟨k, ?_, rfl⟩
    have : s.next ≠ k := by
      intro he
      exact hne (congrArg L.pool (Fin.ext he.symm))
    omega
  · rintro ⟨k, hk, rfl⟩
    refine ⟨⟨k, by omega, rfl⟩, ?_⟩
    intro he
    have := congrArg Fin.val (L.pool_injective he)
    simp only at this
    omega

variable {p : List ℕ} {t : UInt64} {i : ℕ}

/-- Linking the next pool table below a reached table keeps the invariant. -/
theorem inv_link (hF : F.Lawful b) (hs : Inv F L s) (hp : p.length < F.tableShifts.length)
    (ht : descend (decode F) s.frames L.root p = some t)
    (habsent : decode F (s.frames t i) = none) (hn : s.next < tablePoolSize) :
    Inv F L ⟨write s.frames t i (F.tableEntry (L.pool ⟨s.next, hn⟩)), s.next + 1⟩ := by
  have hfresh : L.pool ⟨s.next, hn⟩ ∈ poolFrom L s.next := ⟨_, le_refl _, rfl⟩
  have hlink := hF.decode_pool (L := L) ⟨s.next, hn⟩
  refine ⟨hn, ?_, ?_⟩
  · have htree := hs.tree.link_fresh decode_zero hp ht habsent hfresh hlink
    rwa [poolFrom_succ hn] at htree
  · intro q u hq hlen hu
    rw [hs.tree.descend_link decode_zero hp ht habsent hfresh hlink hlen] at hu
    split at hu
    · exact ⟨⟨s.next, hn⟩, Nat.lt_succ_self _, Option.some.inj hu⟩
    · obtain ⟨k, hk, hku⟩ := hs.reached hq hlen hu
      exact ⟨k, Nat.lt_succ_of_lt hk, hku⟩

/-- Linking a pool table changes no entry of the last level. -/
theorem leafAt_link (hF : F.Lawful b) (hs : Inv F L s) (hp : p.length < F.tableShifts.length)
    (ht : descend (decode F) s.frames L.root p = some t)
    (habsent : decode F (s.frames t i) = none) (hn : s.next < tablePoolSize)
    {q : List ℕ} (hq : q.length = F.tableShifts.length) (j : ℕ) :
    leafAt F L ⟨write s.frames t i (F.tableEntry (L.pool ⟨s.next, hn⟩)), s.next + 1⟩ q j =
      leafAt F L s q j := by
  have hfresh : L.pool ⟨s.next, hn⟩ ∈ poolFrom L s.next := ⟨_, le_refl _, rfl⟩
  have hlink := hF.decode_pool (L := L) ⟨s.next, hn⟩
  rw [leafAt, leafAt, hs.tree.lookup_link decode_zero hp ht habsent hfresh hlink hq]
  split
  · next hqp =>
    -- the new table is empty, and there was none at this path before
    subst hqp
    have hnone : descend (decode F) s.frames L.root (p ++ [i]) = none := by
      rw [descend_concat_of_some ht, habsent]
    simp [lookup, hnone]
  · rfl

/-- One level of the walk: the table below is there, or the next one of the pool is linked,
or there is none left. -/
theorem walkTables_step (hF : F.Lawful b) (hs : Inv F L s) (hp : p.length < F.tableShifts.length)
    (ht : descend (decode F) s.frames L.root p = some t) (virt shift : UInt64)
    (shifts : List UInt64) :
    (∃ u s₁, walkTables F L virt (shift :: shifts) t s = walkTables F L virt shifts u s₁ ∧
      Inv F L s₁ ∧
      descend (decode F) s₁.frames L.root (p ++ [tableIndex virt shift]) = some u ∧
      (s₁ = s ∨ decode F (s.frames t (tableIndex virt shift)) = none ∧
        ∃ hn : s.next < tablePoolSize, s₁ = ⟨write s.frames t (tableIndex virt shift)
          (F.tableEntry (L.pool ⟨s.next, hn⟩)), s.next + 1⟩)) ∨
    (walkTables F L virt (shift :: shifts) t s = (.error .invalidMemoryRegion, s) ∧
      decode F (s.frames t (tableIndex virt shift)) = none ∧ s.next = tablePoolSize) := by
  by_cases habsent : s.frames t (tableIndex virt shift) &&& F.present = 0
  · have hdec := decode_eq_none_iff.mpr habsent
    by_cases hn : s.next < tablePoolSize
    · -- a new table is linked; the walk goes on below it
      have hptr : F.tablePtr (F.tableEntry (L.pool ⟨s.next, hn⟩)) = L.pool ⟨s.next, hn⟩ :=
        tablePtr_of_decode (hF.decode_pool ⟨s.next, hn⟩)
      refine .inl ⟨L.pool ⟨s.next, hn⟩, _, ?_, inv_link hF hs hp ht hdec hn, ?_,
        .inr ⟨hdec, hn, rfl⟩⟩
      · simp only [walkTables, habsent, if_pos, allocTable, hn, dif_pos, write_self, hptr]
      · rw [hs.tree.descend_link decode_zero hp ht hdec ⟨_, le_refl _, rfl⟩
          (hF.decode_pool _) (by simp; omega), if_pos rfl]
    · refine .inr ⟨?_, hdec, le_antisymm hs.next_le (not_lt.mp hn)⟩
      simp [walkTables, habsent, allocTable, hn]
  · refine .inl ⟨F.tablePtr (s.frames t (tableIndex virt shift)), s, ?_, hs, ?_, .inl rfl⟩
    · simp only [walkTables, habsent, if_neg, not_false_eq_true]
    · rw [descend_concat_of_some ht, decode, if_neg habsent]

/-- What the walk to the last level leaves behind: the invariant, all translations
as they were, and either the table for the address or an exhausted pool. -/
theorem walkTables_spec (hF : F.Lawful b) (virt : UInt64) :
    ∀ (shifts : List UInt64) (table : UInt64) (s : PageTables) (p : List ℕ), Inv F L s →
      descend (decode F) s.frames L.root p = some table →
      p.length + shifts.length = F.tableShifts.length →
      ∃ r s', walkTables F L virt shifts table s = (r, s') ∧ Inv F L s' ∧ s.next ≤ s'.next ∧
        (∀ q j, q.length = F.tableShifts.length → leafAt F L s' q j = leafAt F L s q j) ∧
        ((∃ u, r = .ok u ∧ descend (decode F) s'.frames L.root
            (p ++ shifts.map (tableIndex virt)) = some u) ∨
          (r = .error .invalidMemoryRegion ∧ s'.next = tablePoolSize)) := by
  -- induction on the levels still to go; `p` is the path behind them
  intro shifts
  induction shifts with
  | nil =>
    intro table s p hs hp _
    exact ⟨_, _, rfl, hs, le_refl _, fun _ _ _ => rfl, .inl ⟨table, rfl, by simpa using hp⟩⟩
  | cons shift shifts ih =>
    intro table s p hs hp hlen
    rw [List.length_cons] at hlen
    have hplt : p.length < F.tableShifts.length := by omega
    have happend : p ++ (shift :: shifts).map (tableIndex virt) =
        (p ++ [tableIndex virt shift]) ++ shifts.map (tableIndex virt) := by
      simp
    rcases walkTables_step hF hs hplt hp virt shift shifts with
      ⟨u, s₁, hw, hs₁, hp₁, hstep⟩ | ⟨hw, -, hfull⟩
    · obtain ⟨r, s', hw', hinv, hnext, hleaf, hres⟩ := ih u s₁ _ hs₁ hp₁ (by simp; omega)
      rw [happend]
      rcases hstep with rfl | ⟨hdec, hn, rfl⟩
      · exact ⟨r, s', hw.trans hw', hinv, hnext, hleaf, hres⟩
      · refine ⟨r, s', hw.trans hw', hinv, (Nat.le_succ _).trans hnext, ?_, hres⟩
        intro q j hq
        rw [hleaf q j hq, leafAt_link hF hs hplt hp hdec hn hq]
    · -- no table left: levels linked before stay linked, but lead nowhere new
      exact ⟨_, s, hw, hs, le_refl _, fun _ _ _ => rfl, .inr ⟨rfl, hfull⟩⟩

/-- `map_page` writes the entry of its page, or fails on an exhausted pool and
writes none. -/
theorem mapPage_spec (hF : F.Lawful b) (hs : Inv F L s) (virt phys flags : UInt64) :
    ∃ r s', mapPage F L virt phys flags s = (r, s') ∧ Inv F L s' ∧ s.next ≤ s'.next ∧
      ((r = .ok () ∧ ∀ q j, q.length = F.tableShifts.length → leafAt F L s' q j =
          if (q, j) = slotOf F virt then F.leafEntry phys flags else leafAt F L s q j) ∨
        (r = .error .invalidMemoryRegion ∧ s'.next = tablePoolSize ∧
          ∀ q j, q.length = F.tableShifts.length → leafAt F L s' q j = leafAt F L s q j)) := by
  obtain ⟨r, s₁, hw, hinv, hnext, hleaf, hres⟩ :=
    walkTables_spec hF virt F.tableShifts L.root s [] hs rfl (by simp)
  rcases hres with ⟨u, rfl, hu⟩ | ⟨rfl, hfull⟩
  · have hlen : (F.tableShifts.map (tableIndex virt)).length = F.tableShifts.length := by simp
    rw [List.nil_append] at hu
    refine ⟨.ok (), { s₁ with
        frames := write s₁.frames u (tableIndex virt 12) (F.leafEntry phys flags) },
      by rw [mapPage, hw], ⟨hinv.next_le, hinv.tree.setLeaf hlen hu, ?_⟩, hnext, .inl ⟨rfl, ?_⟩⟩
    · intro q t hq hqlen ht
      rw [hinv.tree.descend_setLeaf hlen hu hqlen] at ht
      exact hinv.reached hq hqlen ht
    · intro q j hq
      rw [← hleaf q j hq]
      simp only [leafAt, slotOf, Prod.mk.injEq, hinv.tree.lookup_setLeaf hlen hu hq]
      split
      · rfl
      · rfl
  · refine ⟨.error .invalidMemoryRegion, s₁, by rw [mapPage, hw], hinv, hnext,
      .inr ⟨rfl, hfull, hleaf⟩⟩

/-- Page number `i` counted from the page at `addr`. -/
def pageAt (addr : UInt64) (i : ℕ) : UInt64 := addr + UInt64.ofNat (4096 * i)

theorem pageAt_zero (addr : UInt64) : pageAt addr 0 = addr := by
  simp [pageAt]

theorem pageAt_succ (addr : UInt64) (i : ℕ) : pageAt (addr + pageSize) i = pageAt addr (i + 1) := by
  have hstep : UInt64.ofNat (4096 * (i + 1)) = pageSize + UInt64.ofNat (4096 * i) := by
    rw [show 4096 * (i + 1) = 4096 + 4096 * i by ring, UInt64.ofNat_add]
    rfl
  rw [pageAt, pageAt, hstep, UInt64.add_assoc]

theorem toNat_pageAt {addr : UInt64} {i : ℕ} (h : addr.toNat + 4096 * i < 2 ^ 64) :
    (pageAt addr i).toNat = addr.toNat + 4096 * i := by
  rw [pageAt, UInt64.toNat_add, UInt64.toNat_ofNat_of_lt' (by change 4096 * i < 2 ^ 64; omega)]
  exact Nat.mod_eq_of_lt h

/-- From `s` to `s'` exactly the entries of the first `k` pages from `addr` on were
written, each with the identity mapping of one of these pages. -/
def PrefixMapped (F : PagingFormat) {b : ℕ} (L : FrameLayout b) (s s' : PageTables)
    (flags addr : UInt64) (k : ℕ) : Prop :=
  ∀ q j, q.length = F.tableShifts.length →
    (∃ i < k, slotOf F (pageAt addr i) = (q, j) ∧
      leafAt F L s' q j = F.leafEntry (pageAt addr i) flags) ∨
    ((∀ i < k, slotOf F (pageAt addr i) ≠ (q, j)) ∧ leafAt F L s' q j = leafAt F L s q j)

theorem PrefixMapped.zero {s' : PageTables} {flags addr : UInt64}
    (h : ∀ q j, q.length = F.tableShifts.length → leafAt F L s' q j = leafAt F L s q j) :
    PrefixMapped F L s s' flags addr 0 :=
  fun q j hq => .inr ⟨fun _ hi => absurd hi (Nat.not_lt_zero _), h q j hq⟩

theorem PrefixMapped.cons {s₁ s' : PageTables} {flags addr : UInt64} {k : ℕ}
    (hpage : ∀ q j, q.length = F.tableShifts.length → leafAt F L s₁ q j =
      if (q, j) = slotOf F addr then F.leafEntry addr flags else leafAt F L s q j)
    (hrest : PrefixMapped F L s₁ s' flags (addr + pageSize) k) :
    PrefixMapped F L s s' flags addr (k + 1) := by
  intro q j hq
  rcases hrest q j hq with ⟨i, hi, hslot, hleaf⟩ | ⟨hnone, hleaf⟩
  · rw [pageAt_succ] at hslot hleaf
    exact .inl ⟨i + 1, Nat.succ_lt_succ hi, hslot, hleaf⟩
  · rw [hpage q j hq] at hleaf
    by_cases hslot : (q, j) = slotOf F addr
    · rw [if_pos hslot] at hleaf
      refine .inl ⟨0, Nat.succ_pos _, ?_, ?_⟩
      · rw [pageAt_zero, hslot]
      · rw [pageAt_zero, hleaf]
    · rw [if_neg hslot] at hleaf
      refine .inr ⟨?_, hleaf⟩
      intro i hi
      cases i with
      | zero =>
        rw [pageAt_zero]
        exact fun he => hslot he.symm
      | succ i =>
        rw [← pageAt_succ]
        exact hnone i (Nat.lt_of_succ_lt_succ hi)

/-- The next page of an aligned range. -/
theorem toNat_add_pageSize {addr stop : UInt64} (hlt : addr < stop) (haddr : addr.toNat % 4096 = 0)
    (hstop : stop.toNat % 4096 = 0) : (addr + pageSize).toNat = addr.toNat + 4096 := by
  have hltNat := UInt64.lt_iff_toNat_lt.mp hlt
  have hstopLt := stop.toNat_lt
  rw [UInt64.toNat_add]
  exact Nat.mod_eq_of_lt (by simp only [pageSize, UInt64.reduceToNat]; omega)

/-- The loop maps all its pages, or stops at the first page that finds the pool
exhausted. -/
theorem mapLoop_pages (hF : F.Lawful b) {stop : UInt64} (flags : UInt64)
    (hstop : stop.toNat % 4096 = 0) :
    ∀ (fuel : ℕ) (addr : UInt64) (s : PageTables), addr.toNat % 4096 = 0 →
      (stop.toNat - addr.toNat) / 4096 < fuel → Inv F L s →
      ∃ r s' k, mapLoop F L stop flags fuel addr s = (r, s') ∧ Inv F L s' ∧ s.next ≤ s'.next ∧
        PrefixMapped F L s s' flags addr k ∧
        ((r = .ok () ∧ k = (stop.toNat - addr.toNat) / 4096) ∨
          (r = .error .invalidMemoryRegion ∧ k < (stop.toNat - addr.toNat) / 4096 ∧
            s'.next = tablePoolSize)) := by
  -- there is always more fuel than pages, so the loop ends by its own condition
  intro fuel
  induction fuel with
  | zero =>
    intro addr s _ hfuel
    exact absurd hfuel (Nat.not_lt_zero _)
  | succ fuel ih =>
    intro addr s haddr hfuel hs
    by_cases hlt : addr < stop
    · have hltNat : addr.toNat < stop.toNat := UInt64.lt_iff_toNat_lt.mp hlt
      have hnext := toNat_add_pageSize hlt haddr hstop
      obtain ⟨r, s₁, hpage, hinv, hle, hres⟩ := mapPage_spec hF hs addr addr flags
      rcases hres with ⟨rfl, hleaf⟩ | ⟨rfl, hfull, hleaf⟩
      · obtain ⟨r', s', k, hloop, hinv', hle', hmapped, hend⟩ :=
          ih (addr + pageSize) s₁ (by omega) (by omega) hinv
        refine ⟨r', s', k + 1, ?_, hinv', hle.trans hle', .cons hleaf hmapped, ?_⟩
        · rw [mapLoop, if_pos hlt, hpage]
          exact hloop
        · rw [hnext] at hend
          rcases hend with ⟨rfl, hk⟩ | ⟨rfl, hk, hfull⟩
          · exact .inl ⟨rfl, by omega⟩
          · exact .inr ⟨rfl, by omega, hfull⟩
      · refine ⟨.error .invalidMemoryRegion, s₁, 0, ?_, hinv, hle, .zero hleaf,
          .inr ⟨rfl, by omega, hfull⟩⟩
        rw [mapLoop, if_pos hlt, hpage]
    · have hge : stop.toNat ≤ addr.toNat := by
        rw [UInt64.lt_iff_toNat_lt] at hlt
        omega
      refine ⟨.ok (), s, 0, ?_, hs, le_refl _, .zero fun _ _ _ => rfl, .inl ⟨rfl, by omega⟩⟩
      rw [mapLoop, if_neg hlt]

/-- Number of pages a region's rounded range covers. -/
def pageCount (region : MemoryRegion) : ℕ :=
  ((endAddr region).toNat - (startAddr region).toNat) / 4096

theorem startAddr_mod (region : MemoryRegion) : (startAddr region).toNat % 4096 = 0 :=
  alignDown_mod region.baseAddr

theorem setupIdentityMapping_of_length_ne_zero {region : MemoryRegion}
    (hlen : region.lengthBytes ≠ 0) (perms : MapPermissions) (s : PageTables) :
    setupIdentityMapping F L region perms s =
      match mapLoop F L (endAddr region) (F.permissionsToFlags perms) (pageCount region + 1)
        (startAddr region) s with
      | (.error e, s') => (.error e, s')
      | (.ok (), s') => (.ok (startAddr region), s') := by
  rw [setupIdentityMapping, if_neg hlen]
  rfl

/-- `setup_identity_mapping` maps all pages of the region; or it rejects an empty
region and changes nothing; or it stops at a page that finds the pool exhausted. -/
theorem setupIdentityMapping_spec (hF : F.Lawful b) (hs : Inv F L s) (region : MemoryRegion)
    (perms : MapPermissions) :
    ∃ r s' k, setupIdentityMapping F L region perms s = (r, s') ∧ Inv F L s' ∧
      s.next ≤ s'.next ∧
      PrefixMapped F L s s' (F.permissionsToFlags perms) (startAddr region) k ∧
      ((r = .ok (startAddr region) ∧ k = pageCount region ∧ region.lengthBytes ≠ 0) ∨
        (r = .error .invalidMemoryRegion ∧ region.lengthBytes = 0 ∧ s' = s ∧ k = 0) ∨
        (r = .error .invalidMemoryRegion ∧ region.lengthBytes ≠ 0 ∧ k < pageCount region ∧
          s'.next = tablePoolSize)) := by
  by_cases hlen : region.lengthBytes = 0
  · refine ⟨.error .invalidMemoryRegion, s, 0, ?_, hs, le_refl _, .zero fun _ _ _ => rfl,
      .inr (.inl ⟨rfl, hlen, rfl, rfl⟩)⟩
    rw [setupIdentityMapping, if_pos hlen]
  · obtain ⟨r, s', k, hloop, hinv, hle, hmapped, hend⟩ :=
      mapLoop_pages (L := L) hF (F.permissionsToFlags perms)
        (show (endAddr region).toNat % 4096 = 0 from alignUp_mod _) (pageCount region + 1)
        (startAddr region) s (startAddr_mod region) (Nat.lt_succ_self _) hs
    rcases hend with ⟨rfl, hk⟩ | ⟨rfl, hk, hfull⟩
    · refine ⟨.ok (startAddr region), s', k, ?_, hinv, hle, hmapped, .inl ⟨rfl, hk, hlen⟩⟩
      rw [setupIdentityMapping_of_length_ne_zero hlen, hloop]
    · refine ⟨.error .invalidMemoryRegion, s', k, ?_, hinv, hle, hmapped,
        .inr (.inr ⟨rfl, hlen, hk, hfull⟩)⟩
      rw [setupIdentityMapping_of_length_ne_zero hlen, hloop]

end Steps

end SimurghHal.Paging
