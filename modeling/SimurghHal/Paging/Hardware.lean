import SimurghHal.Paging.Invariant

/-!
# The page walk of the hardware

How the memory management unit of each architecture reads the tables, with the
cases the boot code never builds (large pages, reserved bits, restricted table
entries) left in. On tables that satisfy `Inv` the walk for an address comes down
to the view of the one entry `leafAt` gives for it (`walkFrom_eq`).
-/

namespace SimurghHal.Paging

open RadixTree Words

/-- Accesses an entry permits to the pages below it. -/
structure Rights where
  readable : Bool
  writable : Bool
  executable : Bool
  user : Bool
  deriving DecidableEq, Repr

/-- Everything permitted. -/
def Rights.all : Rights := ⟨true, true, true, true⟩

/-- What two entries on one path permit together. -/
def Rights.meet (r r' : Rights) : Rights :=
  ⟨r.readable && r'.readable, r.writable && r'.writable, r.executable && r'.executable,
    r.user && r'.user⟩

@[simp] theorem Rights.all_meet (r : Rights) : Rights.all.meet r = r := by
  simp [Rights.meet, Rights.all]

structure Translation where
  phys : UInt64
  rights : Rights
  uncached : Bool
  deriving DecidableEq, Repr

/-- What the hardware takes an entry for: nothing usable, a further table, or a
page with the given base and number of offset bits (as a mask). -/
inductive EntryView where
  | fault
  | table (next : UInt64) (rights : Rights)
  | page (base offsetMask : UInt64) (rights : Rights) (uncached : Bool)
  deriving DecidableEq, Repr

/-- The walk from the table at `table`; `view n` reads entries `n` levels above the
last one, and `rights` is what the entries passed so far leave. -/
def walkFrom (view : ℕ → UInt64 → EntryView) (frames : UInt64 → ℕ → UInt64) (virt : UInt64) :
    List UInt64 → UInt64 → Rights → Option Translation
  | [], _, _ => none
  | shift :: shifts, table, rights =>
    match view shifts.length (frames table (tableIndex virt shift)) with
    | .fault => none
    | .table next r => walkFrom view frames virt shifts next (rights.meet r)
    | .page base offsetMask r uncached =>
      some ⟨base ||| (virt &&& offsetMask), rights.meet r, uncached⟩

namespace X86_64

/-- Entries of 4-level paging. -/
def view (level : ℕ) (e : UInt64) : EntryView :=
  let rights : Rights := ⟨true, bit e 1, !bit e 63, bit e 2⟩
  if !bit e 0 then .fault
  else match level with
    | 0 => .page (e &&& addrMask) 0xFFF rights (bit e 4)
    | 1 =>
      if !bit e 7 then .table (e &&& addrMask) rights
      else if e &&& 0x1FE000 = 0 then
        .page (e &&& 0x000FFFFFFFE00000) 0x1FFFFF rights (bit e 4)
      else .fault
    | 2 =>
      if !bit e 7 then .table (e &&& addrMask) rights
      else if e &&& 0x3FFFE000 = 0 then
        .page (e &&& 0x000FFFFFC0000000) 0x3FFFFFFF rights (bit e 4)
      else .fault
    | _ => if !bit e 7 then .table (e &&& addrMask) rights else .fault

end X86_64

namespace Arm64

/-- Stage 1 descriptors for EL1, 4 KiB granule. -/
def view (level : ℕ) (e : UInt64) : EntryView :=
  let tableRights : Rights := ⟨true, !bit e 62, !bit e 59, !bit e 61⟩
  let rights : Rights := ⟨true, !bit e 7, !bit e 53, bit e 6⟩
  let uncached := (e >>> 2) &&& 7 == 1
  if !bit e 0 then .fault
  else match level with
    | 0 =>
      if !bit e 1 || !bit e 10 then .fault
      else .page (e &&& addrMask) 0xFFF rights uncached
    | 1 =>
      if bit e 1 then .table (e &&& addrMask) tableRights
      else if !bit e 10 then .fault
      else .page (e &&& 0x0000FFFFFFE00000) 0x1FFFFF rights uncached
    | 2 =>
      if bit e 1 then .table (e &&& addrMask) tableRights
      else if !bit e 10 then .fault
      else .page (e &&& 0x0000FFFFC0000000) 0x3FFFFFFF rights uncached
    | _ => if bit e 1 then .table (e &&& addrMask) tableRights else .fault

end Arm64

namespace Riscv64

/-- Physical page number of an Sv39 entry. -/
def ppn (e : UInt64) : UInt64 := (e >>> 10) &&& 0x0FFFFFFFFFFF

/-- Sv39 entries. A writable page is one whose dirty bit is set as well. -/
def view (level : ℕ) (e : UInt64) : EntryView :=
  let rights : Rights := ⟨bit e 1, bit e 2 && bit e 7, bit e 3, bit e 4⟩
  if !bit e 0 || (!bit e 1 && bit e 2) || decide (e >>> 54 ≠ 0) then .fault
  else if !bit e 1 && !bit e 3 then
    if level = 0 || bit e 4 || bit e 6 || bit e 7 then .fault
    else .table (ppn e <<< 12) .all
  else if !bit e 6 then .fault
  else match level with
    | 0 => .page (ppn e <<< 12) 0xFFF rights false
    | 1 =>
      if ppn e &&& 0x1FF = 0 then .page (ppn e <<< 12) 0x1FFFFF rights false else .fault
    | _ =>
      if ppn e &&& 0x3FFFF = 0 then .page (ppn e <<< 12) 0x3FFFFFFF rights false else .fault

end Riscv64

def view : Arch → ℕ → UInt64 → EntryView
  | .x86_64 => X86_64.view
  | .arm64 => Arm64.view
  | .riscv64 => Riscv64.view

/-- Virtual addresses the walk starts for: canonical addresses on x86_64 and Sv39,
the 48-bit range of `TTBR0_EL1` (`T0SZ` = 16) on ARM64. -/
def InRange : Arch → UInt64 → Prop
  | .x86_64, virt => virt >>> 47 = 0 ∨ virt >>> 47 = 0x1FFFF
  | .arm64, virt => virt >>> 48 = 0
  | .riscv64, virt => virt >>> 38 = 0 ∨ virt >>> 38 = 0x3FFFFFF

instance : (arch : Arch) → (virt : UInt64) → Decidable (InRange arch virt)
  | .x86_64, virt => inferInstanceAs (Decidable (virt >>> 47 = 0 ∨ virt >>> 47 = 0x1FFFF))
  | .arm64, virt => inferInstanceAs (Decidable (virt >>> 48 = 0))
  | .riscv64, virt => inferInstanceAs (Decidable (virt >>> 38 = 0 ∨ virt >>> 38 = 0x3FFFFFF))

/-- The translation of a virtual address by the hardware. -/
def translate (arch : Arch) (L : FrameLayout (physBits arch)) (s : PageTables)
    (virt : UInt64) : Option Translation :=
  if InRange arch virt then
    walkFrom (view arch) s.frames virt ((format arch).tableShifts ++ [12]) L.root .all
  else none

/-- The translation an entry of the last level gives. -/
def pageTranslation (virt : UInt64) : EntryView → Option Translation
  | .page base offsetMask rights uncached =>
    some ⟨base ||| (virt &&& offsetMask), rights, uncached⟩
  | _ => none

/-- Entries that `map_page` does not follow fault in the hardware, and the entries
it makes are tables without restrictions for the hardware. -/
structure ViewLawful (F : PagingFormat) (b : ℕ) (view : ℕ → UInt64 → EntryView) : Prop where
  fault_of_absent : ∀ level e, e &&& F.present = 0 → view level e = .fault
  view_tableEntry : ∀ level (n : UInt64), n.toNat % 4096 = 0 → n.toNat < 2 ^ b →
    view (level + 1) (F.tableEntry n) = .table n .all
  view_zero_ne_table : ∀ e n r, view 0 e ≠ .table n r

section Walk

variable {F : PagingFormat} {b : ℕ} {L : FrameLayout b} {s : PageTables}
  {view : ℕ → UInt64 → EntryView}

/-- Below an entry that holds no table, every entry counts as 0. -/
theorem leafAt_eq_zero_of_decode {p : List ℕ} {table : UInt64} {i : ℕ}
    (hp : descend (decode F) s.frames L.root p = some table)
    (hdec : decode F (s.frames table i) = none) (q : List ℕ) (j : ℕ) :
    leafAt F L s ((p ++ [i]) ++ q) j = 0 := by
  have hnone : descend (decode F) s.frames L.root ((p ++ [i]) ++ q) = none := by
    rw [descend_append, descend_concat_of_some hp, hdec]
    rfl
  rw [leafAt, lookup, hnone]
  rfl

/-- The walk from a reached table, by the remaining levels. -/
theorem walkFrom_descend (hv : ViewLawful F b view) (hs : Inv F L s) (virt : UInt64) :
    ∀ (shifts : List UInt64) (p : List ℕ) (table : UInt64),
      descend (decode F) s.frames L.root p = some table →
      p.length + shifts.length = F.tableShifts.length →
      walkFrom view s.frames virt (shifts ++ [12]) table .all =
        pageTranslation virt (view 0 (leafAt F L s (p ++ shifts.map (tableIndex virt))
          (tableIndex virt 12))) := by
  intro shifts
  induction shifts with
  | nil =>
    intro p table hp _
    have hleaf : leafAt F L s (p ++ [].map (tableIndex virt)) (tableIndex virt 12) =
        s.frames table (tableIndex virt 12) := by
      simp [leafAt, lookup, hp]
    rw [hleaf]
    simp only [List.nil_append, walkFrom, List.length_nil]
    cases hview : view 0 (s.frames table (tableIndex virt 12)) with
    | fault => rfl
    | table n r => exact absurd hview (hv.view_zero_ne_table _ _ _)
    | page base mask r u => simp [pageTranslation]
  | cons shift shifts ih =>
    intro p table hp hlen
    rw [List.length_cons] at hlen
    have hplt : p.length < F.tableShifts.length := by omega
    have happend : p ++ (shift :: shifts).map (tableIndex virt) =
        (p ++ [tableIndex virt shift]) ++ shifts.map (tableIndex virt) := by
      simp
    have hlevel : (shifts ++ [(12 : UInt64)]).length = shifts.length + 1 := by simp
    rw [happend]
    simp only [List.cons_append, walkFrom, hlevel]
    cases hdec : decode F (s.frames table (tableIndex virt shift)) with
    | none =>
      -- no table below: the hardware faults, and an entry of 0 faults too
      have habsent := decode_eq_none_iff.mp hdec
      have hzero := leafAt_eq_zero_of_decode hp hdec (shifts.map (tableIndex virt))
        (tableIndex virt 12)
      rw [hv.fault_of_absent _ _ habsent, hzero, hv.fault_of_absent 0 0 UInt64.zero_and]
      rfl
    | some u =>
      -- the entry is one `map_page` made, which the hardware reads in the same way
      have hu : descend (decode F) s.frames L.root (p ++ [tableIndex virt shift]) = some u := by
        rw [descend_concat_of_some hp, hdec]
      have hentry := hs.tree.canonical hplt hp hdec
      obtain ⟨k, -, rfl⟩ := hs.reached (by simp) (by simp; omega) hu
      rw [hentry, hv.view_tableEntry _ _ (L.pool_aligned k) (L.pool_lt k)]
      simp only [Rights.all_meet]
      exact ih _ _ hu (by simp; omega)

/-- The walk for an address reads the entry of its slot and nothing else. -/
theorem walkFrom_eq (hv : ViewLawful F b view) (hs : Inv F L s) (virt : UInt64) :
    walkFrom view s.frames virt (F.tableShifts ++ [12]) L.root .all =
      pageTranslation virt (view 0 (leafAt F L s (slotOf F virt).1 (slotOf F virt).2)) := by
  have h := walkFrom_descend hv hs virt F.tableShifts [] L.root rfl (by simp)
  rw [List.nil_append] at h
  exact h

end Walk

end SimurghHal.Paging
