import SimurghHal.Lib.Simulation
import SimurghHal.Paging.OutOfRange

/-!
# Write permissions of the ARM64 tables

`permissions_to_flags` of `hal-arm64` expresses writability by the access
permission bits `AP_RW_EL1`, which are all zero, so it writes the same bits for
read-only regions. Every page the crate maps is therefore writable at EL1, and
the tables keep writable and executable pages apart only in runs that never map
a read-only page.
-/

namespace SimurghHal.Paging.Arm64

open Words

/-- AP[2] of a page descriptor: EL1 may write unless it is set. -/
def el1Writable (e : UInt64) : Bool := !bit e 7

/-- PXN of a page descriptor: EL1 may execute unless it is set. -/
def el1Executable (e : UInt64) : Bool := !bit e 53

/-- `e` is a valid page descriptor found from `TTBR0_ROOT` at the given path of table
indices and index in the level 3 table. -/
def ReachableLeaf (L : FrameLayout 48) (s : PageTables) (slot : List ℕ × ℕ) (e : UInt64) : Prop :=
  slot.1.length = 3 ∧
    RadixTree.lookup (decode format) s.frames L.root slot.1 slot.2 = some e ∧ bit e 0 = true

/-- The call maps at least one page. -/
def MapsPage (c : MapCall) : Prop := c.region.lengthBytes ≠ 0 ∧ 0 < pageCount c.region

/-- The page range of the call includes the page with this descriptor. -/
def Covers (c : MapCall) (slot : List ℕ × ℕ) : Prop :=
  c.region.lengthBytes ≠ 0 ∧
    ∃ i < pageCount c.region, slotOf format (pageAt (startAddr c.region) i) = slot

/-- `c` is the most recent call of the sequence that covers the page. -/
def LastCovering (calls : List MapCall) (slot : List ℕ × ℕ) (c : MapCall) : Prop :=
  ∃ earlier later, calls = earlier ++ c :: later ∧ Covers c slot ∧ ∀ c' ∈ later, ¬ Covers c' slot

/-- No reachable page is writable and executable at EL1, and a reachable page is
writable exactly when the most recent call covering it asked for that. -/
def WriteXorExecute (L : FrameLayout 48) (s : PageTables) (calls : List MapCall) : Prop :=
  ∀ slot e, ReachableLeaf L s slot e →
    ¬ (el1Writable e = true ∧ el1Executable e = true) ∧
      ∃ c, LastCovering calls slot c ∧ (el1Writable e = true ↔ c.perms.writable = true)

theorem Covers.mapsPage {c : MapCall} {slot : List ℕ × ℕ} (h : Covers c slot) : MapsPage c := by
  obtain ⟨hlen, i, hi, -⟩ := h
  exact ⟨hlen, by omega⟩

theorem lastCovering_concat_self {calls : List MapCall} {slot : List ℕ × ℕ} {c : MapCall}
    (h : Covers c slot) : LastCovering (calls ++ [c]) slot c :=
  ⟨calls, [], rfl, h, by simp⟩

theorem LastCovering.concat {calls : List MapCall} {slot : List ℕ × ℕ} {c d : MapCall}
    (h : LastCovering calls slot d) (hc : ¬ Covers c slot) :
    LastCovering (calls ++ [c]) slot d := by
  obtain ⟨earlier, later, rfl, hcov, hlater⟩ := h
  refine ⟨earlier, later ++ [c], by simp, hcov, fun c' hc' => ?_⟩
  rcases List.mem_append.mp hc' with hc' | hc'
  · exact hlater c' hc'
  · obtain rfl := List.mem_singleton.mp hc'
    exact hc

/-- A call that covers the page and ends the sequence is the most recent one. -/
theorem LastCovering.eq_of_covers {calls : List MapCall} {slot : List ℕ × ℕ} {c d : MapCall}
    (h : LastCovering (calls ++ [c]) slot d) (hc : Covers c slot) : d = c := by
  obtain ⟨earlier, later, hsplit, -, hlater⟩ := h
  induction later using List.reverseRecOn with
  | nil =>
    obtain ⟨-, he⟩ := List.append_inj' hsplit rfl
    exact (List.cons.inj he).1.symm
  | append_singleton later c' =>
    rw [← List.cons_append, ← List.append_assoc] at hsplit
    obtain ⟨-, he⟩ := List.append_inj' hsplit rfl
    obtain rfl := (List.cons.inj he).1
    exact absurd hc (hlater c (by simp))

/-- The entries written for any permissions are writable, and executable as asked. -/
theorem el1_leafEntry (phys : UInt64) (perms : MapPermissions) :
    el1Writable (format.leafEntry phys (permissionsToFlags perms)) = true ∧
      el1Executable (format.leafEntry phys (permissionsToFlags perms)) = perms.executable := by
  obtain ⟨-, -, -, -, -, h7, h53, -⟩ := leafBits_bits perms
  rw [el1Writable, el1Executable, bit_leafEntry phys perms (by decide),
    bit_leafEntry phys perms (by decide), h7, h53]
  simp

/-- The first page of the call finds its tables, or room for them in the pool. -/
def FindsRoom (L : FrameLayout 48) (s : PageTables) (c : MapCall) : Prop :=
  s.next + missingForPages .arm64 L s c.region 1 ≤ tablePoolSize

/-- The call enters a page, or its range includes one that is mapped. -/
def Concerns (L : FrameLayout 48) (s : PageTables) (c : MapCall) : Prop :=
  MapsPage c ∧ (FindsRoom L s c ∨ ∃ slot e, ReachableLeaf L s slot e ∧ Covers c slot)

section Run

variable {L : FrameLayout 48} {s : PageTables}

/-- One call, successful or not, changes a descriptor only by writing its own. -/
theorem leafAt_step (hs : Inv format L s) (c : MapCall) {slot : List ℕ × ℕ}
    (hslot : slot.1.length = 3) :
    leafAt format L (mapRegion .arm64 L s c).2 slot.1 slot.2 = leafAt format L s slot.1 slot.2 ∨
      (Covers c slot ∧ ∃ page, leafAt format L (mapRegion .arm64 L s c).2 slot.1 slot.2 =
        format.leafEntry page (permissionsToFlags c.perms)) := by
  obtain ⟨r, s', k, hcall, -, -, hmapped, hres⟩ :=
    setupIdentityMapping_spec lawful hs c.region c.perms
  have hs' : (mapRegion .arm64 L s c).2 = s' := congrArg Prod.snd hcall
  rw [hs']
  rcases hmapped slot.1 slot.2 hslot with ⟨i, hi, hpage, hleaf⟩ | ⟨-, hleaf⟩
  · refine .inr ⟨?_, pageAt (startAddr c.region) i, hleaf⟩
    rcases hres with ⟨-, hk, hlen⟩ | ⟨-, -, -, hk⟩ | ⟨-, hlen, hk, -⟩
    · exact ⟨hlen, i, by omega, hpage⟩
    · omega
    · exact ⟨hlen, i, by omega, hpage⟩
  · exact .inl hleaf

/-- A call that finds no room for its first page changes no descriptor. -/
theorem leafAt_of_not_findsRoom (hs : Inv format L s) {c : MapCall} (hpage : MapsPage c)
    (hroom : ¬ FindsRoom L s c) {slot : List ℕ × ℕ} (hslot : slot.1.length = 3) :
    leafAt format L (mapRegion .arm64 L s c).2 slot.1 slot.2 = leafAt format L s slot.1 slot.2 := by
  have hfail : ¬ (mapRegion .arm64 L s c).1.isOk = true := by
    rw [(@isOk_mapRegion_iff .arm64 L s hs c hpage.1).1]
    have hfirst := missingForPages_mono .arm64 L s c.region hpage.2
    exact fun hfits => hroom ((Nat.add_le_add_left hfirst _).trans hfits)
  obtain ⟨-, k, -, hmapped, hfits, -⟩ := @mapRegion_fails .arm64 L s c hs hpage.1 hfail
  -- it stops before its first page
  obtain rfl : k = 0 := by
    by_contra hk
    have hfirst := missingForPages_mono .arm64 L s c.region (Nat.one_le_iff_ne_zero.mpr hk)
    unfold FindsRoom at hroom
    omega
  rcases hmapped slot.1 slot.2 hslot with ⟨i, hi, -⟩ | ⟨-, hleaf⟩
  · exact absurd hi (Nat.not_lt_zero i)
  · exact hleaf

theorem leafAt_of_reachableLeaf {slot : List ℕ × ℕ} {e : UInt64} (h : ReachableLeaf L s slot e) :
    leafAt format L s slot.1 slot.2 = e := by
  rw [leafAt, h.2.1]
  rfl

theorem reachableLeaf_of_leafAt {slot : List ℕ × ℕ} {e : UInt64} (hslot : slot.1.length = 3)
    (hleaf : leafAt format L s slot.1 slot.2 = e) (hvalid : bit e 0 = true) :
    ReachableLeaf L s slot e := by
  refine ⟨hslot, ?_, hvalid⟩
  rw [leafAt] at hleaf
  cases hlook : RadixTree.lookup (decode format) s.frames L.root slot.1 slot.2 with
  | some e' =>
    rw [hlook] at hleaf
    exact congrArg some hleaf
  | none =>
    rw [hlook] at hleaf
    obtain rfl := hleaf
    exact absurd hvalid (by decide)

/-- Every page is writable, not executable, and its most recent call asked for that. -/
def AllWritable (L : FrameLayout 48) (s : PageTables) (calls : List MapCall) : Prop :=
  Inv format L s ∧ ∀ slot e, ReachableLeaf L s slot e →
    el1Writable e = true ∧ el1Executable e = false ∧
      ∃ c, LastCovering calls slot c ∧ c.perms.writable = true

variable {calls : List MapCall}

theorem AllWritable.writeXorExecute (h : AllWritable L s calls) : WriteXorExecute L s calls := by
  intro slot e he
  obtain ⟨hw, hx, c, hlast, hcw⟩ := h.2 slot e he
  refine ⟨fun hboth => ?_, c, hlast, iff_of_true hw hcw⟩
  rw [hx] at hboth
  exact Bool.false_ne_true hboth.2

theorem AllWritable.step (h : AllWritable L s calls) {c : MapCall}
    (hwx : ¬ (c.perms.writable = true ∧ c.perms.executable = true))
    (hwritable : Concerns L s c → c.perms.writable = true) :
    AllWritable L (mapRegion .arm64 L s c).2 (calls ++ [c]) := by
  refine ⟨@inv_mapRegion .arm64 L s h.1 c, fun slot e he => ?_⟩
  have hslot := he.1
  have hleaf := leafAt_of_reachableLeaf he
  -- a page that was there before, and is not in the range of this call
  have hkept : leafAt format L s slot.1 slot.2 = e → ¬ Covers c slot →
      el1Writable e = true ∧ el1Executable e = false ∧
        ∃ d, LastCovering (calls ++ [c]) slot d ∧ d.perms.writable = true := by
    intro hold hcov
    obtain ⟨hw, hx, d, hlast, hdw⟩ := h.2 slot e (reachableLeaf_of_leafAt hslot hold he.2.2)
    exact ⟨hw, hx, d, hlast.concat hcov, hdw⟩
  cases hcw : c.perms.writable with
  | true =>
    have hcx : c.perms.executable = false := by
      rw [← Bool.not_eq_true]
      exact fun hexec => hwx ⟨hcw, hexec⟩
    rcases leafAt_step h.1 c hslot with hold | ⟨hcov, page, hpage⟩
    · rw [hold] at hleaf
      by_cases hcov : Covers c slot
      · obtain ⟨hw, hx, -⟩ := h.2 slot e (reachableLeaf_of_leafAt hslot hleaf he.2.2)
        exact ⟨hw, hx, c, lastCovering_concat_self hcov, hcw⟩
      · exact hkept hleaf hcov
    · obtain ⟨hw, hx⟩ := el1_leafEntry page c.perms
      rw [hpage] at hleaf
      subst hleaf
      exact ⟨hw, hx.trans hcx, c, lastCovering_concat_self hcov, hcw⟩
  | false =>
    -- such a call is refused at once, and none of its pages is mapped
    have hconcerns : ¬ Concerns L s c := by
      intro hc
      rw [hwritable hc] at hcw
      cases hcw
    by_cases hcov : Covers c slot
    · have hroom : ¬ FindsRoom L s c := fun hroom => hconcerns ⟨hcov.mapsPage, .inl hroom⟩
      rw [leafAt_of_not_findsRoom h.1 hcov.mapsPage hroom hslot] at hleaf
      have hbefore := reachableLeaf_of_leafAt hslot hleaf he.2.2
      exact absurd ⟨hcov.mapsPage, .inr ⟨slot, e, hbefore, hcov⟩⟩ hconcerns
    · rcases leafAt_step h.1 c hslot with hold | ⟨hcov', -⟩
      · exact hkept (hold.symm.trans hleaf) hcov
      · exact absurd hcov' hcov

/-- The calls of a run that enter a page or include one that is mapped ask for writable memory. -/
def WritableWhereConcerned (L : FrameLayout 48) (s : PageTables) (calls : List MapCall) : Prop :=
  Simulation.Every (fun s c => (mapRegion .arm64 L s c).2)
    (fun s c => Concerns L s c → c.perms.writable = true) s calls

theorem AllWritable.run (h : AllWritable L s calls) {run later : List MapCall}
    (hwx : ∀ c ∈ run, ¬ (c.perms.writable = true ∧ c.perms.executable = true))
    (hwritable : WritableWhereConcerned L s (run ++ later)) :
    AllWritable L (mapRegions .arm64 L s run) (calls ++ run) := by
  induction run generalizing s calls with
  | nil => rwa [List.append_nil]
  | cons c run ih =>
    obtain ⟨hc, hrest⟩ := hwritable
    have hnext := ih (h.step (hwx c List.mem_cons_self) hc)
      (fun d hd => hwx d (List.mem_cons_of_mem c hd)) hrest
    rwa [List.append_assoc] at hnext

theorem allWritable_empty : AllWritable L .empty [] := by
  refine ⟨inv_empty, fun slot e he => ?_⟩
  -- nothing is valid in the empty tables
  have hleaf := leafAt_of_reachableLeaf he
  rw [leafAt_empty] at hleaf
  have hvalid := he.2.2
  rw [← hleaf] at hvalid
  exact absurd hvalid (by decide)

end Run

/-- In a run whose calls never ask for writable and executable memory at once, and in which
every call that enters a page, or whose range includes a mapped one, asks for writable memory,
all states reached keep writable and executable pages apart as documented. -/
theorem writeXorExecute_of_writable (L : FrameLayout 48) (calls : List MapCall)
    (hwx : ∀ c ∈ calls, ¬ (c.perms.writable = true ∧ c.perms.executable = true))
    (hwritable : WritableWhereConcerned L .empty calls)
    (earlier later : List MapCall) (hsplit : calls = earlier ++ later) :
    WriteXorExecute L (mapRegions .arm64 L .empty earlier) earlier := by
  subst hsplit
  have hrun := allWritable_empty.run
    (fun c hc => hwx c (List.mem_append_left later hc)) hwritable
  rw [List.nil_append] at hrun
  exact hrun.writeXorExecute

/-- One data region. -/
theorem writeXorExecute_kernelData :
    WriteXorExecute (sampleLayout .arm64)
      (mapRegions .arm64 (sampleLayout .arm64) .empty [⟨usable 0x1000 0x1000, .kernelData⟩])
      [⟨usable 0x1000 0x1000, .kernelData⟩] :=
  writeXorExecute_of_writable (sampleLayout .arm64) [⟨usable 0x1000 0x1000, .kernelData⟩]
    (by decide) ⟨fun _ => rfl, trivial⟩ _ [] rfl

/-- The condition is sharp for calls that succeed: right after a call that maps a
page without asking for write access, the property is lost. -/
theorem not_writeXorExecute_of_readOnly (L : FrameLayout 48) (calls : List MapCall) (c : MapCall)
    (hok : (mapRegion .arm64 L (mapRegions .arm64 L .empty calls) c).1.isOk)
    (hpage : MapsPage c) (hro : c.perms.writable = false) :
    ¬ WriteXorExecute L (mapRegions .arm64 L .empty (calls ++ [c])) (calls ++ [c]) := by
  have hs : Inv format L (mapRegions .arm64 L .empty calls) :=
    @inv_mapRegions .arm64 L calls _ inv_empty
  obtain ⟨r, s', k, hcall, -, -, hmapped, hres⟩ :=
    setupIdentityMapping_spec lawful hs c.region c.perms
  have hstate : mapRegions .arm64 L .empty (calls ++ [c]) = s' :=
    (@mapRegions_concat .arm64 L .empty calls c).trans (congrArg Prod.snd hcall)
  have hr : r.isOk := by
    have hfst : (mapRegion .arm64 L (mapRegions .arm64 L .empty calls) c).1 = r :=
      congrArg Prod.fst hcall
    rw [← hfst]
    exact hok
  have hk : k = pageCount c.region := by
    rcases hres with ⟨-, hk, -⟩ | ⟨rfl, -⟩ | ⟨rfl, -⟩
    · exact hk
    · cases hr
    · cases hr
  have hcov : Covers c (slotOf format (startAddr c.region)) :=
    ⟨hpage.1, 0, hpage.2, by rw [pageAt_zero]⟩
  rw [hstate]
  intro hwx
  -- the first page of the call is writable although the call did not ask for it
  rcases hmapped (slotOf format (startAddr c.region)).1 (slotOf format (startAddr c.region)).2 rfl
    with ⟨i, -, -, hleaf⟩ | ⟨hnone, -⟩
  · have hvalid : bit (format.leafEntry (pageAt (startAddr c.region) i)
        (permissionsToFlags c.perms)) 0 = true := by
      rw [bit_leafEntry _ _ (by decide), (leafBits_bits c.perms).2.1]
    obtain ⟨-, d, hd, hiff⟩ := hwx _ _ (reachableLeaf_of_leafAt rfl hleaf hvalid)
    rw [hd.eq_of_covers hcov, hro] at hiff
    exact absurd (hiff.mp (el1_leafEntry _ _).1) (by decide)
  · refine hnone 0 ?_ (by rw [pageAt_zero])
    rw [hk]
    exact hpage.2

/-- Kernel code mapped with the preset `KERNEL_CODE` ends up writable and executable. -/
theorem writeXorExecute_fails_kernelCode :
    let calls : List MapCall := [⟨usable 0x1000 0x1000, .kernelCode⟩]
    let s := mapRegions .arm64 (sampleLayout .arm64) .empty calls
    MapPermissions.kernelCode.writable = false ∧
      ReachableLeaf (sampleLayout .arm64) s ([0, 0, 0], 1) 0x1703 ∧
      el1Writable 0x1703 = true ∧ el1Executable 0x1703 = true := by
  refine ⟨rfl, ⟨rfl, ?_, by decide⟩, by decide, by decide⟩
  decide +kernel

end SimurghHal.Paging.Arm64
