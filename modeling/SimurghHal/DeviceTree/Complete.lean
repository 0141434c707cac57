import Mathlib.Data.List.Infix
import SimurghHal.DeviceTree.Discovery

/-!
# The walk consumes the tree

The walk of a blob for a tree goes through the tokens of the tree and no others, ends at
the final token with no node open, and reads nothing but the header and the two blocks. The
root is tracked until it ends, so an IOMMU is found wherever it is in the tree.
-/

namespace SimurghHal.DeviceTree

/-- The properties of a node and of all nodes inside it, as names and values. -/
def Body.properties : Body → List (List UInt8 × List UInt8)
  | .done => []
  | .nop rest => rest.properties
  | .prop _ name value rest => (name, value) :: rest.properties
  | .child _ body rest => body.properties ++ rest.properties

def iommuText : List UInt8 := ascii ['i', 'o', 'm', 'm', 'u']

/-- Some `compatible` property has the text `iommu` in its value. -/
def Body.HasIommu (b : Body) : Prop :=
  ∃ value, (compatibleName, value) ∈ b.properties ∧ iommuText <:+: value

theorem containsText_iff (text bytes : List UInt8) :
    containsText text bytes = true ↔ text <:+: bytes := by
  rw [containsText, List.any_eq_true, List.infix_iff_prefix_suffix]
  refine exists_congr fun suffix => ?_
  rw [List.mem_tails, List.isPrefixOf_iff_prefix, and_comm]

namespace Body

@[simp] theorem hasIommu_done : ¬ Body.done.HasIommu := by
  rintro ⟨value, hmem, -⟩
  exact List.not_mem_nil hmem

@[simp] theorem hasIommu_nop (rest : Body) : (Body.nop rest).HasIommu ↔ rest.HasIommu := Iff.rfl

@[simp] theorem hasIommu_prop (nameoff : UInt32) (name value : List UInt8) (rest : Body) :
    (Body.prop nameoff name value rest).HasIommu ↔
      (name = compatibleName ∧ iommuText <:+: value) ∨ rest.HasIommu := by
  simp only [HasIommu, properties, List.mem_cons, Prod.mk.injEq]
  constructor
  · rintro ⟨value', ⟨rfl, rfl⟩ | hmem, htext⟩
    · exact .inl ⟨rfl, htext⟩
    · exact .inr ⟨value', hmem, htext⟩
  · rintro (⟨rfl, htext⟩ | ⟨value', hmem, htext⟩)
    · exact ⟨value, .inl ⟨rfl, rfl⟩, htext⟩
    · exact ⟨value', .inr hmem, htext⟩

@[simp] theorem hasIommu_child (name : List UInt8) (body rest : Body) :
    (Body.child name body rest).HasIommu ↔ body.HasIommu ∨ rest.HasIommu := by
  simp only [HasIommu, properties, List.mem_append, or_and_right, exists_or]

end Body

/-! ### The tracked root -/

theorem Tracking.iommuPresent_beginNode (t : Tracking) (name : List UInt8) :
    (t.beginNode name).result.iommuPresent = t.result.iommuPresent := by
  rw [Tracking.beginNode]
  split
  · split
    · rfl
    · split <;> rfl
  · rfl

theorem Tracking.iommuPresent_endNode (t : Tracking) :
    t.endNode.result.iommuPresent = t.result.iommuPresent := by
  rw [Tracking.endNode]
  split <;> rfl

/-- The bytes the walker looks at are the value. -/
theorem map_range_of_holds {blob : Blob} {pos : ℕ} {value : List UInt8}
    (h : HoldsBytes blob pos value) :
    (List.range value.length).map (fun i => blob (pos + i)) = value := by
  refine List.ext_getElem (by simp) fun i hi hi' => ?_
  rw [List.getElem_map, List.getElem_range]
  exact h i hi'

/-- Any property inside the root is read as one of the root. -/
theorem InsideRoot.iommuPresent_prop {blob : Blob} {d pos : ℕ} {t : Tracking} (h : InsideRoot d t)
    (name : List UInt8) {value : List UInt8} (hvalue : HoldsBytes blob (pos + 12) value)
    (hlt : pos + 12 + value.length < 2 ^ 32) :
    (t.prop blob name (UInt32.ofNat (pos + 12)) (UInt32.ofNat value.length)).result.iommuPresent =
        true ↔
      t.result.iommuPresent = true ∨ (name = compatibleName ∧ iommuText <:+: value) := by
  have hoffset : (UInt32.ofNat (pos + 12)).toNat = pos + 12 :=
    UInt32.toNat_ofNat_of_lt' (by simp only [UInt32.size]; omega)
  have hlen : (UInt32.ofNat value.length).toNat = value.length :=
    UInt32.toNat_ofNat_of_lt' (by simp only [UInt32.size]; omega)
  rw [Tracking.prop, h.current]
  simp only [hoffset, hlen, map_range_of_holds hvalue]
  rw [← containsText_iff, iommuText]
  split
  · next hname =>
    split
    · next htext => simp [hname, htext]
    · next htext => simp [htext]
  · next hname => simp [hname]

/-- Nodes inside the root are not told apart: an IOMMU is found at any depth. -/
theorem InsideRoot.iommuPresent_tokens {blob : Blob} {strings stringsEnd : ℕ} (b : Body) :
    ∀ (pos d : ℕ) (t : Tracking), InsideRoot d t → b.At blob strings stringsEnd pos → 1 ≤ d →
      4 * d ≤ pos → pos + b.size < 2 ^ 32 →
        (((b.tokens pos).foldl (Tracking.handle blob) t).result.iommuPresent = true ↔
          t.result.iommuPresent = true ∨ b.HasIommu) := by
  -- depth and position are carried along so that `InsideRoot` applies in every body
  induction b with
  | done =>
    intro pos d t _ _ _ _ _
    simp only [Body.tokens, List.foldl_nil, Body.hasIommu_done, or_false]
  | nop rest ih =>
    intro pos d t h hat hd hpos hlt
    simp only [Body.size] at hlt
    rw [Body.tokens, List.foldl_cons, Body.hasIommu_nop]
    exact ih (pos + 4) d t h hat.2 hd (by omega) (by omega)
  | prop nameoff name value rest ih =>
    intro pos d t h hat hd hpos hlt
    obtain ⟨-, -, -, hvalue, -, -, hrest⟩ := hat
    simp only [Body.size] at hlt
    have hpad := le_pad4 value.length
    rw [Body.tokens, List.foldl_cons, Tracking.handle, Body.hasIommu_prop,
      ih _ d _ (h.prop blob name _ _) hrest hd (by omega) (by omega),
      h.iommuPresent_prop name hvalue (by omega), or_assoc]
  | child name body rest ihbody ihrest =>
    intro pos d t h hat hd hpos hlt
    obtain ⟨-, -, hbody, -, hrest⟩ := hat
    simp only [Body.size] at hlt
    have hinside := InsideRoot.tokens blob body (pos + 4 + pad4 (name.length + 1)) (d + 1) _
      (h.beginNode name) (by omega) (by omega) (by omega)
    rw [Body.tokens, List.foldl_append, List.foldl_cons, List.foldl_cons, Tracking.handle,
      Tracking.handle, Body.hasIommu_child,
      ihrest _ d _ (hinside.endNode hd (by omega)) hrest hd (by omega) (by omega),
      Tracking.iommuPresent_endNode,
      ihbody _ (d + 1) _ (h.beginNode name) hbody (by omega) (by omega) (by omega),
      Tracking.iommuPresent_beginNode, or_assoc]

/-- When the root ends, no node is open. -/
theorem InsideRoot.depth_endNode {t : Tracking} (h : InsideRoot 1 t) : t.endNode.depth = 0 := by
  have hdepth : t.depth = t.currentDepth := by
    rw [h.depth, h.currentDepth]
    rfl
  rw [Tracking.endNode, if_pos hdepth]
  change t.depth - 1 = 0
  rw [h.depth]
  rfl

theorem at_nops {blob : Blob} {strings stringsEnd : ℕ} (n : ℕ) (rest : Body) : ∀ pos : ℕ,
    (Body.nops n rest).At blob strings stringsEnd pos →
      rest.At blob strings stringsEnd (pos + 4 * n) := by
  induction n with
  | zero => exact fun _ h => h
  | succ n ih =>
    intro pos h
    rw [show pos + 4 * (n + 1) = pos + 4 + 4 * n by omega]
    exact ih _ h.2

/-- The state after the walk of a tree. -/
theorem tracking_block {blob : Blob} {tree : Tree} {strings stringsEnd pos : ℕ}
    (hat : tree.block.At blob strings stringsEnd pos) (hlt : pos + tree.block.size < 2 ^ 32) :
    let t := (tree.block.tokens pos).foldl (Tracking.handle blob) .initial
    t.depth = 0 ∧ (t.result.iommuPresent = true ↔ tree.root.HasIommu) := by
  intro t
  have ht : t = (tree.inside blob pos).endNode := foldl_block blob tree pos
  have hinside := insideRoot_inside blob tree hlt
  obtain ⟨-, -, hroot, -, -⟩ := at_nops _ _ _ hat
  rw [size_block] at hlt
  have hpos : tree.rootPos pos = pos + 4 * tree.nopsBefore + 8 := rfl
  have hiommu := insideRoot_initial.iommuPresent_tokens tree.root (tree.rootPos pos) 1 _ hroot
    le_rfl (by omega) (by omega)
  rw [ht]
  refine ⟨hinside.depth_endNode, ?_⟩
  rw [Tracking.iommuPresent_endNode, Tree.inside, hiommu]
  -- nothing is found before the root begins
  exact or_iff_right (by decide)

/-! ### The whole walk -/

theorem readsInside_last {tree : Tree} {blob : Blob} {header : FdtHeader} (h : tree.Encoded blob)
    (hread : FdtHeader.read blob = some header) (t : Tracking) :
    ReadsInside blob header ((FdtWalker.new header).moved (tree.last header), t) := by
  intro p hp
  have hend := h.toNat_structEnd hread
  have hcode := h.last_eq hread
  have hword := reads_code (FdtWalker.new header) (by omega) (by rw [hcode]; decide)
    (by rw [hcode]; decide) hp
  have hstart : (FdtWalker.new header).structStart.toNat ≤ tree.last header := Nat.le_add_right _ _
  exact .inl (by omega)

/-- The walk consumes every well-formed tree exactly. It visits the tokens of the tree in order,
each where it is encoded, and is left at the final token in front of the end of the block; it
reads nothing but the header and the blocks; no node is open in the end; and an IOMMU is found
exactly when some node of the tree has one in its `compatible` property. -/
theorem walkDeviceTree_consumes {tree : Tree} {blob : Blob} (h : tree.Encoded blob) :
    ∃ header last t, FdtHeader.read blob = some header ∧
      Visits blob (ReadsInside blob header) (FdtWalker.new header, .initial)
        (tree.block.placed header.offDtStruct.toNat) (last, t) ∧
      (last.offset.toNat = header.offDtStruct.toNat + tree.block.size ∧
        last.offset < last.structEnd ∧ readU32At blob last.offset = fdtEnd ∧
        walkBody blob (last, t) = some (.error t.result)) ∧
      (∃ fuel, walkDeviceTree fuel blob = some t.result) ∧
      (∀ p, WalkReads blob p → p < 40 ∨ InBlocks (FdtWalker.new header) header.stringsEnd p) ∧
      t.depth = 0 ∧ (t.result.iommuPresent = true ↔ tree.root.HasIommu) := by
  obtain ⟨header, hread⟩ := FdtHeader.exists_read h.magic
  have hvisits := visits_tree h hread
  have hend := h.toNat_structEnd hread
  have hlast : tree.last header < (FdtWalker.new header).structEnd.toNat := by omega
  have hleave := walkBody_last h hread
  refine ⟨header, _, _, hread, hvisits, ⟨toNat_moved_offset _ hlast, ?_, ?_, hleave _⟩, ?_, ?_, ?_⟩
  · exact UInt32.not_le.mp (not_structEnd_le (FdtWalker.new header) hlast)
  · rw [readU32At_moved (FdtWalker.new header) hlast, h.last_eq hread]
  · obtain ⟨fuel, hfuel⟩ := (Loop.returns_of_leave (hleave _)).of_reaches hvisits.reaches
    exact ⟨fuel, by rw [walkDeviceTree, hread]; exact hfuel⟩
  · rintro p (hp | ⟨header', s, hread', hs, hp⟩)
    · exact .inl hp
    · obtain rfl := Option.some.inj (hread.symm.trans hread')
      exact .inr (hvisits.forall_reached (readsInside_last h hread _) (hleave _) hs p hp)
  · exact tracking_block (h.block_at hread) (by
      have hlt := (FdtWalker.new header).structEnd.toNat_lt
      have hpos : tree.last header = header.offDtStruct.toNat + tree.block.size := rfl
      omega)

/-- An IOMMU two nodes below the root, behind an empty property and padding tokens. -/
def iommuTree : Tree where
  nopsBefore := 1
  root := .nop (.child (ascii ['s', 'o', 'c'])
    (.prop 0 compatibleName []
      (.child (ascii ['i', 'o', 'm', 'm', 'u', '@', '0'])
        (.prop 0 compatibleName (ascii ['r', 'i', 's', 'c', 'v', ','] ++ iommuText ++ [0]) .done)
        (.nop .done)))
    .done)
  nopsAfter := 1

def iommuBlob : Blob := blobOf (iommuTree.encode (compatibleName ++ [0]))

theorem encoded_iommuTree : iommuTree.Encoded iommuBlob := by
  refine Tree.encoded_encode _ _ ?_ (by decide +kernel)
  exact ⟨by decide, ⟨by decide, ⟨by decide, List.prefix_rfl, by decide,
    ⟨by decide, List.prefix_rfl, trivial⟩, trivial⟩, trivial⟩, trivial⟩

theorem walkDeviceTree_consumes_nested :
    ∃ fuel result, walkDeviceTree fuel iommuBlob = some result ∧ result.iommuPresent = true := by
  obtain ⟨_, _, t, -, -, -, ⟨fuel, hwalk⟩, -, -, hiommu⟩ := walkDeviceTree_consumes encoded_iommuTree
  have hhas : iommuTree.root.HasIommu :=
    ⟨ascii ['r', 'i', 's', 'c', 'v', ','] ++ iommuText ++ [0], by decide +kernel,
      ascii ['r', 'i', 's', 'c', 'v', ','], [0], rfl⟩
  exact ⟨fuel, t.result, hwalk, hiommu.mpr hhas⟩

end SimurghHal.DeviceTree
