import SimurghHal.DeviceTree.Encode
import SimurghHal.DeviceTree.Trace

/-!
# What device tree discovery finds

The walker tracks one node at a time and takes up the next one when the tracked node
ends. The root node is neither memory nor interrupt controller, so it is tracked as a
possible IOMMU, and no node inside it is ever looked at. What is reported for memory and
interrupt controller is therefore the built-in default, whatever the tree says.
-/

namespace SimurghHal.DeviceTree

/-- The values of at least `minLen` bytes of the `reg` properties of the nodes with a
name of the given kind. `here` says whether the enclosing node is one of them. -/
def Body.regs (isTarget : List UInt8 → Bool) (minLen : ℕ) : Body → Bool → List (List UInt8)
  | .done, _ => []
  | .nop rest, here => rest.regs isTarget minLen here
  | .prop _ name value rest, here =>
    if here ∧ name = regName ∧ minLen ≤ value.length then
      value :: rest.regs isTarget minLen here
    else rest.regs isTarget minLen here
  | .child name body rest, here =>
    body.regs isTarget minLen (isTarget name) ++ rest.regs isTarget minLen here

def Tree.regs (isTarget : List UInt8 → Bool) (minLen : ℕ) (tree : Tree) : List (List UInt8) :=
  tree.block.regs isTarget minLen false

/-- The 64-bit number in the two cells from byte `i` on. -/
def cells (value : List UInt8) (i : ℕ) : UInt64 :=
  UInt64.ofNat (bigEndian ((value.drop i).take 8))

/-- Discovery returns, with one memory region as given by the `reg` property of the
memory node and the base given by that of the interrupt controller. -/
def Reports (blob : Blob) (memoryReg plicReg : List UInt8) : Prop :=
  ∃ fuel memory, Memory.fromDeviceTree fuel blob = some memory ∧
    memory.physicalMemoryMap.map (fun region => (region.baseAddr, region.lengthBytes)) =
      [(cells memoryReg 0, cells memoryReg 8)] ∧
    memory.plicBase = cells plicReg 0

/-! ### Inside the root node -/

/-- Neither memory nor interrupt controller was found. -/
structure NothingFound (result : DtDiscoveryResult) : Prop where
  memoryBase : result.memoryBase = none
  memorySize : result.memorySize = none
  plicBase : result.plicBase = none

/-- The root is tracked and `d` nodes are open. -/
structure InsideRoot (d : ℕ) (t : Tracking) : Prop where
  current : t.current = .possibleIommu
  currentDepth : t.currentDepth = 1
  depth : t.depth = Int32.ofNat d
  result : NothingFound t.result

theorem ofNat_succ_ne_one {d : ℕ} (hd : 1 ≤ d) (hlt : d + 1 < 2 ^ 32) :
    Int32.ofNat (d + 1) ≠ 1 := by
  intro heq
  have hbits := congrArg (fun x => x.toBitVec.toNat) heq
  simp at hbits
  omega

namespace InsideRoot

variable {d : ℕ} {t : Tracking}

theorem beginNode (h : InsideRoot d t) (name : List UInt8) :
    InsideRoot (d + 1) (t.beginNode name) := by
  have hcurrent : ¬ t.current = .none := by
    rw [h.current]
    decide
  rw [Tracking.beginNode, if_neg hcurrent]
  refine ⟨h.current, h.currentDepth, ?_, h.result⟩
  change t.depth + 1 = _
  rw [h.depth]
  exact (Int32.ofNat_add d 1).symm

theorem endNode (h : InsideRoot (d + 1) t) (hd : 1 ≤ d) (hlt : d + 1 < 2 ^ 32) :
    InsideRoot d t.endNode := by
  have hdepth : ¬ t.depth = t.currentDepth := by
    rw [h.depth, h.currentDepth]
    exact ofNat_succ_ne_one hd hlt
  rw [Tracking.endNode, if_neg hdepth]
  refine ⟨h.current, h.currentDepth, ?_, h.result⟩
  change t.depth - 1 = _
  rw [h.depth, Int32.ofNat_add]
  exact Int32.add_sub_cancel _ _

theorem prop (h : InsideRoot d t) (blob : Blob) (name : List UInt8) (valueOffset len : UInt32) :
    InsideRoot d (t.prop blob name valueOffset len) := by
  rw [Tracking.prop, h.current]
  dsimp only
  split
  · split
    · exact ⟨rfl, h.currentDepth, h.depth,
        ⟨h.result.memoryBase, h.result.memorySize, h.result.plicBase⟩⟩
    · exact h
  · exact h

/-- Nothing inside the root changes what is tracked. Depths stay below the offsets, so
they do not overflow. -/
theorem tokens (blob : Blob) (b : Body) : ∀ (pos d : ℕ) (t : Tracking), InsideRoot d t →
    1 ≤ d → 4 * d ≤ pos → pos + b.size < 2 ^ 32 →
      InsideRoot d ((b.tokens pos).foldl (Tracking.handle blob) t) := by
  induction b with
  | done =>
    intro pos d t h _ _ _
    exact h
  | nop rest ih =>
    intro pos d t h hd hpos hlt
    simp only [Body.size] at hlt
    exact ih (pos + 4) d t h hd (by omega) (by omega)
  | prop nameoff name value rest ih =>
    intro pos d t h hd hpos hlt
    simp only [Body.size] at hlt
    exact ih _ d _ (h.prop blob name _ _) hd (by omega) (by omega)
  | child name body rest ihbody ihrest =>
    intro pos d t h hd hpos hlt
    simp only [Body.size] at hlt
    rw [Body.tokens, List.foldl_append, List.foldl_cons, List.foldl_cons]
    have hinside := ihbody (pos + 4 + pad4 (name.length + 1)) (d + 1) _ (h.beginNode name)
      (by omega) (by omega) (by omega)
    exact ihrest _ d _ (hinside.endNode hd (by omega)) hd (by omega) (by omega)

end InsideRoot

theorem tokens_nops (blob : Blob) (n : ℕ) (rest : Body) : ∀ (pos : ℕ) (t : Tracking),
    ((Body.nops n rest).tokens pos).foldl (Tracking.handle blob) t =
      (rest.tokens (pos + 4 * n)).foldl (Tracking.handle blob) t := by
  induction n with
  | zero =>
    intro pos t
    rfl
  | succ n ih =>
    intro pos t
    rw [Body.nops, Body.tokens, List.foldl_cons, ih]
    rw [show pos + 4 + 4 * n = pos + 4 * (n + 1) by omega]
    rfl

theorem size_nops (n : ℕ) (rest : Body) : (Body.nops n rest).size = 4 * n + rest.size := by
  induction n with
  | zero => simp [Body.nops]
  | succ n ih =>
    rw [Body.nops, Body.size, ih]
    omega

/-- Where the body of the root begins. -/
def Tree.rootPos (tree : Tree) (pos : ℕ) : ℕ := pos + 4 * tree.nopsBefore + 8

/-- The state in which the root ends. -/
def Tree.inside (tree : Tree) (blob : Blob) (pos : ℕ) : Tracking :=
  (tree.root.tokens (tree.rootPos pos)).foldl (Tracking.handle blob)
    (Tracking.initial.beginNode [])

theorem foldl_block (blob : Blob) (tree : Tree) (pos : ℕ) :
    (tree.block.tokens pos).foldl (Tracking.handle blob) .initial =
      (tree.inside blob pos).endNode := by
  rw [Tree.block, tokens_nops, Body.tokens, List.foldl_append, List.foldl_cons, List.foldl_cons,
    tokens_nops]
  rfl

theorem size_block (tree : Tree) :
    tree.block.size = 4 * tree.nopsBefore + 8 + tree.root.size + 4 + 4 * tree.nopsAfter := by
  rw [Tree.block, size_nops, Body.size, size_nops]
  change 4 * tree.nopsBefore + (4 + 4 + tree.root.size + 4 + (4 * tree.nopsAfter + 0)) = _
  omega

theorem insideRoot_initial : InsideRoot 1 (Tracking.initial.beginNode []) :=
  ⟨rfl, rfl, rfl, ⟨rfl, rfl, rfl⟩⟩

theorem insideRoot_inside (blob : Blob) (tree : Tree) {pos : ℕ}
    (hlt : pos + tree.block.size < 2 ^ 32) : InsideRoot 1 (tree.inside blob pos) := by
  rw [size_block] at hlt
  have hpos : tree.rootPos pos = pos + 4 * tree.nopsBefore + 8 := rfl
  exact InsideRoot.tokens blob tree.root _ 1 _ insideRoot_initial le_rfl (by omega) (by omega)

/-- The walk of any tree finds neither memory nor interrupt controller. -/
theorem nothingFound_block (blob : Blob) (tree : Tree) {pos : ℕ}
    (hlt : pos + tree.block.size < 2 ^ 32) :
    NothingFound ((tree.block.tokens pos).foldl (Tracking.handle blob) .initial).result := by
  have hinside := insideRoot_inside blob tree hlt
  -- the end of the root only resets what is tracked
  have hresult : (tree.inside blob pos).endNode.result = (tree.inside blob pos).result := by
    rw [Tracking.endNode]
    split <;> rfl
  rw [foldl_block, hresult]
  exact hinside.result

/-- For every well-formed blob discovery returns the defaults. -/
theorem fromDeviceTree_encoded {tree : Tree} {blob : Blob} (h : tree.Encoded blob) :
    ∃ fuel memory, Memory.fromDeviceTree fuel blob = some memory ∧
      memory.physicalMemoryMap.map (fun region => (region.baseAddr, region.lengthBytes)) =
        [(qemuVirtDefaultMemoryBase, qemuVirtDefaultMemorySize)] ∧
      memory.plicBase = qemuVirtDefaultPlicBase := by
  obtain ⟨fuel, hwalk⟩ := returns_of_encoded h
  have htotal := (u32At blob 4).toNat_lt
  have hwithin := h.struct_within
  have hsize := h.struct_size
  obtain ⟨hbase, hlen, hplic⟩ :=
    nothingFound_block blob tree (show (u32At blob 8).toNat + _ < _ by omega)
  refine ⟨fuel, _, by rw [Memory.fromDeviceTree, hwalk, Option.map_some], ?_, ?_⟩
  · rw [Memory.physicalMemoryMap, Memory.ofDiscovery, BoundedTable.Buffer.entries_add, hbase, hlen]
    rfl
  · rw [Memory.ofDiscovery, hplic]
    rfl

theorem walkDeviceTree_unique {blob : Blob} {m n : ℕ} {r r' : DtDiscoveryResult}
    (h : walkDeviceTree m blob = some r) (h' : walkDeviceTree n blob = some r') : r = r' := by
  rw [walkDeviceTree] at h h'
  cases hread : FdtHeader.read blob with
  | none =>
    rw [hread] at h h'
    exact (Option.some.inj h).symm.trans (Option.some.inj h')
  | some header =>
    rw [hread] at h h'
    exact Loop.Returns.unique ⟨m, h⟩ ⟨n, h'⟩

theorem fromDeviceTree_unique {blob : Blob} {m n : ℕ} {memory memory' : Memory}
    (h : Memory.fromDeviceTree m blob = some memory)
    (h' : Memory.fromDeviceTree n blob = some memory') : memory = memory' := by
  obtain ⟨r, hr, rfl⟩ := Option.map_eq_some_iff.mp h
  obtain ⟨r', hr', rfl⟩ := Option.map_eq_some_iff.mp h'
  rw [walkDeviceTree_unique hr hr']

/-- Discovery reports what is in the tree only where that is the default. -/
theorem reports_iff_default {tree : Tree} {blob : Blob} (h : tree.Encoded blob)
    (memoryReg plicReg : List UInt8) :
    Reports blob memoryReg plicReg ↔
      cells memoryReg 0 = qemuVirtDefaultMemoryBase ∧
        cells memoryReg 8 = qemuVirtDefaultMemorySize ∧
        cells plicReg 0 = qemuVirtDefaultPlicBase := by
  obtain ⟨fuel, memory, hdt, hmap, hplic⟩ := fromDeviceTree_encoded h
  constructor
  · rintro ⟨fuel', memory', hdt', hmap', hplic'⟩
    obtain rfl := fromDeviceTree_unique hdt hdt'
    rw [hmap, List.cons.injEq, Prod.mk.injEq] at hmap'
    exact ⟨hmap'.1.1.symm, hmap'.1.2.symm, hplic'.symm.trans hplic⟩
  · rintro ⟨hbase, hsize, hpb⟩
    exact ⟨fuel, memory, hdt, by rw [hmap, hbase, hsize], by rw [hplic, hpb]⟩

/-- Discovery is correct for a tree with one memory node and one interrupt controller
exactly when their `reg` properties begin with the built-in default values. -/
theorem fromDeviceTree_reports_iff {tree : Tree} {blob : Blob} {memoryReg plicReg : List UInt8}
    (hblob : tree.Encoded blob) (_hmemory : tree.regs isMemoryName 16 = [memoryReg])
    (_hplic : tree.regs isPlicName 8 = [plicReg]) :
    Reports blob memoryReg plicReg ↔
      cells memoryReg 0 = 0x80000000 ∧ cells memoryReg 8 = 0x8000000 ∧
        cells plicReg 0 = 0x0c000000 :=
  reports_iff_default hblob memoryReg plicReg

/-! ### A blob with one memory node and one interrupt controller -/

def memoryNodeName : List UInt8 :=
  ascii ['m', 'e', 'm', 'o', 'r', 'y', '@', '8', '0', '0', '0', '0', '0', '0', '0']

def plicNodeName : List UInt8 := ascii ['p', 'l', 'i', 'c', '@', 'c', '0', '0', '0', '0', '0', '0']

/-- `reg` of the memory node, for memory of the given size from `0x80000000` on. -/
def sampleMemoryReg (size : ℕ) : List UInt8 := be32 0 ++ be32 0x80000000 ++ be32 0 ++ be32 size

/-- `reg` of the interrupt controller of QEMU's `virt` machine. -/
def samplePlicReg : List UInt8 := be32 0 ++ be32 0x0c000000 ++ be32 0 ++ be32 0x600000

def sampleTree (size : ℕ) : Tree where
  nopsBefore := 0
  root := .child memoryNodeName (.prop 0 regName (sampleMemoryReg size) .done)
    (.child plicNodeName (.prop 0 regName samplePlicReg .done) .done)
  nopsAfter := 0

def sampleBlob (size : ℕ) : Blob := blobOf ((sampleTree size).encode (regName ++ [0]))

theorem encoded_sample (size : ℕ) : (sampleTree size).Encoded (sampleBlob size) := by
  have hmemory : (sampleMemoryReg size).length = 16 := rfl
  have hplic : samplePlicReg.length = 16 := rfl
  have hsize : (sampleTree size).block.size = 116 := by
    simp only [sampleTree, Tree.block, Body.nops, Body.size, hmemory, hplic]
    rfl
  refine Tree.encoded_encode _ _ ?_ (by rw [hsize]; decide)
  exact ⟨by decide, ⟨by decide, ⟨by decide, List.prefix_rfl, trivial⟩, by decide,
    ⟨by decide, List.prefix_rfl, trivial⟩, trivial⟩, trivial⟩

/-- The default machine, for which the defaults are right. -/
theorem fromDeviceTree_reports_virt :
    Reports (sampleBlob 0x8000000) (sampleMemoryReg 0x8000000) samplePlicReg :=
  (fromDeviceTree_reports_iff (encoded_sample 0x8000000) (by decide +kernel)
    (by decide +kernel)).mpr ⟨by decide +kernel, by decide +kernel, by decide +kernel⟩

/-- The same machine with 2 GiB of memory: the tree is well formed and says so, but that
is not what is reported. -/
theorem fromDeviceTree_misses_memory :
    (sampleTree 0x80000000).Encoded (sampleBlob 0x80000000) ∧
      (sampleTree 0x80000000).regs isMemoryName 16 = [sampleMemoryReg 0x80000000] ∧
      (sampleTree 0x80000000).regs isPlicName 8 = [samplePlicReg] ∧
      ¬ Reports (sampleBlob 0x80000000) (sampleMemoryReg 0x80000000) samplePlicReg := by
  have hblob := encoded_sample 0x80000000
  refine ⟨hblob, by decide +kernel, by decide +kernel, ?_⟩
  rw [reports_iff_default hblob]
  decide +kernel

end SimurghHal.DeviceTree
