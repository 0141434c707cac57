import SimurghHal.DeviceTree.Walker
import SimurghHal.Lib.Words

/-!
# Device trees and their encoding

A device tree as the specification of the format has it, the memory that holds one, and
the tokens the walker reads from such memory: those of the tree, in order, each at the
offset where it stands.
-/

namespace SimurghHal.DeviceTree

/-- What stands between the begin and the end of a node. A property is stored with the
offset of its name in the strings block. -/
inductive Body where
  | done
  | nop (rest : Body)
  | prop (nameoff : UInt32) (name value : List UInt8) (rest : Body)
  | child (name : List UInt8) (body rest : Body)
  deriving DecidableEq, Repr

/-- Rounds up to a multiple of 4. -/
def pad4 (n : ℕ) : ℕ := (n + 3) / 4 * 4

namespace Body

/-- Length in bytes of the encoding. -/
def size : Body → ℕ
  | .done => 0
  | .nop rest => 4 + rest.size
  | .prop _ _ value rest => 12 + pad4 value.length + rest.size
  | .child name body rest => 4 + pad4 (name.length + 1) + body.size + 4 + rest.size

/-- The tokens of a body that is encoded from position `pos` on. -/
def tokens : Body → ℕ → List Token
  | .done, _ => []
  | .nop rest, pos => .nop :: rest.tokens (pos + 4)
  | .prop _ name value rest, pos =>
    .prop name (UInt32.ofNat (pos + 12)) (UInt32.ofNat value.length) ::
      rest.tokens (pos + 12 + pad4 value.length)
  | .child name body rest, pos =>
    let start := pos + 4 + pad4 (name.length + 1)
    .beginNode name :: body.tokens start ++
      .endNode :: rest.tokens (start + body.size + 4)

end Body

/-- The memory holds these bytes. -/
def HoldsBytes (blob : Blob) (pos : ℕ) (bytes : List UInt8) : Prop :=
  ∀ (i : ℕ) (h : i < bytes.length), blob (pos + i) = bytes[i]

/-- The memory holds this string with its terminating zero byte. -/
def HoldsCstr (blob : Blob) (pos : ℕ) (name : List UInt8) : Prop :=
  HoldsBytes blob pos name ∧ blob (pos + name.length) = 0 ∧ 0 ∉ name

/-- The memory holds the encoding of a body from `pos` on, with the names of the
properties in the strings block between `strings` and `stringsEnd`. -/
def Body.At (blob : Blob) (strings stringsEnd : ℕ) : Body → ℕ → Prop
  | .done, _ => True
  | .nop rest, pos => u32At blob pos = fdtNop ∧ rest.At blob strings stringsEnd (pos + 4)
  | .prop nameoff name value rest, pos =>
    u32At blob pos = fdtProp ∧ (u32At blob (pos + 4)).toNat = value.length ∧
      u32At blob (pos + 8) = nameoff ∧ HoldsBytes blob (pos + 12) value ∧
      HoldsCstr blob (strings + nameoff.toNat) name ∧
      strings + nameoff.toNat + name.length < stringsEnd ∧
      rest.At blob strings stringsEnd (pos + 12 + pad4 value.length)
  | .child name body rest, pos =>
    let start := pos + 4 + pad4 (name.length + 1)
    u32At blob pos = fdtBeginNode ∧ HoldsCstr blob (pos + 4) name ∧
      body.At blob strings stringsEnd start ∧ u32At blob (start + body.size) = fdtEndNode ∧
      rest.At blob strings stringsEnd (start + body.size + 4)

/-- A device tree: its root node and the padding tokens around it. -/
structure Tree where
  nopsBefore : ℕ
  root : Body
  nopsAfter : ℕ
  deriving DecidableEq, Repr

/-- A number of padding tokens in front. -/
def Body.nops : ℕ → Body → Body
  | 0, rest => rest
  | n + 1, rest => .nop (Body.nops n rest)

/-- The structure block without its final token. The name of the root is empty. -/
def Tree.block (tree : Tree) : Body :=
  .nops tree.nopsBefore (.child [] tree.root (.nops tree.nopsAfter .done))

/-- The memory holds a blob for this tree. Positions in the header are relative to its
start and the structure block is aligned to 4 bytes. -/
structure Tree.Encoded (tree : Tree) (blob : Blob) : Prop where
  magic : u32At blob 0 = fdtMagic
  struct_aligned : (u32At blob 8).toNat % 4 = 0
  struct_size : (u32At blob 36).toNat = tree.block.size + 4
  struct_within : (u32At blob 8).toNat + (u32At blob 36).toNat ≤ (u32At blob 4).toNat
  strings_within : (u32At blob 12).toNat + (u32At blob 32).toNat ≤ (u32At blob 4).toNat
  block : tree.block.At blob (u32At blob 12).toNat
    ((u32At blob 12).toNat + (u32At blob 32).toNat) (u32At blob 8).toNat
  last : u32At blob ((u32At blob 8).toNat + tree.block.size) = fdtEnd

/-! ### Reading -/

theorem pad4_mod (n : ℕ) : pad4 n % 4 = 0 := Nat.mul_mod_left _ _

theorem le_pad4 (n : ℕ) : n ≤ pad4 n := by
  simp only [pad4]
  omega

/-- Padding does not depend on the aligned part in front. -/
theorem pad4_add {m : ℕ} (hm : m % 4 = 0) (n : ℕ) : pad4 (m + n) = m + pad4 n := by
  simp only [pad4]
  omega

theorem scanCstr_of_holds {blob : Blob} : ∀ {name : List UInt8} {pos left : ℕ},
    HoldsCstr blob pos name → name.length < left → scanCstr blob left pos = some name := by
  intro name
  induction name with
  | nil =>
    intro pos left h hlen
    obtain ⟨left, rfl⟩ := Nat.exists_eq_succ_of_ne_zero (Nat.ne_of_gt hlen)
    have hend : blob pos = 0 := h.2.1
    rw [scanCstr, if_pos hend]
  | cons byte name ih =>
    intro pos left h hlen
    obtain ⟨left, rfl⟩ := Nat.exists_eq_succ_of_ne_zero (Nat.ne_of_gt (Nat.zero_lt_of_lt hlen))
    obtain ⟨hbytes, hend, hzero⟩ := h
    have hfirst : blob pos = byte := hbytes 0 (Nat.succ_pos _)
    have hrest : HoldsCstr blob (pos + 1) name := by
      refine ⟨fun i hi => ?_, ?_, fun hmem => hzero (List.mem_cons_of_mem _ hmem)⟩
      · have := hbytes (i + 1) (Nat.succ_lt_succ hi)
        rw [Nat.add_assoc, Nat.add_comm 1 i]
        exact this
      · rw [Nat.add_assoc, Nat.add_comm 1 name.length]
        exact hend
    have hne : blob pos ≠ 0 := by
      rw [hfirst]
      exact fun h0 => hzero (h0 ▸ List.mem_cons_self)
    rw [scanCstr, if_neg hne, ih hrest (Nat.lt_of_succ_lt_succ hlen), hfirst]
    rfl

theorem readCstrAt_of_holds {blob : Blob} {name : List UInt8} {pos : ℕ}
    (h : HoldsCstr blob pos name) (hpos : pos + name.length < 2 ^ 32) :
    readCstrAt blob (UInt32.ofNat pos) = some name := by
  rw [readCstrAt, UInt32.toNat_ofNat_of_lt' (by simp only [UInt32.size]; omega)]
  exact scanCstr_of_holds h (by omega)

theorem readU32At_ofNat {blob : Blob} {pos : ℕ} (hpos : pos < 2 ^ 32) :
    readU32At blob (UInt32.ofNat pos) = u32At blob pos := by
  rw [readU32At, UInt32.toNat_ofNat_of_lt' (by simp only [UInt32.size]; omega)]

/-- The walker moved to a position. -/
def FdtWalker.moved (walker : FdtWalker) (pos : ℕ) : FdtWalker :=
  { walker with offset := UInt32.ofNat pos }

theorem alignOffset_moved (walker : FdtWalker) (pos : ℕ) :
    (walker.moved pos).alignOffset = walker.moved (pad4 pos) := by
  have hword : (UInt32.ofNat pos + 3) &&& ~~~3 = UInt32.ofNat (pad4 pos) := by
    apply UInt32.toNat_inj.mp
    have hmask : (~~~(3 : UInt32)).toNat = 2 ^ 32 - 2 ^ 2 := by decide
    have hsum : (UInt32.ofNat pos + 3).toNat = (pos + 3) % 2 ^ 32 := by
      rw [UInt32.toNat_add, UInt32.toNat_ofNat', Nat.mod_add_mod]
      rfl
    rw [UInt32.toNat_and, hmask, hsum, Words.and_run _ (by omega), UInt32.toNat_ofNat', pad4]
    omega
  rw [FdtWalker.alignOffset, FdtWalker.moved, hword, FdtWalker.moved]

section Tokens

variable {blob : Blob} (walker : FdtWalker) {pos : ℕ}

theorem not_structEnd_le (hpos : pos < walker.structEnd.toNat) :
    ¬ (walker.moved pos).offset ≥ (walker.moved pos).structEnd := by
  have hlt := walker.structEnd.toNat_lt
  rw [ge_iff_le, UInt32.le_iff_toNat_le]
  change ¬ walker.structEnd.toNat ≤ (UInt32.ofNat pos).toNat
  rw [UInt32.toNat_ofNat_of_lt' (by simp only [UInt32.size]; omega)]
  omega

theorem readU32At_moved (hpos : pos < walker.structEnd.toNat) :
    readU32At blob (walker.moved pos).offset = u32At blob pos :=
  readU32At_ofNat (hpos.trans walker.structEnd.toNat_lt)

theorem moved_add (n : ℕ) :
    { walker with offset := (walker.moved pos).offset + UInt32.ofNat n } = walker.moved (pos + n) := by
  rw [FdtWalker.moved, FdtWalker.moved, UInt32.ofNat_add]

theorem nextToken_nop (hpos : pos < walker.structEnd.toNat) (h : u32At blob pos = fdtNop) :
    nextToken blob (walker.moved pos) = some (.ok (.nop, walker.moved (pos + 4))) := by
  rw [nextToken, if_neg (not_structEnd_le walker hpos), readU32At_moved walker hpos, h,
    ← moved_add walker 4]
  rfl

theorem nextToken_endNode (hpos : pos < walker.structEnd.toNat)
    (h : u32At blob pos = fdtEndNode) :
    nextToken blob (walker.moved pos) = some (.ok (.endNode, walker.moved (pos + 4))) := by
  rw [nextToken, if_neg (not_structEnd_le walker hpos), readU32At_moved walker hpos, h,
    ← moved_add walker 4]
  rfl

theorem nextToken_end (hpos : pos < walker.structEnd.toNat) (h : u32At blob pos = fdtEnd) :
    nextToken blob (walker.moved pos) = some (.error ()) := by
  rw [nextToken, if_neg (not_structEnd_le walker hpos), readU32At_moved walker hpos, h]
  rfl

theorem nextToken_beginNode {name : List UInt8} (hpos : pos < walker.structEnd.toNat)
    (h : u32At blob pos = fdtBeginNode) (hname : HoldsCstr blob (pos + 4) name)
    (haligned : pos % 4 = 0) (hnext : pos + 4 + pad4 (name.length + 1) < 2 ^ 32) :
    nextToken blob (walker.moved pos) =
      some (.ok (.beginNode name, walker.moved (pos + 4 + pad4 (name.length + 1)))) := by
  have hpad : pad4 (pos + 4 + (name.length + 1)) = pos + 4 + pad4 (name.length + 1) :=
    pad4_add (by omega) _
  have hle := le_pad4 (name.length + 1)
  have hsum : (walker.moved pos).offset + 4 = UInt32.ofNat (pos + 4) := (UInt32.ofNat_add ..).symm
  have hafter : UInt32.ofNat (pos + 4) + (UInt32.ofNat name.length + 1) =
      UInt32.ofNat (pos + 4 + (name.length + 1)) := by
    rw [UInt32.ofNat_add (pos + 4), UInt32.ofNat_add name.length]
    rfl
  rw [nextToken, if_neg (not_structEnd_le walker hpos), readU32At_moved walker hpos, h]
  dsimp only
  rw [if_pos rfl, hsum, readCstrAt_of_holds hname (by omega), Option.map_some, hafter]
  change some (Except.ok (_, (walker.moved (pos + 4 + (name.length + 1))).alignOffset)) = _
  rw [alignOffset_moved, hpad]

theorem nextToken_prop {name : List UInt8} {nameoff : UInt32} {len : ℕ}
    (hpos : pos < walker.structEnd.toNat) (h : u32At blob pos = fdtProp)
    (hlen : (u32At blob (pos + 4)).toNat = len) (hnameoff : u32At blob (pos + 8) = nameoff)
    (hname : HoldsCstr blob (walker.stringsStart.toNat + nameoff.toNat) name)
    (hstrings : walker.stringsStart.toNat + nameoff.toNat + name.length < 2 ^ 32)
    (haligned : pos % 4 = 0) (hnext : pos + 12 + pad4 len < 2 ^ 32) :
    nextToken blob (walker.moved pos) =
      some (.ok (.prop name (UInt32.ofNat (pos + 12)) (UInt32.ofNat len),
        walker.moved (pos + 12 + pad4 len))) := by
  have hpad : pad4 (pos + 12 + len) = pos + 12 + pad4 len := pad4_add (by omega) _
  have hsum : (walker.moved pos).offset + 4 = UInt32.ofNat (pos + 4) := (UInt32.ofNat_add ..).symm
  have hsum₂ : UInt32.ofNat (pos + 4) + 4 = UInt32.ofNat (pos + 8) := (UInt32.ofNat_add ..).symm
  have hsum₃ : UInt32.ofNat (pos + 4) + 8 = UInt32.ofNat (pos + 12) := (UInt32.ofNat_add ..).symm
  have hlenWord : u32At blob (pos + 4) = UInt32.ofNat len := by
    rw [← hlen, UInt32.ofNat_toNat]
  have hstart : (walker.moved pos).stringsStart + nameoff =
      UInt32.ofNat (walker.stringsStart.toNat + nameoff.toNat) := by
    rw [UInt32.ofNat_add, UInt32.ofNat_toNat, UInt32.ofNat_toNat]
    rfl
  rw [nextToken, if_neg (not_structEnd_le walker hpos), readU32At_moved walker hpos, h]
  dsimp only
  rw [if_neg (by decide), if_neg (by decide), if_pos rfl, hsum, hsum₂, hsum₃,
    readU32At_ofNat (by omega), readU32At_ofNat (by omega), hnameoff, hlenWord, hstart,
    readCstrAt_of_holds hname hstrings, Option.map_some, ← UInt32.ofNat_add]
  change some (Except.ok (_, (walker.moved (pos + 12 + len)).alignOffset)) = _
  rw [alignOffset_moved, hpad]

end Tokens

theorem Body.size_mod (b : Body) : b.size % 4 = 0 := by
  induction b with
  | done => rfl
  | nop rest ih =>
    simp only [size]
    omega
  | prop nameoff name value rest ih =>
    have := pad4_mod value.length
    simp only [size]
    omega
  | child name body rest ihbody ihrest =>
    have := pad4_mod (name.length + 1)
    simp only [size]
    omega

end SimurghHal.DeviceTree
