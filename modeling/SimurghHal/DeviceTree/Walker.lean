import SimurghHal.Lib.Loop
import SimurghHal.Manifest.Raw

/-!
# The device tree walker (`hal-riscv64/src/memory.rs`)

The walker reads the tokens of the structure block one after the other. Offsets are
32-bit and wrap. The loop has no bound in the source, so it is run with fuel here; it
returns when some amount of fuel is enough.

`walk_device_tree` is cut in two: `nextToken` reads one token and moves the offset, and
`Tracking.handle` is what the loop then does with it.
-/

namespace SimurghHal.DeviceTree

open Manifest BoundedTable

/-- The memory from the address of the blob on. -/
abbrev Blob := ℕ → UInt8

/-- The number written by these bytes, most significant first. -/
def bigEndian (bytes : List UInt8) : ℕ :=
  bytes.foldl (fun n byte => n * 256 + byte.toNat) 0

/-- The big-endian word at a position. -/
def u32At (blob : Blob) (pos : ℕ) : UInt32 :=
  UInt32.ofNat (bigEndian [blob pos, blob (pos + 1), blob (pos + 2), blob (pos + 3)])

/-- `read_u32_at`. -/
def readU32At (blob : Blob) (offset : UInt32) : UInt32 := u32At blob offset.toNat

/-- The bytes up to the next zero byte, among the given number of bytes. -/
def scanCstr (blob : Blob) : ℕ → ℕ → Option (List UInt8)
  | 0, _ => none
  | left + 1, pos =>
    if blob pos = 0 then some []
    else (scanCstr blob left (pos + 1)).map (blob pos :: ·)

/-- `read_cstr_at`, or `none` when there is no zero byte in the whole address space. -/
def readCstrAt (blob : Blob) (offset : UInt32) : Option (List UInt8) :=
  scanCstr blob (2 ^ 64) offset.toNat

def fdtMagic : UInt32 := 0xd00dfeed

structure FdtHeader where
  magic : UInt32
  totalsize : UInt32
  offDtStruct : UInt32
  offDtStrings : UInt32
  offMemRsvmap : UInt32
  version : UInt32
  lastCompVersion : UInt32
  bootCpuidPhys : UInt32
  sizeDtStrings : UInt32
  sizeDtStruct : UInt32
  deriving DecidableEq, Repr

/-- `FdtHeader::read`. -/
def FdtHeader.read (blob : Blob) : Option FdtHeader :=
  let header : FdtHeader :=
    ⟨u32At blob 0, u32At blob 4, u32At blob 8, u32At blob 12, u32At blob 16, u32At blob 20,
      u32At blob 24, u32At blob 28, u32At blob 32, u32At blob 36⟩
  if header.magic ≠ fdtMagic then none else some header

/-- `FdtWalker`, at an offset. -/
structure FdtWalker where
  structStart : UInt32
  structEnd : UInt32
  stringsStart : UInt32
  offset : UInt32
  deriving DecidableEq, Repr

/-- `FdtWalker::new`. -/
def FdtWalker.new (header : FdtHeader) : FdtWalker where
  structStart := header.offDtStruct
  structEnd := header.offDtStruct + header.sizeDtStruct
  stringsStart := header.offDtStrings
  offset := header.offDtStruct

/-- `align_offset`. -/
def FdtWalker.alignOffset (walker : FdtWalker) : FdtWalker :=
  { walker with offset := (walker.offset + 3) &&& ~~~3 }

def fdtBeginNode : UInt32 := 1
def fdtEndNode : UInt32 := 2
def fdtProp : UInt32 := 3
def fdtNop : UInt32 := 4
def fdtEnd : UInt32 := 9

/-- The tokens after which the loop goes on. A property is known by its name, the offset
of its value and the length of its value. -/
inductive Token where
  | beginNode (name : List UInt8)
  | endNode
  | prop (name : List UInt8) (valueOffset len : UInt32)
  | nop
  deriving DecidableEq, Repr

/-- The part of the loop body that reads. `.error` is `break`. -/
def nextToken (blob : Blob) (walker : FdtWalker) : Option (Except Unit (Token × FdtWalker)) :=
  if walker.offset ≥ walker.structEnd then some (.error ())
  else
    let token := readU32At blob walker.offset
    let offset := walker.offset + 4
    if token = fdtBeginNode then
      (readCstrAt blob offset).map fun name =>
        .ok (.beginNode name,
          { walker with offset := offset + (UInt32.ofNat name.length + 1) }.alignOffset)
    else if token = fdtEndNode then some (.ok (.endNode, { walker with offset := offset }))
    else if token = fdtProp then
      let len := readU32At blob offset
      let nameoff := readU32At blob (offset + 4)
      let valueOffset := offset + 8
      (readCstrAt blob (walker.stringsStart + nameoff)).map fun name =>
        .ok (.prop name valueOffset len,
          { walker with offset := valueOffset + len }.alignOffset)
    else if token = fdtNop then some (.ok (.nop, { walker with offset := offset }))
    else some (.error ())

/-- `DtDiscoveryResult`. -/
structure DtDiscoveryResult where
  plicBase : Option UInt64
  iommuPresent : Bool
  memoryBase : Option UInt64
  memorySize : Option UInt64
  deriving DecidableEq, Repr

def DtDiscoveryResult.default : DtDiscoveryResult := ⟨none, false, none, none⟩

/-- `CurrentNode`. -/
inductive CurrentNode where
  | none
  | memory
  | plic
  | possibleIommu
  deriving DecidableEq, Repr

/-- The variables of `walk_device_tree` beside the walker. -/
structure Tracking where
  result : DtDiscoveryResult
  current : CurrentNode
  currentDepth : Int32
  depth : Int32
  deriving DecidableEq

def Tracking.initial : Tracking := ⟨.default, .none, -1, 0⟩

/-- The bytes of an ASCII text. -/
def ascii (text : List Char) : List UInt8 := text.map fun c => UInt8.ofNat c.toNat

/-- `name.starts_with(b"memory@") || name == b"memory"`. -/
def isMemoryName (name : List UInt8) : Bool :=
  (ascii ['m', 'e', 'm', 'o', 'r', 'y', '@']).isPrefixOf name ||
    name == ascii ['m', 'e', 'm', 'o', 'r', 'y']

/-- `name.starts_with(b"plic@")`. -/
def isPlicName (name : List UInt8) : Bool := (ascii ['p', 'l', 'i', 'c', '@']).isPrefixOf name

def regName : List UInt8 := ascii ['r', 'e', 'g']
def compatibleName : List UInt8 := ascii ['c', 'o', 'm', 'p', 'a', 't', 'i', 'b', 'l', 'e']

/-- Some window of the bytes is the given text (`windows(n).any`). -/
def containsText (text bytes : List UInt8) : Bool := bytes.tails.any text.isPrefixOf

/-- Two words as one 64-bit number. -/
def pair (hi lo : UInt32) : UInt64 := hi.toUInt64 <<< 32 ||| lo.toUInt64

namespace Tracking

/-- A node begins. Only when no node is tracked, the new one is. -/
def beginNode (t : Tracking) (name : List UInt8) : Tracking :=
  let depth := t.depth + 1
  if t.current = .none then
    if isMemoryName name then { t with depth, current := .memory, currentDepth := depth }
    else if isPlicName name then { t with depth, current := .plic, currentDepth := depth }
    else { t with depth, current := .possibleIommu, currentDepth := depth }
  else { t with depth }

/-- A node ends. -/
def endNode (t : Tracking) : Tracking :=
  if t.depth = t.currentDepth then
    { t with current := .none, currentDepth := -1, depth := t.depth - 1 }
  else { t with depth := t.depth - 1 }

/-- A property of the innermost node, read as one of the tracked node. -/
def prop (blob : Blob) (t : Tracking) (name : List UInt8) (valueOffset len : UInt32) : Tracking :=
  match t.current with
  | .memory =>
    if name = regName ∧ len ≥ 16 then
      let base := readU32At blob valueOffset
      let baseLo := readU32At blob (valueOffset + 4)
      let sizeHi := readU32At blob (valueOffset + 8)
      let sizeLo := readU32At blob (valueOffset + 12)
      { t with
        result.memoryBase := some (pair base baseLo)
        result.memorySize := some (pair sizeHi sizeLo) }
    else t
  | .plic =>
    if name = regName ∧ len ≥ 8 then
      let baseHi := readU32At blob valueOffset
      let baseLo := readU32At blob (valueOffset + 4)
      { t with result.plicBase := some (pair baseHi baseLo) }
    else t
  | .possibleIommu =>
    if name = compatibleName then
      let compat := (List.range len.toNat).map fun i => blob (valueOffset.toNat + i)
      if containsText (ascii ['i', 'o', 'm', 'm', 'u']) compat then
        { t with result.iommuPresent := true }
      else t
    else t
  | .none => t

/-- The part of the loop body that acts on a token. -/
def handle (blob : Blob) (t : Tracking) : Token → Tracking
  | .beginNode name => t.beginNode name
  | .endNode => t.endNode
  | .prop name valueOffset len => t.prop blob name valueOffset len
  | .nop => t

end Tracking

/-- The loop body of `walk_device_tree`. -/
def walkBody (blob : Blob) (s : FdtWalker × Tracking) :
    Option (Except DtDiscoveryResult (FdtWalker × Tracking)) :=
  (nextToken blob s.1).map fun
    | .error () => .error s.2.result
    | .ok (token, walker) => .ok (walker, s.2.handle blob token)

/-- `walk_device_tree` with bounded fuel. -/
def walkDeviceTree (fuel : ℕ) (blob : Blob) : Option DtDiscoveryResult :=
  match FdtHeader.read blob with
  | none => some .default
  | some header => Loop.whileLoop (walkBody blob) fuel (FdtWalker.new header, .initial)

/-! ### Memory -/

def qemuVirtDefaultPlicBase : UInt64 := 0x0c000000
def qemuVirtDefaultMemoryBase : UInt64 := 0x80000000
def qemuVirtDefaultMemorySize : UInt64 := 128 * 1024 * 1024

/-- `Memory` of `hal-riscv64`. -/
structure Memory where
  regions : Buffer MemoryRegionRaw maxMemoryRegions
  iommuPresent : Bool
  plicBase : UInt64

/-- `physical_memory_map`. -/
def Memory.physicalMemoryMap (memory : Memory) : List MemoryRegionRaw := memory.regions.entries

/-- What `from_device_tree` makes of the walk. -/
def Memory.ofDiscovery (dt : DtDiscoveryResult) : Memory where
  regions := (⟨Vector.replicate _ .zero, 0, Nat.zero_le _⟩ : Buffer _ _).add (by decide)
    { baseAddr := dt.memoryBase.getD qemuVirtDefaultMemoryBase
      lengthBytes := dt.memorySize.getD qemuVirtDefaultMemorySize
      kind := .usable
      behindIommu := dt.iommuPresent }
  iommuPresent := dt.iommuPresent
  plicBase := dt.plicBase.getD qemuVirtDefaultPlicBase

/-- `Memory::from_device_tree` with bounded fuel. -/
def Memory.fromDeviceTree (fuel : ℕ) (blob : Blob) : Option Memory :=
  (walkDeviceTree fuel blob).map Memory.ofDiscovery

end SimurghHal.DeviceTree
