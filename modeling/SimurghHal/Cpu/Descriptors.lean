import SimurghHal.Lib.ByteMemory
import SimurghHal.Lib.Words
import SimurghHal.Cpu.Trampoline

/-!
# Descriptor tables of x86_64 (`bootstrap_current_core` of `hal-x86_64/src/cpu.rs`)

`bootstrap_current_core` loads a flat GDT, fills the 256 gates of the IDT with the addresses of
the stubs and loads it. Every gate is 16 bytes with the address of its stub in three pieces.

What the CPU does with the tables is modelled on the bytes in memory (`vectorTo`), up to the
point where it would need a task state segment, which the code does not build. It writes to the
GDT too, where it marks the descriptors that are in use. The result is that every vector leads to
its own stub, and so to `dispatch_vector` with its own number.
-/

namespace SimurghHal.Cpu.X86_64

open ByteMemory Words

/-! ### The code -/

inductive SegmentSelector where
  | null | kernelCode | kernelData | userCode | userData
  deriving DecidableEq, Repr

def SegmentSelector.value : SegmentSelector → UInt16
  | .null => 0x00
  | .kernelCode => 0x08
  | .kernelData => 0x10
  | .userCode => 0x1B
  | .userData => 0x23

/-- `GDT`. -/
def gdt : List UInt64 := [
  0x0000000000000000,
  0x00AF9A000000FFFF,
  0x00AF92000000FFFF,
  0x00AFFA000000FFFF,
  0x00AFF2000000FFFF]

/-- `DescriptorTablePointer`. -/
structure DescriptorTablePointer where
  limit : UInt16
  base : UInt64
  deriving DecidableEq, Repr

structure IdtEntry where
  offsetLow : UInt16
  selector : UInt16
  ist : UInt8
  typeAttr : UInt8
  offsetMid : UInt16
  offsetHigh : UInt32
  reserved : UInt32
  deriving DecidableEq, Repr

namespace IdtEntry

/-- `IdtEntry::gate`. -/
def gate (handler : UInt64) : IdtEntry where
  offsetLow := (handler &&& 0xFFFF).toUInt16
  selector := SegmentSelector.kernelCode.value
  ist := 0
  typeAttr := 0b10001110
  offsetMid := ((handler >>> 16) &&& 0xFFFF).toUInt16
  offsetHigh := ((handler >>> 32) &&& 0xFFFFFFFF).toUInt32
  reserved := 0

/-- The entry as `repr(C)` lays it out. -/
def toBytes (e : IdtEntry) : List UInt8 :=
  leBytes 2 e.offsetLow.toNat ++ leBytes 2 e.selector.toNat ++ [e.ist, e.typeAttr] ++
    leBytes 2 e.offsetMid.toNat ++ leBytes 4 e.offsetHigh.toNat ++ leBytes 4 e.reserved.toNat

end IdtEntry

/-- Where the linker puts the tables. -/
structure Placement where
  gdt : UInt64
  idt : UInt64
  isrStubTable : UInt64
  gdt_apart : ∀ k < 40, 4096 ≤ (gdt + UInt64.ofNat k - idt).toNat
  tables_apart : ∀ k < 40, 2048 ≤ (gdt + UInt64.ofNat k - isrStubTable).toNat
  isrStubTable_apart : ∀ k < 2048, 4096 ≤ (isrStubTable + UInt64.ofNat k - idt).toNat

/-- The registers and the memory that concern the tables. The memory can be written to. -/
structure CoreTables where
  gdtr : DescriptorTablePointer
  idtr : DescriptorTablePointer
  cs : UInt16
  ds : UInt16
  es : UInt16
  fs : UInt16
  gs : UInt16
  ss : UInt16
  rsp : UInt64
  mem : Bytes

/-! ### What the CPU checks -/

/-- A segment descriptor. -/
def descriptor (t : CoreTables) (selector : UInt16) : Option UInt64 :=
  let index := selector.toNat / 8
  if index = 0 ∨ selector.toNat % 8 / 4 = 1 ∨ t.gdtr.limit.toNat < 8 * index + 7 then none
  else some (load64 t.mem (t.gdtr.base + UInt64.ofNat (8 * index)))

def descriptorPrivilege (d : UInt64) : ℕ := (d.toNat / 2 ^ 45) % 4

/-- Present, writable data. -/
def IsData (d : UInt64) : Prop :=
  bit d 47 = true ∧ bit d 44 = true ∧ bit d 43 = false ∧ bit d 41 = true

/-- Present 64-bit code that is not conforming. -/
def IsCode (d : UInt64) : Prop :=
  bit d 47 = true ∧ bit d 44 = true ∧ bit d 43 = true ∧ bit d 42 = false ∧ bit d 53 = true ∧
    bit d 54 = false

instance (d : UInt64) : Decidable (IsData d) := inferInstanceAs (Decidable (_ ∧ _ ∧ _ ∧ _))

instance (d : UInt64) : Decidable (IsCode d) :=
  inferInstanceAs (Decidable (_ ∧ _ ∧ _ ∧ _ ∧ _ ∧ _))

/-- Every selector but the null one names a descriptor of its kind, at the level in its low
bits. -/
theorem gdt_selectors (selector : SegmentSelector) (h : selector ≠ .null) :
    ∃ d, gdt[selector.value.toNat / 8]? = some d ∧
      descriptorPrivilege d = selector.value.toNat % 4 ∧
      (IsCode d ↔ selector = .kernelCode ∨ selector = .userCode) ∧
      (IsData d ↔ selector = .kernelData ∨ selector = .userData) := by
  cases selector with
  | null => exact absurd rfl h
  | kernelCode => exact ⟨_, rfl, by decide, by decide, by decide⟩
  | kernelData => exact ⟨_, rfl, by decide, by decide, by decide⟩
  | userCode => exact ⟨_, rfl, by decide, by decide, by decide⟩
  | userData => exact ⟨_, rfl, by decide, by decide, by decide⟩

/-- A selector for data at the privilege of the kernel can be loaded. -/
def loadableData (t : CoreTables) (selector : UInt16) : Bool :=
  match descriptor t selector with
  | none => false
  | some d => IsData d ∧ descriptorPrivilege d = 0 ∧ selector.toNat % 4 = 0

def loadableCode (t : CoreTables) (selector : UInt16) : Bool :=
  match descriptor t selector with
  | none => false
  | some d => IsCode d ∧ descriptorPrivilege d = 0 ∧ selector.toNat % 4 = 0

/-- The byte of a descriptor where the CPU sets a bit when it loads the selector. -/
def accessByte (t : CoreTables) (selector : UInt16) : UInt64 :=
  t.gdtr.base + UInt64.ofNat (8 * (selector.toNat / 8) + 5)

def accessed (mem : Bytes) (addr : UInt64) : Bytes := fun a =>
  if a = addr then mem a ||| 1 else mem a

def loadData (t : CoreTables) (selector : UInt16) : Option CoreTables :=
  if loadableData t selector then some { t with mem := accessed t.mem (accessByte t selector) }
  else none

def loadCode (t : CoreTables) (selector : UInt16) : Option CoreTables :=
  if loadableCode t selector then some { t with mem := accessed t.mem (accessByte t selector) }
  else none

def push (t : CoreTables) (value : UInt64) : CoreTables :=
  { t with rsp := t.rsp - 8, mem := store64 t.mem (t.rsp - 8) value }

/-- The upper bits of an address repeat the highest of its 48. -/
def Canonical (a : UInt64) : Prop := a.toNat < 2 ^ 47 ∨ 2 ^ 64 - 2 ^ 47 ≤ a.toNat

instance : DecidablePred Canonical :=
  fun a => inferInstanceAs (Decidable (a.toNat < 2 ^ 47 ∨ 2 ^ 64 - 2 ^ 47 ≤ a.toNat))

/-- `retfq`, which pops an address and a selector. -/
def farReturn (t : CoreTables) : Option CoreTables :=
  let selector := (load64 t.mem (t.rsp + 8)).toUInt16
  if Canonical (load64 t.mem t.rsp) then
    (loadCode t selector).map fun t => { t with cs := selector, rsp := t.rsp + 16 }
  else none

/-- Where an interrupt or an exception leads. -/
inductive Vectoring where
  | fault
  /-- The stack would have to come from a task state segment. -/
  | taskState
  | entered (rip : UInt64) (cs : UInt16) (interruptsOn : Bool)
  deriving DecidableEq, Repr

/-- Delivery of a vector at the given privilege level, by the gate in memory. -/
def vectorTo (t : CoreTables) (cpl : ℕ) (vector : UInt8) : Vectoring :=
  let a := t.idtr.base + UInt64.ofNat (16 * vector.toNat)
  let attr := t.mem (a + 5)
  let selector := UInt16.ofNat (readLe t.mem (a + 2) 2)
  let offset := readLe t.mem a 2 + 2 ^ 16 * readLe t.mem (a + 6) 2 +
    2 ^ 32 * readLe t.mem (a + 8) 4
  if t.idtr.limit.toNat < 16 * vector.toNat + 15 then .fault
  else if attr &&& 0x80 = 0 ∨ attr &&& 0x1E ≠ 0x0E then .fault
  else match descriptor t selector with
    | none => .fault
    | some d =>
      if ¬ IsCode d ∨ cpl < descriptorPrivilege d then .fault
      else if descriptorPrivilege d < cpl ∨ t.mem (a + 4) &&& 7 ≠ 0 then .taskState
      else if ¬ Canonical (UInt64.ofNat offset) then .fault
      else .entered (UInt64.ofNat offset) selector (attr &&& 0x01 != 0)

/-! ### Bringing up a core -/

/-- `isr_stub_address`. -/
def isrStubAddress (p : Placement) (mem : Bytes) (vector : ℕ) : UInt64 :=
  load64 mem (p.isrStubTable + UInt64.ofNat (8 * vector))

/-- `load_gdt`, unless the CPU refuses one of the selectors. The far return goes to the
instruction `behind` it. -/
def loadGdt (p : Placement) (behind : UInt64) (t : CoreTables) : Option CoreTables := do
  let kdata := SegmentSelector.kernelData.value
  let kcode := SegmentSelector.kernelCode.value
  let t := { t with gdtr := ⟨5 * 8 - 1, p.gdt⟩ }
  let t ← loadData t kdata
  let t ← loadData { t with ds := kdata } kdata
  let t ← loadData { t with es := kdata } kdata
  let t ← loadData { t with fs := kdata } kdata
  let t ← loadData { t with gs := kdata } kdata
  farReturn (push (push { t with ss := kdata } kcode.toUInt64) behind)

/-- What the loop writes for a vector. -/
def gateBytes (p : Placement) (mem : Bytes) (vector : ℕ) : List UInt8 :=
  (IdtEntry.gate (isrStubAddress p mem vector)).toBytes

/-- The loop that fills the IDT. -/
def fillIdt (p : Placement) (mem : Bytes) : Bytes := fillArray p.idt 16 (gateBytes p) 256 mem

/-- `load_idt`. -/
def loadIdt (p : Placement) (t : CoreTables) : CoreTables :=
  { t with idtr := ⟨256 * 16 - 1, p.idt⟩ }

/-- `bootstrap_current_core`. -/
def bootstrapCurrentCore (p : Placement) (behind : UInt64) (t : CoreTables) : Option CoreTables :=
  (loadGdt p behind t).map fun t => loadIdt p { t with mem := fillIdt p t.mem }

/-! ### The gates in memory -/

namespace IdtEntry

theorem length_toBytes (e : IdtEntry) : e.toBytes.length = 16 := by
  simp [toBytes]

/-- Where the fields are. -/
theorem getElem?_toBytes (e : IdtEntry) :
    (∀ i < 2, e.toBytes[0 + i]? = (leBytes 2 e.offsetLow.toNat)[i]?) ∧
      (∀ i < 2, e.toBytes[2 + i]? = (leBytes 2 e.selector.toNat)[i]?) ∧
      e.toBytes[4]? = some e.ist ∧ e.toBytes[5]? = some e.typeAttr ∧
      (∀ i < 2, e.toBytes[6 + i]? = (leBytes 2 e.offsetMid.toNat)[i]?) ∧
      ∀ i < 4, e.toBytes[8 + i]? = (leBytes 4 e.offsetHigh.toNat)[i]? := by
  have htwo : ∀ {P : ℕ → Prop}, P 0 → P 1 → ∀ i < 2, P i := by
    rintro P h0 h1 (_ | _ | i) hi
    · exact h0
    · exact h1
    · omega
  refine ⟨htwo rfl rfl, htwo rfl rfl, rfl, rfl, htwo rfl rfl, ?_⟩
  rintro (_ | _ | _ | _ | i) hi
  · rfl
  · rfl
  · rfl
  · rfl
  · omega

/-- The three pieces of an address make it up again. -/
theorem toNat_gate_offset (handler : UInt64) :
    (gate handler).offsetLow.toNat % 256 ^ 2 + 2 ^ 16 * ((gate handler).offsetMid.toNat % 256 ^ 2) +
      2 ^ 32 * ((gate handler).offsetHigh.toNat % 256 ^ 4) = handler.toNat := by
  have hlow : (gate handler).offsetLow.toNat = handler.toNat % 2 ^ 16 := by
    rw [gate, UInt64.toNat_toUInt16, UInt64.toNat_and]
    exact (congrArg (· % 2 ^ 16) (Nat.and_two_pow_sub_one_eq_mod _ 16)).trans (Nat.mod_mod _ _)
  have hmid : (gate handler).offsetMid.toNat = handler.toNat / 2 ^ 16 % 2 ^ 16 := by
    rw [gate, UInt64.toNat_toUInt16, toNat_shiftRight_and (k := 16) (by decide) (by decide)]
    exact Nat.mod_mod _ _
  have hhigh : (gate handler).offsetHigh.toNat = handler.toNat / 2 ^ 32 % 2 ^ 32 := by
    rw [gate, UInt64.toNat_toUInt32, toNat_shiftRight_and (k := 32) (by decide) (by decide)]
    exact Nat.mod_mod _ _
  have hlt := handler.toNat_lt
  rw [hlow, hmid, hhigh]
  omega

end IdtEntry

section Gates

variable {p : Placement} {mem : Bytes} {vector : ℕ}

theorem toNat_entry (base : UInt64) (hv : vector < 256) {k : ℕ} (hk : k < 16) :
    (base + UInt64.ofNat (16 * vector) + UInt64.ofNat k - base).toNat = 16 * vector + k := by
  rw [UInt64.add_assoc, ← UInt64.ofNat_add]
  exact toNat_add_sub_self base (by omega)

/-- The stub table is read as it was before the loop. -/
theorem isrStubAddress_congr {mem' : Bytes} (hv : vector < 256)
    (h : ∀ a : UInt64, 4096 ≤ (a - p.idt).toNat → mem' a = mem a) :
    isrStubAddress p mem' vector = isrStubAddress p mem vector := by
  refine load64_congr fun i hi => h _ ?_
  rw [UInt64.add_assoc, ← UInt64.ofNat_add]
  exact p.isrStubTable_apart _ (by omega)

theorem length_gateBytes (mem : Bytes) (vector : ℕ) : (gateBytes p mem vector).length = 16 :=
  IdtEntry.length_toBytes _

theorem fillIdt_outside {a : UInt64} (ha : 4096 ≤ (a - p.idt).toNat) :
    fillIdt p mem a = mem a := by
  rw [fillIdt]
  exact fillArray_outside length_gateBytes (by decide) ha

/-- The bytes of a gate. -/
theorem fillIdt_gate (p : Placement) (mem : Bytes) (hv : vector < 256) {k : ℕ} (hk : k < 16) :
    some (fillIdt p mem (p.idt + UInt64.ofNat (16 * vector) + UInt64.ofNat k)) =
      (gateBytes p mem vector)[k]? := by
  have hk' : k < (gateBytes p mem vector).length := by
    rw [length_gateBytes]
    exact hk
  have hsame : ∀ mem', ∀ i < 256, (∀ a : UInt64, 16 * 256 ≤ (a - p.idt).toNat → mem' a = mem a) →
      gateBytes p mem' i = gateBytes p mem i := by
    intro mem' i hi h
    rw [gateBytes, gateBytes, isrStubAddress_congr hi h]
  rw [List.getElem?_eq_getElem hk', fillIdt,
    fillArray_inside length_gateBytes (by decide) hsame hv hk' (toNat_entry p.idt hv hk)]

/-- A field of a gate, as the CPU reads it. -/
theorem readLe_gate (p : Placement) (mem : Bytes) (hv : vector < 256) {k n x : ℕ}
    (hk : k + n ≤ 16)
    (hfield : ∀ i < n, (gateBytes p mem vector)[k + i]? = (leBytes n x)[i]?) :
    readLe (fillIdt p mem) (p.idt + UInt64.ofNat (16 * vector) + UInt64.ofNat k) n =
      x % 256 ^ n := by
  refine readLe_of_leBytes fun i hi => ?_
  rw [UInt64.add_assoc _ (UInt64.ofNat k), ← UInt64.ofNat_add, fillIdt_gate p mem hv (by omega),
    hfield i hi]

/-- The address that the CPU puts together from a gate. -/
theorem offset_gate (hv : vector < 256) :
    readLe (fillIdt p mem) (p.idt + UInt64.ofNat (16 * vector)) 2 +
        2 ^ 16 * readLe (fillIdt p mem) (p.idt + UInt64.ofNat (16 * vector) + 6) 2 +
        2 ^ 32 * readLe (fillIdt p mem) (p.idt + UInt64.ofNat (16 * vector) + 8) 4 =
      (isrStubAddress p mem vector).toNat := by
  obtain ⟨hlow, -, -, -, hmid, hhigh⟩ :=
    IdtEntry.getElem?_toBytes (IdtEntry.gate (isrStubAddress p mem vector))
  have hlow' := readLe_gate p mem hv (by decide) hlow
  have hmid' := readLe_gate p mem hv (by decide) hmid
  have hhigh' := readLe_gate p mem hv (by decide) hhigh
  rw [show UInt64.ofNat 0 = 0 from rfl, UInt64.add_zero] at hlow'
  rw [show UInt64.ofNat 6 = 6 from rfl] at hmid'
  rw [show UInt64.ofNat 8 = 8 from rfl] at hhigh'
  rw [hlow', hmid', hhigh']
  exact IdtEntry.toNat_gate_offset _

/-- The other fields that the CPU reads. -/
theorem fields_gate (p : Placement) (mem : Bytes) (hv : vector < 256) :
    readLe (fillIdt p mem) (p.idt + UInt64.ofNat (16 * vector) + 2) 2 = 8 ∧
      fillIdt p mem (p.idt + UInt64.ofNat (16 * vector) + 4) = 0 ∧
      fillIdt p mem (p.idt + UInt64.ofNat (16 * vector) + 5) = 0x8E := by
  obtain ⟨-, hselector, hist, hattr, -, -⟩ :=
    IdtEntry.getElem?_toBytes (IdtEntry.gate (isrStubAddress p mem vector))
  have hist' := (fillIdt_gate p mem (k := 4) hv (by decide)).trans hist
  have hattr' := (fillIdt_gate p mem (k := 5) hv (by decide)).trans hattr
  exact ⟨readLe_gate p mem hv (by decide) hselector, Option.some.inj hist', Option.some.inj hattr'⟩

end Gates

/-! ### The GDT in memory -/

/-- The descriptors differ at most in the bit that the CPU sets. -/
def SameSegment (d d' : UInt64) : Prop := ∀ k, k ≠ 40 → bit d k = bit d' k

theorem SameSegment.isCode_iff {d d' : UInt64} (h : SameSegment d d') : IsCode d ↔ IsCode d' := by
  rw [IsCode, IsCode, h 47 (by decide), h 44 (by decide), h 43 (by decide), h 42 (by decide),
    h 53 (by decide), h 54 (by decide)]

theorem SameSegment.isData_iff {d d' : UInt64} (h : SameSegment d d') : IsData d ↔ IsData d' := by
  rw [IsData, IsData, h 47 (by decide), h 44 (by decide), h 43 (by decide), h 41 (by decide)]

theorem SameSegment.descriptorPrivilege_eq {d d' : UInt64} (h : SameSegment d d') :
    descriptorPrivilege d = descriptorPrivilege d' := by
  have hfour : (4 : ℕ) = 2 ^ 2 := rfl
  refine Nat.eq_of_testBit_eq fun i => ?_
  rw [descriptorPrivilege, descriptorPrivilege, hfour, Nat.testBit_mod_two_pow,
    Nat.testBit_mod_two_pow, Nat.testBit_div_two_pow, Nat.testBit_div_two_pow]
  exact congrArg _ (h (i + 45) (by omega))

/-- Memory holds the GDT of the image, whichever of its descriptors have been in use. -/
def HoldsGdt (p : Placement) (mem : Bytes) : Prop :=
  ∀ i < 5, ∃ d, gdt[i]? = some d ∧ SameSegment (load64 mem (p.gdt + UInt64.ofNat (8 * i))) d

/-- The address is in the two words below the stack pointer. -/
def InPushed (rsp a : UInt64) : Prop := (a - (rsp - 16)).toNat < 16

/-- The stack is apart from the tables. -/
structure StackApart (p : Placement) (rsp : UInt64) : Prop where
  idt : ∀ k < 4096, ¬ InPushed rsp (p.idt + UInt64.ofNat k)
  gdt : ∀ k < 40, ¬ InPushed rsp (p.gdt + UInt64.ofNat k)
  isrStubTable : ∀ k < 2048, ¬ InPushed rsp (p.isrStubTable + UInt64.ofNat k)

section Writes

variable {p : Placement} {mem mem' : Bytes}

theorem HoldsGdt.of_eq (h : HoldsGdt p mem)
    (hmem : ∀ k < 40, mem' (p.gdt + UInt64.ofNat k) = mem (p.gdt + UInt64.ofNat k)) :
    HoldsGdt p mem' := by
  intro i hi
  obtain ⟨d, hd, hsame⟩ := h i hi
  refine ⟨d, hd, ?_⟩
  rw [load64_congr fun k hk => ?_]
  · exact hsame
  · rw [UInt64.add_assoc, ← UInt64.ofNat_add]
    exact hmem _ (by omega)

/-- The CPU changes no other bit. -/
theorem HoldsGdt.accessed (h : HoldsGdt p mem) {j : ℕ} (hj : j < 5) {offset : UInt64}
    (hoffset : offset = UInt64.ofNat (8 * j + 5)) : HoldsGdt p (accessed mem (p.gdt + offset)) := by
  subst hoffset
  intro i hi
  obtain ⟨d, hd, hsame⟩ := h i hi
  refine ⟨d, hd, fun k hk => ?_⟩
  rw [← hsame k hk, bit, bit, testBit_load64, testBit_load64, UInt64.add_assoc,
    ← UInt64.ofNat_add, X86_64.accessed]
  by_cases hlt : k < 64
  · by_cases heq : 8 * i + k / 8 = 8 * j + 5
    · have hone : (1 : UInt8).toNat.testBit (k % 8) = false := by
        have hall : ∀ j < 8, j ≠ 0 → (1 : UInt8).toNat.testBit j = false := by decide
        exact hall _ (Nat.mod_lt k (by decide)) (by omega)
      rw [heq, if_pos rfl, UInt8.toNat_or, Nat.testBit_or, hone, Bool.or_false]
    · have hne : p.gdt + UInt64.ofNat (8 * i + k / 8) ≠ p.gdt + UInt64.ofNat (8 * j + 5) := by
        intro haddr
        have hnat := congrArg UInt64.toNat ((UInt64.add_right_inj _).mp haddr)
        rw [UInt64.toNat_ofNat', UInt64.toNat_ofNat'] at hnat
        omega
      rw [if_neg hne]
  · rw [decide_eq_false hlt, Bool.false_and, Bool.false_and]

theorem HoldsGdt.accessed_code (h : HoldsGdt p mem) :
    HoldsGdt p (X86_64.accessed mem (p.gdt + 13)) :=
  h.accessed (show 1 < 5 by decide) (by decide)

theorem HoldsGdt.accessed_data (h : HoldsGdt p mem) :
    HoldsGdt p (X86_64.accessed mem (p.gdt + 21)) :=
  h.accessed (show 2 < 5 by decide) (by decide)

theorem accessed_accessed (mem : Bytes) (a : UInt64) :
    accessed (accessed mem a) a = accessed mem a := by
  funext b
  by_cases hb : b = a
  · simp [accessed, hb, UInt8.or_assoc]
  · simp [accessed, hb]

theorem accessed_of_ne {a b : UInt64} (h : b ≠ a) : accessed mem a b = mem b :=
  if_neg h

/-- What the two pushes of `load_gdt` leave. -/
def pushed (mem : Bytes) (rsp selector behind : UInt64) : Bytes :=
  store64 (store64 mem (rsp - 8) selector) (rsp - 8 - 8) behind

theorem pushed_of_not_inPushed {rsp selector behind a : UInt64} (h : ¬ InPushed rsp a) :
    pushed mem rsp selector behind a = mem a := by
  have hsixteen : rsp - 8 - 8 = rsp - 16 := by
    rw [← UInt64.toNat_inj]
    simp only [UInt64.toNat_sub, UInt64.reduceToNat]
    omega
  have hapart : 8 ≤ (a - (rsp - 8)).toNat ∧ 8 ≤ (a - (rsp - 16)).toNat := by
    rw [InPushed] at h
    have ha := a.toNat_lt
    have hrsp := rsp.toNat_lt
    simp only [UInt64.toNat_sub, UInt64.reduceToNat] at h ⊢
    omega
  rw [pushed, hsixteen, store64_of_le hapart.2, store64_of_le hapart.1]

end Writes

/-! ### Every vector reaches its stub -/

section Vectors

variable {p : Placement} {mem : Bytes} {t : CoreTables}

theorem HoldsGdt.fillIdt (h : HoldsGdt p mem) : HoldsGdt p (fillIdt p mem) :=
  h.of_eq fun k hk => fillIdt_outside (p.gdt_apart k hk)

/-- The descriptor of a selector, for the five of the table. -/
theorem exists_descriptor (hgdtr : t.gdtr = ⟨39, p.gdt⟩) (hmem : HoldsGdt p t.mem)
    (selector : UInt16) {d : UInt64} (hd : gdt[selector.toNat / 8]? = some d)
    (hnull : selector.toNat / 8 ≠ 0) (hti : selector.toNat % 8 / 4 = 0) :
    ∃ d', descriptor t selector = some d' ∧ SameSegment d' d := by
  obtain ⟨hindex, -⟩ := List.getElem?_eq_some_iff.mp hd
  have hlength : gdt.length = 5 := rfl
  have hlimit : (39 : UInt16).toNat = 39 := rfl
  have hcond : ¬ (selector.toNat / 8 = 0 ∨ selector.toNat % 8 / 4 = 1 ∨
      t.gdtr.limit.toNat < 8 * (selector.toNat / 8) + 7) := by
    rw [hgdtr, hlimit]
    omega
  obtain ⟨d₀, hd₀, hsame⟩ := hmem _ hindex
  obtain rfl := Option.some.inj (hd₀.symm.trans hd)
  refine ⟨_, ?_, hsame⟩
  rw [descriptor, if_neg hcond, hgdtr]

/-- The kernel's data is data at level 0, so that the CPU takes its selector. -/
theorem loadData_eq (hgdtr : t.gdtr = ⟨39, p.gdt⟩) (hmem : HoldsGdt p t.mem) :
    loadData t 0x10 = some { t with mem := accessed t.mem (p.gdt + 21) } := by
  obtain ⟨d, hd, hsame⟩ := exists_descriptor hgdtr hmem 0x10 rfl (by decide) (by decide)
  have hdata : IsData d := hsame.isData_iff.mpr (by decide)
  have hlevel : descriptorPrivilege d = 0 := hsame.descriptorPrivilege_eq.trans (by decide)
  have hloads : loadableData t 0x10 = true := by
    rw [loadableData, hd]
    exact decide_eq_true ⟨hdata, hlevel, by decide⟩
  rw [loadData, if_pos hloads, accessByte, hgdtr]
  rfl

/-- Likewise the kernel's code. -/
theorem loadCode_eq (hgdtr : t.gdtr = ⟨39, p.gdt⟩) (hmem : HoldsGdt p t.mem) :
    loadCode t 0x08 = some { t with mem := accessed t.mem (p.gdt + 13) } := by
  obtain ⟨d, hd, hsame⟩ := exists_descriptor hgdtr hmem 0x08 rfl (by decide) (by decide)
  have hcode : IsCode d := hsame.isCode_iff.mpr (by decide)
  have hlevel : descriptorPrivilege d = 0 := hsame.descriptorPrivilege_eq.trans (by decide)
  have hloads : loadableCode t 0x08 = true := by
    rw [loadableCode, hd]
    exact decide_eq_true ⟨hcode, hlevel, by decide⟩
  rw [loadCode, if_pos hloads, accessByte, hgdtr]
  rfl

/-- The far return finds what was pushed. -/
theorem farReturn_push {behind : UInt64} (hgdtr : t.gdtr = ⟨39, p.gdt⟩)
    (hmem : HoldsGdt p (pushed t.mem t.rsp 0x08 behind)) (hbehind : Canonical behind) :
    farReturn (push (push t 0x08) behind) = some { t with
      cs := 0x08, mem := accessed (pushed t.mem t.rsp 0x08 behind) (p.gdt + 13) } := by
  have htop : load64 (push (push t 0x08) behind).mem (push (push t 0x08) behind).rsp = behind :=
    load64_store64_self
  have hapart : Apart (t.rsp - 8) (t.rsp - 8 - 8) := by
    rw [Apart, UInt64.le_iff_toNat_le, UInt64.le_iff_toNat_le]
    simp only [UInt64.toNat_sub, UInt64.reduceToNat]
    have hlt := t.rsp.toNat_lt
    omega
  have hselector : load64 (push (push t 0x08) behind).mem
      ((push (push t 0x08) behind).rsp + 8) = 0x08 := by
    show load64 (store64 (store64 t.mem (t.rsp - 8) 0x08) (t.rsp - 8 - 8) behind)
      (t.rsp - 8 - 8 + 8) = 0x08
    rw [UInt64.sub_add_cancel, load64_store64_of_apart hapart, load64_store64_self]
  have hrsp : t.rsp - 8 - 8 + 16 = t.rsp := by
    have hsixteen : (16 : UInt64) = 8 + 8 := rfl
    rw [hsixteen, ← UInt64.add_assoc, UInt64.sub_add_cancel, UInt64.sub_add_cancel]
  have hcode : loadCode (push (push t 0x08) behind) 0x08 = some _ :=
    loadCode_eq (t := push (push t 0x08) behind) hgdtr hmem
  rw [farReturn, htop, hselector, if_pos hbehind]
  show (loadCode (push (push t 0x08) behind) 0x08).map _ = _
  rw [hcode, Option.map_some]
  show some { t with cs := 0x08, rsp := t.rsp - 8 - 8 + 16, mem := _ } = _
  rw [hrsp]
  rfl

/-- What `load_gdt` leaves in memory. -/
def loadedMem (p : Placement) (behind rsp : UInt64) (mem : Bytes) : Bytes :=
  accessed (pushed (accessed mem (p.gdt + 21)) rsp 0x08 behind) (p.gdt + 13)

theorem StackApart.holdsGdt {rsp behind : UInt64} (hstack : StackApart p rsp)
    (h : HoldsGdt p mem) : HoldsGdt p (pushed mem rsp 0x08 behind) :=
  h.of_eq fun k hk => pushed_of_not_inPushed (hstack.gdt k hk)

theorem loadGdt_eq {behind : UInt64} (hmem : HoldsGdt p t.mem) (hstack : StackApart p t.rsp)
    (hbehind : Canonical behind) :
    loadGdt p behind t = some { t with
      gdtr := ⟨39, p.gdt⟩, ds := 0x10, es := 0x10, fs := 0x10, gs := 0x10, ss := 0x10,
      cs := 0x08, mem := loadedMem p behind t.rsp t.mem } := by
  have hin := hmem.accessed_data
  let loaded : CoreTables :=
    { t with gdtr := ⟨39, p.gdt⟩, mem := accessed t.mem (p.gdt + 21) }
  have hfirst : loadData { t with gdtr := ⟨39, p.gdt⟩ } 0x10 = some loaded :=
    loadData_eq (t := { t with gdtr := ⟨39, p.gdt⟩ }) rfl hmem
  -- the bit stays as it is from then on
  have hagain : ∀ t' : CoreTables, t'.gdtr = ⟨39, p.gdt⟩ → t'.mem = loaded.mem →
      loadData t' 0x10 = some t' := by
    intro t' hgdtr hsame
    have hsame' : accessed t'.mem (p.gdt + 21) = t'.mem := by
      rw [hsame]
      exact accessed_accessed t.mem _
    rw [loadData_eq hgdtr (hsame ▸ hin), hsame']
  rw [loadGdt]
  simp only [SegmentSelector.value, Option.bind_eq_bind]
  rw [show (5 * 8 - 1 : UInt16) = 39 by decide, hfirst, Option.bind_some,
    hagain { loaded with ds := 0x10 } rfl rfl, Option.bind_some,
    hagain { loaded with ds := 0x10, es := 0x10 } rfl rfl, Option.bind_some,
    hagain { loaded with ds := 0x10, es := 0x10, fs := 0x10 } rfl rfl, Option.bind_some,
    hagain { loaded with ds := 0x10, es := 0x10, fs := 0x10, gs := 0x10 } rfl rfl,
    Option.bind_some]
  exact farReturn_push (p := p) rfl (hstack.holdsGdt hin) hbehind

/-- The tables of a core that is up. -/
def bootstrapped (p : Placement) (behind : UInt64) (t : CoreTables) : CoreTables where
  gdtr := ⟨39, p.gdt⟩
  idtr := ⟨4095, p.idt⟩
  cs := 0x08
  ds := 0x10
  es := 0x10
  fs := 0x10
  gs := 0x10
  ss := 0x10
  rsp := t.rsp
  mem := fillIdt p (loadedMem p behind t.rsp t.mem)

theorem bootstrapCurrentCore_eq {behind : UInt64} (hmem : HoldsGdt p t.mem)
    (hstack : StackApart p t.rsp) (hbehind : Canonical behind) :
    bootstrapCurrentCore p behind t = some (bootstrapped p behind t) := by
  have hlimit : (256 * 16 - 1 : UInt16) = 4095 := by decide
  rw [bootstrapCurrentCore, loadGdt_eq hmem hstack hbehind, Option.map_some, loadIdt, hlimit,
    bootstrapped]

theorem HoldsGdt.loadedMem {behind rsp : UInt64} (h : HoldsGdt p mem)
    (hstack : StackApart p rsp) : HoldsGdt p (loadedMem p behind rsp mem) :=
  (hstack.holdsGdt h.accessed_data).accessed_code

theorem loadedMem_of_ne {behind rsp a : UInt64} (hpushed : ¬ InPushed rsp a)
    (hcode : a ≠ p.gdt + 13) (hdata : a ≠ p.gdt + 21) : loadedMem p behind rsp mem a = mem a := by
  rw [loadedMem, accessed_of_ne hcode, pushed_of_not_inPushed hpushed, accessed_of_ne hdata]

/-- The stub table is read as it was before. -/
theorem isrStubAddress_loadedMem (mem : Bytes) {rsp : UInt64} (hstack : StackApart p rsp)
    (behind : UInt64) {vector : ℕ} (hv : vector < 256) :
    isrStubAddress p (loadedMem p behind rsp mem) vector = isrStubAddress p mem vector := by
  refine load64_congr fun i hi => ?_
  rw [UInt64.add_assoc, ← UInt64.ofNat_add]
  have hlt : 8 * vector + i < 2048 := by omega
  have hne : ∀ k < 40, p.isrStubTable + UInt64.ofNat (8 * vector + i) ≠ p.gdt + UInt64.ofNat k := by
    intro k hk heq
    have hapart := p.tables_apart k hk
    rw [← heq, toNat_add_sub_self _ (by omega)] at hapart
    omega
  exact loadedMem_of_ne (hstack.isrStubTable _ hlt) (hne 13 (by decide)) (hne 21 (by decide))

/-- Delivery by the filled table. A change of level would need the stack of a task state
segment. -/
theorem vectorTo_fillIdt (hidtr : t.idtr = ⟨4095, p.idt⟩) (hgdtr : t.gdtr = ⟨39, p.gdt⟩)
    (htable : t.mem = fillIdt p mem) (hmem : HoldsGdt p t.mem) (cpl : ℕ) (vector : UInt8)
    (hstub : Canonical (isrStubAddress p mem vector.toNat)) :
    vectorTo t cpl vector =
      if 0 < cpl then .taskState
      else .entered (isrStubAddress p mem vector.toNat) 0x08 false := by
  have hv : vector.toNat < 256 := vector.toNat_lt
  obtain ⟨hselector, hist, hattr⟩ := fields_gate p mem hv
  obtain ⟨d, hd, hsame⟩ := exists_descriptor hgdtr hmem 0x08 rfl (by decide) (by decide)
  have hcode : IsCode d := hsame.isCode_iff.mpr (by decide)
  have hzero : descriptorPrivilege d = 0 := hsame.descriptorPrivilege_eq.trans (by decide)
  have hlimit : ¬ (4095 : UInt16).toNat < 16 * vector.toNat + 15 := by
    show ¬ 4095 < _
    omega
  have hgate : ¬ ((0x8E : UInt8) &&& 0x80 = 0 ∨ (0x8E : UInt8) &&& 0x1E ≠ 0x0E) := by decide
  have hlevel : ¬ (¬ IsCode d ∨ cpl < descriptorPrivilege d) := by
    rw [hzero]
    exact not_or.mpr ⟨not_not.mpr hcode, Nat.not_lt_zero _⟩
  simp only [vectorTo, htable, hidtr, hselector, hattr, hist, offset_gate hv, if_neg hlimit,
    if_neg hgate, UInt64.ofNat_toNat, show UInt16.ofNat 8 = 0x08 from rfl]
  rw [hd]
  refine (if_neg hlevel).trans ?_
  rw [hzero]
  by_cases hcpl : 0 < cpl
  · rw [if_pos (.inl hcpl), if_pos hcpl]
  · rw [if_neg (not_or.mpr ⟨hcpl, by decide⟩), if_neg hcpl, if_neg (not_not.mpr hstub)]
    rfl

end Vectors

/-- The core comes up whatever the registers were before. Written are the IDT, two words below
the stack pointer and two Accessed bits. From then on every vector that arrives in the kernel
enters its own stub, as kernel code and with interrupts off, and is dispatched by its own number.
None can be taken from user level, for want of a task state segment. -/
theorem bootstrapCurrentCore_delivers (p : Placement) (t : CoreTables) (behind : UInt64)
    (hgdt : HoldsGdt p t.mem) (hstack : StackApart p t.rsp) (hbehind : Canonical behind)
    (hstubs : ∀ vector < 256, Canonical (isrStubAddress p t.mem vector)) :
    ∃ t', bootstrapCurrentCore p behind t = some t' ∧ t'.rsp = t.rsp ∧
      (∀ a : UInt64, 4096 ≤ (a - p.idt).toNat → ¬ InPushed t.rsp a →
        t'.mem a = if a = p.gdt + 13 ∨ a = p.gdt + 21 then t.mem a ||| 1 else t.mem a) ∧
      ∀ vector : UInt8,
        vectorTo t' 0 vector =
          .entered (isrStubAddress p t.mem vector.toNat) SegmentSelector.kernelCode.value false ∧
        (∀ m d returnAddress, vectorRead (atEntry m vector d returnAddress) = vector) ∧
        ∀ cpl, 0 < cpl → vectorTo t' cpl vector = .taskState := by
  refine ⟨bootstrapped p behind t, bootstrapCurrentCore_eq hgdt hstack hbehind, rfl,
    fun a ha hpushed => ?_, fun vector => ?_⟩
  · have hmem : (bootstrapped p behind t).mem a = loadedMem p behind t.rsp t.mem a :=
      fillIdt_outside ha
    rw [hmem, loadedMem, accessed, pushed_of_not_inPushed hpushed, accessed]
    have hne : p.gdt + 13 ≠ p.gdt + 21 :=
      fun h => absurd ((UInt64.add_right_inj _).mp h) (by decide)
    by_cases hcode : a = p.gdt + 13
    · rw [if_pos hcode, if_neg (hcode ▸ hne), if_pos (.inl hcode)]
    · by_cases hdata : a = p.gdt + 21
      · rw [if_neg hcode, if_pos hdata, if_pos (.inr hdata)]
      · rw [if_neg hcode, if_neg hdata, if_neg (not_or.mpr ⟨hcode, hdata⟩)]
  · have hstub := isrStubAddress_loadedMem t.mem hstack behind vector.toNat_lt
    have hcanonical : Canonical
        (isrStubAddress p (loadedMem p behind t.rsp t.mem) vector.toNat) := by
      rw [hstub]
      exact hstubs _ vector.toNat_lt
    have htable : (bootstrapped p behind t).mem =
        fillIdt p (loadedMem p behind t.rsp t.mem) := rfl
    have hholds : HoldsGdt p (bootstrapped p behind t).mem :=
      htable ▸ (hgdt.loadedMem hstack).fillIdt
    have hvector := fun cpl =>
      vectorTo_fillIdt (t := bootstrapped p behind t) rfl rfl htable hholds cpl vector hcanonical
    refine ⟨?_, fun m d returnAddress => vectorRead_atEntry m vector d returnAddress,
      fun cpl hcpl => ?_⟩
    · rw [hvector, if_neg (Nat.lt_irrefl 0), hstub]
      rfl
    · rw [hvector, if_pos hcpl]

/-- The GDT at 4 KiB, the stub table behind it, the IDT at 64 KiB. -/
def samplePlacement : Placement where
  gdt := 0x1000
  idt := 0x10000
  isrStubTable := 0x2000
  gdt_apart := by
    intro k hk
    rw [UInt64.toNat_sub, UInt64.toNat_add, UInt64.toNat_ofNat']
    simp only [UInt64.reduceToNat]
    omega
  tables_apart := by
    intro k hk
    rw [UInt64.toNat_sub, UInt64.toNat_add, UInt64.toNat_ofNat']
    simp only [UInt64.reduceToNat]
    omega
  isrStubTable_apart := by
    intro k hk
    rw [UInt64.toNat_sub, UInt64.toNat_add, UInt64.toNat_ofNat']
    simp only [UInt64.reduceToNat]
    omega

/-- The stubs of such an image, at 4 MiB. -/
def sampleStub (vector : ℕ) : ℕ := 0x400000 + 16 * vector

/-- Memory that holds the GDT and the stub table, and 0x90 elsewhere. -/
def sampleImage : Bytes := fun a =>
  if 0x2000 ≤ a ∧ a < 0x2800 then
    UInt8.ofNat (sampleStub ((a - 0x2000).toNat / 8) / 256 ^ ((a - 0x2000).toNat % 8))
  else (gdt.flatMap fun d => leBytes 8 d.toNat).getD (a - 0x1000).toNat 0x90

theorem holdsGdt_sampleImage : HoldsGdt samplePlacement sampleImage := by
  have hgdt : ∀ i < 5,
      some (load64 sampleImage (samplePlacement.gdt + UInt64.ofNat (8 * i))) = gdt[i]? := by
    decide +kernel
  exact fun i hi => ⟨_, (hgdt i hi).symm, fun _ _ => rfl⟩

theorem stackApart_samplePlacement : StackApart samplePlacement 0x9000 where
  idt := by
    intro k hk
    rw [InPushed, UInt64.toNat_sub, UInt64.toNat_add, UInt64.toNat_ofNat']
    simp only [samplePlacement, UInt64.reduceSub, UInt64.reduceToNat]
    omega
  gdt := by
    intro k hk
    rw [InPushed, UInt64.toNat_sub, UInt64.toNat_add, UInt64.toNat_ofNat']
    simp only [samplePlacement, UInt64.reduceSub, UInt64.reduceToNat]
    omega
  isrStubTable := by
    intro k hk
    rw [InPushed, UInt64.toNat_sub, UInt64.toNat_add, UInt64.toNat_ofNat']
    simp only [samplePlacement, UInt64.reduceSub, UInt64.reduceToNat]
    omega

/-- Interrupt 33, in such an image. -/
theorem bootstrapCurrentCore_delivers_33 :
    ∃ t', bootstrapCurrentCore samplePlacement 0x401000
        ⟨⟨0, 0⟩, ⟨0, 0⟩, 0x38, 0x30, 0x30, 0x30, 0x30, 0x30, 0x9000, sampleImage⟩ = some t' ∧
      vectorTo t' 0 33 = .entered 0x400210 0x08 false := by
  have hstubs : ∀ vector < 256, Canonical (isrStubAddress samplePlacement sampleImage vector) := by
    decide +kernel
  obtain ⟨t', hboot, -, -, hvector⟩ := bootstrapCurrentCore_delivers samplePlacement
    ⟨⟨0, 0⟩, ⟨0, 0⟩, 0x38, 0x30, 0x30, 0x30, 0x30, 0x30, 0x9000, sampleImage⟩ 0x401000
    holdsGdt_sampleImage stackApart_samplePlacement (by decide) hstubs
  refine ⟨t', hboot, (hvector 33).1.trans ?_⟩
  decide +kernel

end SimurghHal.Cpu.X86_64
