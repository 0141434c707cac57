import SimurghHal.Core.Error
import SimurghHal.Cpu.Trampoline
import SimurghHal.Cpu.TrapEntry
import SimurghHal.Lib.Clearing

/-!
# `_start` (`hal-*/src/lib.rs`)

The code that a bootloader enters, up to the call of the Rust entry point. It sets the stack
pointer, clears `.bss`, and is to leave the arguments of the bootloader alone. Instructions
are counted from 0, and branches name the number of the instruction they go to.
-/

namespace SimurghHal.Cpu

open ByteMemory

/-- What the linker puts in for the symbols, with `.bss` in one half of the address space. -/
structure BootSymbols where
  bssStart : UInt64
  bssEnd : UInt64
  bootStackTop : UInt64
  start_le_end : bssStart ≤ bssEnd
  start_aligned : bssStart.toNat % 8 = 0
  end_aligned : bssEnd.toNat % 8 = 0
  one_half : bssEnd < 0x8000000000000000 ∨ 0x8000000000000000 ≤ bssStart

/-- `.bss` is a number of words. -/
theorem BootSymbols.exists_words (symbols : BootSymbols) :
    ∃ n, symbols.bssEnd.toNat = symbols.bssStart.toNat + 8 * n := by
  have hle := UInt64.le_iff_toNat_le.mp symbols.start_le_end
  have hstart := symbols.start_aligned
  have hend := symbols.end_aligned
  exact ⟨(symbols.bssEnd.toNat - symbols.bssStart.toNat) / 8, by omega⟩

/-- At the call `.bss` is clear and other memory as it was, the stack pointer is set, and the
argument registers are as they were. -/
structure HandedOver {R : Type} (symbols : BootSymbols) (sp : R) (arguments : List R)
    (regs regs' : R → UInt64) (mem mem' : Bytes) : Prop where
  mem_eq : mem' = cleared mem symbols.bssStart symbols.bssEnd
  sp_eq : regs' sp = symbols.bootStackTop
  arguments_eq : ∀ r ∈ arguments, regs' r = regs r

/-! ### x86_64 -/

namespace X86_64

inductive StartInstr where
  /-- From `[rip + symbol]`. -/
  | lea (dst : Gpr) (symbol : UInt64)
  | sub (dst src : Gpr)
  /-- `xor al, al`. -/
  | xorAl
  | cld
  | repStosb
  /-- The call of `hal_x86_64_rust_entry`. -/
  | call
  deriving DecidableEq, Repr

/-- `_start`. -/
def start (symbols : BootSymbols) : List StartInstr := [
  .lea .rsp symbols.bootStackTop,
  .lea .rdi symbols.bssStart,
  .lea .rcx symbols.bssEnd,
  .sub .rcx .rdi,
  .xorAl,
  .cld,
  .repStosb,
  .cld,
  .call]

structure StartState where
  pc : ℕ
  regs : Gpr → UInt64
  /-- The direction flag. -/
  df : Bool
  mem : Bytes

namespace StartState

variable (s : StartState)

def set (r : Gpr) (value : UInt64) : StartState :=
  { s with pc := s.pc + 1, regs := Function.update s.regs r value }

/-- One iteration of `rep stosb`. -/
def stosb : StartState :=
  let rdi := s.regs .rdi
  { s with
    regs := Function.update
      (Function.update s.regs .rdi (if s.df then rdi - 1 else rdi + 1)) .rcx (s.regs .rcx - 1)
    mem := Function.update s.mem rdi (s.regs .rax).toUInt8 }

end StartState

/-- One instruction, or one iteration of a string instruction. The call is not made. -/
def startStep (code : List StartInstr) (s : StartState) :
    Option (Except StartState StartState) :=
  code[s.pc]?.map fun
    | .lea dst symbol => .ok (s.set dst symbol)
    | .sub dst src => .ok (s.set dst (s.regs dst - s.regs src))
    | .xorAl => .ok (s.set .rax (s.regs .rax &&& ~~~0xFF))
    | .cld => .ok { s with pc := s.pc + 1, df := false }
    | .repStosb => .ok (if s.regs .rcx = 0 then { s with pc := s.pc + 1 } else s.stosb)
    | .call => .error s

/-- What the bootloader leaves. -/
structure BootInput where
  regs : Gpr → UInt64
  df : Bool
  mem : Bytes

def BootInput.entered (input : BootInput) : StartState := ⟨0, input.regs, input.df, input.mem⟩

section Start

variable {symbols : BootSymbols} {s : StartState}

/-- `rep stosb` is to be done for the rest of `.bss`. -/
structure Clearing (symbols : BootSymbols) (s : StartState) : Prop where
  pc_eq : s.pc = 6
  df_eq : s.df = false
  al_eq : (s.regs .rax).toUInt8 = 0
  rcx_eq : s.regs .rcx = symbols.bssEnd - s.regs .rdi
  rsp_eq : s.regs .rsp = symbols.bootStackTop

theorem Clearing.startStep (h : Clearing symbols s) : startStep (start symbols) s =
    some (.ok (if s.regs .rcx = 0 then { s with pc := 7 } else s.stosb)) := by
  rw [X86_64.startStep, h.pc_eq]
  rfl

theorem regs_rdi_stosb (hdf : s.df = false) : s.stosb.regs .rdi = s.regs .rdi + 1 := by
  simp [StartState.stosb, hdf]

theorem regs_rcx_stosb : s.stosb.regs .rcx = s.regs .rcx - 1 := by
  simp [StartState.stosb]

theorem regs_stosb_of_ne {r : Gpr} (hrdi : r ≠ .rdi) (hrcx : r ≠ .rcx) :
    s.stosb.regs r = s.regs r := by
  simp [StartState.stosb, hrdi, hrcx]

theorem sub_sub_one (x y : UInt64) : x - y - 1 = x - (y + 1) := by
  apply UInt64.toNat_inj.mp
  simp only [UInt64.toNat_sub, UInt64.toNat_add, UInt64.reduceToNat]
  have hy := y.toNat_lt
  omega

theorem Clearing.stosb (h : Clearing symbols s) : Clearing symbols s.stosb where
  pc_eq := h.pc_eq
  df_eq := h.df_eq
  al_eq := by
    rw [regs_stosb_of_ne (by decide) (by decide)]
    exact h.al_eq
  rcx_eq := by rw [regs_rcx_stosb, regs_rdi_stosb h.df_eq, h.rcx_eq, sub_sub_one]
  rsp_eq := by
    rw [regs_stosb_of_ne (by decide) (by decide)]
    exact h.rsp_eq

/-- One byte is cleared. -/
theorem Clearing.exists_next (h : Clearing symbols s) (hlt : s.regs .rdi < symbols.bssEnd) :
    ∃ s', Loop.Reaches (X86_64.startStep (start symbols)) s s' ∧ Clearing symbols s' ∧
      s'.regs .rdi = s.regs .rdi + 1 ∧
        ∀ a, s'.mem a = if (a - s.regs .rdi).toNat < 1 then 0 else s.mem a := by
  have hrcx : s.regs .rcx ≠ 0 := by
    rw [h.rcx_eq]
    intro hzero
    have hsub := congrArg UInt64.toNat hzero
    rw [UInt64.toNat_sub_of_le _ _ (UInt64.le_of_lt hlt), UInt64.toNat_zero] at hsub
    rw [UInt64.lt_iff_toNat_lt] at hlt
    omega
  have hstep := h.startStep
  rw [if_neg hrcx] at hstep
  refine ⟨s.stosb, .single hstep, h.stosb, regs_rdi_stosb h.df_eq, fun a => ?_⟩
  rw [← update_zero, ← h.al_eq]
  rfl

/-- What `xor al, al` leaves of a register. -/
theorem toUInt8_clearAl (rax : UInt64) : (rax &&& ~~~0xFF).toUInt8 = 0 := by
  apply UInt8.toBitVec_inj.mp
  ext i hi
  simp

/-- Up to `rep stosb`. -/
theorem exists_reaches_clearing (symbols : BootSymbols) (input : BootInput) :
    ∃ s, Loop.Reaches (startStep (start symbols)) input.entered s ∧ Clearing symbols s ∧
      s.regs .rdi = symbols.bssStart ∧ s.mem = input.mem := by
  refine ⟨_, .head rfl (.head rfl (.head rfl (.head rfl (.head rfl (.single rfl))))), ?_,
    rfl, rfl⟩
  exact ⟨rfl, rfl, toUInt8_clearAl (input.regs .rax), rfl, rfl⟩

/-- The call is made with the end of `.bss` as its argument. -/
theorem exists_returns_start (symbols : BootSymbols) (input : BootInput) :
    ∃ s, Loop.Returns (startStep (start symbols)) input.entered s ∧
      s.mem = cleared input.mem symbols.bssStart symbols.bssEnd ∧
        s.regs .rsp = symbols.bootStackTop ∧ s.regs .rdi = symbols.bssEnd := by
  obtain ⟨s₁, hreach₁, hclearing, hrdi, hmem⟩ := exists_reaches_clearing symbols input
  have hle := UInt64.le_iff_toNat_le.mp symbols.start_le_end
  have hbytes : symbols.bssEnd.toNat = symbols.bssStart.toNat +
      1 * (symbols.bssEnd.toNat - symbols.bssStart.toNat) := by omega
  obtain ⟨s, hreach, hdone, hend, hcleared⟩ := exists_reaches_cleared_of_start (by decide)
    (fun s hs _ hlt => Clearing.exists_next hs hlt) hbytes hclearing hrdi
  rw [hmem] at hcleared
  have hzero : s.regs .rcx = 0 := by rw [hdone.rcx_eq, hend, UInt64.sub_self]
  have hleave := hdone.startStep
  rw [if_pos hzero] at hleave
  have hcld : startStep (start symbols) { s with pc := 7 } =
      some (.ok { s with pc := 8, df := false }) := rfl
  have hcall : Loop.Returns (startStep (start symbols)) { s with pc := 8, df := false }
      { s with pc := 8, df := false } := Loop.returns_of_leave rfl
  have hreaches := hreach₁.trans ((hreach.tail hleave).tail hcld)
  exact ⟨_, hcall.of_reaches hreaches, hcleared, hdone.rsp_eq, hend⟩

end Start

end X86_64

/-! ### ARM64 -/

namespace Arm64

/-- The exception levels that firmware hands over in. -/
inductive ExceptionLevel where
  | el1
  | el2
  deriving DecidableEq, Repr

/-- `CurrentEL`. -/
def ExceptionLevel.current : ExceptionLevel → UInt64
  | .el1 => 0x4
  | .el2 => 0x8

inductive SysReg where
  | hcrEl2 | sctlrEl1 | spsrEl2 | elrEl2
  deriving DecidableEq, Repr

/-- The registers of EL2 do not exist for code in EL1. -/
def SysReg.accessible : SysReg → ExceptionLevel → Bool
  | .sctlrEl1, _ => true
  | _, el => el = .el2

inductive StartInstr where
  | mrsCurrentEl (dst : Gpr)
  | andImm (dst src : Gpr) (value : UInt64)
  | cmpImm (r : Gpr) (value : UInt64)
  | cmp (r r' : Gpr)
  | bNe (target : ℕ)
  | bGe (target : ℕ)
  | b (target : ℕ)
  | movImm (dst : Gpr) (value : UInt64)
  | mov (dst src : Gpr)
  | msr (dst : SysReg) (src : Gpr)
  /-- From `xzr`. -/
  | msrZero (dst : SysReg)
  /-- The address of a linker symbol. -/
  | adr (dst : Gpr) (symbol : UInt64)
  /-- The address of an instruction. -/
  | adrLabel (dst : Gpr) (target : ℕ)
  | eret
  /-- `str xzr, [base], #8`. -/
  | strZeroPost (base : Gpr)
  /-- The call of `hal_arm64_rust_entry`. -/
  | bl
  deriving DecidableEq, Repr

/-- `_start`. -/
def start (symbols : BootSymbols) : List StartInstr := [
  .mrsCurrentEl .x1,
  .andImm .x1 .x1 0xC,
  .cmpImm .x1 0x8,
  .bNe 12,
  .movImm .x1 0x80000000,
  .msr .hcrEl2 .x1,
  .msrZero .sctlrEl1,
  .movImm .x1 0x3C5,
  .msr .spsrEl2 .x1,
  .adrLabel .x1 12,
  .msr .elrEl2 .x1,
  .eret,
  -- in EL1
  .adr .x1 symbols.bootStackTop,
  .mov .sp .x1,
  .adr .x1 symbols.bssStart,
  .adr .x2 symbols.bssEnd,
  -- the loop
  .cmp .x1 .x2,
  .bGe 20,
  .strZeroPost .x1,
  .b 16,
  .bl]

/-- The top bit, which is the sign. -/
def negative (x : UInt64) : Bool := 0x8000000000000000 ≤ x

/-- The condition flags that are used. -/
structure Flags where
  n : Bool
  z : Bool
  v : Bool
  deriving DecidableEq, Repr

/-- The flags of a subtraction. `v` tells that the sign of the difference is wrong. -/
def Flags.ofCmp (x y : UInt64) : Flags where
  n := negative (x - y)
  z := x = y
  v := negative x ≠ negative y ∧ negative (x - y) ≠ negative x

structure StartState where
  pc : ℕ
  el : ExceptionLevel
  /-- The stack pointer is that of the current exception level. -/
  regs : Gpr → UInt64
  /-- The stack pointer of EL1 while in EL2. -/
  spEl1 : UInt64
  sys : SysReg → UInt64
  flags : Flags
  mem : Bytes

namespace StartState

variable (s : StartState)

def set (r : Gpr) (value : UInt64) : StartState :=
  { s with pc := s.pc + 1, regs := Function.update s.regs r value }

def jump (taken : Bool) (target : ℕ) : StartState :=
  { s with pc := if taken then target else s.pc + 1 }

def setSys (r : SysReg) (value : UInt64) : Option (Except StartState StartState) :=
  if r.accessible s.el then
    some (.ok { s with pc := s.pc + 1, sys := Function.update s.sys r value })
  else none

/-- The return from EL2 to EL1 in AArch64 with its own stack pointer, to an address in code that
is loaded at `codeBase`. Other returns are not modelled. -/
def eret (codeBase : UInt64) : Option (Except StartState StartState) :=
  if s.el = .el2 ∧ s.sys .spsrEl2 &&& 0x1F = 0x5 ∧ s.sys .hcrEl2 &&& 0x80000000 ≠ 0 then
    some (.ok { s with
      pc := ((s.sys .elrEl2 - codeBase) / 4).toNat
      el := .el1
      regs := Function.update s.regs .sp s.spEl1 })
  else none

end StartState

/-- One instruction. The call is not made, and `none` stands for an exception. -/
def startStep (codeBase : UInt64) (code : List StartInstr) (s : StartState) :
    Option (Except StartState StartState) :=
  code[s.pc]?.bind fun
    | .mrsCurrentEl dst => some (.ok (s.set dst s.el.current))
    | .andImm dst src value => some (.ok (s.set dst (s.regs src &&& value)))
    | .cmpImm r value =>
      some (.ok { s with pc := s.pc + 1, flags := .ofCmp (s.regs r) value })
    | .cmp r r' =>
      some (.ok { s with pc := s.pc + 1, flags := .ofCmp (s.regs r) (s.regs r') })
    | .bNe target => some (.ok (s.jump (!s.flags.z) target))
    | .bGe target => some (.ok (s.jump (s.flags.n = s.flags.v) target))
    | .b target => some (.ok (s.jump true target))
    | .movImm dst value => some (.ok (s.set dst value))
    | .mov dst src => some (.ok (s.set dst (s.regs src)))
    | .msr dst src => s.setSys dst (s.regs src)
    | .msrZero dst => s.setSys dst 0
    | .adr dst symbol => some (.ok (s.set dst symbol))
    | .adrLabel dst target => some (.ok (s.set dst (codeBase + 4 * UInt64.ofNat target)))
    | .eret => s.eret codeBase
    | .strZeroPost base =>
      some (.ok { s.set base (s.regs base + 8) with mem := store64 s.mem (s.regs base) 0 })
    | .bl => some (.error s)

/-- What the bootloader leaves, and where it has loaded the code. -/
structure BootInput where
  codeBase : UInt64
  el : ExceptionLevel
  regs : Gpr → UInt64
  spEl1 : UInt64
  sys : SysReg → UInt64
  flags : Flags
  mem : Bytes

def BootInput.entered (input : BootInput) : StartState :=
  ⟨0, input.el, input.regs, input.spEl1, input.sys, input.flags, input.mem⟩

section Start

variable {symbols : BootSymbols} {input : BootInput} {s : StartState}

/-- In EL1, behind the drop from EL2, with `x0` and memory as the bootloader has left them. -/
structure Dropped (input : BootInput) (s : StartState) : Prop where
  pc_eq : s.pc = 12
  x0_eq : s.regs .x0 = input.regs .x0
  mem_eq : s.mem = input.mem

/-- The branch on the exception level. -/
def atBranch (input : BootInput) : StartState :=
  { input.entered with
    pc := 3
    regs := Function.update (Function.update input.regs .x1 input.el.current) .x1
      (input.el.current &&& 0xC)
    flags := .ofCmp (input.el.current &&& 0xC) 0x8 }

theorem reaches_atBranch (symbols : BootSymbols) (input : BootInput) :
    Loop.Reaches (startStep input.codeBase (start symbols)) input.entered (atBranch input) :=
  .head rfl (.head rfl (.single rfl))

theorem current_ne_el2 : (Flags.ofCmp (ExceptionLevel.el1.current &&& 0xC) 0x8).z = false := by
  decide

theorem current_eq_el2 : (Flags.ofCmp (ExceptionLevel.el2.current &&& 0xC) 0x8).z = true := by
  decide

theorem label_eq (codeBase : UInt64) :
    ((codeBase + 4 * UInt64.ofNat 12 - codeBase) / 4).toNat = 12 := by
  rw [UInt64.add_comm, UInt64.add_sub_cancel]
  rfl

/-- What the code writes for the return makes it one to its own next part in EL1. -/
theorem eret_eq {codeBase : UInt64} (hel : s.el = .el2) (hspsr : s.sys .spsrEl2 = 0x3C5)
    (hhcr : s.sys .hcrEl2 = 0x80000000)
    (helr : s.sys .elrEl2 = codeBase + 4 * UInt64.ofNat 12) :
    s.eret codeBase = some (.ok { s with
      pc := 12, el := .el1, regs := Function.update s.regs .sp s.spEl1 }) := by
  have hvalid : s.el = .el2 ∧ s.sys .spsrEl2 &&& 0x1F = 0x5 ∧ s.sys .hcrEl2 &&& 0x80000000 ≠ 0 := by
    rw [hspsr, hhcr]
    exact ⟨hel, by decide, by decide⟩
  rw [StartState.eret, if_pos hvalid, helr, label_eq]

theorem exists_reaches_eret (symbols : BootSymbols) (codeBase : UInt64) (hpc : s.pc = 4)
    (hel : s.el = .el2) :
    ∃ s', Loop.Reaches (startStep codeBase (start symbols)) s s' ∧ s'.pc = 12 ∧
      s'.regs .x0 = s.regs .x0 ∧ s'.mem = s.mem := by
  obtain ⟨pc, el, regs, spEl1, sys, flags, mem⟩ := s
  obtain rfl : pc = 4 := hpc
  obtain rfl : el = .el2 := hel
  refine ⟨_, .head rfl (.head rfl (.head rfl (.head rfl (.head rfl (.head rfl (.head rfl
    (.single (eret_eq ?_ ?_ ?_ ?_)))))))), rfl, ?_, ?_⟩
  all_goals rfl

/-- Entered in EL2 or in EL1, the code goes on in EL1. -/
theorem exists_reaches_dropped (symbols : BootSymbols) (input : BootInput) :
    ∃ s, Loop.Reaches (startStep input.codeBase (start symbols)) input.entered s ∧
      Dropped input s := by
  have hbranch := reaches_atBranch symbols input
  have hstep : startStep input.codeBase (start symbols) (atBranch input) =
      some (.ok ((atBranch input).jump (!(atBranch input).flags.z) 12)) := rfl
  cases hel : input.el with
  | el1 =>
    have hflag : (atBranch input).flags.z = false := by
      rw [atBranch, hel]
      exact current_ne_el2
    rw [hflag] at hstep
    exact ⟨_, hbranch.tail hstep, rfl, rfl, rfl⟩
  | el2 =>
    have hflag : (atBranch input).flags.z = true := by
      rw [atBranch, hel]
      exact current_eq_el2
    have hpc : (atBranch input).jump (!true) 12 = { atBranch input with pc := 4 } := rfl
    rw [hflag, hpc] at hstep
    obtain ⟨s, hreach, hpc', hx0, hmem⟩ := exists_reaches_eret symbols input.codeBase
      (s := { atBranch input with pc := 4 }) rfl hel
    exact ⟨s, hbranch.trans (.head hstep hreach), hpc', hx0, hmem⟩

/-- In one half of the address space the signed comparison is the unsigned one. -/
theorem ofCmp_ge {x y : UInt64} (h : negative x = negative y) :
    (Flags.ofCmp x y).n = (Flags.ofCmp x y).v ↔ y ≤ x := by
  have hv : (Flags.ofCmp x y).v = false := by simp [Flags.ofCmp, h]
  have hhalf : (0x8000000000000000 : UInt64).toNat = 2 ^ 63 := rfl
  rw [negative, negative, decide_eq_decide, UInt64.le_iff_toNat_le, UInt64.le_iff_toNat_le,
    hhalf] at h
  rw [hv, Flags.ofCmp, negative, decide_eq_false_iff_not, UInt64.le_iff_toNat_le,
    UInt64.le_iff_toNat_le, hhalf, UInt64.toNat_sub]
  have hx := x.toNat_lt
  have hy := y.toNat_lt
  omega

/-- All of `.bss` is in one half. -/
theorem negative_eq {pos : UInt64} (hstart : symbols.bssStart ≤ pos) (hend : pos ≤ symbols.bssEnd) :
    negative pos = negative symbols.bssEnd := by
  have hhalf := symbols.one_half
  rw [negative, negative, decide_eq_decide]
  simp only [UInt64.le_iff_toNat_le, UInt64.lt_iff_toNat_lt] at hstart hend hhalf ⊢
  omega

/-- The head of the loop, with the stack pointer set. -/
structure Clearing (symbols : BootSymbols) (input : BootInput) (s : StartState) : Prop where
  pc_eq : s.pc = 16
  x2_eq : s.regs .x2 = symbols.bssEnd
  x0_eq : s.regs .x0 = input.regs .x0
  sp_eq : s.regs .sp = symbols.bootStackTop

/-- The position is compared with the end. -/
theorem Clearing.reaches_bGe (h : Clearing symbols input s)
    (hstart : symbols.bssStart ≤ s.regs .x1) (hend : s.regs .x1 ≤ symbols.bssEnd) :
    Loop.Reaches (startStep input.codeBase (start symbols)) s
      { s with
        pc := if decide (symbols.bssEnd ≤ s.regs .x1) = true then 20 else 18
        flags := .ofCmp (s.regs .x1) symbols.bssEnd } := by
  have hcmp : startStep input.codeBase (start symbols) s =
      some (.ok { s with pc := 17, flags := .ofCmp (s.regs .x1) symbols.bssEnd }) := by
    rw [startStep, h.pc_eq, ← h.x2_eq]
    rfl
  refine .head hcmp (.single ?_)
  rw [← decide_eq_decide.mpr (ofCmp_ge (negative_eq hstart hend))]
  rfl

/-- One word is cleared. -/
theorem Clearing.exists_next (h : Clearing symbols input s)
    (hstart : symbols.bssStart ≤ s.regs .x1) (hlt : s.regs .x1 < symbols.bssEnd) :
    ∃ s', Loop.Reaches (startStep input.codeBase (start symbols)) s s' ∧
      Clearing symbols input s' ∧ s'.regs .x1 = s.regs .x1 + 8 ∧
        ∀ a, s'.mem a = if (a - s.regs .x1).toNat < 8 then 0 else s.mem a := by
  have hhead := h.reaches_bGe hstart (UInt64.le_of_lt hlt)
  rw [decide_eq_false (UInt64.not_le.mpr hlt)] at hhead
  refine ⟨_, hhead.trans (.head rfl (.single rfl)), ⟨rfl, h.x2_eq, h.x0_eq, h.sp_eq⟩, rfl, ?_⟩
  exact store64_zero s.mem (s.regs .x1)

theorem exists_reaches_clearing (symbols : BootSymbols) (input : BootInput) :
    ∃ s, Loop.Reaches (startStep input.codeBase (start symbols)) input.entered s ∧
      Clearing symbols input s ∧ s.regs .x1 = symbols.bssStart ∧ s.mem = input.mem := by
  obtain ⟨s, hreach, hdropped⟩ := exists_reaches_dropped symbols input
  obtain ⟨pc, el, regs, spEl1, sys, flags, mem⟩ := s
  obtain rfl : pc = 12 := hdropped.pc_eq
  refine ⟨_, hreach.trans (.head rfl (.head rfl (.head rfl (.single rfl)))),
    ⟨rfl, rfl, hdropped.x0_eq, rfl⟩, rfl, hdropped.mem_eq⟩

theorem exists_returns_start (symbols : BootSymbols) (input : BootInput) :
    ∃ s, Loop.Returns (startStep input.codeBase (start symbols)) input.entered s ∧
      s.mem = cleared input.mem symbols.bssStart symbols.bssEnd ∧
        s.regs .sp = symbols.bootStackTop ∧ s.regs .x0 = input.regs .x0 := by
  obtain ⟨s₁, hreach₁, hclearing, hx1, hmem⟩ := exists_reaches_clearing symbols input
  obtain ⟨n, hwords⟩ := symbols.exists_words
  obtain ⟨s, hreach, hdone, hend, hcleared⟩ := exists_reaches_cleared_of_start (by decide)
    (fun s hs hstart hlt => Clearing.exists_next hs hstart hlt) hwords hclearing hx1
  rw [hmem] at hcleared
  have hleave := hdone.reaches_bGe (by rw [hend]; exact symbols.start_le_end)
    (UInt64.le_of_eq hend)
  rw [decide_eq_true (UInt64.le_of_eq hend.symm)] at hleave
  have hcall := (Loop.returns_of_leave rfl).of_reaches (hreach₁.trans (hreach.trans hleave))
  exact ⟨_, hcall, hcleared, hdone.sp_eq, hdone.x0_eq⟩

end Start

end Arm64

/-! ### RISC-V -/

namespace Riscv64

inductive StartInstr where
  | bnez (r : Gpr) (target : ℕ)
  /-- The address of a linker symbol. -/
  | la (dst : Gpr) (symbol : UInt64)
  | bgeu (r r' : Gpr) (target : ℕ)
  /-- `sd zero, 0(base)`. -/
  | sdZero (base : Gpr)
  | addi (dst src : Gpr) (value : UInt64)
  | j (target : ℕ)
  | wfi
  /-- The call of `hal_riscv64_rust_entry`. -/
  | call
  deriving DecidableEq, Repr

/-- `_start`. `a0` and `a1` are `x10` and `x11`, `t0` and `t1` are `x5` and `x6`. -/
def start (symbols : BootSymbols) : List StartInstr := [
  .bnez .x10 11,
  .la .x2 symbols.bootStackTop,
  .la .x5 symbols.bssStart,
  .la .x6 symbols.bssEnd,
  -- the loop
  .bgeu .x5 .x6 8,
  .sdZero .x5,
  .addi .x5 .x5 8,
  .j 4,
  .call,
  .wfi,
  .j 9,
  -- other harts park here
  .wfi,
  .j 11]

structure StartState where
  pc : ℕ
  regs : Gpr → UInt64
  mem : Bytes

namespace StartState

variable (s : StartState)

def set (r : Gpr) (value : UInt64) : StartState :=
  { s with pc := s.pc + 1, regs := Function.update s.regs r value }

def jump (taken : Bool) (target : ℕ) : StartState :=
  { s with pc := if taken then target else s.pc + 1 }

end StartState

/-- One instruction. The call is not made. -/
def startStep (code : List StartInstr) (s : StartState) :
    Option (Except StartState StartState) :=
  code[s.pc]?.map fun
    | .bnez r target => .ok (s.jump (s.regs r ≠ 0) target)
    | .la dst symbol => .ok (s.set dst symbol)
    | .bgeu r r' target => .ok (s.jump (s.regs r' ≤ s.regs r) target)
    | .sdZero base => .ok { s with pc := s.pc + 1, mem := store64 s.mem (s.regs base) 0 }
    | .addi dst src value => .ok (s.set dst (s.regs src + value))
    | .j target => .ok (s.jump true target)
    | .wfi => .ok { s with pc := s.pc + 1 }
    | .call => .error s

/-- What the firmware leaves on hart 0. -/
structure BootInput where
  regs : Gpr → UInt64
  mem : Bytes
  hart_zero : regs .x10 = 0

def BootInput.entered (input : BootInput) : StartState := ⟨0, input.regs, input.mem⟩

section Start

variable {symbols : BootSymbols} {input : BootInput} {s : StartState}

/-- The head of the loop, with the stack pointer set. -/
structure Clearing (symbols : BootSymbols) (input : BootInput) (s : StartState) : Prop where
  pc_eq : s.pc = 4
  x6_eq : s.regs .x6 = symbols.bssEnd
  x10_eq : s.regs .x10 = input.regs .x10
  x11_eq : s.regs .x11 = input.regs .x11
  x2_eq : s.regs .x2 = symbols.bootStackTop

theorem Clearing.startStep (h : Clearing symbols input s) : startStep (start symbols) s =
    some (.ok { s with
      pc := if decide (symbols.bssEnd ≤ s.regs .x5) = true then 8 else 5 }) := by
  obtain ⟨pc, regs, mem⟩ := s
  obtain rfl : pc = 4 := h.pc_eq
  rw [← h.x6_eq]
  rfl

/-- One word is cleared. -/
theorem Clearing.exists_next (h : Clearing symbols input s)
    (hlt : s.regs .x5 < symbols.bssEnd) :
    ∃ s', Loop.Reaches (Riscv64.startStep (start symbols)) s s' ∧ Clearing symbols input s' ∧
      s'.regs .x5 = s.regs .x5 + 8 ∧
        ∀ a, s'.mem a = if (a - s.regs .x5).toNat < 8 then 0 else s.mem a := by
  have hhead := h.startStep
  rw [decide_eq_false (UInt64.not_le.mpr hlt)] at hhead
  refine ⟨_, .head hhead (.head rfl (.head rfl (.single rfl))),
    ⟨rfl, h.x6_eq, h.x10_eq, h.x11_eq, h.x2_eq⟩, rfl, ?_⟩
  exact store64_zero s.mem (s.regs .x5)

theorem exists_reaches_clearing (symbols : BootSymbols) (input : BootInput) :
    ∃ s, Loop.Reaches (startStep (start symbols)) input.entered s ∧
      Clearing symbols input s ∧ s.regs .x5 = symbols.bssStart ∧ s.mem = input.mem := by
  have hbnez : startStep (start symbols) input.entered =
      some (.ok (input.entered.jump (input.regs .x10 ≠ 0) 11)) := rfl
  rw [decide_eq_false (not_not.mpr input.hart_zero)] at hbnez
  exact ⟨_, .head hbnez (.head rfl (.head rfl (.single rfl))), ⟨rfl, rfl, rfl, rfl, rfl⟩,
    rfl, rfl⟩

theorem exists_returns_start (symbols : BootSymbols) (input : BootInput) :
    ∃ s, Loop.Returns (startStep (start symbols)) input.entered s ∧
      s.mem = cleared input.mem symbols.bssStart symbols.bssEnd ∧
        s.regs .x2 = symbols.bootStackTop ∧ s.regs .x10 = input.regs .x10 ∧
          s.regs .x11 = input.regs .x11 := by
  obtain ⟨s₁, hreach₁, hclearing, hx5, hmem⟩ := exists_reaches_clearing symbols input
  obtain ⟨n, hwords⟩ := symbols.exists_words
  obtain ⟨s, hreach, hdone, hend, hcleared⟩ := exists_reaches_cleared_of_start (by decide)
    (fun s hs _ hlt => Clearing.exists_next hs hlt) hwords hclearing hx5
  rw [hmem] at hcleared
  have hleave := hdone.startStep
  rw [decide_eq_true (UInt64.le_of_eq hend.symm)] at hleave
  have hcall := (Loop.returns_of_leave rfl).of_reaches (hreach₁.trans (hreach.tail hleave))
  exact ⟨_, hcall, hcleared, hdone.x2_eq, hdone.x10_eq, hdone.x11_eq⟩

/-- A hart other than 0 is on its way to where it parks, or is there. -/
def Parking (s : StartState) : Prop := s.pc = 0 ∧ s.regs .x10 ≠ 0 ∨ s.pc = 11 ∨ s.pc = 12

theorem Parking.exists_next (h : Parking s) :
    ∃ s', startStep (start symbols) s = some (.ok s') ∧ Parking s' := by
  obtain ⟨pc, regs, mem⟩ := s
  obtain ⟨hpc, hhart⟩ | hpc | hpc := h
  · obtain rfl : pc = 0 := hpc
    have hbnez : startStep (start symbols) ⟨0, regs, mem⟩ =
        some (.ok (StartState.jump ⟨0, regs, mem⟩ (regs .x10 ≠ 0) 11)) := rfl
    rw [decide_eq_true hhart] at hbnez
    exact ⟨_, hbnez, .inr (.inl rfl)⟩
  · obtain rfl : pc = 11 := hpc
    exact ⟨_, rfl, .inr (.inr rfl)⟩
  · obtain rfl : pc = 12 := hpc
    exact ⟨_, rfl, .inr (.inl rfl)⟩

/-- Harts other than 0 never come to the call. -/
theorem whileLoop_parking (symbols : BootSymbols) (h : Parking s) (fuel : ℕ) :
    Loop.whileLoop (startStep (start symbols)) fuel s = none :=
  Loop.whileLoop_eq_none (fun _ hs => Parking.exists_next hs) fuel s h

end Start

end Riscv64

/-! ### All three -/

/-- What the code is entered with. -/
def BootInput : Arch → Type
  | .x86_64 => X86_64.BootInput
  | .arm64 => Arm64.BootInput
  | .riscv64 => Riscv64.BootInput

/-- The code comes to the call of the Rust entry point, and hands over there. -/
def HandsOver (symbols : BootSymbols) : (arch : Arch) → BootInput arch → Prop
  | .x86_64, input => ∃ s, Loop.Returns (X86_64.startStep (X86_64.start symbols))
      (X86_64.BootInput.entered input) s ∧
        HandedOver symbols .rsp [.rdi] input.regs s.regs input.mem s.mem
  | .arm64, input => ∃ s, Loop.Returns (Arm64.startStep input.codeBase (Arm64.start symbols))
      (Arm64.BootInput.entered input) s ∧
        HandedOver symbols .sp [.x0] input.regs s.regs input.mem s.mem
  | .riscv64, input => ∃ s, Loop.Returns (Riscv64.startStep (Riscv64.start symbols))
      (Riscv64.BootInput.entered input) s ∧
        HandedOver symbols .x2 [.x10, .x11] input.regs s.regs input.mem s.mem

/-- The argument that the bootloader passes in `rdi` happens to be the end of `.bss`. -/
def ArgumentIsEnd (symbols : BootSymbols) : (arch : Arch) → BootInput arch → Prop
  | .x86_64, input => input.regs .rdi = symbols.bssEnd
  | .arm64, _ => True
  | .riscv64, _ => True

/-- On ARM64 and RISC-V the code always hands over. On x86_64 it clears `.bss` with the register
of the argument, and hands over only when that has its last value from the start. -/
theorem handsOver_iff (symbols : BootSymbols) (arch : Arch) (input : BootInput arch) :
    HandsOver symbols arch input ↔ ArgumentIsEnd symbols arch input := by
  cases arch with
  | x86_64 =>
    obtain ⟨s, hreturns, hmem, hrsp, hrdi⟩ := X86_64.exists_returns_start symbols input
    constructor
    · rintro ⟨s', hreturns', hover⟩
      obtain rfl := hreturns.unique hreturns'
      exact (hover.arguments_eq .rdi (List.mem_singleton_self _)).symm.trans hrdi
    · intro hend
      refine ⟨s, hreturns, hmem, hrsp, fun r hr => ?_⟩
      obtain rfl := List.mem_singleton.mp hr
      exact hrdi.trans (Eq.symm hend)
  | arm64 =>
    obtain ⟨s, hreturns, hmem, hsp, hx0⟩ := Arm64.exists_returns_start symbols input
    refine iff_of_true ⟨s, hreturns, hmem, hsp, fun r hr => ?_⟩ trivial
    obtain rfl := List.mem_singleton.mp hr
    exact hx0
  | riscv64 =>
    obtain ⟨s, hreturns, hmem, hsp, ha0, ha1⟩ := Riscv64.exists_returns_start symbols input
    refine iff_of_true ⟨s, hreturns, hmem, hsp, ?_⟩ trivial
    rw [List.forall_mem_cons, List.forall_mem_singleton]
    exact ⟨ha0, ha1⟩

/-- A `.bss` of one page. -/
def sampleSymbols : BootSymbols where
  bssStart := 0x1000
  bssEnd := 0x2000
  bootStackTop := 0x2000
  start_le_end := by decide
  start_aligned := by decide
  end_aligned := by decide
  one_half := by decide

/-- A bootloader on x86_64 passes a memory map at `0x7000`. -/
theorem start_loses_argument :
    let input : X86_64.BootInput := ⟨fun _ => 0x7000, false, fun _ => 1⟩
    (∃ s, Loop.Returns (X86_64.startStep (X86_64.start sampleSymbols)) input.entered s ∧
      s.regs .rdi = 0x2000) ∧ ¬ HandsOver sampleSymbols .x86_64 input := by
  intro input
  obtain ⟨s, hreturns, -, -, hrdi⟩ := X86_64.exists_returns_start sampleSymbols input
  refine ⟨⟨s, hreturns, hrdi⟩, ?_⟩
  rintro ⟨s', hreturns', hover⟩
  obtain rfl := hreturns.unique hreturns'
  have hkept := hover.arguments_eq .rdi (List.mem_singleton_self _)
  exact absurd (hrdi.symm.trans hkept) (by decide)

end SimurghHal.Cpu
