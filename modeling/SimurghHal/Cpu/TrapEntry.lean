import SimurghHal.Lib.SavedFrame

/-!
# Interrupt entry on ARM64 and RISC-V (`hal-arm64/src/cpu.rs`, `hal-riscv64/src/cpu.rs`)

`irq_exception_entry` and `trap_entry` save the general registers below the interrupted stack
pointer, call a Rust function and load them again. The stores and loads are listed line by
line. The Rust function can be any that keeps to the calling convention.
-/

namespace SimurghHal.Cpu

open SavedFrame

namespace Arm64

/-- The general registers and the stack pointer. -/
inductive Gpr where
  | x0 | x1 | x2 | x3 | x4 | x5 | x6 | x7 | x8 | x9 | x10 | x11 | x12 | x13 | x14 | x15 | x16
  | x17 | x18 | x19 | x20 | x21 | x22 | x23 | x24 | x25 | x26 | x27 | x28 | x29 | x30 | sp
  deriving DecidableEq, Repr

/-- `stp` to `[sp, #-16]!`. -/
def stpPre (r r' : Gpr) : List (Instr Gpr) :=
  [.addi .sp .sp (-16), .store r .sp 0, .store r' .sp 8]

/-- `str` to `[sp, #-16]!`. -/
def strPre (r : Gpr) : List (Instr Gpr) := [.addi .sp .sp (-16), .store r .sp 0]

/-- `ldp` from `[sp], #16`. -/
def ldpPost (r r' : Gpr) : List (Instr Gpr) :=
  [.load r .sp 0, .load r' .sp 8, .addi .sp .sp 16]

/-- `ldr` from `[sp], #16`. -/
def ldrPost (r : Gpr) : List (Instr Gpr) := [.load r .sp 0, .addi .sp .sp 16]

/-- `irq_exception_entry`, around `bl common_interrupt_entry` and up to `eret`. -/
def irqExceptionEntry : Entry Gpr where
  sp := .sp
  link := .x30
  save := List.flatten [
    stpPre .x29 .x30,
    stpPre .x27 .x28,
    stpPre .x25 .x26,
    stpPre .x23 .x24,
    stpPre .x21 .x22,
    stpPre .x19 .x20,
    stpPre .x17 .x18,
    stpPre .x15 .x16,
    stpPre .x13 .x14,
    stpPre .x11 .x12,
    stpPre .x9 .x10,
    stpPre .x7 .x8,
    stpPre .x5 .x6,
    stpPre .x3 .x4,
    stpPre .x1 .x2,
    strPre .x0]
  restore := List.flatten [
    ldrPost .x0,
    ldpPost .x1 .x2,
    ldpPost .x3 .x4,
    ldpPost .x5 .x6,
    ldpPost .x7 .x8,
    ldpPost .x9 .x10,
    ldpPost .x11 .x12,
    ldpPost .x13 .x14,
    ldpPost .x15 .x16,
    ldpPost .x17 .x18,
    ldpPost .x19 .x20,
    ldpPost .x21 .x22,
    ldpPost .x23 .x24,
    ldpPost .x25 .x26,
    ldpPost .x27 .x28,
    ldpPost .x29 .x30]
  size := 256

/-- All registers but the stack pointer. -/
def gprs : List Gpr :=
  [.x0, .x1, .x2, .x3, .x4, .x5, .x6, .x7, .x8, .x9, .x10, .x11, .x12, .x13, .x14, .x15, .x16,
    .x17, .x18, .x19, .x20, .x21, .x22, .x23, .x24, .x25, .x26, .x27, .x28, .x29, .x30]

theorem mem_gprs (r : Gpr) (h : r ≠ .sp) : r ∈ gprs := by
  cases r <;> first | decide | contradiction

end Arm64

namespace Riscv64

/-- The general registers but `x0`, which is always zero. `x2` is the stack pointer. -/
inductive Gpr where
  | x1 | x2 | x3 | x4 | x5 | x6 | x7 | x8 | x9 | x10 | x11 | x12 | x13 | x14 | x15 | x16 | x17
  | x18 | x19 | x20 | x21 | x22 | x23 | x24 | x25 | x26 | x27 | x28 | x29 | x30 | x31
  deriving DecidableEq, Repr

/-- `trap_entry`, around `call common_trap_entry` and up to `sret`. The stack pointer is stored
after it has been lowered, and is not loaded again. -/
def trapEntry : Entry Gpr where
  sp := .x2
  link := .x1
  save := [
    .addi .x2 .x2 (-248),
    .store .x1 .x2 0,
    .store .x2 .x2 8,
    .store .x3 .x2 16,
    .store .x4 .x2 24,
    .store .x5 .x2 32,
    .store .x6 .x2 40,
    .store .x7 .x2 48,
    .store .x8 .x2 56,
    .store .x9 .x2 64,
    .store .x10 .x2 72,
    .store .x11 .x2 80,
    .store .x12 .x2 88,
    .store .x13 .x2 96,
    .store .x14 .x2 104,
    .store .x15 .x2 112,
    .store .x16 .x2 120,
    .store .x17 .x2 128,
    .store .x18 .x2 136,
    .store .x19 .x2 144,
    .store .x20 .x2 152,
    .store .x21 .x2 160,
    .store .x22 .x2 168,
    .store .x23 .x2 176,
    .store .x24 .x2 184,
    .store .x25 .x2 192,
    .store .x26 .x2 200,
    .store .x27 .x2 208,
    .store .x28 .x2 216,
    .store .x29 .x2 224,
    .store .x30 .x2 232,
    .store .x31 .x2 240]
  restore := [
    .load .x1 .x2 0,
    .load .x3 .x2 16,
    .load .x4 .x2 24,
    .load .x5 .x2 32,
    .load .x6 .x2 40,
    .load .x7 .x2 48,
    .load .x8 .x2 56,
    .load .x9 .x2 64,
    .load .x10 .x2 72,
    .load .x11 .x2 80,
    .load .x12 .x2 88,
    .load .x13 .x2 96,
    .load .x14 .x2 104,
    .load .x15 .x2 112,
    .load .x16 .x2 120,
    .load .x17 .x2 128,
    .load .x18 .x2 136,
    .load .x19 .x2 144,
    .load .x20 .x2 152,
    .load .x21 .x2 160,
    .load .x22 .x2 168,
    .load .x23 .x2 176,
    .load .x24 .x2 184,
    .load .x25 .x2 192,
    .load .x26 .x2 200,
    .load .x27 .x2 208,
    .load .x28 .x2 216,
    .load .x29 .x2 224,
    .load .x30 .x2 232,
    .load .x31 .x2 240,
    .addi .x2 .x2 248]
  size := 248

/-- All registers but the stack pointer. -/
def gprs : List Gpr :=
  [.x1, .x3, .x4, .x5, .x6, .x7, .x8, .x9, .x10, .x11, .x12, .x13, .x14, .x15, .x16, .x17, .x18,
    .x19, .x20, .x21, .x22, .x23, .x24, .x25, .x26, .x27, .x28, .x29, .x30, .x31]

theorem mem_gprs (r : Gpr) (h : r ≠ .x2) : r ∈ gprs := by
  cases r <;> first | decide | contradiction

end Riscv64

/-! ### Both are transparent -/

theorem check_irqExceptionEntry : check Arm64.irqExceptionEntry Arm64.gprs = true := by
  decide +kernel

theorem check_trapEntry : check Riscv64.trapEntry Riscv64.gprs = true := by
  decide +kernel

section Runs

variable {m : Machine Arm64.Gpr} {events : List (Event Arm64.Gpr)}
  {m' : Machine Riscv64.Gpr} {events' : List (Event Riscv64.Gpr)}

theorem every_irqExceptionEntry
    (h : Simulation.Every Arm64.irqExceptionEntry.step Arm64.irqExceptionEntry.ObeysAt m events) :
    Simulation.Every Arm64.irqExceptionEntry.step Arm64.irqExceptionEntry.TransparentAt m events :=
  Entry.every_transparent check_irqExceptionEntry (by decide) Arm64.mem_gprs h

theorem every_trapEntry
    (h : Simulation.Every Riscv64.trapEntry.step Riscv64.trapEntry.ObeysAt m' events') :
    Simulation.Every Riscv64.trapEntry.step Riscv64.trapEntry.TransparentAt m' events' :=
  Entry.every_transparent check_trapEntry (by decide) Riscv64.mem_gprs h

/-- However often a program is interrupted, each interrupt gives back all of its registers and
itself writes to the 256 or 248 bytes below its stack pointer only. -/
theorem entries_transparent
    (h : Simulation.Every Arm64.irqExceptionEntry.step Arm64.irqExceptionEntry.ObeysAt m events)
    (h' : Simulation.Every Riscv64.trapEntry.step Riscv64.trapEntry.ObeysAt m' events') :
    Simulation.Every Arm64.irqExceptionEntry.step Arm64.irqExceptionEntry.TransparentAt m events ∧
      Simulation.Every Riscv64.trapEntry.step Riscv64.trapEntry.TransparentAt m' events' :=
  ⟨every_irqExceptionEntry h, every_trapEntry h'⟩

/-- What a program computes in its registers does not depend on the interrupts. -/
theorem interrupted_computation
    (h : Simulation.Every Arm64.irqExceptionEntry.step Arm64.irqExceptionEntry.ObeysAt m events)
    (h' : Simulation.Every Riscv64.trapEntry.step Riscv64.trapEntry.ObeysAt m' events')
    (hregs : ∀ event ∈ events, event.OnRegisters) (hregs' : ∀ event ∈ events', event.OnRegisters) :
    (events.foldl Arm64.irqExceptionEntry.step m).regs =
        ((uninterrupted events).foldl Arm64.irqExceptionEntry.step m).regs ∧
      (events'.foldl Riscv64.trapEntry.step m').regs =
        ((uninterrupted events').foldl Riscv64.trapEntry.step m').regs :=
  ⟨Entry.regs_foldl (every_irqExceptionEntry h) hregs rfl,
    Entry.regs_foldl (every_trapEntry h') hregs' rfl⟩

end Runs

/-- A handler that leaves a value in a register. -/
def leaves {R : Type} [DecidableEq R] (r : R) (value : UInt64) (m : Machine R) : Machine R :=
  { m with regs := Function.update m.regs r value }

theorem obeys_leaves {R : Type} [DecidableEq R] {e : Entry R} {r : R} (hr : r ≠ e.sp)
    (value : UInt64) (m : Machine R) : e.Obeys m (leaves r value m) where
  sp_eq := Function.update_of_ne hr.symm _ _
  frame_eq _ _ := rfl

/-- A machine with a stack pointer. -/
def machineAt {R : Type} [DecidableEq R] (spReg : R) (sp : UInt64) : Machine R :=
  ⟨Function.update (fun _ => 7) spReg sp, fun _ => 0⟩

/-- Two interrupts with the program between them. -/
theorem entries_transparent_twice :
    let events := [Event.interrupt 0x500000 (leaves .x0 1), .program (leaves .x19 5),
      .interrupt 0x500000 (leaves .x9 2)]
    let events' := [Event.interrupt 0x500000 (leaves .x10 1), .program (leaves .x8 5),
      .interrupt 0x500000 (leaves .x5 2)]
    Simulation.Every Arm64.irqExceptionEntry.step Arm64.irqExceptionEntry.TransparentAt
        (machineAt .sp 0x8000) events ∧
      Simulation.Every Riscv64.trapEntry.step Riscv64.trapEntry.TransparentAt
        (machineAt .x2 0x8000) events' := by
  intro events events'
  refine entries_transparent ?_ ?_
  · exact ⟨obeys_leaves (by decide) _ _, trivial, obeys_leaves (by decide) _ _, trivial⟩
  · exact ⟨obeys_leaves (by decide) _ _, trivial, obeys_leaves (by decide) _ _, trivial⟩

/-- With a stack pointer of zero the frame is at the top of the address space, and its bytes
are above the stack pointer. -/
theorem trapEntry_noticed :
    let m := machineAt Riscv64.Gpr.x2 0
    Riscv64.trapEntry.Obeys (Riscv64.trapEntry.called m 0x500000)
        (leaves .x10 1 (Riscv64.trapEntry.called m 0x500000)) ∧
      ¬ Riscv64.trapEntry.Unnoticed m 0x500000 (leaves .x10 1) := by
  intro m
  refine ⟨obeys_leaves (by decide) _ _, fun h => ?_⟩
  have hsame := h.called_mem_eq 0xFFFFFFFFFFFFFF08 (by decide)
  exact absurd hsame (by decide +kernel)

end SimurghHal.Cpu
