import SimurghHal.Core.Error
import SimurghHal.Lib.SwitchCheck

/-!
# `context_switch` (`hal-*/src/cpu.rs`)

The three assembly blocks, line by line, over the registers that they and the context
structures name. The two pointer operands are the threads whose contexts they point to.
-/

namespace SimurghHal.Cpu

open Switching

/-! ### x86_64 -/

namespace X86_64

/-- `rip` is only a field of the context; the other registers but `rax` are both. -/
inductive Reg where
  | rax | rbx | rbp | r12 | r13 | r14 | r15 | rsp | rip | rflags | cr3 | cs | ss | fsBase
  deriving DecidableEq, Repr

/-- The fields of `X86_64Context` in order, each of eight bytes. -/
def contextFields : List Reg :=
  [.rbx, .rbp, .r12, .r13, .r14, .r15, .rsp, .rip, .rflags, .cr3, .cs, .ss, .fsBase]

/-- The block of `context_switch`. `pushfq` and `popfq` push and pop `rflags`. -/
def contextSwitch : Code Reg where
  sp := .rsp
  block := [
    .store 0x00 .rbx,
    .store 0x08 .rbp,
    .store 0x10 .r12,
    .store 0x18 .r13,
    .store 0x20 .r14,
    .store 0x28 .r15,
    .store 0x30 .rsp,
    .label .rax,
    .store 0x38 .rax,
    .push .rflags,
    .pop .rax,
    .store 0x40 .rax,
    .move .rax .cr3,
    .store 0x48 .rax,
    -- from here on the registers are those of the other thread
    .load .rax 0x48,
    .move .cr3 .rax,
    .load .rax 0x40,
    .push .rax,
    .pop .rflags,
    .load .rsp 0x30,
    .load .rbx 0x00,
    .load .rbp 0x08,
    .load .r12 0x10,
    .load .r13 0x18,
    .load .r14 0x20,
    .load .r15 0x28,
    .load .rax 0x38,
    .jump .rax]

/-- The callee-saved registers, the stack pointer, the flags and the address space. -/
def preserved : List Reg := [.rbx, .rbp, .r12, .r13, .r14, .r15, .rsp, .rflags, .cr3]

/-- The other fields of the context. -/
def perThread : List Reg := [.cs, .ss, .fsBase]

def layout : Layout Reg where
  saved := preserved
  kept := perThread
  links := [.rax]
  offset r := 8 * contextFields.idxOf r
  resume := 8 * contextFields.idxOf .rip

end X86_64

/-! ### ARM64 -/

namespace Arm64

/-- `x1` is the scratch register of the block. -/
inductive Reg where
  | x1 | x19 | x20 | x21 | x22 | x23 | x24 | x25 | x26 | x27 | x28 | x29 | x30 | sp
  | ttbr0El1 | spsrEl1 | tpidrEl0
  deriving DecidableEq, Repr

/-- The fields of `Arm64Context` in order, each of eight bytes. -/
def contextFields : List Reg :=
  [.x19, .x20, .x21, .x22, .x23, .x24, .x25, .x26, .x27, .x28, .x29, .x30, .sp, .ttbr0El1,
    .spsrEl1, .tpidrEl0]

/-- `stp`. -/
def stp (r r' : Reg) (offset : ℕ) : List (Instr Reg) := [.store offset r, .store (offset + 8) r']

/-- `ldp`. -/
def ldp (r r' : Reg) (offset : ℕ) : List (Instr Reg) := [.load r offset, .load r' (offset + 8)]

/-- The block of `context_switch`. -/
def contextSwitch : Code Reg where
  sp := .sp
  block := List.flatten [
    stp .x19 .x20 0x00,
    stp .x21 .x22 0x10,
    stp .x23 .x24 0x20,
    stp .x25 .x26 0x30,
    stp .x27 .x28 0x40,
    stp .x29 .x30 0x50,
    [.move .x1 .sp],
    [.store 0x60 .x1],
    [.move .x1 .ttbr0El1],
    [.store 0x68 .x1],
    [.label .x1],
    -- over the link register stored above
    [.store (0x50 + 8) .x1],
    [.load .x1 0x68],
    [.move .ttbr0El1 .x1],
    [.fence],
    [.load .x1 0x60],
    [.move .sp .x1],
    ldp .x19 .x20 0x00,
    ldp .x21 .x22 0x10,
    ldp .x23 .x24 0x20,
    ldp .x25 .x26 0x30,
    ldp .x27 .x28 0x40,
    ldp .x29 .x30 0x50,
    [.jump .x30]]

/-- The callee-saved registers, the stack pointer and the address space. -/
def preserved : List Reg :=
  [.x19, .x20, .x21, .x22, .x23, .x24, .x25, .x26, .x27, .x28, .x29, .sp, .ttbr0El1]

/-- The other fields of the context, but for the link register. -/
def perThread : List Reg := [.spsrEl1, .tpidrEl0]

def layout : Layout Reg where
  saved := preserved
  kept := perThread
  links := [.x30]
  offset r := 8 * contextFields.idxOf r
  resume := 8 * contextFields.idxOf .x30

end Arm64

/-! ### RISC-V -/

namespace Riscv64

/-- `t0` is the scratch register of the block. -/
inductive Reg where
  | t0 | s0 | s1 | s2 | s3 | s4 | s5 | s6 | s7 | s8 | s9 | s10 | s11 | ra | sp | satp | sstatus
  | tp
  deriving DecidableEq, Repr

/-- The fields of `Riscv64Context` in order, each of eight bytes. -/
def contextFields : List Reg :=
  [.s0, .s1, .s2, .s3, .s4, .s5, .s6, .s7, .s8, .s9, .s10, .s11, .ra, .sp, .satp, .sstatus, .tp]

/-- The block of `context_switch`. -/
def contextSwitch : Code Reg where
  sp := .sp
  block := [
    .store 0x00 .s0,
    .store 0x08 .s1,
    .store 0x10 .s2,
    .store 0x18 .s3,
    .store 0x20 .s4,
    .store 0x28 .s5,
    .store 0x30 .s6,
    .store 0x38 .s7,
    .store 0x40 .s8,
    .store 0x48 .s9,
    .store 0x50 .s10,
    .store 0x58 .s11,
    .store 0x68 .sp,
    .move .t0 .satp,
    .store 0x70 .t0,
    .label .t0,
    -- the slot of the link register, which is not stored anywhere
    .store 0x60 .t0,
    .load .t0 0x70,
    .move .satp .t0,
    .fence,
    .load .sp 0x68,
    .load .s0 0x00,
    .load .s1 0x08,
    .load .s2 0x10,
    .load .s3 0x18,
    .load .s4 0x20,
    .load .s5 0x28,
    .load .s6 0x30,
    .load .s7 0x38,
    .load .s8 0x40,
    .load .s9 0x48,
    .load .s10 0x50,
    .load .s11 0x58,
    .load .t0 0x60,
    .jump .t0]

/-- The callee-saved registers, the stack pointer and the address space. -/
def preserved : List Reg :=
  [.s0, .s1, .s2, .s3, .s4, .s5, .s6, .s7, .s8, .s9, .s10, .s11, .sp, .satp]

/-- The other fields of the context, but for the link register. -/
def perThread : List Reg := [.sstatus, .tp]

def layout : Layout Reg where
  saved := preserved
  kept := .ra :: perThread
  links := [.t0]
  offset r := 8 * contextFields.idxOf r
  resume := 8 * contextFields.idxOf .ra

end Riscv64

/-! ### All three -/

/-- The registers of an architecture. -/
def Reg : Arch → Type
  | .x86_64 => X86_64.Reg
  | .arm64 => Arm64.Reg
  | .riscv64 => Riscv64.Reg

instance decidableEqReg : (arch : Arch) → DecidableEq (Reg arch)
  | .x86_64 => inferInstanceAs (DecidableEq X86_64.Reg)
  | .arm64 => inferInstanceAs (DecidableEq Arm64.Reg)
  | .riscv64 => inferInstanceAs (DecidableEq Riscv64.Reg)

def contextSwitch : (arch : Arch) → Code (Reg arch)
  | .x86_64 => X86_64.contextSwitch
  | .arm64 => Arm64.contextSwitch
  | .riscv64 => Riscv64.contextSwitch

def layout : (arch : Arch) → Layout (Reg arch)
  | .x86_64 => X86_64.layout
  | .arm64 => Arm64.layout
  | .riscv64 => Riscv64.layout

/-- Registers a thread must find unchanged by the calling convention, with its stack
pointer and its address space. -/
def preserved : (arch : Arch) → List (Reg arch)
  | .x86_64 => X86_64.preserved
  | .arm64 => Arm64.preserved
  | .riscv64 => Riscv64.preserved

/-- Fields of the context that hold the thread-local storage base, the privilege level
and the interrupt state. -/
def perThread : (arch : Arch) → List (Reg arch)
  | .x86_64 => X86_64.perThread
  | .arm64 => Arm64.perThread
  | .riscv64 => Riscv64.perThread

theorem implements (T : Type*) [DecidableEq T] (arch : Arch) :
    Implements T (contextSwitch arch) (layout arch) := by
  cases arch with
  | x86_64 => exact implements_of_check (by decide)
  | arm64 => exact implements_of_check (by decide)
  | riscv64 => exact implements_of_check (by decide)

section Runs

variable {T : Type} [DecidableEq T]

/-- The system after a run from `t₀` running on the machine `m`. -/
def runFrom (arch : Arch) (m : Machine (Reg arch) T) (t₀ : T) (pc : UInt64)
    (events : List (Event (Reg arch) T)) : System (Reg arch) T :=
  (System.start m t₀ pc).run (contextSwitch arch) events

theorem inv_runFrom (arch : Arch) (m : Machine (Reg arch) T) (t₀ : T) (pc : UInt64)
    (events : List (Event (Reg arch) T)) : Inv (layout arch) (runFrom arch m t₀ pc events) :=
  (implements T arch).inv_run events (inv_start m t₀ pc)

theorem saved_layout (arch : Arch) : (layout arch).saved = preserved arch := by
  cases arch <;> rfl

theorem perThread_subset_kept (arch : Arch) : ∀ r ∈ perThread arch, r ∈ (layout arch).kept := by
  cases arch with
  | x86_64 => exact fun _ h => h
  | arm64 => exact fun _ h => h
  | riscv64 => exact fun _ h => List.mem_cons_of_mem _ h

/-- After any run, a switch to a thread that was switched out before restores the
registers and the address of that thread, and changes the context of no thread but the
one that gives up the processor. -/
theorem contextSwitch_preserves (arch : Arch) (m : Machine (Reg arch) T) (t₀ : T) (pc : UInt64)
    (events : List (Event (Reg arch) T)) (dst : T) (behind : UInt64) (snap : Snapshot (Reg arch))
    (hdst : dst ≠ (runFrom arch m t₀ pc events).running)
    (hsnap : (runFrom arch m t₀ pc events).snapshots dst = some snap) :
    let s := runFrom arch m t₀ pc events
    let s' := runFrom arch m t₀ pc (events ++ [.switch dst behind])
    s'.running = dst ∧ (∀ r ∈ preserved arch, s'.machine.regs r = snap.regs r) ∧
      s'.pc = snap.resume ∧ ∀ t, t ≠ s.running → s'.machine.areas t = s.machine.areas t := by
  intro s s'
  have hs' : s' = s.switch (contextSwitch arch) dst behind := by
    simp only [s', s, runFrom, System.run, List.foldl_append, List.foldl_cons, List.foldl_nil,
      System.step]
    exact if_neg hdst
  obtain ⟨hregs, hpc, -⟩ := (implements T arch).resumed (inv_runFrom arch m t₀ pc events) hdst behind
    hsnap
  rw [saved_layout] at hregs
  rw [hs']
  exact ⟨rfl, hregs, hpc, (implements T arch _ _ _ behind hdst).frame⟩

/-- The link register of a resumed thread is what it was: on ARM64 exactly when it was
the address behind the block, on RISC-V exactly when the thread that gives up the
processor has the same one. -/
theorem linkRegister_restored_iff (t₀ : T) (pc : UInt64) :
    (∀ (m : Machine Arm64.Reg T) (events : List (Event Arm64.Reg T)),
      (System.start m t₀ pc).EveryResumption Arm64.contextSwitch
          (fun s dst behind snap =>
            (s.switch Arm64.contextSwitch dst behind).machine.regs .x30 = snap.regs .x30) events ↔
        (System.start m t₀ pc).EveryResumption Arm64.contextSwitch
          (fun _ _ _ snap => snap.regs .x30 = snap.resume) events) ∧
    (∀ (m : Machine Riscv64.Reg T) (events : List (Event Riscv64.Reg T)),
      (System.start m t₀ pc).EveryResumption Riscv64.contextSwitch
          (fun s dst behind snap =>
            (s.switch Riscv64.contextSwitch dst behind).machine.regs .ra = snap.regs .ra) events ↔
        (System.start m t₀ pc).EveryResumption Riscv64.contextSwitch
          (fun s _ _ snap => s.machine.regs .ra = snap.regs .ra) events) := by
  refine ⟨fun m events => ?_, fun m events => ?_⟩
  · have hcode : Implements T Arm64.contextSwitch Arm64.layout := implements T .arm64
    refine hcode.everyResumption_iff (inv_start m t₀ pc) ?_ events
    intro s dst behind snap hinv hdst hsnap
    obtain ⟨-, -, hlink⟩ := hcode.resumed hinv hdst behind hsnap
    rw [hlink .x30 (List.mem_singleton_self _)]
    exact eq_comm
  · have hcode : Implements T Riscv64.contextSwitch Riscv64.layout := implements T .riscv64
    refine hcode.everyResumption_iff (inv_start m t₀ pc) ?_ events
    intro s dst behind snap _ hdst _
    have hkept := (hcode s.machine s.running dst behind hdst).keeps .ra (List.mem_cons_self ..)
    rw [← hkept]
    rfl

/-- The block leaves the other fields alone. -/
theorem regs_switch_perThread {arch : Arch} (s : System (Reg arch) T) {dst : T}
    (hdst : dst ≠ s.running) (behind : UInt64) {r : Reg arch} (hr : r ∈ perThread arch) :
    (s.switch (contextSwitch arch) dst behind).machine.regs r = s.machine.regs r :=
  (implements T arch s.machine s.running dst behind hdst).keeps r (perThread_subset_kept arch r hr)

/-- The other fields of a resumed thread are what they were exactly when the thread that
gives up the processor has the same ones. -/
theorem perThread_restored_iff (arch : Arch) (m : Machine (Reg arch) T) (t₀ : T) (pc : UInt64)
    (events : List (Event (Reg arch) T)) :
    (System.start m t₀ pc).EveryResumption (contextSwitch arch)
        (fun s dst behind snap => ∀ r ∈ perThread arch,
          (s.switch (contextSwitch arch) dst behind).machine.regs r = snap.regs r) events ↔
      (System.start m t₀ pc).EveryResumption (contextSwitch arch)
        (fun s _ _ snap => ∀ r ∈ perThread arch, s.machine.regs r = snap.regs r) events := by
  refine (implements T arch).everyResumption_iff (inv_start m t₀ pc) ?_ events
  intro s dst behind snap _ hdst _
  refine forall₂_congr fun r hr => ?_
  rw [regs_switch_perThread s hdst behind hr]

end Runs

/-! ### Two threads -/

section TwoThreads

/-- Two threads that start with all registers 0 and all contexts 0. -/
def idleMachine (R : Type) : Machine R Bool := ⟨fun _ => 0, fun _ _ => 0, fun _ => 0⟩

/-- Thread `false` computes, is switched out at `behind`, and the other thread computes and
switches back. -/
def thereAndBack {R : Type} (own other : R → UInt64) (behind : UInt64) : List (Event R Bool) :=
  [.work own fun _ => 0, .switch true behind, .work other fun _ => 0]

/-- A thread switched out at 0x2000 with all registers 7 is resumed there with all its
callee-saved registers 7. -/
theorem contextSwitch_preserves_thereAndBack :
    let s := runFrom .arm64 (idleMachine Arm64.Reg) false 0
      (thereAndBack (fun _ => 7) (fun _ => 9) 0x2000 ++ [.switch false 0x3000])
    s.running = false ∧ (∀ r ∈ preserved .arm64, s.machine.regs r = 7) ∧ s.pc = 0x2000 := by
  obtain ⟨hrun, hregs, hpc, -⟩ := contextSwitch_preserves .arm64 (idleMachine Arm64.Reg) false 0
    (thereAndBack (fun _ => 7) (fun _ => 9) 0x2000) false 0x3000 ⟨fun _ => 7, 0x2000⟩
    (by decide) rfl
  exact ⟨hrun, hregs, hpc⟩

/-- A thread that called with link register 0x1000 and was switched out at 0x2000 is
resumed with link register 0x2000 on ARM64, and with that of the other thread on RISC-V. -/
theorem linkRegister_lost :
    (¬ (System.start (idleMachine Arm64.Reg) false 0).EveryResumption Arm64.contextSwitch
      (fun s dst behind snap =>
        (s.switch Arm64.contextSwitch dst behind).machine.regs .x30 = snap.regs .x30)
      (thereAndBack (fun _ => 0x1000) (fun _ => 9) 0x2000 ++ [.switch false 0x3000])) ∧
    ¬ (System.start (idleMachine Riscv64.Reg) false 0).EveryResumption Riscv64.contextSwitch
      (fun s dst behind snap =>
        (s.switch Riscv64.contextSwitch dst behind).machine.regs .ra = snap.regs .ra)
      (thereAndBack (fun _ => 0x1000) (fun _ => 9) 0x2000 ++ [.switch false 0x3000]) := by
  constructor
  · intro h
    have hx30 := h _ false 0x3000 [] rfl (by decide) ⟨fun _ => 0x1000, 0x2000⟩ rfl
    exact absurd hx30 (by decide)
  · intro h
    have hra := h _ false 0x3000 [] rfl (by decide) ⟨fun _ => 0x1000, 0x2000⟩ rfl
    exact absurd hra (by decide)

/-- A thread that was switched out with all registers 7 while the other thread has all
registers 9 is resumed with the other thread's value of every such field. -/
theorem perThread_lost_of_mem (arch : Arch) {r : Reg arch} (hr : r ∈ perThread arch) :
    ¬ (System.start (idleMachine (Reg arch)) false 0).EveryResumption (contextSwitch arch)
      (fun s dst behind snap => ∀ r ∈ perThread arch,
        (s.switch (contextSwitch arch) dst behind).machine.regs r = snap.regs r)
      (thereAndBack (fun _ => 7) (fun _ => 9) 0x2000 ++ [.switch false 0x3000]) := by
  intro h
  have hdst : false ≠ (runFrom arch (idleMachine (Reg arch)) false 0
      (thereAndBack (fun _ => 7) (fun _ => 9) 0x2000)).running := fun hf => by cases hf
  have hown := h _ false 0x3000 [] rfl hdst ⟨fun _ => 7, 0x2000⟩ rfl r hr
  have hother : (9 : UInt64) = 7 := (regs_switch_perThread _ hdst 0x3000 hr).symm.trans hown
  exact absurd hother (by decide)

/-- No architecture restores these fields. -/
theorem perThread_lost :
    (¬ (System.start (idleMachine X86_64.Reg) false 0).EveryResumption X86_64.contextSwitch
      (fun s dst behind snap => ∀ r ∈ X86_64.perThread,
        (s.switch X86_64.contextSwitch dst behind).machine.regs r = snap.regs r)
      (thereAndBack (fun _ => 7) (fun _ => 9) 0x2000 ++ [.switch false 0x3000])) ∧
    (¬ (System.start (idleMachine Arm64.Reg) false 0).EveryResumption Arm64.contextSwitch
      (fun s dst behind snap => ∀ r ∈ Arm64.perThread,
        (s.switch Arm64.contextSwitch dst behind).machine.regs r = snap.regs r)
      (thereAndBack (fun _ => 7) (fun _ => 9) 0x2000 ++ [.switch false 0x3000])) ∧
    ¬ (System.start (idleMachine Riscv64.Reg) false 0).EveryResumption Riscv64.contextSwitch
      (fun s dst behind snap => ∀ r ∈ Riscv64.perThread,
        (s.switch Riscv64.contextSwitch dst behind).machine.regs r = snap.regs r)
      (thereAndBack (fun _ => 7) (fun _ => 9) 0x2000 ++ [.switch false 0x3000]) := by
  refine ⟨?_, ?_, ?_⟩
  · exact perThread_lost_of_mem .x86_64 (show X86_64.Reg.fsBase ∈ X86_64.perThread by decide)
  · exact perThread_lost_of_mem .arm64 (show Arm64.Reg.tpidrEl0 ∈ Arm64.perThread by decide)
  · exact perThread_lost_of_mem .riscv64 (show Riscv64.Reg.tp ∈ Riscv64.perThread by decide)

end TwoThreads

end SimurghHal.Cpu
