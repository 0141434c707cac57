import SimurghHal.Lib.Preempting
import SimurghHal.Cpu.ContextSwitch
import SimurghHal.Cpu.Nesting
import SimurghHal.Cpu.TrapEntry

/-!
# Preempted threads (`hal-*/src/cpu.rs`)

A thread is preempted when the handler of an interrupt calls `context_switch`. It is resumed
when another handler switches back, returns, and the interrupt entry loads its registers. On
x86_64 `iretq` takes the instruction pointer and the flags from the stack. On ARM64 `eret` takes
them from `ELR_EL1` and `SPSR_EL1`, and on RISC-V `sret` from `sepc`. Neither `irq_exception_entry`
or `trap_entry` nor `context_switch` saves these.

The stacks of the threads are apart, and mapped for all of them.
-/

namespace SimurghHal.Cpu

open Preempting

variable {T : Type} [DecidableEq T]

/-! ### Entries with a saved frame -/

section SavedFrame

variable {R : Type} [DecidableEq R] (e : SavedFrame.Entry R) (P : Type)

/-- The interrupts of an architecture that saves the interrupted point in registers. -/
def interruption : Interruption (SavedFrame.Machine R) R UInt8 UInt64 P where
  regs := SavedFrame.Machine.regs
  mem := SavedFrame.Machine.mem
  sp := e.sp
  Takes _ _ := True
  enter returnAddress _ m := e.called m returnAddress
  leave := e.resumed
  resume latched _ := latched
  Room m := SavedFrame.InFrame e.size (m.regs e.sp)

variable {e P}

theorem fromLatch_interruption : (interruption e P).FromLatch := fun _ _ => rfl

theorem transparent_interruption {gprs : List R} (hcheck : SavedFrame.check e gprs = true)
    (hsp : e.sp ∉ gprs) (hall : ∀ r, r ≠ e.sp → r ∈ gprs) : (interruption e P).Transparent := by
  have hresumes : ∀ returnAddress point m returned,
      (interruption e P).Returned m ((interruption e P).enter returnAddress point m) returned →
      e.Resumes m returnAddress fun _ => returned := by
    intro returnAddress point m returned hreturned
    refine e.resumes_of_check hcheck hsp hall ⟨hreturned.sp_eq, fun a ha => ?_⟩
    refine hreturned.frame_eq a ?_
    have hcalled := (SavedFrame.Entry.called_of_check (m := m) hcheck hsp returnAddress).1
    have hsize : m.regs e.sp - (e.called m returnAddress).regs e.sp = e.size := by
      rw [hcalled, Words.sub_sub_self]
    show (a - (e.called m returnAddress).regs e.sp).toNat < _
    rw [← hsize] at ha
    exact ha
  refine ⟨fun returnAddress _ m a _ => ?_, fun returnAddress point m returned _ h => ?_,
    fun returnAddress point m returned _ h => ?_⟩
  · exact (SavedFrame.Entry.called_of_check hcheck hsp returnAddress).2 a
  · funext r
    exact (hresumes returnAddress point m returned h).regs_eq r
  · exact (hresumes returnAddress point m returned h).resumed_mem_eq

variable (e P) in
/-- A platform of this kind, whose block does not use the stack. -/
def platform {S : Type} (code : Switching.Code S) (layout : Switching.Layout S)
    (shared : List (R × S)) : Platform (SavedFrame.Machine R) R UInt8 UInt64 P S where
  toInterruption := interruption e P
  code
  layout
  shared
  withRegs m regs := { m with regs }
  stack _ _ := 0
  withStack m _ := m

theorem lawful_platform {S : Type} [DecidableEq S] {code : Switching.Code S}
    {layout : Switching.Layout S} {shared : List (R × S)}
    (htransparent : (interruption e P).Transparent)
    (himplements : Switching.Implements T code layout)
    (hfst : (shared.map Prod.fst).Nodup) (hsnd : (shared.map Prod.snd).Nodup)
    (hsp : (e.sp, code.sp) ∈ shared) (hsaved : code.sp ∈ layout.saved) :
    (platform e P code layout shared).Lawful T where
  transparent := htransparent
  implements := himplements
  fst_nodup := hfst
  snd_nodup := hsnd
  sp_shared := hsp
  sp_saved := hsaved
  regs_withRegs _ _ := rfl
  mem_withRegs _ _ := rfl
  stack_withRegs _ _ := rfl
  regs_withStack _ _ := rfl
  mem_stack _ := rfl
  mem_withStack _ _ _ _ _ _ _ _ := rfl

end SavedFrame

/-! ### ARM64 -/

namespace Arm64

/-- `ELR_EL1` and `SPSR_EL1`. -/
structure Point where
  elrEl1 : UInt64
  spsrEl1 : UInt64
  deriving DecidableEq, Repr

/-- The general registers of `context_switch`. -/
def shared : List (Gpr × Reg) :=
  [(.x1, .x1), (.x19, .x19), (.x20, .x20), (.x21, .x21), (.x22, .x22), (.x23, .x23), (.x24, .x24),
    (.x25, .x25), (.x26, .x26), (.x27, .x27), (.x28, .x28), (.x29, .x29), (.x30, .x30),
    (.sp, .sp)]

abbrev threads : Platform (SavedFrame.Machine Gpr) Gpr UInt8 UInt64 Point Reg :=
  platform irqExceptionEntry Point contextSwitch layout shared

theorem lawful_threads : threads.Lawful T :=
  lawful_platform (transparent_interruption check_irqExceptionEntry (by decide) mem_gprs)
    (implements T .arm64) (by decide) (by decide) (by decide) (by decide)

end Arm64

/-! ### RISC-V -/

namespace Riscv64

/-- The general registers of `context_switch`. -/
def shared : List (Gpr × Reg) :=
  [(.x1, .ra), (.x2, .sp), (.x4, .tp), (.x5, .t0), (.x8, .s0), (.x9, .s1), (.x18, .s2),
    (.x19, .s3), (.x20, .s4), (.x21, .s5), (.x22, .s6), (.x23, .s7), (.x24, .s8), (.x25, .s9),
    (.x26, .s10), (.x27, .s11)]

/-- What is saved of the interrupted code is `sepc`. -/
abbrev threads : Platform (SavedFrame.Machine Gpr) Gpr UInt8 UInt64 UInt64 Reg :=
  platform trapEntry UInt64 contextSwitch layout shared

theorem lawful_threads : threads.Lawful T :=
  lawful_platform (transparent_interruption check_trapEntry (by decide) mem_gprs)
    (implements T .riscv64) (by decide) (by decide) (by decide) (by decide)

end Riscv64

/-! ### x86_64 -/

namespace X86_64

/-- What the CPU pushes beside the stack pointer. -/
structure Point where
  rip : UInt64
  cs : UInt64
  rflags : UInt64
  ss : UInt64
  deriving DecidableEq, Repr

/-- An interrupt, and where `common_interrupt_entry` returns to. -/
structure Interrupt where
  vector : UInt8
  returnAddress : UInt64

/-- The interrupted code runs in ring 0. From another ring the CPU would take the stack of the
task state segment, and there is none. -/
def Point.InRing0 (point : Point) : Prop := point.cs &&& 3 = 0

instance : DecidablePred Point.InRing0 :=
  fun point => inferInstanceAs (Decidable (point.cs &&& 3 = 0))

def Point.delivery (point : Point) : Delivery :=
  ⟨0, point.ss, point.rflags, point.cs, point.rip, 0⟩

/-- Up to 192 bytes below the stack pointer are used. The trampoline is not made for error
codes. -/
def interruption : Interruption (Stack.Machine Gpr) Gpr UInt64 Interrupt Point where
  regs := Stack.Machine.regs
  mem := Stack.Machine.mem
  sp := .rsp
  Takes i point := ¬ HasErrorCode i.vector ∧ point.InRing0
  enter i point m := atEntry m i.vector (point.delivery.onStack m) i.returnAddress
  leave returned := iretq (atIretq (ret returned))
  resume _ returned :=
    let frame := frameAt (atIretq (ret returned))
    ⟨frame.rip, frame.cs, frame.rflags, frame.ss⟩
  Room m := SavedFrame.InFrame 192 (m.regs .rsp)

/-- This part of the stack, as a stack of its own. -/
def room (m : Stack.Machine Gpr) : StackArea := ⟨m.regs .rsp - 192, 192, by decide⟩

theorem height_room (m : Stack.Machine Gpr) :
    Stack.height (room m).bottom (m.regs .rsp) = (room m).size :=
  congrArg UInt64.toNat (Words.sub_sub_self (m.regs .rsp) 192)

theorem resumes_of_returned {i : Interrupt} {point : Point} {m returned : Stack.Machine Gpr}
    (hcode : ¬ HasErrorCode i.vector)
    (h : interruption.Returned m (interruption.enter i point m) returned) :
    Resumes (room m) m i.vector point.delivery i.returnAddress returned := by
  have hroom := height_room m
  refine resumes_of_keeps rfl hcode hroom.ge hroom.le ⟨fun a hlow hhigh => ?_, ?_⟩ h.sp_eq
  · refine h.frame_eq a ?_
    rw [← hroom] at hhigh
    exact Stack.sub_lt_sub_of_height hlow hhigh
  · exact (congrArg _ h.sp_eq).le

theorem fromFrame_interruption : interruption.FromFrame := by
  intro i point m latched returned htakes h
  have hframe := (resumes_of_returned htakes.1 h).frame_eq
  show Point.mk _ _ _ _ = point
  rw [hframe]
  rfl

theorem transparent_interruption : interruption.Transparent where
  mem_enter i point m a htakes ha := by
    have hroom := height_room m
    obtain ⟨r, -, hgrown⟩ := grown_atEntry m i.vector point.delivery i.returnAddress htakes.1
      hroom.ge
    exact hgrown.mem_eq a (hroom.le.trans (not_lt.mp ha))
  regs_leave i point m returned htakes h := (resumes_of_returned htakes.1 h).regs_eq
  mem_leave i point m returned _ h a _ := by
    show (iretq (atIretq (ret returned))).mem a = returned.mem a
    rw [mem_iretq, mem_atIretq]

/-- The general registers of `context_switch`. -/
def shared : List (Gpr × Reg) :=
  [(.rax, .rax), (.rbx, .rbx), (.rbp, .rbp), (.r12, .r12), (.r13, .r13), (.r14, .r14),
    (.r15, .r15), (.rsp, .rsp)]

/-- `pushfq` and `popfq` use the stack. -/
abbrev threads : Platform (Stack.Machine Gpr) Gpr UInt64 Interrupt Point Reg where
  toInterruption := interruption
  code := contextSwitch
  layout
  shared
  withRegs m regs := { m with regs }
  stack := Stack.Machine.mem
  withStack m stack := { m with mem := stack }

/-- They do before the stack pointer changes. -/
theorem stack_contextSwitch (m : Switching.Machine Reg T) (src dst : T) (behind : UInt64)
    {a : UInt64} (ha : a ≠ m.regs .rsp - 8) :
    (Switching.exec .rsp src dst behind contextSwitch.block m).1.stack a = m.stack a := by
  simp [contextSwitch, Switching.exec, Switching.Instr.apply, ha]

theorem lawful_threads : threads.Lawful T where
  transparent := transparent_interruption
  implements := implements T .x86_64
  fst_nodup := by decide
  snd_nodup := by decide
  sp_shared := by decide
  sp_saved := by decide
  regs_withRegs _ _ := rfl
  mem_withRegs _ _ := rfl
  stack_withRegs _ _ := rfl
  regs_withStack _ _ := rfl
  mem_stack _ := rfl
  mem_withStack m registers src dst behind hstack a ha :=
    (stack_contextSwitch registers src dst behind ha).trans (congrFun hstack a)

end X86_64

/-! ### Runs -/

/-- On x86_64 threads of ring 0 can be preempted by interrupts without an error code: each goes on
where it was, with its registers. -/
theorem preempted_resume (owner : UInt64 → Option T) (m : Stack.Machine X86_64.Gpr)
    (registers : Switching.Machine X86_64.Reg T) (t₀ : T) (point : X86_64.Point)
    (events : List (Event (Stack.Machine X86_64.Gpr) X86_64.Interrupt X86_64.Point X86_64.Reg T))
    (h : X86_64.threads.EveryObeys (.initial m registers t₀ point) owner events) :
    X86_64.threads.EveryResumes (.initial m registers t₀ point) owner
      (fun own _ next => next = own) events :=
  Platform.everyResumes_own X86_64.lawful_threads X86_64.fromFrame_interruption
    (Platform.inv_initial m registers t₀ point) h

section Latched

variable {R S P : Type} [DecidableEq R] [DecidableEq S] {e : SavedFrame.Entry R}
  {code : Switching.Code S} {layout : Switching.Layout S} {shared : List (R × S)}

/-- Threads exchange their registers and stacks, and the core goes on where it was. -/
theorem exchanged (hp : (platform e P code layout shared).Lawful T) (owner : UInt64 → Option T)
    (m : SavedFrame.Machine R) (registers : Switching.Machine S T) (t₀ : T) (point : P)
    (events : List (Event (SavedFrame.Machine R) UInt64 P S T))
    (h : (platform e P code layout shared).EveryObeys (.initial m registers t₀ point) owner
      events) :
    (platform e P code layout shared).EveryResumes (.initial m registers t₀ point) owner
        (fun _ previous next => next = previous) events ∧
      (events.foldl (platform e P code layout shared).step (.initial m registers t₀ point)).point =
        (events.filterMap Event.point?).getLastD point := by
  have hlatch : (platform e P code layout shared).FromLatch := fromLatch_interruption
  refine ⟨Platform.everyResumes_latched hp hlatch ?_ h, Platform.point_foldl hlatch events⟩
  exact Platform.inv_initial m registers t₀ point

end Latched

/-- On ARM64 and RISC-V a thread gets its registers back too, but it goes on where the thread was
that was preempted for it. The core is always where some thread has come to last. -/
theorem preempted_exchanged (owner owner' : UInt64 → Option T) (m : SavedFrame.Machine Arm64.Gpr)
    (m' : SavedFrame.Machine Riscv64.Gpr) (registers : Switching.Machine Arm64.Reg T)
    (registers' : Switching.Machine Riscv64.Reg T) (t₀ t₀' : T) (point : Arm64.Point)
    (sepc : UInt64)
    (events : List (Event (SavedFrame.Machine Arm64.Gpr) UInt64 Arm64.Point Arm64.Reg T))
    (events' : List (Event (SavedFrame.Machine Riscv64.Gpr) UInt64 UInt64 Riscv64.Reg T))
    (h : Arm64.threads.EveryObeys (.initial m registers t₀ point) owner events)
    (h' : Riscv64.threads.EveryObeys (.initial m' registers' t₀' sepc) owner' events') :
    (Arm64.threads.EveryResumes (.initial m registers t₀ point) owner
        (fun _ previous next => next = previous) events ∧
      (events.foldl Arm64.threads.step (.initial m registers t₀ point)).point =
        (events.filterMap Event.point?).getLastD point) ∧
    (Riscv64.threads.EveryResumes (.initial m' registers' t₀' sepc) owner'
        (fun _ previous next => next = previous) events' ∧
      (events'.foldl Riscv64.threads.step (.initial m' registers' t₀' sepc)).point =
        (events'.filterMap Event.point?).getLastD sepc) :=
  ⟨exchanged Arm64.lawful_threads owner m registers t₀ point events h,
    exchanged Riscv64.lawful_threads owner' m' registers' t₀' sepc events' h'⟩

/-! ### Two threads that preempt each other -/

/-- The stacks of two threads. -/
def halves (a : UInt64) : Option Bool := some (decide (0x8000 ≤ a))

theorem halves_low {low high a : UInt64} (hle : 8 ≤ low ∧ low ≤ high ∧ high ≤ 0x8000)
    (ha : (a - low).toNat < (high - low).toNat) : halves a = some false ∧ a ≠ low - 8 := by
  obtain ⟨hlow, hle, hhigh⟩ := hle
  rw [UInt64.le_iff_toNat_le] at hlow hle hhigh
  have hlow' : 8 ≤ low.toNat := hlow
  have hhigh' : high.toNat ≤ 0x8000 := hhigh
  have hlt := a.toNat_lt
  simp only [UInt64.toNat_sub] at ha
  refine ⟨congrArg some (decide_eq_false fun habove => ?_), fun heq => ?_⟩
  · have habove' : 0x8000 ≤ a.toNat := UInt64.le_iff_toNat_le.mp habove
    omega
  · have hnat := congrArg UInt64.toNat heq
    have height : (8 : UInt64).toNat = 8 := rfl
    rw [UInt64.toNat_sub, height] at hnat
    omega

theorem room_low {size sp a : UInt64} (hle : 8 ≤ sp - size ∧ sp - size ≤ sp ∧ sp ≤ 0x8000)
    (ha : SavedFrame.InFrame size sp a) : halves a = some false := by
  refine (halves_low hle ?_).1
  rw [Words.sub_sub_self]
  exact ha

theorem room_high {size sp a : UInt64} (hle : 0x8000 ≤ sp - size ∧ sp - size ≤ sp)
    (ha : SavedFrame.InFrame size sp a) : halves a = some true := by
  obtain ⟨hlow, hle⟩ := hle
  rw [UInt64.le_iff_toNat_le] at hlow hle
  have hlow' : 0x8000 ≤ (sp - size).toNat := hlow
  refine congrArg some (decide_eq_true (UInt64.le_iff_toNat_le.mpr ?_))
  show 0x8000 ≤ a.toNat
  have hsp := sp.toNat_lt
  have hsize := size.toNat_lt
  have hlt := a.toNat_lt
  rw [SavedFrame.InFrame] at ha
  simp only [UInt64.toNat_sub] at ha hlow' hle
  omega

/-- A thread is preempted by a new one, and that by the first again. -/
theorem preempted_resume_swap :
    let c : Core (Stack.Machine X86_64.Gpr) X86_64.Point X86_64.Reg Bool :=
      .initial ⟨fun r => if r = .rsp then 0x7000 else 7, fun _ => 0⟩
        ⟨fun _ => 0, fun _ _ => 0x9000, fun _ => 0⟩ false ⟨0x1000, 8, 0x246, 16⟩
    let i : X86_64.Interrupt := ⟨32, 0x500000⟩
    let events := [.start i id (fun _ => 0) 0x500100 true ⟨0x2000, 8, 0x202, 16⟩,
      .preempt i id (fun _ => 0) 0x500100 false id]
    X86_64.threads.EveryResumes c halves (fun own _ next => next = own) events ∧
      (events.foldl X86_64.threads.step c).point = c.point := by
  intro c i events
  refine ⟨preempted_resume halves _ _ false _ events
    ⟨?_, ⟨?_, X86_64.threads.preempted c i id, rfl, ?_⟩, trivial⟩, by decide +kernel⟩
  · exact Platform.interruptObeys_id ⟨by decide, by decide⟩ (fun a ha => room_low (by decide) ha)
      (by decide +kernel)
  · exact Platform.interruptObeys_id ⟨by decide, by decide⟩
      (fun a ha => room_high (by decide +kernel) ha) (by decide +kernel)
  · exact Platform.returnObeys_id X86_64.lawful_threads rfl
      (fun a ha => halves_low (by decide +kernel) ha) _

/-- With the same, the first thread goes on where the second was. -/
theorem preempted_exchanged_swap :
    let c : Core (SavedFrame.Machine Arm64.Gpr) Arm64.Point Arm64.Reg Bool :=
      .initial (machineAt .sp 0x7000) ⟨fun _ => 0, fun _ _ => 0x9000, fun _ => 0⟩ false ⟨0x1000, 5⟩
    let c' : Core (SavedFrame.Machine Riscv64.Gpr) UInt64 Riscv64.Reg Bool :=
      .initial (machineAt .x2 0x7000) ⟨fun _ => 0, fun _ _ => 0x9000, fun _ => 0⟩ false 0x1000
    let events := [.start 0x500000 id (fun _ => 0) 0x500100 true ⟨0x2000, 5⟩,
      .preempt 0x500000 id (fun _ => 0) 0x500100 false id]
    let events' := [.start 0x500000 id (fun _ => 0) 0x500100 true 0x2000,
      .preempt 0x500000 id (fun _ => 0) 0x500100 false id]
    (Arm64.threads.EveryResumes c halves (fun _ previous next => next = previous) events ∧
      (events.foldl Arm64.threads.step c).point = ⟨0x2000, 5⟩) ∧
    (Riscv64.threads.EveryResumes c' halves (fun _ previous next => next = previous) events' ∧
      (events'.foldl Riscv64.threads.step c').point = 0x2000) := by
  intro c c' events events'
  refine preempted_exchanged halves halves _ _ _ _ false false _ _ events events'
    ⟨?_, ⟨?_, Arm64.threads.preempted c 0x500000 id, rfl, ?_⟩, trivial⟩
    ⟨?_, ⟨?_, Riscv64.threads.preempted c' 0x500000 id, rfl, ?_⟩, trivial⟩
  · exact Platform.interruptObeys_id trivial (fun a ha => room_low (by decide) ha)
      (by decide +kernel)
  · exact Platform.interruptObeys_id trivial (fun a ha => room_high (by decide +kernel) ha)
      (by decide +kernel)
  · exact Platform.returnObeys_id Arm64.lawful_threads rfl
      (fun a ha => halves_low (by decide +kernel) ha) _
  · exact Platform.interruptObeys_id trivial (fun a ha => room_low (by decide) ha)
      (by decide +kernel)
  · exact Platform.interruptObeys_id trivial (fun a ha => room_high (by decide +kernel) ha)
      (by decide +kernel)
  · exact Platform.returnObeys_id Riscv64.lawful_threads rfl
      (fun a ha => halves_low (by decide +kernel) ha) _

end SimurghHal.Cpu
