import SimurghHal.Lib.Stack
import Mathlib.Data.List.Range

/-!
# Interrupt entry on x86_64 (`hal-x86_64/src/cpu.rs`)

The CPU pushes a frame and jumps to the stub of the vector, which pushes the vector. One
trampoline serves all stubs: it pushes the general registers, calls `common_interrupt_entry`
with a pointer to them, pops them again, drops the vector and returns with `iretq`. For some
vectors the CPU pushes an error code below the frame, which nothing takes off the stack.
-/

namespace SimurghHal.Cpu.X86_64

open Stack

inductive Gpr where
  | rax | rbx | rcx | rdx | rsi | rdi | rbp | rsp | r8 | r9 | r10 | r11 | r12 | r13 | r14 | r15
  deriving DecidableEq, Repr

/-- `isr_stub` for one vector. -/
def isrStub (vector : ℕ) : List (Instr Gpr) := [.pushImm (UInt64.ofNat vector)]

/-- `isr_stub_table`, to which the gates of the IDT lead. -/
def isrStubTable : List (List (Instr Gpr)) := (List.range 256).map isrStub

/-- `isr_stub_address`. -/
def isrStubOf (vector : UInt8) : List (Instr Gpr) :=
  isrStubTable.get ⟨vector.toNat, by
    rw [isrStubTable, List.length_map, List.length_range]
    exact vector.toNat_lt⟩

/-- `isr_common_trampoline` up to the call. -/
def saveRegisters : List (Instr Gpr) := [
  .push .r15,
  .push .r14,
  .push .r13,
  .push .r12,
  .push .r11,
  .push .r10,
  .push .r9,
  .push .r8,
  .push .rbp,
  .push .rdi,
  .push .rsi,
  .push .rdx,
  .push .rcx,
  .push .rbx,
  .push .rax,
  .move .rdi .rsp]

/-- `isr_common_trampoline` from the call to `iretq`. -/
def restoreRegisters : List (Instr Gpr) := [
  .pop .rax,
  .pop .rbx,
  .pop .rcx,
  .pop .rdx,
  .pop .rsi,
  .pop .rdi,
  .pop .rbp,
  .pop .r8,
  .pop .r9,
  .pop .r10,
  .pop .r11,
  .pop .r12,
  .pop .r13,
  .pop .r14,
  .pop .r15,
  -- discards the vector
  .add .rsp 8]

/-- The registers that are pushed, in this order. -/
def savedGprs : List Gpr :=
  [.r15, .r14, .r13, .r12, .r11, .r10, .r9, .r8, .rbp, .rdi, .rsi, .rdx, .rcx, .rbx, .rax]

theorem length_savedGprs : savedGprs.length = 15 := rfl

/-! ### One interrupt -/

/-- What the CPU pushes beside the stack pointer, and where it starts to push: below the
interrupted stack pointer, or on a stack of its own. -/
structure Delivery where
  top : UInt64
  ss : UInt64
  rflags : UInt64
  cs : UInt64
  rip : UInt64
  errorCode : UInt64

/-- The exceptions that come with an error code. -/
def HasErrorCode (vector : UInt8) : Prop :=
  vector ∈ ([8, 10, 11, 12, 13, 14, 17, 21, 29, 30] : List UInt8)

instance : DecidablePred HasErrorCode :=
  fun vector => inferInstanceAs (Decidable (vector ∈ _))

/-- What the CPU does before it jumps to the stub. -/
def deliver (m : Machine Gpr) (vector : UInt8) (d : Delivery) : Machine Gpr :=
  let switched : Machine Gpr := { m with regs := Function.update m.regs .rsp d.top }
  let framed := [d.ss, m.regs .rsp, d.rflags, d.cs, d.rip].foldl (Machine.pushWord .rsp) switched
  if HasErrorCode vector then framed.pushWord .rsp d.errorCode else framed

/-- Up to the call of `common_interrupt_entry`. -/
def atCall (m : Machine Gpr) (vector : UInt8) (d : Delivery) : Machine Gpr :=
  exec .rsp (isrStubOf vector ++ saveRegisters) (deliver m vector d)

/-- The call has pushed its return address. -/
def atEntry (m : Machine Gpr) (vector : UInt8) (d : Delivery) (returnAddress : UInt64) :
    Machine Gpr :=
  (atCall m vector d).pushWord .rsp returnAddress

/-- The vector that `common_interrupt_entry` reads: `*saved_regs.add(15)`, as a `u8`. -/
def vectorRead (m : Machine Gpr) : UInt8 :=
  (m.mem (m.regs .rdi + UInt64.ofNat (8 * 15))).toUInt8

/-- What is used of the calling convention: `common_interrupt_entry` takes its return address
off the stack and leaves the words that it was given a pointer to. The trampoline relies on no
register but the stack pointer. -/
structure Returned (entered returned : Machine Gpr) : Prop where
  rsp_eq : returned.regs .rsp = entered.regs .rsp + 8
  saved_eq : ∀ i < 15, returned.mem (entered.regs .rsp + 8 + UInt64.ofNat (8 * i)) =
    entered.mem (entered.regs .rsp + 8 + UInt64.ofNat (8 * i))

/-- Up to `iretq`. -/
def atIretq (returned : Machine Gpr) : Machine Gpr := exec .rsp restoreRegisters returned

/-- The right vector is read, and `iretq` finds the instruction pointer of its frame on top of
the stack and the registers as they were. -/
structure Transparent (m : Machine Gpr) (vector : UInt8) (d : Delivery) (returnAddress : UInt64)
    (returned : Machine Gpr) : Prop where
  vector_eq : vectorRead (atEntry m vector d returnAddress) = vector
  rsp_eq : (atIretq returned).regs .rsp = d.top - 40
  regs_eq : ∀ r ∈ savedGprs, (atIretq returned).regs r = m.regs r

/-! ### Following the stack -/

section Trampoline

variable (m : Machine Gpr) (vector : UInt8) (d : Delivery)

theorem isrStubOf_eq : isrStubOf vector = [.pushImm vector.toUInt64] := by
  have hvector : UInt64.ofNat vector.toNat = vector.toUInt64 := by
    apply UInt64.toNat_inj.mp
    have hlt := vector.toNat_lt
    rw [UInt64.toNat_ofNat', UInt8.toNat_toUInt64, Nat.mod_eq_of_lt (by omega)]
  rw [isrStubOf, ← hvector]
  simp [isrStubTable, isrStub]

theorem sub_five_words (a : UInt64) : a - 8 - 8 - 8 - 8 - 8 = a - 40 := by
  apply UInt64.toNat_inj.mp
  simp only [UInt64.toNat_sub, UInt64.reduceToNat]
  omega

theorem sub_six_words (a : UInt64) : a - 40 - 8 = a - 48 := by
  apply UInt64.toNat_inj.mp
  simp only [UInt64.toNat_sub, UInt64.reduceToNat]
  omega

theorem sub_words_ne (a : UInt64) : a - 40 ≠ a - 48 := by
  intro heq
  have hsub := congrArg UInt64.toNat heq
  simp only [UInt64.toNat_sub, UInt64.reduceToNat] at hsub
  have hlt := a.toNat_lt
  omega

theorem regs_rsp_deliver :
    (deliver m vector d).regs .rsp = if HasErrorCode vector then d.top - 48 else d.top - 40 := by
  rw [deliver]
  split
  · simp [Machine.pushWord, sub_five_words, sub_six_words]
  · simp [Machine.pushWord, sub_five_words]

theorem regs_deliver_of_ne {r : Gpr} (hr : r ≠ .rsp) :
    (deliver m vector d).regs r = m.regs r := by
  rw [deliver]
  split
  · simp [Machine.pushWord, hr]
  · simp [Machine.pushWord, hr]

/-- The stub and the pushes of the trampoline have run. -/
def atSaved : Machine Gpr :=
  exec .rsp (savedGprs.map .push) ((deliver m vector d).pushWord .rsp vector.toUInt64)

theorem atCall_eq :
    atCall m vector d = Instr.apply .rsp (atSaved m vector d) (.move .rdi .rsp) := by
  rw [atCall, isrStubOf_eq]
  rfl

theorem regs_rdi_atCall : (atCall m vector d).regs .rdi = (atCall m vector d).regs .rsp := by
  rw [atCall_eq, regs_move_self, regs_move_of_ne (by decide)]

/-- The stack pointer that the call of `common_interrupt_entry` finds. -/
theorem regs_rsp_atCall :
    (atCall m vector d).regs .rsp + UInt64.ofNat (8 * savedGprs.length) =
      (deliver m vector d).regs .rsp - 8 := by
  rw [atCall_eq, regs_move_of_ne (by decide), atSaved, regs_sp_exec_pushes, regs_sp_pushWord]

variable {m vector d} in
/-- On the stack at the call: the registers, and behind them the vector and what the CPU has
pushed. -/
theorem top_atCall_of {ws : List UInt64} (h : OnTop .rsp (deliver m vector d) ws)
    (hlength : 8 * (ws.length + 16) ≤ UInt64.size) :
    OnTop .rsp (atCall m vector d) ((savedGprs.map m.regs).reverse ++ vector.toUInt64 :: ws) := by
  have hvector := h.pushWord (by omega) vector.toUInt64
  have hroom : 8 * (savedGprs.length + (vector.toUInt64 :: ws).length) ≤ UInt64.size := by
    rw [length_savedGprs, List.length_cons]
    omega
  have hsaved := hvector.exec_pushes (by decide) hroom
  have hvalues : savedGprs.map ((deliver m vector d).pushWord .rsp vector.toUInt64).regs =
      savedGprs.map m.regs := by
    refine List.map_congr_left fun r hr => ?_
    have hne : r ≠ .rsp := fun heq => absurd (heq ▸ hr) (by decide)
    rw [regs_pushWord_of_ne _ hne, regs_deliver_of_ne m vector d hne]
  rw [hvalues] at hsaved
  rw [atCall_eq]
  exact OnTop.move hsaved (by decide)

theorem top_atCall :
    OnTop .rsp (atCall m vector d) ((savedGprs.map m.regs).reverse ++ [vector.toUInt64]) :=
  @top_atCall_of m vector d [] trivial (by decide)

theorem top_atEntry (returnAddress : UInt64) :
    Holds (atEntry m vector d returnAddress).mem ((atCall m vector d).regs .rsp)
      ((savedGprs.map m.regs).reverse ++ [vector.toUInt64]) := by
  have hlength : 8 * (((savedGprs.map m.regs).reverse ++ [vector.toUInt64]).length + 1) ≤
      UInt64.size := by
    rw [List.length_append, List.length_reverse, List.length_map, length_savedGprs,
      List.length_singleton]
    decide
  exact Holds.store_below (top_atCall m vector d) hlength returnAddress

theorem vectorRead_atEntry (returnAddress : UInt64) :
    vectorRead (atEntry m vector d returnAddress) = vector := by
  have hread := (holds_append.mp (top_atEntry m vector d returnAddress)).2.1
  have hrdi : (atEntry m vector d returnAddress).regs .rdi = (atCall m vector d).regs .rsp :=
    (regs_pushWord_of_ne _ (by decide)).trans (regs_rdi_atCall m vector d)
  rw [vectorRead, hrdi]
  have hlength : (savedGprs.map m.regs).reverse.length = 15 := rfl
  rw [hlength] at hread
  rw [hread]
  apply UInt8.toNat_inj.mp
  have hlt := vector.toNat_lt
  rw [UInt64.toNat_toUInt8, UInt8.toNat_toUInt64, Nat.mod_eq_of_lt hlt]

variable {m vector d} {returnAddress : UInt64} {returned : Machine Gpr}

/-- After the call the stack begins with the saved registers again. -/
theorem Returned.top (h : Returned (atEntry m vector d returnAddress) returned) :
    returned.regs .rsp = (atCall m vector d).regs .rsp ∧
      OnTop .rsp returned (savedGprs.map m.regs).reverse := by
  have hrsp : (atEntry m vector d returnAddress).regs .rsp + 8 = (atCall m vector d).regs .rsp :=
    (congrArg (· + 8) (regs_sp_pushWord _)).trans (UInt64.sub_add_cancel _ _)
  have hsame : returned.regs .rsp = (atCall m vector d).regs .rsp := h.rsp_eq.trans hrsp
  refine ⟨hsame, ?_⟩
  have hsaved := h.saved_eq
  rw [hrsp] at hsaved
  rw [OnTop, hsame]
  exact (holds_append.mp (top_atEntry m vector d returnAddress)).1.congr hsaved

theorem atIretq_eq :
    atIretq returned =
      Instr.apply .rsp (exec .rsp (savedGprs.reverse.map .pop) returned) (.add .rsp 8) := by
  have hcode : restoreRegisters = savedGprs.reverse.map .pop ++ [.add .rsp 8] := rfl
  rw [atIretq, hcode, exec_append, exec_cons, exec_nil]

theorem Returned.regs_atIretq (h : Returned (atEntry m vector d returnAddress) returned) {r : Gpr}
    (hr : r ∈ savedGprs) : (atIretq returned).regs r = m.regs r := by
  have htop : OnTop .rsp returned (savedGprs.reverse.map m.regs ++ []) := by
    rw [List.append_nil, List.map_reverse]
    exact h.top.2
  have hnodup : savedGprs.reverse.Nodup := by decide
  have hpopped := (htop.exec_pops hnodup (by decide) (List.length_map _).symm).2
  have hne : r ≠ .rsp := fun heq => absurd (heq ▸ hr) (by decide)
  rw [atIretq_eq, regs_add_of_ne _ hne]
  exact List.map_inj_left.mp hpopped r (List.mem_reverse.mpr hr)

/-- The trampoline takes off the stack what it has put there, and no more. -/
theorem Returned.rsp_atIretq (h : Returned (atEntry m vector d returnAddress) returned) :
    (atIretq returned).regs .rsp = (deliver m vector d).regs .rsp := by
  have hsp : Gpr.rsp ∉ savedGprs.reverse := by decide
  rw [atIretq_eq, regs_add_self, regs_sp_exec_pops hsp, List.length_reverse, h.top.1,
    regs_rsp_atCall, UInt64.sub_add_cancel]

end Trampoline

/-- Whatever `common_interrupt_entry` does within its calling convention, an interrupt goes
through the trampoline unnoticed exactly when the CPU has pushed no error code. -/
theorem transparent_iff {m : Machine Gpr} {vector : UInt8} {d : Delivery} {returnAddress : UInt64}
    {returned : Machine Gpr} (h : Returned (atEntry m vector d returnAddress) returned) :
    Transparent m vector d returnAddress returned ↔ ¬ HasErrorCode vector := by
  have hrsp := h.rsp_atIretq
  rw [regs_rsp_deliver] at hrsp
  constructor
  · intro htransparent hcode
    rw [if_pos hcode, htransparent.rsp_eq] at hrsp
    exact sub_words_ne d.top hrsp
  · intro hcode
    rw [if_neg hcode] at hrsp
    exact ⟨vectorRead_atEntry m vector d returnAddress, hrsp, fun r hr => h.regs_atIretq hr⟩

/-- A stack at `0x8000`. -/
def sampleDelivery : Delivery := ⟨0x8000, 0x10, 0x202, 0x08, 0x401000, 0x2⟩

def sampleMachine : Machine Gpr := ⟨fun _ => 7, fun _ => 0⟩

/-- The return from a function that does nothing but set `rax`. -/
def returnFrom (entered : Machine Gpr) : Machine Gpr :=
  { entered with
    regs := Function.update (Function.update entered.regs .rsp (entered.regs .rsp + 8)) .rax 1 }

theorem returned_returnFrom (entered : Machine Gpr) : Returned entered (returnFrom entered) where
  rsp_eq := by simp [returnFrom]
  saved_eq := fun _ _ => rfl

theorem transparent_keyboard :
    Transparent sampleMachine 33 sampleDelivery 0x500000
      (returnFrom (atEntry sampleMachine 33 sampleDelivery 0x500000)) :=
  (transparent_iff (returned_returnFrom _)).mpr (by decide)

/-- After a page fault `iretq` finds the error code where it looks for the instruction
pointer. -/
theorem page_fault_not_transparent :
    let returned := returnFrom (atEntry sampleMachine 14 sampleDelivery 0x500000)
    Returned (atEntry sampleMachine 14 sampleDelivery 0x500000) returned ∧
      (atIretq returned).regs .rsp = 0x8000 - 48 ∧
      (deliver sampleMachine 14 sampleDelivery).mem (0x8000 - 48) = 0x2 ∧
      ¬ Transparent sampleMachine 14 sampleDelivery 0x500000 returned := by
  intro returned
  have hreturned : Returned (atEntry sampleMachine 14 sampleDelivery 0x500000) returned :=
    returned_returnFrom _
  have hrsp : (atIretq returned).regs .rsp = 0x8000 - 48 := by
    rw [hreturned.rsp_atIretq, regs_rsp_deliver, if_pos (by decide)]
    rfl
  refine ⟨hreturned, hrsp, by decide, fun h => ?_⟩
  exact absurd (h.rsp_eq.symm.trans hrsp) (by decide)

end SimurghHal.Cpu.X86_64
