import SimurghHal.Lib.ByteMemory
import SimurghHal.Lib.Simulation
import Mathlib.Logic.Function.Basic

/-!
# Interrupts that save the registers in a frame

The code that an interrupt enters stores the registers in a frame below the stack pointer,
calls a handler and loads the registers again. Symbolic execution follows how far the stack
pointer has been lowered, which word of the frame holds which register, and which registers
have the values they had at the interruption. Code that passes `check` resumes what it has
interrupted, whatever the handler does outside the frame (`Entry.every_transparent`).
-/

namespace SavedFrame

open ByteMemory

variable {R : Type*}

structure Machine (R : Type*) where
  regs : R → UInt64
  mem : Bytes

/-- Loads and stores are of eight bytes. -/
inductive Instr (R : Type*) where
  | addi (dst src : R) (value : UInt64)
  | store (src base : R) (offset : UInt64)
  | load (dst base : R) (offset : UInt64)
  deriving DecidableEq, Repr

/-- The code around the call of the handler. The call leaves its return address in `link`. -/
structure Entry (R : Type*) where
  sp : R
  link : R
  save : List (Instr R)
  restore : List (Instr R)
  /-- The bytes that the frame takes. -/
  size : UInt64

/-- The interrupted program goes on, or is interrupted. -/
inductive Event (R : Type*) where
  | program (next : Machine R → Machine R)
  | interrupt (returnAddress : UInt64) (handler : Machine R → Machine R)

/-- What the program computes in registers depends on registers only. -/
def Event.OnRegisters : Event R → Prop
  | .program next => ∀ m m' : Machine R, m.regs = m'.regs → (next m).regs = (next m').regs
  | .interrupt _ _ => True

def Event.isProgram : Event R → Bool
  | .program _ => true
  | .interrupt _ _ => false

/-- The events without the interrupts. -/
def uninterrupted (events : List (Event R)) : List (Event R) := events.filter Event.isProgram

/-- One of the bytes right below the stack pointer. -/
def InFrame (size sp a : UInt64) : Prop := (a - (sp - size)).toNat < size.toNat

section Exec

variable [DecidableEq R]

def Instr.apply (m : Machine R) : Instr R → Machine R
  | .addi dst src value => { m with regs := Function.update m.regs dst (m.regs src + value) }
  | .store src base offset =>
    { m with mem := store64 m.mem (m.regs base + offset) (m.regs src) }
  | .load dst base offset =>
    { m with regs := Function.update m.regs dst (load64 m.mem (m.regs base + offset)) }

section Fields

variable (m : Machine R) (dst src base : R) (value offset : UInt64)

theorem regs_addi : (Instr.apply m (.addi dst src value)).regs =
    Function.update m.regs dst (m.regs src + value) := rfl

theorem mem_store : (Instr.apply m (.store src base offset)).mem =
    store64 m.mem (m.regs base + offset) (m.regs src) := rfl

theorem regs_load : (Instr.apply m (.load dst base offset)).regs =
    Function.update m.regs dst (load64 m.mem (m.regs base + offset)) := rfl

end Fields

def exec (code : List (Instr R)) (m : Machine R) : Machine R := code.foldl Instr.apply m

namespace Entry

variable (e : Entry R) (m : Machine R)

/-- The handler is entered. -/
def called (returnAddress : UInt64) : Machine R :=
  let saved := exec e.save m
  { saved with regs := Function.update saved.regs e.link returnAddress }

/-- The code has come to its return from the interrupt. -/
def resumed (returned : Machine R) : Machine R := exec e.restore returned

def step : Event R → Machine R
  | .program next => next m
  | .interrupt returnAddress handler => e.resumed (handler (e.called m returnAddress))

/-- What is used of the calling convention: the handler returns with the stack pointer it was
entered with, and leaves the frame alone. -/
structure Obeys (called returned : Machine R) : Prop where
  sp_eq : returned.regs e.sp = called.regs e.sp
  frame_eq : ∀ a : UInt64, (a - called.regs e.sp).toNat < e.size.toNat →
    returned.mem a = called.mem a

/-- The registers are as they were. The code itself has written to the frame only, neither
before the call nor after it to anything else. -/
structure Resumes (returnAddress : UInt64) (handler : Machine R → Machine R) : Prop where
  regs_eq : ∀ r, (e.resumed (handler (e.called m returnAddress))).regs r = m.regs r
  called_mem_eq : ∀ a, ¬ InFrame e.size (m.regs e.sp) a →
    (e.called m returnAddress).mem a = m.mem a
  resumed_mem_eq : ∀ a, ¬ InFrame e.size (m.regs e.sp) a →
    (e.resumed (handler (e.called m returnAddress))).mem a =
      (handler (e.called m returnAddress)).mem a

/-- The registers are as they were, and the code itself has written to nothing at or above the
stack pointer. -/
structure Unnoticed (returnAddress : UInt64) (handler : Machine R → Machine R) : Prop where
  regs_eq : ∀ r, (e.resumed (handler (e.called m returnAddress))).regs r = m.regs r
  called_mem_eq : ∀ a, m.regs e.sp ≤ a → (e.called m returnAddress).mem a = m.mem a
  resumed_mem_eq : ∀ a, m.regs e.sp ≤ a →
    (e.resumed (handler (e.called m returnAddress))).mem a =
      (handler (e.called m returnAddress)).mem a

/-- The handler of an interrupt obeys. -/
def ObeysAt : Event R → Prop
  | .program _ => True
  | .interrupt returnAddress handler =>
    e.Obeys (e.called m returnAddress) (handler (e.called m returnAddress))

/-- Interrupts resume, and go unnoticed as long as the frame does not go around. -/
def TransparentAt : Event R → Prop
  | .program _ => True
  | .interrupt returnAddress handler => e.Resumes m returnAddress handler ∧
      (e.size ≤ m.regs e.sp → e.Unnoticed m returnAddress handler)

end Entry

end Exec

/-! ### Symbolic execution -/

/-- What is known of a machine in terms of the interrupted one. -/
structure View (R : Type*) where
  /-- How far the stack pointer is below the interrupted one. -/
  depth : UInt64
  /-- Registers with their old values. -/
  intact : List R
  /-- How far below the interrupted stack pointer there is which old value. -/
  saved : List (UInt64 × R)

structure View.Describes (sp : R) (size : UInt64) (interrupted : Machine R) (mem : Bytes)
    (m : Machine R) (v : View R) : Prop where
  sp_eq : m.regs sp = interrupted.regs sp - v.depth
  sp_notMem : sp ∉ v.intact
  intact_eq : ∀ r ∈ v.intact, m.regs r = interrupted.regs r
  saved_inside : ∀ p ∈ v.saved, 8 ≤ p.1 ∧ p.1 ≤ size
  saved_eq : ∀ p ∈ v.saved, load64 m.mem (interrupted.regs sp - p.1) = interrupted.regs p.2
  mem_eq : ∀ a, ¬ InFrame size (interrupted.regs sp) a → m.mem a = mem a

section Check

variable [DecidableEq R]

def View.step (sp : R) (size : UInt64) (v : View R) : Instr R → Option (View R)
  | .addi dst src value =>
    if dst = sp ∧ src = sp then some { v with depth := v.depth - value } else none
  | .store src base offset =>
    let slot := v.depth - offset
    if base = sp ∧ 8 ≤ slot ∧ slot ≤ size ∧ ∀ p ∈ v.saved, Apart p.1 slot then
      -- a register with some other value may be stored too, but nothing is known of the word
      some (if src ∈ v.intact then { v with saved := (slot, src) :: v.saved } else v)
    else none
  | .load dst base offset =>
    if base = sp ∧ dst ≠ sp ∧ (v.depth - offset, dst) ∈ v.saved then
      some { v with intact := dst :: v.intact }
    else none

/-- All that is known at the interruption, with these registers beside the stack pointer. -/
def View.initial (gprs : List R) : View R := ⟨0, gprs, []⟩

/-- Of the registers the call keeps the stack pointer only. -/
def View.afterCall (v : View R) : View R := { v with intact := [] }

/-- The stack pointer comes back, and so do the other registers. -/
def check (e : Entry R) (gprs : List R) : Bool :=
  match e.save.foldlM (View.step e.sp e.size) (.initial gprs) with
  | none => false
  | some called =>
    match e.restore.foldlM (View.step e.sp e.size) called.afterCall with
    | none => false
    | some resumed => e.link ≠ e.sp ∧ called.depth = e.size ∧ resumed.depth = 0 ∧
        ∀ r ∈ gprs, r ∈ resumed.intact

end Check

/-! ### Addresses below the stack pointer -/

section Addresses

variable {sp size slot slot' : UInt64}

theorem sub_add_eq (sp depth offset : UInt64) : sp - depth + offset = sp - (depth - offset) := by
  apply UInt64.toNat_inj.mp
  simp only [UInt64.toNat_add, UInt64.toNat_sub]
  have hdepth := depth.toNat_lt
  have hoffset := offset.toNat_lt
  omega

theorem apart_sub (sp : UInt64) (h : Apart slot slot') : Apart (sp - slot) (sp - slot') := by
  have hswap : ∀ s s' : UInt64, sp - s - (sp - s') = s' - s := by
    intro s s'
    apply UInt64.toNat_inj.mp
    simp only [UInt64.toNat_sub]
    have hsp := sp.toNat_lt
    have hs := s.toNat_lt
    have hs' := s'.toNat_lt
    omega
  rw [Apart, hswap, hswap]
  exact h.symm

/-- A word of the frame has no byte outside. -/
theorem le_sub_of_not_inFrame {a : UInt64} (hlow : 8 ≤ slot) (hhigh : slot ≤ size)
    (h : ¬ InFrame size sp a) : 8 ≤ (a - (sp - slot)).toNat := by
  have height : (8 : UInt64).toNat = 8 := rfl
  rw [UInt64.le_iff_toNat_le] at hlow hhigh
  rw [height] at hlow
  rw [InFrame] at h
  simp only [UInt64.toNat_sub] at h ⊢
  have hsp := sp.toNat_lt
  have hsize := size.toNat_lt
  have ha := a.toNat_lt
  omega

theorem inFrame_add {i : ℕ} (hlow : 8 ≤ slot) (hhigh : slot ≤ size) (hi : i < 8) :
    InFrame size sp (sp - slot + UInt64.ofNat i) := by
  have height : (8 : UInt64).toNat = 8 := rfl
  rw [UInt64.le_iff_toNat_le] at hlow hhigh
  rw [height] at hlow
  rw [InFrame]
  simp only [UInt64.toNat_sub, UInt64.toNat_add, UInt64.toNat_ofNat']
  have hsp := sp.toNat_lt
  have hsize := size.toNat_lt
  omega

/-- Nothing at or above the stack pointer is in the frame, unless the frame goes around. -/
theorem not_inFrame_of_le {a : UInt64} (hsize : size ≤ sp) (ha : sp ≤ a) :
    ¬ InFrame size sp a := by
  rw [UInt64.le_iff_toNat_le] at hsize ha
  rw [InFrame]
  simp only [UInt64.toNat_sub]
  have hlt := a.toNat_lt
  omega

end Addresses

/-! ### Soundness -/

section Sound

variable [DecidableEq R] {sp : R} {size : UInt64} {interrupted m : Machine R} {mem : Bytes}
  {v v' : View R}

namespace View.Describes

theorem addi (h : v.Describes sp size interrupted mem m) (value : UInt64) :
    View.Describes sp size interrupted mem (Instr.apply m (.addi sp sp value))
      { v with depth := v.depth - value } where
  sp_eq := by rw [regs_addi, Function.update_self, h.sp_eq, sub_add_eq]
  sp_notMem := h.sp_notMem
  intact_eq r hr := by
    have hne : r ≠ sp := fun heq => h.sp_notMem (heq ▸ hr)
    rw [regs_addi, Function.update_of_ne hne]
    exact h.intact_eq r hr
  saved_inside := h.saved_inside
  saved_eq := h.saved_eq
  mem_eq := h.mem_eq

/-- A store to the frame that is apart from the words that are known. -/
theorem store (h : v.Describes sp size interrupted mem m) (src : R) {offset : UInt64}
    (hlow : 8 ≤ v.depth - offset) (hhigh : v.depth - offset ≤ size)
    (hapart : ∀ p ∈ v.saved, Apart p.1 (v.depth - offset)) :
    v.Describes sp size interrupted mem (Instr.apply m (.store src sp offset)) := by
  have haddr : m.regs sp + offset = interrupted.regs sp - (v.depth - offset) := by
    rw [h.sp_eq, sub_add_eq]
  refine ⟨h.sp_eq, h.sp_notMem, h.intact_eq, h.saved_inside, fun p hp => ?_, fun a ha => ?_⟩
  · rw [mem_store, haddr, load64_store64_of_apart (apart_sub _ (hapart p hp))]
    exact h.saved_eq p hp
  · rw [mem_store, haddr, store64_of_le (le_sub_of_not_inFrame hlow hhigh ha)]
    exact h.mem_eq a ha

/-- When an old value is stored, its word becomes known too. -/
theorem store_intact (h : v.Describes sp size interrupted mem m) {src : R} {offset : UInt64}
    (hsrc : src ∈ v.intact) (hlow : 8 ≤ v.depth - offset) (hhigh : v.depth - offset ≤ size)
    (hapart : ∀ p ∈ v.saved, Apart p.1 (v.depth - offset)) :
    View.Describes sp size interrupted mem (Instr.apply m (.store src sp offset))
      { v with saved := (v.depth - offset, src) :: v.saved } := by
  have hrest := h.store src hlow hhigh hapart
  refine ⟨hrest.sp_eq, hrest.sp_notMem, hrest.intact_eq, ?_, ?_, hrest.mem_eq⟩
  · exact List.forall_mem_cons.mpr ⟨⟨hlow, hhigh⟩, h.saved_inside⟩
  · refine List.forall_mem_cons.mpr ⟨?_, hrest.saved_eq⟩
    rw [mem_store, ← sub_add_eq, ← h.sp_eq, load64_store64_self]
    exact h.intact_eq src hsrc

/-- A load of the word that holds the old value of the register. -/
theorem load (h : v.Describes sp size interrupted mem m) {dst : R} {offset : UInt64}
    (hdst : dst ≠ sp) (hsaved : (v.depth - offset, dst) ∈ v.saved) :
    View.Describes sp size interrupted mem (Instr.apply m (.load dst sp offset))
      { v with intact := dst :: v.intact } where
  sp_eq := by
    rw [regs_load, Function.update_of_ne hdst.symm]
    exact h.sp_eq
  sp_notMem := List.not_mem_cons_of_ne_of_not_mem hdst.symm h.sp_notMem
  intact_eq r hr := by
    by_cases heq : r = dst
    · subst heq
      rw [regs_load, Function.update_self, h.sp_eq, sub_add_eq]
      exact h.saved_eq (v.depth - offset, r) hsaved
    · rw [regs_load, Function.update_of_ne heq]
      exact h.intact_eq r ((List.mem_cons.mp hr).resolve_left heq)
  saved_inside := h.saved_inside
  saved_eq := h.saved_eq
  mem_eq := h.mem_eq

theorem step (h : v.Describes sp size interrupted mem m) {instr : Instr R}
    (hstep : v.step sp size instr = some v') :
    v'.Describes sp size interrupted mem (instr.apply m) := by
  cases instr with
  | addi dst src value =>
    rw [View.step] at hstep
    split at hstep
    · next hregs =>
      obtain ⟨rfl, rfl⟩ := hregs
      obtain rfl := Option.some.inj hstep
      exact h.addi value
    · cases hstep
  | store src base offset =>
    simp only [View.step] at hstep
    split at hstep
    · next hslot =>
      obtain ⟨rfl, hlow, hhigh, hapart⟩ := hslot
      obtain rfl := Option.some.inj hstep
      split
      · next hsrc => exact h.store_intact hsrc hlow hhigh hapart
      · exact h.store src hlow hhigh hapart
    · cases hstep
  | load dst base offset =>
    rw [View.step] at hstep
    split at hstep
    · next hslot =>
      obtain ⟨rfl, hdst, hsaved⟩ := hslot
      obtain rfl := Option.some.inj hstep
      exact h.load hdst hsaved
    · cases hstep

theorem exec {code : List (Instr R)} (h : v.Describes sp size interrupted mem m)
    (hcode : code.foldlM (View.step sp size) v = some v') :
    v'.Describes sp size interrupted mem (exec code m) := by
  induction code generalizing m v with
  | nil =>
    obtain rfl := Option.some.inj hcode
    exact h
  | cons instr code ih =>
    rw [List.foldlM_cons, Option.bind_eq_bind, Option.bind_eq_some_iff] at hcode
    obtain ⟨next, hstep, hrest⟩ := hcode
    exact ih (h.step hstep) hrest

/-- The call of an obeying handler, when the stack pointer is at the start of the frame. -/
theorem afterCall {e : Entry R} {returned : Machine R} {returnAddress : UInt64}
    (h : v.Describes e.sp e.size interrupted mem (SavedFrame.exec e.save m))
    (hdepth : v.depth = e.size) (hlink : e.link ≠ e.sp)
    (hobeys : e.Obeys (e.called m returnAddress) returned) :
    v.afterCall.Describes e.sp e.size interrupted returned.mem returned := by
  have hsp : (e.called m returnAddress).regs e.sp = interrupted.regs e.sp - v.depth :=
    (Function.update_of_ne hlink.symm _ _).trans h.sp_eq
  refine ⟨hobeys.sp_eq.trans hsp, List.not_mem_nil, fun r hr => absurd hr List.not_mem_nil,
    h.saved_inside, fun p hp => ?_, fun a _ => rfl⟩
  obtain ⟨hlow, hhigh⟩ := h.saved_inside p hp
  rw [← h.saved_eq p hp]
  refine load64_congr fun i hi => hobeys.frame_eq _ ?_
  rw [hsp, hdepth]
  exact inFrame_add hlow hhigh hi

end View.Describes

/-- Code that passes the check enters the handler with the stack pointer at the start of the
frame. -/
theorem Entry.called_of_check {e : Entry R} {gprs : List R} (hcheck : check e gprs = true)
    (hsp : e.sp ∉ gprs) (returnAddress : UInt64) :
    (e.called m returnAddress).regs e.sp = m.regs e.sp - e.size ∧
      ∀ a, ¬ InFrame e.size (m.regs e.sp) a → (e.called m returnAddress).mem a = m.mem a := by
  rw [check] at hcheck
  split at hcheck
  · cases hcheck
  · next called hsave =>
    split at hcheck
    · cases hcheck
    · obtain ⟨hlink, hdepth, -⟩ := of_decide_eq_true hcheck
      have hinitial : (View.initial gprs).Describes e.sp e.size m m.mem m :=
        ⟨(UInt64.sub_zero _).symm, hsp, fun _ _ => rfl, fun _ hp => absurd hp List.not_mem_nil,
          fun _ hp => absurd hp List.not_mem_nil, fun _ _ => rfl⟩
      have hcalled := hinitial.exec hsave
      refine ⟨?_, hcalled.mem_eq⟩
      rw [← hdepth, ← hcalled.sp_eq]
      exact Function.update_of_ne (Ne.symm hlink) _ _

/-- Code that passes the check resumes after one interrupt. -/
theorem Entry.resumes_of_check {e : Entry R} {gprs : List R} (hcheck : check e gprs = true)
    (hsp : e.sp ∉ gprs) (hall : ∀ r, r ≠ e.sp → r ∈ gprs) {returnAddress : UInt64}
    {handler : Machine R → Machine R}
    (hobeys : e.Obeys (e.called m returnAddress) (handler (e.called m returnAddress))) :
    e.Resumes m returnAddress handler := by
  rw [check] at hcheck
  split at hcheck
  · cases hcheck
  · next called hsave =>
    split at hcheck
    · cases hcheck
    · next resumed hrestore =>
      obtain ⟨hlink, hdepth, hzero, hintact⟩ := of_decide_eq_true hcheck
      have hinitial : (View.initial gprs).Describes e.sp e.size m m.mem m :=
        ⟨(UInt64.sub_zero _).symm, hsp, fun _ _ => rfl, fun _ hp => absurd hp List.not_mem_nil,
          fun _ hp => absurd hp List.not_mem_nil, fun _ _ => rfl⟩
      have hcalled := hinitial.exec hsave
      have hresumed := (hcalled.afterCall hdepth hlink hobeys).exec hrestore
      refine ⟨fun r => ?_, hcalled.mem_eq, hresumed.mem_eq⟩
      by_cases hr : r = e.sp
      · rw [hr]
        refine hresumed.sp_eq.trans ?_
        rw [hzero, UInt64.sub_zero]
      · exact hresumed.intact_eq r (hintact r (hall r hr))

theorem Entry.Resumes.unnoticed {e : Entry R} {returnAddress : UInt64}
    {handler : Machine R → Machine R} (h : e.Resumes m returnAddress handler)
    (hsize : e.size ≤ m.regs e.sp) : e.Unnoticed m returnAddress handler where
  regs_eq := h.regs_eq
  called_mem_eq a ha := h.called_mem_eq a (not_inFrame_of_le hsize ha)
  resumed_mem_eq a ha := h.resumed_mem_eq a (not_inFrame_of_le hsize ha)

/-- Code that passes the check is transparent to any number of interrupts. -/
theorem Entry.every_transparent {e : Entry R} {gprs : List R} (hcheck : check e gprs = true)
    (hsp : e.sp ∉ gprs) (hall : ∀ r, r ≠ e.sp → r ∈ gprs) {events : List (Event R)}
    (h : Simulation.Every e.step e.ObeysAt m events) :
    Simulation.Every e.step e.TransparentAt m events := by
  refine Simulation.every_mono (fun m event hobeys => ?_) events m h
  cases event with
  | program next => trivial
  | interrupt returnAddress handler =>
    have hresumes := e.resumes_of_check hcheck hsp hall hobeys
    exact ⟨hresumes, hresumes.unnoticed⟩

/-- A computation on the registers comes to the same result with interrupts and without. -/
theorem Entry.regs_foldl {e : Entry R} {m' : Machine R} {events : List (Event R)}
    (h : Simulation.Every e.step e.TransparentAt m events)
    (hregs : ∀ event ∈ events, event.OnRegisters) (heq : m.regs = m'.regs) :
    (events.foldl e.step m).regs = ((uninterrupted events).foldl e.step m').regs := by
  induction events generalizing m m' with
  | nil => exact heq
  | cons event events ih =>
    obtain ⟨hevent, hrest⟩ := List.forall_mem_cons.mp hregs
    cases event with
    | program next => exact ih h.2 hrest (hevent m m' heq)
    | interrupt returnAddress handler =>
      exact ih h.2 hrest ((funext h.1.1.regs_eq).trans heq)

end Sound

end SavedFrame
