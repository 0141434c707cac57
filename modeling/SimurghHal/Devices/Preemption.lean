import SimurghHal.Devices.LocalApic
import Mathlib.Algebra.BigOperators.Group.List.Basic
import Mathlib.Algebra.Group.Int.Defs

/-!
# Preemption and the borrow of the handler table

The handler table of the three controllers is in a `RefCell`. `register_irq` and
`unregister_irq` borrow it mutably for a few instructions, the dispatch functions borrow it
to fetch a handler, and a borrow that meets another one panics. Interrupts are never
disabled, so that a dispatch can start between any two of these steps.
-/

namespace SimurghHal.Interrupt

variable {δ H C : Type} {D : Driver δ}

/-- The access to the device that ends an operation. -/
inductive DeviceAccess where
  | configure (irq : UInt32)
  | disable (irq : UInt32)
  deriving DecidableEq, Repr

def DeviceAccess.apply (device : δ) : DeviceAccess → (D : Driver δ) → δ
  | .configure irq, D => D.configure device irq
  | .disable irq, D => D.disable device irq

/-- How far an operation has got. It holds the mutable borrow from its start on until it
releases it. -/
inductive OpPhase (D : Driver δ) (H : Type) where
  | start (op : IrqOp H)
  | test (slot : Fin D.tableSize) (irq : UInt32) (handler : H)
  | store (slot : Fin D.tableSize) (value : Option H) (after : DeviceAccess)
  /-- The borrow is released. Nothing follows when the line was taken. -/
  | release (after : Option DeviceAccess)
  | device (access : DeviceAccess)

/-- What an interrupt is about. An exception, a spurious interrupt or any other that is not
looked up in the table has a line without a slot. -/
inductive Cause where
  | timer
  | line (id : UInt32)
  deriving DecidableEq, Repr

/-- How far a dispatch has got. It holds a shared borrow while it copies the handler. -/
inductive DispatchPhase (D : Driver δ) (H : Type) where
  | entered
  | copy (slot : Fin D.tableSize)
  | release (handler : Option H)
  | call (handler : Option H)
  | running
  | returned

inductive Frame (D : Driver δ) (H : Type) where
  | op (phase : OpPhase D H)
  | dispatch (cause : Cause) (phase : DispatchPhase D H)

/-- A core: the controller, the counter of the `RefCell` (readers, or -1 for a writer) and the
code in progress, the innermost first. -/
structure Core (D : Driver δ) (H C : Type) where
  controller : D.InterruptCtrl H
  timerCallback : Option C
  borrow : ℤ
  stack : List (Frame D H)
  panicked : Bool

namespace Core

variable (m : Core D H C) (rest : List (Frame D H))

/-- `borrow_mut`. -/
def borrowMut (phase : OpPhase D H) : Core D H C :=
  if m.borrow = 0 then { m with borrow := -1, stack := .op phase :: rest }
  else { m with panicked := true }

/-- The next step of an operation. -/
def advanceOp : OpPhase D H → Core D H C
  | .start (.register irq handler) =>
    if h : D.valid irq = true then m.borrowMut rest (.test (D.slot h) irq handler)
    else { m with stack := rest }
  | .start (.unregister irq) =>
    if h : D.valid irq = true then m.borrowMut rest (.store (D.slot h) none (.disable irq))
    else { m with stack := rest }
  | .start op =>
    { m with controller := (Driver.step m.controller op).2, stack := rest }
  | .test slot irq handler =>
    if (m.controller.handlers slot).isSome then { m with stack := .op (.release none) :: rest }
    else { m with stack := .op (.store slot (some handler) (.configure irq)) :: rest }
  | .store slot value after =>
    { m with
      controller := { m.controller with handlers := Function.update m.controller.handlers slot value }
      stack := .op (.release (some after)) :: rest }
  | .release none => { m with borrow := m.borrow + 1, stack := rest }
  | .release (some access) =>
    { m with borrow := m.borrow + 1, stack := .op (.device access) :: rest }
  | .device access =>
    { m with
      controller := { m.controller with device := access.apply m.controller.device D }
      stack := rest }

/-- The next step of a dispatch. -/
def advanceDispatch (cause : Cause) : DispatchPhase D H → Core D H C
  | .entered =>
    match cause with
    | .timer =>
      if m.timerCallback.isSome then { m with stack := .dispatch .timer .running :: rest }
      else { m with stack := .dispatch .timer .returned :: rest }
    | .line id =>
      if h : D.valid id = true then
        if m.borrow < 0 then { m with panicked := true }
        else { m with
          borrow := m.borrow + 1
          stack := .dispatch (.line id) (.copy (D.slot h)) :: rest }
      else { m with stack := .dispatch (.line id) .returned :: rest }
  | .copy slot => { m with stack := .dispatch cause (.release (m.controller.handlers slot)) :: rest }
  | .release handler =>
    { m with borrow := m.borrow - 1, stack := .dispatch cause (.call handler) :: rest }
  | .call (some _) => { m with stack := .dispatch cause .running :: rest }
  | .call none => { m with stack := .dispatch cause .returned :: rest }
  | .running => { m with stack := .dispatch cause .returned :: rest }
  | .returned => { m with stack := rest }

/-- The code outside of all dispatches, or the function that a dispatch has called. -/
def runsCode : List (Frame D H) → Bool
  | [] => true
  | .dispatch _ .running :: _ => true
  | _ => false

end Core

/-- An operation is called, the innermost code takes its next step, or an interrupt
arrives. -/
inductive CoreEvent (H : Type) where
  | call (op : IrqOp H)
  | advance
  | interrupt (cause : Cause)

namespace Core

variable (m : Core D H C)

/-- One event. No operation is called by code that does not run. -/
def react : CoreEvent H → Core D H C
  | .call op => if runsCode m.stack then { m with stack := .op (.start op) :: m.stack } else m
  | .advance =>
    match m.stack with
    | [] => m
    | .op phase :: rest => m.advanceOp rest phase
    | .dispatch cause phase :: rest => m.advanceDispatch rest cause phase
  | .interrupt cause => { m with stack := .dispatch cause .entered :: m.stack }

/-- Nothing happens after a panic. -/
def next (event : CoreEvent H) : Core D H C := if m.panicked then m else m.react event

/-- The event is the call of a handler or of the timer callback. -/
def callsFunction : CoreEvent H → Bool
  | .advance =>
    match m.stack with
    | .dispatch .timer .entered :: _ => m.timerCallback.isSome
    | .dispatch _ (.call handler) :: _ => handler.isSome
    | _ => false
  | _ => false

/-- No borrow fails, and functions are called with no borrow outstanding. -/
def Safe (event : CoreEvent H) : Prop :=
  (m.next event).panicked = false ∧ (m.callsFunction event = true → m.borrow = 0)

/-- The dispatch of the interrupt neither looks into the table nor calls a function. -/
def Harmless (callback : Option C) : Cause → Prop
  | .timer => callback = none
  | .line id => D.valid id = false

/-- The dispatch of the interrupt may look into the table, but calls no function. -/
def CallsNothing (table : Fin D.tableSize → Option H) (callback : Option C) : Cause → Prop
  | .timer => callback = none
  | .line id => ∀ h : D.valid id = true, table (D.slot h) = none

/-- An interrupt that arrives while an operation has borrowed the table is harmless, and one that
arrives while a dispatch has calls nothing. -/
def ArrivesHarmlessly : CoreEvent H → Prop
  | .interrupt cause =>
    (m.borrow < 0 → Harmless (D := D) m.timerCallback cause) ∧
      (0 < m.borrow → CallsNothing m.controller.handlers m.timerCallback cause)
  | _ => True

/-! ### Who holds the borrow -/

end Core

/-- What a piece of code contributes to the counter. -/
def Frame.holds : Frame D H → ℤ
  | .op (.start _) => 0
  | .op (.test _ _ _) => -1
  | .op (.store _ _ _) => -1
  | .op (.release _) => -1
  | .op (.device _) => 0
  | .dispatch _ (.copy _) => 1
  | .dispatch _ (.release _) => 1
  | .dispatch _ _ => 0

def held (stack : List (Frame D H)) : ℤ := (stack.map Frame.holds).sum

@[simp] theorem held_cons (frame : Frame D H) (stack : List (Frame D H)) :
    held (frame :: stack) = frame.holds + held stack := by
  simp [held]

section Guarded

variable (table : Fin D.tableSize → Option H) (callback : Option C)

/-- A dispatch that only comes and goes. -/
def Frame.Passing : Frame D H → Prop
  | .op _ => False
  | .dispatch cause phase =>
    Core.Harmless (D := D) callback cause ∧ (phase = .entered ∨ phase = .returned)

/-- A dispatch that finds no handler. -/
def Frame.Silent : Frame D H → Prop
  | .op _ => False
  | .dispatch cause phase => Core.CallsNothing table callback cause ∧
    match phase with
    | .entered | .returned | .release none | .call none => True
    | .copy slot => table slot = none
    | .running | .release (some _) | .call (some _) => False

/-- Above an operation that holds its borrow there are only passing dispatches, and above a
dispatch that does only silent ones. -/
def Guarded : List (Frame D H) → Prop
  | [] => True
  | frame :: rest => (held rest < 0 → frame.Passing callback) ∧
    (0 < held rest → frame.Silent table callback) ∧ Guarded rest

variable {table callback}

theorem Frame.Passing.holds_eq {frame : Frame D H} (h : frame.Passing callback) :
    frame.holds = 0 := by
  obtain _ | ⟨cause, phase⟩ := frame
  · exact h.elim
  · obtain ⟨-, rfl | rfl⟩ := h <;> rfl

theorem Frame.Silent.holds_nonneg {frame : Frame D H} (h : frame.Silent table callback) :
    0 ≤ frame.holds := by
  obtain _ | ⟨cause, phase⟩ := frame
  · exact h.elim
  · cases phase <;> simp [Frame.holds]

/-- Code that holds nothing together holds nothing in any part, whatever the table has in it. -/
theorem Guarded.of_held_eq_zero {stack : List (Frame D H)} (h : Guarded table callback stack)
    (hheld : held stack = 0) (table' : Fin D.tableSize → Option H) (callback' : Option C) :
    Guarded table' callback' stack := by
  induction stack with
  | nil => trivial
  | cons frame rest ih =>
    obtain ⟨hneg, hpos, hrest⟩ := h
    rw [held_cons] at hheld
    have hzero : held rest = 0 := by
      rcases lt_trichotomy (held rest) 0 with hlt | heq | hlt
      · have hholds := (hneg hlt).holds_eq
        omega
      · exact heq
      · have hholds := (hpos hlt).holds_nonneg
        omega
    exact ⟨fun hlt => absurd hzero hlt.ne, fun hlt => absurd hzero hlt.ne', ih hrest hzero⟩

end Guarded

namespace Core

/-- The counter is what the code in progress holds, and nobody else gets at it. -/
structure Inv (m : Core D H C) : Prop where
  running : m.panicked = false
  counted : m.borrow = held m.stack
  guarded : Guarded m.controller.handlers m.timerCallback m.stack

variable {m : Core D H C}

/-- Code that is neither passing nor silent has all borrows to itself. -/
theorem Inv.borrow_of_top (hm : m.Inv) {frame : Frame D H} {rest : List (Frame D H)}
    (hstack : m.stack = frame :: rest) (hpassing : ¬ frame.Passing m.timerCallback)
    (hsilent : ¬ frame.Silent m.controller.handlers m.timerCallback) :
    held rest = 0 ∧ m.borrow = frame.holds ∧
      Guarded m.controller.handlers m.timerCallback rest := by
  have hguarded := hm.guarded
  rw [hstack] at hguarded
  have hrest : held rest = 0 := by
    rcases lt_trichotomy (held rest) 0 with hlt | heq | hlt
    · exact absurd (hguarded.1 hlt) hpassing
    · exact heq
    · exact absurd (hguarded.2.1 hlt) hsilent
  refine ⟨hrest, ?_, hguarded.2.2⟩
  rw [hm.counted, hstack, held_cons, hrest, add_zero]

section Step

variable {m' : Core D H C} {rest : List (Frame D H)} (hrest : held rest = 0)
  (hguarded : Guarded m.controller.handlers m.timerCallback rest) (hrunning : m'.panicked = false)

include hrest hguarded hrunning

theorem Inv.of_replaced {frame : Frame D H} (hstack : m'.stack = frame :: rest)
    (hborrow : m'.borrow = frame.holds) : m'.Inv := by
  refine ⟨hrunning, ?_, ?_⟩
  · rw [hborrow, hstack, held_cons, hrest, add_zero]
  · rw [hstack]
    exact ⟨fun hlt => absurd hrest hlt.ne, fun hlt => absurd hrest hlt.ne',
      hguarded.of_held_eq_zero hrest _ _⟩

theorem Inv.of_popped (hstack : m'.stack = rest) (hborrow : m'.borrow = 0) : m'.Inv := by
  refine ⟨hrunning, ?_, ?_⟩
  · rw [hborrow, hstack, hrest]
  · rw [hstack]
    exact hguarded.of_held_eq_zero hrest _ _

end Step

/-- A step of an operation. Its `borrow_mut` succeeds. -/
theorem Inv.advanceOp (hm : m.Inv) {phase : OpPhase D H} {rest : List (Frame D H)}
    (hstack : m.stack = .op phase :: rest) : (m.advanceOp rest phase).Inv := by
  obtain ⟨hrest, hborrow, hguarded⟩ := hm.borrow_of_top hstack id id
  have hreplaced := @Inv.of_replaced _ _ _ D m
  have hpopped := @Inv.of_popped _ _ _ D m
  have hborrowMut : ∀ phase', m.borrow = 0 → (Frame.op (D := D) (H := H) phase').holds = -1 →
      (m.borrowMut rest phase').Inv := by
    intro phase' hzero hholds
    rw [borrowMut, if_pos hzero]
    exact hreplaced hrest hguarded hm.running rfl hholds.symm
  cases phase with
  | start op =>
    cases op with
    | register irq handler =>
      rw [Core.advanceOp]
      split
      · exact hborrowMut _ hborrow rfl
      · exact hpopped hrest hguarded hm.running rfl hborrow
    | unregister irq =>
      rw [Core.advanceOp]
      split
      · exact hborrowMut _ hborrow rfl
      · exact hpopped hrest hguarded hm.running rfl hborrow
    | mask irq => exact hpopped hrest hguarded hm.running rfl hborrow
    | unmask irq => exact hpopped hrest hguarded hm.running rfl hborrow
  | test slot irq handler =>
    rw [Core.advanceOp]
    split
    · exact hreplaced hrest hguarded hm.running rfl hborrow
    · exact hreplaced hrest hguarded hm.running rfl hborrow
  | store slot value after => exact hreplaced hrest hguarded hm.running rfl hborrow
  | release after =>
    have hzero : m.borrow + 1 = 0 := by
      rw [hborrow]
      rfl
    cases after with
    | none => exact hpopped hrest hguarded hm.running rfl hzero
    | some access => exact hreplaced hrest hguarded hm.running rfl hzero
  | device access => exact hpopped hrest hguarded hm.running rfl hborrow

/-- A step of a dispatch that has all borrows to itself. Its `borrow` succeeds. -/
theorem Inv.advanceDispatch (hm : m.Inv) {cause : Cause} {phase : DispatchPhase D H}
    {rest : List (Frame D H)} (hstack : m.stack = .dispatch cause phase :: rest)
    (hrest : held rest = 0) : (m.advanceDispatch rest cause phase).Inv := by
  have hguarded := hm.guarded
  have hborrow := hm.counted
  rw [hstack] at hguarded
  rw [hstack, held_cons, hrest, add_zero] at hborrow
  replace hguarded := hguarded.2.2
  have hreplaced := @Inv.of_replaced _ _ _ D m
  cases phase with
  | entered =>
    cases cause with
    | timer =>
      rw [Core.advanceDispatch]
      split
      · exact hreplaced hrest hguarded hm.running rfl hborrow
      · exact hreplaced hrest hguarded hm.running rfl hborrow
    | line id =>
      have hzero : m.borrow = 0 := hborrow
      rw [Core.advanceDispatch]
      split
      · rw [if_neg (by rw [hzero]; exact lt_irrefl 0)]
        exact hreplaced hrest hguarded hm.running rfl (by rw [hzero]; rfl)
      · exact hreplaced hrest hguarded hm.running rfl hborrow
  | copy slot => exact hreplaced hrest hguarded hm.running rfl hborrow
  | release handler =>
    have hzero : m.borrow - 1 = 0 := by
      rw [hborrow]
      rfl
    exact hreplaced hrest hguarded hm.running rfl hzero
  | call handler =>
    cases handler <;> exact hreplaced hrest hguarded hm.running rfl hborrow
  | running => exact hreplaced hrest hguarded hm.running rfl hborrow
  | returned => exact Inv.of_popped (m := m) hrest hguarded hm.running rfl hborrow

/-- A step of a dispatch that only comes and goes. -/
theorem Inv.advancePassing (hm : m.Inv) {cause : Cause} {phase : DispatchPhase D H}
    {rest : List (Frame D H)} (hstack : m.stack = .dispatch cause phase :: rest)
    (hrest : held rest < 0) : (m.advanceDispatch rest cause phase).Inv := by
  have hguarded := hm.guarded
  have hborrow := hm.counted
  rw [hstack] at hguarded
  rw [hstack, held_cons] at hborrow
  obtain ⟨hharmless, rfl | rfl⟩ := hguarded.1 hrest
  · have hnext : m.advanceDispatch rest cause .entered =
        { m with stack := .dispatch cause .returned :: rest } := by
      cases cause with
      | timer =>
        have hnone : m.timerCallback = none := hharmless
        simp [Core.advanceDispatch, hnone]
      | line id =>
        have hinvalid : D.valid id = false := hharmless
        simp [Core.advanceDispatch, hinvalid]
    rw [hnext]
    refine ⟨hm.running, hborrow.trans (held_cons _ _).symm, ?_⟩
    exact ⟨fun _ => ⟨hharmless, .inr rfl⟩, fun hlt => absurd hrest hlt.le.not_gt, hguarded.2.2⟩
  · exact ⟨hm.running, hborrow.trans (zero_add _), hguarded.2.2⟩

theorem Inv.of_silent {m' : Core D H C} {frame : Frame D H} {rest : List (Frame D H)}
    (hrest : 0 < held rest) (hguarded : Guarded m'.controller.handlers m'.timerCallback rest)
    (hrunning : m'.panicked = false) (hstack : m'.stack = frame :: rest)
    (hsilent : frame.Silent m'.controller.handlers m'.timerCallback)
    (hborrow : m'.borrow = frame.holds + held rest) : m'.Inv := by
  refine ⟨hrunning, ?_, ?_⟩
  · rw [hborrow, hstack, held_cons]
  · rw [hstack]
    exact ⟨fun hlt => absurd hlt hrest.le.not_gt, fun _ => hsilent, hguarded⟩

/-- A step of a dispatch that finds no handler, while another one holds its borrow. -/
theorem Inv.advanceSilent (hm : m.Inv) {cause : Cause} {phase : DispatchPhase D H}
    {rest : List (Frame D H)} (hstack : m.stack = .dispatch cause phase :: rest)
    (hrest : 0 < held rest) : (m.advanceDispatch rest cause phase).Inv := by
  have hguarded := hm.guarded
  have hborrow := hm.counted
  rw [hstack] at hguarded
  rw [hstack, held_cons] at hborrow
  obtain ⟨hcalls, hphase⟩ := hguarded.2.1 hrest
  replace hguarded := hguarded.2.2
  have hsilent := @Inv.of_silent δ H C D
  cases phase with
  | entered =>
    have hcounted : m.borrow = held rest := hborrow.trans (zero_add _)
    cases cause with
    | timer =>
      have hnone : m.timerCallback = none := hcalls
      have hquiet : ¬ m.timerCallback.isSome = true := by
        rw [hnone]
        exact Bool.false_ne_true
      rw [Core.advanceDispatch, if_neg hquiet]
      exact hsilent hrest hguarded hm.running rfl ⟨hcalls, trivial⟩ hborrow
    | line id =>
      rw [Core.advanceDispatch]
      split
      · next hv =>
        rw [if_neg (by rw [hcounted]; exact hrest.le.not_gt)]
        refine hsilent hrest hguarded hm.running rfl ⟨hcalls, hcalls hv⟩ ?_
        show m.borrow + 1 = 1 + held rest
        rw [hcounted, add_comm]
      · exact hsilent hrest hguarded hm.running rfl ⟨hcalls, trivial⟩ hborrow
  | copy slot =>
    have hnone : m.controller.handlers slot = none := hphase
    rw [Core.advanceDispatch, hnone]
    exact hsilent hrest hguarded hm.running rfl ⟨hcalls, trivial⟩ hborrow
  | release handler =>
    cases handler with
    | some handler => exact hphase.elim
    | none =>
      refine hsilent hrest hguarded hm.running rfl ⟨hcalls, trivial⟩ ?_
      show m.borrow - 1 = 0 + held rest
      rw [hborrow]
      exact add_sub_right_comm 1 (held rest) 1
  | call handler =>
    cases handler with
    | some handler => exact hphase.elim
    | none => exact hsilent hrest hguarded hm.running rfl ⟨hcalls, trivial⟩ hborrow
  | running => exact hphase.elim
  | returned => exact ⟨hm.running, hborrow.trans (zero_add _), hguarded⟩

/-- A function that is called has all borrows to itself. -/
theorem Inv.borrow_of_callsFunction (hm : m.Inv) {event : CoreEvent H}
    (h : m.callsFunction event = true) : m.borrow = 0 := by
  cases event with
  | call op => cases h
  | interrupt cause => cases h
  | advance =>
    rw [callsFunction] at h
    split at h
    · next hstack =>
      have hsome : m.timerCallback ≠ none := by
        intro hnone
        rw [hnone] at h
        cases h
      exact (hm.borrow_of_top hstack (fun hpassing => hsome hpassing.1)
        fun hsilent => hsome hsilent.1).2.1
    · next handler rest hstack =>
      obtain ⟨function, rfl⟩ := Option.isSome_iff_exists.mp h
      refine (hm.borrow_of_top hstack ?_ fun hsilent => hsilent.2).2.1
      rintro ⟨-, hphase | hphase⟩ <;> cases hphase
    · cases h

theorem Inv.next (hm : m.Inv) {event : CoreEvent H} (h : m.ArrivesHarmlessly event) :
    (m.next event).Inv := by
  rw [Core.next, if_neg (by rw [hm.running]; exact Bool.false_ne_true)]
  cases event with
  | call op =>
    rw [react]
    by_cases hcode : runsCode m.stack = true
    · rw [if_pos hcode]
      -- the code that calls the operation holds nothing, and nothing below it does
      have hheld : held m.stack = 0 := by
        cases hstack : m.stack with
        | nil => rfl
        | cons frame rest =>
          rw [hstack] at hcode
          obtain _ | ⟨cause, phase⟩ := frame
          · cases hcode
          · cases phase <;> cases hcode
            have htop := hm.borrow_of_top hstack (by rintro ⟨-, h | h⟩ <;> cases h) (·.2)
            rw [held_cons, htop.1]
            rfl
      exact Inv.of_replaced (m := m) hheld hm.guarded hm.running rfl (hm.counted.trans hheld)
    · rw [if_neg hcode]
      exact hm
  | advance =>
    rw [react]
    cases hstack : m.stack with
    | nil => exact hm
    | cons frame rest =>
      cases frame with
      | op phase => exact hm.advanceOp hstack
      | dispatch cause phase =>
        rcases lt_trichotomy (held rest) 0 with hlt | heq | hlt
        · exact hm.advancePassing hstack hlt
        · exact hm.advanceDispatch hstack heq
        · exact hm.advanceSilent hstack hlt
  | interrupt cause =>
    refine ⟨hm.running, ?_, ?_⟩
    · exact hm.counted.trans (zero_add _).symm
    · rw [ArrivesHarmlessly, hm.counted] at h
      exact ⟨fun hlt => ⟨h.1 hlt, .inl rfl⟩, fun hlt => ⟨h.2 hlt, trivial⟩, hm.guarded⟩

theorem Inv.safe (hm : m.Inv) {event : CoreEvent H} (h : m.ArrivesHarmlessly event) :
    m.Safe event :=
  ⟨(hm.next h).running, hm.borrow_of_callsFunction⟩

variable (m)

/-- The steps of an operation that nothing interrupts are the operation. -/
theorem advance_uninterrupted (hrunning : m.panicked = false) (hborrow : m.borrow = 0)
    (op : IrqOp H) :
    ∃ k, (fun m : Core D H C => m.next .advance)^[k]
        { m with stack := .op (.start op) :: m.stack } =
      { m with controller := (Driver.step m.controller op).2 } := by
  cases op with
  | register irq handler =>
    by_cases hv : D.valid irq = true
    · by_cases hfree : (m.controller.handlers (D.slot hv)).isSome = true
      · refine ⟨3, ?_⟩
        simp [next, react, advanceOp, borrowMut, Driver.step, Driver.registerIrq, hv, hfree,
          hrunning, hborrow]
      · refine ⟨5, ?_⟩
        simp [next, react, advanceOp, borrowMut, Driver.step, Driver.registerIrq, hv, hfree,
          hrunning, hborrow, DeviceAccess.apply]
    · exact ⟨1, by simp [next, react, advanceOp, Driver.step, Driver.registerIrq, hv, hrunning]⟩
  | unregister irq =>
    by_cases hv : D.valid irq = true
    · refine ⟨4, ?_⟩
      simp [next, react, advanceOp, borrowMut, Driver.step, Driver.unregisterIrq, hv, hrunning,
        hborrow, DeviceAccess.apply]
    · exact ⟨1, by simp [next, react, advanceOp, Driver.step, Driver.unregisterIrq, hv, hrunning]⟩
  | mask irq => exact ⟨1, by simp [next, react, advanceOp, hrunning]⟩
  | unmask irq => exact ⟨1, by simp [next, react, advanceOp, hrunning]⟩

/-- An interrupt for a line with a slot that arrives while an operation holds the table
panics at its first step. -/
theorem panicked_of_arrival (hrunning : m.panicked = false) (hborrow : m.borrow < 0)
    {id : UInt32} (hv : D.valid id = true) :
    ((m.next (.interrupt (.line id))).next .advance).panicked = true := by
  simp [next, react, advanceDispatch, hrunning, hborrow, hv]

/-- A core on which no operation and no dispatch is in progress. -/
def idle (controller : D.InterruptCtrl H) (callback : Option C) : Core D H C :=
  ⟨controller, callback, 0, [], false⟩

theorem every_safe (controller : D.InterruptCtrl H) (callback : Option C)
    (events : List (CoreEvent H)) (h : Simulation.Every next ArrivesHarmlessly
      (idle controller callback) events) :
    Simulation.Every next Safe (idle controller callback) events :=
  Simulation.every_imp (fun _ _ hm h => ⟨Inv.safe hm h, Inv.next hm h⟩) events _
    ⟨rfl, rfl, trivial⟩ h

end Core

/-- On the three architectures, no borrow fails and every function is called with no borrow
outstanding, in a run in which no interrupt that needs the handler table or calls a function
arrives while an operation has borrowed it, and none that calls a function while a dispatch
has. -/
theorem dispatch_borrow_succeeds (callback : Option C) (events : List (CoreEvent H))
    (apic : Apic.driver.InterruptCtrl H) (gic : Gic.driver.InterruptCtrl H)
    (plic : Plic.driver.InterruptCtrl H) :
    (Simulation.Every Core.next Core.ArrivesHarmlessly (Core.idle apic callback) events →
      Simulation.Every Core.next Core.Safe (Core.idle apic callback) events) ∧
    (Simulation.Every Core.next Core.ArrivesHarmlessly (Core.idle gic callback) events →
      Simulation.Every Core.next Core.Safe (Core.idle gic callback) events) ∧
    (Simulation.Every Core.next Core.ArrivesHarmlessly (Core.idle plic callback) events →
      Simulation.Every Core.next Core.Safe (Core.idle plic callback) events) :=
  ⟨Core.every_safe apic callback events, Core.every_safe gic callback events,
    Core.every_safe plic callback events⟩

/-- Line 40 is registered and fires, line 41 fires while the handler is being fetched, and the
handler of line 40 unregisters it. -/
def wellTimed : List (CoreEvent Unit) :=
  [.call (.register 40 ()), .advance, .advance, .advance, .advance, .advance,
    .interrupt (.line 40), .advance,
    .interrupt (.line 41), .advance, .advance, .advance, .advance, .advance,
    .advance, .advance, .advance,
    .call (.unregister 40), .advance, .advance, .advance, .advance, .advance, .advance]

theorem dispatch_borrow_succeeds_wellTimed :
    Simulation.Every Core.next Core.Safe
      (Core.idle (Apic.start Unit (none : Option Unit)).globals.controller (none : Option Unit))
      wellTimed := by
  refine (dispatch_borrow_succeeds none wellTimed _ (Gic.initial Unit fun _ => 0)
    (Plic.initial Unit fun _ => 0)).1 ?_
  refine ⟨trivial, trivial, trivial, trivial, trivial, trivial, ⟨?_, ?_⟩, trivial, ⟨?_, ?_⟩,
    trivial, trivial, trivial, trivial, trivial, trivial, trivial, trivial, trivial, trivial,
    trivial, trivial, trivial, trivial, trivial, trivial⟩
  · exact fun hlt => absurd hlt (by decide)
  · exact fun hlt => absurd hlt (by decide)
  · exact fun hlt => absurd hlt (by decide)
  · exact fun _ _ => rfl

/-- Line 40 fires right after `register_irq` has borrowed the table for it. -/
def illTimed : List (CoreEvent Unit) :=
  [.call (.register 40 ()), .advance, .interrupt (.line 40), .advance]

theorem dispatch_borrow_fails :
    ¬ Simulation.Every Core.next Core.Safe
        (Core.idle (Apic.start Unit (none : Option Unit)).globals.controller (none : Option Unit))
        illTimed ∧
      ¬ Simulation.Every Core.next Core.Safe
        (Core.idle (Gic.initial Unit fun _ => 0) (none : Option Unit)) illTimed ∧
      ¬ Simulation.Every Core.next Core.Safe
        (Core.idle (Plic.initial Unit fun _ => 0) (none : Option Unit)) illTimed := by
  refine ⟨?_, ?_, ?_⟩
  · rintro ⟨-, -, -, ⟨hpanicked, -⟩, -⟩
    revert hpanicked
    decide
  · rintro ⟨-, -, -, ⟨hpanicked, -⟩, -⟩
    revert hpanicked
    decide
  · rintro ⟨-, -, -, ⟨hpanicked, -⟩, -⟩
    revert hpanicked
    decide

end SimurghHal.Interrupt
