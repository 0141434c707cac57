import SimurghHal.Devices.Dispatch

/-!
# End of interrupt on x86_64

`dispatch_vector` serves every vector, and a dispatch can be interrupted by others before,
while and after its handler runs. The local APIC keeps the vectors in service: an interrupt
adds its own and an EOI removes the highest one. Exceptions and the spurious vector add
nothing, but their dispatches write an EOI all the same.
-/

namespace SimurghHal.Interrupt.Apic

variable {H C : Type}

def timerVector : UInt8 := 32
def firstUsableIrqVector : UInt8 := 33
def irqTableSize : ℕ := 223
def spuriousVector : UInt8 := 0xFF

def valid (vector : UInt32) : Bool := 33 ≤ vector && vector ≤ 255

/-- The driver of `hal-x86_64/src/interrupt.rs`. The local APIC has no registers for single
lines, so that masking only checks its argument. -/
def driver : Driver Unit where
  firstUsable := 33
  tableSize := irqTableSize
  valid := valid
  configure device _ := device
  enable device _ := device
  disable device _ := device
  enabled _ _ := false
  slot_lt := by
    intro irq h
    simp only [valid, Bool.and_eq_true, decide_eq_true_eq] at h
    have hfirst := UInt32.le_iff_toNat_le.mp h.1
    have hlast : irq.toNat ≤ 255 := UInt32.le_iff_toNat_le.mp h.2
    refine ⟨hfirst, ?_⟩
    rw [UInt32.toNat_sub_of_le _ _ h.1]
    show irq.toNat - 33 < 223
    omega

/-- What happens on a core: operations on interrupt lines, and interrupts and exceptions
with what happens before, while and after the function for them runs. -/
inductive Activity (H : Type) where
  | op (op : IrqOp H)
  | interrupt (vector : UInt8) (before inside after : List (Activity H))

/-- The driver and the vectors in service. -/
structure Machine (H C : Type) where
  globals : Globals driver H C
  inService : UInt8 → Bool

/-- The highest vector in service below a bound. -/
def highestBelow (inService : UInt8 → Bool) : ℕ → Option UInt8
  | 0 => none
  | n + 1 =>
    if inService (UInt8.ofNat n) then some (UInt8.ofNat n) else highestBelow inService n

/-- A write to the EOI register. -/
def eoi (inService : UInt8 → Bool) : UInt8 → Bool :=
  match highestBelow inService 256 with
  | none => inService
  | some vector => Function.update inService vector false

/-- The vectors of interrupts. The others are those of exceptions, and the spurious one. -/
def IsInterrupt (vector : UInt8) : Prop := 32 ≤ vector ∧ vector ≠ spuriousVector

instance (vector : UInt8) : Decidable (IsInterrupt vector) :=
  inferInstanceAs (Decidable (_ ∧ _))

namespace Machine

variable (m : Machine H C)

/-- An interrupt is dispensed only above all vectors in service, and is pending until
then. -/
def dispensed (vector : UInt8) : Bool :=
  !decide (IsInterrupt vector) || (highestBelow m.inService 256).all (· < vector)

/-- The delivery of an interrupt, an exception or the spurious vector. -/
def deliver (vector : UInt8) : Machine H C :=
  if IsInterrupt vector then { m with inService := Function.update m.inService vector true } else m

def perform (op : IrqOp H) : Machine H C :=
  { m with globals := { m.globals with controller := (Driver.step m.globals.controller op).2 } }

/-- `handlers.borrow()[idx]`. The index is in range for every vector from 33 on. -/
def handlerOf (vector : UInt8) (h : firstUsableIrqVector ≤ vector) : Option H :=
  m.globals.controller.handlers ⟨(vector - firstUsableIrqVector).toNat, by
    rw [UInt8.toNat_sub_of_le _ _ h]
    have hvector := vector.toNat_lt
    show vector.toNat - 33 < 223
    omega⟩

/-- `dispatch_vector` finds a function to call: the timer callback, or the handler for the
vector. -/
def callsFunction (vector : UInt8) : Bool :=
  if vector = timerVector then m.globals.timerCallback.isSome
  else if h : firstUsableIrqVector ≤ vector then (m.handlerOf vector h).isSome
  else false

/-- `end_of_interrupt`. -/
def endOfInterrupt : Machine H C := { m with inService := eoi m.inService }

mutual

/-- One activity. `dispatch_vector` returns at once when there is no controller. -/
def exec (m : Machine H C) : Activity H → Machine H C
  | .op op => m.perform op
  | .interrupt vector before inside after =>
    if m.dispensed vector then
      if m.globals.controllerSet then
        let found := (m.deliver vector).execAll before
        let returned := if found.callsFunction vector then found.execAll inside else found
        (returned.execAll after).endOfInterrupt
      else m.deliver vector
    else m

def execAll (m : Machine H C) : List (Activity H) → Machine H C
  | [] => m
  | activity :: rest => (m.exec activity).execAll rest

end

mutual

/-- At every EOI that is written in an activity, `P` holds of the vector dispatched, the
machine before it was delivered and the machine before the write. -/
def EveryEoi (P : UInt8 → Machine H C → Machine H C → Prop) (m : Machine H C) :
    Activity H → Prop
  | .op _ => True
  | .interrupt vector before inside after =>
    m.dispensed vector = true → m.globals.controllerSet = true →
      let found := (m.deliver vector).execAll before
      let returned := if found.callsFunction vector then found.execAll inside else found
      (m.deliver vector).EveryEoiAll P before ∧
        (found.callsFunction vector = true → found.EveryEoiAll P inside) ∧
        returned.EveryEoiAll P after ∧ P vector m (returned.execAll after)

def EveryEoiAll (P : UInt8 → Machine H C → Machine H C → Prop) (m : Machine H C) :
    List (Activity H) → Prop
  | [] => True
  | activity :: rest => m.EveryEoi P activity ∧ (m.exec activity).EveryEoiAll P rest

end

end Machine

/-- The EOI of a dispatch removes its own vector, which is still in service, and leaves what
was in service before the delivery. -/
structure RemovesOwn (vector : UInt8) (delivered written : Machine H C) : Prop where
  inService : written.inService vector = true
  removed : eoi written.inService = Function.update written.inService vector false
  restored : eoi written.inService = delivered.inService

section Highest

variable {inService : UInt8 → Bool}

/-- A vector in service is not above the highest one. -/
theorem exists_highestBelow {n : ℕ} (hn : n ≤ 256) {w : UInt8} (hw : inService w = true)
    (hwn : w.toNat < n) :
    ∃ v, highestBelow inService n = some v ∧ inService v = true ∧ w ≤ v := by
  induction n with
  | zero => exact absurd hwn (Nat.not_lt_zero _)
  | succ n ih =>
    have hofNat : (UInt8.ofNat n).toNat = n := UInt8.toNat_ofNat_of_lt' (show n < 256 by omega)
    by_cases hlast : inService (UInt8.ofNat n) = true
    · refine ⟨UInt8.ofNat n, by rw [highestBelow, if_pos hlast], hlast, ?_⟩
      rw [UInt8.le_iff_toNat_le, hofNat]
      omega
    · have hne : w.toNat ≠ n := by
        intro h
        rw [← h, UInt8.ofNat_toNat] at hlast
        exact hlast hw
      rw [highestBelow, if_neg hlast]
      exact ih (by omega) (by omega)

/-- An EOI removes a vector that is above all others in service. -/
theorem eoi_eq {vector : UInt8} (hin : inService vector = true)
    (hmax : ∀ w, inService w = true → w ≤ vector) :
    eoi inService = Function.update inService vector false := by
  obtain ⟨v, hv, hvin, hle⟩ := exists_highestBelow le_rfl hin vector.toNat_lt
  rw [eoi, hv, UInt8.le_antisymm (hmax v hvin) hle]

/-- An EOI adds nothing. -/
theorem of_eoi {w : UInt8} (h : eoi inService w = true) : inService w = true := by
  rw [eoi] at h
  cases hhighest : highestBelow inService 256 with
  | none => rwa [hhighest] at h
  | some v =>
    rw [hhighest] at h
    by_cases hwv : w = v
    · subst hwv
      simp at h
    · simpa [hwv] using h

end Highest

namespace Machine

variable (m : Machine H C)

theorem lt_of_dispensed {vector : UInt8} (h : m.dispensed vector = true)
    (hinterrupt : IsInterrupt vector) {w : UInt8} (hw : m.inService w = true) : w < vector := by
  obtain ⟨v, hv, -, hle⟩ := exists_highestBelow le_rfl hw w.toNat_lt
  rw [dispensed, decide_eq_true hinterrupt, hv] at h
  exact UInt8.lt_of_le_of_lt hle (of_decide_eq_true h)

theorem inService_deliver {vector : UInt8} (h : IsInterrupt vector) :
    (m.deliver vector).inService = Function.update m.inService vector true := by
  rw [deliver, if_pos h]

/-- The EOI for an interrupt that nothing has disturbed. -/
theorem removesOwn_of_undisturbed {vector : UInt8} (hdispensed : m.dispensed vector = true)
    (hinterrupt : IsInterrupt vector) {written : Machine H C}
    (hwritten : written.inService = (m.deliver vector).inService) :
    RemovesOwn vector m written := by
  rw [m.inService_deliver hinterrupt] at hwritten
  have hfree : m.inService vector = false := by
    by_contra h
    exact UInt8.lt_irrefl _ (m.lt_of_dispensed hdispensed hinterrupt (Bool.not_eq_false _ ▸ h))
  have hin : written.inService vector = true := by rw [hwritten, Function.update_self]
  have hmax : ∀ w, written.inService w = true → w ≤ vector := by
    intro w hw
    by_cases hwv : w = vector
    · rw [hwv]
      exact UInt8.le_refl _
    · rw [hwritten, Function.update_of_ne hwv] at hw
      exact UInt8.le_of_lt (m.lt_of_dispensed hdispensed hinterrupt hw)
  have heoi := eoi_eq hin hmax
  refine ⟨hin, heoi, ?_⟩
  rw [heoi, hwritten, Function.update_idem, ← hfree, Function.update_eq_self]

theorem globals_deliver (vector : UInt8) : (m.deliver vector).globals = m.globals := by
  rw [deliver]
  split <;> rfl

mutual

theorem controllerSet_exec (m : Machine H C) : ∀ activity : Activity H,
    (m.exec activity).globals.controllerSet = m.globals.controllerSet
  | .op _ => rfl
  | .interrupt vector before inside after => by
    have hdelivered : (m.deliver vector).globals.controllerSet = m.globals.controllerSet := by
      rw [globals_deliver]
    rw [exec]
    split
    · split
      · have hfound := ((m.deliver vector).controllerSet_execAll before).trans hdelivered
        refine (controllerSet_execAll _ after).trans ?_
        split
        · exact (controllerSet_execAll _ inside).trans hfound
        · exact hfound
      · exact hdelivered
    · rfl

theorem controllerSet_execAll (m : Machine H C) : ∀ activities : List (Activity H),
    (m.execAll activities).globals.controllerSet = m.globals.controllerSet
  | [] => rfl
  | activity :: rest =>
    (controllerSet_execAll _ rest).trans (m.controllerSet_exec activity)

end

/-! Interrupts alone: every dispatch leaves in service what was there before. -/

mutual

theorem removesOwn_exec (m : Machine H C) (hset : m.globals.controllerSet = true) :
    ∀ activity : Activity H, m.EveryEoi (fun vector _ _ => IsInterrupt vector) activity →
      m.EveryEoi RemovesOwn activity ∧ (m.exec activity).inService = m.inService
  | .op _, _ => ⟨trivial, rfl⟩
  | .interrupt vector before inside after, h => by
    by_cases hdispensed : m.dispensed vector = true
    · obtain ⟨hbefore, hinside, hafter, hvector⟩ := h hdispensed hset
      have hdelivered : (m.deliver vector).globals.controllerSet = true := by
        rw [globals_deliver, hset]
      have hbefore := removesOwn_execAll _ hdelivered before hbefore
      let found := (m.deliver vector).execAll before
      have hfoundSet : found.globals.controllerSet = true :=
        (controllerSet_execAll _ before).trans hdelivered
      let returned := if found.callsFunction vector then found.execAll inside else found
      -- whether a function is called or not, nothing has changed when it returns
      obtain ⟨hreturnedSet, hreturned, hinsideOwn⟩ : returned.globals.controllerSet = true ∧
          returned.inService = found.inService ∧
          (found.callsFunction vector = true → found.EveryEoiAll RemovesOwn inside) := by
        by_cases hcalls : found.callsFunction vector = true
        · have hinside := removesOwn_execAll _ hfoundSet inside (hinside hcalls)
          have hreturned : returned = found.execAll inside := if_pos hcalls
          rw [hreturned]
          exact ⟨(controllerSet_execAll _ inside).trans hfoundSet, hinside.2, fun _ => hinside.1⟩
        · have hreturned : returned = found := if_neg hcalls
          rw [hreturned]
          exact ⟨hfoundSet, rfl, fun h => absurd h hcalls⟩
      have hafter := removesOwn_execAll returned hreturnedSet after hafter
      have hown : RemovesOwn vector m (returned.execAll after) :=
        m.removesOwn_of_undisturbed hdispensed hvector
          (hafter.2.trans (hreturned.trans hbefore.2))
      refine ⟨fun _ _ => ⟨hbefore.1, hinsideOwn, hafter.1, hown⟩, ?_⟩
      rw [exec, if_pos hdispensed, if_pos hset]
      exact hown.restored
    · refine ⟨fun h => absurd h hdispensed, ?_⟩
      rw [exec, if_neg hdispensed]

theorem removesOwn_execAll (m : Machine H C) (hset : m.globals.controllerSet = true) :
    ∀ activities : List (Activity H),
      m.EveryEoiAll (fun vector _ _ => IsInterrupt vector) activities →
        m.EveryEoiAll RemovesOwn activities ∧ (m.execAll activities).inService = m.inService
  | [], _ => ⟨trivial, rfl⟩
  | activity :: rest, h => by
    obtain ⟨hfirst, hfirst'⟩ := m.removesOwn_exec hset activity h.1
    obtain ⟨hrest, hrest'⟩ := removesOwn_execAll (m.exec activity)
      ((m.controllerSet_exec activity).trans hset) rest h.2
    exact ⟨⟨hfirst, hrest⟩, hrest'.trans hfirst'⟩

end

/-! Nothing but interrupts is ever in service. -/

def OnlyInterrupts : Prop := ∀ vector, m.inService vector = true → IsInterrupt vector

variable {m}

theorem OnlyInterrupts.deliver (hm : m.OnlyInterrupts) (vector : UInt8) :
    (m.deliver vector).OnlyInterrupts := by
  by_cases h : IsInterrupt vector
  · intro w hw
    rw [m.inService_deliver h] at hw
    by_cases hwv : w = vector
    · rw [hwv]
      exact h
    · rw [Function.update_of_ne hwv] at hw
      exact hm w hw
  · rw [Machine.deliver, if_neg h]
    exact hm

theorem OnlyInterrupts.endOfInterrupt (hm : m.OnlyInterrupts) :
    m.endOfInterrupt.OnlyInterrupts :=
  fun w hw => hm w (of_eoi hw)

mutual

theorem onlyInterrupts_exec (m : Machine H C) (hm : m.OnlyInterrupts) :
    ∀ activity : Activity H, (m.exec activity).OnlyInterrupts ∧
      (m.EveryEoi RemovesOwn activity →
        m.EveryEoi (fun vector _ _ => IsInterrupt vector) activity)
  | .op _ => ⟨hm, fun h => h⟩
  | .interrupt vector before inside after => by
    have hbefore := onlyInterrupts_execAll _ (hm.deliver vector) before
    let found := (m.deliver vector).execAll before
    let returned := if found.callsFunction vector then found.execAll inside else found
    have hinside := onlyInterrupts_execAll found hbefore.1 inside
    have hreturned : returned.OnlyInterrupts := by
      by_cases hcalls : found.callsFunction vector = true
      · have hreturned : returned = found.execAll inside := if_pos hcalls
        rw [hreturned]
        exact hinside.1
      · have hreturned : returned = found := if_neg hcalls
        rw [hreturned]
        exact hbefore.1
    have hafter := onlyInterrupts_execAll returned hreturned after
    constructor
    · rw [exec]
      split
      · split
        · exact hafter.1.endOfInterrupt
        · exact hm.deliver vector
      · exact hm
    · intro h hdispensed hset
      obtain ⟨hbeforeOwn, hinsideOwn, hafterOwn, hown⟩ := h hdispensed hset
      exact ⟨hbefore.2 hbeforeOwn, fun hcalls => hinside.2 (hinsideOwn hcalls),
        hafter.2 hafterOwn, hafter.1 vector hown.inService⟩

theorem onlyInterrupts_execAll (m : Machine H C) (hm : m.OnlyInterrupts) :
    ∀ activities : List (Activity H), (m.execAll activities).OnlyInterrupts ∧
      (m.EveryEoiAll RemovesOwn activities →
        m.EveryEoiAll (fun vector _ _ => IsInterrupt vector) activities)
  | [] => ⟨hm, fun h => h⟩
  | activity :: rest => by
    have hfirst := onlyInterrupts_exec m hm activity
    have hrest := onlyInterrupts_execAll _ hfirst.1 rest
    exact ⟨hrest.1, fun h => ⟨hfirst.2 h.1, hrest.2 h.2⟩⟩

end

end Machine

/-- After `set_global_controller`, with nothing in service. -/
def start (H : Type) {C : Type} (callback : Option C) : Machine H C :=
  ⟨⟨true, ⟨fun _ => none, ()⟩, callback⟩, fun _ => false⟩

/-- Every EOI of a run removes the vector of its own dispatch, and only that, if and only if
no exception and no spurious interrupt is dispatched in it. -/
theorem eoi_removesOwn_iff (callback : Option C) (activities : List (Activity H)) :
    (start H callback).EveryEoiAll RemovesOwn activities ↔
      (start H callback).EveryEoiAll (fun vector _ _ => IsInterrupt vector) activities := by
  constructor
  · have hstart : (start H callback).OnlyInterrupts := fun _ h => absurd h Bool.false_ne_true
    exact (Machine.onlyInterrupts_execAll _ hstart activities).2
  · intro h
    exact (Machine.removesOwn_execAll _ rfl activities h).1

/-- A page fault in the handler for vector 80: the EOI of its dispatch removes vector 80
from service, while the handler runs. -/
theorem eoi_removes_interrupted :
    let inside : List (Activity Unit) := [.interrupt 14 [] [] []]
    let activities := [.op (.register 80 ()), .interrupt 80 [] inside []]
    ¬ (start Unit (none : Option Unit)).EveryEoiAll RemovesOwn activities := by
  rintro inside activities ⟨-, h, -⟩
  obtain ⟨-, hinside, -, -⟩ := h (by decide +kernel) rfl
  obtain ⟨hfault, -⟩ := hinside (by decide +kernel)
  obtain ⟨-, -, -, hown⟩ := hfault (by decide +kernel) rfl
  have hin := hown.inService
  revert hin
  decide +kernel

end SimurghHal.Interrupt.Apic
