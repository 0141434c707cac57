import SimurghHal.Devices.Interrupt

/-!
# Interrupt dispatch on ARM64 and RISC-V

`dispatch_current_irq` and `dispatch_current_interrupt`: the id is read from the controller,
the function for it is called, and the id is written back. A dispatch is described by the
list of what it does, in order. The called function is arbitrary code that may use the four
operations on interrupt lines, so it stands in the model as the list of operations it makes.
-/

namespace SimurghHal.Interrupt

variable {δ H C ι : Type}

/-- What happens in a dispatch. -/
inductive Access (H C : Type) where
  /-- The id is read from the controller. -/
  | acknowledge (id : UInt32)
  | call (handler : H) (irq : UInt32)
  | callTimer (callback : C)
  /-- The called function makes an operation. -/
  | perform (op : IrqOp H)
  /-- The called function returns. -/
  | returned
  /-- The id is written back. -/
  | complete (id : UInt32)
  | clearSoftwarePending
  deriving DecidableEq, Repr

def Access.op? : Access H C → Option (IrqOp H)
  | .perform op => some op
  | _ => none

/-- What the dispatch functions reach through `GLOBAL_CONTROLLER_PTR` and
`GLOBAL_TIMER_PTR`. -/
structure Globals (D : Driver δ) (H C : Type) where
  controllerSet : Bool
  controller : D.InterruptCtrl H
  timerCallback : Option C

namespace Globals

variable {D : Driver δ} (g : Globals D H C)

/-- A call of a function that makes the operations `body`. -/
def invoke (called : Access H C) (body : List (IrqOp H)) :
    List (Access H C) × Globals D H C :=
  (called :: (body.map .perform ++ [.returned]),
    { g with controller := (Simulation.run Driver.step g.controller body).2 })

/-- `on_timer_interrupt`. -/
def onTimerInterrupt (body : List (IrqOp H)) : List (Access H C) × Globals D H C :=
  match g.timerCallback with
  | none => ([], g)
  | some callback => g.invoke (.callTimer callback) body

/-- The call of the handler found in the table, if there is one. -/
def callHandler (handler : Option H) (irq : UInt32) (body : List (IrqOp H)) :
    List (Access H C) × Globals D H C :=
  match handler with
  | none => ([], g)
  | some handler => g.invoke (.call handler irq) body

/-- `handlers.borrow()[idx]`, undefined where the index is out of range. -/
def handlerAt (idx : ℕ) : Option (Option H) :=
  if h : idx < D.tableSize then some (g.controller.handlers ⟨idx, h⟩) else none

end Globals

/-- The id read, what is called, the id written back. -/
def serviced {D : Driver δ} (id : UInt32) (called : List (Access H C) × Globals D H C) :
    List (Access H C) × Globals D H C :=
  (.acknowledge id :: (called.1 ++ [.complete id]), called.2)

/-! ### The dispatch functions

They are undefined where they would panic. -/

namespace Gic

def timerPpiIntid : UInt32 := 30

/-- `read_iar`. -/
def readIar (value : UInt64) : UInt32 := (value &&& 0xFFFFFF).toUInt32

/-- `dispatch_current_irq`, for the value of `ICC_IAR1_EL1` that is read in it. -/
def dispatchCurrentIrq (g : Globals driver H C) (iar : UInt64) (body : List (IrqOp H)) :
    Option (List (Access H C) × Globals driver H C) :=
  if g.controllerSet = false then some ([], g)
  else
    let intid := readIar iar
    if 1020 ≤ intid then some ([.acknowledge intid], g)
    else if intid = timerPpiIntid then some (serviced intid (g.onTimerInterrupt body))
    else if firstUsableIntid ≤ intid then
      let idx := (intid - firstUsableIntid).toNat
      if idx < maxTrackedIntids then
        (g.handlerAt idx).map fun handler => serviced intid (g.callHandler handler intid body)
      else some (serviced intid ([], g))
    else some (serviced intid ([], g))

end Gic

namespace Plic

def scauseSupervisorSoftwareInterrupt : UInt32 := 1
def scauseSupervisorTimerInterrupt : UInt32 := 5
def scauseSupervisorExternalInterrupt : UInt32 := 9

/-- `dispatch_current_interrupt`, for the cause code and for the id that `read_claim` would
return in it. -/
def dispatchCurrentInterrupt (g : Globals driver H C) (input : UInt32 × UInt32)
    (body : List (IrqOp H)) : Option (List (Access H C) × Globals driver H C) :=
  let (causeCode, source) := input
  if causeCode = scauseSupervisorTimerInterrupt then some (g.onTimerInterrupt body)
  else if causeCode = scauseSupervisorSoftwareInterrupt then some ([.clearSoftwarePending], g)
  else if causeCode = scauseSupervisorExternalInterrupt then
    if g.controllerSet = false then some ([], g)
    else if source = 0 then some ([.acknowledge source], g)
    else if firstUsableSource ≤ source ∧ source.toNat < maxTrackedSources then
      (g.handlerAt (source - firstUsableSource).toNat).map fun handler =>
        serviced source (g.callHandler handler source body)
    else some (serviced source ([], g))
  else some ([], g)

end Plic

/-! ### Runs -/

/-- A call of an operation from outside, or an interrupt. -/
inductive Event (ι H : Type) where
  | op (op : IrqOp H)
  | interrupt (input : ι) (body : List (IrqOp H))

section Runs

variable {D : Driver δ}
  (dispatch : Globals D H C → ι → List (IrqOp H) → Option (List (Access H C) × Globals D H C))

/-- One event, with what happens in it. There is no output where the dispatch panics. -/
def stepWith (g : Globals D H C) : Event ι H → Option (List (Access H C)) × Globals D H C
  | .op op =>
    (some [.perform op], { g with controller := (Driver.step g.controller op).2 })
  | .interrupt input body =>
    match dispatch g input body with
    | some (trace, g') => (some trace, g')
    | none => (none, g)

/-- The operations made in a run, by handlers or not. -/
def performed (outputs : List (Option (List (Access H C)))) : List (IrqOp H) :=
  outputs.flatMap fun output => (output.getD []).filterMap Access.op?

theorem performed_cons (output : Option (List (Access H C)))
    (outputs : List (Option (List (Access H C)))) :
    performed (output :: outputs) =
      (output.getD []).filterMap Access.op? ++ performed outputs := rfl

/-- The controller has only been changed by the operations made. -/
def ChangedBy (g : Globals D H C) (result : List (Access H C) × Globals D H C) : Prop :=
  result.2 = { g with
    controller := (Simulation.run Driver.step g.controller (result.1.filterMap Access.op?)).2 }

/-- This for all interrupts. -/
def ChangesByOps : Prop :=
  ∀ g input body result, dispatch g input body = some result → ChangedBy g result

theorem filterMap_op?_perform (body : List (IrqOp H)) :
    (body.map (Access.perform (C := C))).filterMap Access.op? = body := by
  rw [List.filterMap_map]
  exact List.filterMap_some

theorem filterMap_op?_concat (accesses : List (Access H C)) {access : Access H C}
    (h : access.op? = none) :
    (accesses ++ [access]).filterMap Access.op? = accesses.filterMap Access.op? := by
  rw [List.filterMap_append, List.filterMap_cons_none h, List.filterMap_nil, List.append_nil]

theorem Globals.changedBy_invoke (g : Globals D H C) {called : Access H C}
    (hcalled : called.op? = none) (body : List (IrqOp H)) :
    ChangedBy g (g.invoke called body) := by
  rw [ChangedBy, invoke, List.filterMap_cons_none hcalled, filterMap_op?_concat _ rfl,
    filterMap_op?_perform]

theorem Globals.changedBy_onTimerInterrupt (g : Globals D H C) (body : List (IrqOp H)) :
    ChangedBy g (g.onTimerInterrupt body) := by
  rw [onTimerInterrupt]
  split
  · rfl
  · exact g.changedBy_invoke rfl body

theorem Globals.changedBy_callHandler (g : Globals D H C) (handler : Option H) (irq : UInt32)
    (body : List (IrqOp H)) : ChangedBy g (g.callHandler handler irq body) := by
  cases handler with
  | none => rfl
  | some handler => exact g.changedBy_invoke rfl body

theorem ChangedBy.serviced {g : Globals D H C} {called : List (Access H C) × Globals D H C}
    (h : ChangedBy g called) (id : UInt32) : ChangedBy g (serviced id called) := by
  rw [ChangedBy, Interrupt.serviced, List.filterMap_cons_none rfl, filterMap_op?_concat _ rfl]
  exact h

variable {dispatch}

/-- All that changes along a run is the controller, by the operations made. -/
theorem run_stepWith (hdispatch : ChangesByOps dispatch) (g : Globals D H C)
    (events : List (Event ι H)) :
    (Simulation.run (stepWith dispatch) g events).2 =
      { g with controller := (Simulation.run Driver.step g.controller
          (performed (Simulation.run (stepWith dispatch) g events).1)).2 } := by
  induction events generalizing g with
  | nil => rfl
  | cons event events ih =>
    have hstep : (stepWith dispatch g event).2 = { g with
        controller := (Simulation.run Driver.step g.controller
          (((stepWith dispatch g event).1.getD []).filterMap Access.op?)).2 } := by
      cases event with
      | op op => rfl
      | interrupt input body =>
        rw [stepWith]
        cases hresult : dispatch g input body with
        | none => rfl
        | some result => exact hdispatch g input body result hresult
    rw [Simulation.run_cons, performed_cons, Simulation.run_append, ih, hstep]

theorem output_stepWith {g g' : Globals D H C} {input : ι} {body : List (IrqOp H)}
    {trace : List (Access H C)} (h : dispatch g input body = some (trace, g')) :
    (stepWith dispatch g (.interrupt input body)).1 = some trace := by
  rw [stepWith, h]

/-- What a dispatch has to do for an id: read it, call the function for it, and write it
back when the function has returned. Nothing but the reading happens for a spurious id. -/
def expected (id : UInt32) (spurious : Bool) (callee : Option (Access H C))
    (body : List (IrqOp H)) : List (Access H C) :=
  if spurious then [.acknowledge id]
  else
    let called := match callee with
      | none => []
      | some called => called :: (body.map .perform ++ [.returned])
    .acknowledge id :: (called ++ [.complete id])

theorem Globals.handlerAt_eq (g : Globals D H C) {irq : UInt32} (hv : D.valid irq = true) :
    g.handlerAt (irq - D.firstUsable).toNat = some (Driver.line g.controller irq).handler := by
  rw [handlerAt, dif_pos (D.slot_lt hv).2, Driver.line]
  simp only [hv, dif_pos]
  rfl

theorem Globals.serviced_callHandler (g : Globals D H C) (handler : Option H) (irq : UInt32)
    (body : List (IrqOp H)) :
    (serviced irq (g.callHandler handler irq body)).1 =
      expected irq false (handler.map (.call · irq)) body := by
  cases handler <;> rfl

theorem Globals.serviced_onTimerInterrupt (g : Globals D H C) (id : UInt32)
    (body : List (IrqOp H)) :
    (serviced id (g.onTimerInterrupt body)).1 =
      expected id false (g.timerCallback.map .callTimer) body := by
  rw [onTimerInterrupt]
  cases g.timerCallback <;> rfl

end Runs

theorem Gic.changesByOps : ChangesByOps (dispatchCurrentIrq (H := H) (C := C)) := by
  intro g iar body result h
  rw [dispatchCurrentIrq] at h
  split at h
  · cases h
    rfl
  · dsimp only at h
    split at h
    · cases h
      rfl
    · split at h
      · cases h
        exact (g.changedBy_onTimerInterrupt body).serviced _
      · split at h
        · split at h
          · obtain ⟨handler, -, rfl⟩ := Option.map_eq_some_iff.mp h
            exact (g.changedBy_callHandler handler _ body).serviced _
          · cases h
            rfl
        · cases h
          rfl

/-- A line without a slot has no handler. -/
theorem Driver.handler_line_invalid {D : Driver δ} {c : D.InterruptCtrl H} {irq : UInt32}
    (h : D.valid irq = false) : (line c irq).handler = none := by
  simp [line, h]

/-- The dispatch of `dispatch_current_irq` is the expected one, and does not panic. -/
theorem Gic.dispatch_trace (g : Globals Gic.driver H C) (hset : g.controllerSet = true)
    (iar : UInt64) (body : List (IrqOp H)) :
    ∃ g', dispatchCurrentIrq g iar body = some (expected (readIar iar)
      (decide (1020 ≤ readIar iar)) (if readIar iar = timerPpiIntid then
          g.timerCallback.map .callTimer
        else (Driver.line g.controller (readIar iar)).handler.map (.call · (readIar iar))) body, g') := by
  rw [dispatchCurrentIrq, if_neg (by simp [hset])]
  dsimp only
  generalize readIar iar = intid
  by_cases hspurious : 1020 ≤ intid
  · rw [if_pos hspurious, decide_eq_true hspurious]
    exact ⟨g, rfl⟩
  · rw [if_neg hspurious, decide_eq_false hspurious]
    by_cases htimer : intid = timerPpiIntid
    · rw [if_pos htimer, if_pos htimer, ← g.serviced_onTimerInterrupt intid body]
      exact ⟨_, rfl⟩
    · rw [if_neg htimer, if_neg htimer]
      by_cases hv : valid intid = true
      · obtain ⟨hfirst, hslot⟩ : firstUsableIntid.toNat ≤ intid.toNat ∧
            (intid - firstUsableIntid).toNat < maxTrackedIntids := driver.slot_lt hv
        have hfound : g.handlerAt (intid - firstUsableIntid).toNat = _ := g.handlerAt_eq hv
        rw [if_pos (UInt32.le_iff_toNat_le.mpr hfirst), if_pos hslot, hfound, Option.map_some,
          ← g.serviced_callHandler]
        exact ⟨_, rfl⟩
      · have hnone : (Driver.line g.controller intid).handler = none :=
          Driver.handler_line_invalid (Bool.not_eq_true _ ▸ hv)
        rw [hnone]
        split
        · next hle =>
          rw [if_neg]
          · exact ⟨_, rfl⟩
          · intro hlt
            refine hv ((valid_iff intid).mpr ⟨UInt32.le_iff_toNat_le.mp hle, ?_⟩)
            rw [UInt32.toNat_sub_of_le _ _ hle] at hlt
            change intid.toNat - 32 < 480 at hlt
            omega
        · exact ⟨_, rfl⟩

theorem Plic.changesByOps : ChangesByOps (dispatchCurrentInterrupt (H := H) (C := C)) := by
  intro g input body result h
  rw [dispatchCurrentInterrupt] at h
  split at h
  · cases h
    exact g.changedBy_onTimerInterrupt body
  · split at h
    · cases h
      rfl
    · split at h
      · split at h
        · cases h
          rfl
        · split at h
          · cases h
            rfl
          · split at h
            · obtain ⟨handler, -, rfl⟩ := Option.map_eq_some_iff.mp h
              exact (g.changedBy_callHandler handler _ body).serviced _
            · cases h
              rfl
      · cases h
        rfl

/-- The dispatch of an external interrupt is the expected one, and does not panic. -/
theorem Plic.dispatch_trace (g : Globals Plic.driver H C) (hset : g.controllerSet = true)
    (source : UInt32) (body : List (IrqOp H)) :
    ∃ g', dispatchCurrentInterrupt g (scauseSupervisorExternalInterrupt, source) body =
      some (expected source (decide (source = 0))
        ((Driver.line g.controller source).handler.map (.call · source)) body, g') := by
  rw [dispatchCurrentInterrupt, if_neg (by decide), if_neg (by decide), if_pos rfl,
    if_neg (by simp [hset])]
  by_cases hspurious : source = 0
  · rw [if_pos hspurious, decide_eq_true hspurious]
    exact ⟨g, rfl⟩
  · rw [if_neg hspurious, decide_eq_false hspurious]
    by_cases hv : valid source = true
    · have hsource := (valid_iff source).mp hv
      have hfound : g.handlerAt (source - firstUsableSource).toNat = _ := g.handlerAt_eq hv
      rw [if_pos ⟨UInt32.le_iff_toNat_le.mpr hsource.1, hsource.2⟩, hfound, Option.map_some,
        ← g.serviced_callHandler]
      exact ⟨_, rfl⟩
    · have hnone : (Driver.line g.controller source).handler = none :=
        Driver.handler_line_invalid (Bool.not_eq_true _ ▸ hv)
      rw [hnone, if_neg]
      · exact ⟨_, rfl⟩
      · rintro ⟨hle, hlt⟩
        exact hv ((valid_iff source).mpr ⟨UInt32.le_iff_toNat_le.mp hle, hlt⟩)

/-- The handlers in the table after a run are those the contract has for the operations
made in it. -/
theorem handler_run {D : Driver δ} (hD : D.DeviceLawful)
    {dispatch : Globals D H C → ι → List (IrqOp H) → Option (List (Access H C) × Globals D H C)}
    (hdispatch : ChangesByOps dispatch) {g : Globals D H C}
    (hinit : ∀ irq, D.valid irq = true → Driver.line g.controller irq = idleLines irq)
    (events : List (Event ι H)) (irq : UInt32) :
    (Driver.line (Simulation.run (stepWith dispatch) g events).2.controller irq).handler =
      ((Simulation.run (contractStep D.valid) idleLines
        (performed (Simulation.run (stepWith dispatch) g events).1)).2 irq).handler := by
  rw [run_stepWith hdispatch]
  generalize performed _ = ops
  cases hv : D.valid irq with
  | false =>
    rw [Driver.handler_line_invalid hv, run_contractStep_invalid hv]
    rfl
  | true =>
    obtain ⟨-, hlines, -⟩ := hD.stepRefines.refinesContract hinit ops
    rw [hlines irq hv]

/-- Every dispatch, after any run, reads one id. For a spurious id it does nothing else. For
any other it calls at most the function registered for this id, and writes the id back
after the function has returned. It does not panic. -/
theorem dispatch_routes_and_completes (H C : Type) (callback : Option C) :
    (∀ (regs : ℕ → UInt32) (events : List (Event UInt64 H)) (iar : UInt64)
        (body : List (IrqOp H)),
      let run := Simulation.run (stepWith Gic.dispatchCurrentIrq)
        ⟨true, Gic.initial H regs, callback⟩ events
      let lines := (Simulation.run (contractStep Gic.valid) idleLines (performed run.1)).2
      let id := Gic.readIar iar
      (stepWith Gic.dispatchCurrentIrq run.2 (.interrupt iar body)).1 =
        some (expected id (decide (1020 ≤ id))
          (if id = 30 then callback.map .callTimer
            else (lines id).handler.map (.call · id)) body)) ∧
    (∀ (regs : Plic.Registers) (events : List (Event (UInt32 × UInt32) H)) (id : UInt32)
        (body : List (IrqOp H)),
      let run := Simulation.run (stepWith Plic.dispatchCurrentInterrupt)
        ⟨true, Plic.initial H regs, callback⟩ events
      let lines := (Simulation.run (contractStep Plic.valid) idleLines (performed run.1)).2
      (stepWith Plic.dispatchCurrentInterrupt run.2 (.interrupt (9, id) body)).1 =
        some (expected id (decide (id = 0)) ((lines id).handler.map (.call · id)) body)) := by
  constructor
  · intro regs events iar body run lines id
    have hchanged := run_stepWith Gic.changesByOps ⟨true, Gic.initial H regs, callback⟩ events
    have hset : run.2.controllerSet = true := by rw [hchanged]
    have htimer : run.2.timerCallback = callback := by rw [hchanged]
    have hhandler : (Driver.line run.2.controller id).handler = (lines id).handler :=
      handler_run Gic.deviceLawful Gic.changesByOps (fun irq _ => Gic.line_initial H regs irq)
        events id
    obtain ⟨g', hg'⟩ := Gic.dispatch_trace run.2 hset iar body
    rw [htimer, hhandler] at hg'
    exact output_stepWith hg'
  · intro regs events id body run lines
    have hchanged := run_stepWith Plic.changesByOps ⟨true, Plic.initial H regs, callback⟩ events
    have hset : run.2.controllerSet = true := by rw [hchanged]
    have hhandler : (Driver.line run.2.controller id).handler = (lines id).handler :=
      handler_run Plic.deviceLawful Plic.changesByOps (fun _ hv => Plic.line_initial H regs hv)
        events id
    obtain ⟨g', hg'⟩ := Plic.dispatch_trace run.2 hset id body
    rw [hhandler] at hg'
    exact output_stepWith hg'

end SimurghHal.Interrupt
