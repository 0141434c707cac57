import SimurghHal.Devices.Dispatch

/-!
# Claimed sources of the PLIC

The PLIC keeps a source in service from its claim to its completion and does not deliver it
meanwhile. It ignores the completion of a source whose enable bit is clear. The state of
the sources follows what a dispatch does, access by access.
-/

namespace SimurghHal.Interrupt.Plic

variable {H C : Type}

/-- The driver and the sources in service. -/
structure Machine (H C : Type) where
  globals : Globals driver H C
  inService : UInt32 → Bool

namespace Machine

variable (m : Machine H C)

/-- What a read of the claim register returns when the gateways offer this source. Only
enabled sources that are not in service can be claimed. -/
def claim (offered : UInt32) : UInt32 :=
  if offered ≠ 0 ∧ enabled m.globals.controller.device offered = true ∧
    m.inService offered = false then offered
  else 0

/-- The effect of one access. -/
def access : Access H C → Machine H C
  | .acknowledge id =>
    if id = 0 then m else { m with inService := Function.update m.inService id true }
  | .perform op =>
    { m with globals := { m.globals with controller := (Driver.step m.globals.controller op).2 } }
  | .complete id =>
    if enabled m.globals.controller.device id = true then
      { m with inService := Function.update m.inService id false }
    else m
  | .call _ _ | .callTimer _ | .returned | .clearSoftwarePending => m

/-- One event. An interrupt comes with its cause and the source that is offered. -/
def next : Event (UInt32 × UInt32) H → Machine H C
  | .op op => m.access (.perform op)
  | .interrupt (causeCode, offered) body =>
    match dispatchCurrentInterrupt m.globals (causeCode, m.claim offered) body with
    | some (trace, _) => trace.foldl access m
    | none => m

/-- No source is in service when a dispatch returns. -/
def Released : Event (UInt32 × UInt32) H → Prop
  | .op _ => True
  | .interrupt input body => ∀ source, (m.next (.interrupt input body)).inService source = false

end Machine

/-! ### What a handler does to its own line -/

/-- Whether a line has a handler and is enabled, after an operation on it. -/
def ownEffect (flags : Bool × Bool) : IrqOp H → Bool × Bool
  | .register _ _ => if flags.1 then flags else (true, true)
  | .unregister _ => (false, false)
  | .mask _ => (flags.1, false)
  | .unmask _ => (flags.1, true)

/-- This after any operation. -/
def effect (source : UInt32) (flags : Bool × Bool) (op : IrqOp H) : Bool × Bool :=
  if op.irq = source then ownEffect flags op else flags

/-- These operations leave a line enabled that has a handler and is enabled. -/
def LeavesEnabled (source : UInt32) (body : List (IrqOp H)) : Prop :=
  (body.foldl (effect source) (true, true)).2 = true

/-- A handler that is called for a claimed source leaves it enabled. -/
def Machine.HandlerLeavesEnabled (m : Machine H C) : Event (UInt32 × UInt32) H → Prop
  | .op _ => True
  | .interrupt (causeCode, offered) body =>
    causeCode = scauseSupervisorExternalInterrupt → m.claim offered ≠ 0 →
      (Driver.line m.globals.controller (m.claim offered)).handler.isSome →
        LeavesEnabled (m.claim offered) body

def flags (line : Line H) : Bool × Bool := (line.handler.isSome, line.enabled)

theorem flags_contractStep (lines : UInt32 → Line H) (op : IrqOp H) {source : UInt32}
    (hv : valid source = true) :
    flags ((contractStep valid lines op).2 source) = effect source (flags (lines source)) op := by
  by_cases hop : op.irq = source
  · subst hop
    rw [effect, if_pos rfl]
    cases op with
    | register irq handler =>
      simp only [IrqOp.irq] at hv ⊢
      cases hfree : (lines irq).handler.isSome <;>
        simp [contractStep, ownEffect, hv, hfree, flags]
    | unregister irq =>
      simp only [IrqOp.irq] at hv ⊢
      simp [contractStep, ownEffect, hv, flags]
    | mask irq =>
      simp only [IrqOp.irq] at hv ⊢
      simp [contractStep, ownEffect, hv, flags]
    | unmask irq =>
      simp only [IrqOp.irq] at hv ⊢
      simp [contractStep, ownEffect, hv, flags]
  · rw [effect, if_neg hop, contractStep_other valid lines op (Ne.symm hop)]

theorem flags_run (c : driver.InterruptCtrl H) (body : List (IrqOp H)) {source : UInt32}
    (hv : valid source = true) :
    flags (Driver.line (Simulation.run Driver.step c body).2 source) =
      body.foldl (effect source) (flags (Driver.line c source)) := by
  induction body generalizing c with
  | nil => rfl
  | cons op body ih =>
    have hstep : Driver.line (Driver.step c op).2 source =
        (contractStep valid (Driver.line c) op).2 source :=
      congrFun (deviceLawful.stepRefines c op).2 source
    rw [Simulation.run_cons, List.foldl_cons, ← flags_contractStep _ op hv, ← hstep]
    exact ih _

namespace Machine

variable (m : Machine H C)

/-- The state the driver is in after some accesses. -/
theorem globals_foldl_access (trace : List (Access H C)) :
    (trace.foldl access m).globals = { m.globals with
      controller := (Simulation.run Driver.step m.globals.controller
        (trace.filterMap Access.op?)).2 } := by
  induction trace generalizing m with
  | nil => rfl
  | cons a trace ih =>
    rw [List.foldl_cons, ih]
    cases a with
    | acknowledge id =>
      rw [access]
      split <;> rfl
    | complete id =>
      rw [access]
      split <;> rfl
    | _ => rfl

/-- Only acknowledging and completing change what is in service. -/
theorem inService_invoke (called : Access H C)
    (hcalled : ∀ m : Machine H C, m.access called = m) (body : List (IrqOp H)) :
    ((m.globals.invoke called body).1.foldl access m).inService = m.inService := by
  have hbody : ∀ (body : List (IrqOp H)) (m : Machine H C),
      ((body.map Access.perform).foldl access m).inService = m.inService := by
    intro body
    induction body with
    | nil => exact fun m => rfl
    | cons op body ih => exact fun m => ih _
  rw [Globals.invoke, List.foldl_cons, hcalled, List.foldl_append]
  exact hbody body m

/-- Claim, call and completion of one source. -/
theorem inService_serviced {source : UInt32} (hsource : source ≠ 0) (handler : Option H)
    (body : List (IrqOp H)) :
    ((expected source false (handler.map (.call · source)) body).foldl access m).inService =
      Function.update m.inService source
        (!enabled (Simulation.run Driver.step m.globals.controller
          (if handler.isSome then body else [])).2.device source) := by
  let claimed : Machine H C := { m with inService := Function.update m.inService source true }
  have hclaimed : m.access (.acknowledge source) = claimed := if_neg hsource
  -- the driver and the sources in service when the completion is written
  obtain ⟨called, htrace, hinService, hcontroller⟩ : ∃ called : Machine H C,
      (expected source false (handler.map (.call · source)) body).foldl access m =
        called.access (.complete source) ∧
      called.inService = claimed.inService ∧ called.globals.controller =
        (Simulation.run Driver.step m.globals.controller
          (if handler.isSome then body else [])).2 := by
    cases handler with
    | none => exact ⟨claimed, by rw [← hclaimed]; rfl, rfl, rfl⟩
    | some handler =>
      refine ⟨(m.globals.invoke (.call handler source) body).1.foldl access claimed, ?_, ?_, ?_⟩
      · rw [← hclaimed]
        exact List.foldl_append
      · exact claimed.inService_invoke _ (fun _ => rfl) body
      · rw [globals_foldl_access, ← m.globals.changedBy_invoke rfl body]
        rfl
  rw [htrace, access, ← hcontroller]
  cases enabled called.globals.controller.device source with
  | true =>
    rw [if_pos rfl, hinService]
    exact Function.update_idem _ _ _
  | false =>
    rw [if_neg Bool.false_ne_true, hinService]
    rfl

/-- A claimed source is enabled and not in service. -/
theorem of_claim_ne_zero {offered : UInt32} (h : m.claim offered ≠ 0) :
    enabled m.globals.controller.device (m.claim offered) = true ∧
      m.inService (m.claim offered) = false := by
  rw [claim] at h ⊢
  split at h
  · next hoffered =>
    rw [if_pos hoffered]
    exact hoffered.2
  · exact absurd rfl h

/-- A dispatch that claims nothing does not change what is in service. -/
theorem inService_next_unclaimed (hset : m.globals.controllerSet = true) {causeCode offered : UInt32}
    (h : causeCode = scauseSupervisorExternalInterrupt → m.claim offered = 0)
    (body : List (IrqOp H)) :
    (m.next (.interrupt (causeCode, offered) body)).inService = m.inService := by
  by_cases hcause : causeCode = scauseSupervisorExternalInterrupt
  · subst hcause
    obtain ⟨g', hg'⟩ := dispatch_trace m.globals hset (m.claim offered) body
    rw [h rfl] at hg'
    rw [next, h rfl, hg']
    rfl
  · rw [next, dispatchCurrentInterrupt]
    by_cases htimer : causeCode = scauseSupervisorTimerInterrupt
    · rw [if_pos htimer, Globals.onTimerInterrupt]
      cases m.globals.timerCallback with
      | none => rfl
      | some callback => exact m.inService_invoke _ (fun _ => rfl) body
    · rw [if_neg htimer, if_neg hcause]
      by_cases hsoftware : causeCode = scauseSupervisorSoftwareInterrupt
      · rw [if_pos hsoftware]
        rfl
      · rw [if_neg hsoftware]
        rfl

/-- A dispatch that claims a source leaves it in service when it is not enabled any more. -/
theorem inService_next_claimed (hset : m.globals.controllerSet = true) {offered : UInt32}
    (h : m.claim offered ≠ 0) (body : List (IrqOp H)) :
    (m.next (.interrupt (scauseSupervisorExternalInterrupt, offered) body)).inService =
      Function.update m.inService (m.claim offered)
        (!enabled (Simulation.run Driver.step m.globals.controller
          (if (Driver.line m.globals.controller (m.claim offered)).handler.isSome then body
            else [])).2.device (m.claim offered)) := by
  obtain ⟨g', hg'⟩ := dispatch_trace m.globals hset (m.claim offered) body
  rw [next, hg', decide_eq_false h]
  exact m.inService_serviced h _ body

/-- The bit that decides on the completion of a claimed source. -/
theorem enabled_after_iff {offered : UInt32} (h : m.claim offered ≠ 0) (body : List (IrqOp H)) :
    enabled (Simulation.run Driver.step m.globals.controller
        (if (Driver.line m.globals.controller (m.claim offered)).handler.isSome then body
          else [])).2.device (m.claim offered) = true ↔
      ((Driver.line m.globals.controller (m.claim offered)).handler.isSome →
        LeavesEnabled (m.claim offered) body) := by
  have henabled := (m.of_claim_ne_zero h).1
  cases hhandler : (Driver.line m.globals.controller (m.claim offered)).handler.isSome with
  | false => exact iff_of_true henabled fun h => absurd h Bool.false_ne_true
  | true =>
    have hv : valid (m.claim offered) = true := by
      by_contra hv
      rw [Driver.handler_line_invalid (Bool.not_eq_true _ ▸ hv)] at hhandler
      cases hhandler
    have hflags : flags (Driver.line m.globals.controller (m.claim offered)) = (true, true) :=
      Prod.ext hhandler henabled
    have hrun := congrArg Prod.snd (flags_run m.globals.controller body hv)
    rw [hflags] at hrun
    rw [if_pos rfl, LeavesEnabled, ← hrun]
    exact ⟨fun h _ => h, fun h => h rfl⟩

theorem controllerSet_next (event : Event (UInt32 × UInt32) H) :
    (m.next event).globals.controllerSet = m.globals.controllerSet := by
  cases event with
  | op op => rfl
  | interrupt input body =>
    rw [next]
    split
    · rw [globals_foldl_access]
    · rfl

/-- Nothing is in service between the events. -/
structure Idle : Prop where
  controllerSet : m.globals.controllerSet = true
  inService : ∀ source, m.inService source = false

variable {m}

theorem Idle.next (hm : m.Idle) {event : Event (UInt32 × UInt32) H} (h : m.Released event) :
    (m.next event).Idle := by
  refine ⟨(m.controllerSet_next event).trans hm.controllerSet, ?_⟩
  cases event with
  | op op => exact hm.inService
  | interrupt input body => exact h

theorem Idle.released_iff (hm : m.Idle) (event : Event (UInt32 × UInt32) H) :
    m.Released event ↔ m.HandlerLeavesEnabled event := by
  obtain _ | ⟨⟨causeCode, offered⟩, body⟩ := event
  · exact Iff.rfl
  · by_cases hclaimed : causeCode = scauseSupervisorExternalInterrupt ∧ m.claim offered ≠ 0
    · obtain ⟨rfl, hclaim⟩ := hclaimed
      have hnext := m.inService_next_claimed hm.controllerSet hclaim body
      have hiff := m.enabled_after_iff hclaim body
      constructor
      · intro hreleased _ _
        have hsource := hreleased (m.claim offered)
        rw [hnext, Function.update_self, Bool.not_eq_false'] at hsource
        exact hiff.mp hsource
      · intro hleaves source
        rw [hnext, hiff.mpr (hleaves rfl hclaim)]
        by_cases hsource : source = m.claim offered
        · rw [hsource, Function.update_self]
          rfl
        · rw [Function.update_of_ne hsource]
          exact hm.inService source
    · have hunclaimed : causeCode = scauseSupervisorExternalInterrupt → m.claim offered = 0 :=
        fun hcause => not_not.mp fun hclaim => hclaimed ⟨hcause, hclaim⟩
      have hnext := m.inService_next_unclaimed hm.controllerSet hunclaimed body
      refine iff_of_true (fun source => ?_) fun hcause hclaim => absurd ⟨hcause, hclaim⟩ hclaimed
      rw [hnext]
      exact hm.inService source

end Machine

/-- After `InterruptCtrl::new` and `set_global_controller`, which write no register. -/
def start (H : Type) {C : Type} (regs : Registers) (callback : Option C) : Machine H C :=
  ⟨⟨true, ⟨fun _ => none, regs⟩, callback⟩, fun _ => false⟩

/-- No dispatch of a run leaves a source in service if and only if every handler called in
it leaves its own source enabled. -/
theorem noSourceLeftClaimed_iff (regs : Registers) (callback : Option C)
    (events : List (Event (UInt32 × UInt32) H)) :
    Simulation.Every Machine.next Machine.Released (start H regs callback) events ↔
      Simulation.Every Machine.next Machine.HandlerLeavesEnabled (start H regs callback) events := by
  have hstart : (start H regs callback).Idle := ⟨rfl, fun _ => rfl⟩
  exact Simulation.every_congr (fun _ _ hm hreleased => Machine.Idle.next hm hreleased)
    (fun _ event hm => Machine.Idle.released_iff hm event) events _ hstart

/-- A handler that masks its own line, as a driver does that leaves the work to a thread. -/
theorem sourceLeftClaimed_mask :
    let events : List (Event (UInt32 × UInt32) Unit) :=
      [.op (.register 5 ()), .interrupt (9, 5) [.mask 5]]
    ¬ Simulation.Every Machine.next Machine.Released (start Unit (fun _ => 0) (none : Option Unit))
      events := by
  rintro events ⟨-, h, -⟩
  have hclaimed := h 5
  revert hclaimed
  decide

end SimurghHal.Interrupt.Plic
