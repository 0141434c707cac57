import SimurghHal.Devices.Dispatch
import Mathlib.Data.List.Induction

/-!
# What the operations leave in a controller

A driver writes the priority and the route of a line when the line is registered, and otherwise
only enable bits. What a run of operations leaves in such a register is the value for new lines
if one of them was registered at some time, and else what was there before (`observed_run`). A
call of `register_irq` that is refused because of a handler changes nothing, but then the line
was registered before.
-/

namespace SimurghHal.Interrupt

namespace Driver

variable {δ H α : Type} {D : Driver δ}

/-- `register_irq` is called for one of these lines, and its number is valid. -/
def registers (D : Driver δ) (affects : UInt32 → Bool) (ops : List (IrqOp H)) : Bool :=
  ops.any fun
    | .register irq _ => D.valid irq && affects irq
    | _ => false

section Registers

variable {affects : UInt32 → Bool} {ops : List (IrqOp H)} {c : D.InterruptCtrl H} {irq : UInt32}

theorem registers_concat (ops : List (IrqOp H)) (op : IrqOp H) :
    D.registers affects (ops ++ [op]) = (D.registers affects ops || D.registers affects [op]) :=
  List.any_append

theorem registers_singleton (irq : UInt32) (handler : H) :
    D.registers affects [.register irq handler] = (D.valid irq && affects irq) :=
  Bool.or_false _

theorem registers_none (ops : List (IrqOp H)) : D.registers (fun _ => false) ops = false := by
  rw [registers, List.any_eq_false]
  rintro (⟨irq, handler⟩ | irq | irq | irq) - h
  · exact absurd h (by simp)
  · exact absurd h Bool.false_ne_true
  · exact absurd h Bool.false_ne_true
  · exact absurd h Bool.false_ne_true

/-- A line that was registered is one of those it belongs to. -/
theorem registers_of_affects (haffects : affects irq = true)
    (h : D.registers (· == irq) ops = true) : D.registers affects ops = true := by
  rw [registers, List.any_eq_true] at h ⊢
  obtain ⟨op, hmem, hop⟩ := h
  refine ⟨op, hmem, ?_⟩
  cases op with
  | register i handler =>
    rw [Bool.and_eq_true, beq_iff_eq] at hop
    obtain ⟨hvalid, rfl⟩ := hop
    show (D.valid i && affects i) = true
    rw [hvalid, haffects, Bool.and_self]
  | unregister i => exact hop
  | mask i => exact hop
  | unmask i => exact hop

/-- What a call does to the device: nothing, a registration, or one enable bit. -/
theorem step_cases (c : D.InterruptCtrl H) (op : IrqOp H) :
    ((step c op).2 = c ∧ ∀ irq handler, op = .register irq handler → D.valid irq = true →
        (line c irq).handler.isSome = true) ∨
      (∃ irq handler, op = .register irq handler ∧ D.valid irq = true ∧
        (step c op).2.device = D.configure c.device irq) ∨
      (∃ irq, (∀ i handler, op ≠ .register i handler) ∧ D.valid irq = true ∧
        ((step c op).2.device = D.enable c.device irq ∨
          (step c op).2.device = D.disable c.device irq)) := by
  cases op with
  | register irq handler =>
    rw [step, registerIrq]
    split
    · next hv =>
      split
      · next htaken =>
        refine .inl ⟨rfl, ?_⟩
        rintro i handler' ⟨⟩ -
        rw [line, dif_pos hv]
        exact htaken
      · exact .inr (.inl ⟨irq, handler, rfl, hv, rfl⟩)
    · next hv =>
      refine .inl ⟨rfl, ?_⟩
      rintro i handler' ⟨⟩ hvalid
      exact absurd hvalid hv
  | unregister irq =>
    rw [step, unregisterIrq]
    split
    · next hv => exact .inr (.inr ⟨irq, by simp, hv, .inr rfl⟩)
    · exact .inl ⟨rfl, by simp⟩
  | mask irq =>
    rw [step, maskIrq]
    split
    · next hv => exact .inr (.inr ⟨irq, by simp, hv, .inr rfl⟩)
    · exact .inl ⟨rfl, by simp⟩
  | unmask irq =>
    rw [step, unmaskIrq]
    split
    · next hv => exact .inr (.inr ⟨irq, by simp, hv, .inl rfl⟩)
    · exact .inl ⟨rfl, by simp⟩

/-- Only a registration puts a handler into the table. -/
theorem handler_step (hD : D.DeviceLawful) (op : IrqOp H)
    (h : (line (step c op).2 irq).handler.isSome = true) :
    (line c irq).handler.isSome = true ∨ D.registers (· == irq) [op] = true := by
  rw [(hD.stepRefines c op).2] at h
  by_cases hirq : irq = op.irq
  · subst hirq
    cases hv : D.valid op.irq with
    | false =>
      rw [contractStep_invalid (line c) op hv] at h
      exact .inl h
    | true =>
      cases op with
      | register i handler =>
        refine .inr ?_
        rw [registers_singleton, show D.valid i = true from hv, Bool.true_and]
        exact beq_self_eq_true i
      | unregister i =>
        rw [IrqOp.irq] at hv h
        simp [contractStep, hv] at h
      | mask i =>
        rw [IrqOp.irq] at hv h
        have hkept : (line c i).handler.isSome = true := by simpa [contractStep, hv] using h
        exact .inl hkept
      | unmask i =>
        rw [IrqOp.irq] at hv h
        have hkept : (line c i).handler.isSome = true := by simpa [contractStep, hv] using h
        exact .inl hkept
  · rw [contractStep_other D.valid (line c) op hirq] at h
    exact .inl h

theorem registers_of_handler_run (hD : D.DeviceLawful) (hc : ∀ slot, c.handlers slot = none)
    (ops : List (IrqOp H))
    (h : (line (Simulation.run step c ops).2 irq).handler.isSome = true) :
    D.registers (· == irq) ops = true := by
  induction ops using List.reverseRecOn with
  | nil =>
    have hnone : (line c irq).handler = none := by simp [line, hc]
    rw [show (Simulation.run step c []).2 = c from rfl, hnone] at h
    exact absurd h Bool.false_ne_true
  | append_singleton ops op ih =>
    rw [Simulation.run_append] at h
    rw [registers_concat, Bool.or_eq_true]
    exact (handler_step hD op h).imp_left ih

end Registers

/-- A register that a registration sets for the lines it belongs to, and that enable bits leave
alone. -/
structure Observed (D : Driver δ) (f : δ → α) (affects : UInt32 → Bool) (value : α) : Prop where
  configure : ∀ d irq, D.valid irq = true →
    f (D.configure d irq) = if affects irq = true then value else f d
  enable : ∀ d irq, D.valid irq = true → f (D.enable d irq) = f d
  disable : ∀ d irq, D.valid irq = true → f (D.disable d irq) = f d

theorem observed_run (hD : D.DeviceLawful) {f : δ → α} {affects : UInt32 → Bool} {value : α}
    (hf : D.Observed f affects value) {c : D.InterruptCtrl H} (hc : ∀ slot, c.handlers slot = none)
    (ops : List (IrqOp H)) :
    f (Simulation.run step c ops).2.device =
      if D.registers affects ops = true then value else f c.device := by
  induction ops using List.reverseRecOn with
  | nil => rfl
  | append_singleton ops op ih =>
    let d := (Simulation.run step c ops).2
    rw [Simulation.run_append, registers_concat]
    show f (step d op).2.device = _
    obtain ⟨hsame, htaken⟩ | ⟨irq, handler, rfl, hv, hdevice⟩ | ⟨irq, hop, hv, hdevice⟩ :=
      step_cases d op
    · -- a refused registration is of a line that was registered before
      have hop : D.registers affects [op] = true → D.registers affects ops = true := by
        intro h
        cases op with
        | register irq handler =>
          rw [registers_singleton, Bool.and_eq_true] at h
          exact registers_of_affects h.2
            (registers_of_handler_run hD hc ops (htaken irq handler rfl h.1))
        | unregister irq => exact absurd h Bool.false_ne_true
        | mask irq => exact absurd h Bool.false_ne_true
        | unmask irq => exact absurd h Bool.false_ne_true
      rw [hsame, Bool.or_eq_left_iff_imp.mpr hop]
      exact ih
    · rw [hdevice, hf.configure _ _ hv, ih, registers_singleton, hv, Bool.true_and]
      cases affects irq <;> simp
    · have hnone : D.registers affects [op] = false := by
        cases op with
        | register i handler => exact absurd rfl (hop i handler)
        | unregister i => rfl
        | mask i => rfl
        | unmask i => rfl
      have hkept : f (step d op).2.device = f d.device := by
        obtain hdevice | hdevice := hdevice
        · rw [hdevice, hf.enable _ _ hv]
        · rw [hdevice, hf.disable _ _ hv]
      rw [hkept, hnone, Bool.or_false]
      exact ih

/-- The lines after a run are the contract's, whatever they were before. -/
theorem line_run (hD : D.DeviceLawful) (c : D.InterruptCtrl H) (ops : List (IrqOp H)) :
    line (Simulation.run step c ops).2 =
      (Simulation.run (contractStep D.valid) (line c) ops).2 := by
  have hrun := Simulation.run_simulation
    (fun s lines op (hs : line s = lines) => hs ▸ hD.stepRefines s op) ops c _ rfl
  exact hrun.2

end Driver

/-- What becomes of a line does not depend on the others. -/
theorem contractStep_line {H : Type} {valid : UInt32 → Bool} {lines lines' : UInt32 → Line H}
    {irq : UInt32} (h : lines irq = lines' irq) (op : IrqOp H) :
    (contractStep valid lines op).2 irq = (contractStep valid lines' op).2 irq := by
  by_cases hop : irq = op.irq
  · subst hop
    cases op with
    | register i handler =>
      rw [IrqOp.irq] at h
      rw [contractStep, contractStep, IrqOp.irq, h]
      split
      · exact h
      · split
        · exact h
        · simp only [Function.update_self]
    | unregister i =>
      rw [IrqOp.irq] at h
      rw [contractStep, contractStep, IrqOp.irq]
      split
      · simp only [Function.update_self]
      · exact h
    | mask i =>
      rw [IrqOp.irq] at h
      rw [contractStep, contractStep, IrqOp.irq]
      split
      · exact h
      · simp only [Function.update_self, h]
    | unmask i =>
      rw [IrqOp.irq] at h
      rw [contractStep, contractStep, IrqOp.irq]
      split
      · exact h
      · simp only [Function.update_self, h]
  · rw [contractStep_other valid lines op hop, contractStep_other valid lines' op hop, h]

theorem run_contractStep_line {H : Type} {valid : UInt32 → Bool} {lines lines' : UInt32 → Line H}
    {irq : UInt32} (h : lines irq = lines' irq) (ops : List (IrqOp H)) :
    (Simulation.run (contractStep valid) lines ops).2 irq =
      (Simulation.run (contractStep valid) lines' ops).2 irq := by
  induction ops generalizing lines lines' with
  | nil => exact h
  | cons op ops ih =>
    rw [Simulation.run_cons, Simulation.run_cons]
    exact ih (contractStep_line h op)

end SimurghHal.Interrupt
