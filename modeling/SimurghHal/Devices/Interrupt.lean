import SimurghHal.Core.Error
import SimurghHal.Lib.Simulation
import SimurghHal.Lib.Words
import Mathlib.Logic.Function.Basic

/-!
# Interrupt controllers of ARM64 and RISC-V

The contract of `hal-core/src/interrupt.rs` as a machine over interrupt lines, each
with a handler and an enabled flag, and the GICv3 and PLIC drivers over the
registers of their devices. Both drivers refine the contract: same results, same
handlers, same enable bits, for every sequence of operations.
-/

namespace SimurghHal.Interrupt

open Words

/-- A call of one of the four operations on interrupt lines. -/
inductive IrqOp (H : Type) where
  | register (irq : UInt32) (handler : H)
  | unregister (irq : UInt32)
  | mask (irq : UInt32)
  | unmask (irq : UInt32)
  deriving DecidableEq, Repr

/-- The line an operation is about. -/
def IrqOp.irq {H : Type} : IrqOp H → UInt32
  | .register irq _ => irq
  | .unregister irq => irq
  | .mask irq => irq
  | .unmask irq => irq

/-- State of one interrupt line. -/
structure Line (H : Type) where
  handler : Option H
  enabled : Bool
  deriving DecidableEq, Repr

/-- The contract of `InterruptController` for the lines with `valid` numbers. -/
def contractStep {H : Type} (valid : UInt32 → Bool) (lines : UInt32 → Line H) :
    IrqOp H → Except HalError Unit × (UInt32 → Line H)
  | .register irq handler =>
    if !valid irq then (.error .invalidIrqId, lines)
    else if (lines irq).handler.isSome then (.error .irqAlreadyRegistered, lines)
    else (.ok (), Function.update lines irq ⟨some handler, true⟩)
  | .unregister irq =>
    if valid irq then (.ok (), Function.update lines irq ⟨none, false⟩) else (.ok (), lines)
  | .mask irq =>
    if !valid irq then (.error .invalidIrqId, lines)
    else (.ok (), Function.update lines irq { lines irq with enabled := false })
  | .unmask irq =>
    if !valid irq then (.error .invalidIrqId, lines)
    else (.ok (), Function.update lines irq { lines irq with enabled := true })

/-- No handlers, all lines disabled. -/
def idleLines {H : Type} : UInt32 → Line H := fun _ => ⟨none, false⟩

/-- A driver with state `σ` meets the contract from `init` on: it answers every
sequence of calls like the contract, its lines agree with the contract's, and no
call changes a line it is not about. -/
def RefinesContract {H σ : Type} (valid : UInt32 → Bool)
    (step : σ → IrqOp H → Except HalError Unit × σ) (line : σ → UInt32 → Line H) (init : σ) :
    Prop :=
  ∀ ops : List (IrqOp H),
    (Simulation.run step init ops).1 = (Simulation.run (contractStep valid) idleLines ops).1 ∧
    (∀ irq, valid irq → line (Simulation.run step init ops).2 irq =
      (Simulation.run (contractStep valid) idleLines ops).2 irq) ∧
    ∀ op irq, irq ≠ op.irq →
      line (step (Simulation.run step init ops).2 op).2 irq =
        line (Simulation.run step init ops).2 irq

/-- One call agrees with the contract on the lines the driver exposes. -/
def StepRefines {H σ : Type} (valid : UInt32 → Bool)
    (step : σ → IrqOp H → Except HalError Unit × σ) (line : σ → UInt32 → Line H) : Prop :=
  ∀ s op, (step s op).1 = (contractStep valid (line s) op).1 ∧
    line (step s op).2 = (contractStep valid (line s) op).2

/-- The contract itself changes only the line it is about. -/
theorem contractStep_other {H : Type} (valid : UInt32 → Bool) (lines : UInt32 → Line H)
    (op : IrqOp H) {irq : UInt32} (h : irq ≠ op.irq) :
    (contractStep valid lines op).2 irq = lines irq := by
  cases op with
  | register i handler =>
    simp only [contractStep]
    split
    · rfl
    · split
      · rfl
      · exact Function.update_of_ne h _ _
  | unregister i =>
    simp only [contractStep]
    split
    · exact Function.update_of_ne h _ _
    · rfl
  | mask i =>
    simp only [contractStep]
    split
    · rfl
    · exact Function.update_of_ne h _ _
  | unmask i =>
    simp only [contractStep]
    split
    · rfl
    · exact Function.update_of_ne h _ _

/-- Nothing ever happens to a line without a valid number. -/
theorem contractStep_invalid {H : Type} {valid : UInt32 → Bool} (lines : UInt32 → Line H)
    (op : IrqOp H) {irq : UInt32} (h : valid irq = false) :
    (contractStep valid lines op).2 irq = lines irq := by
  by_cases hop : irq = op.irq
  · subst hop
    cases op <;> simp only [IrqOp.irq] at h <;> simp [contractStep, h]
  · exact contractStep_other valid lines op hop

theorem run_contractStep_invalid {H : Type} {valid : UInt32 → Bool} {irq : UInt32}
    (h : valid irq = false) (ops : List (IrqOp H)) (lines : UInt32 → Line H) :
    (Simulation.run (contractStep valid) lines ops).2 irq = lines irq := by
  induction ops generalizing lines with
  | nil => rfl
  | cons op ops ih =>
    rw [Simulation.run_cons]
    exact (ih _).trans (contractStep_invalid lines op h)

/-- The contract looks at valid lines only. -/
theorem contractStep_congr {H : Type} {valid : UInt32 → Bool} {lines lines' : UInt32 → Line H}
    (h : ∀ irq, valid irq = true → lines irq = lines' irq) (op : IrqOp H) :
    (contractStep valid lines op).1 = (contractStep valid lines' op).1 ∧
      ∀ irq, valid irq = true →
        (contractStep valid lines op).2 irq = (contractStep valid lines' op).2 irq := by
  have hupdate : ∀ (i : UInt32) (l : Line H) (irq : UInt32), valid irq = true →
      Function.update lines i l irq = Function.update lines' i l irq := by
    intro i l irq hirq
    by_cases he : irq = i
    · subst he
      simp
    · rw [Function.update_of_ne he, Function.update_of_ne he, h irq hirq]
  cases op with
  | register i handler =>
    by_cases hv : valid i = true
    · rw [contractStep, contractStep, h i hv]
      simp only [hv, Bool.not_true, Bool.false_eq_true, if_false]
      split
      · exact ⟨rfl, h⟩
      · exact ⟨rfl, hupdate i _⟩
    · simpa [contractStep, hv] using h
  | unregister i =>
    by_cases hv : valid i = true
    · simpa [contractStep, hv] using hupdate i _
    · simpa [contractStep, hv] using h
  | mask i =>
    by_cases hv : valid i = true
    · rw [contractStep, contractStep, h i hv]
      simpa [hv] using hupdate i _
    · simpa [contractStep, hv] using h
  | unmask i =>
    by_cases hv : valid i = true
    · rw [contractStep, contractStep, h i hv]
      simpa [hv] using hupdate i _
    · simpa [contractStep, hv] using h

/-- A driver whose steps agree with the contract refines it over whole runs. -/
theorem StepRefines.refinesContract {H σ : Type} {valid : UInt32 → Bool}
    {step : σ → IrqOp H → Except HalError Unit × σ} {line : σ → UInt32 → Line H} {init : σ}
    (hstep : StepRefines valid step line)
    (hinit : ∀ irq, valid irq = true → line init irq = idleLines irq) :
    RefinesContract valid step line init := by
  intro ops
  have hsim : ∀ s lines op, (∀ irq, valid irq = true → line s irq = lines irq) →
      (step s op).1 = (contractStep valid lines op).1 ∧
        ∀ irq, valid irq = true →
          line (step s op).2 irq = (contractStep valid lines op).2 irq := by
    intro s lines op hlines
    rw [(hstep s op).1, (hstep s op).2]
    exact contractStep_congr hlines op
  -- driver and contract agree on the valid lines all along the run
  have hrun := Simulation.run_simulation hsim ops init idleLines hinit
  refine ⟨hrun.1, hrun.2, ?_⟩
  intro op irq hirq
  rw [(hstep _ op).2, contractStep_other valid _ op hirq]

/-! ### The drivers

Both drivers keep a handler table beside the device and do the same checks in the
same order. They differ in the lines they accept and in the registers they write. -/

/-- What distinguishes a driver: its lines and its accesses to the device `δ`. -/
structure Driver (δ : Type) where
  /-- The line with slot 0. -/
  firstUsable : UInt32
  /-- Length of the handler table. -/
  tableSize : ℕ
  valid : UInt32 → Bool
  /-- Priority, routing and enable of a newly registered line. -/
  configure : δ → UInt32 → δ
  enable : δ → UInt32 → δ
  disable : δ → UInt32 → δ
  /-- The enable bit of a line in the device's registers. -/
  enabled : δ → UInt32 → Bool
  slot_lt : ∀ {irq}, valid irq = true →
    firstUsable.toNat ≤ irq.toNat ∧ (irq - firstUsable).toNat < tableSize

namespace Driver

variable {δ H : Type} (D : Driver δ)

/-- `InterruptCtrl`: the handler table and the device. -/
structure InterruptCtrl (D : Driver δ) (H : Type) where
  handlers : Fin D.tableSize → Option H
  device : δ

/-- Index of a valid line in the handler table. -/
def slot {irq : UInt32} (h : D.valid irq = true) : Fin D.tableSize :=
  ⟨(irq - D.firstUsable).toNat, (D.slot_lt h).2⟩

variable {D}

/-- `register_irq`. -/
def registerIrq (c : InterruptCtrl D H) (irq : UInt32) (handler : H) :
    Except HalError Unit × InterruptCtrl D H :=
  if h : D.valid irq = true then
    if (c.handlers (D.slot h)).isSome then (.error .irqAlreadyRegistered, c)
    else (.ok (), {
      handlers := Function.update c.handlers (D.slot h) (some handler)
      device := D.configure c.device irq })
  else (.error .invalidIrqId, c)

/-- `unregister_irq`. -/
def unregisterIrq (c : InterruptCtrl D H) (irq : UInt32) : InterruptCtrl D H :=
  if h : D.valid irq = true then {
    handlers := Function.update c.handlers (D.slot h) none
    device := D.disable c.device irq }
  else c

/-- `mask_irq`. -/
def maskIrq (c : InterruptCtrl D H) (irq : UInt32) : Except HalError Unit × InterruptCtrl D H :=
  if D.valid irq = true then (.ok (), { c with device := D.disable c.device irq })
  else (.error .invalidIrqId, c)

/-- `unmask_irq`. -/
def unmaskIrq (c : InterruptCtrl D H) (irq : UInt32) : Except HalError Unit × InterruptCtrl D H :=
  if D.valid irq = true then (.ok (), { c with device := D.enable c.device irq })
  else (.error .invalidIrqId, c)

/-- The four operations as one machine. -/
def step (c : InterruptCtrl D H) : IrqOp H → Except HalError Unit × InterruptCtrl D H
  | .register irq handler => registerIrq c irq handler
  | .unregister irq => (.ok (), unregisterIrq c irq)
  | .mask irq => maskIrq c irq
  | .unmask irq => unmaskIrq c irq

/-- The handler and the hardware enable bit of a line. Lines without a slot have no
handler. -/
def line (c : InterruptCtrl D H) (irq : UInt32) : Line H :=
  ⟨if h : D.valid irq = true then c.handlers (D.slot h) else none, D.enabled c.device irq⟩

/-- Register accesses for a valid line change the enable bit of that line only. -/
structure DeviceLawful (D : Driver δ) : Prop where
  enabled_configure : ∀ d irq i, D.valid irq = true →
    D.enabled (D.configure d irq) i = if i = irq then true else D.enabled d i
  enabled_enable : ∀ d irq i, D.valid irq = true →
    D.enabled (D.enable d irq) i = if i = irq then true else D.enabled d i
  enabled_disable : ∀ d irq i, D.valid irq = true →
    D.enabled (D.disable d irq) i = if i = irq then false else D.enabled d i

/-- Different valid lines have different slots. -/
theorem slot_injective {i j : UInt32} (hi : D.valid i = true) (hj : D.valid j = true)
    (h : D.slot hi = D.slot hj) : i = j := by
  have hval := congrArg Fin.val h
  simp only [slot] at hval
  obtain ⟨hi', -⟩ := D.slot_lt hi
  obtain ⟨hj', -⟩ := D.slot_lt hj
  rw [UInt32.toNat_sub_of_le _ _ (UInt32.le_iff_toNat_le.mpr hi'),
    UInt32.toNat_sub_of_le _ _ (UInt32.le_iff_toNat_le.mpr hj')] at hval
  apply UInt32.toNat_inj.mp
  omega

/-- Overwriting the slot and the enable bit of one line. -/
theorem line_update {c : InterruptCtrl D H} {irq : UInt32} (hv : D.valid irq = true)
    {handler : Option H} {d : δ} {b : Bool}
    (hd : ∀ i, D.enabled d i = if i = irq then b else D.enabled c.device i) :
    line (⟨Function.update c.handlers (D.slot hv) handler, d⟩ : InterruptCtrl D H) =
      Function.update (line c) irq ⟨handler, b⟩ := by
  funext i
  by_cases hi : i = irq
  · subst hi
    simp [line, hv, hd]
  · rw [Function.update_of_ne hi]
    simp only [line, hd, if_neg hi, Line.mk.injEq, and_true]
    by_cases hvi : D.valid i = true
    · have hne : D.slot hvi ≠ D.slot hv := fun h => hi (slot_injective hvi hv h)
      simp [hvi, Function.update_of_ne hne]
    · simp [hvi]

/-- Changing the enable bit of one line. -/
theorem line_device {c : InterruptCtrl D H} {irq : UInt32} {d : δ} {b : Bool}
    (hd : ∀ i, D.enabled d i = if i = irq then b else D.enabled c.device i) :
    line { c with device := d } = Function.update (line c) irq { line c irq with enabled := b } := by
  funext i
  by_cases hi : i = irq
  · subst hi
    simp [line, hd]
  · rw [Function.update_of_ne hi]
    simp [line, hd, hi]

/-- A driver whose register accesses are lawful takes steps of the contract. -/
theorem DeviceLawful.stepRefines (hD : DeviceLawful D) :
    StepRefines D.valid (step (D := D) (H := H)) line := by
  intro c op
  cases op with
  | register irq handler =>
    by_cases hv : D.valid irq = true
    · have hhandler : (line c irq).handler = c.handlers (D.slot hv) := by simp [line, hv]
      by_cases hfree : (c.handlers (D.slot hv)).isSome = true
      · simp [step, registerIrq, contractStep, hv, hhandler, hfree]
      · simp only [step, registerIrq, contractStep, hv, dif_pos, hhandler, hfree, if_neg,
          Bool.not_true, Bool.false_eq_true, not_false_eq_true]
        exact ⟨trivial, line_update hv fun i => hD.enabled_configure _ _ i hv⟩
    · simp [step, registerIrq, contractStep, hv]
  | unregister irq =>
    by_cases hv : D.valid irq = true
    · simp only [step, unregisterIrq, contractStep, hv, dif_pos, if_pos]
      exact ⟨trivial, line_update hv fun i => hD.enabled_disable _ _ i hv⟩
    · simp [step, unregisterIrq, contractStep, hv]
  | mask irq =>
    by_cases hv : D.valid irq = true
    · simp only [step, maskIrq, contractStep, hv, if_pos, Bool.not_true, Bool.false_eq_true,
        if_neg, not_false_eq_true]
      exact ⟨trivial, line_device fun i => hD.enabled_disable _ _ i hv⟩
    · simp [step, maskIrq, contractStep, hv]
  | unmask irq =>
    by_cases hv : D.valid irq = true
    · simp only [step, unmaskIrq, contractStep, hv, if_pos, Bool.not_true, Bool.false_eq_true,
        if_neg, not_false_eq_true]
      exact ⟨trivial, line_device fun i => hD.enabled_enable _ _ i hv⟩
    · simp [step, unmaskIrq, contractStep, hv]

end Driver

/-! ### GICv3 -/

namespace Gic

/-- The distributor: the enable bit of interrupt `32 * n + b` is bit `b` of word `n`;
all other registers are plain memory. -/
structure Gicd where
  enable : ℕ → UInt32
  regs : ℕ → UInt32

/-- A 32-bit write. `ISENABLER` sets the bits written as 1, `ICENABLER` clears them. -/
def Gicd.write32 (d : Gicd) (offset value : UInt32) : Gicd :=
  let o := offset.toNat
  if 0x100 ≤ o ∧ o < 0x180 then
    let n := (o - 0x100) / 4
    { d with enable := Function.update d.enable n (d.enable n ||| value) }
  else if 0x180 ≤ o ∧ o < 0x200 then
    let n := (o - 0x180) / 4
    { d with enable := Function.update d.enable n (d.enable n &&& ~~~value) }
  else { d with regs := Function.update d.regs o value }

/-- A 64-bit write, as the two 32-bit writes it covers. -/
def Gicd.write64 (d : Gicd) (offset : UInt32) (value : UInt64) : Gicd :=
  (d.write32 offset value.toUInt32).write32 (offset + 4) (value >>> 32).toUInt32

def isenabler : UInt32 := 0x0100
def icenabler : UInt32 := 0x0180
def ipriorityr : UInt32 := 0x0400
def irouter : UInt32 := 0x6100
def firstUsableIntid : UInt32 := 32
def maxTrackedIntids : ℕ := 480

def valid (intid : UInt32) : Bool :=
  firstUsableIntid ≤ intid && intid < firstUsableIntid + UInt32.ofNat maxTrackedIntids

/-- `configure_spi`. -/
def configureSpi (d : Gicd) (intid : UInt32) : Gicd :=
  let regIndex := intid / 32
  let bit := intid % 32
  -- the whole word is written, so the three neighbours get the same priority
  let d := d.write32 ((ipriorityr + intid) &&& ~~~0x3) 0x80808080
  let d := d.write64 (irouter + (intid - 32) * 8) 0
  d.write32 (isenabler + regIndex * 4) (1 <<< bit)

/-- The write to `ISENABLER` in `unmask_irq`. -/
def enableSpi (d : Gicd) (intid : UInt32) : Gicd :=
  d.write32 (isenabler + intid / 32 * 4) (1 <<< (intid % 32))

/-- The write to `ICENABLER` in `mask_irq` and `unregister_irq`. -/
def disableSpi (d : Gicd) (intid : UInt32) : Gicd :=
  d.write32 (icenabler + intid / 32 * 4) (1 <<< (intid % 32))

def enabled (d : Gicd) (intid : UInt32) : Bool :=
  arrayBit d.enable intid.toNat

theorem valid_iff (intid : UInt32) : valid intid = true ↔ 32 ≤ intid.toNat ∧ intid.toNat < 512 := by
  simp only [valid, Bool.and_eq_true, decide_eq_true_eq, UInt32.le_iff_toNat_le,
    UInt32.lt_iff_toNat_lt]
  rfl

theorem toNat_sub_first {intid : UInt32} (h : valid intid = true) :
    (intid - firstUsableIntid).toNat = intid.toNat - 32 :=
  UInt32.toNat_sub_of_le _ _ (UInt32.le_iff_toNat_le.mpr ((valid_iff intid).mp h).1)

/-- The GICv3 driver of `hal-arm64/src/interrupt.rs`. -/
def driver : Driver Gicd where
  firstUsable := firstUsableIntid
  tableSize := maxTrackedIntids
  valid := valid
  configure := configureSpi
  enable := enableSpi
  disable := disableSpi
  enabled := enabled
  slot_lt := by
    intro irq h
    have hv := (valid_iff irq).mp h
    refine ⟨hv.1, ?_⟩
    rw [toNat_sub_first h]
    show irq.toNat - 32 < 480
    omega

/-- Writes outside the two banks of enable registers leave the enable bits alone. -/
theorem enable_write32 {d : Gicd} {offset value : UInt32}
    (h : ¬ (0x100 ≤ offset.toNat ∧ offset.toNat < 0x200)) :
    (d.write32 offset value).enable = d.enable := by
  simp only [Gicd.write32]
  rw [if_neg (by omega), if_neg (by omega)]

section Line

variable {d : Gicd} {intid : UInt32} (hv : valid intid = true)

include hv

/-- Offset of the word with the enable bit of a valid line. -/
theorem toNat_enable_offset {bank : UInt32} (hbank : bank.toNat ≤ 0x180) :
    (bank + intid / 32 * 4).toNat = bank.toNat + intid.toNat / 32 * 4 := by
  have h := (valid_iff intid).mp hv
  rw [UInt32.toNat_add, UInt32.toNat_mul, UInt32.toNat_div]
  simp only [UInt32.reduceToNat]
  omega

theorem enabled_enableSpi (i : UInt32) :
    enabled (enableSpi d intid) i = if i = intid then true else enabled d i := by
  have h := (valid_iff intid).mp hv
  have hoff : (isenabler + intid / 32 * 4).toNat = 0x100 + intid.toNat / 32 * 4 :=
    toNat_enable_offset hv (by decide)
  have hword : (0x100 + intid.toNat / 32 * 4 - 0x100) / 4 = intid.toNat / 32 := by omega
  simp only [enabled, enableSpi, Gicd.write32, hoff, hword]
  rw [if_pos (by omega), arrayBit_set (UInt32.toNat_mod _ _)]
  simp only [UInt32.toNat_inj]

theorem enabled_disableSpi (i : UInt32) :
    enabled (disableSpi d intid) i = if i = intid then false else enabled d i := by
  have h := (valid_iff intid).mp hv
  have hoff : (icenabler + intid / 32 * 4).toNat = 0x180 + intid.toNat / 32 * 4 :=
    toNat_enable_offset hv (by decide)
  have hword : (0x180 + intid.toNat / 32 * 4 - 0x180) / 4 = intid.toNat / 32 := by omega
  simp only [enabled, disableSpi, Gicd.write32, hoff, hword]
  rw [if_neg (by omega), if_pos (by omega), arrayBit_clear (UInt32.toNat_mod _ _)]
  simp only [UInt32.toNat_inj]

/-- The priority word of a valid line lies between the enable banks and the routing
registers. -/
theorem toNat_priority_offset :
    ((ipriorityr + intid) &&& ~~~0x3).toNat = (0x400 + intid.toNat) / 4 * 4 := by
  have h := (valid_iff intid).mp hv
  have hsum : (ipriorityr + intid).toNat = 0x400 + intid.toNat := by
    rw [UInt32.toNat_add]
    simp only [ipriorityr, UInt32.reduceToNat]
    omega
  rw [UInt32.toNat_and, hsum, show (~~~(0x3 : UInt32)).toNat = 2 ^ 32 - 2 ^ 2 by decide,
    and_run _ (by omega)]
  exact Nat.mod_eq_of_lt (by omega)

/-- Priority and routing leave the enable bits alone, so that registering a line
enables it and nothing else. -/
theorem enabled_configureSpi (i : UInt32) :
    enabled (configureSpi d intid) i = if i = intid then true else enabled d i := by
  have h := (valid_iff intid).mp hv
  have hprio := toNat_priority_offset hv
  have hroute : (irouter + (intid - 32) * 8).toNat = 0x6100 + (intid.toNat - 32) * 8 := by
    have hsub : (intid - 32).toNat = intid.toNat - 32 := toNat_sub_first hv
    rw [UInt32.toNat_add, UInt32.toNat_mul, hsub]
    simp only [irouter, UInt32.reduceToNat]
    omega
  have hroute' : (irouter + (intid - 32) * 8 + 4).toNat = 0x6104 + (intid.toNat - 32) * 8 := by
    rw [UInt32.toNat_add, hroute]
    simp only [UInt32.reduceToNat]
    omega
  -- none of the three writes before the last one falls into the enable banks
  have hkeep : ∀ d : Gicd, ((d.write32 ((ipriorityr + intid) &&& ~~~0x3) 0x80808080).write64
      (irouter + (intid - 32) * 8) 0).enable = d.enable := by
    intro d
    rw [Gicd.write64, enable_write32 (by omega), enable_write32 (by omega),
      enable_write32 (by omega)]
  show enabled (enableSpi _ intid) i = _
  rw [enabled_enableSpi hv, enabled, hkeep]
  rfl

end Line

theorem deviceLawful : driver.DeviceLawful where
  enabled_configure _ _ i hv := enabled_configureSpi hv i
  enabled_enable _ _ i hv := enabled_enableSpi hv i
  enabled_disable _ _ i hv := enabled_disableSpi hv i

/-- The controller after `InterruptCtrl::new`, all enables clear and the other
registers of the distributor arbitrary. -/
def initial (H : Type) (regs : ℕ → UInt32) : driver.InterruptCtrl H :=
  ⟨fun _ => none, ⟨fun _ => 0, regs⟩⟩

theorem line_initial (H : Type) (regs : ℕ → UInt32) (intid : UInt32) :
    Driver.line (initial H regs) intid = idleLines intid := by
  have henabled : enabled (initial H regs).device intid = false := by
    simp [enabled, initial, arrayBit, bit32]
  simp only [Driver.line, idleLines, Line.mk.injEq]
  exact ⟨by simp [initial], henabled⟩

end Gic

/-! ### PLIC -/

namespace Plic

/-- The registers of the PLIC: plain 32-bit words by offset. -/
abbrev Registers := UInt32 → UInt32

def priorityBase : UInt32 := 0x0000
def enableBase : UInt32 := 0x2000
def enableContextStride : UInt32 := 0x80
def plicContext : UInt32 := 1
def firstUsableSource : UInt32 := 1
def maxTrackedSources : ℕ := 512

def valid (source : UInt32) : Bool :=
  firstUsableSource ≤ source && source.toNat < maxTrackedSources

/-- Offset of the enable word with the given index. -/
def enableOffset (wordIndex : UInt32) : UInt32 :=
  enableBase + plicContext * enableContextStride + wordIndex * 4

/-- `set_priority`. -/
def setPriority (r : Registers) (source priority : UInt32) : Registers :=
  Function.update r (priorityBase + source * 4) priority

/-- `set_enabled`. -/
def setEnabled (r : Registers) (source : UInt32) (enabled : Bool) : Registers :=
  let offset := enableOffset (source / 32)
  let bit := source % 32
  let current := r offset
  let updated := if enabled then current ||| (1 <<< bit) else current &&& ~~~(1 <<< bit)
  Function.update r offset updated

/-- The register accesses of `register_irq`. -/
def configure (r : Registers) (source : UInt32) : Registers :=
  setEnabled (setPriority r source 1) source true

/-- The enable words as an array. -/
def enableWords (r : Registers) (n : ℕ) : UInt32 := r (enableOffset (UInt32.ofNat n))

def enabled (r : Registers) (source : UInt32) : Bool :=
  arrayBit (enableWords r) source.toNat

theorem valid_iff (source : UInt32) :
    valid source = true ↔ 1 ≤ source.toNat ∧ source.toNat < 512 := by
  simp only [valid, Bool.and_eq_true, decide_eq_true_eq, UInt32.le_iff_toNat_le]
  rfl

/-- The PLIC driver of `hal-riscv64/src/interrupt.rs`. The last slot of its table is
not used. -/
def driver : Driver Registers where
  firstUsable := firstUsableSource
  tableSize := maxTrackedSources
  valid := valid
  configure := configure
  enable r source := setEnabled r source true
  disable r source := setEnabled r source false
  enabled := enabled
  slot_lt := by
    intro source h
    have hv := (valid_iff source).mp h
    have hle : firstUsableSource ≤ source := UInt32.le_iff_toNat_le.mpr hv.1
    refine ⟨hv.1, ?_⟩
    rw [UInt32.toNat_sub_of_le _ _ hle]
    show source.toNat - 1 < 512
    omega

/-- Enable words below 2^27 have different offsets, all beyond the priorities. -/
theorem toNat_enableOffset {n : ℕ} (hn : n < 2 ^ 27) :
    (enableOffset (UInt32.ofNat n)).toNat = 0x2080 + n * 4 := by
  rw [enableOffset, UInt32.toNat_add, UInt32.toNat_mul, UInt32.toNat_ofNat_of_lt' (by
    change n < 2 ^ 32
    omega)]
  simp only [enableBase, plicContext, enableContextStride, UInt32.reduceMul, UInt32.reduceAdd,
    UInt32.reduceToNat]
  omega

/-- A write to the enable word of index `k` updates the array at `k`. -/
theorem enableWords_update {r : Registers} {k : ℕ} (hk : k < 2 ^ 27) (value : UInt32) {n : ℕ}
    (hn : n < 2 ^ 27) :
    enableWords (Function.update r (enableOffset (UInt32.ofNat k)) value) n =
      Function.update (enableWords r) k value n := by
  by_cases hnk : n = k
  · subst hnk
    simp [enableWords]
  · rw [Function.update_of_ne hnk, enableWords, Function.update_of_ne]
    · rfl
    · intro he
      have := congrArg UInt32.toNat he
      rw [toNat_enableOffset hn, toNat_enableOffset hk] at this
      omega

/-- The read-modify-write of one enable word changes one enable bit. -/
theorem enabled_setEnabled (r : Registers) (source : UInt32) (b : Bool) (i : UInt32) :
    enabled (setEnabled r source b) i = if i = source then b else enabled r i := by
  have hsource := source.toNat_lt
  have hi := i.toNat_lt
  have hindex : source / 32 = UInt32.ofNat (source.toNat / 32) := by
    apply UInt32.toNat_inj.mp
    rw [UInt32.toNat_div, UInt32.toNat_ofNat_of_lt' (by change _ < 2 ^ 32; omega)]
    rfl
  have hword : ∀ value, enabled (Function.update r (enableOffset (source / 32)) value) i =
      arrayBit (Function.update (enableWords r) (source.toNat / 32) value) i.toNat := by
    intro value
    rw [hindex, enabled, arrayBit, enableWords_update (by omega) value (by omega)]
    rfl
  have hcurrent : r (enableOffset (source / 32)) = enableWords r (source.toNat / 32) := by
    rw [hindex]
    rfl
  simp only [setEnabled]
  rw [hword, hcurrent]
  cases b with
  | true =>
    rw [if_pos rfl, arrayBit_set (UInt32.toNat_mod _ _)]
    simp only [UInt32.toNat_inj, enabled]
  | false =>
    rw [if_neg (by decide), arrayBit_clear (UInt32.toNat_mod _ _)]
    simp only [UInt32.toNat_inj, enabled]

/-- Priorities of valid sources lie below the enable words. -/
theorem enabled_setPriority {r : Registers} {source : UInt32} (hv : valid source = true)
    (priority i : UInt32) : enabled (setPriority r source priority) i = enabled r i := by
  have h := (valid_iff source).mp hv
  have hi := i.toNat_lt
  have hoff : (priorityBase + source * 4).toNat = source.toNat * 4 := by
    rw [UInt32.toNat_add, UInt32.toNat_mul]
    simp only [priorityBase, UInt32.reduceToNat]
    omega
  rw [enabled, enabled, arrayBit, arrayBit, enableWords, setPriority, Function.update_of_ne]
  · rfl
  · intro he
    have := congrArg UInt32.toNat he
    rw [toNat_enableOffset (by omega), hoff] at this
    omega

theorem deviceLawful : driver.DeviceLawful where
  enabled_configure r source i hv := by
    show enabled (setEnabled (setPriority r source 1) source true) i = _
    rw [enabled_setEnabled, enabled_setPriority hv]
    rfl
  enabled_enable r source i _ := enabled_setEnabled r source true i
  enabled_disable r source i _ := enabled_setEnabled r source false i

/-- The controller after `InterruptCtrl::new`, the enable words of its context clear
and the other registers of the PLIC arbitrary. -/
def initial (H : Type) (r : Registers) : driver.InterruptCtrl H where
  handlers _ := none
  device offset := if 0x2080 ≤ offset.toNat ∧ offset.toNat < 0x2100 then 0 else r offset

theorem line_initial (H : Type) (r : Registers) {source : UInt32} (hv : valid source = true) :
    Driver.line (initial H r) source = idleLines source := by
  have hsource := (valid_iff source).mp hv
  have hword : enableWords (initial H r).device (source.toNat / 32) = 0 := by
    have hoff := toNat_enableOffset (n := source.toNat / 32) (by omega)
    show (if _ then 0 else _) = (0 : UInt32)
    rw [if_pos (by omega)]
  have henabled : enabled (initial H r).device source = false := by
    rw [enabled, arrayBit, hword]
    simp [bit32]
  simp only [Driver.line, idleLines, Line.mk.injEq]
  exact ⟨by simp [initial], henabled⟩

end Plic

/-- Both drivers refine the interrupt controller contract, on the lines 32..=511 of
the GIC and 1..=511 of the PLIC. -/
theorem drivers_refine_contract (H : Type) (gicRegs : ℕ → UInt32) (plicRegs : Plic.Registers) :
    RefinesContract (fun irq => decide (32 ≤ irq.toNat ∧ irq.toNat ≤ 511))
      (Driver.step (H := H)) Driver.line (Gic.initial H gicRegs) ∧
    RefinesContract (fun irq => decide (1 ≤ irq.toNat ∧ irq.toNat ≤ 511))
      (Driver.step (H := H)) Driver.line (Plic.initial H plicRegs) := by
  have hgic : (fun irq : UInt32 => decide (32 ≤ irq.toNat ∧ irq.toNat ≤ 511)) =
      Gic.driver.valid := by
    funext irq
    rw [Bool.eq_iff_iff, decide_eq_true_iff]
    exact (Iff.intro (fun h => ⟨h.1, by omega⟩) (fun h => ⟨h.1, by omega⟩)).trans
      (Gic.valid_iff irq).symm
  have hplic : (fun irq : UInt32 => decide (1 ≤ irq.toNat ∧ irq.toNat ≤ 511)) =
      Plic.driver.valid := by
    funext irq
    rw [Bool.eq_iff_iff, decide_eq_true_iff]
    exact (Iff.intro (fun h => ⟨h.1, by omega⟩) (fun h => ⟨h.1, by omega⟩)).trans
      (Plic.valid_iff irq).symm
  rw [hgic, hplic]
  exact ⟨Gic.deviceLawful.stepRefines.refinesContract fun irq _ => Gic.line_initial H gicRegs irq,
    Plic.deviceLawful.stepRefines.refinesContract fun _ hv => Plic.line_initial H plicRegs hv⟩

end SimurghHal.Interrupt
