import SimurghHal.Devices.Registration

/-!
# What reaches an ARM64 core

An interrupt passes the distributor, or the redistributor of the core for the numbers below 32,
and then the interface of the core. `bootstrap_current_core` opens the interface, and
`register_irq` gives a line its priority and its route. Neither enables the distributor, wakes
the redistributor or moves a line to group 1, where the driver looks for interrupts, and neither
ends an interrupt that is active, so these stay as the firmware left them. With affinity routing,
which the system registers of the interface need, the distributor has no registers for the
numbers below 32, and the writes for the timer are lost.

The GIC has a single security state, and implements 4 to 8 bits of a priority.
-/

namespace SimurghHal.Interrupt.Gic

open Words

variable {H : Type}

/-! ### The hardware -/

namespace Gicd

variable (d : Gicd)

/-- `ARE` and the enable bit of group 1, in `GICD_CTLR`. -/
def affinityRouting : Bool := bit32 (d.regs 0) 4
def groupEnabled : Bool := bit32 (d.regs 0) 1

/-- The interrupt is in group 1, as `GICD_IGROUPR` says. -/
def inGroup (intid : UInt32) : Bool :=
  bit32 (d.regs (0x80 + intid.toNat / 32 * 4)) (intid.toNat % 32)

/-- The interrupt is being handled somewhere, as `GICD_ISACTIVER` says. -/
def active (intid : UInt32) : Bool :=
  bit32 (d.regs (0x300 + intid.toNat / 32 * 4)) (intid.toNat % 32)

/-- `GICD_IPRIORITYR`, a byte for each interrupt. -/
def priorityWord (intid : UInt32) : UInt32 := d.regs (0x400 + intid.toNat / 4 * 4)

/-- The halves of `GICD_IROUTER`. -/
def route (intid : UInt32) : UInt32 × UInt32 :=
  (d.regs (0x6000 + intid.toNat * 8), d.regs (0x6004 + intid.toNat * 8))

end Gicd

/-- A core's redistributor: `GICR_WAKER`, the registers for the interrupts below 32, and whether
`GICR_CTLR` keeps away interrupts that may go to any core. -/
structure Redistributor where
  waker : UInt32
  enable : UInt32
  group : UInt32
  active : UInt32
  priorityWord : UInt32 → UInt32
  declines : Bool

/-- `ProcessorSleep` is clear. -/
def Redistributor.awake (r : Redistributor) : Bool := !bit32 r.waker 1

/-- `ICC_SRE_EL1`, `ICC_PMR_EL1` and `ICC_IGRPEN1_EL1`, the binary point of group 1 as a number of
bits, and `ICC_RPR_EL1`, which is 0xFF when the core is handling nothing. -/
structure CpuInterface where
  sre : UInt64
  pmr : UInt64
  igrpen1 : UInt64
  binaryPoint : ℕ
  running : ℕ

/-- How many bits of a priority there are, from the highest on. -/
structure PriorityBits where
  distributor : ℕ
  interface : ℕ
  distributor_bounds : 4 ≤ distributor ∧ distributor ≤ 8
  interface_bounds : 4 ≤ interface ∧ interface ≤ 8

/-- The highest bits of a byte. -/
def upper (bits byte : ℕ) : ℕ := byte / 2 ^ (8 - bits) * 2 ^ (8 - bits)

/-- The GIC as one core sees it. The affinity has the fields of a route. -/
structure Core where
  gicd : Gicd
  redistributor : Redistributor
  interface : CpuInterface
  affinity : UInt32 × UInt32
  priorityBits : PriorityBits

/-- The byte of an interrupt in its word. -/
def priorityOf (word intid : UInt32) : ℕ := field word.toNat (intid.toNat % 4 * 8) 8

/-- The route names this affinity, or any core and the core does not decline. -/
def reaches (route affinity : UInt32 × UInt32) (declines : Bool) : Bool :=
  if bit32 route.1 31 = true then !declines
  else route.1 &&& 0xFFFFFF == affinity.1 && route.2 &&& 0xFF == affinity.2

namespace Core

variable (g : Core)

/-- The registers of the distributor for interrupts below 32. -/
def IsPrivate (offset : UInt32) : Prop :=
  let o := offset.toNat
  (0x80 ≤ o ∧ o < 0x84) ∨ (0x100 ≤ o ∧ o < 0x104) ∨ (0x180 ≤ o ∧ o < 0x184) ∨
    (0x400 ≤ o ∧ o < 0x420)

instance (offset : UInt32) : Decidable (IsPrivate offset) :=
  inferInstanceAs (Decidable (_ ∨ _))

/-- A write to the distributor. With affinity routing it has no private registers. -/
def write32 (offset value : UInt32) : Core :=
  if g.gicd.affinityRouting = true ∧ IsPrivate offset then g
  else { g with gicd := g.gicd.write32 offset value }

/-- A priority is above that of what the core is handling. -/
def preempts (priority : ℕ) : Bool :=
  let value := upper g.priorityBits.distributor priority
  decide (value / 2 ^ g.interface.binaryPoint * 2 ^ g.interface.binaryPoint < g.interface.running)

/-- It is also above the mask. -/
def signals (priority : ℕ) : Bool :=
  decide (upper g.priorityBits.distributor priority <
    upper g.priorityBits.interface (g.interface.pmr.toNat % 256)) && g.preempts priority

/-- With affinity routing, the interrupt is signalled to the core when it is pending, if it is the
first of those pending. -/
def passes (intid : UInt32) : Bool :=
  g.gicd.groupEnabled && g.redistributor.awake && bit g.interface.sre 0 &&
    bit g.interface.igrpen1 0 &&
    if intid < 32 then
      bit32 g.redistributor.enable intid.toNat && bit32 g.redistributor.group intid.toNat &&
        !bit32 g.redistributor.active intid.toNat &&
        g.signals (priorityOf (g.redistributor.priorityWord intid) intid)
    else
      enabled g.gicd intid && g.gicd.inGroup intid && !g.gicd.active intid &&
        g.signals (priorityOf (g.gicd.priorityWord intid) intid) &&
        reaches (g.gicd.route intid) g.affinity g.redistributor.declines

end Core

/-! ### The driver -/

/-- `enable_cpu_interface`. -/
def enableCpuInterface (interface : CpuInterface) : CpuInterface :=
  { interface with sre := interface.sre ||| 1, pmr := 0xFF, igrpen1 := 1 }

/-- `bootstrap_current_core`. -/
def bootstrapCurrentCore (g : Core) : Core :=
  let g := { g with interface := enableCpuInterface g.interface }
  let g := g.write32 ((ipriorityr + timerPpiIntid) &&& ~~~0x3) 0x80808080
  g.write32 isenabler (1 <<< timerPpiIntid)

/-- The driver after `new` and `bootstrap_current_core`. -/
def bootstrapped (H : Type) (g : Core) : driver.InterruptCtrl H :=
  ⟨fun _ => none, (bootstrapCurrentCore g).gicd⟩

/-- The GIC after operations on lines. -/
def Core.afterRun (g : Core) (ops : List (IrqOp H)) : Core :=
  { bootstrapCurrentCore g with
    gicd := (Simulation.run Driver.step (bootstrapped H g) ops).2.device }

/-! ### What the operations write -/

section Writes

variable {d : Gicd} {intid : UInt32}

theorem regs_write32_enable {offset value : UInt32}
    (h : 0x100 ≤ offset.toNat ∧ offset.toNat < 0x200) :
    (d.write32 offset value).regs = d.regs := by
  rw [Gicd.write32]
  dsimp only
  split
  · rfl
  · rw [if_pos (by omega)]

theorem regs_write32 {offset value : UInt32}
    (h : ¬ (0x100 ≤ offset.toNat ∧ offset.toNat < 0x200)) :
    (d.write32 offset value).regs = Function.update d.regs offset.toNat value := by
  simp only [Gicd.write32]
  rw [if_neg (by omega), if_neg (by omega)]

theorem regs_enableSpi (hv : valid intid = true) : (enableSpi d intid).regs = d.regs := by
  have h := (valid_iff intid).mp hv
  have hoffset : (isenabler + intid / 32 * 4).toNat = 0x100 + intid.toNat / 32 * 4 :=
    toNat_enable_offset hv (by decide)
  exact regs_write32_enable (by omega)

theorem regs_disableSpi (hv : valid intid = true) : (disableSpi d intid).regs = d.regs := by
  have h := (valid_iff intid).mp hv
  have hoffset : (icenabler + intid / 32 * 4).toNat = 0x180 + intid.toNat / 32 * 4 :=
    toNat_enable_offset hv (by decide)
  exact regs_write32_enable (by omega)

/-- A registration writes one word of priorities and one route. -/
theorem regs_configureSpi (hv : valid intid = true) (o : ℕ) :
    (configureSpi d intid).regs o =
      if o = 0x6000 + intid.toNat * 8 ∨ o = 0x6004 + intid.toNat * 8 then 0
      else if o = 0x400 + intid.toNat / 4 * 4 then 0x80808080 else d.regs o := by
  have h := (valid_iff intid).mp hv
  have hprio := toNat_priority_offset hv
  have hroute : (irouter + (intid - 32) * 8).toNat = 0x6000 + intid.toNat * 8 := by
    have hsub : (intid - 32).toNat = intid.toNat - 32 := toNat_sub_first hv
    rw [UInt32.toNat_add, UInt32.toNat_mul, hsub]
    simp only [irouter, UInt32.reduceToNat]
    omega
  have hroute' : (irouter + (intid - 32) * 8 + 4).toNat = 0x6004 + intid.toNat * 8 := by
    rw [UInt32.toNat_add, hroute]
    simp only [UInt32.reduceToNat]
    omega
  show (enableSpi _ intid).regs o = _
  rw [regs_enableSpi hv, Gicd.write64, regs_write32 (by omega), regs_write32 (by omega),
    regs_write32 (by omega), hroute, hroute', hprio]
  simp only [Function.update_apply]
  split
  · next ho => rw [if_pos (.inr ho)]; rfl
  · next ho =>
    split
    · next ho' => rw [if_pos (.inl ho')]; rfl
    · next ho' =>
      rw [if_neg (not_or.mpr ⟨ho', ho⟩)]
      exact if_congr (by omega) rfl rfl

/-- What a registration makes of one register, as its offset says. -/
theorem observed_regs {o : ℕ} {affects : UInt32 → Bool} {value : UInt32}
    (h : ∀ irq, valid irq = true → ∀ word,
      (if o = 0x6000 + irq.toNat * 8 ∨ o = 0x6004 + irq.toNat * 8 then 0
        else if o = 0x400 + irq.toNat / 4 * 4 then 0x80808080 else word) =
      if affects irq = true then value else word) :
    driver.Observed (fun d => d.regs o) affects value where
  configure _ irq hv := (regs_configureSpi hv o).trans (h irq hv _)
  enable _ _ hv := congrFun (regs_enableSpi hv) o
  disable _ _ hv := congrFun (regs_disableSpi hv) o

/-- The control and the group registers are not written. -/
theorem observed_low {o : ℕ} (ho : o < 0x400) :
    driver.Observed (fun d => d.regs o) (fun _ => false) 0 :=
  observed_regs fun irq _ word => by
    rw [if_neg (by omega), if_neg (by omega), if_neg Bool.false_ne_true]

theorem observed_priorityWord (intid : UInt32) (hspi : intid.toNat < 1020) :
    driver.Observed (fun d => d.priorityWord intid)
      (fun irq => irq.toNat / 4 == intid.toNat / 4) 0x80808080 :=
  observed_regs fun irq _ word => by
    rw [if_neg (by omega)]
    exact if_congr ((by omega : _ ↔ irq.toNat / 4 = intid.toNat / 4).trans beq_iff_eq.symm) rfl rfl

theorem observed_route (intid : UInt32) (half : ℕ) (hhalf : half = 0x6000 ∨ half = 0x6004) :
    driver.Observed (fun d => d.regs (half + intid.toNat * 8)) (· == intid) 0 :=
  observed_regs fun irq hv word => by
    have h := (valid_iff irq).mp hv
    by_cases heq : irq = intid
    · subst heq
      rw [if_pos (by omega), if_pos (beq_self_eq_true irq)]
    · have hne : irq.toNat ≠ intid.toNat := fun h => heq (UInt32.toNat_inj.mp h)
      rw [if_neg (by omega), if_neg (by omega), if_neg (by simp [heq])]

end Writes

/-! ### What passes -/

section Passes

variable {g : Core}

/-- With affinity routing a write to a private register is lost. -/
theorem write32_private (haffinity : g.gicd.affinityRouting = true) {offset : UInt32}
    (h : Core.IsPrivate offset) (value : UInt32) : g.write32 offset value = g :=
  if_pos ⟨haffinity, h⟩

/-- Both writes for the timer are to private registers. -/
theorem bootstrapCurrentCore_eq (haffinity : g.gicd.affinityRouting = true) :
    bootstrapCurrentCore g = { g with interface := enableCpuInterface g.interface } := by
  let g' : Core := { g with interface := enableCpuInterface g.interface }
  have haffinity' : g'.gicd.affinityRouting = true := haffinity
  have hpriority := write32_private haffinity'
    (show Core.IsPrivate ((ipriorityr + timerPpiIntid) &&& ~~~0x3) by decide) 0x80808080
  rw [bootstrapCurrentCore, hpriority]
  exact write32_private haffinity' (by decide) _

/-- The lines as the firmware left them. -/
def firmwareLines (g : Core) : UInt32 → Line H := fun intid => ⟨none, enabled g.gicd intid⟩

theorem enabled_afterRun (haffinity : g.gicd.affinityRouting = true) (ops : List (IrqOp H))
    (intid : UInt32) :
    enabled (g.afterRun ops).gicd intid =
      ((Simulation.run (contractStep valid) (firmwareLines g) ops).2 intid).enabled := by
  have hstart : Driver.line (bootstrapped H g) = firmwareLines g := by
    funext intid
    rw [Driver.line, bootstrapped, bootstrapCurrentCore_eq haffinity, firmwareLines]
    exact congrArg (Line.mk · _) (dite_eq_right_iff.mpr fun _ => rfl)
  have hrun := Driver.line_run deviceLawful (bootstrapped H g) ops
  rw [hstart] at hrun
  exact congrArg Line.enabled (congrFun hrun intid)

theorem regs_bootstrapped (haffinity : g.gicd.affinityRouting = true) :
    (bootstrapped H g).device = g.gicd := by
  rw [bootstrapped, bootstrapCurrentCore_eq haffinity]

theorem regs_afterRun_low (haffinity : g.gicd.affinityRouting = true) (ops : List (IrqOp H))
    {o : ℕ} (ho : o < 0x400) : (g.afterRun ops).gicd.regs o = g.gicd.regs o := by
  refine (Driver.observed_run deviceLawful (observed_low ho) (fun _ => rfl) ops).trans ?_
  rw [Driver.registers_none, if_neg Bool.false_ne_true, regs_bootstrapped haffinity]

theorem priorityWord_afterRun (haffinity : g.gicd.affinityRouting = true) (ops : List (IrqOp H))
    {intid : UInt32} (hspi : intid.toNat < 1020) :
    (g.afterRun ops).gicd.priorityWord intid =
      if driver.registers (·.toNat / 4 == intid.toNat / 4) ops = true then 0x80808080
      else g.gicd.priorityWord intid := by
  have hrun := Driver.observed_run deviceLawful (observed_priorityWord intid hspi)
    (c := bootstrapped H g) (fun _ => rfl) ops
  rw [regs_bootstrapped haffinity] at hrun
  exact hrun

theorem route_afterRun (haffinity : g.gicd.affinityRouting = true) (ops : List (IrqOp H))
    (intid : UInt32) :
    (g.afterRun ops).gicd.route intid =
      if driver.registers (· == intid) ops = true then (0, 0) else g.gicd.route intid := by
  have hrun : ∀ half, half = 0x6000 ∨ half = 0x6004 →
      (g.afterRun ops).gicd.regs (half + intid.toNat * 8) =
        if driver.registers (· == intid) ops = true then 0
        else g.gicd.regs (half + intid.toNat * 8) := by
    intro half hhalf
    have hrun := Driver.observed_run deviceLawful (observed_route intid half hhalf)
      (c := bootstrapped H g) (fun _ => rfl) ops
    rw [regs_bootstrapped haffinity] at hrun
    exact hrun
  rw [Gicd.route, hrun _ (.inl rfl), hrun _ (.inr rfl), Gicd.route]
  split <;> rfl

/-- Nothing but the interface and the distributor changes, and of the interface the three
registers that the driver writes. -/
theorem core_afterRun (haffinity : g.gicd.affinityRouting = true) (ops : List (IrqOp H)) :
    (g.afterRun ops).redistributor = g.redistributor ∧ (g.afterRun ops).affinity = g.affinity ∧
      (g.afterRun ops).priorityBits = g.priorityBits ∧
      (g.afterRun ops).interface = enableCpuInterface g.interface := by
  rw [Core.afterRun, bootstrapCurrentCore_eq haffinity]
  exact ⟨rfl, rfl, rfl, rfl⟩

theorem enableCpuInterface_opens (interface : CpuInterface) :
    bit (enableCpuInterface interface).sre 0 = true ∧
      bit (enableCpuInterface interface).igrpen1 0 = true := by
  refine ⟨?_, show bit 1 0 = true by decide⟩
  rw [enableCpuInterface, bit_or, show bit 1 0 = true by decide, Bool.or_true]

/-- The mask the driver sets, as far as its bits are implemented. -/
def Core.mask (g : Core) : ℕ := upper g.priorityBits.interface 0xFF

theorem preempts_afterRun (haffinity : g.gicd.affinityRouting = true) (ops : List (IrqOp H))
    (priority : ℕ) : (g.afterRun ops).preempts priority = g.preempts priority := by
  obtain ⟨-, -, hbits, hinterface⟩ := core_afterRun haffinity ops
  rw [Core.preempts, hbits, hinterface]
  rfl

theorem signals_afterRun_iff (haffinity : g.gicd.affinityRouting = true) (ops : List (IrqOp H))
    (priority : ℕ) :
    (g.afterRun ops).signals priority = true ↔
      upper g.priorityBits.distributor priority < g.mask ∧ g.preempts priority = true := by
  obtain ⟨-, -, hbits, hinterface⟩ := core_afterRun haffinity ops
  rw [Core.signals, preempts_afterRun haffinity, hbits, hinterface, Bool.and_eq_true,
    decide_eq_true_iff]
  rfl

/-- The priority of a new line, also of the other three in its word. -/
theorem priorityOf_new (intid : UInt32) : priorityOf 0x80808080 intid = 0x80 := by
  have hbytes : ∀ k < 4, field (0x80808080 : UInt32).toNat (k * 8) 8 = 0x80 := by decide
  exact hbytes _ (Nat.mod_lt _ (by decide))

/-- It is above the mask, however many bits are implemented. -/
theorem upper_new_lt_mask (g : Core) : upper g.priorityBits.distributor 0x80 < g.mask := by
  obtain ⟨hd, hd'⟩ := g.priorityBits.distributor_bounds
  obtain ⟨hi, hi'⟩ := g.priorityBits.interface_bounds
  have hnew : ∀ bits ≤ 8, upper bits 0x80 ≤ 0x80 := by decide
  have hmask : ∀ bits ≤ 8, 4 ≤ bits → 0xF0 ≤ upper bits 0xFF := by decide
  exact (hnew _ hd').trans_lt (Nat.lt_of_lt_of_le (by decide) (hmask _ hi' hi))

/-- A new line goes to affinity 0. -/
theorem reaches_zero (affinity : UInt32 × UInt32) (declines : Bool) :
    reaches (0, 0) affinity declines = true ↔ affinity = (0, 0) := by
  have hany : bit32 0 31 = false := by decide
  rw [reaches, hany, if_neg Bool.false_ne_true, UInt32.zero_and, UInt32.zero_and,
    Bool.and_eq_true, beq_iff_eq, beq_iff_eq, Prod.ext_iff]
  exact and_congr eq_comm eq_comm

/-- After any operations, what passes is decided by the contract's enable flag, by the
registrations for priority and route, and otherwise by what the firmware left. -/
theorem passes_afterRun (g : Core) (haffinity : g.gicd.affinityRouting = true)
    (ops : List (IrqOp H)) (intid : UInt32) (hintid : intid.toNat < 1020) :
    (g.afterRun ops).passes intid = true ↔
      g.gicd.groupEnabled = true ∧ g.redistributor.awake = true ∧
      if intid < 32 then
        bit32 g.redistributor.enable intid.toNat = true ∧
          bit32 g.redistributor.group intid.toNat = true ∧
          bit32 g.redistributor.active intid.toNat = false ∧
          let priority := priorityOf (g.redistributor.priorityWord intid) intid
          upper g.priorityBits.distributor priority < g.mask ∧ g.preempts priority = true
      else
        ((Simulation.run (contractStep valid) (firmwareLines g) ops).2 intid).enabled = true ∧
          g.gicd.inGroup intid = true ∧ g.gicd.active intid = false ∧
          (if driver.registers (·.toNat / 4 == intid.toNat / 4) ops = true then
            g.preempts 0x80 = true
          else
            let priority := priorityOf (g.gicd.priorityWord intid) intid
            upper g.priorityBits.distributor priority < g.mask ∧ g.preempts priority = true) ∧
          if driver.registers (· == intid) ops = true then g.affinity = (0, 0)
          else reaches (g.gicd.route intid) g.affinity g.redistributor.declines = true := by
  have hgroup : (g.afterRun ops).gicd.groupEnabled = g.gicd.groupEnabled := by
    rw [Gicd.groupEnabled, regs_afterRun_low haffinity ops (by decide), Gicd.groupEnabled]
  have hin : (g.afterRun ops).gicd.inGroup intid = g.gicd.inGroup intid := by
    rw [Gicd.inGroup, regs_afterRun_low haffinity ops (by omega), Gicd.inGroup]
  have hactive : (g.afterRun ops).gicd.active intid = g.gicd.active intid := by
    rw [Gicd.active, regs_afterRun_low haffinity ops (by omega), Gicd.active]
  have hsignals := signals_afterRun_iff haffinity ops
  obtain ⟨hprivate, hcore, -, hinterface⟩ := core_afterRun haffinity ops
  obtain ⟨hsre, higrpen1⟩ := enableCpuInterface_opens g.interface
  rw [Core.passes, hgroup, hprivate, hin, hactive, hcore, hinterface, hsre, higrpen1,
    Bool.and_true, Bool.and_true, Bool.and_eq_true, Bool.and_eq_true, and_assoc,
    enabled_afterRun haffinity, priorityWord_afterRun haffinity ops hintid,
    route_afterRun haffinity]
  refine and_congr_right fun _ => and_congr_right fun _ => ?_
  split
  · rw [Bool.and_eq_true, Bool.and_eq_true, Bool.and_eq_true, Bool.not_eq_true', hsignals,
      and_assoc, and_assoc]
  · rw [Bool.and_eq_true, Bool.and_eq_true, Bool.and_eq_true, Bool.and_eq_true,
      Bool.not_eq_true', hsignals, and_assoc, and_assoc, and_assoc]
    refine and_congr_right fun _ => and_congr_right fun _ => and_congr_right fun _ =>
      and_congr ?_ ?_
    · split
      · rw [priorityOf_new]
        exact and_iff_right (upper_new_lt_mask g)
      · exact Iff.rfl
    · split
      · exact reaches_zero _ _
      · exact Iff.rfl

/-- The distributor is on and all interrupts are in group 1, but of the lowest priority. Line 33
is unmasked and has its priority from line 34. Line 65 is registered, but active. The timer is
disabled in the redistributor. -/
theorem passes_afterRun_neighbour :
    let regs : ℕ → UInt32 := fun o =>
      if o = 0 then 0x52 else if o = 0x304 then 0 else if o < 0x6000 then 0xFFFFFFFF else 0
    let g : Core := ⟨⟨fun _ => 0, regs⟩, ⟨0, 0xFFFF, 0xFFFFFFFF, 0, fun _ => 0, false⟩,
      ⟨0, 0, 0, 3, 0xFF⟩, (0, 0), ⟨5, 5, by decide, by decide⟩⟩
    let ops : List (IrqOp Unit) := [.register 34 (), .unmask 33, .unmask 36, .register 65 ()]
    (g.afterRun ops).passes 33 = true ∧ (g.afterRun ops).passes 36 = false ∧
      (g.afterRun ops).passes 65 = false ∧ (g.afterRun ops).passes 30 = false := by
  intro regs g ops
  have haffinity : g.gicd.affinityRouting = true := by decide
  have hgate := passes_afterRun g haffinity ops
  refine ⟨(hgate 33 (by decide)).mpr (by decide), ?_, ?_, ?_⟩
  · rw [← Bool.not_eq_true, hgate 36 (by decide)]
    decide
  · rw [← Bool.not_eq_true, hgate 65 (by decide)]
    decide
  · rw [← Bool.not_eq_true, hgate 30 (by decide)]
    decide

end Passes

end SimurghHal.Interrupt.Gic
