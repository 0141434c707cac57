import SimurghHal.Devices.Completion
import SimurghHal.Devices.Registration
import Mathlib.Data.List.MinMax
import Mathlib.Data.List.Sort

/-!
# Traps of a RISC-V hart

`bootstrap_current_core` opens the PLIC context of the hart and enables its external and its
software interrupt. A trap enters through `common_trap_entry`, which takes the cause apart, and
one source is claimed, handled and completed in each trap. Software interrupts are only
cleared, and the timer's stays asserted until a new deadline is set.

A source gets through when it is pending, enabled, not in service and above the threshold. Of
the priorities the driver only ever writes 1, so that sources get through that have been
registered at some time (`gate_run`). Traps are taken one after the other until only the timer
is left (`exists_drained`), and with handlers that leave the lines alone every source is handled
once, in the order of the PLIC (`handled_after_run`).
-/

namespace SimurghHal.Interrupt.Plic

open Words

variable {H C : Type}

/-! ### The context of the hart -/

def contextBase : UInt32 := 0x200000
def contextStride : UInt32 := 0x1000
def thresholdOffset : UInt32 := 0x0000

def thresholdRegister : UInt32 := contextBase + plicContext * contextStride + thresholdOffset

def threshold (r : Registers) : UInt32 := r thresholdRegister

def priority (r : Registers) (source : UInt32) : UInt32 := r (priorityBase + source * 4)

/-- The write to the PLIC in `bootstrap_current_core`. -/
def openContext (r : Registers) : Registers := Function.update r thresholdRegister 0

/-- Enabled, and above the threshold. -/
def passes (r : Registers) (source : UInt32) : Bool :=
  enabled r source && decide (threshold r < priority r source)

/-- The sources a PLIC can have. -/
def Source (source : UInt32) : Prop := 1 ≤ source.toNat ∧ source.toNat < 1024

theorem source_of_valid {source : UInt32} (h : valid source = true) : Source source := by
  have hv := (valid_iff source).mp h
  exact ⟨hv.1, by omega⟩

section Registers

variable {r : Registers} {source i : UInt32}

theorem toNat_priorityOffset (h : Source source) :
    (priorityBase + source * 4).toNat = source.toNat * 4 := by
  rw [UInt32.toNat_add, UInt32.toNat_mul]
  simp only [priorityBase, UInt32.reduceToNat]
  unfold Source at h
  omega

theorem toNat_enableOffset_div (source : UInt32) :
    (enableOffset (source / 32)).toNat = 0x2080 + source.toNat / 32 * 4 := by
  have hlt := source.toNat_lt
  have hindex : source / 32 = UInt32.ofNat (source.toNat / 32) := by
    apply UInt32.toNat_inj.mp
    rw [UInt32.toNat_div, UInt32.toNat_ofNat_of_lt' (by change _ < 2 ^ 32; omega)]
    rfl
  rw [hindex, toNat_enableOffset (by omega)]

theorem priority_setPriority (hsource : Source source) (hi : Source i) (value : UInt32) :
    priority (setPriority r source value) i = if i = source then value else priority r i := by
  rw [priority, setPriority]
  split
  · next heq => rw [heq, Function.update_self]
  · next hne =>
    rw [Function.update_of_ne]
    · rfl
    · intro hoffset
      have hnat := congrArg UInt32.toNat hoffset
      rw [toNat_priorityOffset hsource, toNat_priorityOffset hi] at hnat
      exact hne (UInt32.toNat_inj.mp (by omega))

theorem priority_setEnabled (source : UInt32) (hi : Source i) (b : Bool) :
    priority (setEnabled r source b) i = priority r i := by
  rw [priority, setEnabled, Function.update_of_ne]
  · rfl
  · intro hoffset
    have hnat := congrArg UInt32.toNat hoffset
    rw [toNat_priorityOffset hi, toNat_enableOffset_div] at hnat
    unfold Source at hi
    omega

theorem threshold_setPriority (hsource : Source source) (value : UInt32) :
    threshold (setPriority r source value) = threshold r := by
  rw [threshold, setPriority, Function.update_of_ne]
  · rfl
  · intro hoffset
    have hnat := congrArg UInt32.toNat hoffset
    rw [toNat_priorityOffset hsource, show thresholdRegister.toNat = 0x201000 by decide] at hnat
    unfold Source at hsource
    omega

theorem threshold_setEnabled (hsource : Source source) (b : Bool) :
    threshold (setEnabled r source b) = threshold r := by
  rw [threshold, setEnabled, Function.update_of_ne]
  · rfl
  · intro hoffset
    have hnat := congrArg UInt32.toNat hoffset
    rw [toNat_enableOffset_div, show thresholdRegister.toNat = 0x201000 by decide] at hnat
    unfold Source at hsource
    omega

end Registers

/-! ### The priorities after a run -/

/-- The controller after `new` and `bootstrap_current_core`, with whatever priorities and enable
bits the firmware has left. -/
def bootstrapped (H : Type) (r : Registers) : driver.InterruptCtrl H :=
  ⟨fun _ => none, openContext r⟩

/-- The lines as the firmware left them. -/
def firmwareLines (r : Registers) : UInt32 → Line H := fun source => ⟨none, enabled r source⟩

/-- `register_irq` has been called for the source, and has accepted its number. -/
def registered (ops : List (IrqOp H)) (source : UInt32) : Bool :=
  valid source && ops.any fun
    | .register irq _ => irq == source
    | _ => false

/-- The priority a source has after these operations. -/
def level (r : Registers) (ops : List (IrqOp H)) (source : UInt32) : UInt32 :=
  if registered ops source then 1 else priority r source

/-- What the operations have made of the registers. -/
structure Gated (r : Registers) (ops : List (IrqOp H)) (c : driver.InterruptCtrl H) : Prop where
  threshold_eq : threshold c.device = 0
  priority_eq : ∀ source, Source source → priority c.device source = level r ops source
  registered_of_handler : ∀ source, (Driver.line c source).handler.isSome = true →
    registered ops source = true

section Gated

variable {r : Registers} {ops : List (IrqOp H)} {c : driver.InterruptCtrl H} {op : IrqOp H}

theorem registered_eq (ops : List (IrqOp H)) (source : UInt32) :
    registered ops source = driver.registers (· == source) ops := by
  induction ops with
  | nil => exact Bool.and_false _
  | cons op ops ih =>
    rw [registered, List.any_cons, Bool.and_or_distrib_left, ← registered, ih]
    refine congrArg (· || _) ?_
    cases op with
    | register irq handler =>
      show (valid source && irq == source) = (valid irq && irq == source)
      by_cases heq : irq = source
      · rw [heq]
      · rw [beq_eq_false_iff_ne.mpr heq, Bool.and_false, Bool.and_false]
    | unregister irq => exact Bool.and_false _
    | mask irq => exact Bool.and_false _
    | unmask irq => exact Bool.and_false _

theorem observed_threshold : driver.Observed threshold (fun _ => false) 0 where
  configure d irq hv := by
    have hirq := source_of_valid hv
    show threshold (setEnabled (setPriority d irq 1) irq true) = _
    rw [threshold_setEnabled hirq, threshold_setPriority hirq, if_neg Bool.false_ne_true]
  enable d irq hv := threshold_setEnabled (source_of_valid hv) true
  disable d irq hv := threshold_setEnabled (source_of_valid hv) false

theorem observed_priority {source : UInt32} (hsource : Source source) :
    driver.Observed (priority · source) (· == source) 1 where
  configure d irq hv := by
    show priority (setEnabled (setPriority d irq 1) irq true) source = _
    rw [priority_setEnabled _ hsource, priority_setPriority (source_of_valid hv) hsource]
    exact if_congr (eq_comm.trans beq_iff_eq.symm) rfl rfl
  enable d irq _ := priority_setEnabled irq hsource true
  disable d irq _ := priority_setEnabled irq hsource false

theorem openContext_of_ne (r : Registers) {offset : UInt32} (h : offset.toNat ≠ 0x201000) :
    openContext r offset = r offset :=
  Function.update_of_ne (fun heq => h (congrArg UInt32.toNat heq)) _ _

theorem gated_run (r : Registers) (ops : List (IrqOp H)) :
    Gated r ops (Simulation.run Driver.step (bootstrapped H r) ops).2 := by
  refine ⟨?_, fun source hsource => ?_, fun source h => ?_⟩
  · rw [Driver.observed_run deviceLawful observed_threshold fun _ => rfl]
    exact ite_self _
  · have hstart : priority (bootstrapped H r).device source = priority r source := by
      have hoffset := toNat_priorityOffset hsource
      unfold Source at hsource
      exact openContext_of_ne r (by omega)
    have hrun := Driver.observed_run deviceLawful (observed_priority hsource)
      (c := bootstrapped H r) (fun _ => rfl) ops
    rw [hrun, level, registered_eq, hstart]
  · rw [registered_eq]
    exact Driver.registers_of_handler_run deviceLawful (fun _ => rfl) ops h

theorem enabled_openContext (r : Registers) {source : UInt32} (hsource : Source source) :
    enabled (openContext r) source = enabled r source := by
  have hoffset := toNat_enableOffset (n := source.toNat / 32) (by have := source.toNat_lt; omega)
  unfold Source at hsource
  rw [enabled, enabled, arrayBit, arrayBit, enableWords, openContext_of_ne r (by omega)]
  rfl

/-- The lines after a run, also of sources the driver does not track. -/
theorem line_run (r : Registers) (ops : List (IrqOp H)) {source : UInt32}
    (hsource : Source source) :
    Driver.line (Simulation.run Driver.step (bootstrapped H r) ops).2 source =
      (Simulation.run (contractStep valid) (firmwareLines r) ops).2 source := by
  rw [Driver.line_run deviceLawful]
  refine run_contractStep_line ?_ ops
  rw [Driver.line, firmwareLines, ← enabled_openContext r hsource]
  exact congrArg (Line.mk · _) (dite_eq_right_iff.mpr fun _ => rfl)

theorem level_pos_iff (r : Registers) (ops : List (IrqOp H)) (source : UInt32) :
    0 < level r ops source ↔ registered ops source = true ∨ 0 < priority r source := by
  rw [level]
  cases registered ops source with
  | true => simp
  | false => simp

theorem passes_run (r : Registers) (ops : List (IrqOp H)) {source : UInt32}
    (hsource : Source source) :
    passes (Simulation.run Driver.step (bootstrapped H r) ops).2.device source =
      (((Simulation.run (contractStep valid) (firmwareLines r) ops).2 source).enabled &&
        decide (0 < level r ops source)) := by
  have hgated := gated_run r ops
  rw [passes, hgated.threshold_eq, hgated.priority_eq source hsource, ← line_run r ops hsource]
  rfl

/-- Of the contract's enabled lines only those get through that have been registered at some
time, or were given a priority by the firmware. -/
theorem gate_run (r : Registers) (ops : List (IrqOp H)) (source : UInt32)
    (hsource : Source source) :
    passes (Simulation.run Driver.step (bootstrapped H r) ops).2.device source = true ↔
      ((Simulation.run (contractStep valid) (firmwareLines r) ops).2 source).enabled = true ∧
        (registered ops source = true ∨ 0 < priority r source) := by
  rw [passes_run r ops hsource, Bool.and_eq_true, decide_eq_true_eq, level_pos_iff]

/-- Source 3 is unmasked but was never registered. Source 5 lost its handler, and still gets
through once it is unmasked again. -/
theorem gate_run_unmasked :
    let ops : List (IrqOp Unit) := [.unmask 3, .register 5 (), .unregister 5, .unmask 5]
    let c := (Simulation.run Driver.step (bootstrapped Unit fun _ => 0) ops).2
    passes c.device 3 = false ∧ passes c.device 5 = true := by
  intro ops c
  have hgate := gate_run (fun _ => 0) ops
  constructor
  · rw [← Bool.not_eq_true, hgate 3 ⟨by decide, by decide⟩]
    decide
  · rw [hgate 5 ⟨by decide, by decide⟩]
    decide

end Gated

/-! ### Traps -/

def sieSeieBit : UInt64 := (1 : UInt64) <<< 9
def sieSsieBit : UInt64 := (1 : UInt64) <<< 1
def sieStieBit : UInt64 := (1 : UInt64) <<< 5

attribute [ext] Machine

/-- The PLIC with its driver, the requests its gateways have passed on, and what the hart has in
`sip` and in `sie`. -/
@[ext] structure Hart (H C : Type) where
  machine : Machine H C
  pending : UInt32 → Bool
  softwarePending : Bool
  timerPending : Bool
  sie : UInt64

/-- What comes with a trap: the operations of the function that is called, and the sources that
are requested by its end. Among these is every level-triggered source that is still asserted. -/
structure During (H : Type) where
  body : List (IrqOp H)
  requested : UInt32 → Bool
  softwareRequested : Bool

/-- The function leaves the lines alone, and nothing is requested. -/
def During.quiet : During H := ⟨[], fun _ => false, false⟩

namespace Hart

variable (h : Hart H C)

abbrev device : Registers := h.machine.globals.controller.device

/-- The sources of a PLIC, by number. -/
def sources : List UInt32 := (List.range' 1 1023).map UInt32.ofNat

/-- The PLIC may signal the source to the hart. -/
def deliverable (source : UInt32) : Bool :=
  h.pending source && !h.machine.inService source && passes h.device source

/-- What `read_claim` returns: the first of the sources with the highest priority. -/
def readClaim : UInt32 :=
  ((sources.filter h.deliverable).argmax fun source => (priority h.device source).toNat).getD 0

/-- The interrupt the hart takes, in the order of the privileged architecture. -/
def cause : Option UInt32 :=
  if h.readClaim ≠ 0 ∧ h.sie &&& sieSeieBit ≠ 0 then some scauseSupervisorExternalInterrupt
  else if h.softwarePending = true ∧ h.sie &&& sieSsieBit ≠ 0 then
    some scauseSupervisorSoftwareInterrupt
  else if h.timerPending = true ∧ h.sie &&& sieStieBit ≠ 0 then some scauseSupervisorTimerInterrupt
  else none

/-- `scause` for an interrupt. -/
def scause (causeCode : UInt32) : UInt64 := ((1 : UInt64) <<< 63) ||| causeCode.toUInt64

/-- `common_trap_entry`. It does not return from an exception. -/
def commonTrapEntry (scause : UInt64) (body : List (IrqOp H)) :
    Option (List (Access H C) × Globals driver H C) :=
  let isInterrupt := decide (scause.toInt64 < 0)
  let causeCode := scause &&& ~~~((1 : UInt64) <<< 63)
  if isInterrupt then
    dispatchCurrentInterrupt h.machine.globals (causeCode.toUInt32, h.readClaim) body
  else none

/-- The effect of one access. A claim takes the request away. -/
def access (a : Access H C) : Hart H C where
  machine := h.machine.access a
  pending := match a with
    | .acknowledge id => Function.update h.pending id false
    | _ => h.pending
  softwarePending := match a with
    | .clearSoftwarePending => false
    | _ => h.softwarePending
  timerPending := h.timerPending
  sie := h.sie

/-- The requests that are passed on. A source in service is not requested again. -/
def request (during : During H) : Hart H C where
  machine := h.machine
  pending source := h.pending source || during.requested source && !h.machine.inService source
  softwarePending := h.softwarePending || during.softwareRequested
  timerPending := h.timerPending
  sie := h.sie

/-- The next trap, with what happens in it. -/
def trap (during : During H) : List (Access H C) × Hart H C :=
  match h.cause with
  | none => ([], h.request during)
  | some causeCode =>
    match h.commonTrapEntry (scause causeCode) during.body with
    | none => ([], h.request during)
    | some (trace, _) => (trace, (trace.foldl access h).request during)

/-- The `csrs` instruction in `bootstrap_current_core`. -/
def enableInterrupts : Hart H C := { h with sie := h.sie ||| (sieSeieBit ||| sieSsieBit) }

theorem seie_enableInterrupts : h.enableInterrupts.sie &&& sieSeieBit ≠ 0 := by
  intro hzero
  have hbit := congrArg (fun value : UInt64 => value.toNat.testBit 9) hzero
  have hmask : (sieSeieBit ||| sieSsieBit).toNat.testBit 9 = true := by decide
  have hseie : sieSeieBit.toNat.testBit 9 = true := by decide
  simp only [enableInterrupts, UInt64.toNat_and, UInt64.toNat_or, Nat.testBit_and,
    Nat.testBit_or] at hbit hmask
  rw [hmask, hseie, Bool.or_true] at hbit
  exact absurd hbit (by decide)

/-! ### The claim -/

theorem mem_sources {source : UInt32} : source ∈ sources ↔ Source source := by
  have hlt := source.toNat_lt
  simp only [sources, List.mem_map, List.mem_range'_1, Source]
  constructor
  · rintro ⟨n, hn, rfl⟩
    rw [UInt32.toNat_ofNat_of_lt' (by change n < 2 ^ 32; omega)]
    omega
  · intro h
    exact ⟨source.toNat, by omega, UInt32.ofNat_toNat⟩

theorem pairwise_sources : sources.Pairwise (· < ·) := by
  rw [sources, List.pairwise_map]
  refine List.Pairwise.imp_of_mem ?_ List.pairwise_lt_range'
  intro a b ha hb hab
  rw [List.mem_range'_1] at ha hb
  rw [UInt32.lt_iff_toNat_lt, UInt32.toNat_ofNat_of_lt' (by change a < 2 ^ 32; omega),
    UInt32.toNat_ofNat_of_lt' (by change b < 2 ^ 32; omega)]
  exact hab

/-- In a list sorted by number what comes first is smaller. -/
theorem lt_of_idxOf_le {l : List UInt32} (hl : l.Pairwise (· < ·)) {a b : UInt32} (ha : a ∈ l)
    (hb : b ∈ l) (hle : l.idxOf a ≤ l.idxOf b) (hne : b ≠ a) : a < b := by
  have hlt : l.idxOf a < l.idxOf b := by
    refine Nat.lt_of_le_of_ne hle fun heq => hne ?_
    exact ((List.idxOf_inj ha).mp heq).symm
  have hsorted := List.pairwise_iff_getElem.mp hl _ _ (List.idxOf_lt_length_of_mem ha)
    (List.idxOf_lt_length_of_mem hb) hlt
  rwa [List.getElem_idxOf, List.getElem_idxOf] at hsorted

/-- The PLIC signals `source` rather than `other`. -/
def Precedes (source other : UInt32) : Prop :=
  priority h.device other < priority h.device source ∨
    priority h.device other = priority h.device source ∧ source < other

theorem readClaim_eq_zero_iff :
    h.readClaim = 0 ↔ ∀ source, Source source → h.deliverable source = false := by
  rw [readClaim]
  cases hclaim : (sources.filter h.deliverable).argmax
      (fun source => (priority h.device source).toNat) with
  | none =>
    rw [List.argmax_eq_none, List.filter_eq_nil_iff] at hclaim
    simpa [mem_sources] using hclaim
  | some source =>
    obtain ⟨hmem, hdeliverable⟩ := List.mem_filter.mp (List.argmax_mem hclaim)
    have hsource := mem_sources.mp hmem
    constructor
    · rintro rfl
      exact absurd hsource.1 (by decide)
    · intro hnone
      rw [hnone source hsource] at hdeliverable
      cases hdeliverable

/-- A claimed source is deliverable, and precedes all others that are. -/
theorem of_readClaim_ne_zero (hclaim : h.readClaim ≠ 0) :
    Source h.readClaim ∧ h.deliverable h.readClaim = true ∧
      ∀ other, Source other → h.deliverable other = true → other ≠ h.readClaim →
        h.Precedes h.readClaim other := by
  obtain ⟨source, hargmax⟩ : ∃ source, (sources.filter h.deliverable).argmax
      (fun source => (priority h.device source).toNat) = some source := by
    rw [← Option.ne_none_iff_exists']
    intro hnone
    rw [readClaim, hnone] at hclaim
    exact hclaim rfl
  have hread : h.readClaim = source := by rw [readClaim, hargmax]; rfl
  rw [hread]
  obtain ⟨hmem, hmax, hfirst⟩ := List.mem_argmax_iff.mp hargmax
  obtain ⟨hmem', hdeliverable⟩ := List.mem_filter.mp hmem
  refine ⟨mem_sources.mp hmem', hdeliverable, fun other hother hd hne => ?_⟩
  have hother' := List.mem_filter.mpr ⟨mem_sources.mpr hother, hd⟩
  by_cases hlt : priority h.device other < priority h.device source
  · exact .inl hlt
  · have hle : (priority h.device source).toNat ≤ (priority h.device other).toNat :=
      UInt32.le_iff_toNat_le.mp (UInt32.not_lt.mp hlt)
    exact .inr ⟨UInt32.toNat_inj.mp (Nat.le_antisymm (hmax other hother') hle),
      lt_of_idxOf_le (pairwise_sources.filter _) hmem hother' (hfirst other hother' hle) hne⟩

/-! ### One trap -/

theorem machine_foldl_access (trace : List (Access H C)) :
    (trace.foldl access h).machine = trace.foldl Machine.access h.machine := by
  induction trace generalizing h with
  | nil => rfl
  | cons a trace ih => exact ih _

theorem pending_foldl_access (trace : List (Access H C)) (source : UInt32) :
    (trace.foldl access h).pending source = true ↔
      h.pending source = true ∧ .acknowledge source ∉ trace := by
  induction trace generalizing h with
  | nil => simp
  | cons a trace ih =>
    rw [List.foldl_cons, ih, List.mem_cons, not_or, ← and_assoc]
    refine and_congr_left fun _ => ?_
    cases a with
    | acknowledge id =>
      by_cases hid : source = id
      · simp [access, hid]
      · simp [access, hid]
    | _ => simp [access]

theorem softwarePending_foldl_access (trace : List (Access H C)) :
    (trace.foldl access h).softwarePending = true ↔
      h.softwarePending = true ∧ .clearSoftwarePending ∉ trace := by
  induction trace generalizing h with
  | nil => simp
  | cons a trace ih =>
    rw [List.foldl_cons, ih, List.mem_cons, not_or, ← and_assoc]
    refine and_congr_left fun _ => ?_
    cases a <;> simp [access]

theorem timerPending_foldl_access (trace : List (Access H C)) :
    (trace.foldl access h).timerPending = h.timerPending := by
  induction trace generalizing h with
  | nil => rfl
  | cons a trace ih => exact ih _

theorem sie_foldl_access (trace : List (Access H C)) : (trace.foldl access h).sie = h.sie := by
  induction trace generalizing h with
  | nil => rfl
  | cons a trace ih => exact ih _

theorem cause_cases :
    h.cause = none ∨ (h.cause = some scauseSupervisorExternalInterrupt ∧ h.readClaim ≠ 0) ∨
      (h.cause = some scauseSupervisorSoftwareInterrupt ∧ h.softwarePending = true) ∨
      h.cause = some scauseSupervisorTimerInterrupt := by
  rw [cause]
  split
  · next hready => exact .inr (.inl ⟨rfl, hready.1⟩)
  · split
    · next hready => exact .inr (.inr (.inl ⟨rfl, hready.1⟩))
    · split
      · exact .inr (.inr (.inr rfl))
      · exact .inl rfl

theorem cause_external_iff :
    h.cause = some scauseSupervisorExternalInterrupt ↔
      h.readClaim ≠ 0 ∧ h.sie &&& sieSeieBit ≠ 0 := by
  constructor
  · intro hcause
    by_contra hready
    rw [cause, if_neg hready] at hcause
    split at hcause
    · cases hcause
    · split at hcause <;> cases hcause
  · exact fun hready => if_pos hready

theorem cause_external_of_deliverable (hsie : h.sie &&& sieSeieBit ≠ 0) {source : UInt32}
    (hsource : Source source) (hdeliverable : h.deliverable source = true) :
    h.cause = some scauseSupervisorExternalInterrupt := by
  refine h.cause_external_iff.mpr ⟨fun hclaim => ?_, hsie⟩
  rw [h.readClaim_eq_zero_iff.mp hclaim source hsource] at hdeliverable
  cases hdeliverable

theorem deliverable_request {source : UInt32} (hdeliverable : h.deliverable source = true)
    (during : During H) : (h.request during).deliverable source = true := by
  rw [deliverable, Bool.and_eq_true, Bool.and_eq_true] at hdeliverable ⊢
  obtain ⟨⟨hpending, hfree⟩, hpasses⟩ := hdeliverable
  exact ⟨⟨Bool.or_eq_true_iff.mpr (.inl hpending), hfree⟩, hpasses⟩

/-- The three interrupts reach the dispatcher under their own codes. -/
theorem commonTrapEntry_scause {causeCode : UInt32}
    (hcode : causeCode ∈ [scauseSupervisorExternalInterrupt, scauseSupervisorSoftwareInterrupt,
      scauseSupervisorTimerInterrupt]) (body : List (IrqOp H)) :
    h.commonTrapEntry (scause causeCode) body =
      dispatchCurrentInterrupt h.machine.globals (causeCode, h.readClaim) body := by
  obtain ⟨hinterrupt, hsame⟩ : (scause causeCode).toInt64 < 0 ∧
      (scause causeCode &&& ~~~((1 : UInt64) <<< 63)).toUInt32 = causeCode := by
    simp only [List.mem_cons, List.not_mem_nil, or_false] at hcode
    obtain rfl | rfl | rfl := hcode <;> decide
  rw [commonTrapEntry, hsame, decide_eq_true hinterrupt, if_pos rfl]

/-- What happens for the source that is claimed. -/
def handled (body : List (IrqOp H)) : List (Access H C) :=
  expected h.readClaim false
    ((Driver.line h.machine.globals.controller h.readClaim).handler.map (.call · h.readClaim)) body

theorem trap_external (hset : h.machine.globals.controllerSet = true)
    (hcause : h.cause = some scauseSupervisorExternalInterrupt) (hclaim : h.readClaim ≠ 0)
    (during : During H) :
    h.trap during =
      (h.handled during.body, ((h.handled during.body).foldl access h).request during) := by
  obtain ⟨g', hg'⟩ := dispatch_trace h.machine.globals hset h.readClaim during.body
  rw [← h.commonTrapEntry_scause (by decide) during.body, decide_eq_false hclaim] at hg'
  rw [trap, hcause]
  simp only [hg']
  rfl

theorem filterMap_op?_handled : (h.handled []).filterMap Access.op? = [] := by
  rw [handled]
  cases (Driver.line h.machine.globals.controller h.readClaim).handler <;> rfl

/-- The PLIC and the driver are as before. -/
theorem machine_handled (hclaim : h.readClaim ≠ 0) :
    ((h.handled []).foldl access h).machine = h.machine := by
  obtain ⟨-, hdeliverable, -⟩ := h.of_readClaim_ne_zero hclaim
  simp only [deliverable, passes, Bool.and_eq_true, Bool.not_eq_true'] at hdeliverable
  obtain ⟨⟨-, hfree⟩, henabled, -⟩ := hdeliverable
  rw [machine_foldl_access]
  ext1
  · rw [Machine.globals_foldl_access, filterMap_op?_handled]
    rfl
  · rw [handled, Machine.inService_serviced _ hclaim, ite_self,
      show enabled (Simulation.run Driver.step _ []).2.device _ = true from henabled,
      Function.update_eq_self_iff, hfree]
    rfl

theorem trap_software (hcause : h.cause = some scauseSupervisorSoftwareInterrupt)
    (during : During H) :
    h.trap during =
      ([.clearSoftwarePending], (h.access .clearSoftwarePending).request during) := by
  rw [trap, hcause]
  simp only [h.commonTrapEntry_scause (by decide : scauseSupervisorSoftwareInterrupt ∈ _)]
  rfl

theorem trap_timer (hcause : h.cause = some scauseSupervisorTimerInterrupt)
    (during : During H) :
    h.trap during = ((h.machine.globals.onTimerInterrupt during.body).1,
      ((h.machine.globals.onTimerInterrupt during.body).1.foldl access h).request during) := by
  rw [trap, hcause]
  simp only [h.commonTrapEntry_scause (by decide : scauseSupervisorTimerInterrupt ∈ _)]
  rfl

/-- A dispatch reads no source but the one it is for. -/
theorem acknowledge_mem_expected {id source : UInt32} {handler : Option H}
    {body : List (IrqOp H)} :
    (.acknowledge source : Access H C) ∈ expected id false (handler.map (.call · id)) body ↔
      source = id := by
  cases handler <;> simp [expected]

theorem clearSoftwarePending_notMem_expected {id : UInt32} {handler : Option H}
    {body : List (IrqOp H)} :
    (.clearSoftwarePending : Access H C) ∉ expected id false (handler.map (.call · id)) body := by
  cases handler <;> simp [expected]

/-- The timer's callback answers nothing. -/
theorem notMem_onTimerInterrupt (g : Globals driver H C) (body : List (IrqOp H)) :
    (∀ source, .acknowledge source ∉ (g.onTimerInterrupt body).1) ∧
      .clearSoftwarePending ∉ (g.onTimerInterrupt body).1 := by
  rw [Globals.onTimerInterrupt]
  cases g.timerCallback <;> simp [Globals.invoke]

/-! ### Requests -/

/-- The sources and the software interrupt that wait for a trap. -/
def requests : ℕ := sources.countP h.pending + h.softwarePending.toNat

/-- The trap is for a source or for the software interrupt. -/
def answers : Option UInt32 → ℕ
  | none => 0
  | some causeCode => if causeCode = scauseSupervisorTimerInterrupt then 0 else 1

theorem countP_sources_remove {p q : UInt32 → Bool} {source : UInt32} (hsource : Source source)
    (hp : p source = true) (hq : ∀ other, q other = true ↔ p other = true ∧ other ≠ source) :
    sources.countP q + 1 = sources.countP p := by
  have hnodup : sources.Nodup := pairwise_sources.imp fun hlt => UInt32.ne_of_lt hlt
  have hperm := List.perm_cons_erase (mem_sources.mpr hsource)
  have hself : q source = false := by
    rw [← Bool.not_eq_true, hq]
    exact fun h => h.2 rfl
  rw [hperm.countP_eq, hperm.countP_eq, List.countP_cons_of_pos hp,
    List.countP_cons_of_neg (by simp [hself])]
  refine congrArg (· + 1) (List.countP_congr fun other hother => ?_)
  have hne := (hnodup.mem_erase_iff.mp hother).1
  rw [hq]
  exact ⟨fun h => h.1, fun h => ⟨h, hne⟩⟩

/-- A trace that answers nothing leaves all requests. -/
theorem requests_foldl_access {trace : List (Access H C)}
    (hsources : ∀ source, .acknowledge source ∉ trace)
    (hsoftware : .clearSoftwarePending ∉ trace) :
    (trace.foldl access h).requests = h.requests := by
  have hpending : (trace.foldl access h).pending = h.pending := by
    funext source
    rw [Bool.eq_iff_iff, pending_foldl_access]
    exact and_iff_left (hsources source)
  have hsoft : (trace.foldl access h).softwarePending = h.softwarePending := by
    rw [Bool.eq_iff_iff, softwarePending_foldl_access]
    exact and_iff_left hsoftware
  rw [requests, requests, hpending, hsoft]

/-- The requests that are new. -/
def arrivals (during : During H) : ℕ :=
  sources.countP (fun source => (h.request during).pending source && !h.pending source) +
    ((h.request during).softwarePending && !h.softwarePending).toNat

theorem countP_add {p q : UInt32 → Bool} (hpq : ∀ source, p source = true → q source = true)
    (l : List UInt32) :
    l.countP q = l.countP p + l.countP fun source => q source && !p source := by
  induction l with
  | nil => rfl
  | cons source l ih =>
    rw [List.countP_cons, List.countP_cons, List.countP_cons, ih]
    cases hp : p source with
    | true => simp [hpq source hp]; omega
    | false => simp; omega

theorem requests_request (during : During H) :
    (h.request during).requests = h.requests + h.arrivals during := by
  have hsources := countP_add (p := h.pending) (q := (h.request during).pending)
    (fun source hp => by simp [request, hp]) sources
  have hsoftware : (h.request during).softwarePending.toNat = h.softwarePending.toNat +
      ((h.request during).softwarePending && !h.softwarePending).toNat := by
    rw [request]
    cases h.softwarePending <;> simp
  rw [requests, requests, arrivals, hsources, hsoftware]
  omega

theorem request_quiet : h.request .quiet = h := by
  ext1
  · rfl
  · funext source
    exact Bool.or_false _
  · exact Bool.or_false _
  · rfl
  · rfl

theorem arrivals_quiet : h.arrivals .quiet = 0 := by
  have hbalance := h.requests_request .quiet
  rw [request_quiet] at hbalance
  omega

/-- The requests that come in during a trap. -/
def arrivalsIn (during : During H) : ℕ := ((h.trap during).1.foldl access h).arrivals during

theorem trap_snd (during : During H) :
    (h.trap during).2 = ((h.trap during).1.foldl access h).request during := by
  rw [trap]
  split
  · rfl
  · split <;> rfl

/-- Every trap but the timer's answers one request. -/
theorem requests_trap (hset : h.machine.globals.controllerSet = true) (during : During H) :
    (h.trap during).2.requests + answers h.cause = h.requests + h.arrivalsIn during := by
  rw [trap_snd, requests_request, ← arrivalsIn, Nat.add_right_comm]
  refine congrArg (· + _) ?_
  obtain hcause | ⟨hcause, hclaim⟩ | ⟨hcause, hpending⟩ | hcause := h.cause_cases
  · rw [trap, hcause]
    rfl
  · rw [h.trap_external hset hcause hclaim, hcause]
    obtain ⟨hsource, hdeliverable, -⟩ := h.of_readClaim_ne_zero hclaim
    rw [deliverable, Bool.and_eq_true, Bool.and_eq_true] at hdeliverable
    have hsoft : ((h.handled during.body).foldl access h).softwarePending =
        h.softwarePending := by
      rw [Bool.eq_iff_iff, softwarePending_foldl_access]
      exact and_iff_left clearSoftwarePending_notMem_expected
    have hcount : sources.countP ((h.handled during.body).foldl access h).pending + 1 =
        sources.countP h.pending := by
      refine countP_sources_remove hsource hdeliverable.1.1 fun other => ?_
      rw [pending_foldl_access, handled, acknowledge_mem_expected]
    show ((h.handled during.body).foldl access h).requests + 1 = h.requests
    rw [requests, requests, hsoft, ← hcount]
    omega
  · rw [h.trap_software hcause, hcause]
    show sources.countP h.pending + 0 + 1 = _
    rw [requests, hpending]
    rfl
  · obtain ⟨hsources, hsoftware⟩ := notMem_onTimerInterrupt h.machine.globals during.body
    rw [h.trap_timer hcause, hcause, requests_foldl_access h hsources hsoftware]
    rfl

theorem controllerSet_trap (during : During H) :
    (h.trap during).2.machine.globals.controllerSet = h.machine.globals.controllerSet := by
  rw [trap_snd]
  show ((h.trap during).1.foldl access h).machine.globals.controllerSet = _
  rw [machine_foldl_access, Machine.globals_foldl_access]

/-- Only the timer is left to trap. -/
def Drained : Prop := h.cause = none ∨ h.cause = some scauseSupervisorTimerInterrupt

theorem answers_of_not_drained (hdrained : ¬ h.Drained) : answers h.cause = 1 := by
  obtain hcause | ⟨hcause, -⟩ | ⟨hcause, -⟩ | hcause := h.cause_cases
  · exact absurd (.inl hcause) hdrained
  · rw [hcause]
    rfl
  · rw [hcause]
    rfl
  · exact absurd (.inr hcause) hdrained

/-- The requests that come in during a run of traps. -/
def arrived : Hart H C → List (During H) → ℕ
  | _, [] => 0
  | h, during :: rest => h.arrivalsIn during + arrived (h.trap during).2 rest

/-- As soon as there have been as many traps as requests, only the timer's is left. -/
theorem exists_drained_of_length (hset : h.machine.globals.controllerSet = true)
    (course : List (During H)) (hlength : h.requests + h.arrived course ≤ course.length) :
    ∃ k ≤ course.length, (Simulation.run trap h (course.take k)).2.Drained ∧
      (Simulation.run trap h (course.take k)).2.requests + k =
        h.requests + h.arrived (course.take k) := by
  induction course generalizing h with
  | nil =>
    refine ⟨0, Nat.zero_le _, ?_, rfl⟩
    by_contra hdrained
    have hbalance := h.requests_trap hset .quiet
    rw [h.answers_of_not_drained hdrained, arrivalsIn, arrivals_quiet] at hbalance
    rw [List.length_nil] at hlength
    omega
  | cons during rest ih =>
    by_cases hdrained : h.Drained
    · exact ⟨0, Nat.zero_le _, hdrained, rfl⟩
    · have hbalance := h.requests_trap hset during
      rw [h.answers_of_not_drained hdrained] at hbalance
      rw [arrived, List.length_cons] at hlength
      obtain ⟨k, hk, hend, hrequests⟩ := ih (h.trap during).2
        ((h.controllerSet_trap during).trans hset) (by omega)
      refine ⟨k + 1, by rw [List.length_cons]; omega, ?_⟩
      rw [List.take_succ_cons, Simulation.run_cons, arrived]
      refine ⟨hend, ?_⟩
      dsimp only
      omega

/-- Without a controller an external interrupt is taken again and again. -/
theorem cause_run_unset (hset : h.machine.globals.controllerSet = false)
    (hcause : h.cause = some scauseSupervisorExternalInterrupt) (course : List (During H)) :
    (Simulation.run trap h course).2.cause = some scauseSupervisorExternalInterrupt := by
  induction course generalizing h with
  | nil => exact hcause
  | cons during rest ih =>
    have htrap : h.trap during = ([], h.request during) := by
      rw [trap, hcause]
      simp only [h.commonTrapEntry_scause (by decide : scauseSupervisorExternalInterrupt ∈ _)]
      rw [dispatchCurrentInterrupt, if_neg (by decide), if_neg (by decide), if_pos rfl,
        if_pos hset]
      rfl
    rw [Simulation.run_cons, htrap]
    refine ih _ hset ?_
    obtain ⟨hclaim, hsie⟩ := h.cause_external_iff.mp hcause
    obtain ⟨hsource, hdeliverable, -⟩ := h.of_readClaim_ne_zero hclaim
    exact cause_external_of_deliverable _ hsie hsource (h.deliverable_request hdeliverable during)

/-- A source that stays asserted is completed and taken again. -/
theorem cause_run_asserted (hset : h.machine.globals.controllerSet = true)
    (hsie : h.sie &&& sieSeieBit ≠ 0) {source : UInt32} (hsource : Source source)
    (hdeliverable : h.deliverable source = true) (course : List (During H))
    (hcourse : ∀ during ∈ course, during.body = [] ∧ during.requested source = true) :
    (Simulation.run trap h course).2.cause = some scauseSupervisorExternalInterrupt := by
  induction course generalizing h with
  | nil => exact h.cause_external_of_deliverable hsie hsource hdeliverable
  | cons during rest ih =>
    obtain ⟨hbody, hrequested⟩ := hcourse during List.mem_cons_self
    have hcause := h.cause_external_of_deliverable hsie hsource hdeliverable
    have hclaim := (h.cause_external_iff.mp hcause).1
    have hmachine : (h.trap during).2.machine = h.machine := by
      rw [h.trap_external hset hcause hclaim, hbody]
      exact h.machine_handled hclaim
    have hkept : (h.trap during).2.sie = h.sie := by
      rw [trap_snd]
      exact h.sie_foldl_access _
    rw [Simulation.run_cons]
    refine ih _ (by rw [hmachine, hset]) (by rwa [hkept]) ?_
      fun later hlater => hcourse later (List.mem_cons_of_mem _ hlater)
    -- the completion has taken the source out of service, and its gateway passes it on again
    rw [deliverable, Bool.and_eq_true, Bool.and_eq_true] at hdeliverable ⊢
    rw [device, hmachine]
    refine ⟨⟨?_, hdeliverable.1.2⟩, hdeliverable.2⟩
    rw [trap_snd] at hmachine ⊢
    have hfree : ((h.trap during).1.foldl access h).machine.inService source = false := by
      rw [show ((h.trap during).1.foldl access h).machine = h.machine from hmachine]
      simpa using hdeliverable.1.2
    refine Bool.or_eq_true_iff.mpr (.inr ?_)
    rw [hrequested, hfree]
    rfl

/-- Whatever the handlers do to the lines and whatever is requested meanwhile, traps are taken for
one request each until only the timer's is left. A source that stays asserted is taken for ever,
and so is the first one without a controller. -/
theorem exists_drained (course : List (During H)) :
    (h.machine.globals.controllerSet = true → h.requests + h.arrived course ≤ course.length →
      ∃ k ≤ course.length, (Simulation.run trap h (course.take k)).2.Drained ∧
        (Simulation.run trap h (course.take k)).2.requests + k =
          h.requests + h.arrived (course.take k)) ∧
    (h.machine.globals.controllerSet = true → h.sie &&& sieSeieBit ≠ 0 →
      ∀ source, Source source → h.deliverable source = true →
        (∀ during ∈ course, during.body = [] ∧ during.requested source = true) →
          (Simulation.run trap h course).2.cause = some scauseSupervisorExternalInterrupt) ∧
    (h.machine.globals.controllerSet = false →
      h.cause = some scauseSupervisorExternalInterrupt →
        (Simulation.run trap h course).2.cause = some scauseSupervisorExternalInterrupt) :=
  ⟨fun hset => h.exists_drained_of_length hset course,
    fun hset hsie _ hsource hdeliverable =>
      h.cause_run_asserted hset hsie hsource hdeliverable course,
    fun hset hcause => h.cause_run_unset hset hcause course⟩

/-- Sources 3 and 5 and a software interrupt wait, the handler of 5 unmasks 3, and 5 is requested
once more. -/
theorem exists_drained_unmasking :
    let c := (Simulation.run Driver.step (bootstrapped Unit fun _ => 0)
      [.register 3 (), .mask 3, .register 5 ()]).2
    let h : Hart Unit Unit := ⟨⟨⟨true, c, none⟩, fun _ => false⟩, fun source => source ∈ [3, 5],
      true, true, sieSeieBit ||| sieSsieBit⟩
    let course : List (During Unit) :=
      [⟨[.unmask 3], fun source => source == 5, false⟩, .quiet, .quiet, .quiet]
    ∃ k ≤ 4, (Simulation.run trap h (course.take k)).2.Drained ∧
      (Simulation.run trap h (course.take k)).2.requests + k =
        h.requests + h.arrived (course.take k) := by
  intro c h course
  have hlength : h.requests + h.arrived course ≤ course.length := by decide +kernel
  exact (exists_drained h course).1 rfl hlength

/-! ### Handlers that leave the lines alone -/

/-- The trap changes nothing but the request that it answers. -/
theorem trap_quiet (hset : h.machine.globals.controllerSet = true)
    (hsie : h.sie &&& sieSeieBit ≠ 0) (hclaim : h.readClaim ≠ 0) :
    h.trap .quiet =
      (h.handled [], { h with pending := Function.update h.pending h.readClaim false }) := by
  have hcause := h.cause_external_iff.mpr ⟨hclaim, hsie⟩
  rw [h.trap_external hset hcause hclaim, request_quiet]
  refine congrArg (Prod.mk (h.handled [])) ?_
  show (h.handled []).foldl access h = _
  ext1
  · exact h.machine_handled hclaim
  · funext source
    rw [Bool.eq_iff_iff, pending_foldl_access, handled, acknowledge_mem_expected]
    by_cases hsource : source = h.readClaim
    · simp [hsource]
    · simp [hsource]
  · rw [Bool.eq_iff_iff, softwarePending_foldl_access]
    exact and_iff_left clearSoftwarePending_notMem_expected
  · exact h.timerPending_foldl_access _
  · exact h.sie_foldl_access _

/-- The hart without the request of the source it would claim. -/
def answered : Hart H C := { h with pending := Function.update h.pending h.readClaim false }

theorem deliverable_answered (source : UInt32) :
    h.answered.deliverable source = true ↔
      source ≠ h.readClaim ∧ h.deliverable source = true := by
  by_cases hsource : source = h.readClaim
  · simp [deliverable, answered, hsource]
  · simp [deliverable, answered, hsource]

/-- With the external interrupt enabled every deliverable source is handled in the order of the
PLIC, and once when nothing is requested meanwhile. -/
theorem exists_run_quiet (hset : h.machine.globals.controllerSet = true)
    (hsie : h.sie &&& sieSeieBit ≠ 0) :
    ∃ ids : List UInt32,
      (∀ source, source ∈ ids ↔ Source source ∧ h.deliverable source = true) ∧
      ids.Pairwise h.Precedes ∧
      Simulation.run trap h (List.replicate ids.length .quiet) =
        (ids.map fun id => expected id false
            ((Driver.line h.machine.globals.controller id).handler.map (.call · id)) [],
          { h with pending := fun source => h.pending source && !decide (source ∈ ids) }) := by
  -- on the number of requests, one trap answers one of them
  induction hn : h.requests using Nat.strong_induction_on generalizing h with
  | _ n ih =>
    by_cases hclaim : h.readClaim = 0
    · refine ⟨[], fun source => ?_, List.Pairwise.nil, ?_⟩
      · have hnone := h.readClaim_eq_zero_iff.mp hclaim source
        simp only [List.not_mem_nil, false_iff, not_and, Bool.not_eq_true]
        exact hnone
      · simp [Simulation.run]
    · have htrap : h.trap .quiet = (h.handled [], h.answered) := h.trap_quiet hset hsie hclaim
      have hbalance := h.requests_trap hset .quiet
      rw [htrap, h.cause_external_iff.mpr ⟨hclaim, hsie⟩, arrivalsIn, arrivals_quiet] at hbalance
      obtain ⟨ids, hmem, hpairwise, hrun⟩ := ih h.answered.requests
        (hn ▸ Nat.lt_of_succ_le hbalance.le) h.answered hset hsie rfl
      obtain ⟨hsource, hdeliverable, hfirst⟩ := h.of_readClaim_ne_zero hclaim
      refine ⟨h.readClaim :: ids, fun source => ?_, List.pairwise_cons.mpr ⟨?_, hpairwise⟩, ?_⟩
      · rw [List.mem_cons, hmem, deliverable_answered]
        by_cases heq : source = h.readClaim
        · simp [heq, hsource, hdeliverable]
        · simp [heq]
      · intro other hother
        obtain ⟨hother, hd⟩ := (hmem other).mp hother
        obtain ⟨hne, hd⟩ := (h.deliverable_answered other).mp hd
        exact hfirst other hother hd hne
      · rw [List.length_cons, List.replicate_succ, Simulation.run_cons, htrap, hrun]
        refine Prod.ext rfl ?_
        ext1
        · rfl
        · funext source
          by_cases heq : source = h.readClaim
          · simp [answered, heq]
          · simp [answered, heq]
        · rfl
        · rfl
        · rfl

end Hart

/-- After any run of operations on a PLIC that has been brought up, with handlers that leave the
lines alone, and when no source is requested again: the traps handle the sources that wait, are
enabled by the contract and have a priority, each once and with the contract's handler, the higher
priority first and the lower number first among equals. Nothing else changes. -/
theorem handled_after_run (r : Registers) (callback : Option C) (ops : List (IrqOp H))
    (inService pending : UInt32 → Bool) (softwarePending timerPending : Bool) (sie : UInt64) :
    let controller := (Simulation.run Driver.step (bootstrapped H r) ops).2
    let h := Hart.enableInterrupts ⟨⟨⟨true, controller, callback⟩, inService⟩, pending,
      softwarePending, timerPending, sie⟩
    let lines := (Simulation.run (contractStep valid) (firmwareLines r) ops).2
    ∃ ids : List UInt32,
      (∀ source, source ∈ ids ↔ Source source ∧ pending source = true ∧
        inService source = false ∧ (lines source).enabled = true ∧
          (registered ops source = true ∨ 0 < priority r source)) ∧
      ids.Pairwise (fun source other => level r ops other < level r ops source ∨
        level r ops other = level r ops source ∧ source < other) ∧
      Simulation.run Hart.trap h (List.replicate ids.length .quiet) =
        (ids.map fun id => expected id false ((lines id).handler.map (.call · id)) [],
          { h with pending := fun source => pending source && !decide (source ∈ ids) }) := by
  intro controller h lines
  have hsie : h.sie &&& sieSeieBit ≠ 0 := Hart.seie_enableInterrupts _
  obtain ⟨ids, hmem, hpairwise, hrun⟩ := h.exists_run_quiet rfl hsie
  refine ⟨ids, fun source => ?_, ?_, ?_⟩
  · rw [hmem]
    refine and_congr_right fun hsource => ?_
    rw [← level_pos_iff, ← decide_eq_true_iff (p := 0 < level r ops source), ← Bool.and_eq_true,
      ← passes_run r ops hsource]
    simp [Hart.deliverable, h, Hart.enableInterrupts, controller, and_assoc]
  · refine hpairwise.imp_of_mem fun {source other} hs ho hprecedes => ?_
    rw [← (gated_run r ops).priority_eq source ((hmem source).mp hs).1,
      ← (gated_run r ops).priority_eq other ((hmem other).mp ho).1]
    exact hprecedes
  · rw [hrun]
    refine Prod.ext (List.map_congr_left fun id hid => ?_) rfl
    have hline : Driver.line controller id = lines id := line_run r ops ((hmem id).mp hid).1
    rw [show h.machine.globals.controller = controller from rfl, hline]

end SimurghHal.Interrupt.Plic
