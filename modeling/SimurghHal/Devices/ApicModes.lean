import SimurghHal.Lib.Simulation
import SimurghHal.Devices.LocalApic
import SimurghHal.Devices.Ipi

/-!
# The two modes of the local APIC (`hal-x86_64/src/interrupt.rs`)

The driver reaches the local APIC through a window in memory or through MSRs, as CPUID says. The
APIC listens to one of the two only, as its base register says, and a write to an MSR in the wrong
mode faults. `bootstrap_current_core` brings the two in line. After it no access faults, and the
driver works the same APIC in both modes. The driver asks for the deadline mode of the timer
without asking CPUID, and that is a reserved bit where the mode is missing.
-/

namespace SimurghHal.Interrupt.Apic

/-! ### The device -/

/-- The mode that `IA32_APIC_BASE` selects. -/
inductive Mode where
  | disabled
  | xapic
  | x2apic
  | invalid
  deriving DecidableEq, Repr

def modeOf (apicBase : UInt64) : Mode :=
  match Words.bit apicBase 11, Words.bit apicBase 10 with
  | false, false => .disabled
  | true, false => .xapic
  | true, true => .x2apic
  | false, true => .invalid

/-- The state machine of the modes. The mode of MSRs is entered from the other one, and left by
turning the APIC off. -/
def Mode.canBecome : Mode → Mode → Bool
  | .disabled, .disabled | .disabled, .xapic => true
  | .xapic, .disabled | .xapic, .xapic | .xapic, .x2apic => true
  | .x2apic, .disabled | .x2apic, .x2apic => true
  | _, _ => false

/-- What the driver uses of a local APIC. -/
structure Lapic where
  apicBase : UInt64
  spuriousInterruptVector : UInt32
  lvtTimer : UInt32
  icrHigh : UInt32
  inService : UInt8 → Bool
  /-- The commands that have been carried out. -/
  sent : List Command

/-- CPUID leaf 1: the mode of MSRs, and the deadline mode of the timer. -/
def hasX2apic (leaf1Ecx : UInt32) : Bool := Words.bit32 leaf1Ecx 21
def hasTscDeadline (leaf1Ecx : UInt32) : Bool := Words.bit32 leaf1Ecx 24

/-- Bits of `IA32_APIC_BASE` that must stay clear, and of three registers. -/
def reservedBase : UInt64 := 0xFFF00000000002FF
def reservedSpurious : UInt32 := 0xFFFFEC00
def reservedTimer (leaf1Ecx : UInt32) : UInt32 :=
  if hasTscDeadline leaf1Ecx then 0xFFF8FF00 else 0xFFFCFF00
def reservedIcr : UInt64 := 0xFFF33000

/-- The mask bit of the timer. -/
def timerMask : UInt32 := (1 : UInt32) <<< 16

namespace Lapic

variable (d : Lapic)

def mode : Mode := modeOf d.apicBase

/-- The physical address of the window. -/
def window : UInt64 := d.apicBase &&& 0x000FFFFFFFFFF000

/-- Turning the APIC on resets its registers. -/
def setBase (value : UInt64) : Lapic :=
  if d.mode = .disabled ∧ modeOf value ≠ .disabled then
    { apicBase := value
      spuriousInterruptVector := 0xFF
      lvtTimer := timerMask
      icrHigh := 0
      inService := fun _ => false
      sent := d.sent }
  else { d with apicBase := value }

/-- While the APIC is disabled by software all local interrupts are masked. -/
def setTimer (value : UInt32) : Lapic :=
  { d with lvtTimer :=
      if Words.bit32 d.spuriousInterruptVector 8 then value else value ||| timerMask }

def setSpurious (value : UInt32) : Lapic :=
  { d with
    spuriousInterruptVector := value
    lvtTimer := if Words.bit32 value 8 then d.lvtTimer else d.lvtTimer ||| timerMask }

def setEoi : Lapic := { d with inService := eoi d.inService }

def send (write : Write) : Lapic :=
  { d with
    icrHigh := match write with
      | .icrHigh value => value
      | _ => d.icrHigh
    sent := d.sent ++ issued d.icrHigh [write] }

/-- `wrmsr`, undefined where it faults. -/
def wrmsr (leaf1Ecx : UInt32) (msr : UInt32) (value : UInt64) : Option Lapic :=
  if msr = 0x1B then
    if value &&& reservedBase = 0 ∧ d.mode.canBecome (modeOf value) = true ∧
      (modeOf value = .x2apic → hasX2apic leaf1Ecx = true) then some (d.setBase value)
    else none
  else if d.mode ≠ .x2apic then none
  else if msr = 0x80B then if value = 0 then some d.setEoi else none
  else if msr = 0x80F then
    if value &&& reservedSpurious.toUInt64 = 0 ∧ value.toNat < 2 ^ 32 then
      some (d.setSpurious value.toUInt32)
    else none
  else if msr = 0x832 then
    if value &&& (reservedTimer leaf1Ecx).toUInt64 = 0 ∧ value.toNat < 2 ^ 32 then
      some (d.setTimer value.toUInt32)
    else none
  else if msr = 0x830 then
    if value &&& reservedIcr = 0 then some (d.send (.icr value)) else none
  else none

/-- A write to memory. The APIC answers in its window, in the mode of that, and does not look at
reserved bits. -/
def store (leaf1Ecx : UInt32) (address : UInt64) (value : UInt32) : Lapic :=
  if d.mode ≠ .xapic then d
  else if address = d.window + 0xB0 then d.setEoi
  else if address = d.window + 0xF0 then d.setSpurious (value &&& ~~~reservedSpurious)
  else if address = d.window + 0x320 then d.setTimer (value &&& ~~~reservedTimer leaf1Ecx)
  else if address = d.window + 0x300 then d.send (.icrLow value)
  else if address = d.window + 0x310 then d.send (.icrHigh value)
  else d

end Lapic

/-! ### The driver -/

/-- CPUID leaf 1, `detect_x2apic`. -/
def detectX2apic (leaf1Ecx : UInt32) : Bool := leaf1Ecx &&& ((1 : UInt32) <<< 21) ≠ 0

inductive ApicMode where
  | xapic (mmioBase : UInt64)
  | x2apic
  deriving DecidableEq, Repr

def ia32ApicBaseMsr : UInt32 := 0x1B
def x2apicMsrBase : UInt32 := 0x800

def xapicMmioBase (apicBase : UInt64) : UInt64 := apicBase &&& 0x000FFFFFFFFFF000

theorem detectX2apic_eq (leaf1Ecx : UInt32) : detectX2apic leaf1Ecx = hasX2apic leaf1Ecx := by
  rw [Bool.eq_iff_iff, detectX2apic, decide_eq_true_iff]
  exact Words.and_bit_ne_zero_iff leaf1Ecx (k := 21) (by decide)

/-- `InterruptCtrl::new`. -/
def ApicMode.new (leaf1Ecx : UInt32) (apicBase : UInt64) : ApicMode :=
  if detectX2apic leaf1Ecx then .x2apic else .xapic (xapicMmioBase apicBase)

namespace XapicReg

def eoi : UInt32 := 0xB0
def spuriousInterruptVector : UInt32 := 0xF0
def lvtTimer : UInt32 := 0x320
def icrLow : UInt32 := 0x300
def icrHigh : UInt32 := 0x310

end XapicReg

namespace X2apicReg

def eoi : UInt32 := x2apicMsrBase + XapicReg.eoi >>> 4
def spuriousInterruptVector : UInt32 := x2apicMsrBase + XapicReg.spuriousInterruptVector >>> 4
def lvtTimer : UInt32 := x2apicMsrBase + XapicReg.lvtTimer >>> 4
def icr : UInt32 := x2apicMsrBase + 0x30

end X2apicReg

section Driver

variable (leaf1Ecx : UInt32) (mode : ApicMode)

/-- `write_reg`. -/
def writeReg (xapicOffset x2apicMsr value : UInt32) (d : Lapic) : Option Lapic :=
  match mode with
  | .xapic mmioBase => some (d.store leaf1Ecx (mmioBase + xapicOffset.toUInt64) value)
  | .x2apic => d.wrmsr leaf1Ecx x2apicMsr value.toUInt64

/-- `write_icr`. -/
def writeIcr (destinationApicId lowBits : UInt32) (d : Lapic) : Option Lapic :=
  match mode with
  | .xapic mmioBase =>
    let d := d.store leaf1Ecx (mmioBase + XapicReg.icrHigh.toUInt64) (destinationApicId <<< 24)
    some (d.store leaf1Ecx (mmioBase + XapicReg.icrLow.toUInt64) lowBits)
  | .x2apic =>
    d.wrmsr leaf1Ecx X2apicReg.icr
      ((destinationApicId.toUInt64 <<< 32) ||| lowBits.toUInt64)

/-- `end_of_interrupt`. -/
def endOfInterrupt (d : Lapic) : Option Lapic :=
  writeReg leaf1Ecx mode XapicReg.eoi X2apicReg.eoi 0 d

/-- `send_ipi`. -/
def sendIpi (ipiTargetCoreCount : UInt32) (targetCore : UInt64) (vector : UInt8) (d : Lapic) :
    Option (Except HalError Unit × Lapic) :=
  if ipiTargetCoreCount ≤ targetCore.toUInt32 then some (.error .invalidIpiTarget, d)
  else
    (writeIcr leaf1Ecx mode targetCore.toUInt32 (icrLow vector) d).map fun d => (.ok (), d)

def apicGlobalEnable : UInt64 := (1 : UInt64) <<< 11
def x2apicEnable : UInt64 := (1 : UInt64) <<< 10
def apicSoftwareEnable : UInt32 := (1 : UInt32) <<< 8
def lvtTimerModeTscDeadline : UInt32 := (1 : UInt32) <<< 18

/-- The value `bootstrap_current_core` wants in `IA32_APIC_BASE`. -/
def desired (apicBase : UInt64) : UInt64 :=
  match mode with
  | .xapic _ => apicBase ||| apicGlobalEnable
  | .x2apic => apicBase ||| apicGlobalEnable ||| x2apicEnable

/-- The first step of `bootstrap_current_core`: the enable bits. -/
def ensureEnabled (d : Lapic) : Option Lapic :=
  let apicBase := d.apicBase
  if desired mode apicBase ≠ apicBase then
    d.wrmsr leaf1Ecx ia32ApicBaseMsr (desired mode apicBase)
  else some d

/-- `bootstrap_current_core`. -/
def bootstrapCurrentCore (d : Lapic) : Option Lapic := do
  let d ← ensureEnabled leaf1Ecx mode d
  let d ← writeReg leaf1Ecx mode XapicReg.spuriousInterruptVector
    X2apicReg.spuriousInterruptVector (apicSoftwareEnable ||| 0xFF) d
  writeReg leaf1Ecx mode XapicReg.lvtTimer X2apicReg.lvtTimer
    (lvtTimerModeTscDeadline ||| 32) d

end Driver

/-! ### Driver and device together -/

/-- The APIC listens where the driver writes. -/
def Listens (mode : ApicMode) (d : Lapic) : Prop :=
  (mode = .xapic d.window ∧ d.mode = .xapic) ∨ (mode = .x2apic ∧ d.mode = .x2apic)

section Writes

variable {leaf1Ecx : UInt32} {mode : ApicMode} {d : Lapic}

/-- Different registers have different addresses. -/
theorem add_ne_add {a b c : UInt64} (h : b ≠ c) : a + b ≠ a + c :=
  fun heq => h ((UInt64.add_right_inj a).mp heq)

theorem endOfInterrupt_of_listens (h : Listens mode d) :
    endOfInterrupt leaf1Ecx mode d = some d.setEoi := by
  obtain ⟨rfl, hmode⟩ | ⟨rfl, hmode⟩ := h
  · rw [endOfInterrupt, writeReg, Lapic.store, if_neg (not_not.mpr hmode)]
    exact congrArg some (if_pos rfl)
  · rw [endOfInterrupt, writeReg, Lapic.wrmsr, if_neg (by decide), if_neg (not_not.mpr hmode)]
    rfl

theorem writeReg_spurious (h : Listens mode d) :
    writeReg leaf1Ecx mode XapicReg.spuriousInterruptVector X2apicReg.spuriousInterruptVector
      (apicSoftwareEnable ||| 0xFF) d = some (d.setSpurious 0x1FF) := by
  obtain ⟨rfl, hmode⟩ | ⟨rfl, hmode⟩ := h
  · rw [writeReg, Lapic.store, if_neg (not_not.mpr hmode), if_neg (add_ne_add (by decide))]
    exact congrArg some (if_pos rfl)
  · rw [writeReg, Lapic.wrmsr, if_neg (by decide), if_neg (not_not.mpr hmode), if_neg (by decide),
      if_pos (by decide), if_pos (by decide)]
    rfl

/-- Vector 32 at the deadline, or without that mode when the counter has run down. -/
def timerValue (leaf1Ecx : UInt32) : UInt32 :=
  if hasTscDeadline leaf1Ecx then 0x40020 else 0x20

/-- A reserved bit is dropped on the way through the window, and a fault on the other way. -/
theorem writeReg_timer (h : Listens mode d) :
    writeReg leaf1Ecx mode XapicReg.lvtTimer X2apicReg.lvtTimer (lvtTimerModeTscDeadline ||| 32) d =
      if mode = .x2apic ∧ hasTscDeadline leaf1Ecx = false then none
      else some (d.setTimer (timerValue leaf1Ecx)) := by
  have hvalue : (lvtTimerModeTscDeadline ||| 32) &&& ~~~reservedTimer leaf1Ecx =
      timerValue leaf1Ecx := by
    rw [reservedTimer, timerValue]
    split <;> decide
  obtain ⟨rfl, hmode⟩ | ⟨rfl, hmode⟩ := h
  · have hxapic : ¬ (ApicMode.xapic d.window = .x2apic ∧ hasTscDeadline leaf1Ecx = false) :=
      fun h => ApicMode.noConfusion h.1
    rw [if_neg hxapic, writeReg, Lapic.store, if_neg (not_not.mpr hmode),
      if_neg (add_ne_add (by decide)), if_neg (add_ne_add (by decide)), hvalue]
    exact congrArg some (if_pos rfl)
  · rw [writeReg, Lapic.wrmsr, if_neg (by decide), if_neg (not_not.mpr hmode), if_neg (by decide),
      if_neg (by decide), if_pos (by decide), reservedTimer, timerValue]
    cases hasTscDeadline leaf1Ecx with
    | true => rfl
    | false => rfl

/-- The interface that the commands to other cores take. -/
def ApicMode.interface : ApicMode → Interface
  | .xapic _ => .xapic
  | .x2apic => .x2apic

/-- The device after writes of commands. -/
def Lapic.sendAll (d : Lapic) (writes : List Write) : Lapic := writes.foldl Lapic.send d

theorem issued_append (icrHigh : UInt32) (write : Write) (writes : List Write) :
    issued icrHigh (write :: writes) =
      issued icrHigh [write] ++ issued (match write with
        | .icrHigh value => value
        | _ => icrHigh) writes := by
  cases write <;> rfl

theorem sent_sendAll (writes : List Write) (d : Lapic) :
    (d.sendAll writes).sent = d.sent ++ issued d.icrHigh writes := by
  induction writes generalizing d with
  | nil => exact (List.append_nil _).symm
  | cons write writes ih =>
    rw [issued_append, ← List.append_assoc]
    exact ih (d.send write)

/-- Nothing but the commands changes. -/
theorem sendAll_frame (writes : List Write) (d : Lapic) :
    (d.sendAll writes).apicBase = d.apicBase ∧
      (d.sendAll writes).spuriousInterruptVector = d.spuriousInterruptVector ∧
      (d.sendAll writes).lvtTimer = d.lvtTimer ∧ (d.sendAll writes).inService = d.inService := by
  induction writes generalizing d with
  | nil => exact ⟨rfl, rfl, rfl, rfl⟩
  | cons write writes ih => exact ih (d.send write)

@[simp] theorem apicBase_send (write : Write) : (d.send write).apicBase = d.apicBase := rfl

theorem store_icrHigh (hmode : d.mode = .xapic) (value : UInt32) :
    d.store leaf1Ecx (d.window + XapicReg.icrHigh.toUInt64) value = d.send (.icrHigh value) := by
  rw [Lapic.store, if_neg (not_not.mpr hmode), if_neg (add_ne_add (by decide)),
    if_neg (add_ne_add (by decide)), if_neg (add_ne_add (by decide)),
    if_neg (add_ne_add (by decide))]
  exact if_pos rfl

theorem store_icrLow (hmode : d.mode = .xapic) (value : UInt32) :
    d.store leaf1Ecx (d.window + XapicReg.icrLow.toUInt64) value = d.send (.icrLow value) := by
  rw [Lapic.store, if_neg (not_not.mpr hmode), if_neg (add_ne_add (by decide)),
    if_neg (add_ne_add (by decide)), if_neg (add_ne_add (by decide))]
  exact if_pos rfl

theorem writeIcr_of_listens (h : Listens mode d) {destinationApicId lowBits : UInt32}
    (hlow : lowBits.toUInt64 &&& reservedIcr = 0) :
    writeIcr leaf1Ecx mode destinationApicId lowBits d =
      some (d.sendAll (match mode.interface with
        | .xapic => writeXapicIcr destinationApicId lowBits
        | _ => writeX2apicIcr destinationApicId lowBits)) := by
  obtain ⟨rfl, hmode⟩ | ⟨rfl, hmode⟩ := h
  · have hhigh := @store_icrHigh leaf1Ecx d hmode (destinationApicId <<< 24)
    let d' := d.send (.icrHigh (destinationApicId <<< 24))
    have hmode' : d'.mode = .xapic := (congrArg modeOf (apicBase_send _)).trans hmode
    have hwindow : d'.window = d.window :=
      congrArg (· &&& 0x000FFFFFFFFFF000) (apicBase_send _)
    have hlow := @store_icrLow leaf1Ecx d' hmode' lowBits
    rw [hwindow] at hlow
    rw [writeIcr, hhigh]
    exact congrArg some hlow
  · have hshift : (destinationApicId.toUInt64 <<< 32).toNat % 2 ^ 32 = 0 := by
      have hthirtyTwo : (32 : UInt64).toNat % 64 = 32 := rfl
      rw [UInt64.toNat_shiftLeft, UInt32.toNat_toUInt64, Nat.shiftLeft_eq, hthirtyTwo]
      omega
    have hhigh : (destinationApicId.toUInt64 <<< 32) &&& reservedIcr = 0 :=
      Words.and_eq_zero_of_lt hshift (by decide)
    have hvalue : ((destinationApicId.toUInt64 <<< 32) ||| lowBits.toUInt64) &&& reservedIcr =
        0 := by
      rw [Words.and_or_distrib_right, hhigh, hlow]
      rfl
    rw [writeIcr, Lapic.wrmsr, if_neg (by decide), if_neg (not_not.mpr hmode),
      if_neg (by decide), if_neg (by decide), if_neg (by decide), if_pos (by decide),
      if_pos hvalue]
    rfl

end Writes

/-! ### Bootstrap -/

/-- The base register of a real APIC. -/
structure Lapic.WellFormed (leaf1Ecx : UInt32) (d : Lapic) : Prop where
  reserved : d.apicBase &&& reservedBase = 0
  valid : d.mode ≠ .invalid
  supported : d.mode = .x2apic → hasX2apic leaf1Ecx = true

/-- The APIC is on, its timer interrupts with vector 32, and it listens to the driver. -/
structure Lapic.Ready (leaf1Ecx : UInt32) (mode : ApicMode) (d : Lapic) : Prop where
  listens : Listens mode d
  spuriousInterruptVector : d.spuriousInterruptVector = 0x1FF
  lvtTimer : d.lvtTimer = timerValue leaf1Ecx

theorem modeOf_desired_x2apic (apicBase : UInt64) :
    modeOf (desired .x2apic apicBase) = .x2apic := by
  have heleven : Words.bit (desired .x2apic apicBase) 11 = true := by
    rw [desired, Words.bit_or, Words.bit_or, show Words.bit apicGlobalEnable 11 = true by decide,
      Bool.or_true, Bool.true_or]
  have hten : Words.bit (desired .x2apic apicBase) 10 = true := by
    rw [desired, Words.bit_or, show Words.bit x2apicEnable 10 = true by decide, Bool.or_true]
  rw [modeOf, heleven, hten]

theorem modeOf_desired_xapic {apicBase : UInt64} (h : Words.bit apicBase 10 = false)
    (mmioBase : UInt64) : modeOf (desired (.xapic mmioBase) apicBase) = .xapic := by
  have heleven : Words.bit (desired (.xapic mmioBase) apicBase) 11 = true := by
    rw [desired, Words.bit_or, show Words.bit apicGlobalEnable 11 = true by decide, Bool.or_true]
  have hten : Words.bit (desired (.xapic mmioBase) apicBase) 10 = false := by
    rw [desired, Words.bit_or, show Words.bit apicGlobalEnable 10 = false by decide,
      Bool.or_false, h]
  rw [modeOf, heleven, hten]

/-- The bits that are set are neither reserved nor part of the address. -/
theorem desired_and {mask : UInt64} (hglobal : apicGlobalEnable &&& mask = 0)
    (hx2apic : x2apicEnable &&& mask = 0) (mode : ApicMode) (apicBase : UInt64) :
    desired mode apicBase &&& mask = apicBase &&& mask := by
  cases mode with
  | xapic mmioBase =>
    rw [desired, Words.and_or_distrib_right, hglobal, UInt64.or_zero]
  | x2apic =>
    rw [desired, Words.and_or_distrib_right, Words.and_or_distrib_right, hglobal, hx2apic,
      UInt64.or_zero, UInt64.or_zero]

section Bootstrap

variable {leaf1Ecx : UInt32} {d : Lapic}

theorem apicBase_setBase (value : UInt64) : (d.setBase value).apicBase = value := by
  rw [Lapic.setBase]
  split <;> rfl

theorem setBase_self : d.setBase d.apicBase = d := if_neg fun h => h.2 h.1

theorem new_of_hasX2apic (h : hasX2apic leaf1Ecx = true) (apicBase : UInt64) :
    ApicMode.new leaf1Ecx apicBase = .x2apic :=
  if_pos ((detectX2apic_eq leaf1Ecx).trans h)

theorem new_of_not_hasX2apic (h : hasX2apic leaf1Ecx = false) (apicBase : UInt64) :
    ApicMode.new leaf1Ecx apicBase = .xapic (xapicMmioBase apicBase) := by
  refine if_neg ?_
  rw [detectX2apic_eq, h]
  exact Bool.false_ne_true

theorem bit_ten_of_not_hasX2apic (hd : d.WellFormed leaf1Ecx) (h : hasX2apic leaf1Ecx = false) :
    Words.bit d.apicBase 10 = false := by
  by_contra hten
  rw [Bool.not_eq_false] at hten
  cases heleven : Words.bit d.apicBase 11 with
  | false => exact hd.valid (by rw [Lapic.mode, modeOf, heleven, hten])
  | true =>
    have hsupported := hd.supported (by rw [Lapic.mode, modeOf, heleven, hten])
    exact Bool.false_ne_true (h.symm.trans hsupported)

theorem modeOf_desired (hd : d.WellFormed leaf1Ecx) :
    modeOf (desired (.new leaf1Ecx d.apicBase) d.apicBase) =
      if hasX2apic leaf1Ecx = true then .x2apic else .xapic := by
  cases hsupported : hasX2apic leaf1Ecx with
  | true =>
    rw [new_of_hasX2apic hsupported, if_pos rfl]
    exact modeOf_desired_x2apic _
  | false =>
    rw [new_of_not_hasX2apic hsupported, if_neg Bool.false_ne_true]
    exact modeOf_desired_xapic (bit_ten_of_not_hasX2apic hd hsupported) _

/-- The APIC does not go from off to the mode of MSRs at once. -/
theorem canBecome_iff (hd : d.WellFormed leaf1Ecx) :
    d.mode.canBecome (if hasX2apic leaf1Ecx = true then .x2apic else .xapic) = true ↔
      ¬ (hasX2apic leaf1Ecx = true ∧ d.mode = .disabled) := by
  have hvalid := hd.valid
  have hsupported := hd.supported
  cases hmode : d.mode <;> cases hx2apic : hasX2apic leaf1Ecx <;> simp_all [Mode.canBecome]

theorem ensureEnabled_eq (hd : d.WellFormed leaf1Ecx) :
    ensureEnabled leaf1Ecx (.new leaf1Ecx d.apicBase) d =
      if hasX2apic leaf1Ecx = true ∧ d.mode = .disabled then none
      else some (d.setBase (desired (.new leaf1Ecx d.apicBase) d.apicBase)) := by
  have htarget := modeOf_desired hd
  rw [ensureEnabled]
  by_cases hsame : desired (.new leaf1Ecx d.apicBase) d.apicBase = d.apicBase
  · -- nothing is written, since the APIC is in its mode already
    have hon : ¬ (hasX2apic leaf1Ecx = true ∧ d.mode = .disabled) := by
      rintro ⟨hsupported, hmode⟩
      rw [hsame, if_pos hsupported] at htarget
      exact Mode.noConfusion (hmode.symm.trans htarget)
    rw [if_neg (not_not.mpr hsame), if_neg hon, hsame, setBase_self]
  · have hreserved : desired (.new leaf1Ecx d.apicBase) d.apicBase &&& reservedBase = 0 := by
      rw [desired_and (by decide) (by decide), hd.reserved]
    have hsupported : modeOf (desired (.new leaf1Ecx d.apicBase) d.apicBase) = .x2apic →
        hasX2apic leaf1Ecx = true := by
      intro h
      by_contra hnot
      rw [htarget, if_neg hnot] at h
      exact Mode.noConfusion h
    rw [if_pos hsame, Lapic.wrmsr, if_pos (show ia32ApicBaseMsr = 0x1B from rfl)]
    by_cases hon : hasX2apic leaf1Ecx = true ∧ d.mode = .disabled
    · have hcannot := mt (canBecome_iff hd).mp (not_not.mpr hon)
      rw [if_pos hon, htarget]
      exact if_neg fun h => hcannot h.2.1
    · have hcan := (canBecome_iff hd).mpr hon
      rw [← htarget] at hcan
      rw [if_neg hon, if_pos ⟨hreserved, hcan, hsupported⟩]

/-- The APIC after `bootstrap_current_core`. -/
def Lapic.bootstrapped (leaf1Ecx : UInt32) (d : Lapic) : Lapic :=
  ((d.setBase (desired (.new leaf1Ecx d.apicBase) d.apicBase)).setSpurious 0x1FF).setTimer
    (timerValue leaf1Ecx)

theorem listens_setBase (hd : d.WellFormed leaf1Ecx) :
    Listens (.new leaf1Ecx d.apicBase)
      (d.setBase (desired (.new leaf1Ecx d.apicBase) d.apicBase)) := by
  have hmode : (d.setBase (desired (.new leaf1Ecx d.apicBase) d.apicBase)).mode =
      if hasX2apic leaf1Ecx = true then .x2apic else .xapic := by
    rw [Lapic.mode, apicBase_setBase, modeOf_desired hd]
  have hwindow : (d.setBase (desired (.new leaf1Ecx d.apicBase) d.apicBase)).window =
      d.window := by
    rw [Lapic.window, apicBase_setBase, desired_and (by decide) (by decide), Lapic.window]
  cases hsupported : hasX2apic leaf1Ecx with
  | true =>
    rw [hsupported, if_pos rfl] at hmode
    exact .inr ⟨new_of_hasX2apic hsupported _, hmode⟩
  | false =>
    rw [hsupported, if_neg Bool.false_ne_true] at hmode
    refine .inl ⟨?_, hmode⟩
    rw [hwindow]
    exact new_of_not_hasX2apic hsupported _

theorem Listens.of_apicBase {mode : ApicMode} {d' : Lapic} (h : Listens mode d)
    (hbase : d'.apicBase = d.apicBase) : Listens mode d' := by
  have hmode : d'.mode = d.mode := by rw [Lapic.mode, hbase, Lapic.mode]
  have hwindow : d'.window = d.window := by rw [Lapic.window, hbase, Lapic.window]
  rw [Listens, hmode, hwindow]
  exact h

theorem new_eq_x2apic_iff (apicBase : UInt64) :
    ApicMode.new leaf1Ecx apicBase = .x2apic ↔ hasX2apic leaf1Ecx = true := by
  constructor
  · intro h
    by_contra hnot
    rw [new_of_not_hasX2apic (Bool.not_eq_true _ ▸ hnot)] at h
    cases h
  · exact fun h => new_of_hasX2apic h apicBase

/-- `bootstrap_current_core` faults on its way to the mode of MSRs. -/
def Lapic.BootFaults (leaf1Ecx : UInt32) (d : Lapic) : Prop :=
  hasX2apic leaf1Ecx = true ∧ (d.mode = .disabled ∨ hasTscDeadline leaf1Ecx = false)

instance (leaf1Ecx : UInt32) (d : Lapic) : Decidable (d.BootFaults leaf1Ecx) :=
  inferInstanceAs (Decidable (_ ∧ _))

theorem bootstrapCurrentCore_eq (hd : d.WellFormed leaf1Ecx) :
    bootstrapCurrentCore leaf1Ecx (.new leaf1Ecx d.apicBase) d =
      if d.BootFaults leaf1Ecx then none else some (d.bootstrapped leaf1Ecx) := by
  have hbase := listens_setBase hd
  have hspurious : Listens (.new leaf1Ecx d.apicBase)
      ((d.setBase (desired (.new leaf1Ecx d.apicBase) d.apicBase)).setSpurious 0x1FF) :=
    hbase.of_apicBase rfl
  rw [bootstrapCurrentCore, ensureEnabled_eq hd]
  by_cases hoff : hasX2apic leaf1Ecx = true ∧ d.mode = .disabled
  · have hfaults : d.BootFaults leaf1Ecx := ⟨hoff.1, .inl hoff.2⟩
    rw [if_pos hoff, if_pos hfaults]
    rfl
  · have hiff : d.BootFaults leaf1Ecx ↔
        ApicMode.new leaf1Ecx d.apicBase = .x2apic ∧ hasTscDeadline leaf1Ecx = false := by
      rw [new_eq_x2apic_iff, Lapic.BootFaults, and_or_left]
      exact or_iff_right hoff
    rw [if_neg hoff, Option.bind_eq_bind, Option.bind_some, writeReg_spurious hbase,
      Option.bind_some, writeReg_timer hspurious, if_congr hiff rfl rfl]
    rfl

theorem ready_bootstrapped (hd : d.WellFormed leaf1Ecx) :
    (d.bootstrapped leaf1Ecx).Ready leaf1Ecx (.new leaf1Ecx d.apicBase) :=
  ⟨(listens_setBase hd).of_apicBase rfl, rfl, if_pos (show Words.bit32 0x1FF 8 = true by decide)⟩

end Bootstrap

/-! ### Runs -/

/-- What is asked of the controller once it is in use. -/
inductive Call where
  | setTopology (coreCount : UInt32)
  | sendIpi (targetCore : UInt64) (vector : UInt8)
  | endOfInterrupt

/-- The driver's number of cores and the APIC. -/
structure System where
  ipiTargetCoreCount : UInt32
  device : Lapic

section System

variable (leaf1Ecx : UInt32) (mode : ApicMode)

def System.perform (s : System) : Call → Option (Except HalError Unit × System)
  | .setTopology coreCount => some (.ok (), { s with ipiTargetCoreCount := coreCount })
  | .sendIpi targetCore vector =>
    (Apic.sendIpi leaf1Ecx mode s.ipiTargetCoreCount targetCore vector s.device).map
      fun (result, device) => (result, { s with device })
  | .endOfInterrupt =>
    (Apic.endOfInterrupt leaf1Ecx mode s.device).map
      fun device => (.ok (), { s with device })

/-- A call after a fault has no result. -/
def step (s : Option System) (call : Call) : Option (Except HalError Unit) × Option System :=
  match s.bind (·.perform leaf1Ecx mode call) with
  | some (result, s) => (some result, some s)
  | none => (none, none)

end System

/-- The controller with the registers left out. -/
structure Core where
  ipiTargetCoreCount : UInt32
  inService : UInt8 → Bool
  sent : List Command

/-- Every call has its result. A command is sent as by the interface, and an end of interrupt
takes the highest vector out of service. -/
def Core.step (interface : Interface) (c : Core) :
    Call → Option (Except HalError Unit) × Core
  | .setTopology coreCount => (some (.ok ()), { c with ipiTargetCoreCount := coreCount })
  | .sendIpi targetCore vector =>
    let (result, writes) := Interrupt.sendIpi interface c.ipiTargetCoreCount targetCore vector
    (some result, { c with sent := c.sent ++ issued 0 writes })
  | .endOfInterrupt => (some (.ok ()), { c with inService := eoi c.inService })

def System.core (s : System) : Core := ⟨s.ipiTargetCoreCount, s.device.inService, s.device.sent⟩

/-- The system has not faulted, is ready and has this controller. -/
def Represents (leaf1Ecx : UInt32) (mode : ApicMode) (s : Option System) (c : Core) : Prop :=
  ∃ t, s = some t ∧ t.device.Ready leaf1Ecx mode ∧ t.core = c

section Runs

variable {leaf1Ecx : UInt32} {mode : ApicMode} {d : Lapic}

theorem Lapic.Ready.sendAll (h : d.Ready leaf1Ecx mode) (writes : List Write) :
    (d.sendAll writes).Ready leaf1Ecx mode := by
  obtain ⟨hbase, hspurious, htimer, -⟩ := sendAll_frame writes d
  exact ⟨h.listens.of_apicBase hbase, hspurious.trans h.spuriousInterruptVector,
    htimer.trans h.lvtTimer⟩

/-- What the high half of the command register holds is overwritten first. -/
theorem issued_sendIpi (mode : ApicMode) (icrHigh ipiTargetCoreCount : UInt32)
    (targetCore : UInt64) (vector : UInt8) :
    issued icrHigh (Interrupt.sendIpi mode.interface ipiTargetCoreCount targetCore vector).2 =
      issued 0 (Interrupt.sendIpi mode.interface ipiTargetCoreCount targetCore vector).2 := by
  rw [Interrupt.sendIpi]
  split
  · rfl
  · cases mode <;> rfl

theorem icrLow_reserved (vector : UInt8) : (icrLow vector).toUInt64 &&& reservedIcr = 0 := by
  have hvector : vector.toUInt32.toUInt64 &&& reservedIcr = 0 := by
    rw [UInt64.and_comm]
    refine Words.and_eq_zero_of_lt (k := 8) (by decide) ?_
    rw [UInt32.toNat_toUInt64, UInt8.toNat_toUInt32]
    exact vector.toNat_lt
  rw [icrLow, UInt32.toUInt64_or, Words.and_or_distrib_right, hvector]
  decide

/-- `send_ipi` writes what the interface takes, or nothing. -/
theorem sendIpi_eq (h : Listens mode d) (ipiTargetCoreCount : UInt32) (targetCore : UInt64)
    (vector : UInt8) :
    sendIpi leaf1Ecx mode ipiTargetCoreCount targetCore vector d =
      some ((Interrupt.sendIpi mode.interface ipiTargetCoreCount targetCore vector).1,
        d.sendAll (Interrupt.sendIpi mode.interface ipiTargetCoreCount targetCore vector).2) := by
  rw [sendIpi, Interrupt.sendIpi]
  split
  · rfl
  · rw [writeIcr_of_listens h (icrLow_reserved vector)]
    cases mode <;> rfl

theorem represents_step {s : Option System} {c : Core} (h : Represents leaf1Ecx mode s c)
    (call : Call) :
    (step leaf1Ecx mode s call).1 = (c.step mode.interface call).1 ∧
      Represents leaf1Ecx mode (step leaf1Ecx mode s call).2 (c.step mode.interface call).2 := by
  obtain ⟨t, rfl, hready, rfl⟩ := h
  cases call with
  | setTopology coreCount => exact ⟨rfl, _, rfl, hready, rfl⟩
  | sendIpi targetCore vector =>
    have hsend := @sendIpi_eq leaf1Ecx mode t.device hready.listens t.ipiTargetCoreCount
      targetCore vector
    let writes :=
      (Interrupt.sendIpi mode.interface t.ipiTargetCoreCount targetCore vector).2
    have hstep : step leaf1Ecx mode (some t) (.sendIpi targetCore vector) =
        (some (Interrupt.sendIpi mode.interface t.ipiTargetCoreCount targetCore vector).1,
          some { t with device := t.device.sendAll writes }) := by
      rw [step, Option.bind_some, System.perform, hsend]
      rfl
    have hissued : issued t.device.icrHigh writes = issued 0 writes :=
      issued_sendIpi mode _ _ _ _
    rw [hstep]
    refine ⟨rfl, _, rfl, hready.sendAll writes, ?_⟩
    rw [System.core, sent_sendAll, hissued, (sendAll_frame writes t.device).2.2.2]
    rfl
  | endOfInterrupt =>
    have hstep : step leaf1Ecx mode (some t) .endOfInterrupt =
        (some (.ok ()), some { t with device := t.device.setEoi }) := by
      rw [step, Option.bind_some, System.perform, endOfInterrupt_of_listens hready.listens]
      rfl
    rw [hstep]
    exact ⟨rfl, _, rfl, ⟨hready.listens.of_apicBase rfl, hready.spuriousInterruptVector,
      hready.lvtTimer⟩, rfl⟩

theorem inService_setBase (value : UInt64) :
    (d.setBase value).inService =
      if d.mode = .disabled ∧ modeOf value ≠ .disabled then fun _ => false else d.inService := by
  rw [Lapic.setBase]
  split <;> rfl

theorem sent_setBase (value : UInt64) : (d.setBase value).sent = d.sent := by
  rw [Lapic.setBase]
  split <;> rfl

/-- The bootstrap sends nothing. It empties what is in service only in turning the APIC on. -/
theorem core_bootstrapped {leaf1Ecx : UInt32} (hd : d.WellFormed leaf1Ecx)
    (coreCount : UInt32) :
    (System.mk coreCount (d.bootstrapped leaf1Ecx)).core =
      ⟨coreCount, if d.mode = .disabled then fun _ => false else d.inService, d.sent⟩ := by
  have hon : modeOf (desired (.new leaf1Ecx d.apicBase) d.apicBase) ≠ .disabled := by
    rw [modeOf_desired hd]
    split <;> exact fun h => Mode.noConfusion h
  have hin : (d.bootstrapped leaf1Ecx).inService =
      if d.mode = .disabled then fun _ => false else d.inService :=
    (inService_setBase _).trans (if_congr (and_iff_left hon) rfl rfl)
  rw [System.core, hin]
  exact congrArg (Core.mk coreCount _) (sent_setBase _)

/-- On a processor with the mode of MSRs `bootstrap_current_core` faults if it finds the APIC
off, or if the timer has no deadline mode. From every other state it leaves an APIC that runs of
calls use without a fault, with the same results and effects in both modes. -/
theorem run_bootstrapped (leaf1Ecx : UInt32) (d : Lapic) (hd : d.WellFormed leaf1Ecx)
    (coreCount : UInt32) (calls : List Call) :
    let mode := ApicMode.new leaf1Ecx d.apicBase
    let booted := bootstrapCurrentCore leaf1Ecx mode d
    let after := Simulation.run (step leaf1Ecx mode) (booted.map (System.mk coreCount)) calls
    let contract := Simulation.run (Core.step mode.interface)
      ⟨coreCount, if d.mode = .disabled then fun _ => false else d.inService, d.sent⟩ calls
    (booted = none ↔ d.BootFaults leaf1Ecx) ∧
      (booted ≠ none → after.1 = contract.1 ∧ Represents leaf1Ecx mode after.2 contract.2) := by
  intro mode booted after contract
  have hbooted := bootstrapCurrentCore_eq hd
  by_cases hfault : d.BootFaults leaf1Ecx
  · have hnone : booted = none := hbooted.trans (if_pos hfault)
    exact ⟨iff_of_true hnone hfault, fun h => absurd hnone h⟩
  · have hsome : booted = some (d.bootstrapped leaf1Ecx) := hbooted.trans (if_neg hfault)
    have hne : booted ≠ none := fun h => Option.some_ne_none _ (hsome.symm.trans h)
    have hstart : Represents leaf1Ecx mode (booted.map (System.mk coreCount))
        ⟨coreCount, if d.mode = .disabled then fun _ => false else d.inService, d.sent⟩ := by
      rw [hsome]
      exact ⟨_, rfl, ready_bootstrapped hd, core_bootstrapped hd coreCount⟩
    exact ⟨iff_of_false hne hfault, fun _ =>
      Simulation.run_simulation (R := Represents leaf1Ecx mode)
        (fun _ _ call h => represents_step h call) calls _ _ hstart⟩

/-- An APIC in the mode of memory is switched over, on a processor with both modes. Core 2 gets
vector 64. -/
theorem run_bootstrapped_switched :
    let d : Lapic := ⟨0xFEE00900, 0xFF, timerMask, 0, (· = 80), []⟩
    let calls := [.sendIpi 2 64, .endOfInterrupt]
    let booted := bootstrapCurrentCore 0x1200000 .x2apic d
    ∃ t, (Simulation.run (step 0x1200000 .x2apic) (booted.map (System.mk 4)) calls).2 = some t ∧
      t.device.Ready 0x1200000 .x2apic ∧ t.device.sent = [.apic 2 0xFFFFFFFF 0x4040] := by
  intro d calls booted
  have hd : d.WellFormed 0x1200000 := ⟨by decide, by decide, by decide⟩
  obtain ⟨hiff, hrun⟩ := run_bootstrapped 0x1200000 d hd 4 calls
  obtain ⟨-, t, ht, hready, hcore⟩ := hrun (mt hiff.mp (by decide))
  refine ⟨t, ht, hready, (congrArg Core.sent hcore).trans ?_⟩
  decide

end Runs

end SimurghHal.Interrupt.Apic
