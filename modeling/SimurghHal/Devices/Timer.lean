import SimurghHal.Core.Error
import SimurghHal.Manifest.Raw
import Mathlib.Tactic.Linarith

/-!
# Timers (`hal-core/src/timer.rs`, `hal-*/src/timer.rs`)

The three timers convert between counter ticks and nanoseconds by the same two
integer formulas, with 128-bit intermediate values, and differ in what they check
before arming the comparator. A frequency of 0 makes the source divide by zero;
statements about conversions assume a positive one.
-/

namespace SimurghHal

/-- `hal_core::timer::TimerMode`. -/
inductive TimerMode where
  | interactive
  | highResolutionTickless
  deriving DecidableEq, Repr

/-- `now_ns` at the given counter value. -/
def nowNs (frequencyHz ticks : UInt64) : UInt64 :=
  UInt64.ofNat (ticks.toNat * 1000000000 % 2 ^ 128 / frequencyHz.toNat)

/-- `deadline_ns_to_tsc` and `deadline_ns_to_ticks`. -/
def deadlineNsToTicks (frequencyHz deadlineNs : UInt64) : UInt64 :=
  UInt64.ofNat (deadlineNs.toNat * frequencyHz.toNat % 2 ^ 128 / 1000000000)

namespace X86_64

structure Timer where
  frequencyHz : UInt64
  tscDeadlineCapable : Bool
  hpetPresent : Bool
  deriving DecidableEq, Repr

/-- `detected_kind`. -/
def Timer.detectedKind (timer : Timer) : Manifest.TimerKindRaw :=
  if timer.tscDeadlineCapable then .tsc
  else if timer.hpetPresent then .hpet
  else .tsc

/-- `set_oneshot` at counter value `ticks`: the result and `IA32_TSC_DEADLINE`
afterwards. -/
def Timer.setOneshot (timer : Timer) (ticks comparator deadlineNs : UInt64) (mode : TimerMode) :
    Except HalError Unit × UInt64 :=
  if mode = .highResolutionTickless ∧ timer.tscDeadlineCapable = false then
    (.error .ticklessModeUnsupported, comparator)
  else if timer.tscDeadlineCapable = false then (.error .ticklessModeUnsupported, comparator)
  else if deadlineNs ≤ nowNs timer.frequencyHz ticks then
    (.error .invalidTimerDeadline, comparator)
  else (.ok (), deadlineNsToTicks timer.frequencyHz deadlineNs)

/-- `cancel_oneshot`: `IA32_TSC_DEADLINE` afterwards. -/
def Timer.cancelOneshot (_ : Timer) (_comparator : UInt64) : UInt64 := 0

end X86_64

namespace Arm64

structure Timer where
  frequencyHz : UInt64
  deriving DecidableEq, Repr

/-- `detected_kind`. -/
def Timer.detectedKind (_ : Timer) : Manifest.TimerKindRaw := .armGenericTimer

/-- `set_oneshot`: the result and `CNTP_CVAL_EL0` afterwards. The mode is ignored. -/
def Timer.setOneshot (timer : Timer) (ticks comparator deadlineNs : UInt64) (_mode : TimerMode) :
    Except HalError Unit × UInt64 :=
  if deadlineNs ≤ nowNs timer.frequencyHz ticks then (.error .invalidTimerDeadline, comparator)
  else (.ok (), deadlineNsToTicks timer.frequencyHz deadlineNs)

/-- `cancel_oneshot`: `CNTP_CVAL_EL0` afterwards. -/
def Timer.cancelOneshot (_ : Timer) (_comparator : UInt64) : UInt64 := 0xFFFFFFFFFFFFFFFF

end Arm64

namespace Riscv64

structure Timer where
  frequencyHz : UInt64
  sbiTimeAvailable : Bool
  deriving DecidableEq, Repr

/-- `detected_kind`. -/
def Timer.detectedKind (_ : Timer) : Manifest.TimerKindRaw := .riscvSbiTimer

/-- `set_oneshot`: the result and the deadline held by the SBI afterwards. -/
def Timer.setOneshot (timer : Timer) (ticks comparator deadlineNs : UInt64) (_mode : TimerMode) :
    Except HalError Unit × UInt64 :=
  if timer.sbiTimeAvailable = false then (.error .ticklessModeUnsupported, comparator)
  else if deadlineNs ≤ nowNs timer.frequencyHz ticks then
    (.error .invalidTimerDeadline, comparator)
  else (.ok (), deadlineNsToTicks timer.frequencyHz deadlineNs)

/-- `cancel_oneshot`: the deadline held by the SBI afterwards. -/
def Timer.cancelOneshot (timer : Timer) (comparator : UInt64) : UInt64 :=
  if timer.sbiTimeAvailable then 0xFFFFFFFFFFFFFFFF else comparator

end Riscv64

/-- The timer of an architecture crate. -/
def Timer : Arch → Type
  | .x86_64 => X86_64.Timer
  | .arm64 => Arm64.Timer
  | .riscv64 => Riscv64.Timer

namespace Timer

/-- `frequency_hz`. -/
def frequencyHz : {arch : Arch} → Timer arch → UInt64
  | .x86_64, timer => X86_64.Timer.frequencyHz timer
  | .arm64, timer => Arm64.Timer.frequencyHz timer
  | .riscv64, timer => Riscv64.Timer.frequencyHz timer

/-- `supports_tickless`. -/
def supportsTickless : {arch : Arch} → Timer arch → Bool
  | .x86_64, timer => X86_64.Timer.tscDeadlineCapable timer
  | .arm64, _ => true
  | .riscv64, timer => Riscv64.Timer.sbiTimeAvailable timer

def detectedKind : {arch : Arch} → Timer arch → Manifest.TimerKindRaw
  | .x86_64, timer => X86_64.Timer.detectedKind timer
  | .arm64, timer => Arm64.Timer.detectedKind timer
  | .riscv64, timer => Riscv64.Timer.detectedKind timer

def setOneshot : {arch : Arch} → Timer arch → (ticks comparator deadlineNs : UInt64) →
    TimerMode → Except HalError Unit × UInt64
  | .x86_64, timer => X86_64.Timer.setOneshot timer
  | .arm64, timer => Arm64.Timer.setOneshot timer
  | .riscv64, timer => Riscv64.Timer.setOneshot timer

def cancelOneshot : {arch : Arch} → Timer arch → (comparator : UInt64) → UInt64
  | .x86_64, timer => X86_64.Timer.cancelOneshot timer
  | .arm64, timer => Arm64.Timer.cancelOneshot timer
  | .riscv64, timer => Riscv64.Timer.cancelOneshot timer

end Timer

/-! ### Conversions -/

theorem toNat_nowNs (frequencyHz ticks : UInt64) :
    (nowNs frequencyHz ticks).toNat =
      ticks.toNat * 1000000000 / frequencyHz.toNat % 2 ^ 64 := by
  have hticks := ticks.toNat_lt
  rw [nowNs, UInt64.toNat_ofNat', Nat.mod_eq_of_lt (show ticks.toNat * 1000000000 < 2 ^ 128 by omega)]

theorem toNat_deadlineNsToTicks (frequencyHz deadlineNs : UInt64) :
    (deadlineNsToTicks frequencyHz deadlineNs).toNat =
      deadlineNs.toNat * frequencyHz.toNat / 1000000000 % 2 ^ 64 := by
  have hmul : deadlineNs.toNat * frequencyHz.toNat < 2 ^ 64 * 2 ^ 64 :=
    Nat.mul_lt_mul'' deadlineNs.toNat_lt frequencyHz.toNat_lt
  rw [deadlineNsToTicks, UInt64.toNat_ofNat', Nat.mod_eq_of_lt (show _ < 2 ^ 128 by omega)]

/-- What the three agree on: a timer that can take deadlines takes those in the future, and
a refused call leaves the comparator as it was. -/
theorem Timer.setOneshot_eq {arch : Arch} (timer : Timer arch)
    (ticks comparator deadlineNs : UInt64) (mode : TimerMode) :
    timer.setOneshot ticks comparator deadlineNs mode =
      if timer.supportsTickless = false then (.error .ticklessModeUnsupported, comparator)
      else if deadlineNs ≤ nowNs timer.frequencyHz ticks then
        (.error .invalidTimerDeadline, comparator)
      else (.ok (), deadlineNsToTicks timer.frequencyHz deadlineNs) := by
  cases arch with
  | x86_64 =>
    simp only [setOneshot, X86_64.Timer.setOneshot, supportsTickless, frequencyHz]
    split
    · next h => exact (if_pos h.2).symm
    · rfl
  | arm64 => rfl
  | riscv64 => rfl

/-- A successful call programs the converted deadline, and the deadline lay in the
future. -/
theorem Timer.setOneshot_ok {arch : Arch} {timer : Timer arch}
    {ticks comparator deadlineNs : UInt64} {mode : TimerMode}
    (h : (timer.setOneshot ticks comparator deadlineNs mode).1 = .ok ()) :
    (timer.setOneshot ticks comparator deadlineNs mode).2 =
        deadlineNsToTicks timer.frequencyHz deadlineNs ∧
      (nowNs timer.frequencyHz ticks).toNat < deadlineNs.toNat := by
  rw [Timer.setOneshot_eq] at h ⊢
  split at h
  · cases h
  · next hcapable =>
    split at h
    · cases h
    · next hlate =>
      rw [if_neg hcapable, if_neg hlate]
      rw [UInt64.le_iff_toNat_le] at hlate
      exact ⟨rfl, Nat.lt_of_not_le hlate⟩

/-- Converting a deadline to ticks and back never gains time, and loses none exactly
when the deadline is a whole number of ticks. -/
theorem ticks_roundtrip {f d : ℕ} (hf : 0 < f) :
    d * f / 1000000000 * 1000000000 / f ≤ d ∧
      (d ≤ d * f / 1000000000 * 1000000000 / f ↔ 1000000000 ∣ d * f) := by
  have hfloor : d * f / 1000000000 * 1000000000 ≤ d * f := Nat.div_mul_le_self _ _
  refine ⟨?_, ?_⟩
  · calc d * f / 1000000000 * 1000000000 / f ≤ d * f / f := Nat.div_le_div_right hfloor
      _ = d := Nat.mul_div_cancel d hf
  · rw [Nat.le_div_iff_mul_le hf]
    constructor
    · intro hge
      exact ⟨d * f / 1000000000, by omega⟩
    · rintro ⟨k, hk⟩
      rw [hk]
      omega

/-- A successful `set_oneshot` fires in the future and not before its deadline
exactly when the deadline is a whole number of ticks and the clock has not run past
64 bits of nanoseconds. -/
theorem Timer.setOneshot_notEarly_iff {arch : Arch} (timer : Timer arch)
    (ticks comparator deadlineNs : UInt64) (mode : TimerMode)
    (hf : 1 ≤ timer.frequencyHz.toNat)
    (hok : (timer.setOneshot ticks comparator deadlineNs mode).1 = .ok ())
    (hfit : deadlineNs.toNat * timer.frequencyHz.toNat / 1000000000 < 2 ^ 64) :
    let programmed := (timer.setOneshot ticks comparator deadlineNs mode).2
    (ticks < programmed ∧ deadlineNs ≤ nowNs timer.frequencyHz programmed) ↔
      (1000000000 ∣ deadlineNs.toNat * timer.frequencyHz.toNat ∧
        ticks.toNat * 1000000000 / timer.frequencyHz.toNat < 2 ^ 64) := by
  intro programmed
  obtain ⟨hprog, hfuture⟩ := Timer.setOneshot_ok hok
  obtain ⟨hle, hiff⟩ := ticks_roundtrip (d := deadlineNs.toNat) hf
  have hT : programmed.toNat = deadlineNs.toNat * timer.frequencyHz.toNat / 1000000000 := by
    show (timer.setOneshot ticks comparator deadlineNs mode).2.toNat = _
    rw [hprog, toNat_deadlineNsToTicks, Nat.mod_eq_of_lt hfit]
  have hd := deadlineNs.toNat_lt
  have hnow : (nowNs timer.frequencyHz programmed).toNat =
      deadlineNs.toNat * timer.frequencyHz.toNat / 1000000000 * 1000000000 /
        timer.frequencyHz.toNat := by
    rw [toNat_nowNs, hT]
    exact Nat.mod_eq_of_lt (by omega)
  rw [UInt64.lt_iff_toNat_lt, UInt64.le_iff_toNat_le, hnow, hiff, hT]
  rw [toNat_nowNs] at hfuture
  constructor
  · rintro ⟨hlt, hdvd⟩
    refine ⟨hdvd, ?_⟩
    -- a programmed tick beyond the counter bounds the counter's own time
    have hticks : ticks.toNat * 1000000000 ≤
        deadlineNs.toNat * timer.frequencyHz.toNat / 1000000000 * 1000000000 := by
      omega
    have := Nat.div_le_div_right (c := timer.frequencyHz.toNat) hticks
    omega
  · rintro ⟨hdvd, hclock⟩
    refine ⟨?_, hdvd⟩
    rw [Nat.mod_eq_of_lt hclock, Nat.div_lt_iff_lt_mul hf] at hfuture
    obtain ⟨k, hk⟩ := hdvd
    rw [hk] at hfuture ⊢
    omega

/-- The 10 MHz time base of the QEMU machine. -/
def qemuTimer : Timer .riscv64 := (⟨10000000, true⟩ : Riscv64.Timer)

/-- A deadline of 200 ns at tick 1 is two ticks of 100 ns. -/
theorem setOneshot_notEarly_whole_ticks :
    1 < (qemuTimer.setOneshot 1 0 200 .interactive).2 ∧
      200 ≤ nowNs 10000000 (qemuTimer.setOneshot 1 0 200 .interactive).2 :=
  (Timer.setOneshot_notEarly_iff qemuTimer 1 0 200 .interactive (by decide) (by decide)
    (by decide)).mpr ⟨by decide, by decide⟩

/-- A deadline of 150 ns at tick 1 is rounded down to tick 1, which is 100 ns. -/
theorem setOneshot_early_fraction :
    (qemuTimer.setOneshot 1 0 150 .interactive).1 = .ok () ∧
      (qemuTimer.setOneshot 1 0 150 .interactive).2 = 1 ∧ nowNs 10000000 1 = 100 ∧
      ¬ (1 < (qemuTimer.setOneshot 1 0 150 .interactive).2 ∧
        150 ≤ nowNs 10000000 (qemuTimer.setOneshot 1 0 150 .interactive).2) := by
  decide

end SimurghHal
