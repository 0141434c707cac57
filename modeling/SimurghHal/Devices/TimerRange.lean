import SimurghHal.Devices.Timer

/-!
# The range of the timers (`hal-*/src/timer.rs`)

Where the frequency of a timer comes from, how much the two conversions lose on the way from
ticks to nanoseconds and back, and the deadlines that `set_oneshot` can program. It compares
a deadline with the clock and then cuts the product of deadline and frequency down to 64
bits; nothing checks what is cut off.
-/

namespace SimurghHal

/-! ### Detection of the frequency -/

namespace X86_64

structure CpuidResult where
  eax : UInt32
  ebx : UInt32
  ecx : UInt32
  edx : UInt32
  deriving DecidableEq, Repr

/-- `CpuidSource`: what the processor answers for a leaf and a sub-leaf. -/
abbrev CpuidSource := UInt32 → UInt32 → CpuidResult

structure TscCapabilities where
  invariantTsc : Bool
  tscDeadlineMode : Bool
  deriving DecidableEq, Repr

def detectTscCapabilities (cpuid : CpuidSource) : TscCapabilities :=
  let leaf1 := cpuid 1 0
  let leafExt := cpuid 0x80000007 0
  ⟨leafExt.edx &&& (1 : UInt32) <<< 8 ≠ 0, leaf1.ecx &&& (1 : UInt32) <<< 24 ≠ 0⟩

/-- `detect_tsc_frequency_hz`. -/
def detectTscFrequencyHz (cpuid : CpuidSource) : Option UInt64 :=
  let leaf15 := cpuid 0x15 0
  if leaf15.ebx = 0 ∨ leaf15.eax = 0 then none
  else if leaf15.ecx ≠ 0 then
    some (leaf15.ecx.toUInt64 * leaf15.ebx.toUInt64 / leaf15.eax.toUInt64)
  else
    let leaf16 := cpuid 0x16 0
    if leaf16.eax = 0 then none else some (leaf16.eax.toUInt64 * 1000000)

def fallbackTscFrequencyHz : UInt64 := 1000000000

/-- `Timer::new`. -/
def Timer.new (cpuid : CpuidSource) (hpetPresent : Bool) : Timer :=
  let caps := detectTscCapabilities cpuid
  { frequencyHz := (detectTscFrequencyHz cpuid).getD fallbackTscFrequencyHz
    tscDeadlineCapable := caps.invariantTsc && caps.tscDeadlineMode
    hpetPresent := hpetPresent }

/-- The frequency is computed from leaf `0x15`. -/
def UsesLeaf15 (cpuid : CpuidSource) : Prop :=
  (cpuid 0x15 0).ebx ≠ 0 ∧ (cpuid 0x15 0).eax ≠ 0 ∧ (cpuid 0x15 0).ecx ≠ 0

/-- `ECX * EBX / EAX` over the naturals. -/
def leaf15Ratio (cpuid : CpuidSource) : ℕ :=
  (cpuid 0x15 0).ecx.toNat * (cpuid 0x15 0).ebx.toNat / (cpuid 0x15 0).eax.toNat

/-- The product of two 32-bit registers does not overflow. -/
theorem toNat_leaf15 (cpuid : CpuidSource) :
    ((cpuid 0x15 0).ecx.toUInt64 * (cpuid 0x15 0).ebx.toUInt64 /
      (cpuid 0x15 0).eax.toUInt64).toNat = leaf15Ratio cpuid := by
  have hmul : (cpuid 0x15 0).ecx.toNat * (cpuid 0x15 0).ebx.toNat < 2 ^ 32 * 2 ^ 32 :=
    Nat.mul_lt_mul'' (cpuid 0x15 0).ecx.toNat_lt (cpuid 0x15 0).ebx.toNat_lt
  rw [UInt64.toNat_div, UInt64.toNat_mul, UInt32.toNat_toUInt64, UInt32.toNat_toUInt64,
    UInt32.toNat_toUInt64, Nat.mod_eq_of_lt (show _ < 2 ^ 64 by omega), leaf15Ratio]

theorem toNat_frequencyHz_of_usesLeaf15 {cpuid : CpuidSource} (h : UsesLeaf15 cpuid)
    (hpetPresent : Bool) :
    (Timer.new cpuid hpetPresent).frequencyHz.toNat = leaf15Ratio cpuid := by
  obtain ⟨hebx, heax, hecx⟩ := h
  have hnone : ¬ ((cpuid 0x15 0).ebx = 0 ∨ (cpuid 0x15 0).eax = 0) := by
    rintro (hzero | hzero)
    · exact hebx hzero
    · exact heax hzero
  rw [Timer.new, detectTscFrequencyHz, if_neg hnone, if_pos hecx, Option.getD_some, toNat_leaf15]

theorem toNat_megahertz (mhz : UInt32) : (mhz.toUInt64 * 1000000).toNat = mhz.toNat * 1000000 := by
  have hlt := mhz.toNat_lt
  have hmega : (1000000 : UInt64).toNat = 1000000 := rfl
  rw [UInt64.toNat_mul, UInt32.toNat_toUInt64, hmega]
  exact Nat.mod_eq_of_lt (by omega)

/-- Off that path the frequency is the fallback or a positive number of megahertz. -/
theorem frequencyHz_pos_of_not_usesLeaf15 {cpuid : CpuidSource} (h : ¬ UsesLeaf15 cpuid)
    (hpetPresent : Bool) : 1 ≤ (Timer.new cpuid hpetPresent).frequencyHz.toNat := by
  have hfallback : 1 ≤ fallbackTscFrequencyHz.toNat := by decide
  show 1 ≤ ((detectTscFrequencyHz cpuid).getD fallbackTscFrequencyHz).toNat
  by_cases hnone : (cpuid 0x15 0).ebx = 0 ∨ (cpuid 0x15 0).eax = 0
  · rw [detectTscFrequencyHz, if_pos hnone]
    exact hfallback
  · have hecx : ¬ (cpuid 0x15 0).ecx ≠ 0 := by
      rw [not_or] at hnone
      exact fun hecx => h ⟨hnone.1, hnone.2, hecx⟩
    by_cases heax : (cpuid 0x16 0).eax = 0
    · rw [detectTscFrequencyHz, if_neg hnone, if_neg hecx, if_pos heax]
      exact hfallback
    · rw [detectTscFrequencyHz, if_neg hnone, if_neg hecx, if_neg heax, Option.getD_some,
        toNat_megahertz]
      have hpos : (cpuid 0x16 0).eax.toNat ≠ 0 := fun hzero => heax (UInt32.toNat_inj.mp hzero)
      omega

/-- The frequency is positive, and exact when it comes from leaf `0x15`. -/
def FrequencyExact (cpuid : CpuidSource) (hpetPresent : Bool) : Prop :=
  1 ≤ (Timer.new cpuid hpetPresent).frequencyHz.toNat ∧
    (UsesLeaf15 cpuid → (Timer.new cpuid hpetPresent).frequencyHz.toNat = leaf15Ratio cpuid)

/-- Leaf `0x15` gives a frequency below one hertz. -/
def RatioVanishes (cpuid : CpuidSource) : Prop :=
  UsesLeaf15 cpuid ∧
    (cpuid 0x15 0).ecx.toNat * (cpuid 0x15 0).ebx.toNat < (cpuid 0x15 0).eax.toNat

theorem frequencyExact_iff (cpuid : CpuidSource) (hpetPresent : Bool) :
    FrequencyExact cpuid hpetPresent ↔ ¬ RatioVanishes cpuid := by
  by_cases hused : UsesLeaf15 cpuid
  · have heq := toNat_frequencyHz_of_usesLeaf15 hused hpetPresent
    have heax : 0 < (cpuid 0x15 0).eax.toNat :=
      Nat.pos_of_ne_zero fun hzero => hused.2.1 (UInt32.toNat_inj.mp hzero)
    have hpos : 1 ≤ leaf15Ratio cpuid ↔
        (cpuid 0x15 0).eax.toNat ≤ (cpuid 0x15 0).ecx.toNat * (cpuid 0x15 0).ebx.toNat := by
      rw [leaf15Ratio, Nat.le_div_iff_mul_le heax, Nat.one_mul]
    rw [FrequencyExact, heq, and_iff_left fun _ => rfl, hpos, RatioVanishes, and_iff_right hused,
      Nat.not_lt]
  · refine iff_of_true ⟨frequencyHz_pos_of_not_usesLeaf15 hused hpetPresent, ?_⟩ ?_
    · exact fun h => absurd h hused
    · exact fun h => hused h.1

end X86_64

namespace Arm64

/-- `Timer::new` with the given `CNTFRQ_EL0`: the timer, and `CNTP_CVAL_EL0` and the enable bit
of `CNTP_CTL_EL0` afterwards. -/
def Timer.new (cntfrq : UInt64) : Timer × UInt64 × Bool :=
  (⟨cntfrq⟩, 0xFFFFFFFFFFFFFFFF, true)

end Arm64

/-- No clock divides by zero, and the frequency from leaf `0x15` is exact, unless the ratio of
that leaf is below one hertz or the firmware has left `CNTFRQ_EL0` at zero. -/
theorem frequency_pos_iff (cpuid : X86_64.CpuidSource) (hpetPresent : Bool) (cntfrq : UInt64) :
    (X86_64.FrequencyExact cpuid hpetPresent ↔ ¬ X86_64.RatioVanishes cpuid) ∧
      (1 ≤ (Arm64.Timer.new cntfrq).1.frequencyHz.toNat ↔ cntfrq ≠ 0) := by
  refine ⟨X86_64.frequencyExact_iff cpuid hpetPresent, ?_⟩
  show 1 ≤ cntfrq.toNat ↔ cntfrq ≠ 0
  rw [Nat.one_le_iff_ne_zero]
  exact not_congr ⟨fun h => UInt64.toNat_inj.mp h, fun h => congrArg UInt64.toNat h⟩

/-- A crystal of 1 Hz with the ratio 1 to 2 gives 0 Hz, and so does firmware that has not
programmed the generic timer. -/
theorem frequency_zero :
    ¬ X86_64.FrequencyExact (fun _ _ => ⟨2, 1, 1, 0⟩) false ∧
      ¬ 1 ≤ (Arm64.Timer.new 0).1.frequencyHz.toNat := by
  refine ⟨fun h => ?_, by decide⟩
  exact absurd h.1 (by decide)

/-! ### Ticks to nanoseconds and back -/

/-- The two floors lose at most the ticks of one nanosecond, rounded up. -/
theorem drift_le {f t : ℕ} (hf : 0 < f) :
    t ≤ t * 1000000000 / f * f / 1000000000 + (f + 999999999) / 1000000000 ∧
      t * 1000000000 / f * f / 1000000000 ≤ t := by
  have hle : t * 1000000000 / f * f ≤ t * 1000000000 := Nat.div_mul_le_self _ _
  have hlt : t * 1000000000 < t * 1000000000 / f * f + f := Nat.lt_div_mul_add hf
  omega

/-- While the clock fits into 64 bits, it is monotone, its conversions do not overflow, and a
reading is converted back to a tick that is at most the ticks of one nanosecond early. -/
theorem Timer.conversion_monotone_drift {arch : Arch} (timer : Timer arch) (t₁ t₂ : UInt64)
    (hf : 1 ≤ timer.frequencyHz.toNat) (hle : t₁ ≤ t₂)
    (hfit : t₂.toNat * 1000000000 / timer.frequencyHz.toNat < 2 ^ 64) :
    nowNs timer.frequencyHz t₁ ≤ nowNs timer.frequencyHz t₂ ∧
      ∀ t ∈ [t₁, t₂],
        t.toNat * 1000000000 < 2 ^ 128 ∧
        (nowNs timer.frequencyHz t).toNat * timer.frequencyHz.toNat < 2 ^ 128 ∧
        t.toNat ≤ (deadlineNsToTicks timer.frequencyHz (nowNs timer.frequencyHz t)).toNat +
          (timer.frequencyHz.toNat + 999999999) / 1000000000 ∧
        deadlineNsToTicks timer.frequencyHz (nowNs timer.frequencyHz t) ≤ t := by
  rw [UInt64.le_iff_toNat_le] at hle
  have hmono : t₁.toNat * 1000000000 / timer.frequencyHz.toNat ≤
      t₂.toNat * 1000000000 / timer.frequencyHz.toNat :=
    Nat.div_le_div_right (Nat.mul_le_mul_right _ hle)
  have hnow : ∀ t ∈ [t₁, t₂], (nowNs timer.frequencyHz t).toNat =
      t.toNat * 1000000000 / timer.frequencyHz.toNat := by
    intro t ht
    have hbound : t.toNat * 1000000000 / timer.frequencyHz.toNat < 2 ^ 64 := by
      obtain rfl | rfl : t = t₁ ∨ t = t₂ := by simpa using ht
      · exact hmono.trans_lt hfit
      · exact hfit
    rw [toNat_nowNs, Nat.mod_eq_of_lt hbound]
  refine ⟨?_, fun t ht => ?_⟩
  · rw [UInt64.le_iff_toNat_le, hnow t₁ (by simp), hnow t₂ (by simp)]
    exact hmono
  · have hlt := t.toNat_lt
    obtain ⟨hlower, hupper⟩ := drift_le (t := t.toNat) hf
    have hback : (deadlineNsToTicks timer.frequencyHz (nowNs timer.frequencyHz t)).toNat =
        t.toNat * 1000000000 / timer.frequencyHz.toNat * timer.frequencyHz.toNat / 1000000000 := by
      rw [toNat_deadlineNsToTicks, hnow t ht, Nat.mod_eq_of_lt (hupper.trans_lt hlt)]
    refine ⟨by omega, ?_, ?_, ?_⟩
    · rw [hnow t ht]
      have := Nat.div_mul_le_self (t.toNat * 1000000000) timer.frequencyHz.toNat
      omega
    · rw [hback]
      exact hlower
    · rw [UInt64.le_iff_toNat_le, hback]
      exact hupper

/-- At 10 MHz tick 3 is 300 ns, which are converted back without loss. -/
theorem qemuTimer_conversion :
    nowNs 10000000 1 ≤ nowNs 10000000 3 ∧
      deadlineNsToTicks 10000000 (nowNs 10000000 3) ≤ 3 :=
  have h := qemuTimer.conversion_monotone_drift 1 3 (by decide) (by decide) (by decide)
  ⟨h.1, (h.2 3 (by decide)).2.2.2⟩

/-! ### Deadlines outside the range of the counter -/

/-- The comparator value that disarms the timer, as `cancel_oneshot` writes it. -/
def disarmValue : Arch → UInt64
  | .x86_64 => 0
  | .arm64 => 0xFFFFFFFFFFFFFFFF
  | .riscv64 => 0xFFFFFFFFFFFFFFFF

/-- The tick of a deadline, before anything is cut off. -/
def deadlineTick {arch : Arch} (timer : Timer arch) (deadlineNs : UInt64) : ℕ :=
  deadlineNs.toNat * timer.frequencyHz.toNat / 1000000000

/-- A call is refused and leaves the comparator, or programs the exact tick. It is refused for
its deadline when the tick does not fit, and does not disarm the timer when it succeeds. -/
def RefusedOrExact {arch : Arch} (timer : Timer arch) (ticks comparator deadlineNs : UInt64)
    (mode : TimerMode) : Prop :=
  let outcome := timer.setOneshot ticks comparator deadlineNs mode
  ((∃ e, outcome.1 = .error e ∧ outcome.2 = comparator) ∨
      outcome.1 = .ok () ∧ outcome.2.toNat = deadlineTick timer deadlineNs) ∧
    (0x10000000000000000 ≤ deadlineTick timer deadlineNs →
      outcome.1 = .error .invalidTimerDeadline) ∧
    (outcome.1 = .ok () → outcome.2 ≠ disarmValue arch)

theorem refusedOrExact_iff_of_refused {arch : Arch} {timer : Timer arch}
    {ticks comparator deadlineNs : UInt64} {mode : TimerMode} {e : HalError}
    (h : timer.setOneshot ticks comparator deadlineNs mode = (.error e, comparator)) :
    RefusedOrExact timer ticks comparator deadlineNs mode ↔
      (0x10000000000000000 ≤ deadlineTick timer deadlineNs → e = .invalidTimerDeadline) := by
  simp [RefusedOrExact, h]

theorem refusedOrExact_iff_of_ok {arch : Arch} {timer : Timer arch}
    {ticks comparator deadlineNs : UInt64} {mode : TimerMode}
    (h : timer.setOneshot ticks comparator deadlineNs mode =
      (.ok (), deadlineNsToTicks timer.frequencyHz deadlineNs)) :
    RefusedOrExact timer ticks comparator deadlineNs mode ↔
      deadlineTick timer deadlineNs < 0x10000000000000000 ∧
        deadlineTick timer deadlineNs ≠ (disarmValue arch).toNat := by
  have hcut : (deadlineNsToTicks timer.frequencyHz deadlineNs).toNat =
      deadlineTick timer deadlineNs % 0x10000000000000000 :=
    toNat_deadlineNsToTicks _ _
  simp only [RefusedOrExact, h, reduceCtorEq, false_and, exists_false, false_or, true_and,
    true_imp_iff, imp_false, hcut, ne_eq, ← UInt64.toNat_inj]
  constructor
  · rintro ⟨hexact, hfit, hne⟩
    rw [hexact] at hne
    exact ⟨Nat.lt_of_not_le hfit, hne⟩
  · rintro ⟨hfit, hne⟩
    rw [Nat.mod_eq_of_lt hfit]
    exact ⟨rfl, Nat.not_le_of_lt hfit, hne⟩

/-- On a timer that takes deadlines, `set_oneshot` does this exactly for deadlines that are
not in the future and for those with a tick that fits and does not disarm the timer. A timer
that takes none refuses every call with another error. -/
theorem Timer.refusedOrExact_iff {arch : Arch} (timer : Timer arch)
    (ticks comparator deadlineNs : UInt64) (mode : TimerMode)
    (_hf : 1 ≤ timer.frequencyHz.toNat) :
    RefusedOrExact timer ticks comparator deadlineNs mode ↔
      if timer.supportsTickless then
        deadlineNs ≤ nowNs timer.frequencyHz ticks ∨
          deadlineTick timer deadlineNs < 2 ^ 64 ∧
            deadlineTick timer deadlineNs ≠ (disarmValue arch).toNat
      else deadlineTick timer deadlineNs < 2 ^ 64 := by
  have heq := timer.setOneshot_eq ticks comparator deadlineNs mode
  cases hcapable : timer.supportsTickless with
  | false =>
    rw [if_pos hcapable] at heq
    rw [refusedOrExact_iff_of_refused heq]
    simp
  | true =>
    rw [if_neg (by simp [hcapable])] at heq
    by_cases hpast : deadlineNs ≤ nowNs timer.frequencyHz ticks
    · rw [if_pos hpast] at heq
      rw [refusedOrExact_iff_of_refused heq]
      simp [hpast]
    · rw [if_neg hpast] at heq
      rw [refusedOrExact_iff_of_ok heq]
      simp [hpast]

theorem qemuTimer_refusedOrExact : RefusedOrExact qemuTimer 1 0 200 .interactive :=
  (qemuTimer.refusedOrExact_iff 1 0 200 .interactive (by decide)).mpr (by decide)

/-- At 3 GHz the deadline of 6148914691236517205 ns is tick `2 ^ 64 - 1`, which disarms the
ARM timer, and a later one is cut off: `u64::MAX` ns becomes tick `2 ^ 64 - 3`. -/
theorem setOneshot_cut_off :
    let timer : Timer .arm64 := (⟨3000000000⟩ : Arm64.Timer)
    timer.setOneshot 0 0xFFFFFFFFFFFFFFFF 6148914691236517205 .highResolutionTickless =
        (.ok (), 0xFFFFFFFFFFFFFFFF) ∧
      timer.setOneshot 0 0xFFFFFFFFFFFFFFFF 0xFFFFFFFFFFFFFFFF .highResolutionTickless =
        (.ok (), 0xFFFFFFFFFFFFFFFD) ∧
      ¬ RefusedOrExact timer 0 0xFFFFFFFFFFFFFFFF 6148914691236517205 .highResolutionTickless ∧
      ¬ RefusedOrExact timer 0 0xFFFFFFFFFFFFFFFF 0xFFFFFFFFFFFFFFFF
        .highResolutionTickless := by
  refine ⟨by decide, by decide, fun h => ?_, fun h => ?_⟩
  · exact h.2.2 (by decide) (by decide)
  · exact absurd (h.2.1 (by decide)) (by decide)

end SimurghHal
