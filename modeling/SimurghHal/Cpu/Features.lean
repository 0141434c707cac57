import SimurghHal.Devices.TimerRange
import SimurghHal.Lib.Words
import SimurghHal.Manifest.Build
import Mathlib.Tactic.Tauto

/-!
# CPU features (`detect_feature_flags` in `hal-*/src/cpu.rs`)

The crates learn of the features of a CPU from CPUID, from identification registers, or from
the target they are compiled for, and report them in one word. The word is read here as the
set of the features whose bits it has, and the bit for the IOMMU is the one that is set later.
-/

namespace SimurghHal.Cpu

open Words

/-- The constants of `CpuFeatureFlags`. -/
inductive Feature where
  | simd128
  | simd256
  | simd512
  | scalableVector
  | cryptoAes
  | cryptoSha
  | wideAtomics
  | virtualization
  | iommuCapable
  | perfCounters
  deriving DecidableEq, Repr

namespace Feature

def bit : Feature → ℕ
  | .simd128 => 0
  | .simd256 => 1
  | .simd512 => 2
  | .scalableVector => 3
  | .cryptoAes => 4
  | .cryptoSha => 5
  | .wideAtomics => 6
  | .virtualization => 7
  | .iommuCapable => 8
  | .perfCounters => 9

def flag (f : Feature) : UInt64 := (1 : UInt64) <<< UInt64.ofNat f.bit

def all : List Feature :=
  [.simd128, .simd256, .simd512, .scalableVector, .cryptoAes, .cryptoSha, .wideAtomics,
    .virtualization, .iommuCapable, .perfCounters]

/-- `if condition { flags |= f }`. -/
def addIf (condition : Prop) [Decidable condition] (f : Feature) (flags : UInt64) : UInt64 :=
  if condition then flags ||| f.flag else flags

/-- The word with the bits of these features. -/
def flags (features : List Feature) : UInt64 := features.foldr (fun f rest => rest ||| f.flag) 0

theorem exists_iff (P : Feature → Prop) :
    (∃ f, P f) ↔ P .simd128 ∨ P .simd256 ∨ P .simd512 ∨ P .scalableVector ∨ P .cryptoAes ∨
      P .cryptoSha ∨ P .wideAtomics ∨ P .virtualization ∨ P .iommuCapable ∨ P .perfCounters := by
  constructor
  · rintro ⟨f, hf⟩
    cases f <;> tauto
  · rintro (h | h | h | h | h | h | h | h | h | h) <;> exact ⟨_, h⟩

theorem mem_all (f : Feature) : f ∈ all := by
  cases f <;> decide

theorem bit_injective : Function.Injective bit := by
  intro f g h
  cases f <;> cases g <;> first | rfl | cases h

theorem toNat_flag (f : Feature) : f.flag.toNat = 2 ^ f.bit := by
  cases f <;> rfl

@[simp] theorem bit_flag (f : Feature) (i : ℕ) : Words.bit f.flag i = decide (f.bit = i) := by
  rw [Words.bit, toNat_flag, Nat.testBit_two_pow]

@[simp] theorem bit_addIf (condition : Prop) [Decidable condition] (f : Feature) (flags : UInt64)
    (i : ℕ) :
    Words.bit (f.addIf condition flags) i =
      (Words.bit flags i || decide condition && decide (f.bit = i)) := by
  rw [addIf]
  split
  · next h => simp [h]
  · next h => simp [h]

theorem bit_flags_iff (features : List Feature) (i : ℕ) :
    Words.bit (flags features) i = true ↔ ∃ f ∈ features, f.bit = i := by
  induction features with
  | nil => simp [flags, Words.bit]
  | cons f features ih =>
    rw [flags, List.foldr_cons, ← flags, bit_or, Bool.or_eq_true, ih, bit_flag, decide_eq_true_iff,
      List.exists_mem_cons_iff, or_comm]

theorem bit_flags_all (reported : Feature → Bool) (i : ℕ) :
    Words.bit (flags (all.filter reported)) i = true ↔ ∃ f, reported f = true ∧ f.bit = i := by
  simp only [bit_flags_iff, List.mem_filter, mem_all, true_and]

/-- A word is made of the features that are reported if it has their bits and no others. -/
theorem eq_flags_of_bit {word : UInt64} {reported : Feature → Bool}
    (h : ∀ i, Words.bit word i = true ↔ ∃ f, reported f = true ∧ f.bit = i) :
    word = flags (all.filter reported) :=
  ext_bit fun i => Bool.eq_iff_iff.mpr ((h i).trans (bit_flags_all reported i).symm)

/-- Deciding on one feature decides on one bit. -/
theorem exists_update_iff (reported : Feature → Bool) (g : Feature) (value : Bool) (i : ℕ) :
    (∃ f, Function.update reported g value f = true ∧ f.bit = i) ↔
      if g.bit = i then value = true else ∃ f, reported f = true ∧ f.bit = i := by
  split
  · next hi =>
    constructor
    · rintro ⟨f, hf, hbit⟩
      obtain rfl := bit_injective (hi.trans hbit.symm)
      rwa [Function.update_self] at hf
    · exact fun hvalue => ⟨g, by rwa [Function.update_self], hi⟩
  · next hi =>
    refine exists_congr fun f => and_congr_left fun hbit => ?_
    have hne : f ≠ g := by
      rintro rfl
      exact hi hbit
    rw [Function.update_of_ne hne]

end Feature

namespace X86_64

open SimurghHal.X86_64

/-- `detect_feature_flags`. -/
def detectFeatureFlags (cpuid : CpuidSource) : UInt64 :=
  let flags : UInt64 := 0
  let leaf1 := cpuid 1 0
  let flags := Feature.simd128.addIf (leaf1.edx &&& (1 : UInt32) <<< 26 ≠ 0) flags
  let flags := Feature.simd256.addIf (leaf1.ecx &&& (1 : UInt32) <<< 28 ≠ 0) flags
  let flags := Feature.cryptoAes.addIf (leaf1.ecx &&& (1 : UInt32) <<< 25 ≠ 0) flags
  let flags := Feature.wideAtomics.addIf (leaf1.ecx &&& (1 : UInt32) <<< 13 ≠ 0) flags
  let flags := Feature.virtualization.addIf (leaf1.ecx &&& (1 : UInt32) <<< 5 ≠ 0) flags
  let leaf7 := cpuid 7 0
  let flags := Feature.simd256.addIf (leaf7.ebx &&& (1 : UInt32) <<< 5 ≠ 0) flags
  let flags := Feature.simd512.addIf (leaf7.ebx &&& (1 : UInt32) <<< 16 ≠ 0) flags
  let flags := Feature.cryptoSha.addIf (leaf7.ebx &&& (1 : UInt32) <<< 29 ≠ 0) flags
  let leafA := cpuid 0x0A 0
  Feature.perfCounters.addIf (leafA.eax &&& 0xFF > 0) flags

/-- The features in the leaves of CPUID. The second 256-bit extension implies the first. -/
def reported (cpuid : CpuidSource) : Feature → Bool
  | .simd128 => bit32 (cpuid 1 0).edx 26
  | .simd256 => bit32 (cpuid 1 0).ecx 28 || bit32 (cpuid 7 0).ebx 5
  | .simd512 => bit32 (cpuid 7 0).ebx 16
  | .cryptoAes => bit32 (cpuid 1 0).ecx 25
  | .cryptoSha => bit32 (cpuid 7 0).ebx 29
  | .wideAtomics => bit32 (cpuid 1 0).ecx 13
  | .virtualization => bit32 (cpuid 1 0).ecx 5
  | .perfCounters => field (cpuid 0x0A 0).eax.toNat 0 8 ≠ 0
  | .scalableVector => false
  | .iommuCapable => false

theorem and_low_byte_pos_iff (w : UInt32) : w &&& 0xFF > 0 ↔ field w.toNat 0 8 ≠ 0 := by
  have hlow : w.toNat &&& 255 = w.toNat % 2 ^ 8 := Nat.and_two_pow_sub_one_eq_mod _ 8
  rw [gt_iff_lt, UInt32.lt_iff_toNat_lt, UInt32.toNat_and, field_eq]
  simp only [UInt32.reduceToNat, hlow, Nat.pow_zero, Nat.div_one]
  exact Nat.pos_iff_ne_zero

theorem detectFeatureFlags_eq (cpuid : CpuidSource) :
    detectFeatureFlags cpuid = Feature.flags (Feature.all.filter (reported cpuid)) := by
  refine Feature.eq_flags_of_bit fun i => ?_
  rw [Feature.exists_iff]
  simp (disch := decide) only [detectFeatureFlags, Feature.bit_addIf, bit_zero,
    and_bit_ne_zero_iff, and_low_byte_pos_iff, UInt32.reduceToNat, Bool.or_eq_true,
    Bool.and_eq_true, decide_eq_true_iff, reported, Bool.false_eq_true, false_and, false_or,
    or_and_right]
  -- the same features, found in another order
  exact iff_of_eq (by ac_rfl)

end X86_64

namespace Arm64

/-- `IdRegisters`, as far as features are read from it. -/
structure IdRegisters where
  idAa64isar0 : UInt64
  idAa64pfr0 : UInt64
  deriving DecidableEq, Repr

/-- `detect_feature_flags`. -/
def detectFeatureFlags (ids : IdRegisters) : UInt64 :=
  let flags : UInt64 := 0
  let advsimd := ids.idAa64pfr0 >>> 20 &&& 0xF
  let flags := Feature.simd128.addIf (advsimd ≠ 0xF) flags
  let sve := ids.idAa64pfr0 >>> 32 &&& 0xF
  let flags := Feature.scalableVector.addIf (sve ≠ 0) flags
  let flags := Feature.cryptoAes.addIf (ids.idAa64isar0 >>> 4 &&& 0xF ≥ 1) flags
  let flags := Feature.cryptoSha.addIf
    (ids.idAa64isar0 >>> 8 &&& 0xF ≥ 1 ∨ ids.idAa64isar0 >>> 12 &&& 0xF ≥ 1) flags
  let flags := Feature.wideAtomics.addIf (ids.idAa64isar0 >>> 20 &&& 0xF ≥ 2) flags
  Feature.virtualization.addIf (ids.idAa64pfr0 >>> 8 &&& 0xF ≠ 0) flags

/-- The features in the fields of the identification registers. -/
def reported (ids : IdRegisters) : Feature → Bool
  | .simd128 => field ids.idAa64pfr0.toNat 20 4 ≠ 15
  | .scalableVector => field ids.idAa64pfr0.toNat 32 4 ≠ 0
  | .cryptoAes => 1 ≤ field ids.idAa64isar0.toNat 4 4
  | .cryptoSha =>
    1 ≤ field ids.idAa64isar0.toNat 8 4 ∨ 1 ≤ field ids.idAa64isar0.toNat 12 4
  | .wideAtomics => 2 ≤ field ids.idAa64isar0.toNat 20 4
  | .virtualization => field ids.idAa64pfr0.toNat 8 4 ≠ 0
  | .simd256 | .simd512 | .iommuCapable | .perfCounters => false

theorem toNat_field (w : UInt64) {start : UInt64} (hstart : start.toNat < 64) :
    (w >>> start &&& 0xF).toNat = field w.toNat start.toNat 4 := by
  rw [toNat_shiftRight_and hstart (k := 4) rfl, field_eq]

theorem detectFeatureFlags_eq (ids : IdRegisters) :
    detectFeatureFlags ids = Feature.flags (Feature.all.filter (reported ids)) := by
  refine Feature.eq_flags_of_bit fun i => ?_
  rw [Feature.exists_iff]
  simp (disch := decide) only [detectFeatureFlags, Feature.bit_addIf, bit_zero,
    ne_eq, ge_iff_le, UInt64.le_iff_toNat_le, ← UInt64.toNat_inj, toNat_field, UInt64.reduceToNat,
    Bool.or_eq_true, Bool.and_eq_true, decide_eq_true_iff, reported, Bool.false_eq_true,
    false_and, false_or]
  exact iff_of_eq (by ac_rfl)

end Arm64

namespace Riscv64

def sbiExtBase : UInt64 := 0x10
def sbiBaseProbeExtension : UInt64 := 3
def sbiExtTime : UInt64 := 0x54494D45

/-- `sbi_call`: the error code and the value for an extension, a function and an argument. -/
abbrev Sbi := UInt64 → UInt64 → UInt64 → UInt64 × UInt64

def sbiProbeExtension (sbi : Sbi) (extId : UInt64) : Bool :=
  let (error, value) := sbi sbiExtBase sbiBaseProbeExtension extId
  error = 0 && value ≠ 0

/-- `detect_feature_flags`. What the SBI says of its timer does not come into it. -/
def detectFeatureFlags : UInt64 :=
  let flags := Feature.simd128.flag ||| Feature.wideAtomics.flag
  flags ||| Feature.perfCounters.flag

/-- The features of the target. -/
def reported : Feature → Bool
  | .simd128 | .wideAtomics | .perfCounters => true
  | .simd256 | .simd512 | .scalableVector | .cryptoAes | .cryptoSha | .virtualization
  | .iommuCapable => false

theorem detectFeatureFlags_eq :
    detectFeatureFlags = Feature.flags (Feature.all.filter reported) := by
  refine Feature.eq_flags_of_bit fun i => ?_
  rw [Feature.exists_iff]
  simp only [detectFeatureFlags, bit_or, Feature.bit_flag, Bool.or_eq_true, decide_eq_true_iff,
    reported, Bool.false_eq_true, false_and, false_or, true_and, or_assoc]

end Riscv64

/-! ### The bit for the IOMMU -/

open Manifest

theorem flag_iommuCapable : Feature.iommuCapable.flag = iommuCapable := rfl

/-- `mark_iommu_capable` decides on one feature and leaves the others alone. -/
theorem featureFlags_markIommuCapable (coreCount : UInt64) (reported : Feature → Bool)
    (present : Bool) :
    (CpuReport.markIommuCapable ⟨coreCount, Feature.flags (Feature.all.filter reported)⟩
        present).featureFlags =
      Feature.flags (Feature.all.filter (Function.update reported .iommuCapable present)) := by
  refine Feature.eq_flags_of_bit fun i => ?_
  rw [CpuReport.markIommuCapable, ← flag_iommuCapable, Feature.exists_update_iff]
  cases present with
  | true =>
    rw [if_pos rfl, bit_or, Bool.or_eq_true, Feature.bit_flags_all, Feature.bit_flag,
      decide_eq_true_iff]
    split
    · next hi => exact iff_of_true (.inr hi) rfl
    · next hi => exact or_iff_left hi
  | false =>
    rw [if_neg Bool.false_ne_true, bit_and_not, Bool.and_eq_true, Feature.bit_flags_all,
      Feature.bit_flag, Bool.not_eq_true', decide_eq_false_iff_not]
    split
    · next hi => exact iff_of_false (fun h => h.2 hi) Bool.false_ne_true
    · next hi => exact and_iff_left hi

end SimurghHal.Cpu
