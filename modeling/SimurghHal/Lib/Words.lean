import Mathlib.Data.Nat.Bitwise
import Mathlib.Logic.Function.Basic
import Mathlib.Tactic.Ring

/-!
# Bit fields of machine words

Masks, shifts and alignment on `UInt64`, expressed on natural numbers, and the
algebra of packing a field and a few flag bits into one word. The last part is
about setting and clearing single bits of `UInt32` words.
-/

namespace Words

/-- Bit `i` of a word. -/
def bit (x : UInt64) (i : ℕ) : Bool := x.toNat.testBit i

theorem bit_zero (i : ℕ) : bit 0 i = false := by
  rw [bit, UInt64.toNat_zero, Nat.zero_testBit]

@[simp] theorem bit_or (x y : UInt64) (i : ℕ) : bit (x ||| y) i = (bit x i || bit y i) := by
  simp [bit]

@[simp] theorem bit_and (x y : UInt64) (i : ℕ) : bit (x &&& y) i = (bit x i && bit y i) := by
  simp [bit]

theorem bit_and_not (x y : UInt64) (i : ℕ) :
    bit (x &&& ~~~y) i = (bit x i && !bit y i) := by
  have hbit : ∀ z : UInt64, bit z i = z.toBitVec.getLsbD i := fun _ => rfl
  rw [hbit, hbit, hbit, UInt64.toBitVec_and, UInt64.toBitVec_not, BitVec.getLsbD_and,
    BitVec.getLsbD_not]
  by_cases hi : i < 64
  · simp [hi]
  · simp [BitVec.getLsbD_of_ge _ _ (Nat.le_of_not_lt hi)]

theorem ext_bit {x y : UInt64} (h : ∀ i, bit x i = bit y i) : x = y :=
  UInt64.toNat_inj.mp (Nat.eq_of_testBit_eq h)

theorem and_or_distrib_right (x y z : UInt64) : (x ||| y) &&& z = (x &&& z) ||| (y &&& z) := by
  refine ext_bit fun i => ?_
  simp only [bit_and, bit_or, Bool.and_or_distrib_right]

theorem and_or_distrib_left (x y z : UInt64) : x &&& (y ||| z) = (x &&& y) ||| (x &&& z) := by
  refine ext_bit fun i => ?_
  simp only [bit_and, bit_or, Bool.and_or_distrib_left]

theorem sub_sub_self (x y : UInt64) : x - (x - y) = y := by
  apply UInt64.toNat_inj.mp
  simp only [UInt64.toNat_sub]
  have hx := x.toNat_lt
  have hy := y.toNat_lt
  omega

theorem and_one_eq_zero_iff (x : UInt64) : x &&& 1 = 0 ↔ bit x 0 = false := by
  rw [← UInt64.toNat_inj, UInt64.toNat_and, bit]
  simp only [UInt64.reduceToNat, Nat.and_one_is_mod, Nat.testBit_zero]
  rw [decide_eq_false_iff_not]
  omega

/-! ### Masks -/

/-- A field of `k` bits above bit `s`. -/
theorem toNat_shiftRight_and {x s m : UInt64} {k : ℕ} (hs : s.toNat < 64)
    (hm : m.toNat = 2 ^ k - 1) :
    ((x >>> s) &&& m).toNat = x.toNat / 2 ^ s.toNat % 2 ^ k := by
  rw [UInt64.toNat_and, UInt64.toNat_shiftRight, hm, Nat.and_two_pow_sub_one_eq_mod,
    Nat.mod_eq_of_lt hs, Nat.shiftRight_eq_div_pow]

/-- Masking with a run of ones from bit `a` up to bit `b` keeps exactly these bits. -/
theorem and_run (x : ℕ) {a b : ℕ} (hab : a ≤ b) :
    x &&& (2 ^ b - 2 ^ a) = x / 2 ^ a * 2 ^ a % 2 ^ b := by
  have hrun : 2 ^ b - 2 ^ a = (2 ^ (b - a) - 1) * 2 ^ a := by
    rw [Nat.sub_mul, ← pow_add, Nat.sub_add_cancel hab, one_mul]
  rw [hrun]
  apply Nat.eq_of_testBit_eq
  intro i
  rw [Nat.testBit_and, Nat.testBit_mul_two_pow, Nat.testBit_two_pow_sub_one,
    Nat.testBit_mod_two_pow, Nat.testBit_mul_two_pow, Nat.testBit_div_two_pow]
  by_cases hi : a ≤ i
  · have hiff : (i - a < b - a) ↔ (i < b) := by omega
    simp only [hi, hiff, decide_true, Bool.true_and]
    rw [Nat.sub_add_cancel hi, Bool.and_comm]
  · simp [hi]

theorem toNat_and_run {x m : UInt64} {a b : ℕ} (hab : a ≤ b) (hm : m.toNat = 2 ^ b - 2 ^ a) :
    (x &&& m).toNat = x.toNat / 2 ^ a * 2 ^ a % 2 ^ b := by
  rw [UInt64.toNat_and, hm, and_run _ hab]

/-- A word with no bits outside the run is left alone by the mask. -/
theorem and_run_eq_self {x m : UInt64} {a b : ℕ} (hab : a ≤ b) (hm : m.toNat = 2 ^ b - 2 ^ a)
    (hlt : x.toNat < 2 ^ b) (hdvd : x.toNat % 2 ^ a = 0) : x &&& m = x := by
  apply UInt64.toNat_inj.mp
  rw [toNat_and_run hab hm, Nat.div_mul_cancel (Nat.dvd_of_mod_eq_zero hdvd), Nat.mod_eq_of_lt hlt]

/-- Masking off flag bits recovers the field they were packed with. -/
theorem or_and_of_disjoint {x c m : UInt64} (hx : x &&& m = x) (hc : c &&& m = 0) :
    (x ||| c) &&& m = x := by
  rw [and_or_distrib_right, hx, hc, UInt64.or_zero]

/-- Outside the mask a packed word shows its flag bits. -/
theorem bit_or_of_and_eq_self {x c m : UInt64} {i : ℕ} (hx : x &&& m = x)
    (hm : bit m i = false) : bit (x ||| c) i = bit c i := by
  have hxi : bit x i = false := by
    rw [← hx, bit_and, hm, Bool.and_false]
  rw [bit_or, hxi, Bool.false_or]

/-! ### Packing by shifts -/

/-- Bits below an aligned number are added to it. -/
theorem or_eq_add {x y : ℕ} (k : ℕ) (hx : x % 2 ^ k = 0) (hy : y < 2 ^ k) : x ||| y = x + y := by
  obtain ⟨q, rfl⟩ := Nat.dvd_of_mod_eq_zero hx
  rw [Nat.two_pow_add_eq_or_of_lt hy]

/-- Bits below an aligned word are not in it. -/
theorem and_eq_zero_of_lt {x y : UInt64} {k : ℕ} (hx : x.toNat % 2 ^ k = 0)
    (hy : y.toNat < 2 ^ k) : x &&& y = 0 := by
  obtain ⟨q, hq⟩ := Nat.dvd_of_mod_eq_zero hx
  refine ext_bit fun i => ?_
  rw [bit_and, bit, bit, hq, Nat.mul_comm, Nat.testBit_mul_two_pow]
  by_cases hi : k ≤ i
  · have hbit : y.toNat.testBit i = false :=
      Nat.testBit_lt_two_pow (hy.trans_le (Nat.pow_le_pow_right (by decide) hi))
    rw [hbit, Bool.and_false, bit]
    exact (Nat.zero_testBit i).symm
  · rw [decide_eq_false hi, Bool.false_and, Bool.false_and, bit]
    exact (Nat.zero_testBit i).symm

/-- Flag bits below an aligned word are added to it. -/
theorem toNat_or_low {x c : UInt64} {k : ℕ} (hx : x.toNat % 2 ^ k = 0) (hc : c.toNat < 2 ^ k) :
    (x ||| c).toNat = x.toNat + c.toNat := by
  rw [UInt64.toNat_or, or_eq_add k hx hc]

/-- The field of a number that starts at a bit and has some width. -/
def field (n start width : ℕ) : ℕ := n >>> start % (1 <<< width)

theorem field_eq (n start width : ℕ) : field n start width = n / 2 ^ start % 2 ^ width := by
  rw [field, Nat.shiftRight_eq_div_pow, Nat.one_shiftLeft]

/-- A page number moved to bit 10 with ten flag bits below it. -/
theorem toNat_pack {x c : UInt64} (hc : c.toNat < 2 ^ 10) :
    (((x >>> 12) <<< 10) ||| c).toNat = x.toNat / 4096 * 1024 + c.toNat := by
  have hx := x.toNat_lt
  have hshift : ((x >>> 12) <<< 10).toNat = x.toNat / 4096 * 1024 := by
    rw [UInt64.toNat_shiftLeft, UInt64.toNat_shiftRight]
    simp only [UInt64.reduceToNat, Nat.reduceMod, Nat.shiftRight_eq_div_pow, Nat.shiftLeft_eq,
      Nat.reducePow]
    omega
  rw [toNat_or_low (k := 10) (by rw [hshift]; omega) hc, hshift]

theorem bit_pack {x c : UInt64} {i : ℕ} (hi : i < 10) :
    bit (((x >>> 12) <<< 10) ||| c) i = bit c i := by
  have hlow : bit ((x >>> 12) <<< 10) i = false := by
    rw [bit, UInt64.toNat_shiftLeft, Nat.testBit_mod_two_pow]
    simp [Nat.testBit_shiftLeft]
    omega
  rw [bit_or, hlow, Bool.false_or]

theorem pack_shiftRight {x c : UInt64} (hc : c.toNat < 2 ^ 10) :
    (((x >>> 12) <<< 10) ||| c) >>> 10 = x >>> 12 := by
  apply UInt64.toNat_inj.mp
  rw [UInt64.toNat_shiftRight, toNat_pack hc, UInt64.toNat_shiftRight]
  simp only [UInt64.reduceToNat, Nat.reduceMod, Nat.shiftRight_eq_div_pow, Nat.reducePow]
  omega

/-! ### Single bits of 32-bit words -/

/-- Bit `i` of a 32-bit word. -/
def bit32 (x : UInt32) (i : ℕ) : Bool := x.toBitVec.getLsbD i

theorem bit32_one_shiftLeft {b : UInt32} (hb : b.toNat < 32) (i : ℕ) :
    bit32 (1 <<< b) i = decide (i = b.toNat) := by
  simp only [bit32, UInt32.toBitVec_shiftLeft, BitVec.shiftLeft_eq', BitVec.toNat_umod,
    UInt32.toBitVec_ofNat]
  rw [BitVec.getLsbD_shiftLeft, BitVec.getLsbD_one]
  simp only [UInt32.toNat_toBitVec]
  grind

/-- Setting bit `b` changes no other bit. -/
theorem bit32_set {w b : UInt32} (hb : b.toNat < 32) (i : ℕ) :
    bit32 (w ||| 1 <<< b) i = (bit32 w i || decide (i = b.toNat)) := by
  rw [← bit32_one_shiftLeft hb]
  simp [bit32]

/-- Clearing bit `b` changes no other bit. -/
theorem bit32_clear {w b : UInt32} (hb : b.toNat < 32) {i : ℕ} (hi : i < 32) :
    bit32 (w &&& ~~~(1 <<< b)) i = (bit32 w i && !decide (i = b.toNat)) := by
  rw [← bit32_one_shiftLeft hb]
  simp [bit32, hi]

/-- Testing one bit of a word. -/
theorem and_bit_ne_zero_iff (w : UInt32) {k : UInt32} (hk : k.toNat < 32) :
    w &&& (1 : UInt32) <<< k ≠ 0 ↔ bit32 w k.toNat = true := by
  rw [← not_iff_not, not_not, Bool.not_eq_true]
  constructor
  · intro hzero
    have hbit := congrArg (bit32 · k.toNat) hzero
    have hmask := bit32_one_shiftLeft hk k.toNat
    simp only [bit32, UInt32.toBitVec_and, BitVec.getLsbD_and, UInt32.toBitVec_ofNat,
      BitVec.getLsbD_zero] at hbit hmask ⊢
    rw [hmask] at hbit
    simpa using hbit
  · intro hclear
    apply UInt32.toBitVec_inj.mp
    refine BitVec.eq_of_getLsbD_eq fun i _ => ?_
    have hmask := bit32_one_shiftLeft hk i
    simp only [bit32, UInt32.toBitVec_and, BitVec.getLsbD_and] at hclear hmask ⊢
    rw [hmask]
    by_cases hi : i = k.toNat
    · rw [hi, hclear]
      simp
    · simp [hi]

/-- Bit `i` of a bit array stored in 32-bit words. -/
def arrayBit (words : ℕ → UInt32) (i : ℕ) : Bool := bit32 (words (i / 32)) (i % 32)

section ArrayBit

variable {words : ℕ → UInt32} {k : ℕ} {b : UInt32}

/-- One other bit in one word is one other bit in the array. -/
theorem arrayBit_update {word : UInt32} {value : Bool}
    (hword : ∀ i < 32, bit32 word i = if i = k % 32 then value else bit32 (words (k / 32)) i)
    (i : ℕ) :
    arrayBit (Function.update words (k / 32) word) i = if i = k then value else arrayBit words i := by
  unfold arrayBit
  by_cases hi : i / 32 = k / 32
  · have hiff : i % 32 = k % 32 ↔ i = k := by omega
    rw [hi, Function.update_self, hword _ (by omega)]
    simp only [hiff]
  · have hne : i ≠ k := fun h => hi (by rw [h])
    rw [Function.update_of_ne hi, if_neg hne]

/-- Setting one bit of one word sets one bit of the array. -/
theorem arrayBit_set (hb : b.toNat = k % 32) (i : ℕ) :
    arrayBit (Function.update words (k / 32) (words (k / 32) ||| 1 <<< b)) i =
      if i = k then true else arrayBit words i := by
  refine arrayBit_update (fun j _ => ?_) i
  rw [bit32_set (by omega), hb]
  by_cases hj : j = k % 32 <;> simp [hj]

/-- Clearing one bit of one word clears one bit of the array. -/
theorem arrayBit_clear (hb : b.toNat = k % 32) (i : ℕ) :
    arrayBit (Function.update words (k / 32) (words (k / 32) &&& ~~~(1 <<< b))) i =
      if i = k then false else arrayBit words i := by
  refine arrayBit_update (fun j hj => ?_) i
  rw [bit32_clear (by omega) hj, hb]
  by_cases hjk : j = k % 32 <;> simp [hjk]

end ArrayBit

/-- The sum of some words, which wraps. -/
def wrapSum (xs : List UInt64) : UInt64 := xs.foldl (· + ·) 0

/-- No addition wraps while the words are summed up. -/
def SumsExactly (xs : List UInt64) : Prop :=
  ∀ k, (wrapSum (xs.take k)).toNat = ((xs.take k).map UInt64.toNat).sum

theorem toNat_foldl_add (xs : List UInt64) (start : UInt64) :
    (xs.foldl (· + ·) start).toNat = (start.toNat + (xs.map UInt64.toNat).sum) % 2 ^ 64 := by
  induction xs generalizing start with
  | nil => exact (Nat.mod_eq_of_lt start.toNat_lt).symm
  | cons x xs ih =>
    rw [List.foldl_cons, ih, UInt64.toNat_add, Nat.mod_add_mod, List.map_cons, List.sum_cons,
      Nat.add_assoc]

theorem toNat_wrapSum (xs : List UInt64) :
    (wrapSum xs).toNat = (xs.map UInt64.toNat).sum % 2 ^ 64 := by
  rw [wrapSum, toNat_foldl_add, UInt64.toNat_zero, Nat.zero_add]

/-- The additions are exact when the last one is. -/
theorem sumsExactly_iff (xs : List UInt64) :
    SumsExactly xs ↔ (xs.map UInt64.toNat).sum < 2 ^ 64 := by
  constructor
  · intro h
    have hall := h xs.length
    rw [List.take_length] at hall
    rw [← hall]
    exact (wrapSum xs).toNat_lt
  · intro h k
    have hsplit : (xs.map UInt64.toNat).sum =
        ((xs.take k).map UInt64.toNat).sum + ((xs.drop k).map UInt64.toNat).sum := by
      rw [← List.sum_append, ← List.map_append, List.take_append_drop]
    rw [toNat_wrapSum, Nat.mod_eq_of_lt]
    omega

end Words
