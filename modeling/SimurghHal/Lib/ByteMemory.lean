import Mathlib.Tactic.Ring

/-!
# Words in a memory of bytes

Memory is a function from 64-bit addresses, which wrap around, to bytes. Words of eight bytes
are stored with the lowest byte first. A load gives back what was stored at its address, and
is not touched by stores that are `Apart` from it.

An array of records is filled in a loop, each record from what memory holds elsewhere
(`fillArray`). Every record is then in its place, and the rest of memory is as it was.
-/

namespace ByteMemory

/-- Memory by address. -/
abbrev Bytes := UInt64 → UInt8

/-- The little-endian number of some bytes. -/
def readLe (mem : Bytes) (addr : UInt64) : ℕ → ℕ
  | 0 => 0
  | n + 1 => (mem addr).toNat + 256 * readLe mem (addr + 1) n

def load64 (mem : Bytes) (addr : UInt64) : UInt64 := UInt64.ofNat (readLe mem addr 8)

def store64 (mem : Bytes) (addr value : UInt64) : Bytes := fun a =>
  if (a - addr).toNat < 8 then UInt8.ofNat (value.toNat >>> (8 * (a - addr).toNat)) else mem a

/-- Words at these two addresses share no byte. -/
def Apart (addr addr' : UInt64) : Prop := 8 ≤ addr - addr' ∧ 8 ≤ addr' - addr

instance (addr addr' : UInt64) : Decidable (Apart addr addr') :=
  inferInstanceAs (Decidable (_ ∧ _))

variable {mem mem' : Bytes} {addr addr' value : UInt64}

theorem toNat_add_sub_self (addr : UInt64) {i : ℕ} (hi : i < 2 ^ 64) :
    (addr + UInt64.ofNat i - addr).toNat = i := by
  rw [UInt64.add_comm, UInt64.add_sub_cancel, UInt64.toNat_ofNat', Nat.mod_eq_of_lt hi]

theorem add_one_add (addr : UInt64) (i : ℕ) :
    addr + 1 + UInt64.ofNat i = addr + UInt64.ofNat (i + 1) := by
  rw [UInt64.ofNat_add, UInt64.add_assoc, UInt64.add_comm 1]
  rfl

theorem readLe_congr {n : ℕ}
    (h : ∀ i < n, mem' (addr + UInt64.ofNat i) = mem (addr + UInt64.ofNat i)) :
    readLe mem' addr n = readLe mem addr n := by
  induction n generalizing addr with
  | zero => rfl
  | succ n ih =>
    have hfirst := h 0 (Nat.succ_pos n)
    have hzero : addr + UInt64.ofNat 0 = addr := UInt64.add_zero addr
    rw [hzero] at hfirst
    rw [readLe, readLe, hfirst, ih fun i hi => ?_]
    rw [add_one_add]
    exact h (i + 1) (Nat.succ_lt_succ hi)

/-- Bytes that are the digits of a number are read as that number. -/
theorem readLe_eq_mod {n v : ℕ}
    (h : ∀ i < n, mem (addr + UInt64.ofNat i) = UInt8.ofNat (v / 256 ^ i)) :
    readLe mem addr n = v % 256 ^ n := by
  induction n generalizing addr v with
  | zero => rw [readLe, Nat.pow_zero, Nat.mod_one]
  | succ n ih =>
    have hfirst := h 0 (Nat.succ_pos n)
    have hzero : addr + UInt64.ofNat 0 = addr := UInt64.add_zero addr
    rw [hzero, Nat.pow_zero, Nat.div_one] at hfirst
    have hrest : readLe mem (addr + 1) n = v / 256 % 256 ^ n := by
      refine ih fun i hi => ?_
      rw [add_one_add, h (i + 1) (Nat.succ_lt_succ hi), Nat.div_div_eq_div_mul, Nat.pow_succ']
    have hdigit : (UInt8.ofNat v).toNat = v % 256 := UInt8.toNat_ofNat'
    rw [readLe, hfirst, hrest, hdigit, Nat.pow_succ', Nat.mod_mul]

theorem load64_congr
    (h : ∀ i < 8, mem' (addr + UInt64.ofNat i) = mem (addr + UInt64.ofNat i)) :
    load64 mem' addr = load64 mem addr := by
  rw [load64, load64, readLe_congr h]

/-- The bits of a number are those of its bytes. -/
theorem testBit_readLe (mem : Bytes) (addr : UInt64) (n k : ℕ) :
    (readLe mem addr n).testBit k =
      (decide (k < 8 * n) && (mem (addr + UInt64.ofNat (k / 8))).toNat.testBit (k % 8)) := by
  induction n generalizing addr k with
  | zero => simp [readLe]
  | succ n ih =>
    have hbyte : (mem addr).toNat < 2 ^ 8 := (mem addr).toNat_lt
    have hsum : readLe mem addr (n + 1) = 2 ^ 8 * readLe mem (addr + 1) n + (mem addr).toNat := by
      rw [readLe, Nat.add_comm]
      rfl
    rw [hsum, Nat.testBit_two_pow_mul_add _ hbyte]
    by_cases hk : k < 8
    · have hzero : addr + UInt64.ofNat (k / 8) = addr := by
        rw [Nat.div_eq_of_lt hk]
        exact UInt64.add_zero addr
      rw [if_pos hk, hzero, Nat.mod_eq_of_lt hk, decide_eq_true (by omega), Bool.true_and]
    · have hdiv : (k - 8) / 8 + 1 = k / 8 := by omega
      have hmod : (k - 8) % 8 = k % 8 := by omega
      have hlt : (k - 8 < 8 * n) ↔ (k < 8 * (n + 1)) := by omega
      rw [if_neg hk, ih, add_one_add, hdiv, hmod, decide_eq_decide.mpr hlt]

theorem testBit_load64 (mem : Bytes) (addr : UInt64) (k : ℕ) :
    (load64 mem addr).toNat.testBit k =
      (decide (k < 64) && (mem (addr + UInt64.ofNat (k / 8))).toNat.testBit (k % 8)) := by
  rw [load64, UInt64.toNat_ofNat', Nat.testBit_mod_two_pow, testBit_readLe, ← Bool.and_assoc,
    Bool.and_self]

theorem store64_of_le {a : UInt64} (h : 8 ≤ (a - addr).toNat) :
    store64 mem addr value a = mem a :=
  if_neg (Nat.not_lt.mpr h)

@[simp] theorem load64_store64_self : load64 (store64 mem addr value) addr = value := by
  have hread : readLe (store64 mem addr value) addr 8 = value.toNat % 256 ^ 8 := by
    refine readLe_eq_mod fun i hi => ?_
    have hsub := toNat_add_sub_self addr (show i < 2 ^ 64 by omega)
    rw [store64, hsub, if_pos hi, Nat.shiftRight_eq_div_pow, pow_mul]
    rfl
  have hlt : value.toNat < 256 ^ 8 := value.toNat_lt
  rw [load64, hread, Nat.mod_eq_of_lt hlt, UInt64.ofNat_toNat]

theorem load64_store64_of_apart (h : Apart addr' addr) :
    load64 (store64 mem addr value) addr' = load64 mem addr' := by
  refine load64_congr fun i hi => store64_of_le ?_
  obtain ⟨hleft, hright⟩ := h
  have height : (8 : UInt64).toNat = 8 := rfl
  rw [UInt64.le_iff_toNat_le, UInt64.toNat_sub, height] at hleft hright
  rw [UInt64.toNat_sub, UInt64.toNat_add, UInt64.toNat_ofNat']
  have hlt := addr.toNat_lt
  have hlt' := addr'.toNat_lt
  omega

/-! ### Arrays of records -/

/-- The bytes of a number, the lowest first. -/
def leBytes (n x : ℕ) : List UInt8 := (List.range n).map fun i => UInt8.ofNat (x / 256 ^ i)

@[simp] theorem length_leBytes (n x : ℕ) : (leBytes n x).length = n := by
  rw [leBytes, List.length_map, List.length_range]

theorem readLe_of_leBytes {n x : ℕ}
    (h : ∀ i < n, some (mem (addr + UInt64.ofNat i)) = (leBytes n x)[i]?) :
    readLe mem addr n = x % 256 ^ n := by
  refine readLe_eq_mod fun i hi => Option.some.inj ((h i hi).trans ?_)
  rw [leBytes, List.getElem?_map, List.getElem?_range hi, Option.map_some]

def storeBytes (mem : Bytes) (addr : UInt64) (bytes : List UInt8) : Bytes := fun a =>
  bytes.getD (a - addr).toNat (mem a)

/-- Fills an array of records of `size` bytes, each computed from memory. -/
def fillArray (base : UInt64) (size : ℕ) (record : Bytes → ℕ → List UInt8) (n : ℕ)
    (mem : Bytes) : Bytes :=
  (List.range n).foldl
    (fun mem i => storeBytes mem (base + UInt64.ofNat (size * i)) (record mem i)) mem

theorem storeBytes_eq {bytes : List UInt8} {a : UInt64} {i : ℕ} (h : (a - addr).toNat = i)
    (hi : i < bytes.length) : storeBytes mem addr bytes a = bytes[i] := by
  rw [storeBytes, h, List.getD_eq_getElem?_getD, List.getElem?_eq_getElem hi, Option.getD_some]

theorem storeBytes_of_le {bytes : List UInt8} {a : UInt64} (h : bytes.length ≤ (a - addr).toNat) :
    storeBytes mem addr bytes a = mem a := by
  rw [storeBytes, List.getD_eq_getElem?_getD, List.getElem?_eq_none h, Option.getD_none]

/-- The distance of two addresses that are counted from one base. -/
theorem toNat_sub_offset (base a : UInt64) {j : ℕ} (hj : j < 2 ^ 64) :
    (a - (base + UInt64.ofNat j)).toNat = ((a - base).toNat + (2 ^ 64 - j)) % 2 ^ 64 := by
  rw [UInt64.toNat_sub, UInt64.toNat_sub, UInt64.toNat_add, UInt64.toNat_ofNat',
    Nat.mod_eq_of_lt hj]
  have ha := a.toNat_lt
  have hb := base.toNat_lt
  omega

theorem fillArray_zero (base : UInt64) (size : ℕ) (record : Bytes → ℕ → List UInt8)
    (mem : Bytes) : fillArray base size record 0 mem = mem := rfl

theorem fillArray_succ (base : UInt64) (size : ℕ) (record : Bytes → ℕ → List UInt8) (n : ℕ)
    (mem : Bytes) :
    fillArray base size record (n + 1) mem =
      storeBytes (fillArray base size record n mem) (base + UInt64.ofNat (size * n))
        (record (fillArray base size record n mem) n) := by
  rw [fillArray, List.range_succ, List.foldl_append]
  rfl

attribute [irreducible] fillArray

section Fill

variable {base : UInt64} {size n : ℕ} {record : Bytes → ℕ → List UInt8}

/-- Nothing behind or before the array is written. -/
theorem fillArray_outside (hlen : ∀ mem i, (record mem i).length = size)
    (hn : size * n ≤ 2 ^ 64) {a : UInt64} (ha : size * n ≤ (a - base).toNat) :
    fillArray base size record n mem a = mem a := by
  induction n with
  | zero => rw [fillArray_zero]
  | succ n ih =>
    rw [Nat.mul_succ] at hn ha
    have hlt := (a - base).toNat_lt
    rw [fillArray_succ, storeBytes_of_le, ih (by omega) (by omega)]
    rw [hlen, toNat_sub_offset base a (by omega)]
    omega

/-- Every record is in its place, as it is computed from memory before the loop. -/
theorem fillArray_inside (hlen : ∀ mem i, (record mem i).length = size) (hn : size * n ≤ 2 ^ 64)
    (hrecord : ∀ mem', ∀ i < n, (∀ a : UInt64, size * n ≤ (a - base).toNat → mem' a = mem a) →
      record mem' i = record mem i)
    {a : UInt64} {i j : ℕ} (hi : i < n) (hj : j < (record mem i).length)
    (ha : (a - base).toNat = size * i + j) :
    fillArray base size record n mem a = (record mem i)[j] := by
  have hj' : j < size := hlen mem i ▸ hj
  -- the loop up to `k`, while the records are those for all of `n`
  have hloop : ∀ k ≤ n, i < k → fillArray base size record k mem a = (record mem i)[j] := by
    intro k hk
    induction k with
    | zero => exact fun h => absurd h (Nat.not_lt_zero i)
    | succ k ih =>
      intro hik
      have hsize : size * (k + 1) ≤ size * n := Nat.mul_le_mul_left size hk
      rw [Nat.mul_succ] at hsize
      rw [fillArray_succ]
      obtain rfl | hlt := Nat.eq_or_lt_of_le (Nat.lt_succ_iff.mp hik)
      · -- the record itself is written, from memory that is unchanged outside
        have hsame : record (fillArray base size record i mem) i = record mem i := by
          refine hrecord _ _ hi fun b hb => fillArray_outside hlen (by omega) ?_
          exact (Nat.mul_le_mul_left size (by omega)).trans hb
        rw [hsame]
        refine storeBytes_eq ?_ hj
        rw [toNat_sub_offset base a (by omega), ha]
        omega
      · -- a later record is behind it
        have hbelow : size * (i + 1) ≤ size * k := Nat.mul_le_mul_left size hlt
        rw [Nat.mul_succ] at hbelow
        rw [storeBytes_of_le, ih (by omega) hlt]
        rw [hlen, toNat_sub_offset base a (by omega), ha]
        omega
  exact hloop n le_rfl hi

end Fill

end ByteMemory
