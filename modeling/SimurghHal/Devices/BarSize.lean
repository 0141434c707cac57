import SimurghHal.Devices.ComputeScan

/-!
# The size of a memory aperture

The registers of a base address as a device presents them: a memory aperture of `2 ^ k` bytes
in one or two registers whose low bits are hard-wired, an I/O range, or nothing. Sizing looks
at the first register alone, so it cannot tell the sizes from `2 ^ 32` on apart.
-/

namespace SimurghHal.Compute

/-- An aperture in memory. A wide one has its address in two registers. -/
structure MemoryBar where
  wide : Bool
  sizeLog : ℕ
  prefetchable : Bool
  base : UInt64
  le_sizeLog : 4 ≤ sizeLog
  sizeLog_le : sizeLog ≤ if wide then 63 else 31
  aligned : 2 ^ sizeLog ∣ base.toNat
  base_lt : wide = false → base.toNat < 2 ^ 32

namespace MemoryBar

variable (bar : MemoryBar)

/-- The read-only bits: the type in bits 1 and 2, and the prefetchable bit 3. -/
def typeBits : ℕ := (if bar.wide then 4 else 0) + if bar.prefetchable then 8 else 0

/-- The bits of a register from bit `k` on, none when that is past its end. -/
def bitsFrom (k : ℕ) : UInt32 := UInt32.ofNat (0x100000000 - 1 <<< min k 32)

/-- BAR 0. -/
def low : ConfigRegister :=
  ⟨UInt32.ofNat (bar.base.toNat % 0x100000000 + bar.typeBits), bitsFrom bar.sizeLog⟩

/-- BAR 1, when it is the upper half. -/
def high : ConfigRegister :=
  ⟨UInt32.ofNat (bar.base.toNat / 0x100000000), bitsFrom (bar.sizeLog - 32)⟩

end MemoryBar

/-- What stands at BAR 0 of a function. -/
inductive BarZero where
  | memory (bar : MemoryBar)
  /-- A range of I/O ports. Bit 0 says so. -/
  | io (register : ConfigRegister) (hio : register.value.toNat % 2 = 1)
  | unimplemented

namespace BarZero

/-- The registers of the function are as the device presents them. -/
def At (space : ConfigSpace) (p : PciFunction) : BarZero → Prop
  | .memory bar => space (p.register 0x10) = bar.low ∧
      (bar.wide = true → space (p.register 0x14) = bar.high)
  | .io register _ => space (p.register 0x10) = register
  | .unimplemented => ((space (p.register 0x10)).write 0xFFFFFFFF).value = 0

/-- The size in bytes of an aperture in memory. -/
def size : BarZero → Option ℕ
  | .memory bar => some (1 <<< bar.sizeLog)
  | .io _ _ => none
  | .unimplemented => none

/-- Of wide apertures, one that a single register can tell the size of. -/
def Sizeable : BarZero → Prop
  | .memory bar => bar.sizeLog ≤ 32
  | .io _ _ => True
  | .unimplemented => True

end BarZero

/-- `probe_bar_size` finds the size and leaves the configuration space as it was. -/
def SizedExactly (arch : Arch) (ecamBase : UInt64) (space : ConfigSpace) (p : PciFunction)
    (bar : BarZero) : Prop :=
  let probed := probeBarSize (mechanism arch ecamBase) space p.bus p.device p.function 0
  probed.1.map UInt64.toNat = bar.size ∧ probed.2 = space

theorem toNat_and_one (v : UInt32) : (v &&& 0x1).toNat = v.toNat % 2 := by
  rw [UInt32.toNat_and]
  exact Nat.and_two_pow_sub_one_eq_mod v.toNat 1

namespace MemoryBar

variable (bar : MemoryBar)

theorem typeBits_lt : bar.typeBits < 16 := by
  rw [typeBits]
  cases bar.wide <;> cases bar.prefetchable <;> decide

theorem typeBits_even : bar.typeBits % 2 = 0 := by
  rw [typeBits]
  cases bar.wide <;> cases bar.prefetchable <;> decide

theorem sizeLog_le_or_wide : bar.sizeLog < 32 ∨ 0 < bar.typeBits := by
  have hle := bar.sizeLog_le
  rw [typeBits]
  cases hwide : bar.wide with
  | false =>
    rw [hwide] at hle
    exact .inl (Nat.lt_succ_of_le hle)
  | true => exact .inr (Nat.lt_add_right _ (by decide))

theorem toNat_bitsFrom (k : ℕ) : (bitsFrom k).toNat = 2 ^ 32 - 2 ^ min k 32 := by
  have hpos := Nat.two_pow_pos (min k 32)
  rw [bitsFrom, Nat.one_shiftLeft, UInt32.toNat_ofNat']
  exact Nat.mod_eq_of_lt (by omega)

theorem toNat_not_bitsFrom (k : ℕ) : (~~~bitsFrom k).toNat = 2 ^ min k 32 - 1 := by
  have hpos := Nat.two_pow_pos (min k 32)
  have hle : 2 ^ min k 32 ≤ 2 ^ 32 := Nat.pow_le_pow_right (by decide) (Nat.min_le_right k 32)
  rw [UInt32.toNat_not, toNat_bitsFrom, UInt32.size]
  omega

/-- Below the size only the read-only bits are set. -/
theorem value_low_mod : bar.low.value.toNat % 2 ^ min bar.sizeLog 32 = bar.typeBits := by
  have hlow : 2 ^ 4 ≤ 2 ^ min bar.sizeLog 32 :=
    Nat.pow_le_pow_right (by decide) (Nat.le_min.mpr ⟨bar.le_sizeLog, by decide⟩)
  have htype := bar.typeBits_lt
  have hdvd : 2 ^ min bar.sizeLog 32 ∣ bar.base.toNat % 2 ^ 32 :=
    (Nat.dvd_mod_iff (pow_dvd_pow 2 (Nat.min_le_right _ _))).mpr
      ((pow_dvd_pow 2 (Nat.min_le_left _ _)).trans bar.aligned)
  have hdvd32 : 2 ^ min bar.sizeLog 32 ∣ 2 ^ 32 := pow_dvd_pow 2 (Nat.min_le_right _ _)
  show (UInt32.ofNat (bar.base.toNat % 2 ^ 32 + bar.typeBits)).toNat % _ = _
  rw [UInt32.toNat_ofNat', Nat.mod_mod_of_dvd _ hdvd32, Nat.add_mod,
    Nat.mod_eq_zero_of_dvd hdvd, Nat.zero_add, Nat.mod_mod, Nat.mod_eq_of_lt (by omega)]

/-- All ones leave the read-only bits and set the others from the size on. -/
theorem toNat_write_ones :
    (bar.low.write 0xFFFFFFFF).value.toNat =
      2 ^ 32 - 2 ^ min bar.sizeLog 32 + bar.typeBits := by
  have hlow : 2 ^ 4 ≤ 2 ^ min bar.sizeLog 32 :=
    Nat.pow_le_pow_right (by decide) (Nat.le_min.mpr ⟨bar.le_sizeLog, by decide⟩)
  have htype := bar.typeBits_lt
  have hones : (0xFFFFFFFF : UInt32) &&& bitsFrom bar.sizeLog = bitsFrom bar.sizeLog := by
    apply UInt32.toNat_inj.mp
    rw [UInt32.toNat_and, Nat.and_comm]
    exact (Nat.and_two_pow_sub_one_eq_mod _ 32).trans (Nat.mod_eq_of_lt (UInt32.toNat_lt _))
  have hdvd : (2 ^ 32 - 2 ^ min bar.sizeLog 32) % 2 ^ min bar.sizeLog 32 = 0 :=
    Nat.mod_eq_zero_of_dvd (Nat.dvd_sub (pow_dvd_pow 2 (Nat.min_le_right _ _)) dvd_rfl)
  show ((bar.low.value &&& ~~~bitsFrom bar.sizeLog) |||
    ((0xFFFFFFFF : UInt32) &&& bitsFrom bar.sizeLog)).toNat = _
  rw [hones, UInt32.toNat_or, UInt32.toNat_and, toNat_not_bitsFrom,
    Nat.and_two_pow_sub_one_eq_mod, value_low_mod, toNat_bitsFrom, Nat.or_comm,
    Words.or_eq_add _ hdvd (by omega)]

/-- The complement of the size bits is one less than the size, as far as one register goes. -/
theorem toNat_probed :
    ((~~~((bar.low.write 0xFFFFFFFF).value &&& 0xFFFFFFF0)).toUInt64 + 1).toNat =
      2 ^ min bar.sizeLog 32 := by
  have hle : 2 ^ min bar.sizeLog 32 ≤ 2 ^ 32 :=
    Nat.pow_le_pow_right (by decide) (Nat.min_le_right _ _)
  have hdvd : 2 ^ 4 ∣ 2 ^ min bar.sizeLog 32 :=
    pow_dvd_pow 2 (Nat.le_min.mpr ⟨bar.le_sizeLog, by decide⟩)
  have htype := bar.typeBits_lt
  have hpos := Nat.two_pow_pos (min bar.sizeLog 32)
  have hmask : (0xFFFFFFF0 : UInt32).toNat = 2 ^ 32 - 2 ^ 4 := rfl
  have hbits : ((bar.low.write 0xFFFFFFFF).value &&& 0xFFFFFFF0).toNat =
      2 ^ 32 - 2 ^ min bar.sizeLog 32 := by
    rw [UInt32.toNat_and, toNat_write_ones, hmask, Words.and_run _ (by decide)]
    obtain ⟨q, hq⟩ := hdvd
    omega
  have hone : (1 : UInt64).toNat = 1 := rfl
  rw [UInt64.toNat_add, UInt32.toNat_toUInt64, UInt32.toNat_not, hbits, UInt32.size, hone]
  omega

theorem barSize_low : (barSize bar.low).map UInt64.toNat = some (2 ^ min bar.sizeLog 32) := by
  have hmemory : ¬ bar.low.value &&& 0x1 ≠ 0 := by
    rw [not_not]
    apply UInt32.toNat_inj.mp
    have hle := bar.le_sizeLog
    have hdvd : 2 ∣ 2 ^ min bar.sizeLog 32 := dvd_pow_self 2 (by omega)
    rw [toNat_and_one, ← Nat.mod_mod_of_dvd _ hdvd, value_low_mod]
    exact bar.typeBits_even
  have himplemented : (bar.low.write 0xFFFFFFFF).value ≠ 0 := by
    intro hzero
    have hsum := bar.toNat_write_ones
    rw [hzero] at hsum
    obtain hlt | hwide := bar.sizeLog_le_or_wide
    · have : 2 ^ min bar.sizeLog 32 < 2 ^ 32 := Nat.pow_lt_pow_right (by decide) (by omega)
      simp only [UInt32.toNat_zero] at hsum
      omega
    · simp only [UInt32.toNat_zero] at hsum
      omega
  rw [barSize, if_neg hmemory, if_neg himplemented, Option.map_some, toNat_probed]

end MemoryBar

/-- What is found: the size, but of an aperture from `2 ^ 32` bytes on only that. -/
theorem probeBarSize_of_at {space : ConfigSpace} {p : PciFunction} {bar : BarZero}
    (mech : Mechanism) (hp : p.Addressable) (hbar : bar.At space p) :
    ((probeBarSize mech space p.bus p.device p.function 0).1).map UInt64.toNat =
      match bar with
      | .memory bar => some (2 ^ min bar.sizeLog 32)
      | .io _ _ => none
      | .unimplemented => none := by
  rw [probeBarSize_fst mech space hp]
  cases bar with
  | memory bar => rw [hbar.1, bar.barSize_low]
  | io register hio =>
    have hread : space (p.register 0x10) = register := hbar
    have hset : register.value &&& 0x1 ≠ 0 := by
      intro hzero
      have hmod := toNat_and_one register.value
      rw [hzero, UInt32.toNat_zero, hio] at hmod
      exact absurd hmod (by decide)
    rw [hread, barSize, if_pos hset]
    rfl
  | unimplemented =>
    have hzero : ((space (p.register 0x10)).write 0xFFFFFFFF).value = 0 := hbar
    rw [barSize, if_pos hzero]
    split <;> rfl

/-- On every architecture sizing finds the size of an aperture exactly when it is at most
`2 ^ 32`, nothing for an I/O range or a register that is not there, and changes nothing. -/
theorem sizedExactly_iff (arch : Arch) (ecamBase : UInt64) {space : ConfigSpace}
    {p : PciFunction} {bar : BarZero} (hp : p.Addressable) (hbar : bar.At space p) :
    SizedExactly arch ecamBase space p bar ↔ bar.Sizeable := by
  rw [SizedExactly, probeBarSize_snd, and_iff_left rfl, probeBarSize_of_at _ hp hbar]
  cases bar with
  | memory bar =>
    show some (2 ^ min bar.sizeLog 32) = some (1 <<< bar.sizeLog) ↔ bar.sizeLog ≤ 32
    rw [Option.some_inj, Nat.one_shiftLeft, Nat.pow_right_inj (by decide)]
    omega
  | io register hio => exact iff_of_true rfl trivial
  | unimplemented => exact iff_of_true rfl trivial

/-- A wide aperture at address 0. -/
def apertureOf (sizeLog : ℕ) (hle : 4 ≤ sizeLog) (hlt : sizeLog ≤ 63) : MemoryBar where
  wide := true
  sizeLog := sizeLog
  prefetchable := true
  base := 0
  le_sizeLog := hle
  sizeLog_le := hlt
  aligned := Nat.dvd_zero _
  base_lt := nofun

/-- A configuration space in which every function has this aperture. -/
def apertureSpace (bar : MemoryBar) : ConfigSpace := fun address =>
  if address.offset = 0x10 then bar.low
  else if address.offset = 0x14 then bar.high
  else ⟨0, 0⟩

theorem at_apertureSpace (bar : MemoryBar) (p : PciFunction) :
    (BarZero.memory bar).At (apertureSpace bar) p := by
  refine ⟨if_pos rfl, fun _ => ?_⟩
  exact (if_neg (show ¬ (0x14 : UInt8) = 0x10 by decide)).trans (if_pos rfl)

theorem sizedExactly_gigabyte :
    let bar := apertureOf 30 (by decide) (by decide)
    SizedExactly .x86_64 0 (apertureSpace bar) ⟨0, 0, 0⟩ (.memory bar) :=
  (sizedExactly_iff .x86_64 0 (by decide) (at_apertureSpace _ _)).mpr
    (show 30 ≤ 32 by decide)

/-- An aperture of 8 GiB is reported as 4 GiB. -/
theorem not_sizedExactly_eight_gigabytes :
    let bar := apertureOf 33 (by decide) (by decide)
    (BarZero.memory bar).At (apertureSpace bar) ⟨0, 0, 0⟩ ∧
      (probeBarSize .ports (apertureSpace bar) 0 0 0 0).1 = some 0x100000000 ∧
      (BarZero.memory bar).size = some 0x200000000 ∧
      ¬ SizedExactly .x86_64 0 (apertureSpace bar) ⟨0, 0, 0⟩ (.memory bar) := by
  intro bar
  have hfound : (probeBarSize .ports (apertureSpace bar) 0 0 0 0).1 = some 0x100000000 := by
    decide +kernel
  refine ⟨at_apertureSpace bar _, hfound, rfl, fun h => ?_⟩
  have hsize : ((probeBarSize .ports (apertureSpace bar) 0 0 0 0).1).map UInt64.toNat =
      some 0x200000000 := h.1
  rw [hfound] at hsize
  exact absurd hsize (by decide)

end SimurghHal.Compute
