import SimurghHal.Core.Error
import SimurghHal.Lib.Words

/-!
# Interrupts between cores (`hal-*/src/interrupt.rs`)

`send_ipi` turns the index of a core into a destination in four formats: an APIC ID of 8 or 32
bits, a list of 16 cores of the GIC, and a mask of 64 harts for the SBI. The index is compared
with the number of cores after it is cut to 32 bits, and then shifted into its field as it is.
-/

namespace SimurghHal.Interrupt

/-- What sends the interrupt. -/
inductive Interface where
  | xapic
  | x2apic
  | gicv3
  | sbi
  deriving DecidableEq, Repr

/-- A write to a register of the controller, or a call of the SBI. -/
inductive Write where
  | icrHigh (value : UInt32)
  | icrLow (value : UInt32)
  | icr (value : UInt64)
  | sgi1r (value : UInt64)
  | sbiSendIpi (hartMask hartMaskBase : UInt64)
  deriving DecidableEq, Repr

/-- `write_icr` in the two modes of the local APIC. -/
def writeXapicIcr (destinationApicId lowBits : UInt32) : List Write :=
  [.icrHigh (destinationApicId <<< 24), .icrLow lowBits]

def writeX2apicIcr (destinationApicId lowBits : UInt32) : List Write :=
  [.icr ((destinationApicId.toUInt64 <<< 32) ||| lowBits.toUInt64)]

/-- The vector with fixed delivery to one destination, and the level asserted. -/
def icrLow (vector : UInt8) : UInt32 := vector.toUInt32 ||| (1 : UInt32) <<< 14

/-- `1 << target_core`. The shift is taken modulo 64. -/
def coreBit (targetCore : UInt64) : UInt64 := 1 <<< targetCore

/-- The value for `ICC_SGI1R_EL1`: the number of the SGI and the target list. -/
def sgiValue (targetCore : UInt64) (vector : UInt8) : UInt64 :=
  let sgiId := (vector &&& 0x0F).toUInt64
  (sgiId <<< 24) ||| (coreBit targetCore <<< 0)

/-- The writes of `send_ipi` once the target is accepted. The SBI takes no vector. -/
def ipiWrites (interface : Interface) (targetCore : UInt64) (vector : UInt8) : List Write :=
  match interface with
  | .xapic => writeXapicIcr targetCore.toUInt32 (icrLow vector)
  | .x2apic => writeX2apicIcr targetCore.toUInt32 (icrLow vector)
  | .gicv3 => [.sgi1r (sgiValue targetCore vector)]
  | .sbi => [.sbiSendIpi (coreBit targetCore) 0]

/-- `send_ipi`: the result and the writes. -/
def sendIpi (interface : Interface) (ipiTargetCoreCount : UInt32) (targetCore : UInt64)
    (vector : UInt8) : Except HalError Unit × List Write :=
  if ipiTargetCoreCount ≤ targetCore.toUInt32 then (.error .invalidIpiTarget, [])
  else (.ok (), ipiWrites interface targetCore vector)

/-! ### What the writes mean -/

/-- A command that the hardware carries out. Of a command of the local APIC the destination is
given with the one that stands for all cores. -/
inductive Command where
  | apic (destination broadcast : ℕ) (low : UInt32)
  | sgi (value : UInt64)
  | harts (mask base : UInt64)
  deriving DecidableEq, Repr

/-- The commands that writes give rise to. A write to the low half of the ICR sends, with the
destination that is in the high half at that time. -/
def issued (icrHigh : UInt32) : List Write → List Command
  | [] => []
  | .icrHigh value :: writes => issued value writes
  | .icrLow value :: writes =>
    .apic (Words.field icrHigh.toNat 24 8) 0xFF value :: issued icrHigh writes
  | .icr value :: writes =>
    .apic (Words.field value.toNat 32 32) 0xFFFFFFFF value.toUInt32 :: issued icrHigh writes
  | .sgi1r value :: writes => .sgi value :: issued icrHigh writes
  | .sbiSendIpi mask base :: writes => .harts mask base :: issued icrHigh writes

/-- The command interrupts this core, when `self` carries it out. Cores are numbered by APIC
IDs, by the affinity level 0, or by hart IDs. -/
def Command.Designates (self : ℕ) (command : Command) (core : ℕ) : Prop :=
  match command with
  | .apic destination broadcast low =>
    -- the destination shorthand: none, the sender, all, all but the sender
    match Words.field low.toNat 18 2 with
    | 0 => destination = broadcast ∨ destination = core
    | 1 => core = self
    | 2 => True
    | _ => core ≠ self
  | .sgi value =>
    -- `IRM` asks for all but the sender; else `Aff3`, `Aff2`, `Aff1`, `RS` and the target list
    if Words.field value.toNat 40 1 = 1 then core ≠ self
    else Words.field value.toNat 48 8 = 0 ∧ Words.field value.toNat 32 8 = 0 ∧
      Words.field value.toNat 16 8 = 0 ∧ core / 16 = Words.field value.toNat 44 4 ∧
        (Words.field value.toNat 0 16).testBit (core % 16) = true
  | .harts mask base => base.toNat ≤ core ∧ core - base.toNat < 64 ∧
      mask.toNat.testBit (core - base.toNat) = true

/-- The vector, or the number of the SGI. -/
def Command.number : Command → Option ℕ
  | .apic _ _ low => some (Words.field low.toNat 0 8)
  | .sgi value => some (Words.field value.toNat 24 4)
  | .harts _ _ => none

/-- The fields beside destination and number are as `send_ipi` means them: fixed delivery with
the level asserted, and nothing in reserved bits. -/
def Command.Plain : Command → Prop
  | .apic _ _ low => Words.field low.toNat 8 24 = 0x40
  | .sgi value => Words.field value.toNat 28 4 = 0 ∧ Words.field value.toNat 41 3 = 0 ∧
      Words.field value.toNat 56 8 = 0
  | .harts _ base => base = 0

/-- The number that a command is to carry. -/
def Interface.number (vector : UInt8) : Interface → Option ℕ
  | .xapic => some vector.toNat
  | .x2apic => some vector.toNat
  | .gicv3 => some (vector.toNat % 16)
  | .sbi => none

/-- The command interrupts the target and no other core. -/
structure Command.Addresses (command : Command) (interface : Interface) (self : ℕ)
    (targetCore : UInt64) (vector : UInt8) : Prop where
  designates_iff : ∀ core, command.Designates self core ↔ core = targetCore.toNat
  number_eq : command.number = interface.number vector
  plain : command.Plain

/-- `send_ipi` sends one command to exactly the target, a core below the count, or it refuses
and writes nothing. -/
def AddressesOrRefuses (interface : Interface) (ipiTargetCoreCount : UInt32)
    (targetCore : UInt64) (vector : UInt8) (self : ℕ) (icrHigh : UInt32) : Prop :=
  let outcome := sendIpi interface ipiTargetCoreCount targetCore vector
  (outcome.1 = .ok () ∧ targetCore.toNat < ipiTargetCoreCount.toNat ∧
      ∃ command, issued icrHigh outcome.2 = [command] ∧
        command.Addresses interface self targetCore vector) ∨
    outcome = (.error .invalidIpiTarget, [])

/-- The number of cores that the destination of an interface has room for. -/
def Interface.room : Interface → ℕ
  | .xapic => 255
  | .x2apic => 0x100000000
  | .gicv3 => 16
  | .sbi => 64

/-! ### Destinations of the local APIC -/

theorem toNat_icrLow (vector : UInt8) : (icrLow vector).toNat = 0x4000 + vector.toNat := by
  have hvector := vector.toNat_lt
  have hlevel : ((1 : UInt32) <<< 14).toNat = 0x4000 := by decide
  rw [icrLow, UInt32.toNat_or, UInt8.toNat_toUInt32, hlevel, Nat.or_comm,
    Words.or_eq_add 14 (by decide) (by omega)]

theorem toNat_toUInt32_shift (targetCore : UInt64) :
    (targetCore.toUInt32 <<< 24).toNat = targetCore.toNat % 256 * 2 ^ 24 := by
  rw [UInt32.toNat_shiftLeft, UInt64.toNat_toUInt32, Nat.shiftLeft_eq]
  have hshift : (24 : UInt32).toNat % 32 = 24 := rfl
  rw [hshift]
  omega

theorem toNat_x2apicIcr (targetCore : UInt64) (low : UInt32) :
    ((targetCore.toUInt32.toUInt64 <<< 32) ||| low.toUInt64).toNat =
      targetCore.toNat % 2 ^ 32 * 2 ^ 32 + low.toNat := by
  have hlow := low.toNat_lt
  have hhigh : (targetCore.toUInt32.toUInt64 <<< 32).toNat =
      targetCore.toNat % 2 ^ 32 * 2 ^ 32 := by
    have hshift : (32 : UInt64).toNat % 64 = 32 := rfl
    rw [UInt64.toNat_shiftLeft, UInt32.toNat_toUInt64, UInt64.toNat_toUInt32, Nat.shiftLeft_eq,
      hshift]
    omega
  rw [UInt64.toNat_or, UInt32.toNat_toUInt64, hhigh, Words.or_eq_add 32 (by omega) hlow]

/-- A fixed interrupt to one destination addresses the target exactly when the destination is
the target and does not stand for all cores. -/
theorem apic_addresses_iff {interface : Interface} {destination broadcast self : ℕ}
    {targetCore : UInt64} {vector : UInt8} (hnumber : interface.number vector = some vector.toNat) :
    (Command.apic destination broadcast (icrLow vector)).Addresses interface self targetCore
        vector ↔ destination = targetCore.toNat ∧ destination ≠ broadcast := by
  have hvector := vector.toNat_lt
  have hshorthand : Words.field (icrLow vector).toNat 18 2 = 0 := by
    rw [Words.field_eq, toNat_icrLow]
    omega
  have hdesignates : ∀ core, (Command.apic destination broadcast (icrLow vector)).Designates self
      core ↔ destination = broadcast ∨ destination = core := by
    intro core
    rw [Command.Designates, hshorthand]
    exact Iff.rfl
  constructor
  · rintro ⟨hiff, -, -⟩
    have htarget := (hdesignates _).mp ((hiff targetCore.toNat).mpr rfl)
    have hne : destination ≠ broadcast := by
      intro hall
      -- a broadcast designates the next core too
      have hnext := (hiff (targetCore.toNat + 1)).mp ((hdesignates _).mpr (.inl hall))
      omega
    exact ⟨htarget.resolve_left hne, hne⟩
  · rintro ⟨rfl, hne⟩
    refine ⟨fun core => ?_, ?_, ?_⟩
    · rw [hdesignates, or_iff_right hne]
      exact eq_comm
    · rw [hnumber, Command.number, Words.field_eq, toNat_icrLow]
      congr 1
      omega
    · rw [Command.Plain, Words.field_eq, toNat_icrLow]
      omega

theorem issued_xapic (icrHigh : UInt32) (targetCore : UInt64) (vector : UInt8) :
    issued icrHigh (ipiWrites .xapic targetCore vector) =
      [.apic (targetCore.toNat % 256) 0xFF (icrLow vector)] := by
  have hfield : Words.field (targetCore.toUInt32 <<< 24).toNat 24 8 = targetCore.toNat % 256 := by
    rw [Words.field_eq, toNat_toUInt32_shift]
    omega
  rw [← hfield]
  rfl

theorem issued_x2apic (icrHigh : UInt32) (targetCore : UInt64) (vector : UInt8) :
    issued icrHigh (ipiWrites .x2apic targetCore vector) =
      [.apic (targetCore.toNat % 2 ^ 32) 0xFFFFFFFF (icrLow vector)] := by
  have hvalue := toNat_x2apicIcr targetCore (icrLow vector)
  have hlt := (icrLow vector).toNat_lt
  have hfield : Words.field ((targetCore.toUInt32.toUInt64 <<< 32) |||
      (icrLow vector).toUInt64).toNat 32 32 = targetCore.toNat % 2 ^ 32 := by
    rw [Words.field_eq, hvalue]
    omega
  have hlow : ((targetCore.toUInt32.toUInt64 <<< 32) ||| (icrLow vector).toUInt64).toUInt32 =
      icrLow vector := by
    apply UInt32.toNat_inj.mp
    rw [UInt64.toNat_toUInt32, hvalue]
    omega
  rw [ipiWrites, writeX2apicIcr, issued, hfield, hlow, issued]

/-! ### Target lists and hart masks -/

theorem toNat_coreBit (targetCore : UInt64) :
    (coreBit targetCore).toNat = 2 ^ (targetCore.toNat % 64) := by
  have hlt : 2 ^ (targetCore.toNat % 64) < 2 ^ 64 :=
    Nat.pow_lt_pow_right (by decide) (Nat.mod_lt _ (by decide))
  rw [coreBit, UInt64.toNat_shiftLeft, Nat.shiftLeft_eq]
  show 1 * 2 ^ (targetCore.toNat % 64) % 2 ^ 64 = _
  rw [Nat.one_mul, Nat.mod_eq_of_lt hlt]

theorem toNat_sgiId (vector : UInt8) :
    ((vector &&& 0x0F).toUInt64 <<< 24).toNat = vector.toNat % 16 * 2 ^ 24 := by
  have hmask : (vector &&& 0x0F).toNat = vector.toNat % 16 := by
    rw [UInt8.toNat_and]
    exact Nat.and_two_pow_sub_one_eq_mod vector.toNat 4
  have hshift : (24 : UInt64).toNat % 64 = 24 := rfl
  rw [UInt64.toNat_shiftLeft, UInt8.toNat_toUInt64, hmask, Nat.shiftLeft_eq, hshift]
  omega

theorem toNat_sgiValue (targetCore : UInt64) (vector : UInt8) :
    (sgiValue targetCore vector).toNat =
      vector.toNat % 16 * 2 ^ 24 ||| 2 ^ (targetCore.toNat % 64) := by
  have hzero : coreBit targetCore <<< 0 = coreBit targetCore := by
    apply UInt64.toNat_inj.mp
    rw [UInt64.toNat_shiftLeft]
    exact Nat.mod_eq_of_lt (coreBit targetCore).toNat_lt
  rw [sgiValue, UInt64.toNat_or, toNat_sgiId, hzero, toNat_coreBit]

theorem sgi_addresses_of_lt {targetCore : UInt64} (vector : UInt8) (self : ℕ)
    (h : targetCore.toNat < 16) :
    (Command.sgi (sgiValue targetCore vector)).Addresses .gicv3 self targetCore vector := by
  have hpow : 2 ^ targetCore.toNat < 2 ^ 16 := Nat.pow_lt_pow_right (by decide) h
  have hvalue : (sgiValue targetCore vector).toNat =
      vector.toNat % 16 * 2 ^ 24 + 2 ^ targetCore.toNat := by
    rw [toNat_sgiValue, Nat.mod_eq_of_lt (show targetCore.toNat < 64 by omega),
      Words.or_eq_add 24 (by omega) (by omega)]
  have hlist : Words.field (sgiValue targetCore vector).toNat 0 16 = 2 ^ targetCore.toNat := by
    have hid : vector.toNat % 16 * 2 ^ 24 = 2 ^ 16 * (vector.toNat % 16 * 2 ^ 8) := by omega
    rw [Words.field_eq, hvalue, Nat.pow_zero, Nat.div_one, hid, Nat.mul_add_mod,
      Nat.mod_eq_of_lt hpow]
  have hall : Words.field (sgiValue targetCore vector).toNat 40 1 ≠ 1 := by
    rw [Words.field_eq, hvalue]
    omega
  have hrange : Words.field (sgiValue targetCore vector).toNat 44 4 = 0 := by
    rw [Words.field_eq, hvalue]
    omega
  have haff : Words.field (sgiValue targetCore vector).toNat 48 8 = 0 ∧
      Words.field (sgiValue targetCore vector).toNat 32 8 = 0 ∧
        Words.field (sgiValue targetCore vector).toNat 16 8 = 0 := by
    rw [Words.field_eq, Words.field_eq, Words.field_eq, hvalue]
    omega
  refine ⟨fun core => ?_, ?_, ?_⟩
  · rw [Command.Designates, if_neg hall, and_iff_right haff.1, and_iff_right haff.2.1,
      and_iff_right haff.2.2, hrange, hlist, Nat.testBit_two_pow, decide_eq_true_iff]
    omega
  · rw [Command.number, Interface.number, Words.field_eq, hvalue]
    congr 1
    omega
  · rw [Command.Plain, Words.field_eq, Words.field_eq, Words.field_eq, hvalue]
    omega

/-- A core from 16 on leaves the target list empty, or takes the place of another core in it. -/
theorem not_sgi_addresses {targetCore : UInt64} {vector : UInt8} {self : ℕ}
    (h : 16 ≤ targetCore.toNat) :
    ¬ (Command.sgi (sgiValue targetCore vector)).Addresses .gicv3 self targetCore vector := by
  rintro ⟨hiff, -, -⟩
  have htarget := (hiff targetCore.toNat).mpr rfl
  by_cases hall : Words.field (sgiValue targetCore vector).toNat 40 1 = 1
  · -- all but the sender, so one of the next two cores is designated
    have hother : ∀ core, core ≠ self → core = targetCore.toNat := by
      intro core hcore
      refine (hiff core).mp ?_
      rw [Command.Designates, if_pos hall]
      exact hcore
    have h₁ := hother (targetCore.toNat + 1)
    have h₂ := hother (targetCore.toNat + 2)
    omega
  · rw [Command.Designates, if_neg hall] at htarget
    obtain ⟨-, -, -, hrange, hbit⟩ := htarget
    have hlist : Words.field (sgiValue targetCore vector).toNat 0 16 =
        2 ^ (targetCore.toNat % 64) % 2 ^ 16 := by
      have hid : vector.toNat % 16 * 2 ^ 24 % 2 ^ 16 = 0 := by omega
      rw [Words.field_eq, toNat_sgiValue, Nat.pow_zero, Nat.div_one, Nat.or_mod_two_pow, hid,
        Nat.zero_or]
    rw [hlist, Nat.testBit_mod_two_pow, Nat.testBit_two_pow, Bool.and_eq_true,
      decide_eq_true_iff, decide_eq_true_iff] at hbit
    -- the bit is in the list, so that nothing is left for the range selector
    have hsmall : 2 ^ (targetCore.toNat % 64) < 2 ^ 16 :=
      Nat.pow_lt_pow_right (by decide) (by omega)
    have hselector : Words.field (sgiValue targetCore vector).toNat 44 4 = 0 := by
      rw [Words.field_eq, toNat_sgiValue, Words.or_eq_add 24 (by omega) (by omega),
        Nat.div_eq_of_lt (by omega), Nat.zero_mod]
    omega

theorem harts_addresses_iff {targetCore : UInt64} {vector : UInt8} {self : ℕ} :
    (Command.harts (coreBit targetCore) 0).Addresses .sbi self targetCore vector ↔
      targetCore.toNat < 64 := by
  have hdesignates : ∀ core, (Command.harts (coreBit targetCore) 0).Designates self core ↔
      core = targetCore.toNat % 64 := by
    intro core
    rw [Command.Designates, UInt64.toNat_zero, Nat.sub_zero, toNat_coreBit, Nat.testBit_two_pow,
      decide_eq_true_iff]
    omega
  constructor
  · rintro ⟨hiff, -, -⟩
    have htarget := (hdesignates _).mp ((hiff targetCore.toNat).mpr rfl)
    omega
  · intro h
    refine ⟨fun core => ?_, rfl, rfl⟩
    rw [hdesignates, Nat.mod_eq_of_lt h]

/-! ### All interfaces -/

/-- For every interface: the one command that is sent, and when it addresses the target. -/
theorem addresses_iff (interface : Interface) (targetCore : UInt64) (vector : UInt8) (self : ℕ)
    (icrHigh : UInt32) (hsmall : targetCore.toNat % 2 ^ 32 < 2 ^ 32 - 1) :
    (∃ command, issued icrHigh (ipiWrites interface targetCore vector) = [command] ∧
      command.Addresses interface self targetCore vector) ↔
        targetCore.toNat < interface.room := by
  have hone : ∀ {command} (P : Command → Prop),
      issued icrHigh (ipiWrites interface targetCore vector) = [command] →
        ((∃ c, issued icrHigh (ipiWrites interface targetCore vector) = [c] ∧ P c) ↔
          P command) := by
    intro command P hissued
    rw [hissued]
    constructor
    · rintro ⟨c, hc, hP⟩
      obtain rfl : command = c := List.head_eq_of_cons_eq hc
      exact hP
    · exact fun hP => ⟨command, rfl, hP⟩
  cases interface with
  | xapic =>
    rw [hone _ (issued_xapic icrHigh targetCore vector), apic_addresses_iff rfl]
    show _ ↔ targetCore.toNat < 255
    omega
  | x2apic =>
    rw [hone _ (issued_x2apic icrHigh targetCore vector), apic_addresses_iff rfl]
    show _ ↔ targetCore.toNat < 0x100000000
    omega
  | gicv3 =>
    have hissued : issued icrHigh (ipiWrites .gicv3 targetCore vector) =
        [.sgi (sgiValue targetCore vector)] := rfl
    rw [hone _ hissued]
    refine ⟨fun h => ?_, fun h => sgi_addresses_of_lt vector self h⟩
    exact Nat.lt_of_not_le fun hle => not_sgi_addresses hle h
  | sbi =>
    have hissued : issued icrHigh (ipiWrites .sbi targetCore vector) =
        [.harts (coreBit targetCore) 0] := rfl
    rw [hone _ hissued]
    exact harts_addresses_iff

theorem toUInt32_check {ipiTargetCoreCount : UInt32} {targetCore : UInt64} :
    ipiTargetCoreCount ≤ targetCore.toUInt32 ↔
      ipiTargetCoreCount.toNat ≤ targetCore.toNat % 2 ^ 32 := by
  rw [UInt32.le_iff_toNat_le, UInt64.toNat_toUInt32]

theorem addressesOrRefuses_of_refused {interface : Interface} {ipiTargetCoreCount : UInt32}
    {targetCore : UInt64} {vector : UInt8} {self : ℕ} {icrHigh : UInt32}
    (h : ipiTargetCoreCount ≤ targetCore.toUInt32) :
    AddressesOrRefuses interface ipiTargetCoreCount targetCore vector self icrHigh := by
  refine .inr ?_
  rw [sendIpi, if_pos h]

theorem addressesOrRefuses_iff_of_accepted {interface : Interface} {ipiTargetCoreCount : UInt32}
    {targetCore : UInt64} {vector : UInt8} {self : ℕ} {icrHigh : UInt32}
    (h : ¬ ipiTargetCoreCount ≤ targetCore.toUInt32) :
    AddressesOrRefuses interface ipiTargetCoreCount targetCore vector self icrHigh ↔
      targetCore.toNat < interface.room := by
  have hcount := ipiTargetCoreCount.toNat_lt
  rw [AddressesOrRefuses, sendIpi, if_neg h]
  rw [toUInt32_check] at h
  have hiff := addresses_iff interface targetCore vector self icrHigh (by omega)
  simp only [true_and, Prod.mk.injEq, reduceCtorEq, false_and, or_false, hiff]
  refine and_iff_right_of_imp fun hroom => ?_
  -- below the room of any interface the cast has not changed the index
  have hle : interface.room ≤ 2 ^ 32 := by
    cases interface <;> decide
  omega

/-- `send_ipi` keeps its contract exactly for targets that it refuses and for those that the
destination has room for. The check alone lets through every index that is below the count
modulo `2 ^ 32`. -/
theorem addressesOrRefuses_iff (interface : Interface) (ipiTargetCoreCount : UInt32)
    (targetCore : UInt64) (vector : UInt8) (self : ℕ) (icrHigh : UInt32) :
    AddressesOrRefuses interface ipiTargetCoreCount targetCore vector self icrHigh ↔
      ipiTargetCoreCount.toNat ≤ targetCore.toNat % 2 ^ 32 ∨
        targetCore.toNat < interface.room := by
  by_cases hrefused : ipiTargetCoreCount ≤ targetCore.toUInt32
  · exact iff_of_true (addressesOrRefuses_of_refused hrefused) (.inl (toUInt32_check.mp hrefused))
  · rw [addressesOrRefuses_iff_of_accepted hrefused, ← toUInt32_check, or_iff_right hrefused]

/-- With 64 cores, core 24 is not in the target list of the GIC: its bit is the lowest one of
the SGI number. With 257 cores the xAPIC sends to core 0 in place of 256. Of a target of
`2 ^ 32` the check sees 0. -/
theorem sendIpi_other_core :
    (sendIpi .gicv3 64 24 2).1 = .ok () ∧ ¬ AddressesOrRefuses .gicv3 64 24 2 0 0 ∧
      ¬ AddressesOrRefuses .xapic 257 256 64 0 0 ∧
      ¬ AddressesOrRefuses .x2apic 4 0x100000000 64 0 0 ∧
      ¬ AddressesOrRefuses .sbi 65 64 0 0 0 := by
  refine ⟨by decide, ?_, ?_, ?_, ?_⟩
  all_goals
    rw [addressesOrRefuses_iff_of_accepted (by decide)]
    decide

end SimurghHal.Interrupt
