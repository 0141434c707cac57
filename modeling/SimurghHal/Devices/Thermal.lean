import SimurghHal.Lib.Simulation
import SimurghHal.Lib.Words
import SimurghHal.Devices.Power

/-!
# Temperatures and operating points (`hal-core/src/power.rs`, `hal-*/src/power.rs`)

The queries of `PowerThermal` look their domain up and check what it supports. On x86_64 the
package answers from its MSRs. ARM64 and RISC-V have no domain that supports anything, and would
panic if they had. `DomainsAboveThresholdIter` asks each sensor once while it moves along the
domains, and every reading may differ from the one before.
-/

namespace SimurghHal.Power

open Manifest BoundedTable Compute

def ia32ThermStatus : UInt32 := 0x19C
def ia32PerfStatus : UInt32 := 0x198
def approxBusClockKhz : UInt32 := 100000

/-- `DvfsRequest`. -/
structure DvfsRequest where
  targetFrequencyKhz : UInt32

/-- `DvfsState`. -/
structure DvfsState where
  currentFrequencyKhz : UInt32
  currentVoltageMv : Option UInt32
  throttled : Bool
  deriving DecidableEq

/-- `MilliCelsius::from_celsius`. -/
def fromCelsius (c : ℤ) : ℤ := c * 1000

/-! ### The queries

`none` stands for a panic. The MSRs have the values that they are read with. -/

namespace X86_64.PowerThermalImpl

variable (power : X86_64.PowerThermalImpl) (rdmsr : UInt32 → UInt64) (domainId : UInt32)

/-- `read_temperature`. -/
def readTemperature : Except HalError ℤ :=
  match power.findDomain domainId with
  | none => .error .invalidPowerDomain
  | some domain =>
    if !domain.hasThermalSensor then .error .thermalSensorUnavailable
    else
      let thermStatus := rdmsr ia32ThermStatus
      if thermStatus &&& ((1 : UInt64) <<< 31) = 0 then .error .thermalSensorUnavailable
      else
        let digitalReadout := (thermStatus >>> 16 &&& 0x7F).toNat
        .ok (fromCelsius (power.tccActivationTempC - digitalReadout))

/-- `read_dvfs_state`. -/
def readDvfsState : Except HalError DvfsState :=
  match power.findDomain domainId with
  | none => .error .invalidPowerDomain
  | some domain =>
    if !domain.supportsDvfs then .error .dvfsUnsupported
    else
      let perfStatus := rdmsr ia32PerfStatus
      let ratio := (perfStatus >>> 8 &&& 0xFF).toUInt32
      .ok {
        currentFrequencyKhz := ratio * approxBusClockKhz
        currentVoltageMv := none
        throttled := match power.readTemperature rdmsr domainId with
          | .ok t => decide (fromCelsius power.tccActivationTempC ≤ t)
          | .error _ => false }

/-- `request_dvfs`. -/
def requestDvfs (_request : DvfsRequest) : Except HalError Unit :=
  match power.findDomain domainId with
  | none => .error .invalidPowerDomain
  | some domain => if !domain.supportsDvfs then .error .dvfsUnsupported else .ok ()

end X86_64.PowerThermalImpl

section Unsupported

variable {α : Type} (power : PowerThermalImpl) (domainId : UInt32)

/-- A query that no domain is meant to support. -/
def queryUnsupported (supports : PowerDomainRaw → Bool) (unsupported : HalError) :
    Option (Except HalError α) :=
  match power.findDomain domainId with
  | none => some (.error .invalidPowerDomain)
  | some domain => if !supports domain then some (.error unsupported) else none

def Arm64.readTemperature : Option (Except HalError ℤ) :=
  queryUnsupported power domainId PowerDomainRaw.hasThermalSensor .thermalSensorUnavailable

def Arm64.readDvfsState : Option (Except HalError DvfsState) :=
  queryUnsupported power domainId PowerDomainRaw.supportsDvfs .dvfsUnsupported

def Arm64.requestDvfs (_request : DvfsRequest) : Option (Except HalError Unit) :=
  queryUnsupported power domainId PowerDomainRaw.supportsDvfs .dvfsUnsupported

def Riscv64.readTemperature : Option (Except HalError ℤ) :=
  queryUnsupported power domainId PowerDomainRaw.hasThermalSensor .thermalSensorUnavailable

def Riscv64.readDvfsState : Option (Except HalError DvfsState) :=
  queryUnsupported power domainId PowerDomainRaw.supportsDvfs .dvfsUnsupported

def Riscv64.requestDvfs (_request : DvfsRequest) : Option (Except HalError Unit) :=
  queryUnsupported power domainId PowerDomainRaw.supportsDvfs .dvfsUnsupported

end Unsupported

section Queries

variable (arch : Arch) (boot : UInt32 → UInt64) (compute : ComputeDiscovery)
  (rdmsr : UInt32 → UInt64) (domainId : UInt32)

/-- `read_temperature` of what the constructor has made when the MSRs were as in `boot`. -/
def readTemperature : Option (Except HalError ℤ) :=
  match arch with
  | .x86_64 => some ((X86_64.PowerThermalImpl.new boot compute).readTemperature rdmsr domainId)
  | .arm64 => Arm64.readTemperature (.new .arm64 boot compute) domainId
  | .riscv64 => Riscv64.readTemperature (.new .riscv64 boot compute) domainId

def readDvfsState : Option (Except HalError DvfsState) :=
  match arch with
  | .x86_64 => some ((X86_64.PowerThermalImpl.new boot compute).readDvfsState rdmsr domainId)
  | .arm64 => Arm64.readDvfsState (.new .arm64 boot compute) domainId
  | .riscv64 => Riscv64.readDvfsState (.new .riscv64 boot compute) domainId

def requestDvfs (request : DvfsRequest) : Option (Except HalError Unit) :=
  match arch with
  | .x86_64 => some ((X86_64.PowerThermalImpl.new boot compute).requestDvfs domainId request)
  | .arm64 => Arm64.requestDvfs (.new .arm64 boot compute) domainId request
  | .riscv64 => Riscv64.requestDvfs (.new .riscv64 boot compute) domainId request

end Queries

/-! ### The contract -/

/-- The reading of the thermal sensor, if it is valid. -/
def digitalReadout (rdmsr : UInt32 → UInt64) : Option ℕ :=
  if Words.bit (rdmsr ia32ThermStatus) 31 then some (Words.field (rdmsr ia32ThermStatus).toNat 16 7)
  else none

/-- The temperature that the readout is counted down from. -/
def tccActivation (boot : UInt32 → UInt64) : ℤ := (Words.field (boot msrTemperatureTarget).toNat 16 8 : ℕ)

section Fields

theorem toNat_and_mask (x : UInt64) {mask : UInt64} {width : ℕ}
    (hmask : mask.toNat = 2 ^ width - 1) (start : UInt64) (hstart : start.toNat < 64) :
    (x >>> start &&& mask).toNat = Words.field x.toNat start.toNat width := by
  rw [UInt64.toNat_and, hmask, Nat.and_two_pow_sub_one_eq_mod, UInt64.toNat_shiftRight,
    Nat.mod_eq_of_lt hstart, Words.field, Nat.one_shiftLeft]

theorem and_one_shiftLeft_eq_zero_iff (x : UInt64) :
    x &&& ((1 : UInt64) <<< 31) = 0 ↔ Words.bit x 31 = false := by
  have hmask : ∀ i, Words.bit ((1 : UInt64) <<< 31) i = decide (31 = i) := by
    intro i
    rw [Words.bit, show ((1 : UInt64) <<< 31).toNat = 2 ^ 31 by decide, Nat.testBit_two_pow]
  have hzero : ∀ i, Words.bit 0 i = false := fun i => Nat.zero_testBit i
  constructor
  · intro h
    have hbit := congrArg (Words.bit · 31) h
    simpa only [Words.bit_and, hmask, hzero, decide_true, Bool.and_true] using hbit
  · intro h
    refine Words.ext_bit fun i => ?_
    rw [Words.bit_and, hmask, hzero]
    by_cases hi : 31 = i
    · rw [← hi, h, Bool.false_and]
    · rw [decide_eq_false hi, Bool.and_false]

end Fields

section Contract

variable (arch : Arch) (boot : UInt32 → UInt64) (compute : ComputeDiscovery)
  (rdmsr : UInt32 → UInt64) (domainId : UInt32)

/-- The number of domains. -/
def domainCount : ℕ := (PowerThermalImpl.new arch boot compute).enumeratePowerDomains.length

/-- Only the package supports anything, and only on x86_64. -/
theorem findDomain_cases :
    ((PowerThermalImpl.new arch boot compute).findDomain domainId = none ∧
        domainCount arch boot compute ≤ domainId.toNat) ∨
      (domainId = 0 ∧ domainId.toNat < domainCount arch boot compute ∧
        (PowerThermalImpl.new arch boot compute).findDomain domainId =
          some (packageDomain (packageFlags arch boot).1 (packageFlags arch boot).2)) ∨
      (domainId ≠ 0 ∧ domainId.toNat < domainCount arch boot compute ∧
        ∃ domain, (PowerThermalImpl.new arch boot compute).findDomain domainId = some domain ∧
          domain.supportsDvfs = false ∧ domain.hasThermalSensor = false) := by
  rw [findDomain_new, domainCount, enumeratePowerDomains_new]
  generalize compute.enumerateComputeDevices.take (maxPowerDomains - 1) = devices
  by_cases hlt : domainId.toNat < (domainList (packageFlags arch boot).1 (packageFlags arch boot).2
    devices).length
  · refine .inr ?_
    by_cases hzero : domainId = 0
    · subst hzero
      exact .inl ⟨rfl, hlt, rfl⟩
    · obtain ⟨i, hi⟩ := Nat.exists_eq_succ_of_ne_zero fun h => hzero (UInt32.toNat_inj.mp h)
      rw [hi, length_domainList] at hlt
      rw [hi, List.getElem?_eq_getElem (by rw [length_domainList]; exact hlt)]
      refine .inr ⟨hzero, by rw [length_domainList]; exact hlt, _, rfl, ?_⟩
      simp [domainList, deviceDomain]
  · exact .inl ⟨List.getElem?_eq_none (not_lt.mp hlt), not_lt.mp hlt⟩

/-- The architectures without MSRs. No query gets past its check. -/
theorem queryUnsupported_eq {α : Type} (harch : packageFlags arch boot = (false, false))
    {supports : PowerDomainRaw → Bool} (unsupported : HalError)
    (hsupports : supports = PowerDomainRaw.supportsDvfs ∨
      supports = PowerDomainRaw.hasThermalSensor) :
    queryUnsupported (α := α) (.new arch boot compute) domainId supports unsupported = some (
      if domainCount arch boot compute ≤ domainId.toNat then .error .invalidPowerDomain
      else .error unsupported) := by
  obtain ⟨hnone, hle⟩ | ⟨-, hlt, hsome⟩ | ⟨-, hlt, domain, hsome, hdvfs, hthermal⟩ :=
    findDomain_cases arch boot compute domainId
  · rw [queryUnsupported, hnone, if_pos hle]
  · rw [queryUnsupported, hsome, harch, if_neg (Nat.not_le.mpr hlt)]
    rcases hsupports with rfl | rfl <;> rfl
  · rw [queryUnsupported, hsome, if_neg (Nat.not_le.mpr hlt)]
    rcases hsupports with rfl | rfl
    · simp [hdvfs]
    · simp [hthermal]

end Contract

namespace X86_64.PowerThermalImpl

variable (boot : UInt32 → UInt64) (compute : ComputeDiscovery) (rdmsr : UInt32 → UInt64)
  (domainId : UInt32)

theorem tccActivationTempC_new : (new boot compute).tccActivationTempC = tccActivation boot :=
  congrArg Nat.cast (@toNat_and_mask _ 0xFF 8 (by decide) 16 (by decide))

theorem readTemperature_new :
    (new boot compute).readTemperature rdmsr domainId =
      if domainCount .x86_64 boot compute ≤ domainId.toNat then .error .invalidPowerDomain
      else if domainId = 0 then
        (digitalReadout rdmsr).elim (.error .thermalSensorUnavailable) fun readout =>
          .ok ((tccActivation boot - readout) * 1000)
      else .error .thermalSensorUnavailable := by
  obtain ⟨hnone, hle⟩ | ⟨rfl, hlt, hsome⟩ | ⟨hne, hlt, domain, hsome, -, hthermal⟩ :=
    findDomain_cases .x86_64 boot compute domainId
  · have hfind : (new boot compute).findDomain domainId = none := hnone
    rw [readTemperature, hfind, if_pos hle]
  · have hfind : (new boot compute).findDomain 0 =
        some (packageDomain (packageFlags .x86_64 boot).1 true) := hsome
    have hreadout : (rdmsr ia32ThermStatus >>> 16 &&& 0x7F).toNat =
        Words.field (rdmsr ia32ThermStatus).toNat 16 7 :=
      toNat_and_mask _ (by decide) 16 (by decide)
    rw [readTemperature, hfind, if_neg (Nat.not_le.mpr hlt), if_pos rfl, digitalReadout]
    cases hvalid : Words.bit (rdmsr ia32ThermStatus) 31 with
    | false =>
      have hzero := (and_one_shiftLeft_eq_zero_iff _).mpr hvalid
      simp [packageDomain, hzero]
    | true =>
      have hzero : ¬ _ := mt (and_one_shiftLeft_eq_zero_iff _).mp (by rw [hvalid]; decide)
      simp only [packageDomain, Bool.not_true, Bool.false_eq_true, if_false, if_neg hzero,
        tccActivationTempC_new, hreadout, if_true, Option.elim_some, fromCelsius]
  · have hfind : (new boot compute).findDomain domainId = some domain := hsome
    rw [readTemperature, hfind, if_neg (Nat.not_le.mpr hlt), if_neg hne]
    simp [hthermal]

/-- The reading is at the limit exactly when the readout is 0. -/
theorem throttled_iff (hlt : (0 : UInt32).toNat < domainCount .x86_64 boot compute) :
    (match (new boot compute).readTemperature rdmsr 0 with
      | .ok t => decide (fromCelsius (new boot compute).tccActivationTempC ≤ t)
      | .error _ => false) = decide (digitalReadout rdmsr = some 0) := by
  rw [readTemperature_new, if_neg (Nat.not_le.mpr hlt), if_pos rfl, tccActivationTempC_new]
  cases digitalReadout rdmsr with
  | none => rfl
  | some readout =>
    simp only [Option.elim_some, fromCelsius, Option.some.injEq]
    congr 1
    exact propext (by omega)

theorem readDvfsState_new :
    (new boot compute).readDvfsState rdmsr domainId =
      if domainCount .x86_64 boot compute ≤ domainId.toNat then .error .invalidPowerDomain
      else if domainId = 0 ∧ boot msrRaplPowerUnit ≠ 0 then
        .ok {
          currentFrequencyKhz := UInt32.ofNat
            (Words.field (rdmsr ia32PerfStatus).toNat 8 8 * 100000)
          currentVoltageMv := none
          throttled := decide (digitalReadout rdmsr = some 0) }
      else .error .dvfsUnsupported := by
  obtain ⟨hnone, hle⟩ | ⟨rfl, hlt, hsome⟩ | ⟨hne, hlt, domain, hsome, hdvfs, -⟩ :=
    findDomain_cases .x86_64 boot compute domainId
  · have hfind : (new boot compute).findDomain domainId = none := hnone
    rw [readDvfsState, hfind, if_pos hle]
  · have hfind : (new boot compute).findDomain 0 =
        some (packageDomain (decide (boot msrRaplPowerUnit ≠ 0)) true) := hsome
    rw [readDvfsState, hfind, if_neg (Nat.not_le.mpr hlt)]
    by_cases hrapl : boot msrRaplPowerUnit = 0
    · simp [packageDomain, hrapl]
    · have hratio : (rdmsr ia32PerfStatus >>> 8 &&& 0xFF).toNat =
          Words.field (rdmsr ia32PerfStatus).toNat 8 8 :=
        toNat_and_mask _ (by decide) 8 (by decide)
      have hfrequency : (rdmsr ia32PerfStatus >>> 8 &&& 0xFF).toUInt32 * approxBusClockKhz =
          UInt32.ofNat (Words.field (rdmsr ia32PerfStatus).toNat 8 8 * 100000) := by
        apply UInt32.toNat_inj.mp
        rw [UInt32.toNat_mul, UInt64.toNat_toUInt32, hratio, UInt32.toNat_ofNat']
        simp [approxBusClockKhz]
      rw [if_pos ⟨rfl, hrapl⟩, ← throttled_iff boot compute rdmsr hlt, ← hfrequency]
      simp [packageDomain, hrapl]
  · have hfind : (new boot compute).findDomain domainId = some domain := hsome
    rw [readDvfsState, hfind, if_neg (Nat.not_le.mpr hlt), if_neg fun h => hne h.1]
    simp [hdvfs]

theorem requestDvfs_new (request : DvfsRequest) :
    (new boot compute).requestDvfs domainId request =
      if domainCount .x86_64 boot compute ≤ domainId.toNat then .error .invalidPowerDomain
      else if domainId = 0 ∧ boot msrRaplPowerUnit ≠ 0 then .ok ()
      else .error .dvfsUnsupported := by
  obtain ⟨hnone, hle⟩ | ⟨rfl, hlt, hsome⟩ | ⟨hne, hlt, domain, hsome, hdvfs, -⟩ :=
    findDomain_cases .x86_64 boot compute domainId
  · have hfind : (new boot compute).findDomain domainId = none := hnone
    rw [requestDvfs, hfind, if_pos hle]
  · have hfind : (new boot compute).findDomain 0 =
        some (packageDomain (decide (boot msrRaplPowerUnit ≠ 0)) true) := hsome
    rw [requestDvfs, hfind, if_neg (Nat.not_le.mpr hlt)]
    by_cases hrapl : boot msrRaplPowerUnit = 0
    · simp [packageDomain, hrapl]
    · simp [packageDomain, hrapl]
  · have hfind : (new boot compute).findDomain domainId = some domain := hsome
    rw [requestDvfs, hfind, if_neg (Nat.not_le.mpr hlt), if_neg fun h => hne h.1]
    simp [hdvfs]

end X86_64.PowerThermalImpl

theorem frequency_lt (perfStatus : ℕ) : Words.field perfStatus 8 8 * 100000 < 2 ^ 32 := by
  rw [Words.field_eq]
  have hlt := Nat.mod_lt (perfStatus / 2 ^ 8) (Nat.two_pow_pos 8)
  omega

/-- The three queries of all architectures, whatever the MSRs contain: an unknown domain is
reported as such, what is not supported as not supported, nothing panics, and the package of
x86_64 answers with what the MSRs say. The product of its frequency fits into the word. -/
theorem queries_eq (arch : Arch) (boot : UInt32 → UInt64) (compute : ComputeDiscovery)
    (rdmsr : UInt32 → UInt64) (domainId : UInt32) (request : DvfsRequest) :
    let known := domainId.toNat < domainCount arch boot compute
    let package := arch = .x86_64 ∧ domainId = 0
    Words.field (rdmsr ia32PerfStatus).toNat 8 8 * 100000 < 2 ^ 32 ∧
      readTemperature arch boot compute rdmsr domainId = some (
        if ¬ known then .error .invalidPowerDomain
        else if package then
          (digitalReadout rdmsr).elim (.error .thermalSensorUnavailable) fun readout =>
            .ok ((tccActivation boot - readout) * 1000)
        else .error .thermalSensorUnavailable) ∧
      readDvfsState arch boot compute rdmsr domainId = some (
        if ¬ known then .error .invalidPowerDomain
        else if package ∧ boot msrRaplPowerUnit ≠ 0 then
          .ok ⟨UInt32.ofNat (Words.field (rdmsr ia32PerfStatus).toNat 8 8 * 100000), none,
            decide (digitalReadout rdmsr = some 0)⟩
        else .error .dvfsUnsupported) ∧
      requestDvfs arch boot compute domainId request = some (
        if ¬ known then .error .invalidPowerDomain
        else if package ∧ boot msrRaplPowerUnit ≠ 0 then .ok ()
        else .error .dvfsUnsupported) := by
  simp only [Nat.not_lt]
  refine ⟨frequency_lt _, ?_⟩
  cases arch with
  | x86_64 =>
    simp only [true_and]
    exact ⟨congrArg some (X86_64.PowerThermalImpl.readTemperature_new ..),
      congrArg some (X86_64.PowerThermalImpl.readDvfsState_new ..),
      congrArg some (X86_64.PowerThermalImpl.requestDvfs_new ..)⟩
  | arm64 =>
    simp only [reduceCtorEq, false_and, if_false]
    exact ⟨queryUnsupported_eq _ _ _ _ rfl _ (.inr rfl),
      queryUnsupported_eq _ _ _ _ rfl _ (.inl rfl), queryUnsupported_eq _ _ _ _ rfl _ (.inl rfl)⟩
  | riscv64 =>
    simp only [reduceCtorEq, false_and, if_false]
    exact ⟨queryUnsupported_eq _ _ _ _ rfl _ (.inr rfl),
      queryUnsupported_eq _ _ _ _ rfl _ (.inl rfl), queryUnsupported_eq _ _ _ _ rfl _ (.inl rfl)⟩

/-! ### The sweep over the sensors -/

/-- `DomainsAboveThresholdIter`: the domains that are left, with the sensors read so far. -/
structure DomainsAboveThresholdIter where
  domains : List PowerDomainRaw
  reads : List UInt32

section Sweep

variable (readTemperature : ℕ → UInt32 → Except HalError ℤ) (threshold : ℤ)

/-- The loop in `next`. The result of a reading depends on how many were taken before. -/
def nextFrom : List PowerDomainRaw → List UInt32 → Option UInt32 × DomainsAboveThresholdIter
  | [], reads => (none, ⟨[], reads⟩)
  | domain :: domains, reads =>
    if !domain.hasThermalSensor then nextFrom domains reads
    else match readTemperature reads.length domain.domainId with
      | .ok temp =>
        if threshold ≤ temp then (some domain.domainId, ⟨domains, reads ++ [domain.domainId]⟩)
        else nextFrom domains (reads ++ [domain.domainId])
      | .error _ => nextFrom domains (reads ++ [domain.domainId])

/-- `next`. -/
def DomainsAboveThresholdIter.next (iter : DomainsAboveThresholdIter) (_ : Unit) :
    Option UInt32 × DomainsAboveThresholdIter :=
  nextFrom readTemperature threshold iter.domains iter.reads

/-- The reading says that the threshold is reached. -/
def reaches (reading : Except HalError ℤ) : Bool :=
  match reading with
  | .ok temp => decide (threshold ≤ temp)
  | .error _ => false

/-- The domains whose reading reaches the threshold, when each sensor is read once, in order. -/
def hot (domains : List PowerDomainRaw) (taken : ℕ) : List UInt32 :=
  (((domains.filter PowerDomainRaw.hasThermalSensor).zipIdx taken).filter fun sensor =>
    reaches threshold (readTemperature sensor.2 sensor.1.domainId)).map fun sensor =>
      sensor.1.domainId

/-- The domains that have a sensor. -/
def sensors (domains : List PowerDomainRaw) : List UInt32 :=
  (domains.filter PowerDomainRaw.hasThermalSensor).map PowerDomainRaw.domainId

theorem hot_cons_of_neg {domain : PowerDomainRaw} (hsensor : domain.hasThermalSensor = false)
    (domains : List PowerDomainRaw) (taken : ℕ) :
    hot readTemperature threshold (domain :: domains) taken =
      hot readTemperature threshold domains taken := by
  rw [hot, List.filter_cons_of_neg (by simp [hsensor])]
  rfl

theorem hot_cons_of_pos {domain : PowerDomainRaw} (hsensor : domain.hasThermalSensor = true)
    (domains : List PowerDomainRaw) (taken : ℕ) :
    hot readTemperature threshold (domain :: domains) taken =
      if reaches threshold (readTemperature taken domain.domainId) then
        domain.domainId :: hot readTemperature threshold domains (taken + 1)
      else hot readTemperature threshold domains (taken + 1) := by
  rw [hot, List.filter_cons_of_pos hsensor, List.zipIdx_cons, List.filter_cons,
    apply_ite (List.map _)]
  rfl

/-- One call returns the first of them and leaves the others. -/
theorem nextFrom_spec (domains : List PowerDomainRaw) (reads : List UInt32) :
    (nextFrom readTemperature threshold domains reads).1 =
        (hot readTemperature threshold domains reads.length).head? ∧
      hot readTemperature threshold (nextFrom readTemperature threshold domains reads).2.domains
          (nextFrom readTemperature threshold domains reads).2.reads.length =
        (hot readTemperature threshold domains reads.length).tail := by
  induction domains generalizing reads with
  | nil => exact ⟨rfl, rfl⟩
  | cons domain domains ih =>
    have ihread := ih (reads ++ [domain.domainId])
    rw [List.length_append, List.length_singleton] at ihread
    rw [nextFrom]
    cases hsensor : domain.hasThermalSensor with
    | false =>
      rw [hot_cons_of_neg _ _ hsensor]
      exact ih reads
    | true =>
      rw [hot_cons_of_pos _ _ hsensor]
      cases hreading : readTemperature reads.length domain.domainId with
      | error e => exact ihread
      | ok temp =>
        by_cases hreached : threshold ≤ temp
        · simp [reaches, hreached]
        · simpa [reaches, hreached] using ihread

/-- A call reads the sensors that it passes, one after the other, and passes all that are left
when it returns nothing. -/
theorem nextFrom_reads (domains : List PowerDomainRaw) (reads : List UInt32) :
    let next := nextFrom readTemperature threshold domains reads
    next.2.reads ++ sensors next.2.domains = reads ++ sensors domains ∧
      (next.1 = none → next.2.domains = []) := by
  induction domains generalizing reads with
  | nil => exact ⟨rfl, fun _ => rfl⟩
  | cons domain domains ih =>
    rw [nextFrom]
    cases hsensor : domain.hasThermalSensor with
    | false =>
      have hsensors : sensors (domain :: domains) = sensors domains := by
        rw [sensors, List.filter_cons_of_neg (by simp [hsensor])]
        rfl
      rw [hsensors]
      exact ih reads
    | true =>
      have hsensors : reads ++ sensors (domain :: domains) =
          (reads ++ [domain.domainId]) ++ sensors domains := by
        rw [sensors, List.filter_cons_of_pos hsensor, List.map_cons, List.append_assoc]
        rfl
      rw [hsensors]
      cases hreading : readTemperature reads.length domain.domainId with
      | error e => exact ih _
      | ok temp =>
        by_cases hreached : threshold ≤ temp
        · simp [hreached]
        · simpa [hreached] using ih (reads ++ [domain.domainId])

/-- What any number of calls return. -/
theorem run_next_results (domains : List PowerDomainRaw) (reads : List UInt32) (n : ℕ) :
    (Simulation.run (DomainsAboveThresholdIter.next readTemperature threshold) ⟨domains, reads⟩
        (List.replicate n ())).1 =
      ((hot readTemperature threshold domains reads.length).map some ++
        List.replicate n none).take n := by
  induction n generalizing domains reads with
  | zero => rfl
  | succ n ih =>
    obtain ⟨hfirst, hrest⟩ := nextFrom_spec readTemperature threshold domains reads
    rw [List.replicate_succ, Simulation.run_cons]
    show (nextFrom readTemperature threshold domains reads).1 :: (Simulation.run _
      (nextFrom readTemperature threshold domains reads).2 _).1 = _
    rw [ih _ (nextFrom readTemperature threshold domains reads).2.reads, hrest, hfirst]
    cases hot readTemperature threshold domains reads.length with
    | nil => simp [List.replicate_succ]
    | cons id ids => simp [List.replicate_succ', ← List.append_assoc]

/-- What any number of calls have read. -/
theorem run_next_reads (domains : List PowerDomainRaw) (reads : List UInt32) (n : ℕ) :
    let result := Simulation.run (DomainsAboveThresholdIter.next readTemperature threshold)
      ⟨domains, reads⟩ (List.replicate n ())
    result.2.reads ++ sensors result.2.domains = reads ++ sensors domains ∧
      ((hot readTemperature threshold domains reads.length).length < n →
        result.2.domains = []) := by
  induction n generalizing domains reads with
  | zero => exact ⟨rfl, fun h => absurd h (Nat.not_lt_zero _)⟩
  | succ n ih =>
    obtain ⟨hfirst, hrest⟩ := nextFrom_spec readTemperature threshold domains reads
    obtain ⟨hreads, hnone⟩ := nextFrom_reads readTemperature threshold domains reads
    obtain ⟨ihreads, ihdomains⟩ := ih (nextFrom readTemperature threshold domains reads).2.domains
      (nextFrom readTemperature threshold domains reads).2.reads
    rw [hrest] at ihdomains
    rw [List.replicate_succ, Simulation.run_cons]
    refine ⟨ihreads.trans hreads, fun hlt => ?_⟩
    cases hhot : hot readTemperature threshold domains reads.length with
    | cons id ids =>
      rw [hhot] at ihdomains hlt
      exact ihdomains (Nat.lt_of_succ_lt_succ hlt)
    | nil =>
      rw [hhot] at ihdomains hfirst
      cases n with
      | zero => exact hnone hfirst
      | succ n => exact ihdomains n.succ_pos

/-- Any number of calls: the domains above the threshold, in order and each once, and then
nothing any more. The sensors are read in order and none twice, and all of them have been read
when a call has returned nothing. -/
theorem run_next (domains : List PowerDomainRaw) (n : ℕ) :
    let result := Simulation.run (DomainsAboveThresholdIter.next readTemperature threshold)
      ⟨domains, []⟩ (List.replicate n ())
    result.1 =
        ((hot readTemperature threshold domains 0).map some ++ List.replicate n none).take n ∧
      result.2.reads <+: sensors domains ∧
      ((hot readTemperature threshold domains 0).length < n →
        result.2.reads = sensors domains) := by
  obtain ⟨hreads, hdomains⟩ := run_next_reads readTemperature threshold domains [] n
  refine ⟨run_next_results readTemperature threshold domains [] n, ⟨_, hreads⟩, fun hlt => ?_⟩
  rw [hdomains hlt] at hreads
  exact (List.append_nil _).symm.trans hreads

end Sweep

/-- The sensors of a machine: that of the package on x86_64, and none elsewhere. -/
theorem filter_hasThermalSensor (arch : Arch) (boot : UInt32 → UInt64)
    (compute : ComputeDiscovery) :
    (PowerThermalImpl.new arch boot compute).enumeratePowerDomains.filter
        PowerDomainRaw.hasThermalSensor =
      if arch = .x86_64 then [packageDomain (packageFlags arch boot).1 true] else [] := by
  have hdevices : ∀ devices : List ComputeDeviceRaw,
      (devices.mapIdx deviceDomain).filter PowerDomainRaw.hasThermalSensor = [] := by
    intro devices
    rw [List.filter_eq_nil_iff]
    intro domain hdomain
    obtain ⟨i, hi, rfl⟩ := List.mem_mapIdx.mp hdomain
    simp [deviceDomain]
  rw [enumeratePowerDomains_new, domainList, List.filter_cons, hdevices]
  cases arch <;> rfl

/-- What `domains_above_threshold` finds, when the MSRs are as in `rdmsr k` for reading `k`. -/
theorem hot_new (arch : Arch) (boot : UInt32 → UInt64) (compute : ComputeDiscovery)
    (rdmsr : ℕ → UInt32 → UInt64) (threshold : ℤ) :
    hot (fun k domainId => (readTemperature arch boot compute (rdmsr k) domainId).getD
          (.error .hardwareFault)) threshold
        (PowerThermalImpl.new arch boot compute).enumeratePowerDomains 0 =
      if arch = .x86_64 ∧ (digitalReadout (rdmsr 0)).any fun readout =>
        threshold ≤ (tccActivation boot - readout) * 1000 then [0] else [] := by
  rw [hot, filter_hasThermalSensor]
  cases arch with
  | x86_64 =>
    have hcount : ¬ domainCount .x86_64 boot compute ≤ (0 : UInt32).toNat := by
      rw [domainCount, enumeratePowerDomains_new, length_domainList]
      exact Nat.not_succ_le_zero _
    have hreading : readTemperature .x86_64 boot compute (rdmsr 0) 0 = some _ :=
      congrArg some (X86_64.PowerThermalImpl.readTemperature_new boot compute (rdmsr 0) 0)
    rw [if_neg hcount, if_pos rfl] at hreading
    cases hreadout : digitalReadout (rdmsr 0) with
    | none => simp [packageDomain, hreading, hreadout, reaches]
    | some readout =>
      by_cases hreached : threshold ≤ (tccActivation boot - readout) * 1000
      · simp [packageDomain, hreading, hreadout, reaches, hreached]
      · simp [packageDomain, hreading, hreadout, reaches, hreached]
  | arm64 => simp
  | riscv64 => simp

end SimurghHal.Power
