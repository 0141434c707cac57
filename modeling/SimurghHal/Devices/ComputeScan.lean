import SimurghHal.Devices.Compute
import SimurghHal.Lib.Words

/-!
# The scan and its reference

What the scan should find is said here of the registers alone: which functions there are,
which of them a scan that respects the multi-function bit considers, and what is reported
of each. Both ways of reaching the configuration space get to the same registers, so the
three crates find the same devices.
-/

namespace SimurghHal.Compute

open Manifest BoundedTable

/-! ### Reaching a register -/

section Addressing

variable {bus device function offset : UInt8}

/-- The fields of an address written to port `0xCF8` do not overlap. -/
theorem toNat_portAddress (hdevice : device.toNat < 32) (hfunction : function.toNat < 8)
    (hoffset : offset.toNat % 4 = 0) :
    (portAddress bus device function offset).toNat =
      2 ^ 31 + bus.toNat * 2 ^ 16 + device.toNat * 2 ^ 11 + function.toNat * 2 ^ 8 +
        offset.toNat := by
  have hbus : bus.toNat < 256 := bus.toNat_lt
  have hlow : offset.toNat < 256 := offset.toNat_lt
  have hmask : offset.toNat &&& 0xFC = offset.toNat := by
    rw [show 0xFC = 2 ^ 8 - 2 ^ 2 from rfl, Words.and_run _ (by decide)]
    omega
  simp only [portAddress, UInt32.toNat_or, UInt32.toNat_and, UInt32.toNat_shiftLeft,
    UInt8.toNat_toUInt32, UInt32.reduceToNat, Nat.reduceMod, Nat.shiftLeft_eq, one_mul, hmask]
  rw [Nat.mod_eq_of_lt (by omega), Nat.mod_eq_of_lt (by omega), Nat.mod_eq_of_lt (by omega),
    Nat.mod_eq_of_lt (by omega)]
  have h₁ := Words.or_eq_add 31 (x := 2 ^ 31) (y := bus.toNat * 2 ^ 16) (by omega) (by omega)
  have h₂ := Words.or_eq_add 16 (x := 2 ^ 31 + bus.toNat * 2 ^ 16) (y := device.toNat * 2 ^ 11)
    (by omega) (by omega)
  have h₃ := Words.or_eq_add 11 (y := function.toNat * 2 ^ 8)
    (x := 2 ^ 31 + bus.toNat * 2 ^ 16 + device.toNat * 2 ^ 11) (by omega) (by omega)
  have h₄ := Words.or_eq_add 8 (y := offset.toNat)
    (x := 2 ^ 31 + bus.toNat * 2 ^ 16 + device.toNat * 2 ^ 11 + function.toNat * 2 ^ 8)
    (by omega) (by omega)
  rw [h₁, h₂, h₃, h₄]

theorem decodePort_portAddress (hdevice : device.toNat < 32) (hfunction : function.toNat < 8)
    (hoffset : offset.toNat % 4 = 0) :
    decodePort (portAddress bus device function offset) = ⟨bus, device, function, offset⟩ := by
  have hbus : bus.toNat < 256 := bus.toNat_lt
  have hlow : offset.toNat < 256 := offset.toNat_lt
  simp only [decodePort, ConfigAddress.mk.injEq, ← UInt8.toNat_inj, UInt32.toNat_toUInt8,
    UInt32.toNat_and, UInt32.toNat_shiftRight, toNat_portAddress hdevice hfunction hoffset,
    UInt32.reduceToNat, Nat.shiftRight_eq_div_pow, Nat.reduceMod]
  rw [show 0x1F = 2 ^ 5 - 1 from rfl, show 7 = 2 ^ 3 - 1 from rfl, Nat.and_two_pow_sub_one_eq_mod,
    Nat.and_two_pow_sub_one_eq_mod, show 0xFC = 2 ^ 8 - 2 ^ 2 from rfl,
    Words.and_run _ (by decide)]
  refine ⟨?_, ?_, ?_, ?_⟩ <;> omega

theorem toNat_ecamOffset (hdevice : device.toNat < 32) (hfunction : function.toNat < 8) :
    (ecamOffset bus device function).toNat =
      bus.toNat * 2 ^ 20 + device.toNat * 2 ^ 15 + function.toNat * 2 ^ 12 := by
  have hbus : bus.toNat < 256 := bus.toNat_lt
  simp only [ecamOffset, UInt64.toNat_or, UInt64.toNat_shiftLeft, UInt8.toNat_toUInt64,
    UInt64.reduceToNat, Nat.reduceMod, Nat.shiftLeft_eq]
  rw [Nat.mod_eq_of_lt (by omega), Nat.mod_eq_of_lt (by omega), Nat.mod_eq_of_lt (by omega)]
  have h₁ := Words.or_eq_add 20 (x := bus.toNat * 2 ^ 20) (y := device.toNat * 2 ^ 15)
    (by omega) (by omega)
  have h₂ := Words.or_eq_add 15 (x := bus.toNat * 2 ^ 20 + device.toNat * 2 ^ 15)
    (y := function.toNat * 2 ^ 12) (by omega) (by omega)
  rw [h₁, h₂]

/-- The window may lie anywhere: its base cancels. -/
theorem decodeEcam_ecamAddress (ecamBase : UInt64) (hdevice : device.toNat < 32)
    (hfunction : function.toNat < 8) :
    decodeEcam ecamBase (ecamAddress ecamBase bus device function offset) =
      ⟨bus, device, function, offset⟩ := by
  have hbus : bus.toNat < 256 := bus.toNat_lt
  have hlow : offset.toNat < 256 := offset.toNat_lt
  have hwindow : ecamAddress ecamBase bus device function offset - ecamBase =
      ecamOffset bus device function + offset.toUInt64 := by
    rw [ecamAddress, UInt64.add_assoc, UInt64.add_comm, UInt64.add_sub_cancel]
  have haddr : (ecamOffset bus device function + offset.toUInt64).toNat =
      bus.toNat * 2 ^ 20 + device.toNat * 2 ^ 15 + function.toNat * 2 ^ 12 + offset.toNat := by
    rw [UInt64.toNat_add, toNat_ecamOffset hdevice hfunction, UInt8.toNat_toUInt64,
      Nat.mod_eq_of_lt (by omega)]
  simp only [decodeEcam, hwindow, ConfigAddress.mk.injEq, ← UInt8.toNat_inj, UInt64.toNat_toUInt8,
    UInt64.toNat_and, UInt64.toNat_shiftRight, haddr, UInt64.reduceToNat,
    Nat.shiftRight_eq_div_pow, Nat.reduceMod]
  rw [show 0x1F = 2 ^ 5 - 1 from rfl, show 7 = 2 ^ 3 - 1 from rfl, Nat.and_two_pow_sub_one_eq_mod,
    Nat.and_two_pow_sub_one_eq_mod]
  refine ⟨?_, ?_, ?_, ?_⟩ <;> omega

/-- Every mechanism reaches the register it is asked for. -/
theorem target_eq (mech : Mechanism) (hdevice : device.toNat < 32) (hfunction : function.toNat < 8)
    (hoffset : offset.toNat % 4 = 0) :
    mech.target bus device function offset = ⟨bus, device, function, offset⟩ := by
  cases mech with
  | ports => exact decodePort_portAddress hdevice hfunction hoffset
  | ecam ecamBase => exact decodeEcam_ecamAddress ecamBase hdevice hfunction

end Addressing

/-! ### The functions of the configuration space -/

/-- The place of a function: bus, device and function number. -/
structure PciFunction where
  bus : UInt8
  device : UInt8
  function : UInt8
  deriving DecidableEq, Repr

namespace PciFunction

/-- The register of a function at an offset. -/
def register (p : PciFunction) (offset : UInt8) : ConfigAddress :=
  ⟨p.bus, p.device, p.function, offset⟩

/-- Function 0 of the same device. -/
def zeroth (p : PciFunction) : PciFunction := { p with function := 0 }

/-- There are 32 devices on a bus and 8 functions in a device. -/
def Addressable (p : PciFunction) : Prop := p.device.toNat < 32 ∧ p.function.toNat < 8

/-- The order of (bus, device, function). -/
def Before (p q : PciFunction) : Prop :=
  p.bus < q.bus ∨
    p.bus = q.bus ∧ (p.device < q.device ∨ p.device = q.device ∧ p.function < q.function)

instance (p : PciFunction) : Decidable p.Addressable := inferInstanceAs (Decidable (_ ∧ _))

instance (p q : PciFunction) : Decidable (p.Before q) :=
  inferInstanceAs (Decidable (_ ∨ _ ∧ (_ ∨ _ ∧ _)))

/-- All places, in order. -/
def all : List PciFunction :=
  (bytes 256).flatMap fun bus => (bytes 32).flatMap fun device =>
    (bytes 8).map fun function => ⟨bus, device, function⟩

end PciFunction

/-! ### The reference -/

section Reference

variable (space : ConfigSpace) (p : PciFunction)

/-- The header a function shows at offsets `0x00`, `0x08` and `0x0C`. -/
def headerAt : PciDeviceHeader where
  vendorId := (space (p.register 0x00)).value.toUInt16
  deviceId := ((space (p.register 0x00)).value >>> 16).toUInt16
  classCode := ((space (p.register 0x08)).value >>> 24).toUInt8
  subclass := ((space (p.register 0x08)).value >>> 16).toUInt8
  headerType := ((space (p.register 0x0C)).value >>> 16).toUInt8

def Present : Prop := (headerAt space p).vendorId ≠ 0xFFFF

/-- A function counts when its device is there, and function 0 announces the others. -/
def Considered : Prop :=
  Present space p ∧ Present space p.zeroth ∧
    (p.function = 0 ∨ (headerAt space p.zeroth).headerType.toNat.testBit 7)

instance : Decidable (Present space p) := inferInstanceAs (Decidable (_ ≠ _))

instance : Decidable (Considered space p) := inferInstanceAs (Decidable (_ ∧ _ ∧ (_ ∨ _)))

/-- The kind of a function that counts. -/
def kindAt : Option ComputeKindRaw :=
  if Considered space p then classifyPciDevice (headerAt space p) else none

/-- The size a base address register shows when all ones are written to it. -/
def barSize (r : ConfigRegister) : Option UInt64 :=
  if r.value &&& 0x1 ≠ 0 then none
  else if (r.write 0xFFFFFFFF).value = 0 then none
  else some ((~~~((r.write 0xFFFFFFFF).value &&& 0xFFFFFFF0)).toUInt64 + 1)

/-- What is recorded for a function. -/
def reportAt : Option ComputeDeviceRaw :=
  (kindAt space p).map fun kind =>
    deviceEntry (headerAt space p) kind (barSize (space (p.register 0x10)))

/-- The functions that count and have a kind, in order. -/
def recognised : List PciFunction :=
  PciFunction.all.filter fun q => (kindAt space q).isSome

end Reference

/-! ### The order of the functions -/

theorem toNat_ofNat_byte {i : ℕ} (hi : i < 256) : (UInt8.ofNat i).toNat = i :=
  UInt8.toNat_ofNat_of_lt' hi

theorem mem_bytes {n : ℕ} (hn : n ≤ 256) {b : UInt8} : b ∈ bytes n ↔ b.toNat < n := by
  rw [bytes, List.mem_map]
  constructor
  · rintro ⟨i, hi, rfl⟩
    have hlt := List.mem_range.mp hi
    rwa [toNat_ofNat_byte (by omega)]
  · intro hb
    exact ⟨b.toNat, List.mem_range.mpr hb, UInt8.ofNat_toNat⟩

theorem pairwise_bytes {n : ℕ} (hn : n ≤ 256) : (bytes n).Pairwise (· < ·) := by
  rw [bytes, List.pairwise_map]
  refine List.Pairwise.imp_of_mem ?_ List.pairwise_lt_range
  intro i j _ hj hij
  have hlt := List.mem_range.mp hj
  rw [UInt8.lt_iff_toNat_lt, toNat_ofNat_byte (by omega), toNat_ofNat_byte (by omega)]
  exact hij

namespace PciFunction

theorem mem_all {p : PciFunction} : p ∈ all ↔ p.Addressable := by
  have hbus : p.bus.toNat < 256 := p.bus.toNat_lt
  simp only [all, List.mem_flatMap, List.mem_map, mem_bytes (show 256 ≤ 256 by decide),
    mem_bytes (show 32 ≤ 256 by decide), mem_bytes (show 8 ≤ 256 by decide)]
  constructor
  · rintro ⟨bus, -, device, hdevice, function, hfunction, rfl⟩
    exact ⟨hdevice, hfunction⟩
  · rintro ⟨hdevice, hfunction⟩
    exact ⟨p.bus, hbus, p.device, hdevice, p.function, hfunction, rfl⟩

theorem pairwise_all : all.Pairwise Before := by
  rw [all, List.pairwise_flatMap]
  refine ⟨fun bus _ => ?_, ?_⟩
  · rw [List.pairwise_flatMap]
    refine ⟨fun device _ => ?_, ?_⟩
    · rw [List.pairwise_map]
      exact (pairwise_bytes (by decide)).imp fun hlt => .inr ⟨rfl, .inr ⟨rfl, hlt⟩⟩
    · refine (pairwise_bytes (by decide)).imp fun hlt p hp q hq => ?_
      obtain ⟨f, -, rfl⟩ := List.mem_map.mp hp
      obtain ⟨g, -, rfl⟩ := List.mem_map.mp hq
      exact .inr ⟨rfl, .inl hlt⟩
  · refine (pairwise_bytes (by decide)).imp fun hlt p hp q hq => .inl ?_
    obtain ⟨d, -, hp⟩ := List.mem_flatMap.mp hp
    obtain ⟨e, -, hq⟩ := List.mem_flatMap.mp hq
    obtain ⟨f, -, rfl⟩ := List.mem_map.mp hp
    obtain ⟨g, -, rfl⟩ := List.mem_map.mp hq
    exact hlt

end PciFunction

/-! ### The scan reads what the reference reads -/

section Agreement

variable (mech : Mechanism) (space : ConfigSpace) {p : PciFunction}

theorem configRead_eq (hp : p.Addressable) {offset : UInt8} (hoffset : offset.toNat % 4 = 0) :
    configRead mech space p.bus p.device p.function offset = (space (p.register offset)).value := by
  rw [configRead, target_eq mech hp.1 hp.2 hoffset]
  rfl

theorem toUInt16_and_mask (w : UInt32) : (w &&& 0xFFFF).toUInt16 = w.toUInt16 := by
  apply UInt16.toNat_inj.mp
  rw [UInt32.toNat_toUInt16, UInt32.toNat_and, UInt32.toNat_toUInt16]
  exact (congrArg (· % 2 ^ 16) (Nat.and_two_pow_sub_one_eq_mod _ 16)).trans (Nat.mod_mod _ _)

theorem toUInt8_and_mask (w : UInt32) : (w &&& 0xFF).toUInt8 = w.toUInt8 := by
  apply UInt8.toNat_inj.mp
  rw [UInt32.toNat_toUInt8, UInt32.toNat_and, UInt32.toNat_toUInt8]
  exact (congrArg (· % 2 ^ 8) (Nat.and_two_pow_sub_one_eq_mod _ 8)).trans (Nat.mod_mod _ _)

theorem readPciHeader_eq (hp : p.Addressable) :
    readPciHeader mech space p.bus p.device p.function =
      if Present space p then some (headerAt space p) else none := by
  simp only [readPciHeader, configRead_eq mech space hp (show (0x00 : UInt8).toNat % 4 = 0 from rfl),
    configRead_eq mech space hp (show (0x08 : UInt8).toNat % 4 = 0 from rfl),
    configRead_eq mech space hp (show (0x0C : UInt8).toNat % 4 = 0 from rfl),
    toUInt16_and_mask, toUInt8_and_mask]
  by_cases h : Present space p
  · rw [if_pos h]
    exact if_neg h
  · rw [if_neg h]
    exact if_pos (not_not.mp h)

theorem probeBarSize_fst (hp : p.Addressable) :
    (probeBarSize mech space p.bus p.device p.function 0).1 =
      barSize (space (p.register 0x10)) := by
  have htarget : mech.target p.bus p.device p.function (0x10 + 0 * 4) = p.register 0x10 :=
    target_eq mech hp.1 hp.2 rfl
  simp only [probeBarSize, configRead, configWrite, htarget, Function.update_self, barSize]
  split
  · rfl
  · split <;> rfl

theorem entryAt_eq (hp : p.Addressable) :
    entryAt mech space p.bus p.device p.function =
      if Present space p then
        (classifyPciDevice (headerAt space p)).map fun kind =>
          deviceEntry (headerAt space p) kind (barSize (space (p.register 0x10)))
      else none := by
  rw [entryAt, readPciHeader_eq mech space hp, probeBarSize_fst mech space hp]
  split <;> rfl

variable {mech space}

theorem reportAt_of_considered (h : Considered space p) :
    reportAt space p = (classifyPciDevice (headerAt space p)).map fun kind =>
      deviceEntry (headerAt space p) kind (barSize (space (p.register 0x10))) := by
  rw [reportAt, kindAt, if_pos h]

theorem reportAt_of_not_considered (h : ¬ Considered space p) : reportAt space p = none := by
  rw [reportAt, kindAt, if_neg h]
  rfl

/-- In a device the scan goes through all eight functions, it finds what is there. -/
theorem entryAt_eq_reportAt (hp : p.Addressable) (hzeroth : Present space p.zeroth)
    (hmulti : p.function = 0 ∨ (headerAt space p.zeroth).headerType.toNat.testBit 7) :
    entryAt mech space p.bus p.device p.function = reportAt space p := by
  rw [entryAt_eq mech space hp]
  split
  · next h => rw [reportAt_of_considered ⟨h, hzeroth, hmulti⟩]
  · next h => rw [reportAt_of_not_considered fun hc => h hc.1]

theorem and_bit7_ne_zero_iff (b : UInt8) : b &&& 0x80 ≠ 0 ↔ b.toNat.testBit 7 := by
  have hand : (b &&& 0x80).toNat = (b.toNat.testBit 7).toNat * 2 ^ 7 := by
    rw [UInt8.toNat_and]
    exact Nat.and_two_pow _ 7
  rw [Ne, ← UInt8.toNat_inj, hand]
  cases b.toNat.testBit 7 <;> simp

variable (mech space)

/-- The early exits of the scan skip no function that counts. -/
theorem deviceEntries_eq (bus : UInt8) {device : UInt8} (hdevice : device.toNat < 32) :
    deviceEntries mech space bus device =
      (bytes 8).flatMap fun function => (reportAt space ⟨bus, device, function⟩).toList := by
  have hzeroth : (⟨bus, device, 0⟩ : PciFunction).Addressable := ⟨hdevice, show 0 < 8 by decide⟩
  have hread := readPciHeader_eq mech space hzeroth
  rw [deviceEntries, hread]
  by_cases hpresent : Present space ⟨bus, device, 0⟩
  · rw [if_pos hpresent]
    by_cases hmulti : (headerAt space ⟨bus, device, 0⟩).headerType.toNat.testBit 7
    · -- all eight functions are visited
      simp only [functionCount, if_pos ((and_bit7_ne_zero_iff _).mpr hmulti)]
      refine List.flatMap_congr fun function hfunction => ?_
      rw [mem_bytes (by decide)] at hfunction
      rw [entryAt_eq_reportAt (p := ⟨bus, device, function⟩) ⟨hdevice, hfunction⟩ hpresent
        (.inr hmulti)]
    · -- only function 0 counts
      simp only [functionCount, if_neg (fun h => hmulti ((and_bit7_ne_zero_iff _).mp h))]
      rw [bytes_succ 7, List.flatMap_cons, bytes_succ 0, List.flatMap_cons]
      rw [entryAt_eq_reportAt hzeroth hpresent (.inl rfl)]
      refine congrArg _ (Eq.symm (List.flatMap_eq_nil_iff.mpr ?_))
      intro function hfunction
      obtain ⟨i, hi, rfl⟩ := List.mem_map.mp hfunction
      have hlt := List.mem_range.mp hi
      rw [reportAt_of_not_considered, Option.toList_none]
      rintro ⟨-, -, hzero | hbit⟩
      · have := congrArg UInt8.toNat hzero
        rw [toNat_ofNat_byte (by omega)] at this
        exact absurd this (Nat.succ_ne_zero i)
      · exact hmulti hbit
  · -- a device without function 0 is skipped as a whole
    rw [if_neg hpresent]
    refine Eq.symm (List.flatMap_eq_nil_iff.mpr fun function _ => ?_)
    rw [reportAt_of_not_considered fun hc => hpresent hc.2.1, Option.toList_none]

theorem discoverable_eq : discoverable mech space = PciFunction.all.filterMap (reportAt space) := by
  rw [discoverable, PciFunction.all, List.filterMap_flatMap]
  refine List.flatMap_congr fun bus _ => ?_
  rw [List.filterMap_flatMap]
  refine List.flatMap_congr fun device hdevice => ?_
  rw [deviceEntries_eq mech space bus ((mem_bytes (by decide)).mp hdevice), List.filterMap_map,
    List.filterMap_eq_flatMap_toList]
  rfl

end Agreement

/-! ### The scan and the reference agree -/

/-- The entry says of a function what its own registers say. -/
structure Reports (space : ConfigSpace) (p : PciFunction) (d : ComputeDeviceRaw) : Prop where
  kind : classifyPciDevice (headerAt space p) = some d.kind
  vendor : d.vendor = ⟨(headerAt space p).vendorId.toUInt32⟩
  hasDedicatedMemory : d.hasDedicatedMemory = (barSize (space (p.register 0x10))).isSome
  dedicatedMemoryBytes :
    d.dedicatedMemoryBytes = (barSize (space (p.register 0x10))).getD 0

theorem kindAt_eq_some_iff {space : ConfigSpace} {p : PciFunction} {kind : ComputeKindRaw} :
    kindAt space p = some kind ↔
      Considered space p ∧ classifyPciDevice (headerAt space p) = some kind := by
  rw [kindAt]
  split
  · next h => exact (and_iff_right h).symm
  · next h => exact iff_of_false (by simp) fun hc => h hc.1

theorem reports_of_reportAt {space : ConfigSpace} {p : PciFunction} {d : ComputeDeviceRaw}
    (h : reportAt space p = some d) : Reports space p d := by
  obtain ⟨kind, hkind, rfl⟩ := Option.map_eq_some_iff.mp h
  exact ⟨(kindAt_eq_some_iff.mp hkind).2, rfl, rfl, rfl⟩

theorem mem_recognised {space : ConfigSpace} {p : PciFunction} :
    p ∈ recognised space ↔ p.Addressable ∧ Considered space p ∧
      (classifyPciDevice (headerAt space p)).isSome := by
  rw [recognised, List.mem_filter, PciFunction.mem_all, Option.isSome_iff_exists,
    Option.isSome_iff_exists]
  simp only [kindAt_eq_some_iff, exists_and_left]

theorem pairwise_recognised (space : ConfigSpace) :
    (recognised space).Pairwise PciFunction.Before :=
  PciFunction.pairwise_all.filter _

/-- The functions left by a filter and what they are mapped to, side by side. -/
theorem forall₂_filter_filterMap {α β : Type*} (f : α → Option β) (as : List α) :
    List.Forall₂ (fun a b => f a = some b) (as.filter fun a => (f a).isSome) (as.filterMap f) := by
  induction as with
  | nil => exact .nil
  | cons a as ih =>
    cases h : f a with
    | none => simpa [h] using ih
    | some b =>
      rw [List.filter_cons_of_pos (by simp [h]), List.filterMap_cons_some h]
      exact .cons h ih

theorem forall₂_enumerate_new (arch : Arch) (ecamBase : UInt64) (space : ConfigSpace) :
    List.Forall₂ (fun p d => reportAt space p = some d) ((recognised space).take maxComputeDevices)
      (ComputeDiscovery.new arch ecamBase space).enumerateComputeDevices := by
  rw [enumerateComputeDevices_new, discoverable_eq]
  have hfilter : recognised space = PciFunction.all.filter fun p => (reportAt space p).isSome := by
    simp only [recognised, reportAt, Option.isSome_map]
  rw [hfilter]
  exact List.forall₂_take _ (forall₂_filter_filterMap (reportAt space) PciFunction.all)

/-- The scan puts every register back, also when it is left early. -/
theorem space_scan (mech : Mechanism) (space : ConfigSpace) : (scan mech space).space = space := by
  -- one loop inside the other, each keeps what its body keeps
  have hfunction : ∀ bus device (st : ScanState) function, st.space = space →
      (Loop.final (scanFunction mech bus device st function)).space = space := by
    intro bus device st function hst
    rw [scanFunction]
    split
    · exact hst
    · split
      · exact hst
      · split
        · exact (probeBarSize_snd mech st.space bus device function 0).trans hst
        · exact hst
  have hdevice : ∀ bus (st : ScanState) device, st.space = space →
      (Loop.final (scanDevice mech bus st device)).space = space := by
    intro bus st device hst
    rw [scanDevice]
    split
    · exact hst
    · exact Loop.final_loop (P := fun st => st.space = space) (hfunction bus device) _ st hst
  have hbus : ∀ (st : ScanState) bus, st.space = space →
      (Loop.final (scanBus mech st bus)).space = space :=
    fun st bus hst => Loop.final_loop (P := fun st => st.space = space) (hdevice bus) _ st hst
  exact Loop.final_loop (P := fun st : ScanState => st.space = space) hbus _ _ rfl

/-- A rescan leaves what a new scan would find, whatever was found before. -/
theorem rescan_eq_new (arch : Arch) (ecamBase : UInt64) (previous : ComputeDiscovery)
    (kindFilter : Option ComputeKindRaw) (space : ConfigSpace) :
    previous.rescan arch ecamBase kindFilter space =
      (.ok (), ComputeDiscovery.new arch ecamBase space, space) := by
  rw [ComputeDiscovery.rescan]
  simp only [space_scan]
  rw [if_neg (not_lt.mpr (scan (mechanism arch ecamBase) space).devices.count_le)]
  rfl

/-- The scan records the first 32 functions, in order, that are there and have a kind; it
leaves the configuration space alone, finds the same devices on every architecture, and
a rescan is a new scan. -/
theorem scan_eq_reference (arch : Arch) (ecamBase : UInt64) (space : ConfigSpace) :
    let compute := ComputeDiscovery.new arch ecamBase space
    (recognised space).Pairwise PciFunction.Before ∧
      (∀ p, p ∈ recognised space ↔ p.Addressable ∧ Considered space p ∧
        (classifyPciDevice (headerAt space p)).isSome) ∧
      List.Forall₂ (Reports space) ((recognised space).take maxComputeDevices)
        compute.enumerateComputeDevices ∧
      (scan (mechanism arch ecamBase) space).space = space ∧
      (∀ arch' ecamBase', (ComputeDiscovery.new arch' ecamBase' space).enumerateComputeDevices =
        compute.enumerateComputeDevices) ∧
      ∀ (previous : ComputeDiscovery) (kindFilter : Option ComputeKindRaw),
        previous.rescan arch ecamBase kindFilter space = (.ok (), compute, space) := by
  intro compute
  refine ⟨pairwise_recognised space, fun p => mem_recognised, ?_, space_scan _ space, ?_, ?_⟩
  · exact (forall₂_enumerate_new arch ecamBase space).imp fun p d => reports_of_reportAt
  · intro arch' ecamBase'
    rw [enumerateComputeDevices_new, enumerateComputeDevices_new, discoverable_eq,
      discoverable_eq]
  · exact fun previous kindFilter => rescan_eq_new arch ecamBase previous kindFilter space

/-! ### Overflow -/

/-- `rescan` refuses exactly the configuration spaces with more functions than there is room
for. -/
def ReportsOverflow (arch : Arch) (ecamBase : UInt64) (previous : ComputeDiscovery)
    (kindFilter : Option ComputeKindRaw) (space : ConfigSpace) : Prop :=
  let result := (previous.rescan arch ecamBase kindFilter space).1
  (result = .error .tooManyComputeDevices ↔ maxComputeDevices < (recognised space).length) ∧
    ((recognised space).length ≤ maxComputeDevices → result = .ok ())

/-- The scan never counts past the room there is, so `rescan` refuses nothing. -/
theorem reportsOverflow_iff (arch : Arch) (ecamBase : UInt64) (previous : ComputeDiscovery)
    (kindFilter : Option ComputeKindRaw) (space : ConfigSpace) :
    ReportsOverflow arch ecamBase previous kindFilter space ↔
      (recognised space).length ≤ maxComputeDevices := by
  rw [ReportsOverflow, rescan_eq_new]
  simp only [reduceCtorEq, false_iff, not_lt, implies_true, and_true]

/-- A configuration space in which every register reads the same: a display controller with
eight functions in every place. -/
def displaySpace : ConfigSpace := fun _ => ⟨0x03800000, 0⟩

theorem recognised_displaySpace : recognised displaySpace = PciFunction.all := by
  have hheader : ∀ p, headerAt displaySpace p = ⟨0x0000, 0x0380, 0x03, 0x80, 0x80⟩ := by
    intro p
    simp only [headerAt, displaySpace]
    decide
  have hpresent : ∀ p, Present displaySpace p := by
    intro p
    rw [Present, hheader]
    decide
  refine List.filter_eq_self.mpr fun p _ => ?_
  have hkind : kindAt displaySpace p = some .gpu := by
    refine kindAt_eq_some_iff.mpr ⟨⟨hpresent p, hpresent p.zeroth, .inr ?_⟩, ?_⟩
    · rw [hheader]
      decide
    · rw [hheader]
      decide
  rw [hkind]
  rfl

theorem maxComputeDevices_lt_length_all : maxComputeDevices < PciFunction.all.length := by
  simp only [PciFunction.all, List.length_flatMap, List.length_map, bytes, List.length_range,
    List.map_const', List.sum_replicate]
  decide

theorem rescan_ignores_overflow :
    maxComputeDevices < (recognised displaySpace).length ∧
      ((ComputeDiscovery.new .x86_64 0 displaySpace).rescan .x86_64 0 none displaySpace).1 =
        .ok () ∧
      ¬ ReportsOverflow .x86_64 0 (ComputeDiscovery.new .x86_64 0 displaySpace) none
        displaySpace := by
  have hmany : maxComputeDevices < (recognised displaySpace).length := by
    rw [recognised_displaySpace]
    exact maxComputeDevices_lt_length_all
  have hok : ((ComputeDiscovery.new .x86_64 0 displaySpace).rescan .x86_64 0 none
      displaySpace).1 = .ok () := by
    rw [rescan_eq_new]
  refine ⟨hmany, hok, fun h => ?_⟩
  have herror := h.1.mpr hmany
  rw [hok] at herror
  cases herror

end SimurghHal.Compute
