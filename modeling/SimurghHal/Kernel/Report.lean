import SimurghHal.Core.Boot
import SimurghHal.Kernel.Serial

/-!
# The report of the kernel stub (`kernel_main` of `kernel-stub/src/main.rs`)

`kernel_main` prints what it was handed: the boot protocol, the counts of the manifest, whether
the boot structure passes its check, and two answers of the erased HAL interface
(`hal-core/src/interface.rs`). The text is read by people and by boot tests, so it has to be
readable back: `report_eq_iff` says which facts two equal reports have in common.
-/

namespace SimurghHal

/-- `fmt::Display` of `HalError`. -/
def HalError.display : HalError → String
  | .unsupportedPrivilegeLevel => "unsupported CPU privilege level transition"
  | .invalidCoreId => "invalid CPU core id"
  | .memoryMapUnavailable => "firmware memory map unavailable or malformed"
  | .tooManyMemoryRegions => "more memory regions than manifest capacity allows"
  | .invalidMemoryRegion => "invalid or overlapping memory region"
  | .noTimerSource => "no hardware timer source detected"
  | .ticklessModeUnsupported => "tickless timer mode not supported by hardware"
  | .invalidTimerDeadline => "invalid timer deadline"
  | .invalidIrqId => "invalid IRQ id for detected interrupt controller"
  | .irqAlreadyRegistered => "IRQ line already has a registered handler"
  | .invalidIpiTarget => "invalid inter-processor interrupt target core"
  | .computeDiscoveryFailed => "heterogeneous compute device discovery failed"
  | .tooManyComputeDevices => "more compute devices than manifest capacity allows"
  | .invalidPowerDomain => "invalid power domain id"
  | .dvfsUnsupported => "power domain does not support DVFS"
  | .thermalSensorUnavailable => "power domain has no thermal sensor"
  | .bootProtocolUnrecognized => "no recognizable boot protocol found"
  | .malformedBootInfo => "malformed boot info structure from bootloader/firmware"
  | .invalidCapabilityToken => "capability token failed hal-direct verification"
  | .hardwareFault => "unspecified hardware fault"

/-- The derived `fmt::Debug` of `BootProtocol`. -/
def BootProtocol.debug : BootProtocol → String
  | .uefi => "Uefi"
  | .sbiDeviceTree => "SbiDeviceTree"

namespace Kernel

/-! ### The erased interface -/

/-- The methods of `CpuAbstraction` behind `HalInterface`. -/
structure CpuAbstraction (C : Type) where
  coreCount : C → UInt64
  currentCoreId : C → UInt64
  featureFlags : C → UInt64

/-- The methods of `TimerAbstraction` behind `HalInterface`. -/
structure TimerAbstraction (T : Type) where
  nowNs : T → UInt64
  frequencyHz : T → UInt64

/-- `HalInterface`: two states whose types are forgotten, with the functions for them. -/
structure HalInterface where
  CpuState : Type
  TimerState : Type
  cpuState : CpuState
  timerState : TimerState
  cpuCoreCount : CpuState → UInt64
  cpuCurrentCoreId : CpuState → UInt64
  cpuFeatureFlagsBits : CpuState → UInt64
  timerNowNs : TimerState → UInt64
  timerFrequencyHz : TimerState → UInt64

namespace HalInterface

variable (hal : HalInterface)

def coreCount : UInt64 := hal.cpuCoreCount hal.cpuState
def currentCoreId : UInt64 := hal.cpuCurrentCoreId hal.cpuState
def featureFlagsBits : UInt64 := hal.cpuFeatureFlagsBits hal.cpuState
def nowNs : UInt64 := hal.timerNowNs hal.timerState
def frequencyHz : UInt64 := hal.timerFrequencyHz hal.timerState

end HalInterface

/-- `build_interface`. -/
def buildInterface {C T : Type} (Cpu : CpuAbstraction C) (Timer : TimerAbstraction T)
    (cpu : C) (timer : T) : HalInterface where
  CpuState := C
  TimerState := T
  cpuState := cpu
  timerState := timer
  cpuCoreCount := Cpu.coreCount
  cpuCurrentCoreId := Cpu.currentCoreId
  cpuFeatureFlagsBits := Cpu.featureFlags
  timerNowNs := Timer.nowNs
  timerFrequencyHz := Timer.frequencyHz

/-! ### The text -/

def rule : String := "---------------------------------------------"

/-- The line on `BootInfo::validate`. -/
def validationLine (b : BootInfo) : String :=
  match b.validate with
  | .ok () => "BootInfo validation: OK"
  | .error err => "BootInfo validation FAILED: " ++ err.display

/-- The lines `kernel_main` writes. -/
def lines (hal : HalInterface) (b : BootInfo) : List String :=
  [ "hello from kernel",
    rule,
    "boot protocol: " ++ b.protocol.debug,
    "cpu cores: " ++ b.hardwareManifest.cpuCoreCount.toNat.repr,
    "memory regions: " ++ b.hardwareManifest.memoryRegionCount.toNat.repr,
    "compute devices: " ++ b.hardwareManifest.computeDeviceCount.toNat.repr,
    "power domains: " ++ b.hardwareManifest.powerDomainCount.toNat.repr,
    validationLine b,
    rule,
    "hal cpu core count (via HalInterface): " ++ hal.coreCount.toNat.repr,
    "hal timer frequency_hz (via HalInterface): " ++ hal.frequencyHz.toNat.repr,
    "kernel-stub halting (Phase 1 HAL boot test complete)" ]

/-- `writeln!` for each line. -/
def writelnAll : List String → String
  | [] => ""
  | line :: lines => line ++ "\n" ++ writelnAll lines

/-- The bytes of a text, as `s.bytes()` gives them. -/
def bytes (s : String) : List UInt8 := s.toByteArray.data.toList

def report (hal : HalInterface) (b : BootInfo) : List UInt8 := bytes (writelnAll (lines hal b))

/-- `kernel_main` up to its halt, on a serial device as it is found. -/
def kernelMain {B : Serial.Backend} (hal : HalInterface) (b : BootInfo) (d : B.Device) :
    Serial.Machine B := .print d (report hal b)

/-! ### Reading the text back -/

theorem bytes_injective : Function.Injective bytes := by
  intro s t h
  exact String.toByteArray_inj.mp (ByteArray.ext (Array.toList_inj.mp h))

/-- The first newline ends the first line. -/
theorem append_newline_inj {a a' r r' : List Char} (ha : '\n' ∉ a) (ha' : '\n' ∉ a')
    (h : a ++ '\n' :: r = a' ++ '\n' :: r') : a = a' ∧ r = r' := by
  induction a generalizing a' with
  | nil =>
    cases a' with
    | nil => exact ⟨rfl, (List.cons.inj h).2⟩
    | cons c a' => exact absurd ((List.cons.inj h).1 ▸ List.mem_cons_self) ha'
  | cons c a ih =>
    cases a' with
    | nil => exact absurd ((List.cons.inj h).1.symm ▸ List.mem_cons_self) ha
    | cons c' a' =>
      obtain ⟨rfl, htail⟩ := List.cons.inj h
      obtain ⟨rfl, rfl⟩ := ih (fun hmem => ha (List.mem_cons_of_mem _ hmem))
        (fun hmem => ha' (List.mem_cons_of_mem _ hmem)) htail
      exact ⟨rfl, rfl⟩

/-- A text without newline. -/
def OneLine (s : String) : Prop := '\n' ∉ s.toList

instance (s : String) : Decidable (OneLine s) := inferInstanceAs (Decidable ('\n' ∉ s.toList))

theorem toList_writelnAll_cons (line : String) (lines : List String) :
    (writelnAll (line :: lines)).toList = line.toList ++ '\n' :: (writelnAll lines).toList := by
  rw [writelnAll, String.toList_append, String.toList_append, List.append_assoc]
  rfl

theorem writelnAll_injOn {xs ys : List String} (hxs : ∀ s ∈ xs, OneLine s)
    (hys : ∀ s ∈ ys, OneLine s) (h : writelnAll xs = writelnAll ys) : xs = ys := by
  induction xs generalizing ys with
  | nil =>
    cases ys with
    | nil => rfl
    | cons y ys =>
      have hlist := congrArg String.toList h
      rw [toList_writelnAll_cons] at hlist
      exact absurd (congrArg List.length hlist) (by simp [writelnAll])
  | cons x xs ih =>
    cases ys with
    | nil =>
      have hlist := congrArg String.toList h
      rw [toList_writelnAll_cons] at hlist
      exact absurd (congrArg List.length hlist) (by simp [writelnAll])
    | cons y ys =>
      have hlist := congrArg String.toList h
      rw [toList_writelnAll_cons, toList_writelnAll_cons] at hlist
      obtain ⟨hline, hrest⟩ := append_newline_inj (hxs x List.mem_cons_self)
        (hys y List.mem_cons_self) hlist
      rw [String.toList_injective hline,
        ih (fun s hs => hxs s (List.mem_cons_of_mem _ hs))
          (fun s hs => hys s (List.mem_cons_of_mem _ hs)) (String.toList_injective hrest)]

theorem oneLine_append {s t : String} (hs : OneLine s) (ht : OneLine t) : OneLine (s ++ t) := by
  rw [OneLine, String.toList_append, List.mem_append]
  exact not_or.mpr ⟨hs, ht⟩

/-- A number is printed in digits. -/
theorem oneLine_repr (n : ℕ) : OneLine n.repr := by
  rw [OneLine, Nat.toList_repr]
  intro hmem
  exact absurd (Nat.isDigit_of_mem_toDigits (by decide) (by decide) hmem) (by decide)

theorem repr_inj {m n : ℕ} : m.repr = n.repr ↔ m = n := by
  refine ⟨fun h => ?_, fun h => congrArg Nat.repr h⟩
  have hdigits := congrArg String.toList h
  rw [Nat.toList_repr, Nat.toList_repr] at hdigits
  rw [← Nat.ofDigitChars_toDigits (n := m) (b := 10) (by decide) (by decide), hdigits,
    Nat.ofDigitChars_toDigits (by decide) (by decide)]

theorem append_left_inj_string {s t u : String} : s ++ t = s ++ u ↔ t = u := by
  rw [← String.toList_inj, String.toList_append, String.toList_append, List.append_cancel_left_eq,
    String.toList_inj]

theorem validate_ok_or_malformed (b : BootInfo) :
    b.validate = .ok () ∨ b.validate = .error .malformedBootInfo := by
  rw [BootInfo.validate]
  split
  · exact .inr rfl
  · split
    · exact .inr rfl
    · split
      · exact .inr rfl
      · split
        · exact .inr rfl
        · exact .inl rfl

theorem validationLine_inj {b b' : BootInfo} :
    validationLine b = validationLine b' ↔ b.validate = b'.validate := by
  rw [validationLine, validationLine]
  obtain h | h := validate_ok_or_malformed b <;> obtain h' | h' := validate_ok_or_malformed b' <;>
    simp [h, h', HalError.display]

theorem oneLine_lines (hal : HalInterface) (b : BootInfo) : ∀ s ∈ lines hal b, OneLine s := by
  have hprotocol : OneLine b.protocol.debug := by
    cases b.protocol <;> decide
  have hvalidation : OneLine (validationLine b) := by
    rw [validationLine]
    obtain h | h := validate_ok_or_malformed b
    · rw [h]
      decide
    · rw [h]
      decide
  have hnumber : ∀ {s : String} (n : ℕ), OneLine s → OneLine (s ++ n.repr) :=
    fun n hs => oneLine_append hs (oneLine_repr n)
  intro s hs
  simp only [lines, List.mem_cons, List.not_mem_nil, or_false] at hs
  obtain rfl | rfl | rfl | rfl | rfl | rfl | rfl | rfl | rfl | rfl | rfl | rfl := hs
  · decide
  · decide
  · exact oneLine_append (by decide) hprotocol
  · exact hnumber _ (by decide)
  · exact hnumber _ (by decide)
  · exact hnumber _ (by decide)
  · exact hnumber _ (by decide)
  · exact hvalidation
  · decide
  · exact hnumber _ (by decide)
  · exact hnumber _ (by decide)
  · decide

theorem debug_inj {p q : BootProtocol} : p.debug = q.debug ↔ p = q := by
  cases p <;> cases q <;> decide

/-- What a report tells of a boot. -/
structure SameFacts (hal hal' : HalInterface) (b b' : BootInfo) : Prop where
  protocol : b.protocol = b'.protocol
  cpuCoreCount : b.hardwareManifest.cpuCoreCount = b'.hardwareManifest.cpuCoreCount
  memoryRegionCount : b.hardwareManifest.memoryRegionCount = b'.hardwareManifest.memoryRegionCount
  computeDeviceCount :
    b.hardwareManifest.computeDeviceCount = b'.hardwareManifest.computeDeviceCount
  powerDomainCount : b.hardwareManifest.powerDomainCount = b'.hardwareManifest.powerDomainCount
  validate : b.validate = b'.validate
  coreCount : hal.coreCount = hal'.coreCount
  frequencyHz : hal.frequencyHz = hal'.frequencyHz

/-- Two reports are equal exactly when all the facts they tell are. -/
theorem report_inj {hal hal' : HalInterface} {b b' : BootInfo} :
    report hal b = report hal' b' ↔ SameFacts hal hal' b b' := by
  constructor
  · intro h
    have hlines := writelnAll_injOn (oneLine_lines hal b) (oneLine_lines hal' b')
      (bytes_injective h)
    simp only [lines, List.cons.injEq, append_left_inj_string, repr_inj, debug_inj,
      validationLine_inj, UInt32.toNat_inj, UInt64.toNat_inj, true_and, and_true] at hlines
    obtain ⟨hprotocol, hcpu, hmem, hdev, hpow, hvalid, hcount, hfreq⟩ := hlines
    exact ⟨hprotocol, hcpu, hmem, hdev, hpow, hvalid, hcount, hfreq⟩
  · rintro ⟨hprotocol, hcpu, hmem, hdev, hpow, hvalid, hcount, hfreq⟩
    have hline := validationLine_inj.mpr hvalid
    rw [report, report, lines, lines, hprotocol, hcpu, hmem, hdev, hpow, hline, hcount, hfreq]

open Serial FairRun Polling in
/-- Two boots whose serial lines were clean and whose code and devices get their turns end with
the same output exactly when the reported facts are the same. -/
theorem sent_eq_iff (hal hal' : HalInterface) (b b' : BootInfo) (uart uart' : Uart)
    (d : uart.backend.Device) (d' : uart'.backend.Device) {schedule schedule' : ℕ → Agent}
    (hclean : uart.backend.line d = []) (hclean' : uart'.backend.line d' = [])
    (hfair : Fair schedule) (hfair' : Fair schedule') :
    ∃ n, ∀ k, n ≤ k →
      (uart.backend.sent (trajectory Machine.step schedule (kernelMain hal b d) k).device =
        uart'.backend.sent (trajectory Machine.step schedule' (kernelMain hal' b' d') k).device ↔
      SameFacts hal hal' b b') := by
  obtain ⟨found, lost, n, hline, -, hsent⟩ := uart.polled.exists_sent d (report hal b) hfair
  obtain ⟨found', lost', n', hline', -, hsent'⟩ :=
    uart'.polled.exists_sent d' (report hal' b') hfair'
  rw [hclean, eq_comm, List.append_eq_nil_iff] at hline
  rw [hclean', eq_comm, List.append_eq_nil_iff] at hline'
  refine ⟨max n n', fun k hk => ?_⟩
  have hfinal := (hsent k ((le_max_left _ _).trans hk)).2.2
  have hfinal' := (hsent' k ((le_max_right _ _).trans hk)).2.2
  rw [hline.1, List.nil_append] at hfinal
  rw [hline'.1, List.nil_append] at hfinal'
  rw [kernelMain, kernelMain, hfinal, hfinal', report_inj]

/-- The interface of the unit tests of `interface.rs`. -/
def mockInterface : HalInterface :=
  buildInterface (C := Unit) (T := Unit) ⟨fun _ => 4, fun _ => 2, fun _ => 1⟩
    ⟨fun _ => 123456, fun _ => 1000000000⟩ () ()

open Serial FairRun Polling in
/-- A boot structure of a later version is told apart, also across devices. -/
theorem sent_ne_of_version :
    let schedule := fun n => if n % 2 = 0 then Agent.driver else Agent.device
    let b := BootInfo.new .uefi .zeroed 0 (0, 0) (0, 0) 0
    let d : Uart16550 := ⟨⟨0, 0, 0, 0, 0, 0⟩, 0, [], []⟩
    let d' : Pl011 16 := ⟨0, [], [], by decide⟩
    ∃ n, ∀ k, n ≤ k →
      uart16550.sent (trajectory Machine.step schedule
          (kernelMain (B := uart16550) mockInterface b d) k).device ≠
        (pl011 16).sent (trajectory Machine.step schedule
          (kernelMain (B := pl011 16) mockInterface { b with version := 2 } d') k).device := by
  intro schedule b d d'
  obtain ⟨n, hn⟩ := sent_eq_iff mockInterface mockInterface b { b with version := 2 }
    .ns16550 (.pl011 16) d d' rfl rfl fair_alternating fair_alternating
  refine ⟨n, fun k hk hsame => ?_⟩
  exact absurd ((hn k hk).mp hsame).validate (by decide)

end Kernel

end SimurghHal
