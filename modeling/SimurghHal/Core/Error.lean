import Mathlib.Init

/-!
# Errors and target architectures

`HalError` is the one error type of `hal-core`. `Arch` names the three
architecture crates, so that statements about all of them quantify over it.
-/

namespace SimurghHal

/-- `hal_core::error::HalError`. -/
inductive HalError where
  | unsupportedPrivilegeLevel
  | invalidCoreId
  | memoryMapUnavailable
  | tooManyMemoryRegions
  | invalidMemoryRegion
  | noTimerSource
  | ticklessModeUnsupported
  | invalidTimerDeadline
  | invalidIrqId
  | irqAlreadyRegistered
  | invalidIpiTarget
  | computeDiscoveryFailed
  | tooManyComputeDevices
  | invalidPowerDomain
  | dvfsUnsupported
  | thermalSensorUnavailable
  | bootProtocolUnrecognized
  | malformedBootInfo
  | invalidCapabilityToken
  | hardwareFault
  deriving DecidableEq, Repr

/-- The architecture crates `hal-x86_64`, `hal-arm64` and `hal-riscv64`. -/
inductive Arch where
  | x86_64
  | arm64
  | riscv64
  deriving DecidableEq, Repr

end SimurghHal
