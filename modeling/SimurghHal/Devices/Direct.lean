import SimurghHal.Paging.Refinement

/-!
# Capability-gated direct access (`hal-direct/src/lib.rs`, `hal-*/src/direct.rs`)

Every operation builds the scope it requires from its arguments and verifies the
caller's token against it before doing anything. The state of the model holds the
page tables and the sequence of performance counters read, so that every effect of
an operation is visible in it.
-/

namespace SimurghHal.Direct

open Manifest

def maxSignatureBytes : ℕ := 64

/-- `CapabilityScope`. -/
inductive CapabilityScope where
  | mmioRegion (physBase size : UInt64)
  | performanceCounter (counterId : UInt32)
  | threadAffinity (coreId : UInt32)
  | numaPolicy
  deriving DecidableEq, Repr

/-- `CapabilityToken`. -/
structure CapabilityToken where
  subjectId : UInt64
  scope : CapabilityScope
  expiresAtNs : UInt64
  signature : Vector UInt8 maxSignatureBytes
  signatureLen : UInt8
  deriving DecidableEq

/-- `CapabilityToken::new`. -/
def CapabilityToken.new (subjectId : UInt64) (scope : CapabilityScope) (expiresAtNs : UInt64) :
    CapabilityToken :=
  ⟨subjectId, scope, expiresAtNs, Vector.replicate _ 0, 0⟩

/-- `CapabilityToken::covers`. -/
def CapabilityToken.covers (token : CapabilityToken) (requested : CapabilityScope) : Bool :=
  token.scope = requested

/-- `CapabilityToken::is_expired`. -/
def CapabilityToken.isExpired (token : CapabilityToken) (nowNs : UInt64) : Bool :=
  token.expiresAtNs ≤ nowNs

/-- `TokenVerifier::verify_signature`, whatever it does. -/
abbrev TokenVerifier := CapabilityToken → Except HalError Unit

/-- `verify_token`. -/
def verifyToken (verifier : TokenVerifier) (token : CapabilityToken)
    (requiredScope : CapabilityScope) (nowNs : UInt64) : Except HalError Unit :=
  if !token.covers requiredScope then .error .invalidCapabilityToken
  else if token.isExpired nowNs then .error .invalidCapabilityToken
  else verifier token

theorem verifyToken_eq_ok_iff (verifier : TokenVerifier) (token : CapabilityToken)
    (scope : CapabilityScope) (nowNs : UInt64) :
    verifyToken verifier token scope nowNs = .ok () ↔
      token.scope = scope ∧ nowNs < token.expiresAtNs ∧ verifier token = .ok () := by
  simp only [verifyToken, CapabilityToken.covers, CapabilityToken.isExpired]
  by_cases hscope : token.scope = scope
  · by_cases hexp : token.expiresAtNs ≤ nowNs
    · simp [hscope, hexp, UInt64.not_lt]
    · simp [hscope, hexp, UInt64.not_le.mp hexp]
  · simp [hscope]

/-- `NumaPolicy`. -/
inductive NumaPolicy where
  | local
  | interleaved
  | preferred (node : UInt8)
  | strict (node : UInt8)
  deriving DecidableEq, Repr

/-- What the operations act on. -/
structure DirectState where
  tables : Paging.PageTables
  countersRead : List UInt32

/-- `DirectAccess`: the verifier and what the operations read from the platform. -/
structure DirectAccess (arch : Arch) where
  verifier : TokenVerifier
  layout : Paging.FrameLayout (Paging.physBits arch)
  iommuPresent : Bool
  /-- Values of the hardware performance counters. -/
  counters : UInt32 → UInt64

section Operations

variable {arch : Arch} (A : DirectAccess arch) (nowNs : UInt64) (token : CapabilityToken)

/-- `map_mmio_region`. -/
def mapMmioRegion (phys size : UInt64) (st : DirectState) :
    Except HalError UInt64 × DirectState :=
  match verifyToken A.verifier token (.mmioRegion phys size) nowNs with
  | .error e => (.error e, st)
  | .ok () =>
    let region : MemoryRegion := ⟨phys, size, .mmio, A.iommuPresent⟩
    let (result, tables) := Paging.mapRegion arch A.layout st.tables ⟨region, .deviceMmio⟩
    (result, { st with tables })

/-- Reads a hardware counter. -/
def readCounter (counter : UInt32) (st : DirectState) : Except HalError UInt64 × DirectState :=
  (.ok (A.counters counter), { st with countersRead := st.countersRead ++ [counter] })

/-- `read_performance_counter`. RISC-V can address `cycle` and `instret` only. -/
def readPerformanceCounter (counter : UInt32) (st : DirectState) :
    Except HalError UInt64 × DirectState :=
  match verifyToken A.verifier token (.performanceCounter counter) nowNs with
  | .error e => (.error e, st)
  | .ok () =>
    match arch with
    | .x86_64 => readCounter A counter st
    | .arm64 => readCounter A counter st
    | .riscv64 =>
      if counter = 0 ∨ counter = 2 then readCounter A counter st
      else (.error .invalidCapabilityToken, st)

/-- `pin_thread_to_core`. The requested core id is cut to 32 bits for the scope. -/
def pinThreadToCore (coreId : UInt64) (st : DirectState) : Except HalError Unit × DirectState :=
  match verifyToken A.verifier token (.threadAffinity coreId.toUInt32) nowNs with
  | .error e => (.error e, st)
  | .ok () => (.ok (), st)

/-- `set_numa_policy`. -/
def setNumaPolicy (_policy : NumaPolicy) (st : DirectState) : Except HalError Unit × DirectState :=
  match verifyToken A.verifier token .numaPolicy nowNs with
  | .error e => (.error e, st)
  | .ok () => (.ok (), st)

end Operations

/-- A call of one of the four operations. -/
inductive DirectOp where
  | mapMmioRegion (phys size : UInt64)
  | readPerformanceCounter (counter : UInt32)
  | pinThreadToCore (coreId : UInt64)
  | setNumaPolicy (policy : NumaPolicy)
  deriving DecidableEq, Repr

/-- The four operations as one machine; the value returned is 0 where there is none. -/
def perform {arch : Arch} (A : DirectAccess arch) (nowNs : UInt64) (token : CapabilityToken)
    (st : DirectState) : DirectOp → Except HalError UInt64 × DirectState
  | .mapMmioRegion phys size => mapMmioRegion A nowNs token phys size st
  | .readPerformanceCounter counter => readPerformanceCounter A nowNs token counter st
  | .pinThreadToCore coreId =>
    let (result, st') := pinThreadToCore A nowNs token coreId st
    (result.map fun _ => 0, st')
  | .setNumaPolicy policy =>
    let (result, st') := setNumaPolicy A nowNs token policy st
    (result.map fun _ => 0, st')

/-- The scope the code requires for a call. -/
def DirectOp.requiredScope : DirectOp → CapabilityScope
  | .mapMmioRegion phys size => .mmioRegion phys size
  | .readPerformanceCounter counter => .performanceCounter counter
  | .pinThreadToCore coreId => .threadAffinity coreId.toUInt32
  | .setNumaPolicy _ => .numaPolicy

/-- The scope names exactly the resource of the call, compared at full width. -/
def Names : CapabilityScope → DirectOp → Prop
  | .mmioRegion physBase size, .mapMmioRegion phys len => physBase = phys ∧ size = len
  | .performanceCounter counterId, .readPerformanceCounter counter => counterId = counter
  | .threadAffinity coreId, .pinThreadToCore core => coreId.toNat = core.toNat
  | .numaPolicy, .setNumaPolicy _ => True
  | _, _ => False

/-- The call succeeds or leaves a trace in the state. -/
def HasEffect {arch : Arch} (A : DirectAccess arch) (nowNs : UInt64) (token : CapabilityToken)
    (st : DirectState) (op : DirectOp) : Prop :=
  (perform A nowNs token st op).1.isOk = true ∨ (perform A nowNs token st op).2 ≠ st

/-- The token authorises the call: right resource, not expired, accepted. -/
def Authorised {arch : Arch} (A : DirectAccess arch) (nowNs : UInt64) (token : CapabilityToken)
    (op : DirectOp) : Prop :=
  Names token.scope op ∧ nowNs < token.expiresAtNs ∧ A.verifier token = .ok ()

/-- The core id of a pin request fits in the 32 bits of a scope. -/
def DirectOp.CoreFits : DirectOp → Prop
  | .pinThreadToCore coreId => coreId.toNat < 2 ^ 32
  | _ => True

section Soundness

variable {arch : Arch} {A : DirectAccess arch} {nowNs : UInt64} {token : CapabilityToken}
  {st : DirectState} {op : DirectOp}

/-- A call whose verification fails has no effect. -/
theorem perform_of_verify_error {e : HalError}
    (h : verifyToken A.verifier token op.requiredScope nowNs = .error e) :
    perform A nowNs token st op = (.error e, st) := by
  cases op with
  | mapMmioRegion phys size =>
    rw [DirectOp.requiredScope] at h
    rw [perform, mapMmioRegion, h]
  | readPerformanceCounter counter =>
    rw [DirectOp.requiredScope] at h
    simp only [perform, readPerformanceCounter, h]
  | pinThreadToCore coreId =>
    rw [DirectOp.requiredScope] at h
    rw [perform, pinThreadToCore, h]
    rfl
  | setNumaPolicy policy =>
    rw [DirectOp.requiredScope] at h
    rw [perform, setNumaPolicy, h]
    rfl

/-- Whatever has an effect passed verification of the scope the code requires. -/
theorem verifyToken_of_hasEffect (h : HasEffect A nowNs token st op) :
    verifyToken A.verifier token op.requiredScope nowNs = .ok () := by
  cases hv : verifyToken A.verifier token op.requiredScope nowNs with
  | ok u => rfl
  | error e =>
    rw [HasEffect, perform_of_verify_error hv] at h
    rcases h with h | h
    · cases h
    · exact absurd rfl h

theorem perform_snd_of_not_ok
    (h : verifyToken A.verifier token op.requiredScope nowNs ≠ .ok ()) :
    (perform A nowNs token st op).2 = st := by
  by_contra hst
  exact h (verifyToken_of_hasEffect (.inr hst))

theorem toNat_toUInt32 (coreId : UInt64) : coreId.toUInt32.toNat = coreId.toNat % 2 ^ 32 :=
  UInt64.toNat_toUInt32 _

/-- The required scope names the resource of the call unless a core id is cut. -/
theorem names_requiredScope_iff (op : DirectOp) : Names op.requiredScope op ↔ op.CoreFits := by
  cases op with
  | mapMmioRegion phys size => simp [DirectOp.requiredScope, Names, DirectOp.CoreFits]
  | readPerformanceCounter counter => simp [DirectOp.requiredScope, Names, DirectOp.CoreFits]
  | pinThreadToCore coreId =>
    have hlt := coreId.toNat_lt
    simp only [DirectOp.requiredScope, Names, DirectOp.CoreFits, toNat_toUInt32]
    omega
  | setNumaPolicy policy => simp [DirectOp.requiredScope, Names, DirectOp.CoreFits]

/-- A pin request succeeds as soon as its token is verified. -/
theorem hasEffect_pin {coreId : UInt64}
    (h : verifyToken A.verifier token (.threadAffinity coreId.toUInt32) nowNs = .ok ()) :
    HasEffect A nowNs token st (.pinThreadToCore coreId) := by
  left
  rw [perform, pinThreadToCore, h]
  rfl

end Soundness

/-- Two calls are about the same resource. -/
def SameResource : DirectOp → DirectOp → Prop
  | .mapMmioRegion phys size, .mapMmioRegion phys' size' => phys = phys' ∧ size = size'
  | .readPerformanceCounter counter, .readPerformanceCounter counter' => counter = counter'
  | .pinThreadToCore coreId, .pinThreadToCore coreId' => coreId = coreId'
  | .setNumaPolicy _, .setNumaPolicy _ => True
  | _, _ => False

/-- One token has effects for one resource only, as long as core ids fit in 32 bits. -/
theorem sameResource_of_hasEffect {arch arch' : Arch} {A : DirectAccess arch}
    {A' : DirectAccess arch'} {nowNs nowNs' : UInt64} {token : CapabilityToken}
    {st st' : DirectState} {op op' : DirectOp} (h : HasEffect A nowNs token st op)
    (h' : HasEffect A' nowNs' token st' op') (hfit : op.CoreFits) (hfit' : op'.CoreFits) :
    SameResource op op' := by
  have hscope := ((verifyToken_eq_ok_iff ..).mp (verifyToken_of_hasEffect h)).1
  have hscope' := ((verifyToken_eq_ok_iff ..).mp (verifyToken_of_hasEffect h')).1
  rw [hscope'] at hscope
  cases op <;> cases op' <;> simp only [DirectOp.requiredScope, CapabilityScope.mmioRegion.injEq,
    CapabilityScope.performanceCounter.injEq, CapabilityScope.threadAffinity.injEq,
    reduceCtorEq] at hscope <;> simp only [SameResource]
  · exact ⟨hscope.1.symm, hscope.2.symm⟩
  · exact hscope.symm
  · next coreId coreId' =>
    have hcut := congrArg UInt32.toNat hscope
    rw [toNat_toUInt32, toNat_toUInt32] at hcut
    simp only [DirectOp.CoreFits] at hfit hfit'
    apply UInt64.toNat_inj.mp
    omega

/-- A pin request for a core id of more than 32 bits, with a valid token for the id that
is left when the upper bits are cut off. -/
def CutPin {arch : Arch} (A : DirectAccess arch) (nowNs : UInt64) (token : CapabilityToken)
    (op : DirectOp) : Prop :=
  ∃ coreId : UInt64, op = .pinThreadToCore coreId ∧ 2 ^ 32 ≤ coreId.toNat ∧
    token.scope = .threadAffinity coreId.toUInt32 ∧ nowNs < token.expiresAtNs ∧
    A.verifier token = .ok ()

theorem coreFits_of_not_cutPin {arch : Arch} {A : DirectAccess arch} {nowNs : UInt64}
    {token : CapabilityToken} {st : DirectState} {op : DirectOp}
    (heff : HasEffect A nowNs token st op) (h : ¬ CutPin A nowNs token op) : op.CoreFits := by
  obtain ⟨hscope, hexp, hver⟩ := (verifyToken_eq_ok_iff ..).mp (verifyToken_of_hasEffect heff)
  cases op with
  | pinThreadToCore coreId =>
    by_contra hbig
    exact h ⟨coreId, rfl, not_lt.mp hbig, hscope, hexp, hver⟩
  | mapMmioRegion phys size => trivial
  | readPerformanceCounter counter => trivial
  | setNumaPolicy policy => trivial

/-- What has an effect is authorised, with the cut core ids as the only exception. -/
theorem authorised_of_hasEffect_iff {arch : Arch} (A : DirectAccess arch) (nowNs : UInt64)
    (token : CapabilityToken) (st : DirectState) (op : DirectOp) :
    (HasEffect A nowNs token st op → Authorised A nowNs token op) ↔
      ¬ CutPin A nowNs token op := by
  constructor
  · rintro h ⟨coreId, rfl, hbig, hscope, hexp, hver⟩
    have hok := (verifyToken_eq_ok_iff A.verifier token _ nowNs).mpr ⟨hscope, hexp, hver⟩
    have hnames := (h (hasEffect_pin hok)).1
    have hfit := (names_requiredScope_iff (.pinThreadToCore coreId)).mp
      (by rw [DirectOp.requiredScope, ← hscope]; exact hnames)
    exact absurd hbig (not_le.mpr hfit)
  · intro h heff
    obtain ⟨hscope, hexp, hver⟩ := (verifyToken_eq_ok_iff ..).mp (verifyToken_of_hasEffect heff)
    refine ⟨?_, hexp, hver⟩
    rw [hscope]
    exact (names_requiredScope_iff op).mpr (coreFits_of_not_cutPin heff h)

/-- Two calls with one token, at any times and in any states: each has an effect only
if it is authorised, both have effects only on one resource, and neither touches the
state when its verification fails. This holds exactly when no core id is cut. -/
theorem perform_sound_iff {arch arch' : Arch} (A : DirectAccess arch) (A' : DirectAccess arch')
    (token : CapabilityToken) (nowNs nowNs' : UInt64) (st st' : DirectState)
    (op op' : DirectOp) :
    ((HasEffect A nowNs token st op → Authorised A nowNs token op) ∧
      (HasEffect A' nowNs' token st' op' → Authorised A' nowNs' token op') ∧
      (HasEffect A nowNs token st op → HasEffect A' nowNs' token st' op' →
        SameResource op op') ∧
      (verifyToken A.verifier token op.requiredScope nowNs ≠ .ok () →
        (perform A nowNs token st op).2 = st) ∧
      (verifyToken A'.verifier token op'.requiredScope nowNs' ≠ .ok () →
        (perform A' nowNs' token st' op').2 = st')) ↔
      ¬ CutPin A nowNs token op ∧ ¬ CutPin A' nowNs' token op' := by
  rw [authorised_of_hasEffect_iff, authorised_of_hasEffect_iff]
  constructor
  · rintro ⟨h, h', -⟩
    exact ⟨h, h'⟩
  · rintro ⟨h, h'⟩
    refine ⟨h, h', fun heff heff' => ?_, perform_snd_of_not_ok, perform_snd_of_not_ok⟩
    exact sameResource_of_hasEffect heff heff' (coreFits_of_not_cutPin heff h)
      (coreFits_of_not_cutPin heff' h')

/-- A RISC-V instance with a verifier that accepts every token. -/
def acceptingAccess : DirectAccess .riscv64 :=
  ⟨fun _ => .ok (), Paging.sampleLayout .riscv64, false, fun _ => 0⟩

/-- A token for core 5 is accepted for core `2 ^ 32 + 5`. -/
theorem perform_accepts_cut_core :
    let token := CapabilityToken.new 1 (.threadAffinity 5) 1000
    let op := DirectOp.pinThreadToCore 0x100000005
    (perform acceptingAccess 0 token ⟨Paging.PageTables.empty, []⟩ op).1.isOk = true ∧
      ¬ Names token.scope op ∧
      ¬ (HasEffect acceptingAccess 0 token ⟨Paging.PageTables.empty, []⟩ op →
        Authorised acceptingAccess 0 token op) := by
  intro token op
  have hok : (perform acceptingAccess 0 token ⟨Paging.PageTables.empty, []⟩ op).1.isOk = true :=
    by decide
  have hnames : ¬ Names token.scope op := by
    change ¬ (5 : UInt32).toNat = (0x100000005 : UInt64).toNat
    decide
  exact ⟨hok, hnames, fun h => hnames (h (.inl hok)).1⟩

end SimurghHal.Direct
