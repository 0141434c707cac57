import SimurghHal.Devices.Direct

/-!
# Signatures of capability tokens (`hal-direct/src/lib.rs`)

A token holds up to 64 bytes of signature in an array, with the number of bytes in use
beside it. All of this is public and comes from callers that are not trusted. A verifier
reads the signature through `signature_bytes`, which panics when the number runs past the
array. `none` stands for a panic.
-/

namespace SimurghHal.Direct

namespace CapabilityToken

/-- `CapabilityToken::with_signature`. The assertion is not only checked in debug builds. -/
def withSignature (token : CapabilityToken) (signature : List UInt8) : Option CapabilityToken :=
  if signature.length ≤ maxSignatureBytes then
    some { token with
      signature := BoundedTable.overwrite token.signature signature
      signatureLen := UInt8.ofNat signature.length }
  else none

/-- `CapabilityToken::signature_bytes`. -/
def signatureBytes (token : CapabilityToken) : Option (List UInt8) :=
  BoundedTable.slice token.signature token.signatureLen.toUInt32

/-- A token that comes from `new` and any number of calls of `with_signature`. -/
inductive Built : CapabilityToken → Prop
  | new (subjectId : UInt64) (scope : CapabilityScope) (expiresAtNs : UInt64) :
    Built (.new subjectId scope expiresAtNs)
  | withSignature {token token' : CapabilityToken} (signature : List UInt8) (h : Built token)
    (hsigned : token.withSignature signature = some token') : Built token'

theorem signatureBytes_isSome_iff (token : CapabilityToken) :
    token.signatureBytes.isSome ↔ token.signatureLen.toNat ≤ maxSignatureBytes := by
  rw [signatureBytes, BoundedTable.slice_isSome_iff, UInt8.toNat_toUInt32]

theorem toNat_signatureLen {signature : List UInt8} (h : signature.length ≤ maxSignatureBytes) :
    (UInt8.ofNat signature.length).toNat = signature.length := by
  rw [maxSignatureBytes] at h
  rw [UInt8.toNat_ofNat']
  omega

/-- The number of bytes is right in every token that the constructors can make. -/
theorem Built.signatureLen_le {token : CapabilityToken} (h : Built token) :
    token.signatureLen.toNat ≤ maxSignatureBytes := by
  cases h with
  | new subjectId scope expiresAtNs => exact Nat.zero_le _
  | withSignature signature _ hsigned =>
    rw [CapabilityToken.withSignature] at hsigned
    split at hsigned
    · next hlen =>
      obtain rfl := Option.some.inj hsigned
      rw [toNat_signatureLen hlen]
      exact hlen
    · cases hsigned

/-- The signature can be set, and then it is what is read; nothing else of the token changes. -/
def Signs (token : CapabilityToken) (signature : List UInt8) : Prop :=
  ∃ signed, token.withSignature signature = some signed ∧
    signed.signatureBytes = some signature ∧ signed.subjectId = token.subjectId ∧
      signed.scope = token.scope ∧ signed.expiresAtNs = token.expiresAtNs

theorem signs (token : CapabilityToken) {signature : List UInt8}
    (h : signature.length ≤ maxSignatureBytes) : token.Signs signature := by
  refine ⟨_, if_pos h, ?_, rfl, rfl, rfl⟩
  refine BoundedTable.slice_overwrite token.signature h ?_
  rw [UInt8.toNat_toUInt32, toNat_signatureLen h]

end CapabilityToken

/-- What a verifier makes of the other fields: it is done, or it asks for the signature. -/
inductive Ruling where
  | settled (result : Except HalError Unit)
  | bySignature (check : List UInt8 → Except HalError Unit)

/-- A `TokenVerifier` that reads the signature through `signature_bytes` only. -/
structure SignatureVerifier where
  rule : UInt64 → CapabilityScope → UInt64 → Ruling

namespace SignatureVerifier

variable (verifier : SignatureVerifier) (token : CapabilityToken) (requiredScope : CapabilityScope)
  (nowNs : UInt64)

/-- `TokenVerifier::verify_signature`. -/
def verifySignature : Option (Except HalError Unit) :=
  match verifier.rule token.subjectId token.scope token.expiresAtNs with
  | .settled result => some result
  | .bySignature check => token.signatureBytes.map check

/-- `verify_token` with such a verifier. -/
def verifyToken : Option (Except HalError Unit) :=
  if !token.covers requiredScope then some (.error .invalidCapabilityToken)
  else if token.isExpired nowNs then some (.error .invalidCapabilityToken)
  else verifier.verifySignature token

/-- The verifier as a function of all tokens. -/
def toTokenVerifier : TokenVerifier :=
  fun token => (verifier.verifySignature token).getD (.error .invalidCapabilityToken)

/-- The verifier asks for the signature of this token. -/
def AsksForSignature : Prop :=
  ∃ check, verifier.rule token.subjectId token.scope token.expiresAtNs = .bySignature check

variable {verifier token}

theorem verifySignature_isSome_iff : (verifier.verifySignature token).isSome ↔
    (verifier.AsksForSignature token → token.signatureLen.toNat ≤ maxSignatureBytes) := by
  rw [verifySignature, AsksForSignature]
  cases hrule : verifier.rule token.subjectId token.scope token.expiresAtNs with
  | settled result => simp
  | bySignature check =>
    rw [Option.isSome_map, token.signatureBytes_isSome_iff]
    simp

variable {requiredScope nowNs}

/-- A verification that does not panic is the one of tokens as a whole. -/
theorem verifyToken_eq_of_isSome (h : (verifier.verifySignature token).isSome) :
    verifier.verifyToken token requiredScope nowNs =
      some (Direct.verifyToken verifier.toTokenVerifier token requiredScope nowNs) := by
  obtain ⟨result, hresult⟩ := Option.isSome_iff_exists.mp h
  have htotal : verifier.toTokenVerifier token = result := by
    rw [toTokenVerifier, hresult, Option.getD_some]
  rw [verifyToken, Direct.verifyToken, hresult, htotal]
  split
  · rfl
  · split
    · rfl
    · rfl

/-- Past the checks of scope and expiry all depends on the verifier. -/
theorem verifyToken_eq_verifySignature (hscope : token.scope = requiredScope)
    (hexp : nowNs < token.expiresAtNs) :
    verifier.verifyToken token requiredScope nowNs = verifier.verifySignature token := by
  have hcovers : token.covers requiredScope = true := decide_eq_true hscope
  have hexpired : token.isExpired nowNs = false := decide_eq_false (UInt64.not_le.mpr hexp)
  rw [verifyToken, hcovers, hexpired]
  rfl

/-- A token that the verifier is asked about and whose signature it reads, with a number of
bytes that runs past the array. -/
structure Overruns (verifier : SignatureVerifier) (token : CapabilityToken)
    (requiredScope : CapabilityScope) (nowNs : UInt64) : Prop where
  scope_eq : token.scope = requiredScope
  not_expired : nowNs < token.expiresAtNs
  asks : verifier.AsksForSignature token
  too_long : maxSignatureBytes < token.signatureLen.toNat

theorem verifyToken_isSome_iff :
    (verifier.verifyToken token requiredScope nowNs).isSome ↔
      ¬ Overruns verifier token requiredScope nowNs := by
  constructor
  · rintro h ⟨hscope, hexp, hasks, hlong⟩
    rw [verifyToken_eq_verifySignature hscope hexp, verifySignature_isSome_iff] at h
    exact absurd (h hasks) (Nat.not_le.mpr hlong)
  · intro h
    by_cases hscope : token.scope = requiredScope
    · by_cases hexp : nowNs < token.expiresAtNs
      · have hfits : (verifier.verifySignature token).isSome :=
          verifySignature_isSome_iff.mpr fun hasks =>
            Nat.not_lt.mp fun hlong => h ⟨hscope, hexp, hasks, hlong⟩
        rw [verifyToken_eq_of_isSome hfits]
        rfl
      · have hexpired : token.isExpired nowNs = true := decide_eq_true (UInt64.not_lt.mp hexp)
        rw [verifyToken, hexpired]
        split <;> rfl
    · have hcovers : token.covers requiredScope = false := decide_eq_false hscope
      rw [verifyToken, hcovers]
      rfl

/-- Verification comes back with a result, and signatures that are set are read back. -/
structure NoCrash (verifier : SignatureVerifier) (token : CapabilityToken)
    (requiredScope : CapabilityScope) (nowNs : UInt64) : Prop where
  returns : (verifier.verifyToken token requiredScope nowNs).isSome
  signs : ∀ signature : List UInt8, signature.length ≤ maxSignatureBytes → token.Signs signature

/-- A token crashes verification exactly when it overruns its signature. The constructors make
no such token. -/
theorem noCrash_iff (verifier : SignatureVerifier) (token : CapabilityToken)
    (requiredScope : CapabilityScope) (nowNs : UInt64) :
    (NoCrash verifier token requiredScope nowNs ↔
      ¬ Overruns verifier token requiredScope nowNs) ∧
      (token.Built → NoCrash verifier token requiredScope nowNs) := by
  have hiff : NoCrash verifier token requiredScope nowNs ↔
      ¬ Overruns verifier token requiredScope nowNs := by
    rw [← verifyToken_isSome_iff]
    exact ⟨fun h => h.returns, fun h => ⟨h, fun _ hlen => token.signs hlen⟩⟩
  refine ⟨hiff, fun hbuilt => hiff.mpr fun hover => ?_⟩
  exact absurd hover.too_long (Nat.not_lt.mpr hbuilt.signatureLen_le)

/-- The verifier of the tests: the first byte decides. -/
def firstByteVerifier : SignatureVerifier where
  rule _ _ _ := .bySignature fun signature =>
    if signature.head? = some 0xAA then .ok () else .error .invalidCapabilityToken

/-- A token of 64 bytes of signature that says it has 65. -/
theorem verifyToken_panics :
    let token := { CapabilityToken.new 1 .numaPolicy 1000 with signatureLen := 65 }
    firstByteVerifier.verifyToken token .numaPolicy 0 = none ∧
      ¬ NoCrash firstByteVerifier token .numaPolicy 0 := by
  intro token
  have hnone : firstByteVerifier.verifyToken token .numaPolicy 0 = none := rfl
  refine ⟨hnone, fun h => ?_⟩
  have hreturns := h.returns
  rw [hnone] at hreturns
  cases hreturns

end SignatureVerifier

end SimurghHal.Direct
