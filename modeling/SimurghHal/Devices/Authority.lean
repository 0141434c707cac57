import SimurghHal.Lib.Simulation
import SimurghHal.Devices.Direct
import SimurghHal.Paging.Failure

/-!
# What tokens permit in the long run

Any number of callers make requests of one `DirectAccess`, in any order and at any times. The
state after such a run is the one that the granted requests leave by themselves, and these are
calls of `setup_identity_mapping` for device memory and reads of counters. A translation can
change only for pages of a region that was granted, or for addresses that share an entry with
one. There is no way back: a mapping stays when its token expires.
-/

namespace SimurghHal.Direct

open Manifest Paging

/-- A call with the token and the time it comes with. -/
structure Request where
  nowNs : UInt64
  token : CapabilityToken
  op : DirectOp

section Run

variable {arch : Arch} (A : DirectAccess arch)

/-- `verify_token` accepts the token for the scope that the call requires. -/
def Request.granted (request : Request) : Bool :=
  (verifyToken A.verifier request.token request.op.requiredScope request.nowNs).isOk

def serve (st : DirectState) (request : Request) : Except HalError UInt64 × DirectState :=
  perform A request.nowNs request.token st request.op

/-- The mapping that a granted request asks for. -/
def Request.mapping (request : Request) : Option MapCall :=
  match request.op with
  | .mapMmioRegion phys size =>
    if request.granted A then some ⟨⟨phys, size, .mmio, A.iommuPresent⟩, .deviceMmio⟩ else none
  | _ => none

/-- The counter that a granted request reads. -/
def Request.counter (request : Request) : Option UInt32 :=
  match request.op with
  | .readPerformanceCounter counter =>
    if request.granted A = true ∧ (arch = .riscv64 → counter = 0 ∨ counter = 2) then some counter
    else none
  | _ => none

theorem Request.granted_iff (request : Request) : request.granted A = true ↔
    verifyToken A.verifier request.token request.op.requiredScope request.nowNs = .ok () := by
  rw [granted]
  cases verifyToken A.verifier request.token request.op.requiredScope request.nowNs with
  | ok u => exact ⟨fun _ => rfl, fun _ => rfl⟩
  | error e => simp [Except.isOk, Except.toBool]

/-- The effect of one request is its mapping and its counter. -/
theorem serve_snd (st : DirectState) (request : Request) :
    (serve A st request).2 =
      ⟨mapRegions arch A.layout st.tables (request.mapping A).toList,
        st.countersRead ++ (request.counter A).toList⟩ := by
  obtain ⟨nowNs, token, op⟩ := request
  by_cases hgranted : (Request.mk nowNs token op).granted A = true
  · have hverify := ((Request.mk nowNs token op).granted_iff A).mp hgranted
    cases op with
    | mapMmioRegion phys size =>
      simp only [DirectOp.requiredScope] at hverify
      simp [serve, perform, mapMmioRegion, hverify, Request.mapping, Request.counter, hgranted,
        mapRegions]
    | readPerformanceCounter counter =>
      simp only [DirectOp.requiredScope] at hverify
      cases arch with
      | x86_64 => simp [serve, perform, readPerformanceCounter, readCounter, hverify,
          Request.mapping, Request.counter, hgranted, mapRegions]
      | arm64 => simp [serve, perform, readPerformanceCounter, readCounter, hverify,
          Request.mapping, Request.counter, hgranted, mapRegions]
      | riscv64 =>
        simp only [serve, perform, readPerformanceCounter, readCounter, hverify,
          Request.mapping, Request.counter, hgranted, mapRegions]
        split
        · next h => simp [h]
        · next h => simp [h]
    | pinThreadToCore coreId =>
      simp only [DirectOp.requiredScope] at hverify
      simp [serve, perform, pinThreadToCore, hverify, Request.mapping, Request.counter, mapRegions]
    | setNumaPolicy policy =>
      simp only [DirectOp.requiredScope] at hverify
      simp [serve, perform, setNumaPolicy, hverify, Request.mapping, Request.counter, mapRegions]
  · have hsame : (serve A st ⟨nowNs, token, op⟩).2 = st :=
      perform_snd_of_not_ok fun hok => hgranted ((Request.granted_iff A _).mpr hok)
    rw [hsame]
    cases op <;> simp [Request.mapping, Request.counter, hgranted, mapRegions]

/-- The state after a run is the one that the granted requests leave. -/
theorem run_serve_snd (st : DirectState) (requests : List Request) :
    (Simulation.run (serve A) st requests).2 =
      ⟨mapRegions arch A.layout st.tables (requests.filterMap (Request.mapping A)),
        st.countersRead ++ requests.filterMap (Request.counter A)⟩ := by
  induction requests generalizing st with
  | nil => simp [Simulation.run, mapRegions]
  | cons request requests ih =>
    rw [Simulation.run_cons, ih, serve_snd]
    cases hmapping : request.mapping A <;> cases hcounter : request.counter A <;>
      simp [hmapping, hcounter, mapRegions]

/-- A request that is not granted is answered with an error. -/
theorem error_of_not_granted (st : DirectState) {request : Request}
    (h : request.granted A = false) : ∃ e, (serve A st request).1 = .error e := by
  cases hverify : verifyToken A.verifier request.token request.op.requiredScope request.nowNs with
  | ok u => rw [Request.granted, hverify] at h; cases h
  | error e => exact ⟨e, by rw [serve, perform_of_verify_error hverify]⟩

theorem forall_run_error (st : DirectState) (requests : List Request) :
    List.Forall₂ (fun request result => Request.granted A request = false → ∃ e, result = .error e)
      requests (Simulation.run (serve A) st requests).1 := by
  induction requests generalizing st with
  | nil => exact .nil
  | cons request requests ih =>
    rw [Simulation.run_cons]
    exact .cons (error_of_not_granted A st) (ih _)

end Run

/-- What mapping calls change, successful or not, and wherever their regions lie. -/
theorem translate_mapRegions_cases {arch : Arch} {L : FrameLayout (physBits arch)} (virt : UInt64)
    (calls : List MapCall) : ∀ s, Inv (format arch) L s →
      translate arch L (mapRegions arch L s calls) virt = translate arch L s virt ∨
        ∃ c ∈ calls, ∃ i < pageCount c.region,
          SameEntry arch (pageAt (startAddr c.region) i) virt ∧
            translate arch L (mapRegions arch L s calls) virt =
              mappedTranslation arch c.perms (pageAt (startAddr c.region) i) virt := by
  induction calls using List.reverseRecOn with
  | nil => exact fun s _ => .inl rfl
  | append_singleton calls c ih =>
    intro s hs
    have hbefore := inv_mapRegions calls s hs
    obtain ⟨r, s', k, hcall, hinv, -, hmapped, hres⟩ :=
      setupIdentityMapping_spec (format_lawful arch) hbefore c.region c.perms
    have hk : k ≤ pageCount c.region := by
      rcases hres with ⟨-, hk, -⟩ | ⟨-, -, -, hk⟩ | ⟨-, -, hk, -⟩ <;> omega
    have hend := start_add_pageCount_lt c.region
    obtain ⟨hin, hout⟩ := hmapped.translate hbefore hinv (by omega) virt
    rw [mapRegions_concat, mapRegion, hcall]
    by_cases hsame : ∃ i < k, SameEntry arch (pageAt (startAddr c.region) i) virt
    · obtain ⟨i, hi, hsame⟩ := hsame
      exact .inr ⟨c, by simp, i, by omega, hsame, hin i hi hsame⟩
    · rw [hout fun i hi h => hsame ⟨i, hi, h⟩]
      rcases ih s hs with hold | ⟨c', hc', hpage⟩
      · exact .inl hold
      · exact .inr ⟨c', by simp [hc'], hpage⟩

/-- Any run of requests, whatever the kernel has mapped before: the state is the one that the
granted requests leave, in their order, all others are answered with an error, and a translation
is as before or is that of a page of device memory in a granted region. -/
theorem run_serve (arch : Arch) (A : DirectAccess arch) (calls : List MapCall)
    (requests : List Request) :
    let st : DirectState := ⟨mapRegions arch A.layout .empty calls, []⟩
    let run := Simulation.run (serve A) st requests
    let granted := requests.filterMap (Request.mapping A)
    run.2 = ⟨mapRegions arch A.layout st.tables granted,
        requests.filterMap (Request.counter A)⟩ ∧
      List.Forall₂ (fun request result => Request.granted A request = false →
        ∃ e, result = .error e) requests run.1 ∧
      ∀ virt, translate arch A.layout run.2.tables virt = translate arch A.layout st.tables virt ∨
        ∃ c ∈ granted, ∃ i < pageCount c.region,
          SameEntry arch (pageAt (startAddr c.region) i) virt ∧
            translate arch A.layout run.2.tables virt =
              mappedTranslation arch .deviceMmio (pageAt (startAddr c.region) i) virt := by
  intro st run granted
  have hstate : run.2 = _ := run_serve_snd A st requests
  refine ⟨hstate, forall_run_error A st requests, fun virt => ?_⟩
  rw [hstate]
  have hperms : ∀ c ∈ granted, c.perms = .deviceMmio := by
    intro c hc
    obtain ⟨request, -, hmapping⟩ := List.mem_filterMap.mp hc
    rw [Request.mapping] at hmapping
    split at hmapping
    · split at hmapping
      · cases hmapping
        rfl
      · cases hmapping
    · cases hmapping
  rcases translate_mapRegions_cases virt granted st.tables (inv_mapRegions calls _ inv_empty) with
    hold | ⟨c, hc, i, hi, hsame, hnew⟩
  · exact .inl hold
  · rw [hperms c hc] at hnew
    exact .inr ⟨c, hc, i, hi, hsame, hnew⟩

end SimurghHal.Direct
