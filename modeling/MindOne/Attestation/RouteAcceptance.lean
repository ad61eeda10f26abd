import MindOne.Attestation.PreparedRoutes

/-!
# The consumer accepts what the coordinator prepares

Every response of the coordinator, the first and the repeated ones, shows the report that
the route was prepared from. The report is verified, so that what it was verified from is
still there for the consumer: the evidence, the nonce of the challenge and the binding
under the report data.
-/

namespace MindOne.Attestation

open CheckedArithmetic Coordinator KeyedTable MindOne.Stream Regulated

variable {env : AttestationServices} {past : List TrustAction} {db changed : TrustDb}

section Sound

/-- What a route says about the report that it was prepared from. -/
structure Sound (db : TrustDb) (route : PreparedRoute) (report : AttestationReport) : Prop where
  stored : db.reports.find route.attestationReportId = some report
  verified : report.status = .verified
  keyOrigin : report.keyOrigin = .teeRuntime
  node : report.nodeId = route.nodeId
  modelInstance : report.modelInstanceId = route.modelInstanceId
  inOrder : ∃ verifiedAt ∈ report.verifiedAt,
    report.issuedAt.unixTimestampNanos ≤ verifiedAt.unixTimestampNanos
  expiry : route.expiresAt.unixTimestampNanos ≤ report.expiresAt.unixTimestampNanos
  collateral : ∃ expiry ∈ report.collateralExpiresAt,
    route.expiresAt.unixTimestampNanos ≤ expiry.unixTimestampNanos

theorem Sound.later {route : PreparedRoute} {report : AttestationReport}
    (h : Sound db route report) (kept : Kept db changed) : Sound changed route report :=
  { h with stored := kept.reports h.stored }

/-- A response that shows the report of a route. -/
def Answered (db : TrustDb) (response : PrepareRegulatedJobResponse) : Prop :=
  ∃ route report challenge idempotentReplay, Sound db route report ∧
    db.challenges.find report.challengeId = some challenge ∧
    responseFromSelected route report challenge idempotentReplay = .ok response

theorem Answered.later {response : PrepareRegulatedJobResponse} (h : Answered db response)
    (trust : TrustInvariant env past db) (kept : Kept db changed) : Answered changed response := by
  obtain ⟨route, report, challenge, idempotentReplay, sound, hchallenge, hresponse⟩ := h
  obtain ⟨stored, _, _, _, _, _, _, _, _, backing⟩ := trust.verified sound.stored sound.verified
  obtain rfl : challenge = stored := Option.some.inj (hchallenge.symm.trans backing.stored)
  exact ⟨route, report, challenge, idempotentReplay, sound.later kept,
    kept.consumed hchallenge (by rw [backing.consumed]; decide), hresponse⟩

end Sound

section Preparing
variable {routes : RouteDb} {principal : Principal} {request : PrepareRequest} {routeId : Uuid}
  {now : OffsetDateTime} {choice : RouteChoice}

theorem routeExpiresAt_le {report : AttestationReport} {expiresAt : OffsetDateTime}
    (h : routeExpiresAt report choice now = .ok expiresAt) :
    expiresAt.unixTimestampNanos ≤ report.expiresAt.unixTimestampNanos ∧
      ∃ expiry ∈ report.collateralExpiresAt,
        expiresAt.unixTimestampNanos ≤ expiry.unixTimestampNanos := by
  simp only [routeExpiresAt, bind_eq_ok, okOr_eq_ok, rejectIf_eq_ok, exists_const] at h
  obtain ⟨validUntil, _, collateral, hcollateral, ttl, _, _, _, hexpires⟩ := h
  cases hexpires
  have houter := (earlier_le (earlier (earlier ttl report.expiresAt) collateral) validUntil).1
  have hinner := earlier_le (earlier ttl report.expiresAt) collateral
  have hreport := (earlier_le ttl report.expiresAt).2
  exact ⟨by omega, collateral, hcollateral, by omega⟩

/-- The rows of a selected candidate, and what the query asked of them. -/
theorem of_select {candidate : RouteCandidate} (h : choice.select db now = some candidate) :
    ∃ modelInstanceId, routeCandidate db modelInstanceId = some candidate ∧
      candidate.Eligible db.now := by
  obtain ⟨⟨modelInstanceId, hasRoom⟩, _, hfound⟩ := List.exists_of_findSome?_eq_some h
  obtain ⟨hcandidate, hkept⟩ := Option.filter_eq_some_iff.mp hfound
  simp only [Bool.and_eq_true, decide_eq_true_eq] at hkept
  exact ⟨modelInstanceId, hcandidate, hkept.1.1⟩

theorem of_routeCandidate {candidate : RouteCandidate} {modelInstanceId : Uuid}
    (h : routeCandidate db modelInstanceId = some candidate) :
    db.reports.find candidate.report.id = some candidate.report ∧
      db.challenges.find candidate.report.challengeId = some candidate.challenge := by
  simp only [routeCandidate, Option.bind_eq_bind, Option.bind_eq_some_iff, Option.pure_def,
    Option.some.injEq] at h
  obtain ⟨_, _, _, _, report, ⟨_, _, hreport⟩, _, hchallenge, rfl⟩ := h
  exact ⟨Table.find_of_mem (Table.mem_of_find hreport), hchallenge⟩

theorem sound_expireRoute {at' : OffsetDateTime} {userId : Uuid} {route : PreparedRoute}
    {report : AttestationReport} (h : Sound db route report) :
    Sound db (expireRoute at' userId route) report := by
  unfold expireRoute
  split
  · exact ⟨h.stored, h.verified, h.keyOrigin, h.node, h.modelInstance, h.inOrder, h.expiry,
      h.collateral⟩
  · exact h

/-- A request leaves sound routes, and is answered from one of them. -/
theorem of_prepareRegulatedJob {table : Table PreparedRoute.id}
    {response : PrepareRegulatedJobResponse}
    (hroutes : ∀ route ∈ routes.routes.rows, ∃ report, Sound routes.trust route report)
    (h : prepareRegulatedJob routes principal request routeId now choice = .ok (table, response)) :
    (∀ route ∈ table.rows, ∃ report, Sound routes.trust route report) ∧
      Answered routes.trust response := by
  have hexpired : ∀ route ∈ (routes.routes.mapRows (expireRoute routes.trust.now principal.userId)
      (expireRoute_id routes.trust.now principal.userId)).rows,
      ∃ report, Sound routes.trust route report := by
    intro route hroute
    obtain ⟨old, hold, rfl⟩ := List.mem_map.mp hroute
    obtain ⟨report, sound⟩ := hroutes old hold
    exact ⟨report, sound_expireRoute sound⟩
  unfold prepareRegulatedJob at h
  dsimp only at h
  split at h
  · -- the same request once more
    rename_i existing hexisting
    simp only [loadRouteResponse, bind_eq_ok, rejectIf_eq_ok, okOr_eq_ok, exists_const] at h
    obtain ⟨_, _, loaded, ⟨_, report, hreport, challenge, hchallenge, hloaded⟩, hresult⟩ := h
    cases hresult
    refine ⟨hexpired, existing, report, challenge, true, ?_, hchallenge, hloaded⟩
    obtain ⟨stored, sound⟩ := hexpired existing (List.mem_of_find?_eq_some hexisting)
    obtain rfl : stored = report := Option.some.inj (sound.stored.symm.trans hreport)
    exact sound
  · simp only [bind_eq_ok, rejectIf_eq_ok, okOr_eq_ok, exists_const] at h
    obtain ⟨selected, hselected, _, _, hvalid, expiresAt, hexpires, _, answer, hanswer, hresult⟩ := h
    cases hresult
    simp only [validateSelectedReport, bind_eq_ok, okOr_eq_ok, rejectIf_eq_ok, not_or,
      Int.not_lt] at hvalid
    obtain ⟨verifiedAt, hverifiedAt, _, horder, _, _⟩ := hvalid
    obtain ⟨modelInstanceId, hrows, eligible⟩ := of_select hselected
    obtain ⟨hreport, hchallenge⟩ := of_routeCandidate hrows
    obtain ⟨_, hnode, hinstance, _, _, _, hverified, hkey, _⟩ := eligible
    obtain ⟨hexpiry, hcollateral⟩ := routeExpiresAt_le hexpires
    have sound : Sound routes.trust ⟨routeId, principal.userId, request.idempotencyKey,
        request.fingerprint, selected.published.modelId, selected.published.id, selected.node.id,
        selected.report.id, .prepared, expiresAt⟩ selected.report :=
      ⟨hreport, hverified, hkey, hnode, hinstance, ⟨verifiedAt, hverifiedAt, horder⟩, hexpiry,
        hcollateral⟩
    refine ⟨fun route hroute => ?_, _, _, _, _, sound, hchallenge, hanswer⟩
    rcases Table.mem_set.mp hroute with rfl | ⟨hold, _⟩
    · exact ⟨_, sound⟩
    · exact hexpired route hold

end Preparing

section Runs

structure RouteInvariant (env : AttestationServices) (past : List TrustAction) (db : RouteDb) :
    Prop where
  trust : TrustInvariant env past db.trust
  routes : ∀ route ∈ db.routes.rows, ∃ report, Sound db.trust route report
  answered : ∀ response ∈ db.answered, Answered db.trust response

theorem RouteInvariant.step {db : RouteDb} (h : RouteInvariant env past db)
    (action : RouteAction) :
    RouteInvariant env ((trustActions [action]).reverse ++ past) (performRoute env db action) := by
  cases action with
  | trust action =>
      have kept := kept_of_performTrust env db.trust action
      refine ⟨h.trust.step action, fun route hroute => ?_, fun response hresponse =>
        (h.answered response hresponse).later h.trust kept⟩
      obtain ⟨report, sound⟩ := h.routes route hroute
      exact ⟨report, sound.later kept⟩
  | prepare principal request routeId now choice =>
      simp only [performRoute]
      split
      · rename_i table response hprepare
        obtain ⟨hroutes, hanswered⟩ := of_prepareRegulatedJob h.routes hprepare
        exact ⟨h.trust, hroutes, List.forall_mem_cons.mpr ⟨hanswered, h.answered⟩⟩
      · exact h
  | consume routeId =>
      simp only [performRoute]
      split
      · rename_i route hroute
        split
        · refine ⟨h.trust, fun other hother => ?_, h.answered⟩
          rcases Table.mem_set.mp hother with rfl | ⟨hold, _⟩
          · obtain ⟨report, sound⟩ := h.routes route (Table.mem_of_find hroute)
            exact ⟨report, sound.stored, sound.verified, sound.keyOrigin, sound.node,
              sound.modelInstance, sound.inOrder, sound.expiry, sound.collateral⟩
          · exact h.routes other hold
        · exact h
      · exact h

theorem RouteInvariant.run {db : RouteDb} (actions : List RouteAction)
    (h : RouteInvariant env past db) :
    RouteInvariant env ((trustActions actions).reverse ++ past) (performRoutes env actions db) := by
  induction actions generalizing past db with
  | nil => exact h
  | cons action rest ih =>
      have hrest := ih (h.step action)
      rw [← List.append_assoc, ← List.reverse_append] at hrest
      have hactions : trustActions [action] ++ trustActions rest = trustActions (action :: rest) :=
        (List.filterMap_append (l := [action])).symm
      rw [hactions] at hrest
      exact hrest

end Runs

section Acceptance

/-- The coordinator computes the digests of the consumer. -/
def servicesOf (primitives : Primitives) (config : Config) : AttestationServices :=
  ⟨config, primitives.sha256, primitives.sha512⟩

/-- What the check leaves to the verifier of the device. -/
def LocalVerdict
    (fromEnvironment : AttestationProvider → Except ClientVerificationError ClientEvidenceVerifier)
    (now : OffsetDateTime) (report : RegulatedRouteAttestation) : Prop :=
  ∃ verifier, fromEnvironment report.provider = .ok verifier ∧ ∃ claims,
    verifier.verify (report.verificationInput now) = .ok claims ∧
    claims.teeMeasurement = report.teeMeasurement ∧
    claims.collateralExpiresAt.unixTimestampNanos = report.collateralExpiresAt.unixTimestampNanos

/-- What the check asks apart from the verifier, of a route from the coordinator. -/
def Usable (now : OffsetDateTime) (response : PrepareRegulatedJobResponse) : Prop :=
  now.unixTimestampNanos < response.expiresAt.unixTimestampNanos ∧
    response.attestation.verifiedAt.unixTimestampNanos ≤ now.unixTimestampNanos + maxClockSkew ∧
    response.attestation.ephemeralPublicKey.toList.all (· == '0') = false

/-- A verifier of the device that allows the values of a report. -/
structure Allows (verifier : ClientEvidenceVerifier) (report : RegulatedRouteAttestation) :
    Prop where
  provider : verifier.provider = report.provider
  policyHash : report.sandboxPolicyHash ∈ verifier.allowedPolicyHashes
  runtimeHash : report.runtimeBinaryHash ∈ verifier.allowedRuntimeHashes
  measurement : report.teeMeasurement ∈ verifier.allowedMeasurements

/-- What the adapter prints on the device when it prints this at the coordinator. -/
def AdapterOutput.onDevice (output : AdapterOutput) : ClientAdapterOutput where
  schemaVersion := output.schemaVersion
  verifierName := output.verifierName
  provider := output.provider
  evidenceKind := output.evidenceKind
  verified := output.verified
  reportData := output.reportData
  teeMeasurement := output.teeMeasurement
  signatureVerified := output.signatureVerified
  certificateChainVerified := output.certificateChainVerified
  tcbCurrent := output.tcbCurrent
  collateralCurrent := output.collateralCurrent
  collateralExpiresAtUnix := output.collateralExpiresAtUnix

/-- The consumer's side of a response. -/
structure RouteAccepted (primitives : Primitives) (actions : List TrustAction)
    (response : PrepareRegulatedJobResponse) : Prop where
  accepted : ∀ fromEnvironment now,
    checkPreparedRoute primitives fromEnvironment now response = .ok () ↔
      Usable now response ∧ LocalVerdict fromEnvironment now response.attestation
  agreed : ∃ principal request now output,
    .submit principal request response.attestation.reportId now (.ok output) ∈ actions ∧
    ∀ verifier later, Allows verifier response.attestation →
      verifier.program ⟨clientAdapterSchema, verifier.provider, response.attestation.evidenceKind,
        response.attestation.evidence, response.attestation.reportData⟩ = .ok output.onDevice →
      later.unixTimestampNanos < response.expiresAt.unixTimestampNanos →
      LocalVerdict (fun _ => .ok verifier) later response.attestation

variable {primitives : Primitives} {config : Config}

/-- A report of the coordinator, as it is shown in a response. -/
structure Shown (primitives : Primitives) (config : Config)
    (response : PrepareRegulatedJobResponse) (evidence : List UInt8) (digest : List UInt8)
    (nonce : Bytes 32) (output : AdapterOutput) : Prop where
  modelInstance : response.modelInstanceId = response.attestation.modelInstanceId
  node : response.nodeId = response.attestation.nodeId
  decoded : Base64.decodePadded Base64.standard response.attestation.evidence.toList =
    some evidence
  size : evidence ≠ [] ∧ evidence.length ≤ 576 * 1024
  evidenceSha256 : hexEncode (primitives.sha256 evidence) =
    response.attestation.evidenceSha256.toList
  challengeNonce : response.attestation.challengeNonce =
    String.ofList (Base64.encode Base64.urlSafe nonce.toList)
  binding : attestationReportData primitives.sha512 (response.attestation.binding nonce.toList) =
    .ok digest
  reportData : hexEncode digest = response.attestation.reportData.toList
  printed : ∃ claims, parseAdapterOutput response.attestation.provider
      response.attestation.evidenceKind output = .ok claims ∧
    output.reportData = response.attestation.reportData ∧
    output.teeMeasurement = response.attestation.teeMeasurement ∧
    claims.collateralExpiresAt = response.attestation.collateralExpiresAt
  conclusions : output.verified = true ∧ output.signatureVerified = true ∧
    output.certificateChainVerified = true ∧ output.tcbCurrent = true ∧
    output.collateralCurrent = true
  matchesProvider : response.attestation.evidenceKind.matchesProvider
    response.attestation.provider = true
  inOrder : response.attestation.issuedAt.unixTimestampNanos ≤
    response.attestation.verifiedAt.unixTimestampNanos
  expiry : response.expiresAt.unixTimestampNanos ≤
      response.attestation.expiresAt.unixTimestampNanos ∧
    response.expiresAt.unixTimestampNanos ≤
      response.attestation.collateralExpiresAt.unixTimestampNanos
  age : response.attestation.expiresAt.unixTimestampNanos ≤
    response.attestation.verifiedAt.unixTimestampNanos + maxReportAge

theorem shown_of_answered {past : List TrustAction} {db : TrustDb}
    {response : PrepareRegulatedJobResponse}
    (trust : TrustInvariant (servicesOf primitives config) past db) (h : Answered db response) :
    ∃ principal request now output evidence digest nonce,
      .submit principal request response.attestation.reportId now (.ok output) ∈ past ∧
      Shown primitives config response evidence digest nonce output := by
  obtain ⟨route, report, challenge, _, sound, hchallenge, hresponse⟩ := h
  obtain ⟨stored, node, principal, request, evidence, now, output, policy, claims, backing⟩ :=
    trust.verified sound.stored sound.verified
  obtain rfl : challenge = stored := Option.some.inj (hchallenge.symm.trans backing.stored)
  obtain ⟨digest, hdigest, hprinted⟩ := trust.bound hchallenge
  simp only [responseFromSelected, bind_eq_ok, rejectIf_eq_ok, okOr_eq_ok, exists_const]
    at hresponse
  obtain ⟨_, measurement, hmeasurement, verifiedAt, hverified, collateral, hcollateral, hshown⟩ :=
    hresponse
  obtain ⟨reportId, expiresAt, rfl⟩ : ∃ reportId expiresAt, report =
      reportOf (servicesOf primitives config) challenge request evidence (some claims) "verified"
        reportId now expiresAt := ⟨_, _, backing.columns⟩
  cases hshown
  have hclaims := backing.printed
  simp only [parseAdapterOutput, bind_eq_ok, rejectIf_eq_ok, okOr_eq_ok, exists_const] at hclaims
  obtain ⟨_, _, collateral', hunix, hclaims⟩ := hclaims
  cases hclaims
  obtain rfl := Option.some.inj hmeasurement
  obtain rfl := Option.some.inj hcollateral
  obtain rfl := Option.some.inj hverified
  obtain ⟨_, hmem, hcollateral⟩ := sound.collateral
  obtain rfl := Option.some.inj hmem
  obtain ⟨_, hmem, horder⟩ := sound.inOrder
  obtain rfl := Option.some.inj hmem
  refine ⟨principal, request, now, output, evidence, digest, challenge.nonce, backing.submitted, {
    modelInstance := rfl
    node := rfl
    decoded := backing.decoded
    size := backing.size
    evidenceSha256 := (String.toList_ofList).symm
    challengeNonce := rfl
    binding := ?_
    reportData := by
      rw [← String.toList_ofList (l := hexEncode digest), ← hprinted]
      rfl
    printed := ⟨_, backing.printed, backing.attested.reportData, rfl, rfl⟩
    conclusions := backing.attested.conclusions
    matchesProvider := backing.attested.matchesProvider
    inOrder := horder
    expiry := ⟨sound.expiry, hcollateral⟩
    age := ?_ }⟩
  · -- the route names the node and the instance of the report, whose key is from the enclave
    have hid : challenge.id = request.challengeId := (Table.find_eq_some.mp hchallenge).2
    rw [← hdigest]
    exact congrArg (attestationReportData primitives.sha512) (AttestationReportBinding.ext hid.symm
      sound.node.symm sound.modelInstance.symm rfl rfl rfl rfl rfl sound.keyOrigin.symm)
  · have hexpiry := backing.expiry.2
    have httl := config.reportTtl_bounds.2
    simp only [maxReportAge]
    exact Int.le_trans hexpiry (by simp only [servicesOf]; omega)

variable {response : PrepareRegulatedJobResponse} {evidence digest : List UInt8}
  {nonce : Bytes 32} {output : AdapterOutput}

/-- The texts that the digest was computed from have their form. -/
theorem hashes_of_binding {sha512 : List UInt8 → List UInt8} {binding : AttestationReportBinding}
    (h : attestationReportData sha512 binding = .ok digest) :
    (binding.sandboxPolicyHash.utf8ByteSize = 64 ∧
      binding.sandboxPolicyHash.toList.all isLowerHex = true) ∧
    (binding.runtimeBinaryHash.utf8ByteSize = 64 ∧
      binding.runtimeBinaryHash.toList.all isLowerHex = true) ∧
    (binding.modelWeightsHash.utf8ByteSize = 64 ∧
      binding.modelWeightsHash.toList.all isLowerHex = true) ∧
    (binding.ephemeralPublicKey.utf8ByteSize = 64 ∧
      binding.ephemeralPublicKey.toList.all isLowerHex = true) := by
  simp only [attestationReportData, bind_eq_ok, validateSha256, validateLowerHex, rejectIf_eq_ok,
    exists_const, not_or, not_not, Bool.not_eq_false] at h
  obtain ⟨_, hpolicy, hruntime, hmodel, hkey, _⟩ := h
  exact ⟨hpolicy, hruntime, hmodel, hkey⟩

theorem Shown.static (shown : Shown primitives config response evidence digest nonce output)
    (hsha : ∀ bytes, (primitives.sha256 bytes).length = 32)
    (hkey : response.attestation.ephemeralPublicKey.toList.all (· == '0') = false) :
    response.attestation.validateStaticFields = .ok () := by
  obtain ⟨claims, hprinted, hdata, hmeasurement, _⟩ := shown.printed
  simp only [parseAdapterOutput, bind_eq_ok, rejectIf_eq_ok, okOr_eq_ok, exists_const, not_or,
    not_not, Bool.not_eq_false] at hprinted
  obtain ⟨⟨_, _, _, _, hdataSize, hdataHex, hform⟩, _⟩ := hprinted
  have hsha256 : response.attestation.evidenceSha256.utf8ByteSize = 64 ∧
      response.attestation.evidenceSha256.toList.all isLowerHex = true := by
    have hlower : response.attestation.evidenceSha256.toList.all isLowerHex = true :=
      shown.evidenceSha256 ▸ hexEncode_lower _
    refine ⟨?_, hlower⟩
    rw [length_of_isLowerHex hlower, ← shown.evidenceSha256, length_hexEncode, hsha]
  have hhashes := hashes_of_binding shown.binding
  rw [hdata] at hdataSize hdataHex
  rw [hmeasurement] at hform
  simp only [RegulatedRouteAttestation.validateStaticFields, bind_eq_ok, forM_eq_ok,
    List.forall_mem_cons, rejectIf_eq_ok, exists_const, not_or, not_not, Bool.not_eq_false,
    Bool.not_eq_true]
  exact ⟨⟨hsha256, ⟨hdataSize, hdataHex⟩, hhashes.1, hhashes.2.1, hhashes.2.2.1, hhashes.2.2.2,
    fun _ h => absurd h List.not_mem_nil⟩, hform, hkey⟩

theorem Shown.accepted (shown : Shown primitives config response evidence digest nonce output)
    (hsha : ∀ bytes, (primitives.sha256 bytes).length = 32)
    (fromEnvironment : AttestationProvider → Except ClientVerificationError ClientEvidenceVerifier)
    (now : OffsetDateTime) :
    checkPreparedRoute primitives fromEnvironment now response = .ok () ↔
      Usable now response ∧ LocalVerdict fromEnvironment now response.attestation := by
  simp only [checkPreparedRoute, bind_eq_ok, rejectIf_eq_ok, mapError_eq_ok, okOr_eq_ok,
    exists_const, not_or, not_not, Int.not_le, Int.not_lt, Bool.not_eq_false]
  constructor
  · rintro ⟨⟨_, _, hexpiry, _, _, hskew, _⟩, _, hstatic, _, _, _, _, _, _, _, _, _, verdict⟩
    exact ⟨⟨hexpiry, hskew, (staticFields_of_validate hstatic).ephemeralPublicKey_ne_zero⟩, verdict⟩
  · rintro ⟨⟨hexpiry, hskew, hkey⟩, verdict⟩
    obtain ⟨hreport, hcollateral⟩ := shown.expiry
    have hage := shown.age
    have hmatches := shown.matchesProvider
    have hprovider : response.attestation.provider ≠ .none := by
      intro hnone
      rw [hnone] at hmatches
      cases hkind : response.attestation.evidenceKind <;> rw [hkind] at hmatches <;> cases hmatches
    have hnonce : Base64.decode Base64.urlSafe response.attestation.challengeNonce.toList =
        some nonce.toList := by
      rw [shown.challengeNonce, String.toList_ofList, Base64.decode_encode]
    exact ⟨⟨shown.modelInstance, shown.node, hexpiry, hreport, shown.inOrder, hskew, by omega,
        by omega, by omega, hprovider, hmatches⟩, (), shown.static hsha hkey, evidence,
      shown.decoded, ⟨shown.size.1, by have := shown.size.2; omega⟩, shown.evidenceSha256,
      nonce.toList, hnonce, digest, shown.binding, shown.reportData, verdict⟩

/-- An adapter on the device that reads the evidence as the one of the coordinator did. -/
theorem Shown.agreed (shown : Shown primitives config response evidence digest nonce output)
    {verifier : ClientEvidenceVerifier} {later : OffsetDateTime}
    (allows : Allows verifier response.attestation)
    (hprogram : verifier.program ⟨clientAdapterSchema, verifier.provider,
      response.attestation.evidenceKind, response.attestation.evidence,
      response.attestation.reportData⟩ = .ok output.onDevice)
    (hlater : later.unixTimestampNanos < response.expiresAt.unixTimestampNanos) :
    LocalVerdict (fun _ => .ok verifier) later response.attestation := by
  obtain ⟨claims, hprinted, hdata, hmeasurement, hcollateral⟩ := shown.printed
  simp only [parseAdapterOutput, bind_eq_ok, rejectIf_eq_ok, okOr_eq_ok, exists_const, not_or,
    not_not, Bool.not_eq_false] at hprinted
  obtain ⟨⟨hschema, hname, hlong, hascii, hsize, hhex, hmeasured, heven, hlower⟩,
    ⟨hprovider, hkind⟩, collateral, hunix, hclaims⟩ := hprinted
  cases hclaims
  obtain ⟨hverified, hsignature, hchain, htcb, hcurrent⟩ := shown.conclusions
  have hexpected : response.attestation.reportData.utf8ByteSize = 128 ∧
      response.attestation.reportData.toList.all isLowerHex = true := hdata ▸ ⟨hsize, hhex⟩
  have hexpiry : later.unixTimestampNanos < collateral.unixTimestampNanos := by
    have hbound := shown.expiry.2
    rw [← hcollateral] at hbound
    exact Int.lt_of_lt_of_le hlater hbound
  refine ⟨verifier, rfl, ⟨output.verifierName, output.teeMeasurement, collateral⟩, ?_,
    hmeasurement, congrArg OffsetDateTime.unixTimestampNanos hcollateral⟩
  simp only [ClientEvidenceVerifier.verify, validateOutput, validateOutputHex, bind_eq_ok,
    rejectIf_eq_ok, okOr_eq_ok, exists_const, not_or, not_not, Bool.not_eq_false, Int.not_le]
  exact ⟨⟨allows.policyHash, allows.runtimeHash, allows.measurement⟩,
    hexpected, evidence, shown.decoded, ⟨shown.size.1, by have := shown.size.2; omega⟩,
    output.onDevice, hprogram, ⟨hschema, hname, hlong, hascii⟩, ⟨hsize, hhex⟩, ⟨hmeasured, heven⟩,
    ⟨trivial, hlower⟩, ⟨hprovider.trans allows.provider.symm, hkind, hdata, hmeasurement⟩, collateral,
    hunix, ⟨hverified, hsignature, hchain, htcb, hcurrent, hexpiry⟩, rfl⟩

/-- In every run each response of the coordinator passes the consumer's check exactly as
long as the route has not expired, the clocks are close enough, the attested key is not
all zeros and the verifier of the device confirms the evidence; and it confirms it until
the route expires where its adapter prints what the one of the coordinator printed. -/
theorem prepared_routes_accepted (primitives : Primitives) (config : Config)
    (hsha : ∀ bytes, (primitives.sha256 bytes).length = 32) (now : OffsetDateTime)
    (actions : List RouteAction) :
    ∀ response ∈ (performRoutes (servicesOf primitives config) actions (.initial now)).answered,
      RouteAccepted primitives (trustActions actions) response := by
  intro response hresponse
  have initial : RouteInvariant (servicesOf primitives config) [] (.initial now) :=
    ⟨trustInvariant_initial now, fun _ h => absurd h List.not_mem_nil,
      fun _ h => absurd h List.not_mem_nil⟩
  have invariant := initial.run actions
  rw [List.append_nil] at invariant
  obtain ⟨principal, request, submitted, output, evidence, digest, nonce, hpast, shown⟩ :=
    shown_of_answered invariant.trust (invariant.answered response hresponse)
  exact ⟨shown.accepted hsha, principal, request, submitted, output, List.mem_reverse.mp hpast,
    fun verifier later allows hprogram hlater => shown.agreed allows hprogram hlater⟩

/-- The sample digests under the cipher of another sample. -/
def digestPrimitives : Primitives :=
  { Regulated.samplePrimitives with
    sha256 := sampleServices.sha256
    sha512 := sampleServices.sha512 }

/-- A node proves its hardware, and a consumer asks twice for a route to it. -/
def sampleRoutes : List RouteAction :=
  [.trust (.manage (Table.empty.set
      ⟨.fromU128 4, .fromU128 3, .fromU128 5, .published, sampleHash 'e'⟩)),
    .trust (.register samplePrincipal ⟨"node", ⟨"linux", []⟩⟩ (.fromU128 3)),
    .trust (.draw samplePrincipal sampleRequest (.fromU128 10) (sampleNonce 1) sampleInstant),
    .trust (.insert 0), .trust (sampleSubmit (.fromU128 10) (.fromU128 20)),
    .prepare samplePrincipal ⟨"key", "fingerprint"⟩ (.fromU128 30) sampleInstant
      ⟨[(.fromU128 4, true)], false, .ok ⟨1500000000000, by decide⟩⟩,
    .prepare samplePrincipal ⟨"key", "fingerprint"⟩ (.fromU128 31) sampleInstant
      ⟨[], false, .error .internal⟩,
    .consume (.fromU128 30)]

theorem prepared_routes_accepted_sample :
    (performRoutes (servicesOf digestPrimitives sampleServices.config) sampleRoutes
      (.initial sampleInstant)).answered.length = 2 ∧
    ∀ response ∈ (performRoutes (servicesOf digestPrimitives sampleServices.config) sampleRoutes
      (.initial sampleInstant)).answered,
      RouteAccepted digestPrimitives (trustActions sampleRoutes) response := by
  constructor
  · decide +kernel
  · exact prepared_routes_accepted _ _ (fun _ => by simp [digestPrimitives, sampleServices]) _ _

end Acceptance

end MindOne.Attestation
