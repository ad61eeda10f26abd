import MindOne.Attestation.Submissions
import MindOne.Lib.TableEvolution

/-!
# What stands behind the trust of a node

In every run an enhanced trust goes back to one submission. The owner's device sent
evidence for a challenge of this node, in time, and the adapter found in it exactly the
report data of the challenge; the report data binds the node, its instance, the model,
the policy, the runtime and the key. A challenge has one report, and evidence that is
accepted for two challenges would show two different bindings with one digest.
-/

namespace MindOne.Attestation

open CheckedArithmetic Coordinator KeyedTable MindOne.Stream Regulated

variable {env : AttestationServices} {db changed : TrustDb}

section Kept

/-- A node keeps its owner and the device that it is bound to. -/
def SameHolder (node node' : TrustNode) : Prop :=
  node'.userId = node.userId ∧ ∀ key, node.deviceKeyId = some key → node'.deviceKeyId = some key

theorem SameHolder.refl (node : TrustNode) : SameHolder node node := ⟨rfl, fun _ hkey => hkey⟩

/-- What no step takes back. -/
structure Kept (db changed : TrustDb) : Prop where
  nodes : Table.Evolves SameHolder db.nodes changed.nodes
  consumed : ∀ {id challenge}, db.challenges.find id = some challenge →
    challenge.status ≠ .pending → changed.challenges.find id = some challenge
  reports : ∀ {id report}, db.reports.find id = some report →
    changed.reports.find id = some report

theorem Kept.refl (db : TrustDb) : Kept db db where
  nodes := .refl SameHolder.refl _
  consumed := fun h _ => h
  reports := fun h => h

end Kept

section Drawing

/-- The report data of a challenge is the digest of what it binds. -/
def Bound (env : AttestationServices) (new : NewChallenge) : Prop :=
  ∃ digest, attestationReportData env.sha512 new.binding = .ok digest ∧
    new.reportData = String.ofList (hexEncode digest)

theorem bound_of_drawChallenge {principal : Principal} {request : AttestationChallengeRequest}
    {challengeId : Uuid} {nonce : Bytes 32} {now : OffsetDateTime} {new : NewChallenge}
    (h : drawChallenge env db principal request challengeId nonce now = .ok new) :
    Bound env new := by
  simp only [drawChallenge, bind_eq_ok, mapError_eq_ok, rejectIf_eq_ok, okOr_eq_ok,
    exists_const] at h
  obtain ⟨_, _, policy, _, _, _, node, _, published, _, _, _, _, digest, hdigest, expiresAt, _,
    hnew⟩ := h
  cases hnew
  exact ⟨digest, hdigest, rfl⟩

/-- An inserted challenge is new, and of the others only pending ones have changed. -/
theorem of_insertChallenge {new : NewChallenge} (h : insertChallenge db new = .ok changed) :
    db.challenges.find new.id = none ∧
      { db with challenges := (db.challenges.mapRows (expirePending db.now new.userId)
        (expirePending_id db.now new.userId)).set ⟨new, .pending, db.now, none⟩ } = changed := by
  simp only [insertChallenge, bind_eq_ok, rejectIf_eq_ok, exists_const, not_or] at h
  obtain ⟨⟨_, hnone, _⟩, hchanged⟩ := h
  refine ⟨?_, Except.ok.inj hchanged⟩
  rw [Classical.not_not, Table.find_mapRows, Option.map_eq_none_iff] at hnone
  exact hnone

end Drawing

section Judging
variable {request : AttestationSubmitRequest} {challenge : AttestationChallenge}
  {policy : HardwareAttestationConfig} {now : OffsetDateTime} {principal : Principal}

/-- What the adapter printed for a submission that was accepted. -/
structure Attested (env : AttestationServices) (challenge : NewChallenge)
    (request : AttestationSubmitRequest) (now : OffsetDateTime) (output : AdapterOutput)
    (policy : HardwareAttestationConfig) (collateralExpiresAt : OffsetDateTime) : Prop where
  configured : providerConfig env.config challenge.provider = some policy
  intime : now.unixTimestampNanos < challenge.expiresAt.unixTimestampNanos
  matchesProvider : request.evidenceKind.matchesProvider challenge.provider = true
  policyHash : challenge.sandboxPolicyHash ∈ policy.allowedPolicyHashes
  runtimeHash : challenge.runtimeBinaryHash ∈ policy.allowedRuntimeHashes
  reportData : output.reportData = challenge.reportData
  measurement : output.teeMeasurement ∈ policy.allowedTeeMeasurements
  measurementForm : 64 ≤ output.teeMeasurement.utf8ByteSize ∧
    output.teeMeasurement.utf8ByteSize ≤ 128 ∧ output.teeMeasurement.utf8ByteSize % 2 = 0 ∧
    output.teeMeasurement.toList.all isLowerHex = true
  conclusions : output.verified = true ∧ output.signatureVerified = true ∧
    output.certificateChainVerified = true ∧ output.tcbCurrent = true ∧
    output.collateralCurrent = true
  collateral : fromUnixTimestamp output.collateralExpiresAtUnix = some collateralExpiresAt
  collateralCurrent : now.unixTimestampNanos < collateralExpiresAt.unixTimestampNanos

theorem verify_eq_ok {provider : AttestationProvider} {evidenceKind : AttestationEvidenceKind}
    {answer : Except VerificationError AdapterOutput} {claims : VerificationClaims}
    (h : verify env.config provider evidenceKind answer = .ok claims) :
    ∃ output, answer = .ok output ∧ parseAdapterOutput provider evidenceKind output = .ok claims := by
  simp only [verify, bind_eq_ok] at h
  obtain ⟨_, _, output, hanswer, hclaims⟩ := h
  exact ⟨output, hanswer, hclaims⟩

/-- A verdict for the evidence is only given after every check. -/
theorem judge_verified {current : Bool} {answer : Except VerificationError AdapterOutput}
    {claims : Option VerificationClaims}
    (hpolicy : providerConfig env.config challenge.provider = some policy)
    (h : judge env request challenge policy current now answer = (claims, "verified")) :
    ∃ output checked, claims = some checked ∧ answer = .ok output ∧ current = true ∧
      parseAdapterOutput challenge.provider request.evidenceKind output = .ok checked ∧
      Attested env challenge.toNewChallenge request now output policy
        checked.collateralExpiresAt := by
  unfold judge at h
  split at h
  · exact absurd (Prod.mk.inj h).2 (by decide)
  rename_i hintime
  split at h
  · exact absurd (Prod.mk.inj h).2 (by decide)
  rename_i hprovider
  split at h
  · exact absurd (Prod.mk.inj h).2 (by decide)
  rename_i hcurrent
  split at h
  · exact absurd (Prod.mk.inj h).2 (by decide)
  rename_i hallowed
  split at h
  · rename_i checked hverify
    obtain ⟨rfl, hreason⟩ := Prod.mk.inj h
    obtain ⟨output, rfl, hparse⟩ := verify_eq_ok hverify
    have conclusive := conclusive_of_verified hreason
    have hfields := hparse
    simp only [parseAdapterOutput, bind_eq_ok, rejectIf_eq_ok, okOr_eq_ok, exists_const, not_or,
      not_not, Bool.not_eq_false] at hfields
    obtain ⟨⟨_, _, _, _, _, _, hsize, heven, hhex⟩, _, collateral, hcollateral, hchecked⟩ := hfields
    cases hchecked
    rw [not_or, not_or, not_not, not_not, not_not] at hallowed
    rw [not_or, Bool.not_eq_false] at hprovider
    exact ⟨output, _, rfl, rfl, Bool.not_eq_false _ ▸ hcurrent, hparse, {
      configured := hpolicy
      intime := Int.not_le.mp hintime
      matchesProvider := hprovider.2
      policyHash := hallowed.2.1
      runtimeHash := hallowed.2.2
      reportData := conclusive.reportData
      measurement := conclusive.teeMeasurement
      measurementForm := ⟨hsize.1, hsize.2, heven, hhex⟩
      conclusions := ⟨conclusive.verified, conclusive.signatureVerified,
        conclusive.certificateChainVerified, conclusive.tcbCurrent, conclusive.collateralCurrent⟩
      collateral := hcollateral
      collateralCurrent := conclusive.collateralExpiresAt }⟩
  · rename_i error _
    exact absurd (Prod.mk.inj h).2 (by cases error <;> decide)

theorem current_of_resourceBindingCurrent
    (h : resourceBindingCurrent db principal challenge = .ok true) :
    ∃ node published, db.nodes.find challenge.nodeId = some node ∧
      db.instances.find challenge.modelInstanceId = some published ∧
      node.userId = principal.userId ∧ node.deviceKeyId = some principal.deviceKeyId ∧
      published.nodeId = challenge.nodeId ∧ published.status = .published ∧
      published.weightsHash = challenge.modelWeightsHash := by
  unfold resourceBindingCurrent at h
  split at h
  · rename_i node published hnode hpublished
    split at h
    · simp only [requireNodeDeviceBinding, bind_eq_ok, rejectIf_eq_ok, exists_const, not_or,
        not_not] at h
      obtain ⟨⟨huser, hdevice⟩, hdecided⟩ := h
      obtain ⟨hnodeId, hstatus, hweights⟩ := of_decide_eq_true (Except.ok.inj hdecided)
      exact ⟨node, published, hnode, hpublished, huser, hdevice, hnodeId, hstatus, hweights⟩
    · cases h
  · cases h

/-- A submission that reaches its end writes the report of its verdict. -/
theorem of_submitAttestation {reportId : Uuid} {answer : Except VerificationError AdapterOutput}
    {result : ApiResult AttestationSubmitResponse}
    (h : submitAttestation env db principal request reportId now answer = .ok (changed, result)) :
    ∃ challenge policy evidence current claims reason expiresAt,
      Base64.decodePadded Base64.standard request.evidence.toList = some evidence ∧
      db.challenges.find request.challengeId = some challenge ∧
      challenge.userId = principal.userId ∧ challenge.status = .pending ∧
      providerConfig env.config challenge.provider = some policy ∧
      resourceBindingCurrent db principal challenge = .ok current ∧
      judge env request challenge policy current now answer = (claims, reason) ∧
      reportExpiresAt env challenge claims (reason == "verified") now = .ok expiresAt ∧
      evidence ≠ [] ∧ evidence.length ≤ 576 * 1024 ∧
      recordVerdict db principal challenge (reportOf env challenge request evidence claims reason
        reportId now expiresAt) = .ok changed := by
  simp only [submitAttestation, bind_eq_ok, mapError_eq_ok, rejectIf_eq_ok, okOr_eq_ok,
    exists_const, not_or, not_not] at h
  obtain ⟨_, _, evidence, hevidence, ⟨hnonempty, hsize⟩, challenge, hchallenge, huser,
    ⟨hpending, _⟩, policy, hpolicy, current, hcurrent, expiresAt, hexpires, recorded, hrecorded,
    hresult⟩ := h
  cases hresult
  exact ⟨challenge, policy, evidence, current, _, _, expiresAt, hevidence, hchallenge, huser,
    hpending, hpolicy, hcurrent, rfl, hexpires, hnonempty, by omega, hrecorded⟩

end Judging

section Invariant

/-- The submission behind a report that was verified. -/
structure Backing (env : AttestationServices) (past : List TrustAction) (db : TrustDb)
    (report : AttestationReport) (challenge : AttestationChallenge) (node : TrustNode)
    (principal : Principal) (request : AttestationSubmitRequest) (evidence : List UInt8)
    (now : OffsetDateTime) (output : AdapterOutput) (policy : HardwareAttestationConfig)
    (claims : VerificationClaims) : Prop where
  stored : db.challenges.find report.challengeId = some challenge
  consumed : challenge.status = .verified
  registered : db.nodes.find challenge.nodeId = some node
  owner : node.userId = principal.userId ∧ challenge.userId = principal.userId
  device : node.deviceKeyId = some principal.deviceKeyId
  submitted : .submit principal request report.id now (.ok output) ∈ past
  decoded : Base64.decodePadded Base64.standard request.evidence.toList = some evidence
  size : evidence ≠ [] ∧ evidence.length ≤ 576 * 1024
  printed : parseAdapterOutput challenge.provider request.evidenceKind output = .ok claims
  attested : Attested env challenge.toNewChallenge request now output policy
    claims.collateralExpiresAt
  columns : report = reportOf env challenge request evidence (some claims) "verified" report.id now
    report.expiresAt
  expiry : report.expiresAt.unixTimestampNanos ≤ claims.collateralExpiresAt.unixTimestampNanos ∧
    report.expiresAt.unixTimestampNanos ≤
      now.unixTimestampNanos + env.config.attestationReportTtl

def Evidenced (env : AttestationServices) (past : List TrustAction) (db : TrustDb)
    (report : AttestationReport) : Prop :=
  ∃ challenge node principal request evidence now output policy claims,
    Backing env past db report challenge node principal request evidence now output policy claims

theorem Evidenced.later {past past' : List TrustAction} {report : AttestationReport}
    (h : Evidenced env past db report) (kept : Kept db changed) (hpast : past ⊆ past') :
    Evidenced env past' changed report := by
  obtain ⟨challenge, node, principal, request, evidence, now, output, policy, claims, backing⟩ := h
  obtain ⟨node', hnode, huser, hdevice⟩ := kept.nodes _ _ backing.registered
  refine ⟨challenge, node', principal, request, evidence, now, output, policy, claims,
    { backing with
      stored := kept.consumed backing.stored (by rw [backing.consumed]; decide)
      registered := hnode
      owner := ⟨huser.trans backing.owner.1, backing.owner.2⟩
      device := hdevice _ backing.device
      submitted := hpast backing.submitted }⟩

/-- The trust of a node comes from a verified report about it. -/
def Backed (db : TrustDb) (node : TrustNode) : Prop :=
  ∃ report, db.reports.find report.id = some report ∧ node.attestationReportId = some report.id ∧
    report.nodeId = node.id ∧ report.status = .verified ∧
    node.trustExpiresAt = some report.expiresAt

theorem Backed.later {node : TrustNode} (h : Backed db node) (kept : Kept db changed) :
    Backed changed node := by
  obtain ⟨report, hreport, hrest⟩ := h
  exact ⟨report, kept.reports hreport, hrest⟩

structure TrustInvariant (env : AttestationServices) (past : List TrustAction) (db : TrustDb) :
    Prop where
  drawn : ∀ new ∈ db.drawn, Bound env new
  bound : ∀ {id challenge}, db.challenges.find id = some challenge →
    Bound env challenge.toNewChallenge
  verified : ∀ {id report}, db.reports.find id = some report → report.status = .verified →
    Evidenced env past db report
  once : ∀ {id id' report report'}, db.reports.find id = some report →
    db.reports.find id' = some report' → report.challengeId = report'.challengeId → id = id'
  enhanced : ∀ {id node}, db.nodes.find id = some node → node.trustLevel = .enhanced →
    Backed db node

theorem trustInvariant_initial (now : OffsetDateTime) : TrustInvariant env [] (.initial now) where
  drawn := fun _ h => absurd h List.not_mem_nil
  bound := fun h => by cases h
  verified := fun h => by cases h
  once := fun h => by cases h
  enhanced := fun h => by cases h

/-- A step without a new report. -/
theorem TrustInvariant.of_kept {past past' : List TrustAction} (h : TrustInvariant env past db)
    (kept : Kept db changed) (hpast : past ⊆ past') (hreports : changed.reports = db.reports)
    (hdrawn : ∀ new ∈ changed.drawn, Bound env new)
    (hbound : ∀ {id challenge}, changed.challenges.find id = some challenge →
      Bound env challenge.toNewChallenge)
    (henhanced : ∀ {id node}, changed.nodes.find id = some node → node.trustLevel = .enhanced →
      Backed db node) : TrustInvariant env past' changed where
  drawn := hdrawn
  bound := hbound
  verified := fun hreport hverified =>
    (h.verified (hreports ▸ hreport) hverified).later kept hpast
  once := fun hreport hreport' => h.once (hreports ▸ hreport) (hreports ▸ hreport')
  enhanced := fun hnode henhanced' => (henhanced hnode henhanced').later kept

end Invariant

section Steps
variable {past : List TrustAction} {principal : Principal}

theorem kept_of_insertChallenge {new : NewChallenge} (h : insertChallenge db new = .ok changed) :
    Kept db changed := by
  obtain ⟨hnone, rfl⟩ := of_insertChallenge h
  refine { Kept.refl db with consumed := fun {id challenge} hfound hstatus => ?_ }
  have hne : id ≠ new.id := fun hid => by
    rw [hid, hnone] at hfound
    cases hfound
  have hsame : expirePending db.now new.userId challenge = challenge :=
    if_neg fun hpending => hstatus hpending.2.1
  change Table.find _ id = _
  rw [Table.find_set, if_neg hne, Table.find_mapRows, hfound, Option.map_some, hsame]

theorem bound_of_insertChallenge {new : NewChallenge} (h : insertChallenge db new = .ok changed)
    (hnew : Bound env new) (hbound : ∀ {id challenge}, db.challenges.find id = some challenge →
      Bound env challenge.toNewChallenge) {id : Uuid} {challenge : AttestationChallenge}
    (hfound : changed.challenges.find id = some challenge) :
    Bound env challenge.toNewChallenge := by
  obtain ⟨_, rfl⟩ := of_insertChallenge h
  change Table.find _ id = _ at hfound
  rw [Table.find_set] at hfound
  split at hfound
  · cases hfound
    exact hnew
  · rw [Table.find_mapRows] at hfound
    obtain ⟨old, hold, rfl⟩ := Option.map_eq_some_iff.mp hfound
    have hsame : (expirePending db.now new.userId old).toNewChallenge = old.toNewChallenge := by
      unfold expirePending
      split <;> rfl
    exact hsame ▸ hbound hold

/-- Registering again keeps the owner and the device, and no more trust than there was. -/
theorem of_registerNode {request : RegisterNodeRequest} {nodeId : Uuid} {level : TrustLevel}
    (h : registerNode db principal request nodeId = .ok (changed, level)) :
    ∃ written, changed = { db with nodes := db.nodes.set written } ∧
      (db.nodes.find written.id = none ∧ written.trustLevel ≠ .enhanced ∨
        ∃ old, db.nodes.find written.id = some old ∧ written.userId = old.userId ∧
          (∀ key, old.deviceKeyId = some key → written.deviceKeyId = some key) ∧
          (written.trustLevel = .enhanced → old.trustLevel = .enhanced ∧
            written.attestationReportId = old.attestationReportId ∧
            written.trustExpiresAt = old.trustExpiresAt)) := by
  unfold registerNode at h
  dsimp only at h
  split at h
  · simp only [bind_eq_ok, rejectIf_eq_ok, exists_const, Classical.not_not] at h
    obtain ⟨hnone, hchanged⟩ := h
    cases hchanged
    exact ⟨_, rfl, .inl ⟨hnone, softwareTrustLevel_ne_enhanced _⟩⟩
  · rename_i existing hexisting
    simp only [bind_eq_ok, rejectIf_eq_ok, exists_const, Classical.not_not] at h
    obtain ⟨hdevice, hchanged⟩ := h
    cases hchanged
    refine ⟨_, rfl, .inr ⟨existing, Table.find_of_mem (List.mem_of_find?_eq_some hexisting), rfl,
      fun key hkey => ?_, fun henhanced => ?_⟩⟩
    · rcases hdevice with hnone | hsame
      · rw [hnone] at hkey
        cases hkey
      · exact hsame.symm.trans hkey
    · by_cases backed : existing.Backed db
      · exact ⟨backed.1, if_pos backed, if_pos backed⟩
      · exact absurd ((if_neg backed).symm.trans henhanced) (softwareTrustLevel_ne_enhanced _)

theorem kept_of_registerNode {request : RegisterNodeRequest} {nodeId : Uuid} {level : TrustLevel}
    (h : registerNode db principal request nodeId = .ok (changed, level)) : Kept db changed := by
  obtain ⟨written, rfl, hwritten⟩ := of_registerNode h
  refine { Kept.refl db with nodes := Table.evolves_set SameHolder.refl fun old hold => ?_ }
  rcases hwritten with ⟨hnone, _⟩ | ⟨other, hother, huser, hdevice, _⟩
  · rw [hnone] at hold
    cases hold
  · obtain rfl := Option.some.inj (hother.symm.trans hold)
    exact ⟨huser, hdevice⟩

/-- What the transaction of a submission leaves. -/
structure Recorded (db changed : TrustDb) (challenge : AttestationChallenge)
    (report : AttestationReport) : Prop where
  kept : Kept db changed
  drawn : changed.drawn = db.drawn
  written : changed.reports.find report.id = some report
  others : ∀ {id other}, changed.reports.find id = some other →
    db.reports.find id = some other ∨ id = report.id ∧ other = report
  fresh : ∀ {id other}, db.reports.find id = some other → other.challengeId ≠ report.challengeId
  consumed : changed.challenges.find challenge.id =
    some { challenge with status := report.status, consumedAt := some db.now }
  untouched : ∀ id, id ≠ challenge.id → changed.challenges.find id = db.challenges.find id
  trusted : ∀ {id node}, changed.nodes.find id = some node → node.trustLevel = .enhanced →
    db.nodes.find id = some node ∨ report.status = .verified ∧
      node.attestationReportId = some report.id ∧ report.nodeId = node.id ∧
      node.trustExpiresAt = some report.expiresAt

theorem raiseTrust_eq (db : TrustDb) (principal : Principal) (report : AttestationReport) :
    raiseTrust db principal report = db ∨ ∃ node, db.nodes.find report.nodeId = some node ∧
      raiseTrust db principal report = { db with nodes := db.nodes.set { node with
        trustLevel := .enhanced
        attestationReportId := some report.id
        trustExpiresAt := some report.expiresAt } } := by
  unfold raiseTrust
  split
  · rename_i node hnode
    split
    · exact .inr ⟨node, hnode, rfl⟩
    · exact .inl rfl
  · exact .inl rfl

theorem recorded_of_consume {challenge : AttestationChallenge} {report : AttestationReport}
    (hfound : db.challenges.find challenge.id = some challenge)
    (hpending : challenge.status = .pending) (hnone : db.reports.find report.id = none)
    (hfresh : ∀ row ∈ db.reports.rows, row.challengeId ≠ report.challengeId) :
    Recorded db (consumeChallenge { db with reports := db.reports.set report } challenge
      report.status) challenge report where
  kept :=
    { Kept.refl db with
      consumed := fun {id other} hother hstatus => by
        change (db.challenges.set _).find id = _
        rw [Table.find_set, if_neg, hother]
        rintro rfl
        rw [hfound, Option.some.injEq] at hother
        exact hstatus (hother ▸ hpending)
      reports := fun {id other} hother => by
        change (db.reports.set report).find id = _
        rw [Table.find_set, if_neg, hother]
        rintro rfl
        rw [hnone] at hother
        cases hother }
  drawn := rfl
  written := Table.find_set_self
  others := fun {id other} hother => by
    change (db.reports.set report).find id = _ at hother
    rw [Table.find_set] at hother
    split at hother
    · rename_i hid
      exact .inr ⟨hid, (Option.some.inj hother).symm⟩
    · exact .inl hother
  fresh := fun hother => hfresh _ (Table.mem_of_find hother)
  consumed := Table.find_set_self
  untouched := fun id hid => Table.find_set_ne hid
  trusted := fun hnode _ => .inl hnode

theorem recorded_of_recordVerdict {challenge : AttestationChallenge} {report : AttestationReport}
    (hfound : db.challenges.find challenge.id = some challenge)
    (hpending : challenge.status = .pending)
    (h : recordVerdict db principal challenge report = .ok changed) :
    Recorded db changed challenge report := by
  simp only [recordVerdict, insertReport, bind_eq_ok, rejectIf_eq_ok, exists_const, not_or,
    Bool.not_eq_true, List.any_eq_false, Bool.or_eq_true, decide_eq_true_eq] at h
  obtain ⟨inserted, ⟨⟨_, hnone, hfresh⟩, hinserted⟩, hchanged⟩ := h
  cases hinserted
  have recorded := recorded_of_consume hfound hpending (Classical.not_not.mp hnone)
    fun row hrow => (hfresh row hrow).1
  cases hchanged
  split
  · rename_i hverified
    rcases raiseTrust_eq (consumeChallenge { db with reports := db.reports.set report }
      challenge report.status) principal report with hsame | ⟨node, hnode, hraised⟩
    · rw [hsame]
      exact recorded
    · rw [hraised]
      have hid : node.id = report.nodeId := Table.key_of_find hnode
      have hold : db.nodes.find node.id = some node := hid ▸ hnode
      refine { recorded with
        kept := { recorded.kept with
          nodes := Table.evolves_set SameHolder.refl fun other hother => by
            obtain rfl := Option.some.inj (hold.symm.trans hother)
            exact SameHolder.refl node }
        trusted := fun {id other} hother henhanced => ?_ }
      change (db.nodes.set _).find id = _ at hother
      rw [Table.find_set] at hother
      split at hother
      · cases hother
        exact .inr ⟨hverified, rfl, hid.symm, rfl⟩
      · exact .inl hother
  · exact recorded

end Steps

section Runs
variable {past : List TrustAction} {principal : Principal} {request : AttestationSubmitRequest}
  {now : OffsetDateTime} {answer : Except VerificationError AdapterOutput}

theorem earlier_le (a b : OffsetDateTime) :
    (earlier a b).unixTimestampNanos ≤ a.unixTimestampNanos ∧
      (earlier a b).unixTimestampNanos ≤ b.unixTimestampNanos := by
  unfold earlier
  split
  · exact ⟨by omega, Int.le_refl _⟩
  · exact ⟨Int.le_refl _, by omega⟩

theorem after_eq_ok {instant sum : OffsetDateTime} {nanos : Int} (h : after instant nanos = .ok sum) :
    sum.unixTimestampNanos = instant.unixTimestampNanos + nanos := by
  unfold after at h
  split at h
  · cases h
    rfl
  · cases h

theorem reportExpiresAt_verified {challenge : AttestationChallenge} {claims : VerificationClaims}
    {expiresAt : OffsetDateTime}
    (h : reportExpiresAt env challenge (some claims) true now = .ok expiresAt) :
    expiresAt.unixTimestampNanos ≤ claims.collateralExpiresAt.unixTimestampNanos ∧
      expiresAt.unixTimestampNanos ≤
        now.unixTimestampNanos + env.config.attestationReportTtl := by
  simp only [reportExpiresAt, if_true, bind_eq_ok] at h
  obtain ⟨configured, hconfigured, hexpires⟩ := h
  cases hexpires
  have hle := earlier_le claims.collateralExpiresAt configured
  rw [after_eq_ok hconfigured] at hle
  exact hle

/-- A verified report is backed by the submission that wrote it. -/
theorem evidenced_of_submitted {reportId : Uuid} {challenge : AttestationChallenge}
    {policy : HardwareAttestationConfig} {evidence : List UInt8} {current : Bool}
    {claims : Option VerificationClaims} {expiresAt : OffsetDateTime}
    (hevidence : Base64.decodePadded Base64.standard request.evidence.toList = some evidence)
    (hsize : evidence ≠ [] ∧ evidence.length ≤ 576 * 1024)
    (hid : request.challengeId = challenge.id) (huser : challenge.userId = principal.userId)
    (hpolicy : providerConfig env.config challenge.provider = some policy)
    (hcurrent : resourceBindingCurrent db principal challenge = .ok current)
    (hverdict : judge env request challenge policy current now answer = (claims, "verified"))
    (hexpires : reportExpiresAt env challenge claims true now = .ok expiresAt)
    (recorded : Recorded db changed challenge (reportOf env challenge request evidence claims
      "verified" reportId now expiresAt)) :
    Evidenced env (.submit principal request reportId now answer :: past) changed
      (reportOf env challenge request evidence claims "verified" reportId now expiresAt) := by
  obtain ⟨output, checked, rfl, rfl, rfl, hprinted, attested⟩ := judge_verified hpolicy hverdict
  obtain ⟨node, _, hnode, _, howner, hdevice, _⟩ := current_of_resourceBindingCurrent hcurrent
  obtain ⟨node', hnode', huser', hdevice'⟩ := recorded.kept.nodes _ _ hnode
  refine ⟨{ challenge with status := .verified, consumedAt := some db.now }, node', principal,
    request, evidence, now, output, policy, checked, {
    stored := ?_
    consumed := rfl
    registered := hnode'
    owner := ⟨huser'.trans howner, huser⟩
    device := hdevice' _ hdevice
    submitted := List.mem_cons_self
    decoded := hevidence
    size := hsize
    printed := hprinted
    attested := attested
    columns := rfl
    expiry := reportExpiresAt_verified hexpires }⟩
  have hconsumed := recorded.consumed
  rw [← hid] at hconsumed
  exact hconsumed

theorem kept_of_submitAttestation {reportId : Uuid} {result : ApiResult AttestationSubmitResponse}
    (h : submitAttestation env db principal request reportId now answer = .ok (changed, result)) :
    Kept db changed := by
  obtain ⟨challenge, _, _, _, _, _, _, _, hchallenge, _, hpending, _, _, _, _, _, _, hrecorded⟩ :=
    of_submitAttestation h
  have hid : challenge.id = request.challengeId := (Table.find_eq_some.mp hchallenge).2
  exact (recorded_of_recordVerdict (hid ▸ hchallenge) hpending hrecorded).kept

/-- No step takes back a node, a consumed challenge or a report. -/
theorem kept_of_performTrust (env : AttestationServices) (db : TrustDb) (action : TrustAction) :
    Kept db (performTrust env db action) := by
  have same := Kept.refl db
  cases action with
  | passTime now =>
      simp only [performTrust]
      split
      · exact ⟨same.nodes, same.consumed, same.reports⟩
      · exact same
  | manage instances => exact ⟨same.nodes, same.consumed, same.reports⟩
  | register principal request nodeId =>
      simp only [performTrust]
      cases hregister : registerNode db principal request nodeId with
      | error error => exact same
      | ok outcome => exact kept_of_registerNode hregister
  | draw principal request challengeId nonce now =>
      simp only [performTrust]
      split
      · exact ⟨same.nodes, same.consumed, same.reports⟩
      · exact same
  | insert index =>
      simp only [performTrust]
      split
      · rename_i new _
        cases hinsert : insertChallenge db new with
        | error error => exact same
        | ok changed => exact kept_of_insertChallenge hinsert
      · exact same
  | submit principal request reportId now answer =>
      simp only [performTrust]
      cases hsubmit : submitAttestation env db principal request reportId now answer with
      | error error => exact same
      | ok outcome => exact kept_of_submitAttestation hsubmit

theorem TrustInvariant.submitted {reportId : Uuid} {result : ApiResult AttestationSubmitResponse}
    (h : TrustInvariant env past db)
    (hsubmit : submitAttestation env db principal request reportId now answer =
      .ok (changed, result)) :
    TrustInvariant env (.submit principal request reportId now answer :: past) changed := by
  obtain ⟨challenge, policy, evidence, current, claims, reason, expiresAt, hevidence, hchallenge,
    huser, hpending, hpolicy, hcurrent, hverdict, hexpires, hnonempty, hsize, hrecorded⟩ :=
    of_submitAttestation hsubmit
  have hid : challenge.id = request.challengeId := (Table.find_eq_some.mp hchallenge).2
  have recorded := recorded_of_recordVerdict (hid ▸ hchallenge) hpending hrecorded
  exact {
    drawn := recorded.drawn ▸ h.drawn
    bound := fun {id other} hother => by
      by_cases hsame : id = challenge.id
      · rw [hsame, recorded.consumed, Option.some.injEq] at hother
        have hbound : Bound env challenge.toNewChallenge := h.bound hchallenge
        rw [← hother]
        exact hbound
      · rw [recorded.untouched id hsame] at hother
        exact h.bound hother
    verified := fun {id other} hother hverified => by
      rcases recorded.others hother with hold | ⟨_, rfl⟩
      · exact (h.verified hold hverified).later recorded.kept (List.subset_cons_self _ _)
      · obtain rfl : reason = "verified" := by
          by_contra hne
          simp only [reportOf, reportStatusOf, if_neg hne] at hverified
          split at hverified <;> cases hverified
        exact evidenced_of_submitted hevidence ⟨hnonempty, hsize⟩ hid.symm huser hpolicy hcurrent
          hverdict hexpires recorded
    once := fun {id id' one other} hone hother hsame => by
      rcases recorded.others hone with hold | ⟨rfl, rfl⟩
      · rcases recorded.others hother with hold' | ⟨rfl, rfl⟩
        · exact h.once hold hold' hsame
        · exact absurd hsame (recorded.fresh hold)
      · rcases recorded.others hother with hold' | ⟨rfl, rfl⟩
        · exact absurd hsame.symm (recorded.fresh hold')
        · rfl
    enhanced := fun hnode henhanced => by
      rcases recorded.trusted hnode henhanced with hold | ⟨hverified, hreport, hnodeId, hexpiry⟩
      · exact (h.enhanced hold henhanced).later recorded.kept
      · exact ⟨_, recorded.written, hreport, hnodeId, hverified, hexpiry⟩ }

theorem TrustInvariant.step (h : TrustInvariant env past db) (action : TrustAction) :
    TrustInvariant env (action :: past) (performTrust env db action) := by
  have same : TrustInvariant env (action :: past) db :=
    h.of_kept (.refl db) (List.subset_cons_self _ _) rfl h.drawn h.bound h.enhanced
  cases action with
  | passTime now =>
      simp only [performTrust]
      split
      · exact same.of_kept ⟨(Kept.refl db).nodes, (Kept.refl db).consumed, (Kept.refl db).reports⟩
          (List.Subset.refl _) rfl h.drawn h.bound h.enhanced
      · exact same
  | manage instances =>
      exact same.of_kept ⟨(Kept.refl db).nodes, (Kept.refl db).consumed, (Kept.refl db).reports⟩
        (List.Subset.refl _) rfl h.drawn h.bound h.enhanced
  | register principal request nodeId =>
      simp only [performTrust]
      cases hregister : registerNode db principal request nodeId with
      | error error => exact same
      | ok outcome =>
          obtain ⟨changed, level⟩ := outcome
          obtain ⟨written, hchanged, hwritten⟩ := of_registerNode hregister
          have kept := kept_of_registerNode hregister
          change TrustInvariant env _ changed
          rw [hchanged] at kept ⊢
          refine same.of_kept kept (List.Subset.refl _) rfl h.drawn h.bound
            fun {id node} hnode henhanced => ?_
          change (db.nodes.set written).find id = _ at hnode
          rw [Table.find_set] at hnode
          split at hnode
          · cases hnode
            rcases hwritten with ⟨_, hne⟩ | ⟨old, hold, _, _, htrust⟩
            · exact absurd henhanced hne
            · obtain ⟨hwas, hreport, hexpiry⟩ := htrust henhanced
              obtain ⟨report, hfound, hrow, hnodeId, hverified, hexpires⟩ := h.enhanced hold hwas
              exact ⟨report, hfound, hreport.trans hrow, hnodeId.trans (Table.key_of_find hold),
                hverified, hexpiry.trans hexpires⟩
          · exact h.enhanced hnode henhanced
  | draw principal request challengeId nonce now =>
      simp only [performTrust]
      split
      · rename_i new hnew
        refine same.of_kept ⟨(Kept.refl db).nodes, (Kept.refl db).consumed,
          (Kept.refl db).reports⟩ (List.Subset.refl _) rfl ?_ h.bound h.enhanced
        exact List.forall_mem_cons.mpr ⟨bound_of_drawChallenge hnew, h.drawn⟩
      · exact same
  | insert index =>
      simp only [performTrust]
      split
      · rename_i new hnew
        cases hinsert : insertChallenge db new with
        | error error => exact same
        | ok changed =>
            have hbound := h.drawn new (List.mem_of_getElem? hnew)
            have hsame : changed.reports = db.reports ∧ changed.drawn = db.drawn ∧
                changed.nodes = db.nodes := by
              obtain ⟨_, rfl⟩ := of_insertChallenge hinsert
              exact ⟨rfl, rfl, rfl⟩
            exact same.of_kept (kept_of_insertChallenge hinsert) (List.Subset.refl _) hsame.1
              (hsame.2.1 ▸ h.drawn) (bound_of_insertChallenge hinsert hbound h.bound)
              fun hnode henhanced => h.enhanced (hsame.2.2 ▸ hnode) henhanced
      · exact same
  | submit principal request reportId now answer =>
      simp only [performTrust]
      cases hsubmit : submitAttestation env db principal request reportId now answer with
      | error error => exact same
      | ok outcome =>
          obtain ⟨changed, result⟩ := outcome
          exact h.submitted hsubmit

theorem TrustInvariant.run (actions : List TrustAction) (h : TrustInvariant env past db) :
    TrustInvariant env (actions.reverse ++ past) (performTrusts env actions db) := by
  induction actions generalizing past db with
  | nil => exact h
  | cons action rest ih =>
      rw [List.reverse_cons, List.append_assoc]
      exact ih (h.step action)

theorem trustInvariant_of_run (env : AttestationServices) (now : OffsetDateTime)
    (actions : List TrustAction) :
    TrustInvariant env actions.reverse (performTrusts env actions (.initial now)) := by
  have hrun : TrustInvariant env (actions.reverse ++ []) _ :=
    (trustInvariant_initial now).run actions
  rw [List.append_nil] at hrun
  exact hrun

/-- The submission is one of the actions. -/
theorem evidenced_of_reverse {actions : List TrustAction} {report : AttestationReport}
    (h : Evidenced env actions.reverse db report) : Evidenced env actions db report :=
  h.later (.refl _) fun _ haction => List.mem_reverse.mp haction

end Runs

section Results

/-- What a run with these actions leaves behind the trust of its nodes. -/
structure HardwareTrust (env : AttestationServices) (actions : List TrustAction) (db : TrustDb) :
    Prop where
  enhanced : ∀ node ∈ db.nodes.rows, node.trustLevel = .enhanced → Backed db node
  verified : ∀ report ∈ db.reports.rows, report.status = .verified →
    Evidenced env actions db report
  bound : ∀ challenge ∈ db.challenges.rows, Bound env challenge.toNewChallenge
  once : ∀ report ∈ db.reports.rows, ∀ other ∈ db.reports.rows,
    report.challengeId = other.challengeId → report = other

/-- In every run the trust of an enhanced node is that of a verified report about it. A
verified report goes back to one submission by the device that the node is bound to, of
evidence in which the adapter found the report data of a pending challenge, in time and
with every conclusion; the report data is the digest of what the challenge binds; and no
challenge has two reports. -/
theorem hardware_trust (env : AttestationServices) (now : OffsetDateTime)
    (actions : List TrustAction) :
    HardwareTrust env actions (performTrusts env actions (.initial now)) := by
  have h := trustInvariant_of_run env now actions
  refine ⟨fun node hnode => h.enhanced (Table.find_of_mem hnode), fun report hreport hverified => ?_,
    fun challenge hchallenge => h.bound (Table.find_of_mem hchallenge),
    fun report hreport other hother hsame => ?_⟩
  · exact evidenced_of_reverse (h.verified (Table.find_of_mem hreport) hverified)
  · have hreport := Table.find_of_mem hreport
    have hother := Table.find_of_mem hother
    rw [h.once hreport hother hsame, hother, Option.some.injEq] at hreport
    exact hreport.symm

/-- The adapter reads the report data off the evidence. -/
def AdapterReads (embedded : AttestationEvidenceKind → String → String)
    (actions : List TrustAction) : Prop :=
  ∀ principal request reportId now output,
    .submit principal request reportId now (.ok output) ∈ actions →
      output.reportData = embedded request.evidenceKind request.evidence

/-- Two different bindings of stored challenges with one digest. -/
def BindingsCollide (env : AttestationServices) (db : TrustDb) : Prop :=
  ∃ challenge ∈ db.challenges.rows, ∃ other ∈ db.challenges.rows,
    challenge.binding ≠ other.binding ∧ ∃ digest,
      attestationReportData env.sha512 challenge.binding = .ok digest ∧
      attestationReportData env.sha512 other.binding = .ok digest

/-- Evidence is in one verified report, as long as digests do not collide. -/
def CountsOnce (env : AttestationServices) (db : TrustDb) : Prop :=
  ∀ report ∈ db.reports.rows, ∀ other ∈ db.reports.rows, report.status = .verified →
    other.status = .verified → report.evidenceKind = other.evidenceKind →
    report.evidenceBase64 = other.evidenceBase64 → report = other ∨ BindingsCollide env db

/-- In no run is a piece of evidence accepted twice, for whichever nodes and challenges,
unless the bindings of two challenges have the same digest. -/
theorem evidence_counts_once (now : OffsetDateTime) (actions : List TrustAction)
    (embedded : AttestationEvidenceKind → String → String)
    (reads : AdapterReads embedded actions) :
    CountsOnce env (performTrusts env actions (.initial now)) := by
  have trust := trustInvariant_of_run env now actions
  intro report hreport other hother hverified hverified' hkind hevidence
  have hfound := Table.find_of_mem hreport
  have hfound' := Table.find_of_mem hother
  obtain ⟨challenge, _, _, request, _, _, output, _, _, backing⟩ :=
    evidenced_of_reverse (trust.verified hfound hverified)
  obtain ⟨challenge', _, _, request', _, _, output', _, _, backing'⟩ :=
    evidenced_of_reverse (trust.verified hfound' hverified')
  have hread := reads _ _ _ _ _ backing.submitted
  have hread' := reads _ _ _ _ _ backing'.submitted
  rw [backing.attested.reportData] at hread
  rw [backing'.attested.reportData] at hread'
  have hrequest : request.evidenceKind = report.evidenceKind ∧
      request.evidence = report.evidenceBase64 := by rw [backing.columns]; exact ⟨rfl, rfl⟩
  have hrequest' : request'.evidenceKind = other.evidenceKind ∧
      request'.evidence = other.evidenceBase64 := by rw [backing'.columns]; exact ⟨rfl, rfl⟩
  have hdata : challenge.reportData = challenge'.reportData := by
    rw [hread, hread', hrequest.1, hrequest.2, hrequest'.1, hrequest'.2, hkind, hevidence]
  obtain ⟨hmem, hid⟩ := Table.find_eq_some.mp backing.stored
  obtain ⟨hmem', hid'⟩ := Table.find_eq_some.mp backing'.stored
  by_cases hsame : report.challengeId = other.challengeId
  · rw [trust.once hfound hfound' hsame, hfound', Option.some.injEq] at hfound
    exact .inl hfound.symm
  · refine .inr ⟨challenge, hmem, challenge', hmem', fun hbinding => hsame ?_, ?_⟩
    · exact hid.symm.trans ((congrArg AttestationReportBinding.challengeId hbinding).trans hid')
    · obtain ⟨digest, hdigest, hprinted⟩ := trust.bound (Table.find_of_mem hmem)
      obtain ⟨digest', hdigest', hprinted'⟩ := trust.bound (Table.find_of_mem hmem')
      rw [hprinted, hprinted'] at hdata
      have hequal := hexEncode_injective (String.ofList_injective hdata)
      exact ⟨digest, hdigest, hequal ▸ hdigest'⟩

end Results

section Sample

def sampleHash (c : Char) : String := String.ofList (List.replicate 64 c)

def sampleInstant : OffsetDateTime := ⟨1000000000000, by decide⟩

/-- Digests that can be printed, and an adapter for one provider. -/
def sampleServices : AttestationServices where
  config :=
    { attestationChallengeTtl := 300000000000
      attestationReportTtl := 3600000000000
      amdSevSnpAttestation :=
        ⟨some "/verifier", [sampleHash 'a'], [sampleHash 'b'], [sampleHash 'c']⟩
      intelTdxAttestation := ⟨none, [], [], []⟩
      challengeTtl_bounds := by decide
      reportTtl_bounds := by decide }
  sha256 := fun bytes => (bytes ++ List.replicate 32 0).take 32
  sha512 := fun bytes => (bytes.drop 34).take 64

def samplePrincipal : Principal := ⟨.fromU128 1, .fromU128 2⟩

def sampleRequest : AttestationChallengeRequest where
  nodeId := .fromU128 3
  modelInstanceId := .fromU128 4
  provider := .amdSevSnp
  sandboxPolicyHash := sampleHash 'a'
  runtimeBinaryHash := sampleHash 'b'
  ephemeralPublicKey := sampleHash 'd'
  keyOrigin := .teeRuntime

def sampleNonce (first : UInt8) : Bytes 32 := ⟨first :: List.replicate 31 0, by simp⟩

/-- The report data of the first challenge. -/
def sampleReportData : String :=
  String.ofList (hexEncode (uuidBytes (.fromU128 10) ++ (uuidBytes (.fromU128 3) ++
    (uuidBytes (.fromU128 4) ++ (beBytes 8 32 ++ 1 :: List.replicate 7 0)))))

/-- Evidence with the report data of the first challenge. -/
def sampleSubmit (challengeId reportId : Uuid) : TrustAction :=
  .submit samplePrincipal ⟨challengeId, .amdSevSnp, .snpExtendedReport, "AAAA"⟩ reportId
    sampleInstant (.ok ⟨adapterSchema, "verifier", .amdSevSnp, .snpExtendedReport, true,
      sampleReportData, sampleHash 'c', true, true, true, true, 2000⟩)

/-- A node asks for two challenges and sends the evidence for the first one to both. -/
def sampleReplay : List TrustAction :=
  [.manage (Table.empty.set ⟨.fromU128 4, .fromU128 3, .fromU128 5, .published, sampleHash 'e'⟩),
    .register samplePrincipal ⟨"node", ⟨"linux", []⟩⟩ (.fromU128 3),
    .draw samplePrincipal sampleRequest (.fromU128 10) (sampleNonce 1) sampleInstant,
    .draw samplePrincipal sampleRequest (.fromU128 11) (sampleNonce 2) sampleInstant,
    .insert 0, .insert 1, sampleSubmit (.fromU128 10) (.fromU128 20),
    sampleSubmit (.fromU128 11) (.fromU128 21)]

theorem evidence_counts_once_sample : CountsOnce sampleServices
    (performTrusts sampleServices sampleReplay (.initial sampleInstant)) := by
  refine evidence_counts_once _ _ (fun _ _ => sampleReportData) ?_
  intro principal request reportId now output hmem
  simp only [sampleReplay, sampleSubmit, List.mem_cons, List.not_mem_nil, reduceCtorEq, false_or,
    or_false, TrustAction.submit.injEq, Except.ok.injEq] at hmem
  rcases hmem with ⟨_, _, _, _, rfl⟩ | ⟨_, _, _, _, rfl⟩
  · rfl
  · rfl

end Sample

end MindOne.Attestation
