import MindOne.Submission.Retry

/-!
# Which finished inferences are reported

A worker that has finished an inference posts the result when it passes the checks
of the protocol. A result that fails them is an error of the worker, and the
failure report that the service's own rejection would cause is not sent. So the
service hears of an inference exactly when the size of its encoded result, its
counts and its telemetry are within the limits.
-/

namespace MindOne.Submission

open CheckedArithmetic Coordinator Dialogue Json Regulated MindOne.Stream

def HttpAnswer.Arrived {α : Type} : HttpAnswer α → Prop
  | .accepted _ => True
  | .refused _ => True
  | .unreachable _ => False
  | .unreadable _ => False
  | .incompatible _ _ => True

/-- The service has answered. -/
def Answered : (q : Query) → Answer q → Prop
  | .post _ _, answer => HttpAnswer.Arrived answer.1
  | .renew _, answer => HttpAnswer.Arrived answer
  | .now, _ => True
  | .wait _ _, _ => True
  | .refresh _, _ => True

structure Exchange where
  query : Query
  answer : Answer query

/-- A service that answers every request, in any way; the exchanges are kept. -/
def AnswersAll (log : List Exchange) (q : Query) (answer : Answer q) (extended : List Exchange) :
    Prop :=
  Answered q answer ∧ extended = log ++ [⟨q, answer⟩]

/-- The query hands in a checked result of the attempt or a failure report about it. -/
def Reports (job : ClaimedJob) : Query → Prop
  | .post _ (.result request) =>
      request.validate = .ok () ∧ request.idempotencyKey = resultKey job
  | .post _ (.failure report) => report.idempotencyKey = failureKey job
  | .now => False
  | .wait _ _ => False
  | .renew _ => False
  | .refresh _ => False

def Reported (job : ClaimedJob) (log : List Exchange) : Prop :=
  ∃ exchange ∈ log, Reports job exchange.query

theorem prefix_of_talks {α : Type} {program : Client α} {log extended : List Exchange} {value : α}
    (h : Talks AnswersAll program log value extended) : log <+: extended := by
  refine Talks.keeps (fun reached => log <+: reached) h (List.prefix_refl log) ?_
  rintro before q answer reached hbefore ⟨_, rfl⟩
  exact hbefore.trans (List.prefix_append _ _)

/-- A submission posts its request before anything else. -/
theorem posted_of_submitWithRetry {submission : JobSubmission} {session : String}
    {leaseExpiresAt : Int} {log extended : List Exchange} {value : CliResult Unit × String}
    (h : Talks AnswersAll (submitWithRetry .production submission session leaseExpiresAt) log value
      extended) : ∃ exchange ∈ extended, exchange.query = .post session submission := by
  obtain ⟨answer, asked, ⟨_, rfl⟩, hrest⟩ := talks_ask.mp h
  exact ⟨_, (prefix_of_talks hrest).subset (List.mem_append_right _ List.mem_cons_self), rfl⟩

variable {writer : JsonWriter} {nodeId : Uuid} {job : ClaimedJob} {session : String}
  {result : WorkerExecutionResult} {telemetry : JobExecutionTelemetry} {leaseExpiresAt : Int}

theorem resultRequest_ok {request : ResultRequest}
    (h : resultRequest writer nodeId job result telemetry = .ok request) :
    request.validate = .ok () ∧ request.idempotencyKey = resultKey job := by
  cases hencoded : encodeResult writer result with
  | error error =>
    rw [resultRequest, hencoded] at h
    cases h
  | ok encoded =>
    rw [resultRequest_of_encoded hencoded] at h
    obtain ⟨hvalid, rfl⟩ := orGeneral_eq_ok.mp h
    exact ⟨hvalid, rfl⟩

/-- A finished inference is reported, as a result or as a failure, exactly when its
encoded result, its counts and its telemetry are within the limits. -/
theorem finished_inference_reported {log : List Exchange} {outcome : Bool × String}
    (finished : Finished job result)
    (talks : Talks AnswersAll (submitResultOrTerminalFailure writer nodeId job session result
      telemetry leaseExpiresAt) [] outcome log) :
    Reported job log ↔ result.Sendable writer ∧ telemetry.validate = .ok () := by
  obtain ⟨submitted, between, hsubmit, hrest⟩ := talks_bind.mp talks
  have hgrown : between <+: log := prefix_of_talks hrest
  rw [← resultRequest_ok_iff writer nodeId finished]
  cases hrequest : resultRequest writer nodeId job result telemetry with
  | ok request =>
    have hvalid := resultRequest_ok hrequest
    rw [submitResult, hrequest] at hsubmit
    obtain ⟨exchange, hmem, hquery⟩ := posted_of_submitWithRetry hsubmit
    refine iff_of_true ⟨exchange, hgrown.subset hmem, ?_⟩ ⟨request, rfl, hvalid.1⟩
    rw [hquery]
    exact hvalid
  | error error =>
    rw [submitResult, hrequest] at hsubmit
    obtain ⟨rfl, rfl⟩ := talks_pure.mp hsubmit
    have hsilent : resultSubmissionRequiresTerminalFailure error = false := by
      rw [resultSubmissionRequiresTerminalFailure, statusOf_resultRequest hrequest]
      rfl
    simp only [hsilent, Bool.false_eq_true, if_false, talks_pure] at hrest
    obtain ⟨_, rfl⟩ := hrest
    refine iff_of_false ?_ ?_
    · rintro ⟨exchange, hmem, _⟩
      cases hmem
    · rintro ⟨request, hok, _⟩
      cases hok

def sampleJob : ClaimedJob := ⟨Uuid.fromU128 7, 1, by decide⟩

/-- A serializer that writes empty objects. -/
def sampleWriter : JsonWriter := ⟨fun _ => [123, 125], fun _ => List.cons_ne_nil _ _⟩

def sampleTelemetry : JobExecutionTelemetry := ⟨none, none, none, 0⟩

/-- An envelope of zero bytes. -/
def sampleEnvelope (direction : EnvelopeDirection) (ciphertextBytes : Nat) : RegulatedEnvelope where
  version := regulatedEnvelopeVersion
  algorithm := regulatedAlgorithm
  direction
  routeId := Uuid.fromU128 1
  reportId := Uuid.fromU128 2
  modelInstanceId := Uuid.fromU128 3
  senderPublicKey := String.ofList (List.replicate 64 '1')
  nonce := "BwcHBwcHBwcHBwcH"
  ciphertext := String.ofList (Base64.encode Base64.urlSafe (List.replicate ciphertextBytes 0))

def sampleInferRequest : TeeInferRequest where
  keyHandle := "handle"
  teePublicKey := String.ofList (List.replicate 64 '1')
  nodeId := Uuid.fromU128 4
  jobId := Uuid.fromU128 7
  routeId := Uuid.fromU128 1
  reportId := Uuid.fromU128 2
  modelInstanceId := Uuid.fromU128 3
  modelWeightsHash := String.ofList (List.replicate 64 '2')
  requestEnvelope := sampleEnvelope .request 17
  estimatedInputTokens := 1
  maxOutputTokens := 1

def sampleTeeResult (ciphertextBytes : Nat) : TeeInferenceResult :=
  ⟨sampleEnvelope .result ciphertextBytes, 1, 1⟩

/-- A program whose result has a ciphertext of some length. -/
def sampleRuntime (ciphertextBytes : Nat) : ExternalTeeRuntime where
  provider := .intelTdx
  invoke := fun request =>
    .ok (.infer adapterSchema .intelTdx request.keyHandle (sampleTeeResult ciphertextBytes))

theorem sampleEnvelope_valid {direction : EnvelopeDirection} {ciphertextBytes : Nat}
    (hlow : 17 ≤ ciphertextBytes) (hhigh : ciphertextBytes ≤ 900000) :
    (sampleEnvelope direction ciphertextBytes).validate = .ok () := by
  have hciphertext : decodeBase64url "ciphertext"
      (String.ofList (Base64.encode Base64.urlSafe (List.replicate ciphertextBytes 0))) 17 900000 =
      .ok (List.replicate ciphertextBytes 0) := by
    rw [decodeBase64url_eq_ok]
    refine ⟨?_, by rw [String.toList_ofList], by simpa using hlow, by simpa using hhigh⟩
    intro hempty
    have hlength := congrArg (fun text => text.toList.length) hempty
    simp [Base64.length_encode] at hlength
    omega
  have hnonce : decodeBase64url "nonce" "BwcHBwcHBwcHBwcH" 12 12 = .ok (List.replicate 12 7) := by
    decide
  have hkey : validateLowerHex "sender_public_key" (String.ofList (List.replicate 64 '1')) 32 =
      .ok () := by decide
  have hnonzero : (String.ofList (List.replicate 64 '1')).toList.all (· == '0') = false := by
    decide
  exact validate_of_parts rfl rfl hkey hnonzero hnonce (by decide) hciphertext

theorem infer_sampleRuntime {ciphertextBytes : Nat} (hlow : 17 ≤ ciphertextBytes)
    (hhigh : ciphertextBytes ≤ 900000) :
    (sampleRuntime ciphertextBytes).infer sampleInferRequest =
      .ok (sampleTeeResult ciphertextBytes) := by
  have hhandle : validateHandle sampleInferRequest.keyHandle = .ok () := by decide
  have hpublic : validatePublicKey sampleInferRequest.teePublicKey = .ok () := by decide
  have hhash : validateHash sampleInferRequest.modelWeightsHash = .ok () := by decide
  have hrequest : checkedEnvelope sampleInferRequest.requestEnvelope = .ok () :=
    checkedEnvelope_eq_ok.mpr (sampleEnvelope_valid (by decide) (by decide))
  have hresult : checkedEnvelope (sampleTeeResult ciphertextBytes).resultEnvelope = .ok () :=
    checkedEnvelope_eq_ok.mpr (sampleEnvelope_valid hlow hhigh)
  have haccept : acceptResult sampleInferRequest (sampleTeeResult ciphertextBytes) =
      .ok (sampleTeeResult ciphertextBytes) := by
    rw [acceptResult, hresult]
    rfl
  rw [ExternalTeeRuntime.infer, hhandle, hpublic, hhash, hrequest]
  exact haccept

def sampleResult (ciphertextBytes : Nat) : WorkerExecutionResult :=
  .regulated (sampleTeeResult ciphertextBytes)

def sampleSubmission (ciphertextBytes : Nat) : Client (Bool × String) :=
  submitResultOrTerminalFailure sampleWriter (Uuid.fromU128 4) sampleJob "session"
    (sampleResult ciphertextBytes) sampleTelemetry 0

theorem sampleResult_finished {ciphertextBytes : Nat} (hlow : 17 ≤ ciphertextBytes)
    (hhigh : ciphertextBytes ≤ 900000) : Finished sampleJob (sampleResult ciphertextBytes) :=
  .regulated rfl (infer_sampleRuntime hlow hhigh)

theorem sampleResult_sendable {ciphertextBytes : Nat} :
    (sampleResult ciphertextBytes).Sendable sampleWriter ↔
      (ciphertextBytes * 4 + 2) / 3 ≤ maxEnvelopeCiphertextBytes := by
  have hsize : (String.ofList (Base64.encode Base64.urlSafe
      (List.replicate ciphertextBytes 0))).utf8ByteSize = (ciphertextBytes * 4 + 2) / 3 := by
    rw [utf8ByteSize_of_bare (bare_encode (String.toList_ofList ..).symm), String.toList_ofList,
      Base64.length_encode, List.length_replicate]
  rw [← hsize]
  rfl

/-- The result of a small envelope is handed in. -/
theorem finished_inference_reported_sample :
    ∃ outcome log, Talks AnswersAll (sampleSubmission 17) [] outcome log ∧
      Reported sampleJob log := by
  have finished : Finished sampleJob (sampleResult 17) :=
    sampleResult_finished (le_refl 17) (by decide)
  have within : (sampleResult 17).Sendable sampleWriter ∧ sampleTelemetry.validate = .ok () :=
    ⟨sampleResult_sendable.mpr (by decide), by decide⟩
  obtain ⟨request, hrequest, _⟩ :=
    (resultRequest_ok_iff sampleWriter (Uuid.fromU128 4) finished).mpr within
  have talks : Talks AnswersAll (sampleSubmission 17) [] (true, "session")
      [⟨.post "session" (.result request), (.accepted (), "session")⟩] := by
    refine talks_bind.mpr ⟨(.ok (), "session"), _, ?_, .done⟩
    rw [submitResult, hrequest]
    exact talks_ask.mpr ⟨(.accepted (), "session"), _, ⟨trivial, rfl⟩, .done⟩
  exact ⟨_, _, talks, (finished_inference_reported finished talks).mpr within⟩

/-- An envelope that the worker takes from the program but that is too long to be
handed in: nothing is sent. -/
theorem finished_inference_reported_fails :
    Finished sampleJob (sampleResult 750000) ∧
      Talks AnswersAll (sampleSubmission 750000) [] (false, "session") [] ∧
      ¬ Reported sampleJob [] := by
  have finished : Finished sampleJob (sampleResult 750000) :=
    sampleResult_finished (by decide) (by decide)
  refine ⟨finished, ?_, ?_⟩
  · have hunsendable : ¬ (sampleResult 750000).Sendable sampleWriter := by
      rw [sampleResult_sendable]
      decide
    cases hrequest : resultRequest sampleWriter (Uuid.fromU128 4) sampleJob (sampleResult 750000)
      sampleTelemetry with
    | ok request =>
      have within := (resultRequest_ok_iff sampleWriter (Uuid.fromU128 4) finished).mp
        ⟨request, hrequest, (resultRequest_ok hrequest).1⟩
      exact absurd within.1 hunsendable
    | error error =>
      refine talks_bind.mpr ⟨(.error error, "session"), [], ?_, ?_⟩
      · rw [submitResult, hrequest]
        exact .done
      · have hsilent : resultSubmissionRequiresTerminalFailure error = false := by
          rw [resultSubmissionRequiresTerminalFailure, statusOf_resultRequest hrequest]
          rfl
        simp only [hsilent, Bool.false_eq_true, if_false, talks_pure, and_self]
  · rintro ⟨exchange, hmem, _⟩
    cases hmem

end MindOne.Submission
