import MindOne.Coordinator.Requests
import MindOne.Regulated.Inference
import MindOne.Submission.Errors

/-!
# What a worker submits for a job

The result of an inference becomes a request: the response or the envelope is
encoded, the token counts are read off, and the request is checked before it is
sent. A check that fails here is an error of the worker, and no status of the
service stands in its text.
-/

namespace MindOne.Submission

open CheckedArithmetic Coordinator Json Regulated MindOne.Stream

structure JobExecutionTelemetry where
  ttftMs : Option Int
  tpsMilli : Option Int
  peakVramMib : Option Int
  vramSampleCount : Nat
  deriving DecidableEq

def maxTtftMs : Int := 7 * 24 * 60 * 60 * 1000

def maxTpsMilli : Int := 1000000000000

def maxVramMib : Int := 1048576

def maxVramSamples : Nat := 10000000

def JobExecutionTelemetry.validate (telemetry : JobExecutionTelemetry) :
    Except ProtocolValidationError Unit := do
  rejectIf ((telemetry.ttftMs.any fun value => ¬ (1 ≤ value ∧ value ≤ maxTtftMs)) = true)
    ⟨"execution_telemetry.ttft_ms", "TTFT 必须是正数且不超过 7 天"⟩
  rejectIf ((telemetry.tpsMilli.any fun value => ¬ (1 ≤ value ∧ value ≤ maxTpsMilli)) = true)
    ⟨"execution_telemetry.tps_milli", "TPS 必须是正数且不超过协议上限"⟩
  rejectIf ((telemetry.peakVramMib.any fun value => ¬ (0 ≤ value ∧ value ≤ maxVramMib)) = true)
    ⟨"execution_telemetry.peak_vram_mib", "峰值显存不得为负且不得超过协议上限"⟩
  rejectIf (maxVramSamples < telemetry.vramSampleCount ∨
      (telemetry.vramSampleCount == 0) ≠ telemetry.peakVramMib.isNone)
    ⟨"execution_telemetry.vram_sample_count", "显存峰值与真实采样次数不一致"⟩

/-- `mindone_protocol::JobResultRequest`; its telemetry is not serialized yet. -/
structure ResultRequest where
  nodeId : Uuid
  idempotencyKey : String
  resultCiphertext : String
  actualInputTokens : Int
  actualOutputTokens : Int
  executionTelemetry : JobExecutionTelemetry
  deriving DecidableEq

def maxResultCiphertextBytes : Nat := 900000

def ResultRequest.validate (request : ResultRequest) : Except ProtocolValidationError Unit := do
  validateIdentifier "idempotency_key" request.idempotencyKey 200
  validateIdentifier "result_ciphertext" request.resultCiphertext maxResultCiphertextBytes
  rejectIf (request.actualInputTokens < 0 ∨ request.actualOutputTokens < 0)
    ⟨"actual_tokens", "实际 Token 数不得为负"⟩
  request.executionTelemetry.validate

def validateFailRequest (request : JobFailRequest) : Except ProtocolValidationError Unit := do
  validateIdentifier "idempotency_key" request.idempotencyKey 200
  validateIdentifier "error_message" request.errorMessage 1000

/-- The part of a claimed job that a submission reads. -/
structure ClaimedJob where
  jobId : Uuid
  attempt : Int
  attempt_fits : Fits 32 attempt

inductive WorkerExecutionResult where
  | standard (response : Value)
  | regulated (result : TeeInferenceResult)

/-- `serde_json::to_vec` of a value, which never fails and never writes nothing. -/
structure JsonWriter where
  toVec : Value → List UInt8
  toVec_ne_nil : ∀ value, toVec value ≠ []

def maxI32 : Nat := 2147483647

/-- A count that the response does not have is zero. -/
def reportedTokens (response : Value) (field : String) : Nat :=
  (((response.asObject.bind fun fields => fields.get "usage").bind fun usage =>
    usage.asObject.bind fun fields => fields.get field).bind Value.asU64).getD 0

def usageI32 (response : Value) (field : String) : CliResult Int :=
  if reportedTokens response field ≤ maxI32 then .ok (reportedTokens response field)
  else .error (.general (field ++ " 超出协议范围"))

section Build
variable (writer : JsonWriter) (nodeId : Uuid) (job : ClaimedJob)

def resultKey (job : ClaimedJob) : String :=
  "result:" ++ job.jobId.text ++ ":" ++ toString job.attempt

def failureKey (job : ClaimedJob) : String :=
  "fail:" ++ job.jobId.text ++ ":" ++ toString job.attempt

/-- The encoded result and its token counts. -/
def encodeResult : WorkerExecutionResult → CliResult (String × Int × Int)
  | .standard response => do
      let promptTokens ← usageI32 response "prompt_tokens"
      let completionTokens ← usageI32 response "completion_tokens"
      return (String.ofList (Base64.encodePadded Base64.standard (writer.toVec response)),
        promptTokens, completionTokens)
  | .regulated value =>
      .ok (value.resultEnvelope.json, value.actualInputTokens, value.actualOutputTokens)

/-- The request that is built from an encoded result, before its check. -/
def builtRequest (telemetry : JobExecutionTelemetry) (encoded : String × Int × Int) :
    ResultRequest where
  nodeId
  idempotencyKey := resultKey job
  resultCiphertext := encoded.1
  actualInputTokens := encoded.2.1
  actualOutputTokens := encoded.2.2
  executionTelemetry := telemetry

/-- A failed check is an error of the worker. -/
def orGeneral {α : Type} (value : α) : Except ProtocolValidationError Unit → CliResult α
  | .ok () => .ok value
  | .error error => .error (.general error.text)

/-- The request that `submit_result` sends, or the error that it returns without sending. -/
def resultRequest (result : WorkerExecutionResult) (telemetry : JobExecutionTelemetry) :
    CliResult ResultRequest := do
  let encoded ← encodeResult writer result
  let request := builtRequest nodeId job telemetry encoded
  orGeneral request request.validate

def errorClass : CliErrorKind → JobErrorClass
  | .engineOrSandbox => .engine
  | .modelValidation => .model
  | .policyRejected => .policy
  | .attestation => .attestation
  | .cliParse => .internal
  | .general => .internal
  | .remoteRejected => .internal
  | .authentication => .internal
  | .trustDowngraded => .internal
  | .insufficientQuota => .internal

def truncateMessage (message : String) (limit : Nat) : String :=
  String.ofList (message.toList.take limit)

/-- The request that `submit_failure` sends, or the error that it returns without sending. -/
def failureRequest (error : CliError) (retryable : Bool) : CliResult JobFailRequest :=
  let request : JobFailRequest := {
    nodeId
    idempotencyKey := failureKey job
    errorClass := errorClass error.kind
    errorMessage := truncateMessage error.message 1000
    retryable }
  orGeneral request (validateFailRequest request)

end Build

section Checks

@[simp] theorem validateIdentifier_eq_ok {field value : String} {maximumBytes : Nat} {u : Unit} :
    validateIdentifier field value maximumBytes = .ok u ↔
      isBlank value = false ∧ value.utf8ByteSize ≤ maximumBytes ∧ hasControl value = false := by
  rw [validateIdentifier]
  split
  · next h =>
    simp only [reduceCtorEq, false_iff]
    rintro ⟨hblank, hsize, hcontrol⟩
    rcases h with h | h | h
    · rw [hblank] at h
      cases h
    · omega
    · rw [hcontrol] at h
      cases h
  · next h =>
    simp only [not_or, Bool.not_eq_true, not_lt] at h
    simp [h]

theorem isBlank_of_mem {text : String} {c : Char} (hmem : c ∈ text.toList)
    (hc : isWhitespace c = false) : isBlank text = false :=
  List.all_eq_false.mpr ⟨c, hmem, by simp [hc]⟩

theorem utf8ByteSize_of_plain {text : String} (h : ∀ c ∈ text.toList, Plain c) :
    text.utf8ByteSize = text.toList.length :=
  length_utf8_of_plain h

theorem plain_toDigits {n : Nat} {c : Char} (h : c ∈ Nat.toDigits 10 n) : Plain c := by
  have hdigit := Nat.isDigit_of_mem_toDigits (by decide) (by decide) h
  simp only [Char.isDigit, ge_iff_le, Bool.and_eq_true, decide_eq_true_eq,
    UInt32.le_iff_toNat_le] at hdigit
  have hlow : 48 ≤ c.toNat := hdigit.1
  have hhigh : c.toNat ≤ 57 := hdigit.2
  refine ⟨?_, by omega⟩
  simp only [isControl, Bool.or_eq_false_iff, Bool.and_eq_false_iff, decide_eq_false_iff_not]
  omega

/-- The numeral of a 32-bit word is plain and short. -/
theorem plain_toString {n : Int} (h : Fits 32 n) :
    (∀ c ∈ (toString n).toList, Plain c) ∧ (toString n).toList.length ≤ 11 := by
  have hlength : ∀ m : Nat, m < 10 ^ 10 → (Nat.toDigits 10 m).length ≤ 10 := fun m hm =>
    (Nat.length_toDigits_le_iff (by decide) (by decide)).mpr hm
  have hdigits : ∀ m : Nat, m.repr.toList = Nat.toDigits 10 m := fun m => by simp
  simp only [Fits] at h
  rw [Int.toString_eq_repr, Int.repr_eq_if]
  split
  · rw [hdigits]
    have hshort := hlength n.toNat (by omega)
    exact ⟨fun c hc => plain_toDigits hc, by omega⟩
  · rw [String.toList_append, hdigits]
    have hshort := hlength (-n).toNat (by omega)
    refine ⟨fun c hc => ?_, ?_⟩
    · rcases List.mem_append.mp hc with hsign | hc
      · exact forall_of_all (p := Plain) (by decide) c hsign
      · exact plain_toDigits hc
    · rw [List.length_append, show "-".toList.length = 1 from rfl]
      omega

/-- The key of an attempt passes its check. -/
theorem validateIdentifier_key (kind field : String) (job : ClaimedJob)
    (hplain : ∀ c ∈ kind.toList, Plain c) (hlength : kind.toList.length ≤ 100)
    (hblank : isBlank kind = false) :
    validateIdentifier field (kind ++ job.jobId.text ++ ":" ++ toString job.attempt) 200 =
      .ok () := by
  obtain ⟨hattempt, hshort⟩ := plain_toString job.attempt_fits
  have hid := job.jobId.length_text
  have hall : ∀ c ∈ (kind ++ job.jobId.text ++ ":" ++ toString job.attempt).toList, Plain c := by
    intro c hc
    simp only [String.toList_append, List.mem_append] at hc
    rcases hc with ((hc | hc) | hc) | hc
    · exact hplain c hc
    · exact job.jobId.plain_text c hc
    · exact forall_of_all (p := Plain) (by decide) c hc
    · exact hattempt c hc
  rw [validateIdentifier_eq_ok]
  refine ⟨?_, ?_, hasControl_of_plain hall⟩
  · obtain ⟨c, hc, hspace⟩ := List.all_eq_false.mp hblank
    exact isBlank_of_mem (c := c) (by simp [hc]) (by simpa using hspace)
  · rw [utf8ByteSize_of_plain hall]
    simp only [String.toList_append, List.length_append]
    rw [show ":".toList.length = 1 from rfl]
    omega

/-- A failure report of a fixed plain text passes its check. -/
theorem validateIdentifier_short {field text : String} {limit : Nat}
    (hplain : hasControl text = false) (hblank : isBlank text = false)
    (hsize : text.utf8ByteSize ≤ limit) : validateIdentifier field text limit = .ok () :=
  validateIdentifier_eq_ok.mpr ⟨hblank, hsize, hplain⟩

variable {writer : JsonWriter} {nodeId : Uuid} {job : ClaimedJob}
  {telemetry : JobExecutionTelemetry}

/-- A result that a job has ended with: any response, or an envelope that was taken
from the program of the environment for this job. -/
inductive Finished (job : ClaimedJob) : WorkerExecutionResult → Prop
  | standard (response : Value) : Finished job (.standard response)
  | regulated {runtime : ExternalTeeRuntime} {request : TeeInferRequest}
      {result : TeeInferenceResult} :
      request.jobId = job.jobId → runtime.infer request = .ok result →
      Finished job (.regulated result)

/-- The bytes of a response whose Base64 text is not too long. -/
def maxResponseBytes : Nat := 675000

/-- The ciphertext of an envelope whose JSON text is not too long. -/
def maxEnvelopeCiphertextBytes : Nat := 899626

/-- The encoded result is short enough and its counts are 32-bit words. -/
def WorkerExecutionResult.Sendable (writer : JsonWriter) : WorkerExecutionResult → Prop
  | .standard response => (writer.toVec response).length ≤ maxResponseBytes ∧
      reportedTokens response "prompt_tokens" ≤ maxI32 ∧
      reportedTokens response "completion_tokens" ≤ maxI32
  | .regulated value =>
      value.resultEnvelope.ciphertext.utf8ByteSize ≤ maxEnvelopeCiphertextBytes

theorem bare_standard {c : Char} (h : c ∈ Base64.standard.symbols ∨ c = '=') :
    Plain c ∧ isWhitespace c = false := by
  rcases h with h | rfl
  · exact forall_of_all (p := fun c => Plain c ∧ isWhitespace c = false) (by decide) c h
  · decide

/-- A Base64 text of some bytes is an identifier of its length. -/
theorem validateIdentifier_base64 (field : String) (limit : Nat) {bytes : List UInt8}
    (hne : bytes ≠ []) :
    validateIdentifier field (String.ofList (Base64.encodePadded Base64.standard bytes)) limit =
      .ok () ↔ (bytes.length + 2) / 3 * 4 ≤ limit := by
  have hchar := fun c (hc : c ∈ Base64.encodePadded Base64.standard bytes) =>
    bare_standard (Base64.mem_encodePadded hc)
  have hplain : ∀ c ∈ (String.ofList (Base64.encodePadded Base64.standard bytes)).toList,
      Plain c := by
    intro c hc
    rw [String.toList_ofList] at hc
    exact (hchar c hc).1
  have hpos : 0 < bytes.length := List.length_pos_of_ne_nil hne
  obtain ⟨c, rest, hcons⟩ : ∃ c rest, Base64.encodePadded Base64.standard bytes = c :: rest := by
    refine List.exists_cons_of_length_pos ?_
    rw [Base64.length_encodePadded]
    omega
  have hhead : c ∈ Base64.encodePadded Base64.standard bytes := by
    rw [hcons]
    exact List.mem_cons_self
  have hblank : isBlank (String.ofList (Base64.encodePadded Base64.standard bytes)) = false :=
    isBlank_of_mem (c := c) (by simpa using hhead) (hchar c hhead).2
  rw [validateIdentifier_eq_ok, utf8ByteSize_of_plain hplain, String.toList_ofList,
    Base64.length_encodePadded]
  exact ⟨fun h => h.2.1, fun h => ⟨hblank, h, hasControl_of_plain hplain⟩⟩

theorem validateIdentifier_json {field : String} {envelope : RegulatedEnvelope} {limit : Nat}
    (h : FixedForm envelope) :
    validateIdentifier field envelope.json limit = .ok () ↔
      envelope.json.utf8ByteSize ≤ limit := by
  have hopen : Char.ofNat 123 ∈ envelope.json.toList := by
    simp [RegulatedEnvelope.json, JsonText.object]
  rw [validateIdentifier_eq_ok]
  exact ⟨fun h => h.2.1, fun hsize =>
    ⟨isBlank_of_mem hopen (by decide), hsize, hasControl_of_plain h.plain_json⟩⟩

/-- The errors of the checks of a result. -/
def resultErrors : List ProtocolValidationError := [
  ⟨"idempotency_key", "必须为 1 到 200 字节且不包含控制字符"⟩,
  ⟨"result_ciphertext", "必须为 1 到 900000 字节且不包含控制字符"⟩,
  ⟨"actual_tokens", "实际 Token 数不得为负"⟩,
  ⟨"execution_telemetry.ttft_ms", "TTFT 必须是正数且不超过 7 天"⟩,
  ⟨"execution_telemetry.tps_milli", "TPS 必须是正数且不超过协议上限"⟩,
  ⟨"execution_telemetry.peak_vram_mib", "峰值显存不得为负且不得超过协议上限"⟩,
  ⟨"execution_telemetry.vram_sample_count", "显存峰值与真实采样次数不一致"⟩]

theorem error_of_bind {ε α : Type} {check : Except ε Unit} {next : Unit → Except ε α} {error : ε}
    (h : check >>= next = .error error) : check = .error error ∨ next () = .error error := by
  cases check with
  | error given =>
    change Except.error given = Except.error error at h
    cases h
    exact .inl rfl
  | ok => exact .inr h

theorem error_of_rejectIf {ε : Type} {condition : Prop} [Decidable condition] {error given : ε}
    (h : rejectIf condition given = .error error) : error = given := by
  rw [rejectIf] at h
  split at h
  · cases h
    rfl
  · cases h

theorem error_of_validateIdentifier {field value : String} {maximumBytes : Nat}
    {error : ProtocolValidationError}
    (h : validateIdentifier field value maximumBytes = .error error) :
    error = ⟨field, "必须为 1 到 " ++ toString maximumBytes ++ " 字节且不包含控制字符"⟩ := by
  rw [validateIdentifier] at h
  split at h
  · cases h
    rfl
  · cases h

theorem ResultRequest.error_of_validate {request : ResultRequest}
    {error : ProtocolValidationError} (h : request.validate = .error error) :
    error ∈ resultErrors := by
  simp only [resultErrors, List.mem_cons, List.not_mem_nil, or_false]
  rcases error_of_bind h with h | h
  · exact .inl (error_of_validateIdentifier h)
  rcases error_of_bind h with h | h
  · exact .inr (.inl (error_of_validateIdentifier h))
  rcases error_of_bind h with h | h
  · exact .inr (.inr (.inl (error_of_rejectIf h)))
  rcases error_of_bind h with h | h
  · exact .inr (.inr (.inr (.inl (error_of_rejectIf h))))
  rcases error_of_bind h with h | h
  · exact .inr (.inr (.inr (.inr (.inl (error_of_rejectIf h)))))
  rcases error_of_bind h with h | h
  · exact .inr (.inr (.inr (.inr (.inr (.inl (error_of_rejectIf h))))))
  · exact .inr (.inr (.inr (.inr (.inr (.inr (error_of_rejectIf h))))))

/-- No status of the service stands in the text of a failed check. -/
theorem statusOf_resultErrors {error : ProtocolValidationError} (h : error ∈ resultErrors) :
    statusOf error.text.toList = 0 := by
  have hnone : ∀ error ∈ resultErrors, 'H' ∉ error.text.toList := by
    simp [resultErrors, ProtocolValidationError.text]
  exact statusOf_eq_zero (hnone error h)

theorem ResultRequest.validate_eq_ok {request : ResultRequest} {u : Unit} :
    request.validate = .ok u ↔
      validateIdentifier "idempotency_key" request.idempotencyKey 200 = .ok () ∧
      validateIdentifier "result_ciphertext" request.resultCiphertext maxResultCiphertextBytes =
        .ok () ∧
      0 ≤ request.actualInputTokens ∧ 0 ≤ request.actualOutputTokens ∧
      request.executionTelemetry.validate = .ok () := by
  simp only [ResultRequest.validate, bind_eq_ok, rejectIf_eq_ok, exists_const, not_or, not_lt]
  constructor
  · rintro ⟨_, hkey, _, hresult, ⟨hinput, houtput⟩, htelemetry⟩
    exact ⟨hkey, hresult, hinput, houtput, htelemetry⟩
  · rintro ⟨hkey, hresult, hinput, houtput, htelemetry⟩
    exact ⟨(), hkey, (), hresult, ⟨hinput, houtput⟩, htelemetry⟩

theorem orGeneral_eq_ok {α : Type} {value result : α}
    {check : Except ProtocolValidationError Unit} :
    orGeneral value check = .ok result ↔ check = .ok () ∧ value = result := by
  cases check with
  | ok => simp [orGeneral]
  | error => simp [orGeneral]

theorem orGeneral_eq_error {α : Type} {value : α} {check : Except ProtocolValidationError Unit}
    {error : CliError} :
    orGeneral value check = .error error ↔
      ∃ invalid, check = .error invalid ∧ CliError.general invalid.text = error := by
  cases check with
  | ok => simp [orGeneral]
  | error => simp [orGeneral]

theorem resultRequest_of_encoded {result : WorkerExecutionResult} {encoded : String × Int × Int}
    (h : encodeResult writer result = .ok encoded) :
    resultRequest writer nodeId job result telemetry =
      orGeneral (builtRequest nodeId job telemetry encoded)
        (builtRequest nodeId job telemetry encoded).validate := by
  simp only [resultRequest, h, bind, Except.bind]

/-- A built request is rejected exactly for its text, its counts or its telemetry. -/
theorem builtRequest_ok_iff {encoded : String × Int × Int} :
    (builtRequest nodeId job telemetry encoded).validate = .ok () ↔
      validateIdentifier "result_ciphertext" encoded.1 maxResultCiphertextBytes = .ok () ∧
        0 ≤ encoded.2.1 ∧ 0 ≤ encoded.2.2 ∧ telemetry.validate = .ok () := by
  have hkey : validateIdentifier "idempotency_key" (resultKey job) 200 = .ok () :=
    validateIdentifier_key "result:" "idempotency_key" job (forall_of_all (by decide))
      (by decide) (by decide)
  rw [ResultRequest.validate_eq_ok]
  simp only [builtRequest, hkey, true_and]

/-- The encoded form of a finished result passes the checks when the result is sendable. -/
theorem sendable_iff {result : WorkerExecutionResult} (h : Finished job result) :
    result.Sendable writer ↔ ∃ encoded, encodeResult writer result = .ok encoded ∧
      validateIdentifier "result_ciphertext" encoded.1 maxResultCiphertextBytes = .ok () ∧
        0 ≤ encoded.2.1 ∧ 0 ≤ encoded.2.2 := by
  cases h with
  | standard response =>
    simp only [WorkerExecutionResult.Sendable, encodeResult, usageI32]
    by_cases hprompt : reportedTokens response "prompt_tokens" ≤ maxI32
    · by_cases hcompletion : reportedTokens response "completion_tokens" ≤ maxI32
      · rw [if_pos hprompt, if_pos hcompletion]
        have hsize := validateIdentifier_base64 "result_ciphertext" maxResultCiphertextBytes
          (writer.toVec_ne_nil response)
        constructor
        · rintro ⟨hlength, _⟩
          refine ⟨_, rfl, hsize.mpr ?_, Int.natCast_nonneg _, Int.natCast_nonneg _⟩
          simp only [maxResponseBytes, maxResultCiphertextBytes] at hlength ⊢
          omega
        · rintro ⟨encoded, hencoded, htext, _⟩
          cases hencoded
          have hlength := hsize.mp htext
          refine ⟨?_, hprompt, hcompletion⟩
          simp only [maxResponseBytes, maxResultCiphertextBytes] at hlength ⊢
          omega
      · rw [if_pos hprompt, if_neg hcompletion]
        constructor
        · rintro ⟨_, _, hfits⟩
          exact absurd hfits hcompletion
        · rintro ⟨encoded, hencoded, _⟩
          cases hencoded
    · rw [if_neg hprompt]
      constructor
      · rintro ⟨_, hfits, _⟩
        exact absurd hfits hprompt
      · rintro ⟨encoded, hencoded, _⟩
        cases hencoded
  | regulated _ haccepted =>
    rename_i result
    obtain ⟨hform, hdirection, hinput, houtput⟩ := infer_ok haccepted
    have hjson := hform.utf8ByteSize_json
    rw [hdirection, show EnvelopeDirection.result.asStr.utf8ByteSize = 6 from rfl] at hjson
    simp only [WorkerExecutionResult.Sendable, encodeResult, Except.ok.injEq,
      exists_eq_left', validateIdentifier_json hform, hjson, maxEnvelopeCiphertextBytes,
      maxResultCiphertextBytes]
    constructor
    · intro hsize
      exact ⟨by omega, hinput, houtput⟩
    · rintro ⟨hsize, _⟩
      omega

/-- Whether a result becomes a request is decided by its size, its counts and the
telemetry alone. -/
theorem resultRequest_ok_iff (writer : JsonWriter) (nodeId : Uuid)
    {result : WorkerExecutionResult} (h : Finished job result) :
    (∃ request, resultRequest writer nodeId job result telemetry = .ok request ∧
      request.validate = .ok ()) ↔
      result.Sendable writer ∧ telemetry.validate = .ok () := by
  rw [sendable_iff h]
  constructor
  · rintro ⟨request, hrequest, hvalid⟩
    cases hencoded : encodeResult writer result with
    | error error =>
      rw [resultRequest, hencoded] at hrequest
      cases hrequest
    | ok encoded =>
      rw [resultRequest_of_encoded hencoded] at hrequest
      obtain ⟨hbuilt, _⟩ := orGeneral_eq_ok.mp hrequest
      obtain ⟨htext, hinput, houtput, htelemetry⟩ := builtRequest_ok_iff.mp hbuilt
      exact ⟨⟨encoded, rfl, htext, hinput, houtput⟩, htelemetry⟩
  · rintro ⟨⟨encoded, hencoded, htext, hinput, houtput⟩, htelemetry⟩
    have hvalid : (builtRequest nodeId job telemetry encoded).validate = .ok () :=
      builtRequest_ok_iff.mpr ⟨htext, hinput, houtput, htelemetry⟩
    exact ⟨_, by rw [resultRequest_of_encoded hencoded, hvalid, orGeneral], hvalid⟩

theorem statusOf_encodeResult {result : WorkerExecutionResult} {error : CliError}
    (h : encodeResult writer result = .error error) : submissionHttpStatus error = 0 := by
  cases result with
  | regulated value => cases h
  | standard response =>
    simp only [encodeResult, usageI32] at h
    split at h
    · split at h
      · cases h
      · cases h
        exact statusOf_eq_zero (by decide)
    · cases h
      exact statusOf_eq_zero (by decide)

/-- An error of the worker itself has no status. -/
theorem statusOf_resultRequest {result : WorkerExecutionResult} {error : CliError}
    (h : resultRequest writer nodeId job result telemetry = .error error) :
    submissionHttpStatus error = 0 := by
  cases hencoded : encodeResult writer result with
  | error given =>
    rw [resultRequest, hencoded] at h
    cases h
    exact statusOf_encodeResult hencoded
  | ok encoded =>
    rw [resultRequest_of_encoded hencoded] at h
    obtain ⟨invalid, hinvalid, rfl⟩ := orGeneral_eq_error.mp h
    exact statusOf_resultErrors (ResultRequest.error_of_validate hinvalid)

end Checks

end MindOne.Submission
