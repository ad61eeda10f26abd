import MindOne.Regulated.Envelopes

/-!
# Inference inside a trusted environment

A worker hands a regulated job to an external program and takes from it one
result envelope. The program is outside of the worker; its output is checked
against the request before it counts as a result.
-/

namespace MindOne.Regulated

open CheckedArithmetic MindOne.Stream

inductive AttestationProvider where
  | amdSevSnp | intelTdx | none
  deriving DecidableEq, Repr

inductive TeeRuntimeError where
  | invalidProgram | spawn | timeout | exitFailure | outputTooLarge | invalidOutput
  | bindingMismatch
  deriving DecidableEq, Repr

def adapterSchema : String := "mindone.tee.runtime.v1"

structure TeeInferRequest where
  keyHandle : String
  teePublicKey : String
  nodeId : Uuid
  jobId : Uuid
  routeId : Uuid
  reportId : Uuid
  modelInstanceId : Uuid
  modelWeightsHash : String
  requestEnvelope : RegulatedEnvelope
  estimatedInputTokens : Int
  maxOutputTokens : Int

structure TeeInferenceResult where
  resultEnvelope : RegulatedEnvelope
  actualInputTokens : Int
  actualOutputTokens : Int

/-- The output of the program, once it has been read as JSON. -/
inductive AdapterOutput where
  | prepare
  | attest
  | infer (schemaVersion : String) (provider : AttestationProvider) (keyHandle : String)
      (result : TeeInferenceResult)

/-- The program that is configured for a provider. `invoke` starts it and reads at most
1 MiB of output; the token counts it can read are 32-bit words. -/
structure ExternalTeeRuntime where
  provider : AttestationProvider
  invoke : TeeInferRequest → Except TeeRuntimeError AdapterOutput

def isHandleChar (c : Char) : Bool :=
  ('a' ≤ c && c ≤ 'z') || ('A' ≤ c && c ≤ 'Z') || ('0' ≤ c && c ≤ '9') || c == '-' || c == '_' ||
    c == '.' || c == ':'

def validateHandle (value : String) : Except TeeRuntimeError Unit :=
  rejectIf (value = "" ∨ 256 < value.utf8ByteSize ∨ value.toList.all isHandleChar = false)
    .invalidOutput

def validatePublicKey (value : String) : Except TeeRuntimeError Unit :=
  rejectIf (value.utf8ByteSize ≠ 64 ∨ value.toList.all isLowerHex = false ∨
    value.toList.all (· == '0') = true) .invalidOutput

def validateHash (value : String) : Except TeeRuntimeError Unit :=
  rejectIf (value.utf8ByteSize ≠ 64 ∨ value.toList.all isLowerHex = false) .invalidOutput

/-- The envelope of a request or a result, valid or not. -/
def checkedEnvelope (envelope : RegulatedEnvelope) : Except TeeRuntimeError Unit :=
  match envelope.validate with
  | .ok () => .ok ()
  | .error _ => .error .invalidOutput

/-- The output answers the request that the program was given. -/
def acceptResult (request : TeeInferRequest) (result : TeeInferenceResult) :
    Except TeeRuntimeError TeeInferenceResult := do
  checkedEnvelope result.resultEnvelope
  rejectIf (result.resultEnvelope.direction ≠ .result ∨
      result.resultEnvelope.routeId ≠ request.routeId ∨
      result.resultEnvelope.reportId ≠ request.reportId ∨
      result.resultEnvelope.modelInstanceId ≠ request.modelInstanceId ∨
      result.resultEnvelope.senderPublicKey ≠ request.teePublicKey) .bindingMismatch
  return result

def ExternalTeeRuntime.infer (self : ExternalTeeRuntime) (request : TeeInferRequest) :
    Except TeeRuntimeError TeeInferenceResult := do
  validateHandle request.keyHandle
  validatePublicKey request.teePublicKey
  validateHash request.modelWeightsHash
  checkedEnvelope request.requestEnvelope
  rejectIf (request.requestEnvelope.direction ≠ .request ∨
      request.requestEnvelope.routeId ≠ request.routeId ∨
      request.requestEnvelope.reportId ≠ request.reportId ∨
      request.requestEnvelope.modelInstanceId ≠ request.modelInstanceId ∨
      request.estimatedInputTokens < 0 ∨ request.maxOutputTokens ≤ 0) .bindingMismatch
  match ← self.invoke request with
  | .infer schemaVersion provider keyHandle result =>
      if schemaVersion = adapterSchema ∧ provider = self.provider ∧
          keyHandle = request.keyHandle ∧ 0 ≤ result.actualInputTokens ∧
          0 ≤ result.actualOutputTokens then acceptResult request result
      else .error .bindingMismatch
  | .prepare => .error .bindingMismatch
  | .attest => .error .bindingMismatch

theorem checkedEnvelope_eq_ok {envelope : RegulatedEnvelope} {u : Unit} :
    checkedEnvelope envelope = .ok u ↔ envelope.validate = .ok () := by
  cases h : envelope.validate with
  | ok => simp [checkedEnvelope, h]
  | error => simp [checkedEnvelope, h]

/-- A result envelope that was taken from the program is well formed and points back. -/
structure Accepted (result : TeeInferenceResult) : Prop where
  form : FixedForm result.resultEnvelope
  direction : result.resultEnvelope.direction = .result
  inputTokens : 0 ≤ result.actualInputTokens
  outputTokens : 0 ≤ result.actualOutputTokens

theorem acceptResult_ok {request : TeeInferRequest} {result accepted : TeeInferenceResult}
    (h : acceptResult request result = .ok accepted) :
    accepted = result ∧ FixedForm result.resultEnvelope ∧
      result.resultEnvelope.direction = .result := by
  simp only [acceptResult, bind_eq_ok, rejectIf_eq_ok, exists_const, not_or, not_not] at h
  obtain ⟨_, hform, ⟨hdirection, _⟩, hresult⟩ := h
  cases hresult
  exact ⟨rfl, fixedForm_of_validate (checkedEnvelope_eq_ok.mp hform), hdirection⟩

theorem infer_ok {runtime : ExternalTeeRuntime} {request : TeeInferRequest}
    {result : TeeInferenceResult} (h : runtime.infer request = .ok result) : Accepted result := by
  simp only [ExternalTeeRuntime.infer, bind_eq_ok] at h
  obtain ⟨_, _, _, _, _, _, _, _, _, _, output, _, h⟩ := h
  cases output with
  | infer schemaVersion provider keyHandle output =>
    simp only at h
    split at h
    · next hbound =>
      obtain ⟨rfl, hform, hdirection⟩ := acceptResult_ok h
      exact ⟨hform, hdirection, hbound.2.2.2.1, hbound.2.2.2.2⟩
    · cases h
  | prepare => cases h
  | attest => cases h

end MindOne.Regulated
