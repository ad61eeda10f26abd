import MindOne.Coordinator.Ledgers
import MindOne.Lib.Json

/-!
# Stream events and what may be one

A worker hands in the events of a streaming job one by one. The checks here look
at one event alone: its form, and whether its JSON fits the request of the job.
-/

namespace MindOne.Stream

open CheckedArithmetic Coordinator Json

def maxJobStreamEventBytes : Nat := 64 * 1024

def maxJobStreamEvents : Int := 65536

def maxJobStreamTotalBytes : Int := 650 * 1024

inductive JobStreamEventKind where
  | data | upstreamDone
  deriving DecidableEq, Repr

structure JobStreamEventRequest where
  nodeId : Uuid
  attempt : Int
  sequence : Int
  idempotencyKey : String
  kind : JobStreamEventKind
  eventData : Option String

structure ProtocolValidationError where
  field : String
  message : String
  deriving DecidableEq, Repr

/-- The text of an error as a format string prints it. -/
def ProtocolValidationError.text (error : ProtocolValidationError) : String :=
  "字段 " ++ error.field ++ " 无效：" ++ error.message

structure StandardJobPayload where
  endpoint : String
  request : Value

structure StandardJobLimits where
  model : String
  minimumInputTokens : Int
  maximumOutputTokens : Int
  stream : Bool

def openaiChatCompletions : String := "/v1/chat/completions"

def openaiCompletions : String := "/v1/completions"

/-- `ok_or` with an error of any kind. -/
def okOr {ε α : Type} (error : ε) : Option α → Except ε α
  | some a => .ok a
  | none => .error error

@[simp] theorem okOr_eq_ok {ε α : Type} {error : ε} {x : Option α} {a : α} :
    okOr error x = .ok a ↔ x = some a := by
  cases x <;> simp [okOr]

def validateIdentifier (field value : String) (maximumBytes : Nat) :
    Except ProtocolValidationError Unit :=
  if isBlank value ∨ maximumBytes < value.utf8ByteSize ∨ hasControl value then
    .error ⟨field, "必须为 1 到 " ++ toString maximumBytes ++ " 字节且不包含控制字符"⟩
  else .ok ()

section Validate
variable (parseJson : String → Option Value)

/-- The body of an event: a JSON object for data, nothing for the end marker. -/
def validateEventData : JobStreamEventKind → Option String → Except ProtocolValidationError Unit
  | .data, some data => do
      rejectIf (data = "" ∨ maxJobStreamEventBytes < data.utf8ByteSize)
        ⟨"event_data", "流式 data 事件为空或超过安全上限"⟩
      let value ← okOr ⟨"event_data", "流式 data 事件不是合法 JSON"⟩ (parseJson data)
      rejectIf (value.isObject = false) ⟨"event_data", "流式 data 事件必须是 JSON 对象"⟩
  | .upstreamDone, none => .ok ()
  | .data, none => .error ⟨"event_data", "流式 data 事件缺少正文"⟩
  | .upstreamDone, some _ => .error ⟨"event_data", "upstream_done 事件不得携带正文"⟩

def JobStreamEventRequest.validate (request : JobStreamEventRequest) :
    Except ProtocolValidationError Unit := do
  rejectIf (request.attempt ≤ 0) ⟨"attempt", "流式事件 attempt 必须大于零"⟩
  rejectIf (¬ (0 ≤ request.sequence ∧ request.sequence < maxJobStreamEvents))
    ⟨"sequence", "流式事件 sequence 超出协议上限"⟩
  validateIdentifier "idempotency_key" request.idempotencyKey 200
  validateEventData parseJson request.kind request.eventData

end Validate

section Standard

def invalidStreamEvent (message : String) : ApiError :=
  .badRequest "invalid_stream_event" message

def expectedObject (endpoint : String) : ApiResult String :=
  if endpoint = openaiChatCompletions then .ok "chat.completion.chunk"
  else if endpoint = openaiCompletions then .ok "text_completion"
  else .error .internal

/-- A field is absent, null or a string. -/
def optionalString (fields : Fields) (key : String) : Bool :=
  (fields.get key).all fun value => value.isNull || value.isString

def validateChoice (endpoint : String) (expectedChoices : Nat) (choice : Value) :
    ApiResult Unit := do
  let choice ← okOr (invalidStreamEvent "SSE choice 必须是对象") choice.asObject
  let _ ← okOr (invalidStreamEvent "SSE choice index 超出授权范围")
    (((choice.get "index").bind Value.asU64).filter fun index => index < expectedChoices)
  rejectIf (optionalString choice "finish_reason" = false)
    (invalidStreamEvent "SSE finish_reason 类型无效")
  if endpoint = openaiChatCompletions then do
    let delta ← okOr (invalidStreamEvent "聊天 SSE 缺少 delta")
      ((choice.get "delta").bind Value.asObject)
    rejectIf ((["content", "reasoning_content", "role"].all fun field =>
      optionalString delta field) = false) (invalidStreamEvent "聊天 SSE delta 字段类型无效")
  else if endpoint = openaiCompletions then
    rejectIf (((choice.get "text").any Value.isString) = false)
      (invalidStreamEvent "补全 SSE choice 缺少 text")
  else .error .internal

def validateUsage (usage : Value) : ApiResult Unit := do
  let usage ← okOr (invalidStreamEvent "SSE usage 必须是对象") usage.asObject
  let prompt ← okOr (invalidStreamEvent "SSE usage 缺少 prompt_tokens")
    ((usage.get "prompt_tokens").bind Value.asU64)
  let completion ← okOr (invalidStreamEvent "SSE usage 缺少 completion_tokens")
    ((usage.get "completion_tokens").bind Value.asU64)
  let total ← okOr (invalidStreamEvent "SSE usage 缺少 total_tokens")
    ((usage.get "total_tokens").bind Value.asU64)
  -- A sum beyond 64 bits cannot equal a total that fits.
  rejectIf (prompt + completion ≠ total) (invalidStreamEvent "SSE usage Token 总数不一致")

def validateMetadata (object : Fields) (expected authorizedModel : String) : ApiResult Unit :=
  rejectIf ((object.get "object").bind Value.asStr ≠ some expected ∨
      (object.get "model").bind Value.asStr ≠ some authorizedModel ∨
      ((object.get "id").bind Value.asStr).all
        (fun id => id = "" ∨ 256 < id.utf8ByteSize) = true ∨
      ((object.get "created").bind Value.asI64) = none)
    (invalidStreamEvent "SSE 元数据与任务端点或授权模型不一致")

def validateStandardStreamData (parseJson : String → Option Value) (payload : StandardJobPayload)
    (authorizedModel data : String) : ApiResult Unit := do
  let value ← okOr (invalidStreamEvent "SSE data 不是合法 JSON") (parseJson data)
  let object ← okOr (invalidStreamEvent "SSE data 必须是 JSON 对象") value.asObject
  let expected ← expectedObject payload.endpoint
  validateMetadata object expected authorizedModel
  let expectedChoices := ((payload.request.asObject.bind fun request =>
    request.get "n").bind Value.asU64).getD 1
  let choices ← okOr (invalidStreamEvent "SSE data 缺少 choices")
    ((object.get "choices").bind Value.asArray)
  rejectIf (expectedChoices < choices.length) (invalidStreamEvent "SSE choices 超过任务授权数量")
  choices.forM (validateChoice payload.endpoint expectedChoices)
  match object.get "usage" with
  | some usage => validateUsage usage
  | none => .ok ()

end Standard

end MindOne.Stream
