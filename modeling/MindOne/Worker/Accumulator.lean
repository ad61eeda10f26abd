import MindOne.Lib.KeyedTable
import MindOne.Stream.Events

/-!
# What a worker collects from the stream of its engine

The worker turns the chunks of an OpenAI stream into one response: the texts of
the choices, their ends, and the statistics that come with the ends. A chunk that
does not fit what came before it stops the stream. Floating-point numbers and the
JSON library are parameters.
-/

namespace MindOne.Worker

open CheckedArithmetic Json KeyedTable MindOne.Stream

def maxInferenceResponseBytes : Nat := 650 * 1024

/-- `CliError::EngineOrSandbox`. -/
structure CliError where
  message : String
  deriving DecidableEq, Repr

abbrev CliResult := Except CliError

def localStreamError (message : String) : CliError :=
  ⟨"本地 llama.cpp 流式响应无效：" ++ message⟩

inductive LocalOpenAiStreamKind where
  | chat | completion
  deriving DecidableEq, Repr

namespace LocalOpenAiStreamKind

def fromEndpoint (endpoint : String) : CliResult LocalOpenAiStreamKind :=
  if endpoint = openaiChatCompletions then .ok .chat
  else if endpoint = openaiCompletions then .ok .completion
  else .error ⟨"本地流式 TTFT 采集只支持 OpenAI chat/completions 与 completions"⟩

def streamObject : LocalOpenAiStreamKind → String
  | chat => "chat.completion.chunk"
  | completion => "text_completion"

def responseObject : LocalOpenAiStreamKind → String
  | chat => "chat.completion"
  | completion => "text_completion"

end LocalOpenAiStreamKind

/-- The numbers of the JSON library that are not integers. -/
structure Doubles where
  Double : Type
  asF64 : Value → Option Double
  ofU64 : Nat → Double
  isFinite : Double → Bool
  isPositive : Double → Bool
  add : Double → Double → Double
  min : Double → Double → Double
  /-- `(tokens as f64 * 1_000.0) / milliseconds`. -/
  perSecond : Double → Double → Double
  /-- `Number::from_f64`. -/
  number : Double → Option Value

/-- The time since the request was sent. Its milliseconds fit 64 bits for 292 million years. -/
structure Elapsed where
  micros : Nat
  fits : (micros + 999) / 1000 < 2 ^ 63

section Fields
variable (fields : Fields)

/-- The text of a field, if it has one. -/
def textOf (key : String) : String := ((fields.get key).bind Value.asStr).getD ""

def requiredStreamString (field : String) : CliResult String :=
  okOr (localStreamError ("SSE data 缺少有效 " ++ field))
    (((fields.get field).bind Value.asStr).filter fun value => value ≠ "")

def optionalStreamString (field : String) : CliResult (Option String) :=
  match fields.get field with
  | none | some .null => .ok none
  | some (.string value) => .ok (some value)
  | some _ => .error (localStreamError ("SSE " ++ field ++ " 必须是字符串或 null"))

def requiredStreamU64 (field : String) : CliResult Nat :=
  okOr (localStreamError ("SSE usage 缺少非负整数 " ++ field)) ((fields.get field).bind Value.asU64)

def streamChoiceIndex (expectedChoices : Nat) : CliResult Nat := do
  let index ← okOr (localStreamError "SSE choice 缺少有效 index")
    (((fields.get "index").bind Value.asU64).filter fun value => value < 2 ^ 32)
  rejectIf (expectedChoices ≤ index) (localStreamError "SSE choice index 超出授权范围")
  .ok index

def streamFinishReason : CliResult (Option String) :=
  match fields.get "finish_reason" with
  | some .null => .ok none
  | some (.string value) =>
      if value ∈ ["stop", "length", "content_filter"] then .ok (some value)
      else .error (localStreamError "SSE choice finish_reason 无效")
  | _ => .error (localStreamError "SSE choice finish_reason 无效")

end Fields

def appendStreamText (destination value : String) : CliResult String := do
  rejectIf (maxInferenceResponseBytes - destination.utf8ByteSize < value.utf8ByteSize)
    (localStreamError "聚合后的生成文本超过安全上限，已拒绝提交和结算")
  .ok (destination ++ value)

def storeConsistentStreamString (stored observed field : String) : CliResult String :=
  if stored = "" then .ok observed
  else if stored = observed then .ok stored
  else .error (localStreamError ("SSE " ++ field ++ " 在事件间发生变化"))

structure StreamMetadata where
  id : String
  created : Option Int
  model : String
  systemFingerprint : String

structure ChatStreamChoice where
  roleSeen : Bool
  content : String
  reasoningContent : String
  reasoningSeen : Bool
  finishReason : Option String

structure CompletionStreamChoice where
  text : String
  finishReason : Option String

inductive StreamChoice where
  | chat (choice : ChatStreamChoice)
  | completion (choice : CompletionStreamChoice)

namespace StreamChoice

def new : LocalOpenAiStreamKind → StreamChoice
  | .chat => .chat ⟨false, "", "", false, none⟩
  | .completion => .completion ⟨"", none⟩

def finishReason : StreamChoice → Option String
  | chat choice => choice.finishReason
  | completion choice => choice.finishReason

/-- What the choice contributes to the response as its text. -/
def text : StreamChoice → String
  | chat choice => choice.content
  | completion choice => choice.text

end StreamChoice

/-- An entry of the map of choices. -/
structure ChoiceEntry where
  index : Nat
  choice : StreamChoice

abbrev Choices := Table ChoiceEntry.index

namespace ChatStreamChoice

def observeRole (choice : ChatStreamChoice) (delta : Fields) : CliResult ChatStreamChoice := do
  match ← optionalStreamString delta "role" with
  | none => .ok choice
  | some role =>
      if role ≠ "assistant" ∨ choice.roleSeen = true then
        .error (localStreamError "chat SSE role 无效或重复")
      else .ok { choice with roleSeen := true }

def observeContent (choice : ChatStreamChoice) (delta : Fields) : CliResult ChatStreamChoice := do
  match ← optionalStreamString delta "content" with
  | none => .ok choice
  | some value => do
      let content ← appendStreamText choice.content value
      .ok { choice with content }

def observeReasoning (choice : ChatStreamChoice) (delta : Fields) :
    CliResult ChatStreamChoice := do
  match ← optionalStreamString delta "reasoning_content" with
  | none => .ok choice
  | some value => do
      let reasoningContent ← appendStreamText choice.reasoningContent value
      .ok { choice with reasoningContent, reasoningSeen := true }

def observeFinish (choice : ChatStreamChoice) (delta : Fields) :
    Option String → CliResult ChatStreamChoice
  | none => .ok choice
  | some reason =>
      if (delta.any fun field => !field.2.isNull) = true then
        .error (localStreamError "chat SSE 结束 choice 的 delta 必须为空")
      else .ok { choice with finishReason := some reason }

/-- A delta of the choice. -/
def observe (choice : ChatStreamChoice) (delta : Fields) (finishReason : Option String) :
    CliResult ChatStreamChoice := do
  rejectIf choice.finishReason.isSome (localStreamError "chat SSE 已结束 choice 又收到数据")
  let choice ← choice.observeRole delta
  let choice ← choice.observeContent delta
  let choice ← choice.observeReasoning delta
  choice.observeFinish delta finishReason

end ChatStreamChoice

namespace CompletionStreamChoice

/-- A text of the choice. The last one may be all of the text once more. -/
def observe (choice : CompletionStreamChoice) (text : String) (finishReason : Option String) :
    CliResult CompletionStreamChoice := do
  rejectIf choice.finishReason.isSome
    (localStreamError "completions SSE 已结束 choice 又收到数据")
  match finishReason with
  | some reason => do
      rejectIf (text ≠ "" ∧ text ≠ choice.text)
        (localStreamError "completions SSE 最终文本与已流式接收内容不一致")
      .ok { choice with finishReason := some reason }
  | none => do
      let text ← appendStreamText choice.text text
      .ok { choice with text }

end CompletionStreamChoice

structure OpenAiStreamAccumulator where
  kind : LocalOpenAiStreamKind
  expectedChoices : Nat
  metadata : StreamMetadata
  choices : Choices
  usage : Option Value
  timings : Option Value
  measuredTtftMs : Option Int
  terminalStatsSeen : Nat
  eventCount : Nat

/-- `i64::try_from`. -/
def toI64 (n : Nat) : Option Int := if n < 2 ^ 63 then some n else none

def mergeStreamUsage (stored : Option Value) (observed : Value)
    (promptTokens completionTokens : Nat) : CliResult Value := do
  match stored with
  | none => .ok observed
  | some existing => do
      let existing ← okOr (localStreamError "已聚合 usage 不是对象") existing.asObject
      let existingPrompt ← requiredStreamU64 existing "prompt_tokens"
      let existingCompletion ← requiredStreamU64 existing "completion_tokens"
      rejectIf (existingPrompt ≠ promptTokens)
        (localStreamError "多 choice SSE 的 prompt_tokens 不一致")
      rejectIf (¬ existingCompletion + completionTokens < 2 ^ 31)
        (localStreamError "聚合 completion_tokens 超出协议范围")
      rejectIf (¬ promptTokens + (existingCompletion + completionTokens) < 2 ^ 64)
        (localStreamError "聚合 total_tokens 溢出")
      .ok (.object ((existing.insert "completion_tokens"
        (.int (existingCompletion + completionTokens : Nat))).insert "total_tokens"
          (.int (promptTokens + (existingCompletion + completionTokens) : Nat))))

section Timings
variable (doubles : Doubles)

/-- A field with a finite number above zero. -/
def Doubles.rate (fields : Fields) (key : String) : Option doubles.Double :=
  ((fields.get key).bind doubles.asF64).filter fun value =>
    doubles.isFinite value && doubles.isPositive value

def aggregateN (existing observed : Fields) : Option Nat :=
  ((existing.get "predicted_n").bind Value.asU64).bind fun left =>
    (((observed.get "predicted_n").bind Value.asU64).map fun right => left + right).filter
      fun tokens => tokens < 2 ^ 64

def Doubles.aggregateMs (existing observed : Fields) : Option doubles.Double :=
  ((doubles.rate existing "predicted_ms").bind fun left =>
    (doubles.rate observed "predicted_ms").map fun right => doubles.add left right).filter
      fun value => doubles.isFinite value && doubles.isPositive value

def Doubles.aggregateTps (existingTps observedTps : doubles.Double) (tokens : Option Nat)
    (milliseconds : Option doubles.Double) : doubles.Double :=
  match tokens, milliseconds with
  | some tokens, some milliseconds =>
      if 0 < tokens then doubles.perSecond (doubles.ofU64 tokens) milliseconds
      else doubles.min existingTps observedTps
  | _, _ => doubles.min existingTps observedTps

def insertN (fields : Fields) : Option Nat → Fields
  | none => fields
  | some tokens => fields.insert "predicted_n" (.int (tokens : Nat))

def Doubles.insertMs (fields : Fields) : Option doubles.Double → CliResult Fields
  | none => .ok fields
  | some milliseconds => do
      let number ← okOr (localStreamError "无法编码聚合 predicted_ms") (doubles.number milliseconds)
      .ok (fields.insert "predicted_ms" number)

def mergeStreamTimings (stored : Option Value) (observed : Value) : CliResult Value := do
  match stored with
  | none => .ok observed
  | some existing => do
      let existing ← okOr (localStreamError "已聚合 timings 不是对象") existing.asObject
      let observed ← okOr (localStreamError "SSE timings 不是对象") observed.asObject
      let existingTps ← okOr (localStreamError "已聚合 timings 缺少有效 TPS")
        (doubles.rate existing "predicted_per_second")
      let observedTps ← okOr (localStreamError "SSE timings 缺少有效 TPS")
        (doubles.rate observed "predicted_per_second")
      let number ← okOr (localStreamError "无法编码聚合 TPS")
        (doubles.number (doubles.aggregateTps existingTps observedTps
          (aggregateN existing observed) (doubles.aggregateMs existing observed)))
      let merged ← doubles.insertMs
        (insertN (existing.insert "predicted_per_second" number) (aggregateN existing observed))
        (doubles.aggregateMs existing observed)
      .ok (.object merged)

end Timings

namespace OpenAiStreamAccumulator

def new (kind : LocalOpenAiStreamKind) (expectedChoices : Nat) : OpenAiStreamAccumulator where
  kind := kind
  expectedChoices := expectedChoices
  metadata := ⟨"", none, "", ""⟩
  choices := .empty
  usage := none
  timings := none
  measuredTtftMs := none
  terminalStatsSeen := 0
  eventCount := 0

variable (accumulator : OpenAiStreamAccumulator)

def observeMetadata (object : Fields) : CliResult StreamMetadata := do
  let id ← requiredStreamString object "id"
  let created ← okOr (localStreamError "SSE data 缺少整数 created")
    (((object.get "created").bind Value.asI64).filter fun value => 0 < value)
  let model ← requiredStreamString object "model"
  let fingerprint ← requiredStreamString object "system_fingerprint"
  let streamObject ← requiredStreamString object "object"
  rejectIf (streamObject ≠ accumulator.kind.streamObject)
    (localStreamError "SSE object 与请求端点不匹配")
  let id ← storeConsistentStreamString accumulator.metadata.id id "id"
  let model ← storeConsistentStreamString accumulator.metadata.model model "model"
  let fingerprint ← storeConsistentStreamString accumulator.metadata.systemFingerprint fingerprint
    "system_fingerprint"
  .ok ⟨id, some (accumulator.metadata.created.getD created), model, fingerprint⟩

def observeFirstToken (elapsed : Elapsed) : OpenAiStreamAccumulator :=
  if accumulator.measuredTtftMs.isSome = true then accumulator
  else { accumulator with measuredTtftMs := toI64 (max 1 ((elapsed.micros + 999) / 1000)) }

/-- The choice at the index, or a new one. -/
def entry (index : Nat) : StreamChoice :=
  ((accumulator.choices.find index).map ChoiceEntry.choice).getD (.new accumulator.kind)

/-- The choice is written back, and a token that it brought is timed. -/
def store (index : Nat) (choice : StreamChoice) (observedToken : Bool) (elapsed : Elapsed) :
    OpenAiStreamAccumulator :=
  let stored := { accumulator with choices := accumulator.choices.set ⟨index, choice⟩ }
  if observedToken = true then stored.observeFirstToken elapsed else stored

def observeChatChoice (value : Value) (elapsed : Elapsed) :
    CliResult OpenAiStreamAccumulator := do
  let object ← okOr (localStreamError "chat SSE choice 不是对象") value.asObject
  let index ← streamChoiceIndex object accumulator.expectedChoices
  let finishReason ← streamFinishReason object
  let delta ← okOr (localStreamError "chat SSE choice 缺少 delta 对象")
    ((object.get "delta").bind Value.asObject)
  rejectIf ((delta.any fun field => field.1 ∉ ["role", "content", "reasoning_content"]) = true)
    (localStreamError "chat SSE 包含当前授权合同之外的 delta 字段")
  match accumulator.entry index with
  | .completion _ => .error (localStreamError "SSE choice 类型发生漂移")
  | .chat choice => do
      let choice ← choice.observe delta finishReason
      .ok (accumulator.store index (.chat choice)
        (textOf delta "content" ≠ "" || textOf delta "reasoning_content" ≠ "") elapsed)

def observeCompletionChoice (value : Value) (elapsed : Elapsed) :
    CliResult OpenAiStreamAccumulator := do
  let object ← okOr (localStreamError "completions SSE choice 不是对象") value.asObject
  let index ← streamChoiceIndex object accumulator.expectedChoices
  let text ← okOr (localStreamError "completions SSE choice 缺少 text")
    ((object.get "text").bind Value.asStr)
  let finishReason ← streamFinishReason object
  match accumulator.entry index with
  | .chat _ => .error (localStreamError "SSE choice 类型发生漂移")
  | .completion choice => do
      let choice ← choice.observe text finishReason
      .ok (accumulator.store index (.completion choice) (finishReason.isNone && text ≠ "") elapsed)

def observeChoice (value : Value) (elapsed : Elapsed) : CliResult OpenAiStreamAccumulator :=
  match accumulator.kind with
  | .chat => accumulator.observeChatChoice value elapsed
  | .completion => accumulator.observeCompletionChoice value elapsed

def finishedChoices : Nat :=
  (accumulator.choices.rows.filter fun entry => entry.choice.finishReason.isSome).length

def observeTerminalStats (doubles : Doubles) (object : Fields) :
    CliResult OpenAiStreamAccumulator := do
  let usage ← okOr (localStreamError "SSE 终态缺少 usage 对象")
    ((object.get "usage").bind Value.asObject)
  let timings ← okOr (localStreamError "SSE 终态缺少 timings 对象")
    ((object.get "timings").bind Value.asObject)
  let promptTokens ← requiredStreamU64 usage "prompt_tokens"
  let completionTokens ← requiredStreamU64 usage "completion_tokens"
  let totalTokens ← requiredStreamU64 usage "total_tokens"
  rejectIf (promptTokens + completionTokens ≠ totalTokens ∨ ¬ promptTokens < 2 ^ 31 ∨
    ¬ completionTokens < 2 ^ 31) (localStreamError "SSE usage Token 统计不一致或超出协议范围")
  rejectIf (0 < completionTokens ∧ accumulator.measuredTtftMs.isNone = true)
    (localStreamError "SSE 声称生成了 Token，但没有可观测的首 Token 事件")
  rejectIf (completionTokens = 0 ∧ accumulator.measuredTtftMs.isSome = true)
    (localStreamError "SSE 首 Token 事件与 completion_tokens=0 冲突")
  rejectIf (0 < completionTokens ∧ (doubles.rate timings "predicted_per_second").isNone = true)
    (localStreamError "SSE timings 缺少有效生成 TPS")
  rejectIf (accumulator.finishedChoices ≤ accumulator.terminalStatsSeen)
    (localStreamError "SSE usage/timings 没有对应的新结束 choice")
  let usage ← mergeStreamUsage accumulator.usage (.object usage) promptTokens completionTokens
  let timings ← mergeStreamTimings doubles accumulator.timings (.object timings)
  .ok { accumulator with
    usage := some usage, timings := some timings
    terminalStatsSeen := accumulator.terminalStatsSeen + 1 }

/-- The statistics of an event, which it has to bring or must not bring. -/
def observeStats (doubles : Doubles) (object : Fields) (choices : List Value) :
    CliResult OpenAiStreamAccumulator :=
  if object.containsKey "usage" = true ∨ object.containsKey "timings" = true then
    match accumulator.kind with
    | .chat =>
        if choices ≠ [] then
          .error (localStreamError "chat SSE 的终态 usage/timings 必须位于空 choices 事件")
        else accumulator.observeTerminalStats doubles object
    | .completion =>
        if choices = [] then
          .error (localStreamError "completions SSE 的终态统计缺少最终 choice")
        else accumulator.observeTerminalStats doubles object
  else if choices = [] then
    .error (localStreamError "chat SSE 空 choices 事件缺少 usage/timings")
  else .ok accumulator

/-- `observe`: one event of the stream. -/
def observe (doubles : Doubles) (chunk : Value) (elapsed : Elapsed) :
    CliResult OpenAiStreamAccumulator := do
  let counted := { accumulator with eventCount := accumulator.eventCount + 1 }
  rejectIf (65536 < counted.eventCount)
    (localStreamError "SSE 事件数量超过安全上限，已拒绝提交和结算")
  rejectIf (counted.expectedChoices ≤ counted.terminalStatsSeen)
    (localStreamError "全部 SSE 终态统计之后仍出现数据事件")
  let object ← okOr (localStreamError "SSE data 不是 JSON 对象") chunk.asObject
  let metadata ← counted.observeMetadata object
  let choices ← okOr (localStreamError "SSE data 缺少 choices 数组")
    ((object.get "choices").bind Value.asArray)
  rejectIf (counted.kind = .completion ∧ choices = [])
    (localStreamError "completions SSE 出现空 choices")
  let observed ← choices.foldlM (fun accumulator choice => accumulator.observeChoice choice elapsed)
    { counted with metadata }
  observed.observeStats doubles object choices

end OpenAiStreamAccumulator

structure StandardExecutionResult where
  response : Value
  measuredTtftMs : Option Int

/-- The message of a chat choice. -/
def chatMessage (choice : ChatStreamChoice) : Fields :=
  [("role", .string "assistant"), ("content", .string choice.content)] ++
    if choice.reasoningSeen = true then [("reasoning_content", .string choice.reasoningContent)]
    else []

namespace OpenAiStreamAccumulator
variable (accumulator : OpenAiStreamAccumulator)

/-- The choice of the response with the given index. -/
def responseChoice (index : Nat) : CliResult Value := do
  let entry ← okOr (localStreamError "SSE choice 索引不连续") (accumulator.choices.find index)
  match accumulator.kind, entry.choice with
  | .chat, .chat choice => do
      let finishReason ← okOr (localStreamError "chat SSE choice 缺少结束原因") choice.finishReason
      .ok (.object [("index", .int index), ("message", .object (chatMessage choice)),
        ("finish_reason", .string finishReason)])
  | .completion, .completion choice => do
      let finishReason ← okOr (localStreamError "completions SSE choice 缺少结束原因")
        choice.finishReason
      .ok (.object [("index", .int index), ("text", .string choice.text), ("logprobs", .null),
        ("finish_reason", .string finishReason)])
  | _, _ => .error (localStreamError "SSE choice 类型与端点不一致")

/-- The first choice of a chat has text that can be seen. -/
def firstContentVisible : Bool :=
  match accumulator.choices.find 0 with
  | some ⟨_, .chat choice⟩ => !isBlank choice.content
  | _ => false

def finish (sawDone : Bool) : CliResult StandardExecutionResult := do
  rejectIf (sawDone = false ∨ accumulator.terminalStatsSeen ≠ accumulator.expectedChoices)
    (localStreamError "本地 llama.cpp SSE 未完整结束或缺少终态统计")
  rejectIf (accumulator.choices.rows.length ≠ accumulator.expectedChoices)
    (localStreamError "SSE choice 数量与授权请求不一致")
  rejectIf (accumulator.kind = .chat ∧ accumulator.firstContentVisible = false)
    (localStreamError "chat SSE 第一条 choice 缺少非空可见 content")
  let responseChoices ← (List.range accumulator.expectedChoices).mapM accumulator.responseChoice
  let usage ← okOr (localStreamError "SSE 缺少 usage 终态") accumulator.usage
  let timings ← okOr (localStreamError "SSE 缺少 timings 终态") accumulator.timings
  let created ← okOr (localStreamError "SSE 缺少 created 元数据") accumulator.metadata.created
  .ok ⟨.object [("id", .string accumulator.metadata.id),
    ("object", .string accumulator.kind.responseObject), ("created", .int created),
    ("model", .string accumulator.metadata.model), ("choices", .array responseChoices),
    ("usage", usage), ("timings", timings),
    ("system_fingerprint", .string accumulator.metadata.systemFingerprint)],
    accumulator.measuredTtftMs⟩

end OpenAiStreamAccumulator

end MindOne.Worker
