import MindOne.Lib.LineReader
import MindOne.Worker.Accumulator

/-!
# How a worker reads the stream of its engine

The worker sends the request of a job to its engine and reads the answer line by
line. A blank line dispatches the data of the lines before it: the marker of the
end, or a chunk, which goes to the accumulator and, for a consumer who asked for a
stream, with the authorized model to the queue of events. Whatever stops the worker,
the events that it has sent stay sent.
-/

namespace MindOne.Worker

open CheckedArithmetic Json LineReader MindOne.Stream

/-- `b"[DONE]"`. -/
def doneMarker : List UInt8 := [91, 68, 79, 78, 69, 93]

/-- `b"data:"`. -/
def dataField : List UInt8 := [100, 97, 116, 97, 58]

inductive SseLine where
  | blank
  | comment
  | data (payload : List UInt8)
  | unsupported
  deriving DecidableEq

/-- The line without the carriage return before its end. -/
def withoutReturn (line : List UInt8) : List UInt8 :=
  if line.getLast? = some 13 then line.dropLast else line

def SseLine.of (line : List UInt8) : SseLine :=
  if withoutReturn line = [] then .blank
  else if (withoutReturn line).head? = some 58 then .comment
  else
    match (withoutReturn line).dropPrefix? dataField with
    | none => .unsupported
    | some payload => .data ((payload.dropPrefix? [32]).getD payload)

structure PendingStreamEvent where
  sequence : Int
  kind : JobStreamEventKind
  eventData : Option String
  deriving DecidableEq

/-- Where the events of a streaming job go. The receiver may be gone. -/
structure StandardStreamForwarding where
  authorizedModel : String
  /-- The queue takes the event after that many others. -/
  accepts : Nat → Bool

/-- The JSON library and the floating-point numbers of the worker. -/
structure EngineCodec where
  doubles : Doubles
  fromSlice : List UInt8 → Option Value
  toText : Value → Option String

/-- Why the worker stopped reading, and what it had sent. -/
structure Stopped where
  error : CliError
  sent : List PendingStreamEvent

structure EventReader where
  accumulator : OpenAiStreamAccumulator
  eventData : List UInt8
  sawDone : Bool
  eventSequence : Int
  sent : List PendingStreamEvent

def normalizeStreamEventModel (event : Value) (authorizedModel : String) : CliResult Value := do
  let object ← okOr ⟨"已验证 SSE data 不再是 JSON 对象"⟩ event.asObject
  rejectIf ((((object.get "model").bind Value.asStr).filter fun value => value ≠ "").isNone = true)
    (localStreamError "SSE data 缺少有效 model 字段")
  .ok (.object (object.insert "model" (.string authorizedModel)))

namespace EventReader

def new (kind : LocalOpenAiStreamKind) (expectedChoices : Nat) : EventReader :=
  ⟨.new kind expectedChoices, [], false, 0, []⟩

variable (codec : EngineCodec) (forwarding : Option StandardStreamForwarding)
  (clock : Nat → Elapsed) (reader : EventReader)

def stop {α : Type} (error : CliError) : Except Stopped α := .error ⟨error, reader.sent⟩

/-- A step that sends nothing. -/
def orStop {α : Type} : CliResult α → Except Stopped α
  | .ok a => .ok a
  | .error error => reader.stop error

def send (queue : StandardStreamForwarding) (event : PendingStreamEvent) (closed : String) :
    Except Stopped EventReader :=
  if queue.accepts reader.sent.length = true then
    .ok { reader with sent := reader.sent ++ [event] }
  else reader.stop (localStreamError closed)

/-- The event goes to the consumer with the authorized model in place of the engine's. -/
def forward (value : Value) : Except Stopped EventReader :=
  match forwarding with
  | none => .ok reader
  | some queue => do
      let normalized ← reader.orStop (normalizeStreamEventModel value queue.authorizedModel)
      let serialized ← reader.orStop (okOr
        (localStreamError "无法编码已验证的 SSE data（正文已隐藏）") (codec.toText normalized))
      let sending ← reader.send queue ⟨reader.eventSequence, .data, some serialized⟩
        "持久 SSE 事件通道提前关闭，拒绝结算"
      let _ ← sending.orStop (rejectIf (¬ sending.eventSequence + 1 < 2 ^ 31)
        (localStreamError "SSE 事件 sequence 超出协议范围"))
      .ok { sending with eventSequence := sending.eventSequence + 1 }

/-- A blank line: what the data lines have built is dispatched. -/
def dispatch : Except Stopped EventReader :=
  if reader.eventData = [] then .ok reader
  else if reader.sawDone = true then
    reader.stop (localStreamError "[DONE] 之后仍出现 SSE data")
  else if reader.eventData = doneMarker then
    .ok { reader with sawDone := true, eventData := [] }
  else do
    let value ← reader.orStop (okOr (localStreamError "SSE data 包含无效 JSON（正文已隐藏）")
      (codec.fromSlice reader.eventData))
    let accumulator ← reader.orStop (reader.accumulator.observe codec.doubles value
      (clock reader.accumulator.eventCount))
    let reader ← forward codec forwarding { reader with accumulator } value
    .ok { reader with eventData := [] }

/-- The data of an event over several lines has line feeds in between. -/
def joined (eventData payload : List UInt8) : List UInt8 :=
  if eventData = [] then payload else eventData ++ 10 :: payload

def addData (payload : List UInt8) : Except Stopped EventReader :=
  if reader.sawDone = true then reader.stop (localStreamError "[DONE] 之后仍出现 SSE data")
  else if maxInferenceResponseBytes - (joined reader.eventData []).length < payload.length then
    reader.stop (localStreamError "单个 SSE 事件超过安全上限")
  else .ok { reader with eventData := joined reader.eventData payload }

def onLine (line : List UInt8) : Except Stopped EventReader :=
  match SseLine.of line with
  | .blank => reader.dispatch codec forwarding clock
  | .comment => .ok reader
  | .data payload => reader.addData payload
  | .unsupported => reader.stop (localStreamError "SSE 包含不受支持的字段")

end EventReader

/-- The bytes that have come so far: how many, and those after the last ended line. -/
structure Incoming where
  received : Nat
  feed : Feed EventReader UInt8

def bodyTooLarge : CliError :=
  ⟨"本地 llama.cpp 响应体超过 " ++ toString maxInferenceResponseBytes ++
    " bytes 安全上限，已拒绝提交和结算"⟩

structure ResponseHead where
  status : Nat
  contentType : Option String
  contentLength : Option Nat

/-- The answer of the engine. Its body comes in chunks, and reading one may fail. -/
structure LocalResponse where
  head : ResponseHead
  body : List (Except String (List UInt8))

/-- The media type of a `Content-Type`, without its parameters. -/
def mediaType (contentType : String) : String :=
  let essence := contentType.toList.takeWhile (· ≠ ';')
  String.ofList (((essence.dropWhile isWhitespace).reverse.dropWhile isWhitespace).reverse)

def ResponseHead.validate (head : ResponseHead) : CliResult Unit := do
  rejectIf (¬ (200 ≤ head.status ∧ head.status < 300))
    ⟨"本地 llama.cpp 推理返回 HTTP " ++ toString head.status⟩
  rejectIf (head.contentType.map mediaType ≠ some "text/event-stream")
    (localStreamError "响应 Content-Type 不是 text/event-stream")
  rejectIf ((head.contentLength.any fun length => maxInferenceResponseBytes < length) = true)
    bodyTooLarge

structure PreparedRequest where
  kind : LocalOpenAiStreamKind
  expectedChoices : Nat
  consumerStreamRequested : Bool
  request : Value

def expectedChoicesOf (object : Fields) : CliResult Nat :=
  match object.get "n" with
  | none => .ok 1
  | some value => okOr ⟨"请求 n 超出 1..=16"⟩ (value.asU64.filter fun n => 1 ≤ n && n ≤ 16)

/-- `Some(true)` in a field that may hold a truth value. -/
def isTrue : Option Value → Bool
  | some (.bool value) => value
  | _ => false

def prepareInternalStreamRequest (endpoint : String) (request : Value) (slotId : Nat) :
    CliResult PreparedRequest := do
  let kind ← LocalOpenAiStreamKind.fromEndpoint endpoint
  let object ← okOr ⟨"本地 llama.cpp 请求不是 JSON 对象"⟩ request.asObject
  let expectedChoices ← expectedChoicesOf object
  .ok ⟨kind, expectedChoices, isTrue (object.get "stream"),
    .object ((((object.insert "stream" (.bool true)).insert "id_slot" (.int slotId)).insert
      "cache_prompt" (.bool false)).insert "stream_options"
        (.object [("include_usage", .bool true)]))⟩

/-- What came of a request: the events that were sent, and the response or an error. -/
structure StreamRun where
  sent : List PendingStreamEvent
  result : CliResult StandardExecutionResult

def StreamRun.of : Except Stopped (EventReader × StandardExecutionResult) → StreamRun
  | .ok (reader, result) => ⟨reader.sent, .ok result⟩
  | .error stopped => ⟨stopped.sent, .error stopped.error⟩

section Execute
variable (codec : EngineCodec) (forwarding : Option StandardStreamForwarding)
  (clock : Nat → Elapsed)

def readChunk (incoming : Incoming) : Except String (List UInt8) → Except Stopped Incoming
  | .error text => incoming.feed.state.stop ⟨"读取本地 llama.cpp 响应失败：" ++ text⟩
  | .ok chunk =>
      if maxInferenceResponseBytes - incoming.received < chunk.length then
        incoming.feed.state.stop bodyTooLarge
      else
        (incoming.feed.push 10 (EventReader.onLine codec forwarding clock) chunk).map fun feed =>
          ⟨incoming.received + chunk.length, feed⟩

/-- The marker that ends the events of a streaming job. -/
def sendDone (reader : EventReader) : Except Stopped EventReader :=
  match forwarding with
  | none => .ok reader
  | some queue => reader.send queue ⟨reader.eventSequence, .upstreamDone, none⟩
      "持久 SSE 完成标记通道提前关闭，拒绝结算"

/-- The body has ended. -/
def endOfStream (feed : Feed EventReader UInt8) :
    Except Stopped (EventReader × StandardExecutionResult) := do
  let reader := feed.state
  let _ ← reader.orStop (rejectIf (feed.rest ≠ [] ∨ reader.eventData ≠ [])
    (localStreamError "SSE 在不完整行或事件中断开"))
  let result ← reader.orStop (reader.accumulator.finish reader.sawDone)
  let reader ← sendDone forwarding reader
  .ok (reader, result)

/-- The body of an answer, from its first chunk to its end. -/
def readBody (start : EventReader) (body : List (Except String (List UInt8))) :
    Except Stopped (EventReader × StandardExecutionResult) := do
  let incoming ← body.foldlM (readChunk codec forwarding clock) ⟨0, ⟨start, []⟩⟩
  endOfStream forwarding incoming.feed

/-- What precedes the first byte of the body. -/
def openStream (endpoint : String) (request : Value) (slotId : Nat)
    (engine : Value → CliResult LocalResponse) :
    CliResult (EventReader × List (Except String (List UInt8))) := do
  let prepared ← prepareInternalStreamRequest endpoint request slotId
  rejectIf (prepared.consumerStreamRequested ≠ forwarding.isSome)
    (localStreamError "消费者 stream 标志与持久事件通道不一致，拒绝静默降级")
  let response ← engine prepared.request
  response.head.validate
  .ok (.new prepared.kind prepared.expectedChoices, response.body)

/-- `execute_local_inference_stream`. The engine answers the prepared request, or the
request fails; the clock gives the time at which an event is looked at. -/
def executeLocalInferenceStream (endpoint : String) (request : Value) (slotId : Nat)
    (engine : Value → CliResult LocalResponse) : StreamRun :=
  match openStream forwarding endpoint request slotId engine with
  | .error error => ⟨[], .error error⟩
  | .ok (start, body) => .of (readBody codec forwarding clock start body)

end Execute

end MindOne.Worker
