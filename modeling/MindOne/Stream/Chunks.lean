import MindOne.Coordinator.Requests
import MindOne.Lib.EventStream
import MindOne.Stream.Events

/-!
# The chunks that a consumer is sent

Two loops turn the pages of a stream into server-sent events: the proxy on the
consumer's machine and the public gateway. Each sends what is pending, then its
terminal, and reads on while there is neither. Both write the text of an event
into its frame as it is.
-/

namespace MindOne.Stream

open Coordinator EventStream Json

structure JobStreamEvent where
  sequence : Int
  eventData : String
  deriving DecidableEq, Repr

structure JobStreamReadResponse where
  jobId : Uuid
  status : JobStatus
  attempt : Int
  events : List JobStreamEvent
  nextSequence : Int
  hasMore : Bool
  upstreamDone : Bool
  errorClass : Option JobErrorClass
  errorMessage : Option String

inductive Terminal where
  | done
  | error (message : String)
  deriving DecidableEq, Repr

/-- What one call of a loop returns. -/
inductive Chunk where
  | event (event : JobStreamEvent)
  | keepAlive
  | terminal (terminal : Terminal)
  deriving DecidableEq, Repr

/-- Durations and instants count nanoseconds. -/
def streamKeepaliveInterval : Nat := 15 * 1000000000

def streamRecoveryTimeout : Nat := 30 * 1000000000

section Text
variable (encode : Value → Option String)

/-- The error object of the stream, as both emitters name its fields. -/
def streamError (message : String) : Value :=
  .object [("error", .object [("message", .string message), ("type", .string "stream_error"),
    ("code", .string "stream_error")])]

def streamErrorFallback : String :=
  "\x7b\"error\":\x7b\"message\":\"SSE 失败\",\"type\":\"stream_error\",\"code\":\"stream_error\"\x7d\x7d"

/-- The text of a chunk. -/
def Chunk.text : Chunk → String
  | .event ⟨sequence, eventData⟩ => "id: " ++ toString sequence ++ "\ndata: " ++ eventData ++ "\n\n"
  | .keepAlive => ": keep-alive\n\n"
  | .terminal .done => "data: [DONE]\n\n"
  | .terminal (.error message) =>
      "data: " ++ (encode (streamError message)).getD streamErrorFallback ++
        "\n\ndata: [DONE]\n\n"

end Text

/-- The state of either loop; the last field is the proxy's alone. -/
structure StreamState where
  jobId : Uuid
  nextSequence : Int
  pending : List JobStreamEvent
  terminal : Option Terminal
  finished : Bool
  deadline : Nat
  lastOutput : Nat
  coordinatorFailureSince : Option Nat
  deriving DecidableEq

namespace StreamState

def start (jobId : Uuid) (now budget : Nat) : StreamState :=
  ⟨jobId, 0, [], none, false, now + budget, now, none⟩

/-- What a turn of the loop sends without reading. -/
def frame (state : StreamState) (now : Nat) : Option (Chunk × StreamState) :=
  match state.pending with
  | event :: pending => some (.event event, { state with pending := pending, lastOutput := now })
  | [] =>
      match state.terminal with
      | some terminal => some (.terminal terminal, { state with terminal := none, finished := true })
      | none => none

/-- What is ready is sent; else the turn goes on. -/
def sendOr (state : StreamState) (now : Nat) (rest : Option Chunk × StreamState) :
    Option Chunk × StreamState :=
  match state.frame now with
  | some (chunk, after) => (some chunk, after)
  | none => rest

/-- The end of a turn that has nothing to send. -/
def keepAlive (state : StreamState) (now : Nat) : Option Chunk × StreamState :=
  if streamKeepaliveInterval ≤ now - state.lastOutput then
    (some .keepAlive, { state with lastOutput := now })
  else (none, state)

/-- The rest of a turn that has read: it goes on at once when there is something to send. -/
def afterRead (state : StreamState) (now : Nat) : Option Chunk × StreamState :=
  if state.pending ≠ [] ∨ state.terminal ≠ none then (none, state) else state.keepAlive now

def stop (state : StreamState) (terminal : Terminal) : StreamState :=
  { state with terminal := some terminal }

end StreamState

section Proxy

/-- What the proxy's request for a page can lead to. -/
inductive ProxyRead where
  | response (response : JobStreamReadResponse)
  /-- An answer that is not a page. -/
  | undecodable (error : String)
  /-- No answer, or an error of the coordinator. -/
  | failed (error : String)

def retryTerminal : Terminal :=
  .error "流式任务违反单 attempt 合同，已拒绝拼接重试输出"

def proxyTerminal (jobId : Uuid) (response : JobStreamReadResponse) : Option Terminal :=
  match response.status with
  | .succeeded => if response.hasMore then none else some .done
  | .failed | .cancelled =>
      some (.error (response.errorMessage.getD ("网络推理任务 " ++ jobId.text ++ " 未成功完成")))
  | .retry => some retryTerminal
  | .queued | .leased => none

def proxyTimeout : Terminal := .error "网络推理任务等待超过 600 秒；未产生成功结算"

def recoveryTimeout (error : String) : Terminal :=
  .error ("协调服务器流式游标在 30 秒内无法恢复：" ++ error)

namespace StreamState

/-- The proxy takes a page in. -/
def proxyTake (state : StreamState) (response : JobStreamReadResponse) : StreamState :=
  { state with
    nextSequence := response.nextSequence
    pending := state.pending ++ response.events
    terminal := proxyTerminal state.jobId response
    coordinatorFailureSince := none }

/-- The proxy remembers since when the coordinator has failed, and gives up after a while. -/
def proxyFail (state : StreamState) (now : Nat) (error : String) : StreamState :=
  let since := state.coordinatorFailureSince.getD now
  if streamRecoveryTimeout ≤ now - since then
    { state with
      coordinatorFailureSince := some since
      terminal := some (recoveryTimeout error) }
  else { state with coordinatorFailureSince := some since }

def proxyRead (state : StreamState) (now : Nat) : ProxyRead → StreamState
  | .response response => state.proxyTake response
  | .undecodable error =>
      { state with coordinatorFailureSince := none, terminal := some (.error error) }
  | .failed error => state.proxyFail now error

/-- One turn of `next_proxy_sse_chunk`. -/
def proxyTurn (state : StreamState) (now : Nat) (read : ProxyRead) : Option Chunk × StreamState :=
  state.sendOr now <|
    if state.deadline ≤ now then (none, state.stop proxyTimeout)
    else (state.proxyRead now read).afterRead now

end StreamState

end Proxy

section Gateway

def gatewayTerminal (response : JobStreamReadResponse) : Option Terminal :=
  match response.status with
  | .succeeded => if ¬ response.hasMore ∧ response.upstreamDone then some .done else none
  | .failed | .cancelled =>
      some (.error (response.errorMessage.getD "远程推理任务未成功完成"))
  | .retry => some retryTerminal
  | .queued | .leased => none

/-- What the client of the gateway is told about a job that a cancellation has ended. -/
def cancelledMessage : String := "推理在网关等待上限内未完成，任务已取消且预留额度已释放"

def unconfirmedMessage : String := "推理在网关等待上限内未完成，且任务取消未得到确认"

/-- The terminal of a stream whose time is up, by the answer of the cancellation. -/
def gatewayTimeout (cancelled : ApiResult Unit) : Terminal :=
  match cancelled with
  | .ok () => .error cancelledMessage
  | .error _ => .error unconfirmedMessage

namespace StreamState

/-- The gateway takes a page in. -/
def gatewayTake (state : StreamState) (response : JobStreamReadResponse) : StreamState :=
  { state with
    nextSequence := response.nextSequence
    pending := state.pending ++ response.events
    terminal := gatewayTerminal response }

def gatewayRead (state : StreamState) : ApiResult JobStreamReadResponse → StreamState
  | .ok response => state.gatewayTake response
  | .error error => state.stop (.error error.message)

/-- One turn of `next_gateway_stream_chunk`, with the answers that its calls get. -/
def gatewayTurn (state : StreamState) (now : Nat) (read : ApiResult JobStreamReadResponse)
    (cancelled : ApiResult Unit) : Option Chunk × StreamState :=
  state.sendOr now <|
    if state.deadline ≤ now then (none, state.stop (gatewayTimeout cancelled))
    else (state.gatewayRead read).afterRead now

end StreamState

end Gateway

/-- The chunks of a stream that takes a list of turns, up to its end. -/
def chunks {Turn : Type} (turn : StreamState → Turn → Option Chunk × StreamState) :
    StreamState → List Turn → List Chunk
  | _, [] => []
  | state, input :: turns =>
      if state.finished = true then []
      else (turn state input).1.toList ++ chunks turn (turn state input).2 turns

def proxyChunks : StreamState → List (Nat × ProxyRead) → List Chunk :=
  chunks fun state input => state.proxyTurn input.1 input.2

def gatewayChunks :
    StreamState → List (Nat × ApiResult JobStreamReadResponse × ApiResult Unit) → List Chunk :=
  chunks fun state input => state.gatewayTurn input.1 input.2.1 input.2.2

end MindOne.Stream
