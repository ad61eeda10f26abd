import MindOne.Stream.Reader

/-!
# Consumers of a stream

A proxy or a gateway reads a stream while workers append to it and the
coordinator goes on. Each statement of a read is a step of its own, a read can
fail at any point, and the cancellation of a gateway runs as a transaction among
the others.
-/

namespace MindOne.Stream

open CheckedArithmetic Coordinator KeyedTable

inductive Emitter where
  | proxy | gateway
  deriving DecidableEq

/-- How far a turn of the loop has come. A turn looks at the clock once, when it begins. -/
inductive TurnPhase where
  | idle
  | asking (now : Nat)
  | headed (now : Nat) (head : ReadHead)
  | paged (now : Nat) (head : ReadHead) (events : List JobStreamEvent) (cursor : Int)
  | cancelling

structure Consumer where
  emitter : Emitter
  principal : Principal
  state : StreamState
  phase : TurnPhase
  sent : List Chunk

/-- One consumer and everything it reads from. -/
structure World where
  server : StreamDb
  consumer : Consumer

inductive WorldEvent where
  | server (action : StreamAction)
  /-- The consumer begins a turn. -/
  | wake (now : Nat)
  /-- The next statement of its read is executed. -/
  | read
  /-- The read fails on the way. -/
  | lose (error : ApiError)
  /-- The answer to the proxy is not a page. -/
  | garble (error : String)
  | cancel

def pageLimit : Nat := 8

namespace Consumer

def start (emitter : Emitter) (principal : Principal) (jobId : Uuid) (now budget : Nat) :
    Consumer :=
  ⟨emitter, principal, .start jobId now budget, .idle, []⟩

/-- The instant of a read that is under way. -/
def readingSince (consumer : Consumer) : Option Nat :=
  match consumer.phase with
  | .asking now | .headed now _ | .paged now _ _ _ => some now
  | .idle | .cancelling => none

/-- A turn ends with what it sends. -/
def finish (consumer : Consumer) (outcome : Option Chunk × StreamState) : Consumer :=
  { consumer with
    state := outcome.2
    phase := .idle
    sent := consumer.sent ++ outcome.1.toList }

def take (consumer : Consumer) (now : Nat) (response : JobStreamReadResponse) : Consumer :=
  match consumer.emitter with
  | .proxy => consumer.finish ((consumer.state.proxyRead now (.response response)).afterRead now)
  | .gateway => consumer.finish ((consumer.state.gatewayRead (.ok response)).afterRead now)

def fail (consumer : Consumer) (now : Nat) (error : ApiError) : Consumer :=
  match consumer.emitter with
  | .proxy =>
      consumer.finish ((consumer.state.proxyRead now (.failed error.message)).afterRead now)
  | .gateway => consumer.finish ((consumer.state.gatewayRead (.error error)).afterRead now)

def wake (consumer : Consumer) (now : Nat) : Consumer :=
  match consumer.phase with
  | .idle =>
      if consumer.state.finished = true then consumer
      else
        match consumer.state.frame now with
        | some (chunk, state) => consumer.finish (some chunk, state)
        | none =>
            if consumer.state.deadline ≤ now then
              match consumer.emitter with
              | .proxy => { consumer with state := consumer.state.stop proxyTimeout }
              | .gateway => { consumer with phase := .cancelling }
            else { consumer with phase := .asking now }
  | _ => consumer

/-- The checks of the cursor that a request of the proxy passes. -/
def checkCursor (consumer : Consumer) : ApiResult Unit :=
  match consumer.emitter with
  | .proxy =>
      rejectIf (¬ (0 ≤ consumer.state.nextSequence ∧
        consumer.state.nextSequence ≤ maxJobStreamEvents))
        (.badRequest "invalid_stream_cursor" "from_sequence 超出流式游标范围")
  | .gateway => .ok ()

end Consumer

section Steps
variable (env : StreamServices)

namespace Consumer

/-- The first statement of a read. -/
def readHead (consumer : Consumer) (server : StreamDb) : ApiResult ReadHead := do
  consumer.checkCursor
  Stream.readHead env server.db consumer.principal consumer.state.jobId

/-- The next statement of a read. -/
def read (consumer : Consumer) (server : StreamDb) : Consumer :=
  match consumer.phase with
  | .asking now =>
      match consumer.readHead env server with
      | .ok head => { consumer with phase := .headed now head }
      | .error error => consumer.fail now error
  | .headed now head =>
      match readPage env server.log consumer.state.jobId head consumer.state.nextSequence
          pageLimit with
      | .ok (events, cursor) => { consumer with phase := .paged now head events cursor }
      | .error error => consumer.fail now error
  | .paged now head events cursor =>
      match readRest server.log consumer.state.jobId head events cursor with
      | .ok response => consumer.take now response
      | .error error => consumer.fail now error
  | .idle | .cancelling => consumer

def lose (consumer : Consumer) (error : ApiError) : Consumer :=
  match consumer.readingSince with
  | some now => consumer.fail now error
  | none => consumer

def garble (consumer : Consumer) (error : String) : Consumer :=
  match consumer.emitter, consumer.readingSince with
  | .proxy, some now =>
      consumer.finish ((consumer.state.proxyRead now (.undecodable error)).afterRead now)
  | _, _ => consumer

end Consumer

def cancelAction (consumer : Consumer) : Action :=
  .cancel consumer.principal consumer.state.jobId

/-- The cancellation of a gateway whose time is up, and what its client will be told. -/
def World.cancel (world : World) : World :=
  match world.consumer.phase with
  | .cancelling =>
      let consumer := world.consumer
      let cancelled := cancelTimedOutJob world.server.db consumer.principal consumer.state.jobId
      { server := performStream env (.coordinator (cancelAction consumer)) world.server
        consumer := { consumer with
          state := consumer.state.stop (gatewayTimeout (cancelled.map fun _ => ()))
          phase := .idle } }
  | _ => world

def stepWorld : WorldEvent → World → World
  | .server action, world => { world with server := performStream env action world.server }
  | .wake now, world => { world with consumer := world.consumer.wake now }
  | .read, world => { world with consumer := world.consumer.read env world.server }
  | .lose error, world => { world with consumer := world.consumer.lose error }
  | .garble error, world => { world with consumer := world.consumer.garble error }
  | .cancel, world => world.cancel env

/-- The worlds that a consumer goes through from its start. -/
inductive WorldReachable : World → Prop
  | start {server : StreamDb} (emitter : Emitter) (principal : Principal) (jobId : Uuid)
      (now budget : Nat) (reachable : StreamReachable env server) :
      WorldReachable ⟨server, .start emitter principal jobId now budget⟩
  | step {world : World} (event : WorldEvent) (reachable : WorldReachable world) :
      WorldReachable (stepWorld env event world)

def runWorld (events : List WorldEvent) (world : World) : World :=
  events.foldl (fun world event => stepWorld env event world) world

end Steps

end MindOne.Stream
