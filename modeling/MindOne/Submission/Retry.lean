import MindOne.Lib.Dialogues
import MindOne.Submission.Requests

/-!
# Submitting with retries

A submission is posted again under the same key as long as its errors say nothing
final: the lease is renewed and the session is refreshed in between. A result
that the service rejects for its form is followed by one failure report. The
service, the clock and the heartbeats that run while the worker waits are asked
through queries.
-/

namespace MindOne.Submission

open Coordinator Dialogue Regulated MindOne.Stream

structure SubmissionRetryPolicy where
  maxAttempts : Nat
  initialBackoffMillis : Nat
  maxBackoffMillis : Nat

def SubmissionRetryPolicy.production : SubmissionRetryPolicy := ⟨5, 250, 2000⟩

inductive JobSubmission where
  | result (request : ResultRequest)
  | failure (request : JobFailRequest)

inductive Query where
  | now
  /-- Sleep; the heartbeats of that time may refresh the session. -/
  | wait (session : String) (delayMillis : Nat)
  | post (session : String) (submission : JobSubmission)
  | renew (session : String)
  | refresh (failedSession : String)

/-- A post returns the session as well, which heartbeats may have refreshed. -/
def Answer : Query → Type
  | .now => Int
  | .wait _ _ => String
  | .post _ _ => HttpAnswer Unit × String
  | .renew _ => HttpAnswer Int
  | .refresh _ => CliResult String

abbrev Client := Dialogue Query Answer

def submissionRetryDelay (policy : SubmissionRetryPolicy) (completedAttempt : Nat) : Nat :=
  min (policy.initialBackoffMillis * 2 ^ min (completedAttempt - 1) 16) policy.maxBackoffMillis

def ask (q : Query) : Client (Answer q) := query q

/-- The last error and the session after a retryable error. -/
def refreshAfter (session : String) (error : CliError) : Client (CliError × String) :=
  if error.kind = .authentication then do
    match (← ask (.refresh session) : CliResult String) with
    | .ok refreshed => return (error, refreshed)
    | .error refreshError => return (refreshError, session)
  else return (error, session)

def renewLeaseForSubmission (session : String) : Client (CliResult Int × String) := do
  let first : HttpAnswer Int ← ask (.renew session)
  match first.result with
  | .ok leaseExpiresAt => return (.ok leaseExpiresAt, session)
  | .error error =>
      if error.kind = .authentication then do
        match (← ask (.refresh session) : CliResult String) with
        | .error refreshError => return (.error refreshError, session)
        | .ok refreshed => do
            let second : HttpAnswer Int ← ask (.renew refreshed)
            return (second.result, refreshed)
      else return (.error error, session)

/-- The lease is renewed while it is believed to be held; a failure to do so is ignored. -/
def renewIfHeld (session : String) (leaseExpiresAt : Int) : Client (String × Int) := do
  let now : Int ← ask .now
  if now < leaseExpiresAt then do
    let (renewed, session) ← renewLeaseForSubmission session
    match renewed with
    | .ok renewedUntil => return (session, renewedUntil)
    | .error _ => return (session, leaseExpiresAt)
  else return (session, leaseExpiresAt)

def unconfirmed (policy : SubmissionRetryPolicy) (lastError : CliError) : CliError :=
  .general ("任务结果在 " ++ toString policy.maxAttempts ++ " 次幂等提交后仍未确认：" ++
    lastError.message)

section Submit
variable (policy : SubmissionRetryPolicy) (submission : JobSubmission)

/-- The attempts that are left. -/
def attempts : Nat → String → Int → Client (CliResult Unit × String)
  | 0, session, _ => return (.error (.general "任务结果提交重试次数必须大于零"), session)
  | left + 1, session, leaseExpiresAt => do
      let answer : HttpAnswer Unit × String ← ask (.post session submission)
      match answer.1.result with
      | .ok () => return (.ok (), answer.2)
      | .error error =>
          if submissionErrorIsRetryable error then do
            let (lastError, session) ← refreshAfter answer.2 error
            if left = 0 then return (.error (unconfirmed policy lastError), session)
            else do
              let (session, leaseExpiresAt) ← renewIfHeld session leaseExpiresAt
              let session : String ← ask (.wait session
                (submissionRetryDelay policy (policy.maxAttempts - left)))
              attempts left session leaseExpiresAt
          else return (.error error, answer.2)

def submitWithRetry (session : String) (leaseExpiresAt : Int) :
    Client (CliResult Unit × String) :=
  attempts policy submission policy.maxAttempts session leaseExpiresAt

end Submit

section Worker
variable (writer : JsonWriter) (nodeId : Uuid) (job : ClaimedJob)

def submitResult (session : String) (result : WorkerExecutionResult)
    (telemetry : JobExecutionTelemetry) (leaseExpiresAt : Int) :
    Client (CliResult Unit × String) :=
  match resultRequest writer nodeId job result telemetry with
  | .error error => return (.error error, session)
  | .ok request => submitWithRetry .production (.result request) session leaseExpiresAt

def submitFailure (session : String) (error : CliError) (retryable : Bool)
    (leaseExpiresAt : Int) : Client (CliResult Unit × String) :=
  match failureRequest nodeId job error retryable with
  | .error error => return (.error error, session)
  | .ok request => submitWithRetry .production (.failure request) session leaseExpiresAt

def rejection : CliError := ⟨.modelValidation, "推理结果未通过协调器的结构与绑定校验"⟩

def submitResultOrTerminalFailure (session : String) (result : WorkerExecutionResult)
    (telemetry : JobExecutionTelemetry) (leaseExpiresAt : Int) : Client (Bool × String) := do
  let (submitted, session) ← submitResult writer nodeId job session result telemetry leaseExpiresAt
  match submitted with
  | .ok () => return (true, session)
  | .error uploadError =>
      if resultSubmissionRequiresTerminalFailure uploadError then do
        let (_, session) ← submitFailure nodeId job session rejection false leaseExpiresAt
        return (false, session)
      else return (false, session)

end Worker

end MindOne.Submission
