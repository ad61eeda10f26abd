import MindOne.Auth.SingleUse
import MindOne.Stream.Events
import MindOne.Coordinator.Grants
import MindOne.Lib.TableEvolution

/-!
# Access with tokens and keys

A request is let in by the access token of a session, or, for inference only, by an API key
that was created under a session. Creating and revoking a key take two steps: the request is
authenticated first, and its transaction begins later. Both are recorded in a table to which
rows are only added.
-/

namespace MindOne.Auth

open CheckedArithmetic Coordinator KeyedTable
open MindOne.Stream (okOr okOr_eq_ok validateIdentifier ProtocolValidationError)

/-- Who is behind a request. -/
structure Principal where
  userId : Uuid
  username : String
  sessionId : Uuid
  deviceKeyId : Uuid
  deriving DecidableEq

section Authenticate
variable (services : AuthServices) (db : AuthDb)

/-- The token of an `Authorization` header. -/
def bearerToken (missing : String) (authorization : Option String) : ApiResult String := do
  let authorization ← okOr (authenticationFailed missing) authorization
  rejectIf (authorization.toList.take 7 ≠ "Bearer ".toList ∨ authorization.toList.drop 7 = [])
    (authenticationFailed "Authorization 格式无效")
  return String.ofList (authorization.toList.drop 7)

/-- The joined row of a session that the token names. -/
def signedIn (tokenHash : String) (now : Int) (session : Session) : Option Principal := do
  guard (session.accessTokenHash = tokenHash ∧ session.revokedAt = none ∧
    now < session.accessExpiresAt)
  let user ← db.users.find session.userId
  let deviceKeyId ← session.deviceKeyId
  let key ← db.deviceKeys.find deviceKeyId
  guard (key.userId = session.userId ∧ key.revokedAt = none)
  return ⟨user.id, user.username, session.id, key.id⟩

/-- `UPDATE sessions SET last_used_at`. -/
def AuthDb.touchSession (sessionId : Uuid) (now : Int) : AuthDb :=
  { db with
    sessions := db.sessions.mapRows
      (fun session => if session.id = sessionId then
        { session with lastUsedAt := some now } else session) (by
      intro session
      split <;> rfl) }

def authenticate (authorization : Option String) (now : Int) : ApiResult (Principal × AuthDb) := do
  let token ← bearerToken "缺少 Bearer 访问令牌" authorization
  let principal ← okOr (authenticationFailed "访问令牌已失效或已撤销")
    (db.sessions.rows.findSome? (signedIn db (services.hash token) now))
  return (principal, db.touchSession principal.sessionId now)

end Authenticate

section Keys

structure ApiKey where
  id : Uuid
  userId : Uuid
  createdBySessionId : Uuid
  deviceKeyId : Uuid
  name : String
  keyPrefix : String
  keyHash : String
  createdAt : Int
  lastUsedAt : Option Int
  revokedAt : Option Int
  deriving DecidableEq

inductive ApiKeyEventType where
  | created | revoked
  deriving DecidableEq

structure ApiKeyEvent where
  id : Uuid
  apiKeyId : Uuid
  userId : Uuid
  eventType : ApiKeyEventType
  occurredAt : Int
  deriving DecidableEq

inductive KeyRequest where
  | create (name : String)
  | revoke (keyId : Uuid)

inductive KeyAnswer where
  | created (apiKey : String) (record : ApiKey)
  | revoked (id : Uuid) (revoked : Bool)

/-- How far a request about keys has come. -/
inductive KeyStage where
  | idle
  | authenticated (principal : Principal) (request : KeyRequest)
  | answered (answer : ApiResult KeyAnswer)

/-- What a transaction draws at random. -/
structure KeyDraws where
  keyId : Uuid
  eventId : Uuid
  /-- The part of the key behind its prefix. -/
  secret : String

structure AccessSystem where
  auth : AuthSystem
  apiKeys : Table ApiKey.id
  /-- The newest event first. -/
  keyEvents : List ApiKeyEvent
  requests : Nat → KeyStage

def AccessSystem.initial : AccessSystem := ⟨.initial, .empty, [], fun _ => .idle⟩

/-- `CreateApiKeyRequest::validate`. -/
def validateKeyName (name : String) : Except ProtocolValidationError Unit := do
  rejectIf (isTrimmed name = false) ⟨"name", "API Key 名称首尾不能有空白"⟩
  validateIdentifier "name" name 64

def AccessSystem.touchKey (system : AccessSystem) (keyId : Uuid) (now : Int) : AccessSystem :=
  { system with
    apiKeys := system.apiKeys.mapRows
      (fun key => if key.id = keyId ∧ key.revokedAt = none then
        { key with lastUsedAt := some now } else key) (by
      intro key
      split <;> rfl) }

def AccessSystem.revokeKeyRow (system : AccessSystem) (keyId : Uuid) (now : Int) : AccessSystem :=
  { system with
    apiKeys := system.apiKeys.mapRows
      (fun key => if key.id = keyId then { key with revokedAt := some now } else key) (by
      intro key
      split <;> rfl) }

end Keys

namespace AccessSystem
variable (services : AuthServices) (system : AccessSystem)

section Inference

def isApiKey (token : String) : Bool := token.toList.take 4 == "mok_".toList

/-- The joined row of an API key that the token names. -/
def keyOwner (keyHash : String) (key : ApiKey) : Option (Principal × Uuid) := do
  guard (key.keyHash = keyHash ∧ key.revokedAt = none)
  let user ← system.auth.db.users.find key.userId
  let session ← system.auth.db.sessions.find key.createdBySessionId
  guard (session.userId = key.userId ∧ session.deviceKeyId = some key.deviceKeyId ∧
    session.revokedAt = none)
  let device ← system.auth.db.deviceKeys.find key.deviceKeyId
  guard (device.userId = key.userId ∧ device.revokedAt = none)
  return (⟨user.id, user.username, key.createdBySessionId, key.deviceKeyId⟩, key.id)

def authenticateInference (authorization : Option String) (now : Int) :
    ApiResult (Principal × AccessSystem) := do
  let token ← bearerToken "缺少 Bearer API Key" authorization
  if isApiKey token = false then
    let (principal, db) ← authenticate services system.auth.db authorization now
    return (principal, { system with auth := { system.auth with db } })
  else
    let (principal, keyId) ← okOr
      (authenticationFailed "API Key 已失效、已撤销或设备会话已注销")
      (system.apiKeys.rows.findSome? (system.keyOwner (services.hash token)))
    return (principal, system.touchKey keyId now)

end Inference

section Requests

def addEvent (event : ApiKeyEvent) : ApiResult AccessSystem := do
  rejectIf ((system.keyEvents.any fun old => old.id == event.id ||
    old.apiKeyId == event.apiKeyId && old.eventType == event.eventType) = true) .internal
  return { system with keyEvents := event :: system.keyEvents }

/-- The transaction of `create_api_key`. -/
def createApiKey (principal : Principal) (name : String) (draws : KeyDraws) (now : Int) :
    ApiResult (AccessSystem × KeyAnswer) := do
  let apiKey := "mok_" ++ draws.secret
  let record : ApiKey := {
    id := draws.keyId
    userId := principal.userId
    createdBySessionId := principal.sessionId
    deviceKeyId := principal.deviceKeyId
    name
    keyPrefix := String.ofList (apiKey.toList.take 12)
    keyHash := services.hash apiKey
    createdAt := now
    lastUsedAt := none
    revokedAt := none }
  rejectIf ((system.apiKeys.rows.any fun key =>
      key.userId == principal.userId && key.name == name) = true)
    (.conflict "api_key_name_exists" "同名 API Key 已存在；请更换名称或先撤销旧 Key")
  rejectIf (system.apiKeys.find draws.keyId ≠ none ∨
    (system.apiKeys.rows.any fun key => key.keyHash == services.hash apiKey) = true ∨
    system.auth.db.users.find principal.userId = none ∨
    system.auth.db.sessions.find principal.sessionId = none ∨
    system.auth.db.deviceKeys.find principal.deviceKeyId = none) .internal
  let created ← { system with apiKeys := system.apiKeys.set record }.addEvent
    ⟨draws.eventId, draws.keyId, principal.userId, .created, now⟩
  return (created, .created apiKey record)

/-- The transaction of `revoke_api_key`. -/
def revokeApiKey (principal : Principal) (keyId : Uuid) (draws : KeyDraws) (now : Int) :
    ApiResult (AccessSystem × KeyAnswer) := do
  let key ← okOr (.notFound "API Key") ((system.apiKeys.find keyId).filter fun key =>
    key.userId == principal.userId)
  if key.revokedAt = none then
    let revoked ← (system.revokeKeyRow keyId now).addEvent
      ⟨draws.eventId, keyId, principal.userId, .revoked, now⟩
    return (revoked, .revoked keyId true)
  else return (system, .revoked keyId false)

def transact (principal : Principal) (request : KeyRequest) (draws : KeyDraws) (now : Int) :
    ApiResult (AccessSystem × KeyAnswer) :=
  match request with
  | .create name => system.createApiKey services principal name draws now
  | .revoke keyId => system.revokeApiKey principal keyId draws now

def setRequest (i : Nat) (stage : KeyStage) : AccessSystem :=
  { system with requests := Function.update system.requests i stage }

/-- What is checked before the transaction. -/
def checkRequest : KeyRequest → ApiResult Unit
  | .create name => (validateKeyName name).mapError fun error =>
      .badRequest "invalid_api_key" error.text
  | .revoke _ => .ok ()

end Requests

section Steps

inductive AccessEvent where
  /-- Logins, polls, refreshes and logouts. -/
  | auth (event : AuthEvent)
  | ask (i : Nat) (request : KeyRequest) (authorization : Option String) (now : Int)
  | commit (i : Nat) (draws : KeyDraws) (now : Int)
  | infer (authorization : Option String) (now : Int)

/-- Drawn access tokens have their prefix. -/
def WellDrawn : AuthEvent → Prop
  | .authorize _ draws _ | .refresh _ draws _ =>
      draws.accessToken.toList.take 4 = "mna_".toList
  | _ => True

instance : (event : AuthEvent) → Decidable (WellDrawn event)
  | .authorize _ _ _ | .refresh _ _ _ => inferInstanceAs (Decidable (_ = _))
  | .start _ | .poll _ _ | .read _ _ | .expireOverdue _ | .note _ _ | .hear _ _
  | .providerFailed _ | .slowDown _ | .deny _ _ | .expire _ _ | .logout _ _ =>
      inferInstanceAs (Decidable True)

def step (event : AccessEvent) (system : AccessSystem) : Option AccessSystem :=
  match event with
  | .auth event => do
      guard (WellDrawn event)
      let auth ← AuthSystem.step services event system.auth
      return { system with auth }
  | .ask i request authorization now =>
      match system.requests i with
      | .idle =>
          match authenticate services system.auth.db authorization now with
          | .error error => some (system.setRequest i (.answered (.error error)))
          | .ok (principal, db) =>
              let seen := { system with auth := { system.auth with db } }
              match checkRequest request with
              | .error error => some (seen.setRequest i (.answered (.error error)))
              | .ok _ => some (seen.setRequest i (.authenticated principal request))
      | _ => none
  | .commit i draws now =>
      match system.requests i with
      | .authenticated principal request =>
          match system.transact services principal request draws now with
          | .error error => some (system.setRequest i (.answered (.error error)))
          | .ok (next, answer) => some (next.setRequest i (.answered (.ok answer)))
      | _ => none
  | .infer authorization now =>
      match system.authenticateInference services authorization now with
      | .error _ => some system
      | .ok (_, next) => some next

/-- Some events in a row; an event that is not possible changes nothing. -/
def perform (events : List AccessEvent) (system : AccessSystem) : AccessSystem :=
  events.foldl (fun system event => (step services event system).getD system) system

end Steps

end AccessSystem

end MindOne.Auth
