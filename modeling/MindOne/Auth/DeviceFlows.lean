import Mathlib.Logic.Function.Basic
import MindOne.Coordinator.Ledgers
import MindOne.Lib.LabelledRuns

/-!
# Device logins and their sessions

A poll of a device login reads the flow, asks the identity provider and then
writes what it was told; the flow is only locked and read again where the
provider has authorized it. A session is bound to the device key of its flow, and
a later login of the same device uses the same key. Refreshing a session replaces
its tokens, logging out revokes the key and all of its sessions.
-/

namespace MindOne.Auth

open CheckedArithmetic Coordinator KeyedTable

inductive FlowStatus where
  | pending | authorized | denied | expired
  deriving DecidableEq, Repr

/-- A row of `auth_device_flows`; instants are microseconds. -/
structure DeviceFlow where
  id : Uuid
  provider : String
  status : FlowStatus
  expiresAt : Int
  intervalSeconds : Int
  lastPolledAt : Option Int
  devicePublicKey : Option String
  deviceKeyFingerprint : Option String
  deviceKeyAlgorithm : Option String
  deviceKeyChallenge : Option String
  userId : Option Uuid
  completedAt : Option Int
  deriving DecidableEq

structure User where
  id : Uuid
  provider : String
  providerSubject : String
  username : String
  email : Option String
  emailVerifiedAt : Option Int
  deriving DecidableEq

structure DeviceKey where
  id : Uuid
  userId : Uuid
  fingerprint : String
  publicKey : String
  algorithm : String
  rotatedAt : Option Int
  revokedAt : Option Int
  deriving DecidableEq

structure Session where
  id : Uuid
  userId : Uuid
  accessTokenHash : String
  refreshTokenHash : String
  accessExpiresAt : Int
  refreshExpiresAt : Int
  deviceKeyId : Option Uuid
  refreshChallenge : Option String
  lastUsedAt : Option Int
  revokedAt : Option Int
  deriving DecidableEq

structure AuthDb where
  flows : Table DeviceFlow.id
  users : Table User.id
  deviceKeys : Table DeviceKey.id
  sessions : Table Session.id

structure ProviderIdentity where
  subject : String
  username : String

inductive ProviderPoll where
  | pending | slowDown | denied | expired
  | authorized (identity : ProviderIdentity)

/-- What a login or a refresh draws at random. -/
structure Draws where
  userId : Uuid
  deviceKeyId : Uuid
  sessionId : Uuid
  accessToken : String
  refreshToken : String
  refreshChallenge : String

structure AuthServices where
  /-- `auth_provider.name()`. -/
  providerName : String
  /-- Accounts of this provider are registered beforehand. -/
  emailProvider : Bool
  hash : String → String
  accessTtl : Int
  refreshTtl : Int
  /-- Whether the signature proves the possession of the key of a flow, given its public
  key, fingerprint, algorithm and challenge. -/
  deviceKeyProof : Uuid → String → String → String → String → String → Bool
  /-- The same for a refresh token. -/
  refreshKeyProof : String → String → String → String → String → String → Bool

def authenticationFailed (message : String) : ApiError :=
  ⟨401, 10, "authentication_failed", message⟩

/-- The device key that a flow is bound to. -/
structure BoundKey where
  publicKey : String
  fingerprint : String
  algorithm : String
  challenge : String

def DeviceFlow.boundKey (flow : DeviceFlow) : ApiResult BoundKey :=
  match flow.devicePublicKey, flow.deviceKeyFingerprint, flow.deviceKeyAlgorithm,
    flow.deviceKeyChallenge with
  | none, _, _, _ => .error (authenticationFailed "设备登录流程缺少密钥绑定，请重新发起登录")
  | _, none, _, _ => .error (authenticationFailed "设备登录流程缺少密钥指纹，请重新发起登录")
  | _, _, none, _ => .error (authenticationFailed "设备登录流程缺少密钥算法，请重新发起登录")
  | _, _, _, none => .error (authenticationFailed "设备登录流程缺少持有证明挑战，请重新发起登录")
  | some publicKey, some fingerprint, some algorithm, some challenge =>
      .ok ⟨publicKey, fingerprint, algorithm, challenge⟩

inductive PollAnswer where
  | pending (interval : Int)
  | authorized (accessToken refreshToken refreshChallenge : String)

structure DevicePollRequest where
  flowId : Uuid
  deviceKeySignature : String

/-- How far a poll has come. The flow is as it was read. -/
inductive PollStage where
  | idle
  | received (request : DevicePollRequest)
  /-- The flow had run out when it was read. -/
  | overdue (flow : DeviceFlow)
  /-- The poll is about to be noted in the flow. -/
  | noting (flow : DeviceFlow) (key : BoundKey)
  /-- The provider is being asked. -/
  | asking (flow : DeviceFlow) (key : BoundKey)
  | slowingDown (flow : DeviceFlow)
  | denying (flow : DeviceFlow)
  | expiring (flow : DeviceFlow)
  | authorizing (flow : DeviceFlow) (key : BoundKey) (identity : ProviderIdentity)
  | answered (answer : ApiResult PollAnswer)

section Polls
variable (services : AuthServices) (db : AuthDb)

def verifyDeviceKeyProof (flowId : Uuid) (key : BoundKey) (signature : String) : ApiResult Unit :=
  rejectIf (services.deviceKeyProof flowId key.publicKey key.fingerprint key.algorithm
      key.challenge signature = false)
    (authenticationFailed "设备密钥持有证明无效")

/-- The checks of `auth_device_poll` on the flow that it has read. -/
def checkFlow (request : DevicePollRequest) (flow : DeviceFlow) : ApiResult BoundKey := do
  rejectIf (flow.provider ≠ services.providerName)
    (.conflict "auth_provider_changed" "认证提供者已经变更，请重新发起登录")
  rejectIf (flow.status ≠ .pending)
    (.conflict "device_flow_completed" "设备登录流程已经结束，请重新发起登录")
  let key ← flow.boundKey
  verifyDeviceKeyProof services request.flowId key request.deviceKeySignature
  return key

/-- Another poll was made less than an interval ago. -/
def DeviceFlow.PolledTooSoon (flow : DeviceFlow) (now : Int) : Prop :=
  ∃ polled ∈ flow.lastPolledAt, now - polled < flow.intervalSeconds * 1000000

instance (flow : DeviceFlow) (now : Int) : Decidable (flow.PolledTooSoon now) :=
  inferInstanceAs (Decidable (∃ polled ∈ flow.lastPolledAt, _))

/-- The unlocked read of the flow, up to the first write. -/
def readFlow (request : DevicePollRequest) (now : Int) : PollStage :=
  match db.flows.find request.flowId with
  | none => .answered (.error (.notFound "设备登录流程"))
  | some flow =>
      match checkFlow services request flow with
      | .error error => .answered (.error error)
      | .ok key =>
          if flow.expiresAt ≤ now then .overdue flow
          else if flow.PolledTooSoon now then .answered (.ok (.pending flow.intervalSeconds))
          else .noting flow key

/-- What the poll does with the word of the provider. -/
def hearProvider (flow : DeviceFlow) (key : BoundKey) : ProviderPoll → PollStage
  | .pending => .answered (.ok (.pending flow.intervalSeconds))
  | .slowDown => .slowingDown flow
  | .denied => .denying flow
  | .expired => .expiring flow
  | .authorized identity => .authorizing flow key identity

/-- One `UPDATE` of a flow by its identifier. -/
def AuthDb.updateFlow (flowId : Uuid) (change : DeviceFlow → DeviceFlow)
    (h : ∀ flow, (change flow).id = flow.id) : AuthDb :=
  { db with
    flows := db.flows.mapRows (fun flow => if flow.id = flowId then change flow else flow) (by
      intro flow
      split
      · exact h flow
      · rfl) }

def AuthDb.noteFlow (flowId : Uuid) (now : Int) : AuthDb :=
  db.updateFlow flowId (fun flow => { flow with lastPolledAt := some now }) fun _ => rfl

def AuthDb.slowFlow (flowId : Uuid) (intervalSeconds : Int) : AuthDb :=
  db.updateFlow flowId
    (fun flow => if flow.status = .pending then { flow with intervalSeconds } else flow) (by
      intro flow
      split <;> rfl)

/-- The end of a flow that issues no session. -/
def AuthDb.endFlow (flowId : Uuid) (status : FlowStatus) (completedAt : Option Int) : AuthDb :=
  db.updateFlow flowId
    (fun flow => { flow with
      status
      completedAt := completedAt.or flow.completedAt }) fun _ => rfl

/-- The account of an identity, with the user row that was written. -/
def upsertUser (identity : ProviderIdentity) (userId : Uuid) : ApiResult (Table User.id × Uuid) :=
  if services.emailProvider = true then
    match db.users.rows.find? fun user => user.provider = "email" ∧
        user.providerSubject = identity.subject ∧ user.email = some identity.subject ∧
        user.emailVerifiedAt ≠ none with
    | some user => .ok (db.users, user.id)
    | none => .error (authenticationFailed "邮箱账户不存在或尚未完成验证")
  else
    match db.users.rows.find? fun user => user.provider = services.providerName ∧
        user.providerSubject = identity.subject with
    | some user => .ok (db.users.set { user with username := identity.username }, user.id)
    | none => .ok (db.users.set ⟨userId, services.providerName, identity.subject,
        identity.username, none, none⟩, userId)

/-- The key of the device, which is valid again if it had been revoked. -/
def upsertDeviceKey (userId deviceKeyId : Uuid) (key : BoundKey) (now : Int) :
    Table DeviceKey.id × Uuid :=
  match db.deviceKeys.rows.find? fun known =>
      known.userId = userId ∧ known.fingerprint = key.fingerprint with
  | some known => (db.deviceKeys.set { known with
      publicKey := key.publicKey
      algorithm := key.algorithm
      revokedAt := none
      rotatedAt := some now }, known.id)
  | none => (db.deviceKeys.set
      ⟨deviceKeyId, userId, key.fingerprint, key.publicKey, key.algorithm, none, none⟩,
      deviceKeyId)

/-- The transaction of an authorized poll. It answers without writing, ends the flow, or
issues a session. -/
inductive AuthorizeOutcome where
  | refused (error : ApiError)
  | expired (db : AuthDb)
  | issued (db : AuthDb)

def AuthDb.issueSession (userId deviceKeyId flowId : Uuid) (draws : Draws) (now : Int) : AuthDb :=
  let sessions := db.sessions.set {
    id := draws.sessionId
    userId
    accessTokenHash := services.hash draws.accessToken
    refreshTokenHash := services.hash draws.refreshToken
    accessExpiresAt := now + services.accessTtl
    refreshExpiresAt := now + services.refreshTtl
    deviceKeyId := some deviceKeyId
    refreshChallenge := some draws.refreshChallenge
    lastUsedAt := none
    revokedAt := none }
  { db with sessions }.updateFlow flowId
    (fun flow => { flow with
      status := .authorized
      userId := some userId
      completedAt := some now
      deviceKeyChallenge := none }) fun _ => rfl

def authorizeFlow (flowId : Uuid) (key : BoundKey) (identity : ProviderIdentity) (draws : Draws)
    (now : Int) : AuthorizeOutcome :=
  match db.flows.find flowId with
  | none => .refused .internal
  | some locked =>
      if locked.status ≠ .pending then
        .refused (.conflict "device_flow_completed" "设备登录流程已经被另一请求完成")
      else if locked.expiresAt ≤ now then .expired (db.endFlow flowId .expired (some now))
      else
        match upsertUser services db identity draws.userId with
        | .error error => .refused error
        | .ok (users, userId) =>
            let (deviceKeys, deviceKeyId) :=
              upsertDeviceKey db userId draws.deviceKeyId key now
            .issued ({ db with
              users
              deviceKeys }.issueSession services userId deviceKeyId flowId draws now)

end Polls

section Sessions
variable (services : AuthServices) (db : AuthDb)

structure RefreshRequest where
  refreshToken : String
  deviceKeySignature : String

/-- `session` may be refreshed: neither it nor its key is revoked, and it has not run out. -/
def refreshable (token : String) (now : Int) (session : Session) : Bool :=
  decide (session.refreshTokenHash = services.hash token ∧ session.revokedAt = none ∧
    now < session.refreshExpiresAt ∧
    ∃ keyId ∈ session.deviceKeyId, ∃ key ∈ db.deviceKeys.find keyId, key.revokedAt = none)

/-- `auth_refresh`: the session with its new tokens. -/
def authRefresh (request : RefreshRequest) (draws : Draws) (now : Int) : ApiResult AuthDb := do
  match db.sessions.rows.find? (refreshable services db request.refreshToken now) with
  | none => .error (authenticationFailed "刷新令牌已失效或已撤销")
  | some session =>
      match session.refreshChallenge, session.deviceKeyId.bind db.deviceKeys.find with
      | some challenge, some key => do
          rejectIf (services.refreshKeyProof request.refreshToken key.publicKey key.fingerprint
              key.algorithm challenge request.deviceKeySignature = false)
            (authenticationFailed "设备密钥持有证明无效")
          return { db with sessions := db.sessions.set { session with
            accessTokenHash := services.hash draws.accessToken
            refreshTokenHash := services.hash draws.refreshToken
            accessExpiresAt := now + services.accessTtl
            refreshExpiresAt := now + services.refreshTtl
            refreshChallenge := some draws.refreshChallenge
            lastUsedAt := some now } }
      | _, _ => .error (authenticationFailed
          "此旧会话没有设备刷新证明，请重新运行 mindone auth login")

/-- `COALESCE(revoked_at,now())`. -/
def revokedSince (now : Int) (revokedAt : Option Int) : Option Int := revokedAt.or (some now)

/-- Revoke the sessions that satisfy a condition. -/
def AuthDb.revokeSessions (which : Session → Bool) (now : Int) : AuthDb :=
  { db with
    sessions := db.sessions.mapRows
      (fun session => if which session = true then
        { session with revokedAt := revokedSince now session.revokedAt } else session) (by
      intro session
      split <;> rfl) }

def AuthDb.revokeDeviceKey (deviceKeyId : Uuid) (now : Int) : AuthDb :=
  { db with
    deviceKeys := db.deviceKeys.mapRows
      (fun key => if key.id = deviceKeyId then
        { key with revokedAt := revokedSince now key.revokedAt } else key) (by
      intro key
      split <;> rfl) }

def authLogout (refreshToken : String) (now : Int) : ApiResult AuthDb :=
  match db.sessions.rows.find? fun session =>
      session.refreshTokenHash = services.hash refreshToken with
  | none => .error (authenticationFailed "刷新令牌无效")
  | some session =>
      match session.deviceKeyId with
      | some deviceKeyId => .ok ((db.revokeSessions (fun other =>
          other.deviceKeyId = some deviceKeyId) now).revokeDeviceKey deviceKeyId now)
      | none => .ok (db.revokeSessions (fun other => other.id = session.id) now)

end Sessions

/-- The database, the polls that are under way, and what has been issued and accepted. -/
structure AuthSystem where
  db : AuthDb
  polls : Nat → PollStage
  /-- The hashes of all refresh tokens that have been drawn. -/
  drawn : List String
  /-- The sessions that have been issued, with their flows. -/
  issued : List (Uuid × Uuid)
  /-- The refresh tokens that `auth_refresh` has accepted. -/
  accepted : List String

inductive AuthEvent where
  /-- `auth_device_start`. -/
  | start (flow : DeviceFlow)
  | poll (i : Nat) (request : DevicePollRequest)
  | read (i : Nat) (now : Int)
  /-- The flow is marked as expired by the poll that found it overdue. -/
  | expireOverdue (i : Nat)
  | note (i : Nat) (now : Int)
  | hear (i : Nat) (said : ProviderPoll)
  | providerFailed (i : Nat)
  | slowDown (i : Nat)
  | deny (i : Nat) (now : Int)
  | expire (i : Nat) (now : Int)
  | authorize (i : Nat) (draws : Draws) (now : Int)
  | refresh (request : RefreshRequest) (draws : Draws) (now : Int)
  | logout (refreshToken : String) (now : Int)

namespace AuthSystem

def initial : AuthSystem := ⟨⟨.empty, .empty, .empty, .empty⟩, fun _ => .idle, [], [], []⟩

variable (services : AuthServices) (system : AuthSystem)

def setPoll (i : Nat) (stage : PollStage) : AuthSystem :=
  { system with polls := Function.update system.polls i stage }

/-- A poll that ends with a write. -/
def answer (i : Nat) (db : AuthDb) (answer : ApiResult PollAnswer) : AuthSystem :=
  { system.setPoll i (.answered answer) with db }

def authorize (i : Nat) (flow : DeviceFlow) (key : BoundKey) (identity : ProviderIdentity)
    (draws : Draws) (now : Int) : AuthSystem :=
  match authorizeFlow services system.db flow.id key identity draws now with
  | .refused error => system.setPoll i (.answered (.error error))
  | .expired db => system.answer i db (.error (authenticationFailed "设备验证码已经过期"))
  | .issued db =>
      { system.answer i db
          (.ok (.authorized draws.accessToken draws.refreshToken draws.refreshChallenge)) with
        drawn := services.hash draws.refreshToken :: system.drawn
        issued := (flow.id, draws.sessionId) :: system.issued }

/-- A drawn token is new, and so is a drawn identifier. -/
def Fresh (draws : Draws) : Prop :=
  services.hash draws.refreshToken ∉ system.drawn ∧
    system.db.sessions.find draws.sessionId = none ∧
    system.db.deviceKeys.find draws.deviceKeyId = none ∧
    system.db.users.find draws.userId = none

instance (draws : Draws) : Decidable (system.Fresh services draws) :=
  inferInstanceAs (Decidable (_ ∧ _ ∧ _ ∧ _))

def step (event : AuthEvent) (system : AuthSystem) : Option AuthSystem :=
  match event with
  | .start flow =>
      if system.db.flows.find flow.id = none ∧ flow.status = .pending then
        some { system with db := { system.db with flows := system.db.flows.set flow } }
      else none
  | .poll i request =>
      match system.polls i with
      | .idle => some (system.setPoll i (.received request))
      | _ => none
  | .read i now =>
      match system.polls i with
      | .received request => some (system.setPoll i (readFlow services system.db request now))
      | _ => none
  | .expireOverdue i =>
      match system.polls i with
      | .overdue flow => some (system.answer i (system.db.endFlow flow.id .expired none)
          (.error (authenticationFailed "设备验证码已经过期")))
      | _ => none
  | .note i now =>
      match system.polls i with
      | .noting flow key => some { system.setPoll i (.asking flow key) with
          db := system.db.noteFlow flow.id now }
      | _ => none
  | .hear i said =>
      match system.polls i with
      | .asking flow key => some (system.setPoll i (hearProvider flow key said))
      | _ => none
  | .providerFailed i =>
      match system.polls i with
      | .asking _ _ => some (system.setPoll i (.answered (.error
          (.unavailable "auth_provider_unavailable" "认证提供者当前不可用"))))
      | _ => none
  | .slowDown i =>
      match system.polls i with
      | .slowingDown flow =>
          let next := min (flow.intervalSeconds + 5) 2147483647
          some (system.answer i (system.db.slowFlow flow.id next) (.ok (.pending next)))
      | _ => none
  | .deny i now =>
      match system.polls i with
      | .denying flow => some (system.answer i (system.db.endFlow flow.id .denied (some now))
          (.error (authenticationFailed "用户拒绝了设备登录")))
      | _ => none
  | .expire i now =>
      match system.polls i with
      | .expiring flow => some (system.answer i (system.db.endFlow flow.id .expired (some now))
          (.error (authenticationFailed "设备验证码已经过期")))
      | _ => none
  | .authorize i draws now =>
      match system.polls i with
      | .authorizing flow key identity =>
          if system.Fresh services draws then
            some (system.authorize services i flow key identity draws now)
          else none
      | _ => none
  | .refresh request draws now =>
      if system.Fresh services draws then
        match authRefresh services system.db request draws now with
        | .error _ => some system
        | .ok db => some { system with
            db
            drawn := services.hash draws.refreshToken :: system.drawn
            accepted := request.refreshToken :: system.accepted }
      else none
  | .logout refreshToken now =>
      match authLogout services system.db refreshToken now with
      | .error _ => some system
      | .ok db => some { system with db }

end AuthSystem

end MindOne.Auth
