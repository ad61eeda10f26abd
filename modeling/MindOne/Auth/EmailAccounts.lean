import MindOne.Auth.SingleUse
import MindOne.Stream.Events

/-!
# Accounts with an address and a password

An address is registered with a password, and the account is activated with a token that
is only sent to the address. The browser then authorizes one pending device login, named
by the code on the terminal of the device; the session itself is issued to the poll of the
device. A visit of the login page reads the account, checks the password outside of any
transaction, and reads the account again when it authorizes the device login.
-/

namespace MindOne.Auth

open CheckedArithmetic Coordinator KeyedTable
open MindOne.Stream (okOr okOr_eq_ok)

section Forms

structure RegisterForm where
  email : String
  username : String
  password : String
  passwordConfirm : String

structure LoginForm where
  email : String
  password : String
  userCode : String

/-- `str::trim`. -/
def trimmed (value : String) : List Char :=
  ((value.toList.dropWhile isWhitespace).reverse.dropWhile isWhitespace).reverse

def normalizeEmail (value : String) : ApiResult String := do
  let email := trimmed value
  rejectIf ('@' ∉ email) (.badRequest "invalid_email" "邮箱必须包含本地部分和域名")
  let localPart := email.takeWhile (· != '@')
  let domain := (email.dropWhile (· != '@')).drop 1
  rejectIf (254 < (utf8 (String.ofList email)).length ∨
      (email.all fun c => decide (c.toNat < 128)) = false ∨ localPart = [] ∨ domain = [] ∨
      domain.head? = some '.' ∨ domain.getLast? = some '.' ∨ '.' ∉ domain ∨
      email.any isWhitespace = true)
    (.badRequest "invalid_email" "邮箱格式无效")
  return String.ofList (email.map Char.toLower)

def invalidUserCode : ApiError := authenticationFailed "设备验证码无效，请核对自己终端显示的验证码"

def isAsciiHexDigit (c : Char) : Bool :=
  ('0' ≤ c && c ≤ '9') || ('a' ≤ c && c ≤ 'f') || ('A' ≤ c && c ≤ 'F')

/-- The whitespace of `char::is_ascii_whitespace`. -/
def isCodeSpace (c : Char) : Bool :=
  c == ' ' || c == '\t' || c == '\n' || c == '\x0c' || c == '\r'

def normalizeUserCode (value : String) : ApiResult String := do
  rejectIf (hasControl value = true) invalidUserCode
  let canonical := ((trimmed value).filter fun c => c != '-' && !isCodeSpace c).map Char.toUpper
  rejectIf ((utf8 (String.ofList canonical)).length ≠ 12 ∨ canonical.all isAsciiHexDigit = false)
    invalidUserCode
  return String.ofList canonical

def validatePasswordInput (password : String) : ApiResult Unit :=
  rejectIf (¬ (8 ≤ (utf8 password).length ∧ (utf8 password).length ≤ 1024))
    (.badRequest "invalid_password_length" "密码长度必须为 8 到 1024 字节")

def validateRegistration (form : RegisterForm) : ApiResult (String × String) := do
  rejectIf (form.password ≠ form.passwordConfirm) (.badRequest "password_mismatch" "两次密码不一致")
  validatePasswordInput form.password
  let email ← normalizeEmail form.email
  let username := trimmed form.username
  rejectIf (username = [] ∨ 64 < username.length ∨ username.any isControl = true)
    (.badRequest "invalid_username" "用户名必须为 1 到 64 个非控制字符")
  return (email, String.ofList username)

def validVerificationToken (token : String) : Bool :=
  decide ((utf8 token).length = 48) && token.toList.take 5 == "mnev_".toList &&
    (token.toList.drop 5).all fun c =>
      ('0' ≤ c && c ≤ '9') || ('a' ≤ c && c ≤ 'z') || ('A' ≤ c && c ≤ 'Z') || c == '_' || c == '-'

end Forms

section Rows

/-- The column of `users` that only the login page reads. -/
structure PasswordColumn where
  userId : Uuid
  passwordHash : String

/-- The columns of `auth_device_flows` that only the email login uses. -/
structure EmailColumns where
  flowId : Uuid
  providerDeviceCode : String
  userCode : String
  emailAuthorizedUserId : Option Uuid
  emailAuthorizedAt : Option Int

/-- A row of `email_verification_tokens`. -/
structure VerificationToken where
  id : Uuid
  userId : Uuid
  tokenHash : String
  expiresAt : Int
  usedAt : Option Int

/-- What a registration draws at random. -/
structure RegisterDraws where
  userId : Uuid
  tokenId : Uuid
  token : String
  salt : String

structure Mail where
  address : String
  token : String

/-- A registration that was committed. -/
structure Registration where
  email : String
  password : String
  draws : RegisterDraws

/-- A visit that has passed the check of its password. -/
structure CheckedLogin where
  userId : Uuid
  email : String
  passwordHash : String
  userCode : String

inductive Visit where
  | idle
  | checked (login : CheckedLogin)
  | answered (answer : ApiResult Unit)

structure EmailSystem where
  auth : AuthSystem
  passwords : Table PasswordColumn.userId
  columns : Table EmailColumns.flowId
  tokens : Table VerificationToken.id
  visits : Nat → Visit
  /-- The messages that have been sent. -/
  mailed : List Mail
  registrations : List Registration

def EmailSystem.initial : EmailSystem :=
  ⟨.initial, .empty, .empty, .empty, fun _ => .idle, [], []⟩

structure EmailServices extends AuthServices where
  providerName_eq : providerName = "email"
  emailProvider_eq : emailProvider = true
  hashPassword : (password salt : String) → String
  verifyPassword : (password passwordHash : String) → Bool

end Rows

namespace EmailSystem
variable (services : EmailServices) (system : EmailSystem)

section Registration

/-- How the message of a registration fares; a commit can fail after it was sent. -/
inductive Delivery where
  | refused | sent | sentUncommitted
  deriving DecidableEq

/-- The check `users_email_normalized_v1`, of what the form leaves open. -/
def emailStorable (email : String) : Prop :=
  3 ≤ (utf8 email).length ∧ email.toList.count '@' = 1 ∧ email.toList.any isControl = false

instance (email : String) : Decidable (emailStorable email) :=
  inferInstanceAs (Decidable (_ ∧ _ ∧ _))

/-- The rows that a registration inserts. -/
def insertAccount (email username password : String) (draws : RegisterDraws) (now : Int) :
    ApiResult EmailSystem := do
  rejectIf (¬ emailStorable email) .internal
  rejectIf (system.auth.db.users.find draws.userId ≠ none ∨
      (system.auth.db.users.rows.any fun user =>
        user.provider == "email" && user.providerSubject == email || user.email == some email) = true)
    (.conflict "email_exists" "该邮箱已注册；请登录或联系运维人员恢复账户")
  rejectIf (system.tokens.find draws.tokenId ≠ none ∨
    (system.tokens.rows.any fun row => row.tokenHash == services.hash draws.token) = true) .internal
  let users := system.auth.db.users.set
    ⟨draws.userId, "email", email, username, some email, none⟩
  return { system with
    auth := { system.auth with db := { system.auth.db with users } }
    passwords := system.passwords.set ⟨draws.userId, services.hashPassword password draws.salt⟩
    tokens := system.tokens.set ⟨draws.tokenId, draws.userId, services.hash draws.token,
      now + 24 * 3600 * 1000000, none⟩
    registrations := ⟨email, password, draws⟩ :: system.registrations }

/-- The message is sent inside the transaction. -/
def register (form : RegisterForm) (draws : RegisterDraws) (now : Int) (delivery : Delivery) :
    ApiResult EmailSystem := do
  let (email, username) ← validateRegistration form
  let inserted ← system.insertAccount services email username form.password draws now
  match delivery with
  | .refused => .error .internal
  | .sent => return { inserted with mailed := ⟨email, draws.token⟩ :: system.mailed }
  | .sentUncommitted => return { system with mailed := ⟨email, draws.token⟩ :: system.mailed }

end Registration

section Verification

inductive VerifyAnswer where
  | invalid | expired | alreadyVerified | verified
  deriving DecidableEq

def activate (user : User) (now : Int) : User :=
  if user.emailVerifiedAt = none then { user with emailVerifiedAt := some now } else user

theorem activate_id (user : User) (now : Int) : (activate user now).id = user.id := by
  unfold activate
  split <;> rfl

def verifyEmail (token : String) (now : Int) : EmailSystem × VerifyAnswer :=
  if validVerificationToken token = false then (system, .invalid)
  else
    match system.tokens.rows.find? fun row => row.tokenHash == services.hash token with
    | none => (system, .invalid)
    | some row =>
        if row.usedAt ≠ none then (system, .alreadyVerified)
        else if row.expiresAt ≤ now then (system, .expired)
        else
          let users := system.auth.db.users.mapRows
            (fun user => if user.id = row.userId then activate user now else user) (by
              intro user
              split
              · exact activate_id user now
              · rfl)
          ({ system with
            auth := { system.auth with db := { system.auth.db with users } }
            tokens := system.tokens.set { row with usedAt := some now } }, .verified)

end Verification

section Login

def wrongPassword : ApiError := authenticationFailed "邮箱或密码错误"

/-- The read of the account and the check of the password. -/
def checkLogin (form : LoginForm) : ApiResult CheckedLogin := do
  let email ← normalizeEmail form.email
  validatePasswordInput form.password
  let userCode ← normalizeUserCode form.userCode
  let user ← okOr wrongPassword (system.auth.db.users.rows.find? fun user =>
    user.provider == "email" && user.providerSubject == email && user.email == some email)
  rejectIf (user.emailVerifiedAt = none) (.forbidden "邮箱尚未验证，请检查邮箱")
  let column ← okOr wrongPassword (system.passwords.find user.id)
  rejectIf (services.verifyPassword form.password column.passwordHash = false) wrongPassword
  return ⟨user.id, email, column.passwordHash, userCode⟩

/-- The account is still what it was when its password was checked. -/
def stillCurrent (login : CheckedLogin) : Bool :=
  (system.auth.db.users.find login.userId).any fun user =>
    user.provider == "email" && user.providerSubject == login.email &&
    user.email == some login.email && user.emailVerifiedAt != none &&
    (system.passwords.find user.id).any fun column => column.passwordHash == login.passwordHash

/-- A device login that the code names and that waits for its user. -/
def awaitsUser (columns : EmailColumns) (userCode : String) (now : Int) : Bool :=
  (system.auth.db.flows.find columns.flowId).any fun flow =>
    flow.provider == "email" && columns.userCode == userCode && decide (flow.status = .pending) &&
    decide (now < flow.expiresAt) && columns.emailAuthorizedUserId == none &&
    columns.emailAuthorizedAt == none

def authorizeColumns (columns : EmailColumns) (userId : Uuid) (now : Int) : EmailColumns :=
  { columns with
    emailAuthorizedUserId := some userId
    emailAuthorizedAt := some now }

/-- The transaction of the login page. -/
def bindFlow (login : CheckedLogin) (now : Int) : ApiResult EmailSystem := do
  rejectIf (system.stillCurrent login = false) wrongPassword
  match system.columns.rows.filter fun columns => system.awaitsUser columns login.userCode now with
  | [columns] => return { system with
      columns := system.columns.set (authorizeColumns columns login.userId now) }
  | _ => .error (.conflict "device_flow_unavailable"
      "设备登录流程无效、已过期或已被消费，请从终端重新发起登录")

end Login

section Provider

/-- `EmailDeviceProvider::poll`. -/
def pollProvider (deviceCode : String) (now : Int) : ProviderPoll :=
  match system.columns.rows.find? fun columns =>
    columns.providerDeviceCode == deviceCode && columns.emailAuthorizedAt != none &&
    (system.auth.db.flows.find columns.flowId).any fun flow =>
      flow.provider == "email" && decide (flow.status = .pending) && decide (now < flow.expiresAt)
  with
  | none => .pending
  | some columns =>
      match columns.emailAuthorizedUserId.bind system.auth.db.users.find with
      | none => .pending
      | some user => .authorized ⟨user.providerSubject, user.username⟩

end Provider

section Steps

inductive EmailEvent where
  /-- Polls, refreshes and logouts as for any provider. -/
  | auth (event : AuthEvent)
  | start (flow : DeviceFlow) (deviceCode userCode : String)
  | hear (i : Nat) (now : Int)
  | register (form : RegisterForm) (draws : RegisterDraws) (now : Int) (delivery : Delivery)
  | verify (token : String) (now : Int)
  | login (i : Nat) (form : LoginForm)
  | bind (i : Nat) (now : Int)

/-- A new device login; the codes are unique. -/
def startFlow (flow : DeviceFlow) (deviceCode userCode : String) : Option EmailSystem := do
  guard (flow.provider = "email" ∧ system.columns.find flow.id = none ∧
    (system.columns.rows.all fun columns => columns.providerDeviceCode != deviceCode &&
      (columns.userCode != userCode || (system.auth.db.flows.find columns.flowId).all fun old =>
        decide (old.status ≠ .pending))) = true)
  let auth ← AuthSystem.step services.toAuthServices (.start flow) system.auth
  return { system with
    auth
    columns := system.columns.set ⟨flow.id, deviceCode, userCode, none, none⟩ }

def setVisit (i : Nat) (visit : Visit) : EmailSystem :=
  { system with visits := Function.update system.visits i visit }

/-- The events that the other constructors stand for. -/
def Delegated : AuthEvent → Bool
  | .start _ | .hear _ _ => true
  | _ => false

def step (event : EmailEvent) (system : EmailSystem) : Option EmailSystem :=
  match event with
  | .auth event => do
      guard (Delegated event = false)
      let auth ← AuthSystem.step services.toAuthServices event system.auth
      return { system with auth }
  | .start flow deviceCode userCode => system.startFlow services flow deviceCode userCode
  | .hear i now =>
      match system.auth.polls i with
      | .asking flow _ => do
          let columns ← system.columns.find flow.id
          let auth ← AuthSystem.step services.toAuthServices
            (.hear i (system.pollProvider columns.providerDeviceCode now)) system.auth
          return { system with auth }
      | _ => none
  | .register form draws now delivery =>
      (system.register services form draws now delivery).toOption
  | .verify token now => some (system.verifyEmail services token now).1
  | .login i form =>
      match system.visits i with
      | .idle =>
          match system.checkLogin services form with
          | .ok login => some (system.setVisit i (.checked login))
          | .error error => some (system.setVisit i (.answered (.error error)))
      | _ => none
  | .bind i now =>
      match system.visits i with
      | .checked login =>
          match system.bindFlow login now with
          | .ok bound => some (bound.setVisit i (.answered (.ok ())))
          | .error error => some (system.setVisit i (.answered (.error error)))
      | _ => none

/-- Some events in a row; an event that is not possible changes nothing. -/
def perform (events : List EmailEvent) (system : EmailSystem) : EmailSystem :=
  events.foldl (fun system event => (step services event system).getD system) system

end Steps

end EmailSystem

end MindOne.Auth
