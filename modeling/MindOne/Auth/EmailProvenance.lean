import MindOne.Auth.EmailAccounts
import MindOne.Lib.TableEvolution

/-!
# What stands behind a session of an email account

Every session goes back to four things: the account was registered with a password, the
token that was sent to its address has been presented, somebody entered the address, the
password and the code of the device login on the login page, and a poll proved the
possession of the key that the login was started with. Visits of the page, polls and
verifications may come in any order and interleave.
-/

namespace MindOne.Auth

open CheckedArithmetic Coordinator KeyedTable
open MindOne.Stream (okOr okOr_eq_ok)

section Evolution

def SameKey (flow flow' : DeviceFlow) : Prop :=
  flow'.devicePublicKey = flow.devicePublicKey ∧
    flow'.deviceKeyFingerprint = flow.deviceKeyFingerprint

def SameOwner (session session' : Session) : Prop :=
  session'.userId = session.userId ∧ session'.deviceKeyId = session.deviceKeyId

def SameDevice (key key' : DeviceKey) : Prop :=
  key'.userId = key.userId ∧ key'.fingerprint = key.fingerprint

theorem SameKey.refl (flow : DeviceFlow) : SameKey flow flow := ⟨rfl, rfl⟩

theorem SameOwner.refl (session : Session) : SameOwner session session := ⟨rfl, rfl⟩

theorem SameDevice.refl (key : DeviceKey) : SameDevice key key := ⟨rfl, rfl⟩

/-- What a step for a device login does not take back. -/
structure Persists (db db' : AuthDb) : Prop where
  users : db'.users = db.users
  flows : Table.Evolves SameKey db.flows db'.flows
  sessions : Table.Evolves SameOwner db.sessions db'.sessions
  deviceKeys : Table.Evolves SameDevice db.deviceKeys db'.deviceKeys

theorem Persists.refl (db : AuthDb) : Persists db db :=
  ⟨rfl, .refl SameKey.refl _, .refl SameOwner.refl _, .refl SameDevice.refl _⟩

variable {db next : AuthDb}

theorem persists_updateFlow {flowId : Uuid} {change : DeviceFlow → DeviceFlow}
    {h : ∀ flow, (change flow).id = flow.id} (hchange : ∀ flow, SameKey flow (change flow)) :
    Persists db (db.updateFlow flowId change h) := by
  refine { Persists.refl db with flows := Table.evolves_map AuthSystem.find_updateFlow ?_ }
  intro flow
  split
  · exact hchange flow
  · exact .refl flow

theorem persists_endFlow (flowId : Uuid) (status : FlowStatus) (completedAt : Option Int) :
    Persists db (db.endFlow flowId status completedAt) :=
  persists_updateFlow fun _ => ⟨rfl, rfl⟩

theorem persists_revokeSessions (which : Session → Bool) (now : Int) :
    Persists db (db.revokeSessions which now) := by
  refine { Persists.refl db with
    sessions := Table.evolves_map (fun _ => by rw [AuthDb.revokeSessions, Table.find_mapRows]) ?_ }
  intro session
  split
  · exact ⟨rfl, rfl⟩
  · exact .refl session

theorem persists_revokeDeviceKey (deviceKeyId : Uuid) (now : Int) :
    Persists db (db.revokeDeviceKey deviceKeyId now) := by
  refine { Persists.refl db with
    deviceKeys := Table.evolves_map (fun _ => by rw [AuthDb.revokeDeviceKey, Table.find_mapRows]) ?_ }
  intro key
  split
  · exact ⟨rfl, rfl⟩
  · exact .refl key

end Evolution

section AuthSteps
variable {services : EmailServices} {db next : AuthDb}

/-- What an authorized poll writes when accounts are registered beforehand. -/
structure EmailIssue (db next : AuthDb) (key : BoundKey) (identity : ProviderIdentity)
    (draws : Draws) (user : User) (deviceKey : DeviceKey) (session : Session) : Prop where
  account : user ∈ db.users.rows
  email : user.email = some identity.subject
  users : next.users = db.users
  deviceKeys : next.deviceKeys = db.deviceKeys.set deviceKey
  device : deviceKey.userId = user.id ∧ deviceKey.fingerprint = key.fingerprint
  known : ∀ old, db.deviceKeys.find deviceKey.id = some old → SameDevice old deviceKey
  sessions : next.sessions = db.sessions.set session
  issued : session.id = draws.sessionId ∧ session.userId = user.id ∧
    session.deviceKeyId = some deviceKey.id
  flows : Table.Evolves SameKey db.flows next.flows

theorem upsertUser_email {identity : ProviderIdentity} {userId drawn : Uuid}
    {users : Table User.id}
    (h : upsertUser services.toAuthServices db identity drawn = .ok (users, userId)) :
    users = db.users ∧ ∃ user ∈ db.users.rows, user.id = userId ∧
      user.email = some identity.subject := by
  unfold upsertUser at h
  rw [if_pos services.emailProvider_eq] at h
  split at h
  · rename_i user hfound
    cases h
    have hmatches := List.find?_some hfound
    simp only [decide_eq_true_eq] at hmatches
    exact ⟨rfl, user, List.mem_of_find?_eq_some hfound, rfl, hmatches.2.2.1⟩
  · cases h

theorem upsertDeviceKey_same {userId drawn deviceKeyId : Uuid} {key : BoundKey} {now : Int}
    {deviceKeys : Table DeviceKey.id} (hfresh : db.deviceKeys.find drawn = none)
    (h : upsertDeviceKey db userId drawn key now = (deviceKeys, deviceKeyId)) :
    ∃ deviceKey, deviceKey.id = deviceKeyId ∧ deviceKeys = db.deviceKeys.set deviceKey ∧
      deviceKey.userId = userId ∧ deviceKey.fingerprint = key.fingerprint ∧
      ∀ old, db.deviceKeys.find deviceKey.id = some old → SameDevice old deviceKey := by
  unfold upsertDeviceKey at h
  split at h
  · rename_i known hknown
    cases h
    have hmatches := List.find?_some hknown
    simp only [decide_eq_true_eq] at hmatches
    refine ⟨{ known with
      publicKey := key.publicKey
      algorithm := key.algorithm
      revokedAt := none
      rotatedAt := some now }, rfl, rfl, hmatches.1, hmatches.2, fun old hold => ?_⟩
    have hfind := Table.find_of_mem (List.mem_of_find?_eq_some hknown)
    obtain rfl := Option.some.inj (hfind.symm.trans hold)
    exact ⟨rfl, rfl⟩
  · cases h
    refine ⟨_, rfl, rfl, rfl, rfl, fun old hold => ?_⟩
    rw [hfresh] at hold
    cases hold

theorem emailIssue_of_issued {flowId : Uuid} {key : BoundKey} {identity : ProviderIdentity}
    {draws : Draws} {now : Int} (hfresh : db.deviceKeys.find draws.deviceKeyId = none)
    (h : authorizeFlow services.toAuthServices db flowId key identity draws now = .issued next) :
    ∃ user deviceKey session, EmailIssue db next key identity draws user deviceKey session := by
  unfold authorizeFlow at h
  split at h
  · cases h
  · split at h
    · cases h
    · split at h
      · cases h
      · split at h
        · cases h
        · rename_i users userId hupsert
          obtain ⟨rfl, user, huser, rfl, hemail⟩ := upsertUser_email hupsert
          generalize hkeys : upsertDeviceKey db user.id draws.deviceKeyId key now = keys at h
          obtain ⟨deviceKeys, deviceKeyId⟩ := keys
          obtain ⟨deviceKey, rfl, rfl, howner, hfingerprint, hknown⟩ :=
            upsertDeviceKey_same hfresh hkeys
          cases h
          refine ⟨user, deviceKey, _, {
            account := huser
            email := hemail
            users := rfl
            deviceKeys := rfl
            device := ⟨howner, hfingerprint⟩
            known := hknown
            sessions := rfl
            issued := ⟨rfl, rfl, rfl⟩
            flows := ?_ }⟩
          refine Table.evolves_map (fun _ => by
            rw [AuthDb.issueSession, AuthSystem.find_updateFlow]) fun flow => ?_
          split
          · exact ⟨rfl, rfl⟩
          · exact .refl flow

theorem EmailIssue.persists {key : BoundKey} {identity : ProviderIdentity} {draws : Draws}
    {user : User} {deviceKey : DeviceKey} {session : Session}
    (h : EmailIssue db next key identity draws user deviceKey session)
    (hfresh : db.sessions.find draws.sessionId = none) : Persists db next where
  users := h.users
  flows := h.flows
  sessions := by
    rw [h.sessions]
    refine Table.evolves_set SameOwner.refl fun old hold => ?_
    rw [h.issued.1, hfresh] at hold
    cases hold
  deviceKeys := by
    rw [h.deviceKeys]
    exact Table.evolves_set SameDevice.refl h.known

theorem persists_authRefresh {request : RefreshRequest} {draws : Draws} {now : Int}
    (h : authRefresh services.toAuthServices db request draws now = .ok next) :
    Persists db next := by
  unfold authRefresh at h
  split at h
  · cases h
  · rename_i old hfound
    split at h
    · simp only [bind_eq_ok] at h
      obtain ⟨_, _, hnext⟩ := h
      cases hnext
      refine { Persists.refl db with
        sessions := Table.evolves_set SameOwner.refl fun other hother => ?_ }
      have hfind := Table.find_of_mem (List.mem_of_find?_eq_some hfound)
      obtain rfl := Option.some.inj (hfind.symm.trans hother)
      exact ⟨rfl, rfl⟩
    · cases h

theorem persists_authLogout {refreshToken : String} {now : Int}
    (h : authLogout services.toAuthServices db refreshToken now = .ok next) :
    Persists db next := by
  unfold authLogout at h
  split at h
  · cases h
  · split at h
    · rename_i deviceKeyId _
      cases h
      have hsessions : Persists db (db.revokeSessions (fun other =>
        other.deviceKeyId = some deviceKeyId) now) := persists_revokeSessions _ _
      have hkeys : Persists db (db.revokeDeviceKey deviceKeyId now) := persists_revokeDeviceKey _ _
      exact ⟨rfl, hsessions.flows, hsessions.sessions, hkeys.deviceKeys⟩
    · cases h
      exact persists_revokeSessions _ _

end AuthSteps

section Evidence
variable (services : EmailServices) (past : List EmailSystem.EmailEvent) (system : EmailSystem)

/-- The registration of an account, and the token that has activated it. -/
structure Account (user : User) (registration : Registration) : Prop where
  registered : registration ∈ system.registrations
  userId : registration.draws.userId = user.id
  email : user.email = some registration.email
  subject : user.providerSubject = registration.email
  password : system.passwords.find user.id =
    some ⟨user.id, services.hashPassword registration.password registration.draws.salt⟩
  verified : user.emailVerifiedAt ≠ none → ∃ token now, .verify token now ∈ past ∧
    services.hash token = services.hash registration.draws.token

/-- What was entered on the login page. -/
structure Entered (form : LoginForm) (login : CheckedLogin) : Prop where
  email : normalizeEmail form.email = .ok login.email
  userCode : normalizeUserCode form.userCode = .ok login.userCode
  password : services.verifyPassword form.password login.passwordHash = true

/-- The visit that has authorized a device login. -/
structure Authorized (columns : EmailColumns) (user : User) (login : CheckedLogin)
    (form : LoginForm) : Prop where
  bound : columns.emailAuthorizedUserId = some user.id
  stored : system.auth.db.users.find user.id = some user
  verified : user.emailVerifiedAt ≠ none
  email : user.email = some login.email
  passwordHash : ∃ column, system.passwords.find user.id = some column ∧
    column.passwordHash = login.passwordHash
  userCode : login.userCode = columns.userCode
  visited : ∃ i, .login i form ∈ past
  entered : Entered services form login

/-- A poll with a signature of the key that the device login was started with. -/
structure Possession (flowId : Uuid) (key : BoundKey) : Prop where
  polled : ∃ i signature, .auth (.poll i ⟨flowId, signature⟩) ∈ past ∧
    services.deviceKeyProof flowId key.publicKey key.fingerprint key.algorithm key.challenge
      signature = true
  started : ∃ flow, system.auth.db.flows.find flowId = some flow ∧
    flow.devicePublicKey = some key.publicKey ∧ flow.deviceKeyFingerprint = some key.fingerprint

/-- The provider named the user that the device login is bound to. -/
def Identified (flowId : Uuid) (subject : String) : Prop :=
  ∃ columns user, system.columns.find flowId = some columns ∧
    columns.emailAuthorizedUserId = some user.id ∧
    system.auth.db.users.find user.id = some user ∧ user.providerSubject = subject

def StageProven : PollStage → Prop
  | .received request => ∃ i, .auth (.poll i request) ∈ past
  | .noting flow key | .asking flow key => Possession services past system flow.id key
  | .authorizing flow key identity =>
      Possession services past system flow.id key ∧ Identified system flow.id identity.subject
  | _ => True

/-- The rows behind an issued session. -/
structure Issued (flowId sessionId : Uuid) (session : Session) (columns : EmailColumns)
    (key : BoundKey) (deviceKey : DeviceKey) : Prop where
  stored : system.auth.db.sessions.find sessionId = some session
  login : system.columns.find flowId = some columns
  user : columns.emailAuthorizedUserId = some session.userId
  possession : Possession services past system flowId key
  bound : session.deviceKeyId = some deviceKey.id
  known : system.auth.db.deviceKeys.find deviceKey.id = some deviceKey
  device : deviceKey.userId = session.userId ∧ deviceKey.fingerprint = key.fingerprint

structure EmailInvariant : Prop where
  accounts : ∀ user ∈ system.auth.db.users.rows, ∃ registration,
    Account services past system user registration
  registrations : ∀ registration ∈ system.registrations,
    (system.auth.db.users.find registration.draws.userId).isSome ∧
      ⟨registration.email, registration.draws.token⟩ ∈ system.mailed
  single : ∀ a ∈ system.registrations, ∀ b ∈ system.registrations,
    a.draws.userId = b.draws.userId → a = b
  emails : ∀ a ∈ system.auth.db.users.rows, ∀ b ∈ system.auth.db.users.rows,
    a.email = b.email → a = b
  tokens : ∀ token ∈ system.tokens.rows, ∃ registration ∈ system.registrations,
    registration.draws.userId = token.userId ∧
      token.tokenHash = services.hash registration.draws.token
  visits : ∀ i login, system.visits i = .checked login →
    ∃ form, .login i form ∈ past ∧ Entered services form login
  columns : ∀ columns ∈ system.columns.rows, ∀ userId, columns.emailAuthorizedUserId = some userId →
    ∃ user login form, user.id = userId ∧ Authorized services past system columns user login form
  codes : ∀ a ∈ system.columns.rows, ∀ b ∈ system.columns.rows,
    a.providerDeviceCode = b.providerDeviceCode → a.flowId = b.flowId
  polls : ∀ i, StageProven services past system (system.auth.polls i)
  issued : ∀ entry ∈ system.auth.issued, ∃ session columns key deviceKey,
    Issued services past system entry.1 entry.2 session columns key deviceKey

end Evidence

section Later
variable {services : EmailServices} {past past' : List EmailSystem.EmailEvent}
  {system next : EmailSystem}

/-- An account keeps its names, and stays active. -/
def SameAccount (user user' : User) : Prop :=
  user'.email = user.email ∧ user'.providerSubject = user.providerSubject ∧
    (user.emailVerifiedAt ≠ none → user'.emailVerifiedAt ≠ none)

/-- A device login keeps its code and the user that it is bound to. -/
def SameCodes (columns columns' : EmailColumns) : Prop :=
  columns'.userCode = columns.userCode ∧ ∀ userId, columns.emailAuthorizedUserId = some userId →
    columns'.emailAuthorizedUserId = some userId

theorem SameAccount.refl (user : User) : SameAccount user user := ⟨rfl, rfl, id⟩

theorem SameCodes.refl (columns : EmailColumns) : SameCodes columns columns := ⟨rfl, fun _ => id⟩

/-- What no event takes back. -/
structure Later (past : List EmailSystem.EmailEvent) (system : EmailSystem)
    (past' : List EmailSystem.EmailEvent) (next : EmailSystem) : Prop where
  past : past ⊆ past'
  users : Table.Evolves SameAccount system.auth.db.users next.auth.db.users
  passwords : ∀ user, system.auth.db.users.find user.id = some user → ∀ column,
    system.passwords.find user.id = some column → next.passwords.find user.id = some column
  columns : Table.Evolves SameCodes system.columns next.columns
  flows : Table.Evolves SameKey system.auth.db.flows next.auth.db.flows
  sessions : Table.Evolves SameOwner system.auth.db.sessions next.auth.db.sessions
  deviceKeys : Table.Evolves SameDevice system.auth.db.deviceKeys next.auth.db.deviceKeys

theorem Later.ofPast (system : EmailSystem) (h : past ⊆ past') : Later past system past' system :=
  ⟨h, .refl SameAccount.refl _, fun _ _ _ h => h, .refl SameCodes.refl _,
    .refl SameKey.refl _, .refl SameOwner.refl _, .refl SameDevice.refl _⟩

theorem Later.refl (past : List EmailSystem.EmailEvent) (event : EmailSystem.EmailEvent)
    (system : EmailSystem) : Later past system (event :: past) system :=
  .ofPast system (List.subset_cons_self _ _)

theorem Authorized.later {columns columns' : EmailColumns} {user : User} {login : CheckedLogin}
    {form : LoginForm} (h : Authorized services past system columns user login form)
    (later : Later past system past' next) (hcodes : SameCodes columns columns') :
    ∃ user', user'.id = user.id ∧ Authorized services past' next columns' user' login form := by
  obtain ⟨user', hstored, hemail, _, hverified⟩ := later.users _ _ h.stored
  have hid : user'.id = user.id := Table.key_of_find hstored
  obtain ⟨column, hcolumn, hhash⟩ := h.passwordHash
  obtain ⟨i, hvisited⟩ := h.visited
  exact ⟨user', hid, {
    bound := hid ▸ hcodes.2 _ h.bound
    stored := hid ▸ hstored
    verified := hverified h.verified
    email := hemail.trans h.email
    passwordHash := ⟨column, hid ▸ later.passwords _ h.stored _ hcolumn, hhash⟩
    userCode := h.userCode.trans hcodes.1.symm
    visited := ⟨i, later.past hvisited⟩
    entered := h.entered }⟩

theorem Possession.later {flowId : Uuid} {key : BoundKey}
    (h : Possession services past system flowId key) (later : Later past system past' next) :
    Possession services past' next flowId key := by
  obtain ⟨i, signature, hpolled, hproof⟩ := h.polled
  obtain ⟨flow, hflow, hpublic, hfingerprint⟩ := h.started
  obtain ⟨flow', hflow', hsame⟩ := later.flows _ _ hflow
  exact ⟨⟨i, signature, later.past hpolled, hproof⟩, flow', hflow', hsame.1.trans hpublic,
    hsame.2.trans hfingerprint⟩

theorem Identified.later {flowId : Uuid} {subject : String} (h : Identified system flowId subject)
    (later : Later past system past' next) : Identified next flowId subject := by
  obtain ⟨columns, user, hcolumns, hbound, hstored, hsubject⟩ := h
  obtain ⟨columns', hcolumns', _, hkept⟩ := later.columns _ _ hcolumns
  obtain ⟨user', hstored', _, hsubject', _⟩ := later.users _ _ hstored
  have hid : user'.id = user.id := Table.key_of_find hstored'
  exact ⟨columns', user', hcolumns', hid ▸ hkept _ hbound, hid ▸ hstored',
    hsubject'.trans hsubject⟩

theorem StageProven.later {stage : PollStage} (h : StageProven services past system stage)
    (later : Later past system past' next) : StageProven services past' next stage := by
  cases stage with
  | received request =>
      obtain ⟨i, hpolled⟩ := h
      exact ⟨i, later.past hpolled⟩
  | noting flow key => exact Possession.later h later
  | asking flow key => exact Possession.later h later
  | authorizing flow key identity =>
      obtain ⟨possession, identified⟩ := h
      exact ⟨possession.later later, identified.later later⟩
  | idle | overdue flow | slowingDown flow | denying flow | expiring flow | answered answer =>
      exact trivial

theorem Issued.later {flowId sessionId : Uuid} {session : Session} {columns : EmailColumns}
    {key : BoundKey} {deviceKey : DeviceKey}
    (h : Issued services past system flowId sessionId session columns key deviceKey)
    (later : Later past system past' next) : ∃ session columns deviceKey,
      Issued services past' next flowId sessionId session columns key deviceKey := by
  obtain ⟨session', hsession, hsame⟩ := later.sessions _ _ h.stored
  obtain ⟨columns', hcolumns, _, hkept⟩ := later.columns _ _ h.login
  obtain ⟨deviceKey', hdevice, hdevice'⟩ := later.deviceKeys _ _ h.known
  have hid : deviceKey'.id = deviceKey.id := Table.key_of_find hdevice
  exact ⟨session', columns', deviceKey', {
    stored := hsession
    login := hcolumns
    user := hsame.1 ▸ hkept _ h.user
    possession := h.possession.later later
    bound := hid ▸ hsame.2.trans h.bound
    known := hid ▸ hdevice
    device := ⟨hdevice'.1.trans (h.device.1.trans hsame.1.symm),
      hdevice'.2.trans h.device.2⟩ }⟩

end Later

section DeviceSteps
variable {services : EmailServices} {past : List EmailSystem.EmailEvent}
  {system : EmailSystem} {event : EmailSystem.EmailEvent} {auth : AuthSystem}

theorem Account.grow {past' : List EmailSystem.EmailEvent} {next : EmailSystem} {user : User}
    {registration : Registration} (h : Account services past system user registration)
    (huser : user ∈ system.auth.db.users.rows) (later : Later past system past' next)
    (hregistrations : system.registrations ⊆ next.registrations) :
    Account services past' next user registration where
  registered := hregistrations h.registered
  userId := h.userId
  email := h.email
  subject := h.subject
  password := later.passwords _ (Table.find_of_mem huser) _ h.password
  verified := fun hverified => by
    obtain ⟨token, now, hpresented, hhash⟩ := h.verified hverified
    exact ⟨token, now, later.past hpresented, hhash⟩

theorem later_of_persists (h : Persists system.auth.db auth.db) :
    Later past system (event :: past) { system with auth } :=
  { Later.refl past event system with
    users := by
      change Table.Evolves SameAccount system.auth.db.users auth.db.users
      rw [h.users]
      exact .refl SameAccount.refl _
    flows := h.flows
    sessions := h.sessions
    deviceKeys := h.deviceKeys }

/-- A step that leaves the accounts alone. -/
theorem EmailInvariant.ofAuth (h : EmailInvariant services past system)
    (persists : Persists system.auth.db auth.db)
    (polls : ∀ i, StageProven services (event :: past) { system with auth } (auth.polls i))
    (issued : ∀ entry ∈ auth.issued, ∃ session columns key deviceKey, Issued services
      (event :: past) { system with auth } entry.1 entry.2 session columns key deviceKey) :
    EmailInvariant services (event :: past) { system with auth } := by
  have later : Later past system (event :: past) { system with auth } := later_of_persists persists
  have husers := persists.users
  refine {
    accounts := ?_
    registrations := ?_
    single := h.single
    emails := ?_
    tokens := h.tokens
    visits := ?_
    columns := ?_
    codes := h.codes
    polls := polls
    issued := issued }
  · intro user huser
    have hold : user ∈ system.auth.db.users.rows := husers ▸ huser
    obtain ⟨registration, account⟩ := h.accounts user hold
    exact ⟨registration, account.grow hold later (List.Subset.refl _)⟩
  · intro registration hregistration
    obtain ⟨hstored, hmailed⟩ := h.registrations registration hregistration
    exact ⟨husers ▸ hstored, hmailed⟩
  · intro a ha b hb hemail
    exact h.emails a (husers ▸ ha) b (husers ▸ hb) hemail
  · intro i login hchecked
    obtain ⟨form, hvisited, entered⟩ := h.visits i login hchecked
    exact ⟨form, later.past hvisited, entered⟩
  · intro columns hcolumns userId hbound
    obtain ⟨user, login, form, rfl, authorized⟩ := h.columns columns hcolumns userId hbound
    obtain ⟨user', hid, authorized'⟩ := authorized.later later (.refl columns)
    exact ⟨user', login, form, hid, authorized'⟩

theorem EmailInvariant.polls_later (h : EmailInvariant services past system)
    (persists : Persists system.auth.db auth.db) {i : Nat} {stage : PollStage}
    (hpolls : auth.polls = Function.update system.auth.polls i stage)
    (proven : StageProven services (event :: past) { system with auth } stage) (j : Nat) :
    StageProven services (event :: past) { system with auth } (auth.polls j) := by
  rw [hpolls]
  by_cases hj : j = i
  · rw [hj, Function.update_self]
    exact proven
  · rw [Function.update_of_ne hj]
    exact (h.polls j).later (later_of_persists persists)

theorem EmailInvariant.issued_later (h : EmailInvariant services past system)
    (persists : Persists system.auth.db auth.db) {entry : Uuid × Uuid}
    (hentry : entry ∈ system.auth.issued) : ∃ session columns key deviceKey,
      Issued services (event :: past) { system with auth } entry.1 entry.2 session columns key
        deviceKey := by
  obtain ⟨session, columns, key, deviceKey, issued⟩ := h.issued entry hentry
  obtain ⟨session', columns', deviceKey', issued'⟩ := issued.later (later_of_persists persists)
  exact ⟨session', columns', key, deviceKey', issued'⟩

/-- A poll comes to its next stage, and may write to the tables of device logins. -/
theorem EmailInvariant.ofPoll (h : EmailInvariant services past system) {db : AuthDb} {i : Nat}
    {stage : PollStage} (persists : Persists system.auth.db db)
    (proven : StageProven services (event :: past)
      { system with auth := { system.auth.setPoll i stage with db } } stage) :
    EmailInvariant services (event :: past)
      { system with auth := { system.auth.setPoll i stage with db } } :=
  h.ofAuth persists (h.polls_later persists rfl proven) fun _ hentry =>
    h.issued_later persists hentry

theorem boundKey_eq_ok {flow : DeviceFlow} {key : BoundKey} (h : flow.boundKey = .ok key) :
    flow.devicePublicKey = some key.publicKey ∧
      flow.deviceKeyFingerprint = some key.fingerprint := by
  unfold DeviceFlow.boundKey at h
  split at h
  · cases h
  · cases h
  · cases h
  · cases h
  · rename_i hpublic hfingerprint _ _
    cases h
    exact ⟨hpublic, hfingerprint⟩

/-- A poll goes on only with the proof of its key. -/
theorem StageProven.read {request : DevicePollRequest} {now : Int} {next : EmailSystem}
    (h : StageProven services past next (.received request)) :
    StageProven services past next
      (readFlow services.toAuthServices next.auth.db request now) := by
  obtain ⟨i, hpolled⟩ := h
  unfold readFlow
  split
  · exact trivial
  · rename_i flow hflow
    split
    · exact trivial
    · rename_i key hchecked
      split
      · exact trivial
      · split
        · exact trivial
        · have hid : flow.id = request.flowId := Table.key_of_find hflow
          simp only [checkFlow, verifyDeviceKeyProof, bind_eq_ok, rejectIf_eq_ok, exists_const,
            Bool.not_eq_false] at hchecked
          obtain ⟨_, _, read, hread, hproof, hkey⟩ := hchecked
          cases hkey
          obtain ⟨hpublic, hfingerprint⟩ := boundKey_eq_ok hread
          change Possession services past next flow.id key
          rw [hid]
          exact ⟨⟨i, request.deviceKeySignature, hpolled, hproof⟩, flow, hflow, hpublic,
            hfingerprint⟩

theorem authorizeFlow_expired_eq {flowId : Uuid} {key : BoundKey} {identity : ProviderIdentity}
    {draws : Draws} {now : Int} {db next : AuthDb}
    (h : authorizeFlow services.toAuthServices db flowId key identity draws now = .expired next) :
    next = db.endFlow flowId .expired (some now) := by
  unfold authorizeFlow at h
  split at h
  · cases h
  · split at h
    · cases h
    · split at h
      · cases h
        rfl
      · split at h <;> cases h

/-- The user of the session is the one that the device login was bound to. -/
theorem EmailInvariant.issue (h : EmailInvariant services past system) {i : Nat}
    {flow : DeviceFlow} {key : BoundKey} {identity : ProviderIdentity} {draws : Draws}
    {next : AuthDb} {user : User} {deviceKey : DeviceKey} {session : Session}
    (hstage : system.auth.polls i = .authorizing flow key identity)
    (fresh : system.auth.db.sessions.find draws.sessionId = none)
    (issue : EmailIssue system.auth.db next key identity draws user deviceKey session)
    (hdb : auth.db = next) (hissued : auth.issued = (flow.id, draws.sessionId) :: system.auth.issued)
    {answer : ApiResult PollAnswer}
    (hpolls : auth.polls = Function.update system.auth.polls i (.answered answer)) :
    EmailInvariant services (event :: past) { system with auth } := by
  have persists : Persists system.auth.db auth.db := hdb ▸ issue.persists fresh
  have later : Later past system (event :: past) { system with auth } := later_of_persists persists
  obtain ⟨possession, identified⟩ : Possession services past system flow.id key ∧
      Identified system flow.id identity.subject := by
    have proven := h.polls i
    rw [hstage] at proven
    exact proven
  refine h.ofAuth persists (h.polls_later persists hpolls trivial) fun entry hentry => ?_
  rw [hissued] at hentry
  rcases List.mem_cons.mp hentry with rfl | hold
  · obtain ⟨columns, bound, hcolumns, hbound, hstored, hsubject⟩ := identified
    have hbound_mem := Table.mem_of_find hstored
    obtain ⟨registration, account⟩ := h.accounts bound hbound_mem
    have hemail : bound.email = user.email := by
      rw [account.email, issue.email, ← account.subject, hsubject]
    obtain rfl := h.emails bound hbound_mem user issue.account hemail
    refine ⟨session, columns, key, deviceKey, {
      stored := ?_
      login := hcolumns
      user := hbound.trans (congrArg some issue.issued.2.1.symm)
      possession := possession.later later
      bound := issue.issued.2.2
      known := ?_
      device := ⟨issue.device.1.trans issue.issued.2.1.symm, issue.device.2⟩ }⟩
    · change auth.db.sessions.find _ = _
      rw [hdb, issue.sessions, ← issue.issued.1]
      exact Table.find_set_self
    · change auth.db.deviceKeys.find _ = _
      rw [hdb, issue.deviceKeys]
      exact Table.find_set_self
  · exact h.issued_later persists hold

/-- The provider names the user that the page has bound to the device login. -/
theorem EmailInvariant.heard (h : EmailInvariant services past system) {flow : DeviceFlow}
    {key : BoundKey} {columns : EmailColumns} {now : Int}
    (hcolumns : system.columns.find flow.id = some columns)
    (possession : Possession services past system flow.id key) :
    StageProven services past system
      (hearProvider flow key (system.pollProvider columns.providerDeviceCode now)) := by
  unfold EmailSystem.pollProvider
  split
  · exact trivial
  · rename_i found hfound
    split
    · exact trivial
    · rename_i user huser
      have hmem := List.mem_of_find?_eq_some hfound
      have hmatches := List.find?_some hfound
      simp only [Bool.and_eq_true, beq_iff_eq] at hmatches
      have hflow : found.flowId = columns.flowId :=
        h.codes found hmem columns (Table.mem_of_find hcolumns) hmatches.1.1
      obtain ⟨userId, hbound, hstored⟩ := Option.bind_eq_some_iff.mp huser
      have hfind := Table.find_of_mem hmem
      rw [hflow, Table.key_of_find hcolumns] at hfind
      have hid : user.id = userId := Table.key_of_find hstored
      exact ⟨possession, found, user, hfind, hid ▸ hbound, hid ▸ hstored, rfl⟩

theorem EmailInvariant.device (h : EmailInvariant services past system) {deviceEvent : AuthEvent}
    (hdelegated : EmailSystem.Delegated deviceEvent = false)
    (hstep : AuthSystem.step services.toAuthServices deviceEvent system.auth = some auth) :
    EmailInvariant services (.auth deviceEvent :: past) { system with auth } := by
  have same := Persists.refl system.auth.db
  cases deviceEvent with
  | start flow => cases hdelegated
  | hear i said => cases hdelegated
  | poll i request =>
      simp only [AuthSystem.step] at hstep
      split at hstep
      · cases hstep
        exact h.ofPoll same ⟨i, List.mem_cons_self⟩
      · cases hstep
  | read i now =>
      simp only [AuthSystem.step] at hstep
      split at hstep
      · rename_i request hstage
        cases hstep
        have proven := h.polls i
        rw [hstage] at proven
        refine h.ofPoll same (StageProven.read ?_)
        exact proven.later (later_of_persists same)
      · cases hstep
  | expireOverdue i =>
      simp only [AuthSystem.step] at hstep
      split at hstep
      · cases hstep
        exact h.ofPoll (persists_endFlow _ _ _) trivial
      · cases hstep
  | note i now =>
      simp only [AuthSystem.step] at hstep
      split at hstep
      · rename_i flow key hstage
        cases hstep
        have proven : Possession services past system flow.id key := by
          have proven := h.polls i
          rw [hstage] at proven
          exact proven
        have persists : Persists system.auth.db (system.auth.db.noteFlow flow.id now) :=
          persists_updateFlow fun _ => ⟨rfl, rfl⟩
        exact h.ofPoll persists (proven.later (later_of_persists persists))
      · cases hstep
  | providerFailed i =>
      simp only [AuthSystem.step] at hstep
      split at hstep
      · cases hstep
        exact h.ofPoll same trivial
      · cases hstep
  | slowDown i =>
      simp only [AuthSystem.step] at hstep
      split at hstep
      · cases hstep
        refine h.ofPoll (persists_updateFlow fun flow => ?_) trivial
        split
        · exact ⟨rfl, rfl⟩
        · exact .refl flow
      · cases hstep
  | deny i now | expire i now =>
      simp only [AuthSystem.step] at hstep
      split at hstep
      · cases hstep
        exact h.ofPoll (persists_endFlow _ _ _) trivial
      · cases hstep
  | authorize i draws now =>
      simp only [AuthSystem.step] at hstep
      split at hstep
      · rename_i flow key identity hstage
        split at hstep
        · rename_i hfresh
          cases hstep
          unfold AuthSystem.authorize
          split
          · exact h.ofPoll same trivial
          · rename_i next hexpired
            rw [authorizeFlow_expired_eq hexpired]
            exact h.ofPoll (persists_endFlow _ _ _) trivial
          · rename_i next hissued
            obtain ⟨user, deviceKey, session, issue⟩ := emailIssue_of_issued hfresh.2.2.1 hissued
            exact h.issue hstage hfresh.2.1 issue rfl rfl rfl
        · cases hstep
      · cases hstep
  | refresh request draws now =>
      simp only [AuthSystem.step] at hstep
      split at hstep
      · split at hstep
        · cases hstep
          exact h.ofAuth same (fun j => (h.polls j).later (later_of_persists same)) fun _ hentry =>
            h.issued_later same hentry
        · rename_i db hrefresh
          cases hstep
          have persists := persists_authRefresh hrefresh
          exact h.ofAuth persists (fun j => (h.polls j).later (later_of_persists persists))
            fun _ hentry => h.issued_later persists hentry
      · cases hstep
  | logout refreshToken now =>
      simp only [AuthSystem.step] at hstep
      split at hstep
      · cases hstep
        exact h.ofAuth same (fun j => (h.polls j).later (later_of_persists same)) fun _ hentry =>
          h.issued_later same hentry
      · rename_i db hlogout
        cases hstep
        have persists := persists_authLogout hlogout
        exact h.ofAuth persists (fun j => (h.polls j).later (later_of_persists persists))
          fun _ hentry => h.issued_later persists hentry

end DeviceSteps

end MindOne.Auth
