import MindOne.Auth.AccessRevocation

/-!
# Who is let in

Whoever is let in has a valid session, user and device key, with an access token or with an
API key of that session. The events of a key are its history: it is created once, and revoked
once at most, by one request.
-/

namespace MindOne.Auth

open CheckedArithmetic Coordinator KeyedTable
open MindOne.Stream (okOr okOr_eq_ok)

variable {services : AuthServices} {system next : AccessSystem}

section Acceptance

/-- The rows that a principal stands for are valid. -/
structure Live (db : AuthDb) (principal : Principal) : Prop where
  session : ∃ session, db.sessions.find principal.sessionId = some session ∧
    session.revokedAt = none ∧ session.userId = principal.userId ∧
    session.deviceKeyId = some principal.deviceKeyId
  user : ∃ user, db.users.find principal.userId = some user ∧ user.username = principal.username
  device : ∃ key, db.deviceKeys.find principal.deviceKeyId = some key ∧
    key.userId = principal.userId ∧ key.revokedAt = none

theorem signedIn_eq_some {db : AuthDb} {tokenHash : String} {now : Int} {session : Session}
    {principal : Principal} (hsession : session ∈ db.sessions.rows)
    (h : signedIn db tokenHash now session = some principal) :
    session.accessTokenHash = tokenHash ∧ principal.sessionId = session.id ∧ Live db principal := by
  simp only [signedIn, Option.bind_eq_bind, Option.bind_eq_some_iff, Option.guard_eq_some',
    exists_const] at h
  obtain ⟨⟨hhash, hvalid, _⟩, user, huser, deviceKeyId, hdevice, key, hkey, howner, hprincipal⟩ := h
  cases hprincipal
  have huserId : user.id = session.userId := Table.key_of_find huser
  have hkeyId : key.id = deviceKeyId := Table.key_of_find hkey
  refine ⟨hhash, rfl, {
    session := ⟨session, Table.find_of_mem hsession, hvalid, huserId.symm, ?_⟩
    user := ⟨user, huserId ▸ huser, rfl⟩
    device := ⟨key, hkeyId ▸ hkey, howner.1.trans huserId.symm, howner.2⟩ }⟩
  rw [hkeyId]
  exact hdevice

theorem live_of_authenticate {db db' : AuthDb} {authorization : Option String} {now : Int}
    {principal : Principal}
    (h : authenticate services db authorization now = .ok (principal, db')) :
    Live db principal := by
  obtain ⟨token, _, hfound, _⟩ := authenticate_eq_ok h
  obtain ⟨session, hsession, hsigned⟩ := List.exists_of_findSome?_eq_some hfound
  exact (signedIn_eq_some hsession hsigned).2.2

theorem keyOwner_eq_some {keyHash : String} {key : ApiKey} {principal : Principal} {keyId : Uuid}
    (h : system.keyOwner keyHash key = some (principal, keyId)) :
    key.keyHash = keyHash ∧ key.revokedAt = none ∧ key.id = keyId ∧
      principal.userId = key.userId ∧ principal.sessionId = key.createdBySessionId ∧
      principal.deviceKeyId = key.deviceKeyId ∧ Live system.auth.db principal := by
  simp only [AccessSystem.keyOwner, Option.bind_eq_bind, Option.bind_eq_some_iff,
    Option.guard_eq_some', exists_const] at h
  obtain ⟨⟨hhash, hvalid⟩, user, huser, session, hsession, hbound, device, hdevice, howner,
    hprincipal⟩ := h
  cases hprincipal
  have huserId : user.id = key.userId := Table.key_of_find huser
  exact ⟨hhash, hvalid, rfl, huserId, rfl, rfl, {
    session := ⟨session, hsession, hbound.2.2, hbound.1.trans huserId.symm, hbound.2.1⟩
    user := ⟨user, huserId ▸ huser, rfl⟩
    device := ⟨device, hdevice, howner.1.trans huserId.symm, howner.2⟩ }⟩

theorem live_of_infer {authorization : Option String} {now : Int} {principal : Principal}
    (h : system.authenticateInference services authorization now = .ok (principal, next)) :
    Live system.auth.db principal := by
  obtain ⟨token, _, ⟨_, db, hfound, _⟩ | ⟨_, key, _, keyId, howner, _⟩⟩ := infer_eq_ok h
  · exact live_of_authenticate hfound
  · exact (keyOwner_eq_some howner).2.2.2.2.2.2

/-- The key that has let somebody in. -/
theorem key_of_infer {authorization : Option String} {token : String} {now : Int}
    {principal : Principal} (htoken : bearerToken "缺少 Bearer API Key" authorization = .ok token)
    (hkey : AccessSystem.isApiKey token = true)
    (h : system.authenticateInference services authorization now = .ok (principal, next)) :
    ∃ key ∈ system.apiKeys.rows, key.keyHash = services.hash token ∧ key.revokedAt = none ∧
      principal.userId = key.userId ∧ principal.sessionId = key.createdBySessionId ∧
      principal.deviceKeyId = key.deviceKeyId := by
  obtain ⟨presented, hpresented, hcase⟩ := infer_eq_ok h
  cases hpresented.symm.trans htoken
  rcases hcase with ⟨hplain, _⟩ | ⟨_, key, hmem, keyId, howner, _⟩
  · rw [hkey] at hplain
    cases hplain
  · obtain ⟨hhash, hvalid, _, huser, hsession, hdevice, _⟩ := keyOwner_eq_some howner
    exact ⟨key, hmem, hhash, hvalid, huser, hsession, hdevice⟩

end Acceptance

section History

def keyHistory : Option ApiKey → List (ApiKeyEventType × Uuid × Int)
  | none => []
  | some key =>
      match key.revokedAt with
      | none => [(.created, key.userId, key.createdAt)]
      | some revokedAt => [(.revoked, key.userId, revokedAt), (.created, key.userId, key.createdAt)]

/-- The events of one key, the newest first. -/
def eventsOf (events : List ApiKeyEvent) (keyId : Uuid) : List (ApiKeyEventType × Uuid × Int) :=
  (events.filter fun event => event.apiKeyId = keyId).map fun event =>
    (event.eventType, event.userId, event.occurredAt)

theorem eventsOf_cons (event : ApiKeyEvent) (events : List ApiKeyEvent) (keyId : Uuid) :
    eventsOf (event :: events) keyId =
      if event.apiKeyId = keyId then
        (event.eventType, event.userId, event.occurredAt) :: eventsOf events keyId
      else eventsOf events keyId := by
  by_cases h : event.apiKeyId = keyId <;> simp [eventsOf, h]

/-- The access token of every session has its prefix. -/
def TokensDrawn (services : AuthServices) (sessions : Table Session.id) : Prop :=
  ∀ session ∈ sessions.rows, ∃ token : String, token.toList.take 4 = "mna_".toList ∧
    session.accessTokenHash = services.hash token

/-- Who is behind a request had a session with this user and device. -/
def Known (sessions : Table Session.id) (sessionId userId deviceKeyId : Uuid) : Prop :=
  ∃ session, sessions.find sessionId = some session ∧ session.userId = userId ∧
    session.deviceKeyId = some deviceKeyId

def HashesApart (keys : Table ApiKey.id) : Prop :=
  ∀ a ∈ keys.rows, ∀ b ∈ keys.rows, a.keyHash = b.keyHash → a = b

structure AccessInvariant (services : AuthServices) (system : AccessSystem) : Prop where
  drawn : TokensDrawn services system.auth.db.sessions
  history : ∀ keyId, eventsOf system.keyEvents keyId = keyHistory (system.apiKeys.find keyId)
  hashes : HashesApart system.apiKeys
  stages : ∀ i principal request, system.requests i = .authenticated principal request →
    Known system.auth.db.sessions principal.sessionId principal.userId principal.deviceKeyId
  bound : ∀ key ∈ system.apiKeys.rows,
    Known system.auth.db.sessions key.createdBySessionId key.userId key.deviceKeyId
  answered : ∀ i keyId, system.requests i = .answered (.ok (.revoked keyId true)) →
    ∃ key, system.apiKeys.find keyId = some key ∧ key.revokedAt ≠ none
  single : ∀ i j keyId, system.requests i = .answered (.ok (.revoked keyId true)) →
    system.requests j = .answered (.ok (.revoked keyId true)) → i = j

end History

section Drawn
variable {sessions sessions' : Table Session.id} {db after : AuthDb}

theorem TokensDrawn.kept (h : TokensDrawn services sessions)
    (hkept : ∀ session ∈ sessions'.rows, ∃ earlier ∈ sessions.rows,
      earlier.accessTokenHash = session.accessTokenHash) : TokensDrawn services sessions' := by
  intro session hsession
  obtain ⟨earlier, hearlier, hsame⟩ := hkept session hsession
  rw [← hsame]
  exact h earlier hearlier

theorem TokensDrawn.set (h : TokensDrawn services sessions) {session : Session} {token : String}
    (htoken : token.toList.take 4 = "mna_".toList)
    (hhash : session.accessTokenHash = services.hash token) :
    TokensDrawn services (sessions.set session) := by
  intro other hother
  rcases Table.mem_set.mp hother with rfl | ⟨hold, _⟩
  · exact ⟨token, htoken, hhash⟩
  · exact h other hold

theorem authorizeFlow_access {flowId : Uuid} {key : BoundKey} {identity : ProviderIdentity}
    {draws : Draws} {now : Int}
    (h : authorizeFlow services db flowId key identity draws now = .issued after) :
    ∃ session, session.accessTokenHash = services.hash draws.accessToken ∧
      after.sessions = db.sessions.set session := by
  unfold authorizeFlow at h
  split at h
  · cases h
  · split at h
    · cases h
    · split at h
      · cases h
      · split at h
        · cases h
        · cases h
          exact ⟨_, rfl, rfl⟩

theorem authRefresh_access {request : RefreshRequest} {draws : Draws} {now : Int}
    (h : authRefresh services db request draws now = .ok after) :
    ∃ session, session.accessTokenHash = services.hash draws.accessToken ∧
      after.sessions = db.sessions.set session := by
  unfold authRefresh at h
  split at h
  · cases h
  · split at h
    · simp only [bind_eq_ok] at h
      obtain ⟨_, _, hnext⟩ := h
      cases hnext
      exact ⟨_, rfl, rfl⟩
    · cases h

theorem TokensDrawn.touch (h : TokensDrawn services db.sessions) (sessionId : Uuid) (now : Int) :
    TokensDrawn services (db.touchSession sessionId now).sessions := by
  refine h.kept fun session hsession => ?_
  obtain ⟨earlier, hearlier, rfl⟩ := List.mem_map.mp hsession
  refine ⟨earlier, hearlier, ?_⟩
  split <;> rfl

theorem TokensDrawn.revoke (h : TokensDrawn services db.sessions) (which : Session → Bool)
    (now : Int) : TokensDrawn services (db.revokeSessions which now).sessions := by
  refine h.kept fun session hsession => ?_
  obtain ⟨earlier, hearlier, rfl⟩ := List.mem_map.mp hsession
  refine ⟨earlier, hearlier, ?_⟩
  split <;> rfl

theorem TokensDrawn.step {auth auth' : AuthSystem} {event : AuthEvent}
    (h : TokensDrawn services auth.db.sessions) (hdrawn : AccessSystem.WellDrawn event)
    (hstep : AuthSystem.step services event auth = some auth') :
    TokensDrawn services auth'.db.sessions := by
  cases event with
  | start flow =>
      simp only [AuthSystem.step] at hstep
      split at hstep <;> cases hstep
      exact h
  | poll i _ | read i _ | hear i _ | providerFailed i | expireOverdue i | note i _ | slowDown i
  | deny i _ | expire i _ =>
      simp only [AuthSystem.step] at hstep
      split at hstep <;> cases hstep
      exact h
  | authorize i draws now =>
      simp only [AuthSystem.step] at hstep
      split at hstep
      · split at hstep <;> cases hstep
        unfold AuthSystem.authorize
        split
        · exact h
        · rename_i db hexpired
          change TokensDrawn services db.sessions
          rw [(AuthSystem.authorizeFlow_expired hexpired).2]
          exact h
        · rename_i db hissued
          obtain ⟨session, hhash, hsessions⟩ := authorizeFlow_access hissued
          change TokensDrawn services db.sessions
          rw [hsessions]
          exact h.set hdrawn hhash
      · cases hstep
  | refresh request draws now =>
      simp only [AuthSystem.step] at hstep
      split at hstep
      · split at hstep <;> cases hstep
        · exact h
        · rename_i db hrefresh
          obtain ⟨session, hhash, hsessions⟩ := authRefresh_access hrefresh
          change TokensDrawn services db.sessions
          rw [hsessions]
          exact h.set hdrawn hhash
      · cases hstep
  | logout refreshToken now =>
      simp only [AuthSystem.step] at hstep
      split at hstep <;> cases hstep
      · exact h
      · rename_i db hlogout
        unfold authLogout at hlogout
        split at hlogout
        · cases hlogout
        · split at hlogout <;> cases hlogout
          · exact h.revoke _ _
          · exact h.revoke _ _

end Drawn

section Steps

theorem Known.later {sessions sessions' : Table Session.id} {sessionId userId deviceKeyId : Uuid}
    (h : Known sessions sessionId userId deviceKeyId)
    (later : Table.Evolves SessionKept sessions sessions') :
    Known sessions' sessionId userId deviceKeyId := by
  obtain ⟨session, hfind, huser, hdevice⟩ := h
  obtain ⟨session', hfind', hsame⟩ := later _ _ hfind
  exact ⟨session', hfind', hsame.1.trans huser, hsame.2.1.trans hdevice⟩

theorem Live.known {db : AuthDb} {principal : Principal} (h : Live db principal) :
    Known db.sessions principal.sessionId principal.userId principal.deviceKeyId := by
  obtain ⟨session, hfind, _, huser, hdevice⟩ := h.session
  exact ⟨session, hfind, huser, hdevice⟩

theorem AccessInvariant.ofAuth (h : AccessInvariant services system) {auth : AuthSystem}
    (drawn : TokensDrawn services auth.db.sessions)
    (later : Table.Evolves SessionKept system.auth.db.sessions auth.db.sessions) :
    AccessInvariant services { system with auth } :=
  { h with
    drawn := drawn
    stages := fun i principal request hstage => (h.stages i principal request hstage).later later
    bound := fun key hkey => (h.bound key hkey).later later }

theorem AccessInvariant.seen (h : AccessInvariant services system) {db : AuthDb}
    {authorization : Option String} {now : Int} {principal : Principal}
    (hfound : authenticate services system.auth.db authorization now = .ok (principal, db)) :
    AccessInvariant services { system with auth := { system.auth with db } } := by
  obtain ⟨_, _, _, rfl⟩ := authenticate_eq_ok hfound
  exact h.ofAuth (h.drawn.touch _ _) (sessionsKept_touch _ _)

theorem AccessInvariant.setRequest (h : AccessInvariant services system) {i : Nat}
    {stage : KeyStage}
    (hstage : ∀ principal request, stage = .authenticated principal request →
      Known system.auth.db.sessions principal.sessionId principal.userId principal.deviceKeyId)
    (hanswer : ∀ keyId, stage = .answered (.ok (.revoked keyId true)) →
      (∃ key, system.apiKeys.find keyId = some key ∧ key.revokedAt ≠ none) ∧
        ∀ j, system.requests j ≠ .answered (.ok (.revoked keyId true))) :
    AccessInvariant services (system.setRequest i stage) := by
  have cases_at : ∀ j other, (system.setRequest i stage).requests j = other →
      (j = i ∧ stage = other) ∨ (j ≠ i ∧ system.requests j = other) := by
    intro j other hother
    by_cases hj : j = i
    · refine .inl ⟨hj, ?_⟩
      rw [← hother, hj]
      exact (Function.update_self i stage system.requests).symm
    · refine .inr ⟨hj, ?_⟩
      rw [← hother]
      exact (Function.update_of_ne hj stage system.requests).symm
  refine { h with
    stages := fun j principal request hother => ?_
    answered := fun j keyId hother => ?_
    single := fun j k keyId hj hk => ?_ }
  · rcases cases_at j _ hother with ⟨_, hnew⟩ | ⟨_, hold⟩
    · exact hstage principal request hnew
    · exact h.stages j principal request hold
  · rcases cases_at j _ hother with ⟨_, hnew⟩ | ⟨_, hold⟩
    · exact (hanswer keyId hnew).1
    · exact h.answered j keyId hold
  · rcases cases_at j _ hj with ⟨hji, hnew⟩ | ⟨_, hold⟩
    · rcases cases_at k _ hk with ⟨hki, _⟩ | ⟨_, hold'⟩
      · exact hji.trans hki.symm
      · exact absurd hold' ((hanswer keyId hnew).2 k)
    · rcases cases_at k _ hk with ⟨_, hnew'⟩ | ⟨_, hold'⟩
      · exact absurd hold ((hanswer keyId hnew').2 j)
      · exact h.single j k keyId hold hold'

theorem HashesApart.map {keys keys' : Table ApiKey.id} {f : ApiKey → ApiKey} (h : HashesApart keys)
    (hrows : keys'.rows = keys.rows.map f) (hf : ∀ key, (f key).keyHash = key.keyHash) :
    HashesApart keys' := by
  intro a ha b hb hsame
  rw [hrows] at ha hb
  obtain ⟨a, hold, rfl⟩ := List.mem_map.mp ha
  obtain ⟨b, hold', rfl⟩ := List.mem_map.mp hb
  rw [hf, hf] at hsame
  rw [h a hold b hold' hsame]

theorem AccessInvariant.touchKey (h : AccessInvariant services system) (keyId : Uuid) (now : Int) :
    AccessInvariant services (system.touchKey keyId now) := by
  have hkept : Table.Evolves KeyKept system.apiKeys (system.touchKey keyId now).apiKeys :=
    keysKept_touch keyId now
  refine { h with
    history := fun k => ?_
    hashes := ?_
    bound := fun key hkey => ?_
    answered := fun i k hanswer => ?_ }
  · refine (h.history k).trans ?_
    rw [AccessSystem.touchKey, Table.find_mapRows]
    cases system.apiKeys.find k with
    | none => rfl
    | some key =>
        rw [Option.map_some]
        split
        · rfl
        · rfl
  · refine h.hashes.map rfl fun key => ?_
    split <;> rfl
  · obtain ⟨old, hold, rfl⟩ := List.mem_map.mp hkey
    have hbound := h.bound old hold
    split
    · exact hbound
    · exact hbound
  · obtain ⟨key, hfind, hrevoked⟩ := h.answered i k hanswer
    obtain ⟨key', hfind', hsame⟩ := hkept _ _ hfind
    exact ⟨key', hfind', by rw [hsame.revoked hrevoked]; exact hrevoked⟩

theorem AccessInvariant.create (h : AccessInvariant services system) {principal : Principal}
    {name : String} {draws : KeyDraws} {now : Int} {answer : KeyAnswer}
    (hknown : Known system.auth.db.sessions principal.sessionId principal.userId
      principal.deviceKeyId)
    (hcreate : system.createApiKey services principal name draws now = .ok (next, answer)) :
    AccessInvariant services next := by
  have htransact : system.transact services principal (.create name) draws now =
      .ok (next, answer) := hcreate
  have later := (later_of_transact htransact).keys
  obtain ⟨hfresh, hhash, _, rfl, _⟩ := createApiKey_eq_ok hcreate
  refine { h with
    history := fun k => ?_
    hashes := fun a ha b hb hsame => ?_
    bound := fun key hkey => ?_
    answered := fun i k hanswer => ?_ }
  · have hold := h.history k
    rw [eventsOf_cons]
    change _ = keyHistory ((system.apiKeys.set _).find k)
    rw [Table.find_set]
    by_cases hk : draws.keyId = k
    · subst hk
      rw [hfresh] at hold
      rw [if_pos rfl, hold]
      exact (if_pos rfl).symm ▸ rfl
    · rw [if_neg hk, hold]
      exact (if_neg (Ne.symm hk)).symm ▸ rfl
  · rcases Table.mem_set.mp ha with rfl | ⟨hold, _⟩
    · rcases Table.mem_set.mp hb with rfl | ⟨hold', _⟩
      · rfl
      · exact absurd hsame.symm (hhash b hold')
    · rcases Table.mem_set.mp hb with rfl | ⟨hold', _⟩
      · exact absurd hsame (hhash a hold)
      · exact h.hashes a hold b hold' hsame
  · rcases Table.mem_set.mp hkey with rfl | ⟨hold, _⟩
    · exact hknown
    · exact h.bound key hold
  · obtain ⟨key, hfind, hrevoked⟩ := h.answered i k hanswer
    obtain ⟨key', hfind', hsame⟩ := later _ _ hfind
    exact ⟨key', hfind', by rw [hsame.revoked hrevoked]; exact hrevoked⟩

/-- The request that revokes a key is the only one that is told so. -/
theorem AccessInvariant.revoke (h : AccessInvariant services system) {principal : Principal}
    {keyId : Uuid} {draws : KeyDraws} {now : Int} {answer : KeyAnswer}
    (hrevoke : system.revokeApiKey principal keyId draws now = .ok (next, answer)) :
    AccessInvariant services next ∧ ∀ k, answer = .revoked k true →
      (∃ key, next.apiKeys.find k = some key ∧ key.revokedAt ≠ none) ∧
        ∀ j, next.requests j ≠ .answered (.ok (.revoked k true)) := by
  have htransact : system.transact services principal (.revoke keyId) draws now =
      .ok (next, answer) := hrevoke
  have later := (later_of_transact htransact).keys
  obtain ⟨key, hfind, howner, hcase⟩ := revokeApiKey_eq_ok hrevoke
  rcases hcase with ⟨_, rfl, rfl⟩ | ⟨hvalid, _, rfl, rfl⟩
  · exact ⟨h, fun k hanswer => by cases hanswer⟩
  · have hrow : (system.revokeKeyRow keyId now).apiKeys.find keyId =
        some { key with revokedAt := some now } := by
      rw [AccessSystem.revokeKeyRow, Table.find_mapRows, hfind, Option.map_some,
        if_pos (Table.key_of_find hfind)]
    constructor
    · refine { h with
        history := fun k => ?_
        hashes := ?_
        bound := fun other hother => ?_
        answered := fun i k hanswer => ?_ }
      · have hold := h.history k
        rw [eventsOf_cons]
        by_cases hk : keyId = k
        · subst hk
          change _ = keyHistory ((system.revokeKeyRow keyId now).apiKeys.find keyId)
          rw [hfind] at hold
          rw [hrow, if_pos rfl, hold]
          simp only [keyHistory, hvalid, howner]
        · rw [if_neg hk, hold]
          change _ = keyHistory ((system.revokeKeyRow keyId now).apiKeys.find k)
          rw [AccessSystem.revokeKeyRow, Table.find_mapRows]
          cases hother : system.apiKeys.find k with
          | none => rfl
          | some other =>
              have hid : other.id ≠ keyId := fun heq =>
                hk (heq.symm.trans (Table.key_of_find hother))
              rw [Option.map_some, if_neg hid]
      · refine h.hashes.map rfl fun other => ?_
        split <;> rfl
      · obtain ⟨old, hold, rfl⟩ := List.mem_map.mp hother
        have hbound := h.bound old hold
        split
        · exact hbound
        · exact hbound
      · obtain ⟨other, hother, hrevoked⟩ := h.answered i k hanswer
        obtain ⟨other', hother', hsame⟩ := later _ _ hother
        exact ⟨other', hother', by rw [hsame.revoked hrevoked]; exact hrevoked⟩
    · intro k hanswer
      cases hanswer
      refine ⟨⟨_, hrow, fun hnone => by cases hnone⟩, fun j hj => ?_⟩
      obtain ⟨other, hother, hrevoked⟩ := h.answered j keyId hj
      obtain rfl := Option.some.inj (hfind.symm.trans hother)
      exact hrevoked hvalid

theorem AccessInvariant.step (h : AccessInvariant services system)
    {event : AccessSystem.AccessEvent}
    (hstep : AccessSystem.step services event system = some next) :
    AccessInvariant services next := by
  cases event with
  | auth event =>
      simp only [AccessSystem.step, Option.bind_eq_bind, Option.bind_eq_some_iff,
        Option.guard_eq_some', exists_const] at hstep
      obtain ⟨hdrawn, auth, hauth, hnext⟩ := hstep
      cases hnext
      exact h.ofAuth (h.drawn.step hdrawn hauth) (sessionsKept_step hauth)
  | ask i request authorization now =>
      simp only [AccessSystem.step] at hstep
      split at hstep
      · split at hstep
        · cases hstep
          exact h.setRequest (fun _ _ hstage => by cases hstage) fun _ hanswer => by cases hanswer
        · rename_i principal db hfound
          have seen := h.seen hfound
          split at hstep <;> cases hstep
          · exact seen.setRequest (fun _ _ hstage => by cases hstage) fun _ hanswer => by
              cases hanswer
          · refine seen.setRequest (fun other request' hstage => ?_) fun _ hanswer => by
              cases hanswer
            cases hstage
            exact (live_of_authenticate hfound).known.later
              (later_of_authenticate hfound).sessions
      · cases hstep
  | commit i draws now =>
      simp only [AccessSystem.step] at hstep
      split at hstep
      · rename_i principal request hstage
        split at hstep
        · cases hstep
          exact h.setRequest (fun _ _ hstage => by cases hstage) fun _ hanswer => by cases hanswer
        · rename_i done answer hdone
          cases hstep
          cases request with
          | create name =>
              obtain ⟨_, _, _, _, hanswer⟩ := createApiKey_eq_ok hdone
              refine (h.create (h.stages i principal _ hstage) hdone).setRequest
                (fun _ _ hstage => by cases hstage) fun keyId hsame => ?_
              rw [hanswer] at hsame
              cases hsame
          | revoke keyId =>
              obtain ⟨kept, hanswer⟩ := h.revoke hdone
              refine kept.setRequest (fun _ _ hstage => by cases hstage) fun k hsame => ?_
              cases hsame
              exact hanswer k rfl
      · cases hstep
  | infer authorization now =>
      simp only [AccessSystem.step] at hstep
      split at hstep <;> cases hstep
      · exact h
      · rename_i hfound
        obtain ⟨_, _, ⟨_, db, hdb, rfl⟩ | ⟨_, _, _, keyId, _, rfl⟩⟩ := infer_eq_ok hfound
        · exact h.seen hdb
        · exact h.touchKey keyId now

end Steps

section Runs

theorem initial_accessInvariant : AccessInvariant services .initial where
  drawn _ h := by cases h
  history _ := rfl
  hashes _ h := by cases h
  stages _ _ _ h := by cases h
  bound _ h := by cases h
  answered _ _ h := by cases h
  single _ _ _ h := by cases h

theorem AccessInvariant.run (h : AccessInvariant services system)
    (events : List AccessSystem.AccessEvent) :
    AccessInvariant services (AccessSystem.perform services events system) := by
  induction events generalizing system with
  | nil => exact h
  | cons event events ih =>
      have first : AccessInvariant services
          ((AccessSystem.step services event system).getD system) := by
        cases hstep : AccessSystem.step services event system with
        | none => exact h
        | some next => exact h.step hstep
      exact ih first

/-- What access means in a state and in all states after it. -/
structure AccessControl (services : AuthServices) (system : AccessSystem) : Prop where
  /-- Nobody is let in again for a session that is revoked. -/
  sessions : ∀ later authorization now principal next,
    (AccessSystem.perform services later system).authenticateInference services authorization now =
      .ok (principal, next) →
    ∀ session, system.auth.db.sessions.find principal.sessionId = some session →
      session.revokedAt = none ∧ session.userId = principal.userId ∧
        session.deviceKeyId = some principal.deviceKeyId
  /-- Nobody is let in again with a key that is revoked. -/
  keys : ∀ later authorization token now principal next,
    bearerToken "缺少 Bearer API Key" authorization = .ok token →
    AccessSystem.isApiKey token = true →
    (AccessSystem.perform services later system).authenticateInference services authorization now =
      .ok (principal, next) →
    ∀ key ∈ system.apiKeys.rows, key.keyHash = services.hash token →
      key.revokedAt = none ∧ principal.userId = key.userId ∧
        principal.sessionId = key.createdBySessionId ∧ principal.deviceKeyId = key.deviceKeyId
  /-- After a logout the device is let in only for a session that was issued later. -/
  loggedOut : ∀ refreshToken moment session deviceKeyId,
    (system.auth.db.sessions.rows.find? fun session =>
      session.refreshTokenHash = services.hash refreshToken) = some session →
    session.deviceKeyId = some deviceKeyId →
    ∀ later authorization now principal next,
      (AccessSystem.perform services (.auth (.logout refreshToken moment) :: later)
        system).authenticateInference services authorization now = .ok (principal, next) →
      principal.deviceKeyId = deviceKeyId →
      system.auth.db.sessions.find principal.sessionId = none
  /-- An API key is let in for inference only, unless it collides with another token. -/
  management : ∀ authorization token now principal db,
    bearerToken "缺少 Bearer 访问令牌" authorization = .ok token →
    AccessSystem.isApiKey token = true →
    authenticate services system.auth.db authorization now = .ok (principal, db) →
    ∃ other, other ≠ token ∧ services.hash other = services.hash token
  history : ∀ keyId, eventsOf system.keyEvents keyId = keyHistory (system.apiKeys.find keyId)
  bound : ∀ key ∈ system.apiKeys.rows,
    Known system.auth.db.sessions key.createdBySessionId key.userId key.deviceKeyId
  /-- One request at most is told that it has revoked a key. -/
  single : ∀ i j keyId, system.requests i = .answered (.ok (.revoked keyId true)) →
    system.requests j = .answered (.ok (.revoked keyId true)) → i = j

theorem not_revoked_of_infer (later : List AccessSystem.AccessEvent)
    {authorization : Option String} {now : Int} {principal : Principal}
    (h : (AccessSystem.perform services later system).authenticateInference services authorization
      now = .ok (principal, next)) {session : Session}
    (hfind : system.auth.db.sessions.find principal.sessionId = some session) :
    session.revokedAt = none ∧ session.userId = principal.userId ∧
      session.deviceKeyId = some principal.deviceKeyId := by
  obtain ⟨last, hlast, hvalid, huser, hdevice⟩ := (live_of_infer h).session
  have grown : AccessLater system (AccessSystem.perform services later system) :=
    later_of_perform later system
  obtain ⟨kept, hkept, hsame⟩ := grown.sessions _ _ hfind
  obtain rfl := Option.some.inj (hlast.symm.trans hkept)
  refine ⟨?_, hsame.1.symm.trans huser, hsame.2.1.symm.trans hdevice⟩
  by_contra hrevoked
  rw [hsame.2.2 hrevoked] at hvalid
  exact hrevoked hvalid

/-- A logout revokes every session of the device. -/
theorem revoked_of_logout {refreshToken : String} (now : Int) {session other : Session}
    {deviceKeyId sessionId : Uuid}
    (hfound : (system.auth.db.sessions.rows.find? fun session =>
      session.refreshTokenHash = services.hash refreshToken) = some session)
    (hdevice : session.deviceKeyId = some deviceKeyId)
    (hother : system.auth.db.sessions.find sessionId = some other)
    (hsame : other.deviceKeyId = some deviceKeyId) :
    ∃ next, AccessSystem.step services (.auth (.logout refreshToken now)) system = some next ∧
      ∃ revoked, next.auth.db.sessions.find sessionId = some revoked ∧
        revoked.revokedAt ≠ none := by
  have hlogout : authLogout services system.auth.db refreshToken now =
      .ok ((system.auth.db.revokeSessions (fun other =>
        other.deviceKeyId = some deviceKeyId) now).revokeDeviceKey deviceKeyId now) := by
    simp only [authLogout, hfound, hdevice]
  refine ⟨{ system with auth := { system.auth with db :=
    (system.auth.db.revokeSessions (fun other =>
      other.deviceKeyId = some deviceKeyId) now).revokeDeviceKey deviceKeyId now } }, ?_, ?_⟩
  · simp only [AccessSystem.step, AccessSystem.WellDrawn, AuthSystem.step, hlogout]
    rfl
  · refine ⟨{ other with revokedAt := revokedSince now other.revokedAt }, ?_, ?_⟩
    · change (system.auth.db.revokeSessions _ now).sessions.find sessionId = _
      rw [AuthDb.revokeSessions, Table.find_mapRows, hother, Option.map_some,
        if_pos (decide_eq_true hsame)]
    · cases hat : other.revokedAt with
      | none => exact fun h => by cases h
      | some _ => exact fun h => by cases h

theorem access_control (services : AuthServices) (events : List AccessSystem.AccessEvent) :
    AccessControl services (AccessSystem.perform services events .initial) := by
  have initial : AccessInvariant services .initial := initial_accessInvariant
  have h := initial.run events
  refine {
    sessions := fun later authorization now principal next haccept session hfind =>
      not_revoked_of_infer later haccept hfind
    keys := ?_
    loggedOut := ?_
    management := ?_
    history := h.history
    bound := h.bound
    single := h.single }
  · intro later authorization token now principal next htoken hkey haccept key hmem hhash
    have last := h.run later
    obtain ⟨found, hfound, hsame, hvalid, huser, hsession, hdevice⟩ :=
      key_of_infer htoken hkey haccept
    have grown : AccessLater (AccessSystem.perform services events .initial)
        (AccessSystem.perform services later (AccessSystem.perform services events .initial)) :=
      later_of_perform later _
    obtain ⟨kept, hkept, hrow⟩ := grown.keys _ _ (Table.find_of_mem hmem)
    obtain rfl := last.hashes found hfound kept (Table.mem_of_find hkept)
      (hsame.trans (hhash.symm.trans hrow.keyHash.symm))
    refine ⟨?_, huser.trans hrow.userId, hsession.trans hrow.createdBySessionId,
      hdevice.trans hrow.deviceKeyId⟩
    by_contra hrevoked
    rw [hrow.revoked hrevoked] at hvalid
    exact hrevoked hvalid
  · intro refreshToken moment session deviceKeyId hfound hdevice later authorization now principal next
      haccept hsame
    rw [← Option.not_isSome_iff_eq_none]
    intro hsome
    obtain ⟨other, hother⟩ := Option.isSome_iff_exists.mp hsome
    have hbefore :=
      not_revoked_of_infer (.auth (.logout refreshToken moment) :: later) haccept hother
    obtain ⟨out, hout, revoked, hrevoked, hnot⟩ :=
      revoked_of_logout moment hfound hdevice hother
        (hbefore.2.2.trans (congrArg some hsame))
    rw [AccessSystem.perform, List.foldl_cons, hout, Option.getD_some] at haccept
    exact hnot (not_revoked_of_infer later haccept hrevoked).1
  · intro authorization token now principal db htoken hkey haccept
    obtain ⟨presented, hpresented, hfound, _⟩ := authenticate_eq_ok haccept
    cases hpresented.symm.trans htoken
    obtain ⟨session, hsession, hsigned⟩ := List.exists_of_findSome?_eq_some hfound
    obtain ⟨drawn, hprefixed, hhash⟩ := h.drawn session hsession
    refine ⟨drawn, ?_, hhash.symm.trans (signedIn_eq_some hsession hsigned).1⟩
    rintro rfl
    rw [AccessSystem.isApiKey, hprefixed] at hkey
    revert hkey
    decide

end Runs

end MindOne.Auth
