import MindOne.Auth.ApiKeys
import MindOne.Lib.TableEvolution

/-!
# Access that has been revoked

A revoked session and a revoked key are never accepted again, whatever logins, refreshes and
requests come after: a device that logs in again makes its device key valid again, and not
the sessions that were revoked with it, nor the API keys that were created under them.
-/

namespace MindOne.Auth

open CheckedArithmetic Coordinator KeyedTable
open MindOne.Stream (okOr okOr_eq_ok)

variable {services : AuthServices}

section Evolution

/-- A session keeps its owner, and stays revoked. -/
def SessionKept (session session' : Session) : Prop :=
  session'.userId = session.userId ∧ session'.deviceKeyId = session.deviceKeyId ∧
    (session.revokedAt ≠ none → session'.revokedAt = session.revokedAt)

/-- What a key is bound to never changes, and it stays revoked. -/
structure KeyKept (key key' : ApiKey) : Prop where
  userId : key'.userId = key.userId
  createdBySessionId : key'.createdBySessionId = key.createdBySessionId
  deviceKeyId : key'.deviceKeyId = key.deviceKeyId
  keyHash : key'.keyHash = key.keyHash
  revoked : key.revokedAt ≠ none → key'.revokedAt = key.revokedAt

theorem SessionKept.refl (session : Session) : SessionKept session session := ⟨rfl, rfl, fun _ => rfl⟩

theorem SessionKept.trans {a b c : Session} (h : SessionKept a b) (h' : SessionKept b c) :
    SessionKept a c := by
  refine ⟨h'.1.trans h.1, h'.2.1.trans h.2.1, fun hrevoked => ?_⟩
  have hsame := h.2.2 hrevoked
  exact (h'.2.2 (hsame ▸ hrevoked)).trans hsame

theorem KeyKept.refl (key : ApiKey) : KeyKept key key := ⟨rfl, rfl, rfl, rfl, fun _ => rfl⟩

theorem KeyKept.trans {a b c : ApiKey} (h : KeyKept a b) (h' : KeyKept b c) : KeyKept a c where
  userId := h'.userId.trans h.userId
  createdBySessionId := h'.createdBySessionId.trans h.createdBySessionId
  deviceKeyId := h'.deviceKeyId.trans h.deviceKeyId
  keyHash := h'.keyHash.trans h.keyHash
  revoked := fun hrevoked => by
    have hsame := h.revoked hrevoked
    exact (h'.revoked (hsame ▸ hrevoked)).trans hsame

/-- What no event takes back. -/
structure AccessLater (system next : AccessSystem) : Prop where
  sessions : Table.Evolves SessionKept system.auth.db.sessions next.auth.db.sessions
  keys : Table.Evolves KeyKept system.apiKeys next.apiKeys

theorem AccessLater.refl (system : AccessSystem) : AccessLater system system :=
  ⟨.refl SessionKept.refl _, .refl KeyKept.refl _⟩

theorem AccessLater.trans {a b c : AccessSystem} (h : AccessLater a b) (h' : AccessLater b c) :
    AccessLater a c :=
  ⟨h.sessions.trans (fun _ _ _ => SessionKept.trans) h'.sessions,
    h.keys.trans (fun _ _ _ => KeyKept.trans) h'.keys⟩

end Evolution

section Sessions
variable {db next : AuthDb}

theorem sessionsKept_touch (sessionId : Uuid) (now : Int) :
    Table.Evolves SessionKept db.sessions (db.touchSession sessionId now).sessions := by
  refine Table.evolves_map (fun _ => by rw [AuthDb.touchSession, Table.find_mapRows]) ?_
  intro session
  split
  · exact ⟨rfl, rfl, fun _ => rfl⟩
  · exact .refl session

theorem sessionsKept_revoke (which : Session → Bool) (now : Int) :
    Table.Evolves SessionKept db.sessions (db.revokeSessions which now).sessions := by
  refine Table.evolves_map (fun _ => by rw [AuthDb.revokeSessions, Table.find_mapRows]) ?_
  intro session
  split
  · exact ⟨rfl, rfl, fun hrevoked => AuthSystem.revokedSince_of_revoked hrevoked⟩
  · exact .refl session

/-- Only a valid session is refreshed. -/
theorem sessionsKept_refresh {request : RefreshRequest} {draws : Draws} {now : Int}
    (h : authRefresh services db request draws now = .ok next) :
    Table.Evolves SessionKept db.sessions next.sessions := by
  unfold authRefresh at h
  split at h
  · cases h
  · rename_i old hfound
    have hrefreshable := List.find?_some hfound
    simp only [refreshable, decide_eq_true_eq] at hrefreshable
    split at h
    · simp only [bind_eq_ok] at h
      obtain ⟨_, _, hnext⟩ := h
      cases hnext
      refine Table.evolves_set SessionKept.refl fun other hother => ?_
      have hfind := Table.find_of_mem (List.mem_of_find?_eq_some hfound)
      obtain rfl := Option.some.inj (hfind.symm.trans hother)
      exact ⟨rfl, rfl, fun hrevoked => absurd hrefreshable.2.1 hrevoked⟩
    · cases h

theorem sessionsKept_logout {refreshToken : String} {now : Int}
    (h : authLogout services db refreshToken now = .ok next) :
    Table.Evolves SessionKept db.sessions next.sessions := by
  unfold authLogout at h
  split at h
  · cases h
  · split at h <;> cases h
    · exact sessionsKept_revoke _ _
    · exact sessionsKept_revoke _ _

theorem sessionsKept_authorize {system : AuthSystem} {i : Nat} {flow : DeviceFlow} {key : BoundKey}
    {identity : ProviderIdentity} {draws : Draws} {now : Int}
    (hfresh : system.Fresh services draws) :
    Table.Evolves SessionKept system.db.sessions
      (system.authorize services i flow key identity draws now).db.sessions := by
  unfold AuthSystem.authorize
  split
  · exact .refl SessionKept.refl _
  · rename_i db hexpired
    change Table.Evolves SessionKept system.db.sessions db.sessions
    rw [(AuthSystem.authorizeFlow_expired hexpired).2]
    exact .refl SessionKept.refl _
  · rename_i db hissued
    obtain ⟨session, hid, _, hsessions⟩ := (AuthSystem.authorizeFlow_issued hissued).sessions
    change Table.Evolves SessionKept system.db.sessions db.sessions
    rw [hsessions]
    refine Table.evolves_set SessionKept.refl fun old hold => ?_
    rw [hid, hfresh.2.1] at hold
    cases hold

theorem sessionsKept_step {system system' : AuthSystem} {event : AuthEvent}
    (h : AuthSystem.step services event system = some system') :
    Table.Evolves SessionKept system.db.sessions system'.db.sessions := by
  cases event with
  | start flow =>
      simp only [AuthSystem.step] at h
      split at h <;> cases h
      exact .refl SessionKept.refl _
  | poll i _ | read i _ | hear i _ | providerFailed i | expireOverdue i | note i _ | slowDown i
  | deny i _ | expire i _ =>
      simp only [AuthSystem.step] at h
      split at h <;> cases h
      exact .refl SessionKept.refl _
  | authorize i draws now =>
      simp only [AuthSystem.step] at h
      split at h
      · split at h <;> cases h
        exact sessionsKept_authorize ‹_›
      · cases h
  | refresh request draws now =>
      simp only [AuthSystem.step] at h
      split at h
      · split at h <;> cases h
        · exact .refl SessionKept.refl _
        · exact sessionsKept_refresh ‹_›
      · cases h
  | logout refreshToken now =>
      simp only [AuthSystem.step] at h
      split at h <;> cases h
      · exact .refl SessionKept.refl _
      · exact sessionsKept_logout ‹_›

end Sessions

section Keys
variable {system next : AccessSystem}

theorem addEvent_eq_ok {event : ApiKeyEvent} (h : system.addEvent event = .ok next) :
    (∀ old ∈ system.keyEvents, old.apiKeyId = event.apiKeyId → old.eventType ≠ event.eventType) ∧
      next = { system with keyEvents := event :: system.keyEvents } := by
  simp only [AccessSystem.addEvent, bind_eq_ok, rejectIf_eq_ok, exists_const, List.any_eq_true,
    Bool.or_eq_true, Bool.and_eq_true, beq_iff_eq] at h
  obtain ⟨hnew, hnext⟩ := h
  cases hnext
  exact ⟨fun old hold hkey htype => hnew ⟨old, hold, .inr ⟨hkey, htype⟩⟩, rfl⟩

/-- The row of a new key. -/
def newKey (services : AuthServices) (principal : Principal) (name : String) (draws : KeyDraws)
    (now : Int) : ApiKey where
  id := draws.keyId
  userId := principal.userId
  createdBySessionId := principal.sessionId
  deviceKeyId := principal.deviceKeyId
  name := name
  keyPrefix := String.ofList (("mok_" ++ draws.secret).toList.take 12)
  keyHash := services.hash ("mok_" ++ draws.secret)
  createdAt := now
  lastUsedAt := none
  revokedAt := none

theorem createApiKey_eq_ok {principal : Principal} {name : String} {draws : KeyDraws} {now : Int}
    {answer : KeyAnswer}
    (h : system.createApiKey services principal name draws now = .ok (next, answer)) :
    system.apiKeys.find draws.keyId = none ∧
      (∀ key ∈ system.apiKeys.rows,
        key.keyHash ≠ (newKey services principal name draws now).keyHash) ∧
      (∀ old ∈ system.keyEvents, old.apiKeyId = draws.keyId → old.eventType ≠ .created) ∧
      next = { system with
        apiKeys := system.apiKeys.set (newKey services principal name draws now)
        keyEvents := ⟨draws.eventId, draws.keyId, principal.userId, .created, now⟩ ::
          system.keyEvents } ∧
      answer = .created ("mok_" ++ draws.secret) (newKey services principal name draws now) := by
  simp only [AccessSystem.createApiKey, bind_eq_ok, rejectIf_eq_ok, exists_const, not_or,
    not_not, List.any_eq_true, beq_iff_eq] at h
  obtain ⟨_, ⟨hfresh, hhash, _⟩, created, hevent, hnext⟩ := h
  obtain ⟨hnew, rfl⟩ := addEvent_eq_ok hevent
  cases hnext
  exact ⟨hfresh, fun key hkey hsame => hhash ⟨key, hkey, hsame⟩, hnew, rfl, rfl⟩

/-- A key is revoked by the first request that finds it valid. -/
theorem revokeApiKey_eq_ok {principal : Principal} {keyId : Uuid} {draws : KeyDraws} {now : Int}
    {answer : KeyAnswer}
    (h : system.revokeApiKey principal keyId draws now = .ok (next, answer)) :
    ∃ key, system.apiKeys.find keyId = some key ∧ key.userId = principal.userId ∧
      ((key.revokedAt ≠ none ∧ next = system ∧ answer = .revoked keyId false) ∨
        (key.revokedAt = none ∧
          (∀ old ∈ system.keyEvents, old.apiKeyId = keyId → old.eventType ≠ .revoked) ∧
          next = { system.revokeKeyRow keyId now with
            keyEvents := ⟨draws.eventId, keyId, principal.userId, .revoked, now⟩ ::
              system.keyEvents } ∧ answer = .revoked keyId true)) := by
  simp only [AccessSystem.revokeApiKey, bind_eq_ok, okOr_eq_ok, Option.filter_eq_some_iff,
    beq_iff_eq] at h
  obtain ⟨key, ⟨hfind, howner⟩, hrest⟩ := h
  refine ⟨key, hfind, howner, ?_⟩
  split at hrest
  · rename_i hvalid
    simp only [bind_eq_ok] at hrest
    obtain ⟨revoked, hevent, hnext⟩ := hrest
    obtain ⟨hnew, rfl⟩ := addEvent_eq_ok hevent
    cases hnext
    exact .inr ⟨hvalid, hnew, rfl, rfl⟩
  · rename_i hrevoked
    cases hrest
    exact .inl ⟨hrevoked, rfl, rfl⟩

theorem keysKept_touch (keyId : Uuid) (now : Int) :
    Table.Evolves KeyKept system.apiKeys (system.touchKey keyId now).apiKeys := by
  refine Table.evolves_map (fun _ => by rw [AccessSystem.touchKey, Table.find_mapRows]) ?_
  intro key
  split
  · exact ⟨rfl, rfl, rfl, rfl, fun _ => rfl⟩
  · exact .refl key

theorem keysKept_revoke {keyId : Uuid} {now : Int} {key : ApiKey}
    (hfind : system.apiKeys.find keyId = some key) (hvalid : key.revokedAt = none) :
    Table.Evolves KeyKept system.apiKeys (system.revokeKeyRow keyId now).apiKeys := by
  intro k row hrow
  rw [AccessSystem.revokeKeyRow, Table.find_mapRows, hrow]
  refine ⟨_, rfl, ?_⟩
  dsimp only
  split
  · rename_i hid
    obtain rfl : k = keyId := (Table.key_of_find hrow).symm.trans hid
    obtain rfl := Option.some.inj (hfind.symm.trans hrow)
    exact ⟨rfl, rfl, rfl, rfl, fun hrevoked => absurd hvalid hrevoked⟩
  · exact .refl row

theorem later_of_transact {principal : Principal} {request : KeyRequest} {draws : KeyDraws}
    {now : Int} {answer : KeyAnswer}
    (h : system.transact services principal request draws now = .ok (next, answer)) :
    AccessLater system next := by
  cases request with
  | create name =>
      obtain ⟨hfresh, _, _, rfl, _⟩ := createApiKey_eq_ok h
      refine { AccessLater.refl system with
        keys := Table.evolves_set KeyKept.refl fun old hold => ?_ }
      rw [newKey, hfresh] at hold
      cases hold
  | revoke keyId =>
      obtain ⟨key, hfind, _, ⟨_, rfl, _⟩ | ⟨hvalid, _, rfl, _⟩⟩ := revokeApiKey_eq_ok h
      · exact .refl _
      · exact { AccessLater.refl system with keys := keysKept_revoke hfind hvalid }

theorem authenticate_eq_ok {db db' : AuthDb} {authorization : Option String} {now : Int}
    {principal : Principal} (h : authenticate services db authorization now = .ok (principal, db')) :
    ∃ token, bearerToken "缺少 Bearer 访问令牌" authorization = .ok token ∧
      db.sessions.rows.findSome? (signedIn db (services.hash token) now) = some principal ∧
      db' = db.touchSession principal.sessionId now := by
  simp only [authenticate, bind_eq_ok, okOr_eq_ok] at h
  obtain ⟨token, htoken, found, hfound, hnext⟩ := h
  cases hnext
  exact ⟨token, htoken, hfound, rfl⟩

theorem later_of_authenticate {db : AuthDb} {authorization : Option String} {now : Int}
    {principal : Principal}
    (h : authenticate services system.auth.db authorization now = .ok (principal, db)) :
    AccessLater system { system with auth := { system.auth with db } } := by
  obtain ⟨_, _, _, rfl⟩ := authenticate_eq_ok h
  exact { AccessLater.refl system with sessions := sessionsKept_touch _ _ }

/-- A request for inference is let in by an access token or by an API key. -/
theorem infer_eq_ok {authorization : Option String} {now : Int} {principal : Principal}
    (h : system.authenticateInference services authorization now = .ok (principal, next)) :
    ∃ token, bearerToken "缺少 Bearer API Key" authorization = .ok token ∧
      ((AccessSystem.isApiKey token = false ∧
          ∃ db, authenticate services system.auth.db authorization now = .ok (principal, db) ∧
            next = { system with auth := { system.auth with db } }) ∨
        (AccessSystem.isApiKey token = true ∧ ∃ key ∈ system.apiKeys.rows, ∃ keyId,
          system.keyOwner (services.hash token) key = some (principal, keyId) ∧
            next = system.touchKey keyId now)) := by
  simp only [AccessSystem.authenticateInference, bind_eq_ok] at h
  obtain ⟨token, htoken, h⟩ := h
  refine ⟨token, htoken, ?_⟩
  split at h
  · rename_i hplain
    simp only [bind_eq_ok] at h
    obtain ⟨⟨found, db⟩, hfound, hnext⟩ := h
    cases hnext
    exact .inl ⟨hplain, db, hfound, rfl⟩
  · rename_i hkey
    simp only [bind_eq_ok, okOr_eq_ok] at h
    obtain ⟨⟨found, keyId⟩, hfound, hnext⟩ := h
    cases hnext
    obtain ⟨key, hmem, howner⟩ := List.exists_of_findSome?_eq_some hfound
    exact .inr ⟨eq_true_of_ne_false hkey, key, hmem, keyId, howner, rfl⟩

theorem later_of_infer {authorization : Option String} {now : Int} {principal : Principal}
    (h : system.authenticateInference services authorization now = .ok (principal, next)) :
    AccessLater system next := by
  obtain ⟨token, _, ⟨_, db, hfound, rfl⟩ | ⟨_, key, _, keyId, _, rfl⟩⟩ := infer_eq_ok h
  · exact later_of_authenticate hfound
  · exact { AccessLater.refl system with keys := keysKept_touch _ _ }

theorem later_of_step {event : AccessSystem.AccessEvent}
    (h : AccessSystem.step services event system = some next) : AccessLater system next := by
  cases event with
  | auth event =>
      simp only [AccessSystem.step, Option.bind_eq_bind, Option.bind_eq_some_iff] at h
      obtain ⟨_, _, auth, hauth, hnext⟩ := h
      cases hnext
      exact { AccessLater.refl system with sessions := sessionsKept_step hauth }
  | ask i request authorization now =>
      simp only [AccessSystem.step] at h
      split at h
      · split at h
        · cases h
          exact ⟨(AccessLater.refl system).sessions, (AccessLater.refl system).keys⟩
        · rename_i principal db hfound
          have later := later_of_authenticate hfound
          split at h <;> cases h
          · exact ⟨later.sessions, later.keys⟩
          · exact ⟨later.sessions, later.keys⟩
      · cases h
  | commit i draws now =>
      simp only [AccessSystem.step] at h
      split at h
      · split at h
        · cases h
          exact ⟨(AccessLater.refl system).sessions, (AccessLater.refl system).keys⟩
        · rename_i done answer hdone
          cases h
          have later := later_of_transact hdone
          exact ⟨later.sessions, later.keys⟩
      · cases h
  | infer authorization now =>
      simp only [AccessSystem.step] at h
      split at h <;> cases h
      · exact .refl system
      · exact later_of_infer ‹_›

theorem later_of_perform (events : List AccessSystem.AccessEvent) (system : AccessSystem) :
    AccessLater system (AccessSystem.perform services events system) := by
  induction events generalizing system with
  | nil => exact .refl system
  | cons event events ih =>
      have first : AccessLater system ((AccessSystem.step services event system).getD system) := by
        cases hstep : AccessSystem.step services event system with
        | none => exact .refl system
        | some next => exact later_of_step hstep
      exact first.trans (ih _)

end Keys

end MindOne.Auth
