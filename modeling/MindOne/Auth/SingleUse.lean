import Mathlib.Data.List.Nodup
import MindOne.Auth.DeviceFlows

/-!
# One session for a device login

A device login that has ended stays as it ended, issues one session at most, and a
refresh token is accepted once. The end is kept as long as a poll that was told of
a denial or an expiry writes it while the login is still pending: of the outcomes
of a poll only the authorized one looks at the login again. Logging out with the
token of a revoked session touches nothing as long as its device has not logged
in again.
-/

namespace MindOne.Auth

open CheckedArithmetic Coordinator KeyedTable LabelledRuns

/-- The flow may be given this status without losing another one. -/
def AuthDb.MayEnd (db : AuthDb) (flowId : Uuid) (status : FlowStatus) : Prop :=
  ∀ flow ∈ db.flows.find flowId, flow.status = .pending ∨ flow.status = status

/-- Neither the key of the session nor any session of the key is valid. -/
def AuthDb.Spent (db : AuthDb) (session : Session) : Prop :=
  ∀ keyId ∈ session.deviceKeyId,
    (∀ key ∈ db.deviceKeys.find keyId, key.revokedAt ≠ none) ∧
    ∀ other ∈ db.sessions.rows, other.deviceKeyId = some keyId → other.revokedAt ≠ none

instance (db : AuthDb) (flowId : Uuid) (status : FlowStatus) :
    Decidable (db.MayEnd flowId status) :=
  inferInstanceAs (Decidable (∀ flow ∈ db.flows.find flowId, _))

instance (db : AuthDb) (session : Session) : Decidable (db.Spent session) :=
  inferInstanceAs (Decidable (∀ keyId ∈ session.deviceKeyId, _ ∧ _))

namespace AuthSystem
variable (services : AuthServices)

/-- The write that a poll is about to make does not undo an end. -/
def EndsPending (db : AuthDb) : PollStage → Prop
  | .overdue flow | .expiring flow => db.MayEnd flow.id .expired
  | .denying flow => db.MayEnd flow.id .denied
  | _ => True

/-- A token of a revoked session is of no use any more when it is presented again. -/
def LogsOutOnce (db : AuthDb) (refreshToken : String) : Prop :=
  ∀ session ∈ db.sessions.rows, session.refreshTokenHash = services.hash refreshToken →
    session.revokedAt ≠ none → db.Spent session

def Orderly : List AuthEvent → AuthSystem → AuthEvent → Prop
  | _, system, .expireOverdue i | _, system, .deny i _ | _, system, .expire i _ =>
      EndsPending system.db (system.polls i)
  | _, system, .logout refreshToken _ => LogsOutOnce services system.db refreshToken
  | _, _, _ => True

instance (db : AuthDb) : (stage : PollStage) → Decidable (EndsPending db stage)
  | .overdue flow | .expiring flow => inferInstanceAs (Decidable (db.MayEnd flow.id .expired))
  | .denying flow => inferInstanceAs (Decidable (db.MayEnd flow.id .denied))
  | .idle | .received _ | .noting _ _ | .asking _ _ | .slowingDown _ | .authorizing _ _ _
  | .answered _ => inferInstanceAs (Decidable True)

instance (db : AuthDb) (refreshToken : String) :
    Decidable (LogsOutOnce services db refreshToken) :=
  inferInstanceAs (Decidable (∀ session ∈ db.sessions.rows, _))

instance (past : List AuthEvent) (system : AuthSystem) :
    (event : AuthEvent) → Decidable (Orderly services past system event)
  | .expireOverdue i | .deny i _ | .expire i _ =>
      inferInstanceAs (Decidable (EndsPending system.db (system.polls i)))
  | .logout refreshToken _ =>
      inferInstanceAs (Decidable (LogsOutOnce services system.db refreshToken))
  | .start _ | .poll _ _ | .read _ _ | .note _ _ | .hear _ _ | .providerFailed _ | .slowDown _
  | .authorize _ _ _ | .refresh _ _ _ => inferInstanceAs (Decidable True)

/-- The event presents the token of a session that is revoked. -/
def PresentsRevoked (system : AuthSystem) : AuthEvent → Prop
  | .refresh request _ _ => ∃ session ∈ system.db.sessions.rows,
      session.refreshTokenHash = services.hash request.refreshToken ∧ session.revokedAt ≠ none
  | .logout refreshToken _ => ∃ session ∈ system.db.sessions.rows,
      session.refreshTokenHash = services.hash refreshToken ∧ session.revokedAt ≠ none
  | _ => False

instance (system : AuthSystem) :
    (event : AuthEvent) → Decidable (PresentsRevoked services system event)
  | .refresh _ _ _ | .logout _ _ =>
      inferInstanceAs (Decidable (∃ session ∈ system.db.sessions.rows, _))
  | .start _ | .poll _ _ | .read _ _ | .expireOverdue _ | .note _ _ | .hear _ _
  | .providerFailed _ | .slowDown _ | .deny _ _ | .expire _ _ | .authorize _ _ _ =>
      inferInstanceAs (Decidable False)

/-- A flow that has ended is still there with the same status. -/
def StatusKept (flows flows' : Table DeviceFlow.id) : Prop :=
  ∀ flowId flow, flows.find flowId = some flow → flow.status ≠ .pending →
    ∃ flow', flows'.find flowId = some flow' ∧ flow'.status = flow.status

structure Sound (system : AuthSystem) : Prop where
  once : (system.issued.map Prod.fst).Nodup
  ended : ∀ entry ∈ system.issued, ∃ flow, system.db.flows.find entry.1 = some flow ∧
    flow.status ≠ .pending
  known : ∀ session ∈ system.db.sessions.rows, session.refreshTokenHash ∈ system.drawn
  apart : ∀ a ∈ system.db.sessions.rows, ∀ b ∈ system.db.sessions.rows,
    a.refreshTokenHash = b.refreshTokenHash → a.id = b.id
  gone : ∀ token ∈ system.accepted, services.hash token ∈ system.drawn ∧
    ∀ session ∈ system.db.sessions.rows, session.refreshTokenHash ≠ services.hash token
  accepted : system.accepted.Nodup

section Flows
variable {db : AuthDb} {flowId : Uuid} {change : DeviceFlow → DeviceFlow}
  {h : ∀ flow, (change flow).id = flow.id} {flows flows' flows'' : Table DeviceFlow.id}

theorem find_updateFlow (k : Uuid) : (db.updateFlow flowId change h).flows.find k =
    (db.flows.find k).map fun flow => if flow.id = flowId then change flow else flow := by
  simp only [AuthDb.updateFlow, Table.find_mapRows]

theorem StatusKept.refl : StatusKept flows flows := fun _ flow hfind _ => ⟨flow, hfind, rfl⟩

theorem StatusKept.trans (h : StatusKept flows flows') (h' : StatusKept flows' flows'') :
    StatusKept flows flows'' := by
  intro k flow hfind hended
  obtain ⟨flow', hfind', hstatus⟩ := h k flow hfind hended
  obtain ⟨flow'', hfind'', hstatus'⟩ := h' k flow' hfind' (hstatus ▸ hended)
  exact ⟨flow'', hfind'', hstatus'.trans hstatus⟩

variable (change) in
theorem statusKept_updateFlow (h : ∀ flow, (change flow).id = flow.id)
    (hchange : ∀ flow ∈ db.flows.find flowId, flow.status ≠ .pending →
      (change flow).status = flow.status) :
    StatusKept db.flows (db.updateFlow flowId change h).flows := by
  intro k flow hfind hended
  rw [find_updateFlow, hfind]
  refine ⟨if flow.id = flowId then change flow else flow, rfl, ?_⟩
  split
  · rename_i hid
    obtain rfl : k = flowId := (Table.key_of_find hfind).symm.trans hid
    exact hchange flow hfind hended
  · rfl

theorem statusKept_endFlow {status : FlowStatus} {completedAt : Option Int}
    (hmay : db.MayEnd flowId status) :
    StatusKept db.flows (db.endFlow flowId status completedAt).flows :=
  statusKept_updateFlow _ _ fun flow hfind hended => ((hmay flow hfind).resolve_left hended).symm

theorem statusKept_issueSession {services : AuthServices} {userId deviceKeyId : Uuid}
    {draws : Draws} {now : Int} (hflows : db.flows = flows)
    (hpending : ∀ flow ∈ flows.find flowId, flow.status = .pending) :
    StatusKept flows (db.issueSession services userId deviceKeyId flowId draws now).flows := by
  subst hflows
  exact statusKept_updateFlow _ (by exact fun _ => rfl) fun flow hfind hended =>
    absurd (hpending flow hfind) hended

theorem statusKept_set {flow : DeviceFlow} (hnone : flows.find flow.id = none) :
    StatusKept flows (flows.set flow) := by
  intro k old hfind hended
  have hne : k ≠ flow.id := by
    rintro rfl
    rw [hnone] at hfind
    cases hfind
  exact ⟨old, (Table.find_set_ne hne).trans hfind, rfl⟩

end Flows

section Authorize
variable {services} {db : AuthDb} {flowId : Uuid} {key : BoundKey} {identity : ProviderIdentity}
  {draws : Draws} {now : Int}

/-- An issued session ends a pending flow and changes no other session. -/
structure Issues (services : AuthServices) (flowId : Uuid) (draws : Draws) (db next : AuthDb) : Prop where
  pending : ∃ flow, db.flows.find flowId = some flow ∧ flow.status = .pending
  ended : ∃ flow, next.flows.find flowId = some flow ∧ flow.status = .authorized
  others : StatusKept db.flows next.flows
  sessions : ∃ session, session.id = draws.sessionId ∧
    session.refreshTokenHash = services.hash draws.refreshToken ∧
    next.sessions = db.sessions.set session

theorem authorizeFlow_expired {next : AuthDb}
    (h : authorizeFlow services db flowId key identity draws now = .expired next) :
    StatusKept db.flows next.flows ∧ next.sessions = db.sessions := by
  unfold authorizeFlow at h
  split at h
  · cases h
  · rename_i locked hlocked
    split at h
    · cases h
    · rename_i hpending
      split at h
      · cases h
        refine ⟨statusKept_endFlow fun flow hfind => .inl ?_, rfl⟩
        obtain rfl := Option.some.inj (hlocked.symm.trans hfind)
        exact not_not.mp hpending
      · split at h <;> cases h

theorem authorizeFlow_issued {next : AuthDb}
    (h : authorizeFlow services db flowId key identity draws now = .issued next) :
    Issues services flowId draws db next := by
  unfold authorizeFlow at h
  split at h
  · cases h
  · rename_i locked hlocked
    split at h
    · cases h
    · rename_i hpending
      have hpending : locked.status = .pending := not_not.mp hpending
      have hid : locked.id = flowId := Table.key_of_find hlocked
      split at h
      · cases h
      · split at h
        · cases h
        · cases h
          refine ⟨⟨locked, hlocked, hpending⟩, ?_, ?_, ⟨_, rfl, rfl, rfl⟩⟩
          · simp only [AuthDb.issueSession, find_updateFlow, hlocked, Option.map_some, hid, if_true]
            exact ⟨_, rfl, rfl⟩
          · refine statusKept_issueSession rfl fun flow hfind => ?_
            obtain rfl := Option.some.inj (hlocked.symm.trans hfind)
            exact hpending

end Authorize

section Steps
variable {services} {system next : AuthSystem}

theorem initial_sound : initial.Sound services where
  once := List.nodup_nil
  ended _ h := nomatch h
  known _ h := nomatch h
  apart _ h := nomatch h
  gone _ h := nomatch h
  accepted := List.nodup_nil

/-- A step that changes flows only. -/
theorem Sound.flows (h : system.Sound services)
    (hkept : StatusKept system.db.flows next.db.flows)
    (hsessions : next.db.sessions = system.db.sessions) (hdrawn : next.drawn = system.drawn)
    (hissued : next.issued = system.issued) (haccepted : next.accepted = system.accepted) :
    next.Sound services where
  once := hissued ▸ h.once
  ended entry hentry := by
    obtain ⟨flow, hfind, hended⟩ := h.ended entry (hissued ▸ hentry)
    obtain ⟨flow', hfind', hstatus⟩ := hkept entry.1 flow hfind hended
    exact ⟨flow', hfind', hstatus ▸ hended⟩
  known := by
    rw [hsessions, hdrawn]
    exact h.known
  apart := by
    rw [hsessions]
    exact h.apart
  gone := by
    rw [haccepted, hdrawn, hsessions]
    exact h.gone
  accepted := haccepted ▸ h.accepted

/-- A session that comes in, or gets new tokens, with a fresh refresh token. -/
theorem Sound.setSession {session : Session} {token : String} (h : system.Sound services)
    (hfresh : services.hash token ∉ system.drawn)
    (hhash : session.refreshTokenHash = services.hash token) :
    (∀ other ∈ (system.db.sessions.set session).rows,
      other.refreshTokenHash ∈ services.hash token :: system.drawn) ∧
    (∀ a ∈ (system.db.sessions.set session).rows, ∀ b ∈ (system.db.sessions.set session).rows,
      a.refreshTokenHash = b.refreshTokenHash → a.id = b.id) ∧
    ∀ used ∈ system.accepted, services.hash used ∈ services.hash token :: system.drawn ∧
      ∀ other ∈ (system.db.sessions.set session).rows,
        other.refreshTokenHash ≠ services.hash used := by
  have hother : ∀ other ∈ system.db.sessions.rows, other.refreshTokenHash ≠ services.hash token :=
    fun other hmem heq => hfresh (heq ▸ h.known other hmem)
  refine ⟨?_, ?_, ?_⟩
  · intro other hmem
    rcases Table.mem_set.mp hmem with rfl | ⟨hmem, -⟩
    · exact hhash ▸ List.mem_cons_self
    · exact List.mem_cons_of_mem _ (h.known other hmem)
  · intro a ha b hb heq
    rcases Table.mem_set.mp ha with rfl | ⟨ha', -⟩ <;> rcases Table.mem_set.mp hb with rfl | ⟨hb', -⟩
    · rfl
    · exact absurd (heq.symm.trans hhash) (hother b hb')
    · exact absurd (heq.trans hhash) (hother a ha')
    · exact h.apart a ha' b hb' heq
  · intro used hused
    obtain ⟨hknown, hgone⟩ := h.gone used hused
    refine ⟨List.mem_cons_of_mem _ hknown, fun other hmem => ?_⟩
    rcases Table.mem_set.mp hmem with rfl | ⟨hmem, -⟩
    · exact fun heq => hfresh (hhash.symm.trans heq ▸ hknown)
    · exact hgone other hmem

theorem Sound.issue {flowId : Uuid} {draws : Draws} (h : system.Sound services)
    (hfresh : system.Fresh services draws)
    (hissues : Issues services flowId draws system.db next.db)
    (hdrawn : next.drawn = services.hash draws.refreshToken :: system.drawn)
    (hissued : next.issued = (flowId, draws.sessionId) :: system.issued)
    (haccepted : next.accepted = system.accepted) : next.Sound services := by
  obtain ⟨session, -, hhash, hsessions⟩ := hissues.sessions
  obtain ⟨hknown, hapart, hgone⟩ := h.setSession hfresh.1 hhash
  rw [← hsessions, ← hdrawn] at hknown hgone
  rw [← hsessions] at hapart
  refine {
    once := ?_
    ended := ?_
    known := hknown
    apart := hapart
    gone := haccepted ▸ hgone
    accepted := haccepted ▸ h.accepted }
  · rw [hissued, List.map_cons, List.nodup_cons]
    refine ⟨fun hmem => ?_, h.once⟩
    obtain ⟨entry, hentry, hflow⟩ := List.mem_map.mp hmem
    obtain ⟨flow, hfind, hended⟩ := h.ended entry hentry
    obtain ⟨flow', hfind', hpending⟩ := hissues.pending
    have heq : flow = flow' := Option.some.inj (hfind.symm.trans ((congrArg _ hflow).trans hfind'))
    exact hended (heq ▸ hpending)
  · intro entry hentry
    rw [hissued] at hentry
    rcases List.mem_cons.mp hentry with rfl | hentry
    · obtain ⟨flow, hfind, hstatus⟩ := hissues.ended
      exact ⟨flow, hfind, fun h => nomatch hstatus.symm.trans h⟩
    · obtain ⟨flow, hfind, hended⟩ := h.ended entry hentry
      obtain ⟨flow', hfind', hstatus⟩ := hissues.others entry.1 flow hfind hended
      exact ⟨flow', hfind', hstatus ▸ hended⟩

theorem authRefresh_ok {request : RefreshRequest} {draws : Draws} {now : Int} {db next : AuthDb}
    (h : authRefresh services db request draws now = .ok next) :
    ∃ old session, old ∈ db.sessions.rows ∧ old.revokedAt = none ∧
      old.refreshTokenHash = services.hash request.refreshToken ∧ session.id = old.id ∧
      session.refreshTokenHash = services.hash draws.refreshToken ∧ next.flows = db.flows ∧
      next.deviceKeys = db.deviceKeys ∧ next.sessions = db.sessions.set session := by
  unfold authRefresh at h
  split at h
  · cases h
  · rename_i old hfound
    have hrefreshable := List.find?_some hfound
    simp only [refreshable, decide_eq_true_eq] at hrefreshable
    obtain ⟨hhash, hlive, -⟩ := hrefreshable
    split at h
    · simp only [bind_eq_ok] at h
      obtain ⟨-, -, hnext⟩ := h
      cases hnext
      refine ⟨old, _, List.mem_of_find?_eq_some hfound, hlive, hhash, ?_, ?_, rfl, rfl, rfl⟩ <;> rfl
    · cases h

theorem Sound.refresh {request : RefreshRequest} {draws : Draws} {now : Int} {db : AuthDb}
    (h : system.Sound services) (hfresh : system.Fresh services draws)
    (hrefresh : authRefresh services system.db request draws now = .ok db) :
    Sound services { system with
      db
      drawn := services.hash draws.refreshToken :: system.drawn
      accepted := request.refreshToken :: system.accepted } := by
  obtain ⟨old, session, hold, -, hhash, hid, hnew, hflows, -, hsessions⟩ := authRefresh_ok hrefresh
  obtain ⟨hknown, hapart, hgone⟩ := h.setSession hfresh.1 hnew
  rw [← hsessions] at hknown hapart hgone
  refine {
    once := h.once
    ended := fun entry hentry => hflows ▸ h.ended entry hentry
    known := hknown
    apart := hapart
    gone := ?_
    accepted := List.nodup_cons.mpr ⟨fun hmem => (h.gone _ hmem).2 old hold hhash, h.accepted⟩ }
  intro token htoken
  rcases List.mem_cons.mp htoken with rfl | htoken
  · refine ⟨List.mem_cons_of_mem _ (hhash ▸ h.known old hold), fun other hmem heq => ?_⟩
    rcases Table.mem_set.mp (hsessions ▸ hmem) with rfl | ⟨hmem, hne⟩
    · exact hfresh.1 (hnew.symm.trans (heq.trans hhash.symm) ▸ h.known old hold)
    · exact hne ((h.apart other hmem old hold (heq.trans hhash.symm)).trans hid.symm)
  · exact hgone token htoken

/-- A logout changes what is valid, and no token. -/
structure Revokes (db next : AuthDb) : Prop where
  flows : next.flows = db.flows
  sessions : ∀ session ∈ next.sessions.rows, ∃ earlier ∈ db.sessions.rows,
    earlier.id = session.id ∧ earlier.refreshTokenHash = session.refreshTokenHash

theorem revokes_revokeSessions (db : AuthDb) (which : Session → Bool) (now : Int) :
    Revokes db (db.revokeSessions which now) where
  flows := rfl
  sessions session hmem := by
    obtain ⟨earlier, hearlier, rfl⟩ := List.mem_map.mp hmem
    refine ⟨earlier, hearlier, ?_⟩
    split <;> exact ⟨rfl, rfl⟩

theorem authLogout_ok {refreshToken : String} {now : Int} {db next : AuthDb}
    (h : authLogout services db refreshToken now = .ok next) : Revokes db next := by
  unfold authLogout at h
  split at h
  · cases h
  · split at h <;> cases h
    · rename_i keyId _
      have hrevokes := revokes_revokeSessions db (fun other => other.deviceKeyId = some keyId) now
      exact ⟨hrevokes.flows, hrevokes.sessions⟩
    · exact revokes_revokeSessions db _ now

theorem Sound.logout {db : AuthDb} (h : system.Sound services) (hrevokes : Revokes system.db db) :
    Sound services { system with db } where
  once := h.once
  ended entry hentry := hrevokes.flows ▸ h.ended entry hentry
  known session hmem := by
    obtain ⟨earlier, hearlier, -, hhash⟩ := hrevokes.sessions session hmem
    exact hhash ▸ h.known earlier hearlier
  apart a ha b hb heq := by
    obtain ⟨a', ha', haid, hahash⟩ := hrevokes.sessions a ha
    obtain ⟨b', hb', hbid, hbhash⟩ := hrevokes.sessions b hb
    exact haid.symm.trans ((h.apart a' ha' b' hb' (hahash.trans (heq.trans hbhash.symm))).trans hbid)
  gone token htoken := by
    obtain ⟨hknown, hgone⟩ := h.gone token htoken
    refine ⟨hknown, fun session hmem => ?_⟩
    obtain ⟨earlier, hearlier, -, hhash⟩ := hrevokes.sessions session hmem
    exact hhash ▸ hgone earlier hearlier
  accepted := h.accepted

/-- What an orderly step leaves of the flows that have ended. -/
theorem step_statusKept {past : List AuthEvent} {event : AuthEvent}
    (ok : Orderly services past system event) (made : step services event system = some next) :
    StatusKept system.db.flows next.db.flows := by
  cases event with
  | start flow =>
      simp only [step, Option.ite_none_right_eq_some] at made
      obtain ⟨⟨hnone, -⟩, hnext⟩ := made
      cases hnext
      exact statusKept_set hnone
  | poll i request | read i now | hear i said | providerFailed i =>
      simp only [step] at made
      split at made <;> cases made
      exact .refl
  | expireOverdue i | deny i now | expire i now =>
      simp only [step] at made
      split at made <;> cases made
      rename_i hstage
      simp only [Orderly, hstage, EndsPending] at ok
      exact statusKept_endFlow ok
  | note i now =>
      simp only [step] at made
      split at made <;> cases made
      exact statusKept_updateFlow _ (by exact fun _ => rfl) fun _ _ _ => rfl
  | slowDown i =>
      simp only [step] at made
      split at made <;> cases made
      refine statusKept_updateFlow _ (by intro flow; split <;> rfl) fun flow _ hended => ?_
      rw [if_neg hended]
  | authorize i draws now =>
      simp only [step] at made
      split at made
      · rw [Option.ite_none_right_eq_some] at made
        obtain ⟨-, hnext⟩ := made
        cases hnext
        unfold authorize
        split
        · exact .refl
        · exact (authorizeFlow_expired ‹_›).1
        · exact (authorizeFlow_issued ‹_›).others
      · cases made
  | refresh request draws now =>
      simp only [step] at made
      split at made
      · split at made <;> cases made
        · exact .refl
        · obtain ⟨_, _, -, -, -, -, -, hflows, -⟩ := authRefresh_ok ‹_›
          exact hflows ▸ .refl
      · cases made
  | logout refreshToken now =>
      simp only [step] at made
      split at made <;> cases made
      · exact .refl
      · exact (authLogout_ok ‹_›).flows ▸ .refl

theorem run_statusKept {past : List AuthEvent}
    (run : Run (step services) (Orderly services) system past next) :
    StatusKept system.db.flows next.db.flows := by
  induction run with
  | start => exact .refl
  | step _ ok made ih => exact ih.trans (step_statusKept ok made)

theorem Sound.step {past : List AuthEvent} {event : AuthEvent} (h : system.Sound services)
    (ok : Orderly services past system event) (made : step services event system = some next) :
    next.Sound services := by
  have hkept := step_statusKept ok made
  cases event with
  | start flow =>
      simp only [AuthSystem.step, Option.ite_none_right_eq_some] at made
      obtain ⟨-, hnext⟩ := made
      cases hnext
      exact h.flows hkept rfl rfl rfl rfl
  | poll i request | read i now | hear i said | providerFailed i | expireOverdue i | deny i now
  | expire i now | note i now | slowDown i =>
      simp only [AuthSystem.step] at made
      split at made <;> cases made
      exact h.flows hkept rfl rfl rfl rfl
  | authorize i draws now =>
      simp only [AuthSystem.step] at made
      split at made
      · rw [Option.ite_none_right_eq_some] at made
        obtain ⟨hfresh, hnext⟩ := made
        cases hnext
        unfold authorize at hkept ⊢
        split
        · exact h.flows .refl rfl rfl rfl rfl
        · obtain ⟨hflows, hsessions⟩ := authorizeFlow_expired ‹_›
          exact h.flows hflows hsessions rfl rfl rfl
        · exact h.issue hfresh (authorizeFlow_issued ‹_›) rfl rfl rfl
      · cases made
  | refresh request draws now =>
      simp only [AuthSystem.step] at made
      split at made
      · rename_i hfresh
        split at made <;> cases made
        · exact h
        · exact h.refresh hfresh ‹_›
      · cases made
  | logout refreshToken now =>
      simp only [AuthSystem.step] at made
      split at made <;> cases made
      · exact h
      · exact h.logout (authLogout_ok ‹_›)

/-- Among the rows of a table the token decides. -/
theorem Sound.eq_of_token (h : system.Sound services) {a b : Session}
    (ha : a ∈ system.db.sessions.rows) (hb : b ∈ system.db.sessions.rows)
    (heq : a.refreshTokenHash = b.refreshTokenHash) : a = b := by
  have hid : a.id = b.id := h.apart a ha b hb heq
  exact Option.some.inj ((Table.find_of_mem ha).symm.trans (hid ▸ Table.find_of_mem hb))

theorem revokedSince_of_revoked {now : Int} {revokedAt : Option Int} (h : revokedAt ≠ none) :
    revokedSince now revokedAt = revokedAt := by
  cases revokedAt with
  | none => exact absurd rfl h
  | some _ => rfl

theorem revokeSessions_of_revoked {db : AuthDb} {which : Session → Bool} {now : Int}
    (h : ∀ session ∈ db.sessions.rows, which session = true → session.revokedAt ≠ none) :
    (db.revokeSessions which now).sessions = db.sessions := by
  refine Table.ext_rows ((List.map_congr_left fun session hmem => ?_).trans (List.map_id _))
  split
  · rename_i hwhich
    rw [revokedSince_of_revoked (h session hmem hwhich), id]
  · rfl

theorem revokeDeviceKey_of_revoked {db : AuthDb} {keyId : Uuid} {now : Int}
    (h : ∀ key ∈ db.deviceKeys.find keyId, key.revokedAt ≠ none) :
    (db.revokeDeviceKey keyId now).deviceKeys = db.deviceKeys := by
  refine Table.ext_rows ((List.map_congr_left fun key hmem => ?_).trans (List.map_id _))
  split
  · rename_i hid
    rw [revokedSince_of_revoked (h key (hid ▸ Table.find_of_mem hmem)), id]
  · rfl

theorem Sound.not_refreshed {request : RefreshRequest} {draws : Draws} {now : Int} {db : AuthDb}
    {session : Session} (h : system.Sound services) (hmem : session ∈ system.db.sessions.rows)
    (hhash : session.refreshTokenHash = services.hash request.refreshToken)
    (hrevoked : session.revokedAt ≠ none) :
    authRefresh services system.db request draws now ≠ .ok db := by
  intro hrefresh
  obtain ⟨old, _, hold, hlive, hold', -⟩ := authRefresh_ok hrefresh
  exact hrevoked (h.eq_of_token hmem hold (hhash.trans hold'.symm) ▸ hlive)

theorem Sound.logged_out {refreshToken : String} {now : Int} {db : AuthDb} {session : Session}
    (h : system.Sound services) (ok : LogsOutOnce services system.db refreshToken)
    (hmem : session ∈ system.db.sessions.rows)
    (hhash : session.refreshTokenHash = services.hash refreshToken)
    (hrevoked : session.revokedAt ≠ none)
    (hlogout : authLogout services system.db refreshToken now = .ok db) :
    db.sessions = system.db.sessions ∧ db.deviceKeys = system.db.deviceKeys := by
  have hspent := ok session hmem hhash hrevoked
  unfold authLogout at hlogout
  split at hlogout
  · cases hlogout
  · rename_i found hfound
    have hfoundHash := List.find?_some hfound
    simp only [decide_eq_true_eq] at hfoundHash
    obtain rfl : session = found :=
      h.eq_of_token hmem (List.mem_of_find?_eq_some hfound) (hhash.trans hfoundHash.symm)
    split at hlogout <;> cases hlogout
    · rename_i keyId hkey
      obtain ⟨hkeys, hothers⟩ := hspent keyId hkey
      refine ⟨revokeSessions_of_revoked fun other hother hwhich => ?_,
        revokeDeviceKey_of_revoked hkeys⟩
      exact hothers other hother (of_decide_eq_true hwhich)
    · refine ⟨revokeSessions_of_revoked fun other hother hwhich => ?_, rfl⟩
      have hid : other.id = session.id := of_decide_eq_true hwhich
      have heq : other = session :=
        Option.some.inj ((Table.find_of_mem hother).symm.trans (hid ▸ Table.find_of_mem hmem))
      exact heq ▸ hrevoked

/-- Presenting the token of a revoked session changes no session and no key. -/
theorem Sound.presented {past : List AuthEvent} {event : AuthEvent} (h : system.Sound services)
    (ok : Orderly services past system event) (hpresents : PresentsRevoked services system event)
    (made : AuthSystem.step services event system = some next) :
    next.db.sessions = system.db.sessions ∧ next.db.deviceKeys = system.db.deviceKeys := by
  cases event with
  | refresh request draws now =>
      obtain ⟨session, hmem, hhash, hrevoked⟩ := hpresents
      simp only [AuthSystem.step] at made
      split at made
      · split at made <;> cases made
        · exact ⟨rfl, rfl⟩
        · exact absurd ‹_› (h.not_refreshed hmem hhash hrevoked)
      · cases made
  | logout refreshToken now =>
      obtain ⟨session, hmem, hhash, hrevoked⟩ := hpresents
      simp only [AuthSystem.step] at made
      split at made <;> cases made
      · exact ⟨rfl, rfl⟩
      · exact h.logged_out ok hmem hhash hrevoked ‹_›
  | start _ | poll _ _ | read _ _ | expireOverdue _ | note _ _ | hear _ _ | providerFailed _
  | slowDown _ | deny _ _ | expire _ _ | authorize _ _ _ => exact hpresents.elim

end Steps

/-- A login issues one session at most and stays ended, a refresh token is accepted once, and
the token of a revoked session changes nothing. -/
theorem device_flow_single_use {past : List AuthEvent} {system : AuthSystem}
    (run : Run (step services) (Orderly services) initial past system) :
    (system.issued.map Prod.fst).Nodup ∧ system.accepted.Nodup ∧
    (∀ {further later}, Run (step services) (Orderly services) system further later →
      StatusKept system.db.flows later.db.flows) ∧
    ∀ event next, Orderly services past system event → PresentsRevoked services system event →
      step services event system = some next →
      next.db.sessions = system.db.sessions ∧ next.db.deviceKeys = system.db.deviceKeys := by
  have hsound : system.Sound services := run.stays initial_sound fun h ok made => h.step ok made
  exact ⟨hsound.once, hsound.accepted, run_statusKept, fun event next ok hpresents made =>
    hsound.presented ok hpresents made⟩

section Sample

def sampleServices : AuthServices where
  providerName := "github"
  emailProvider := false
  hash token := token ++ "#"
  accessTtl := 900
  refreshTtl := 86400
  deviceKeyProof _ _ _ _ _ signature := decide (signature = "signed")
  refreshKeyProof _ _ _ _ _ signature := decide (signature = "signed")

def sampleFlow (id : Nat) : DeviceFlow where
  id := .fromU128 id
  provider := "github"
  status := .pending
  expiresAt := 1000
  intervalSeconds := 5
  lastPolledAt := none
  devicePublicKey := some "public"
  deviceKeyFingerprint := some "fingerprint"
  deviceKeyAlgorithm := some "ed25519"
  deviceKeyChallenge := some "challenge"
  userId := none
  completedAt := none

/-- What is drawn the `n`-th time. -/
def sampleDraws (n : Nat) : Draws where
  userId := .fromU128 (100 + n)
  deviceKeyId := .fromU128 (200 + n)
  sessionId := .fromU128 (300 + n)
  accessToken := "access" ++ toString n
  refreshToken := "refresh" ++ toString n
  refreshChallenge := "again" ++ toString n

/-- A poll up to the word of the provider. -/
def samplePoll (i flowId : Nat) (said : ProviderPoll) : List AuthEvent :=
  [.poll i ⟨.fromU128 flowId, "signed"⟩, .read i 10, .note i 10, .hear i said]

def sampleAuthorized : ProviderPoll := .authorized ⟨"42", "ada"⟩

/-- Two polls are authorized at the same time and a third one comes too late; the session is
refreshed, and its device logs out twice. -/
def sampleOrderly : List AuthEvent :=
  [.start (sampleFlow 1)] ++ (samplePoll 0 1 sampleAuthorized).take 2 ++
    samplePoll 1 1 sampleAuthorized ++ (samplePoll 0 1 sampleAuthorized).drop 2 ++
    [.authorize 0 (sampleDraws 0) 20, .authorize 1 (sampleDraws 1) 20,
      .poll 2 ⟨.fromU128 1, "signed"⟩, .read 2 30,
      .refresh ⟨"refresh0", "signed"⟩ (sampleDraws 2) 40,
      .refresh ⟨"refresh0", "signed"⟩ (sampleDraws 3) 41,
      .logout "refresh2" 50, .logout "refresh2" 51]

theorem device_flow_single_use_sample : ∃ system : AuthSystem,
    (system.issued.length, system.accepted) = (1, ["refresh0"]) ∧
    (system.issued.map Prod.fst).Nodup ∧ system.accepted.Nodup ∧
    (∀ {further later}, Run (step sampleServices) (Orderly sampleServices) system further later →
      StatusKept system.db.flows later.db.flows) ∧
    ∀ event next, Orderly sampleServices (sampleOrderly.reverse ++ []) system event →
      PresentsRevoked sampleServices system event → step sampleServices event system = some next →
      next.db.sessions = system.db.sessions ∧ next.db.deviceKeys = system.db.deviceKeys := by
  have hexecuted : ((execute (step sampleServices) (Orderly sampleServices) [] sampleOrderly
      initial).map fun system => (system.issued.length, system.accepted)) =
        some (1, ["refresh0"]) := by
    decide +kernel
  obtain ⟨system, hrun, hissued⟩ := Option.map_eq_some_iff.mp hexecuted
  exact ⟨system, hissued, device_flow_single_use sampleServices (Run.start.execute hrun)⟩

/-- One poll hears of a denial while the other one is authorized. -/
def sampleOverwritten : List AuthEvent :=
  [.start (sampleFlow 1)] ++ (samplePoll 0 1 .denied).take 2 ++ samplePoll 1 1 sampleAuthorized ++
    (samplePoll 0 1 .denied).drop 2 ++ [.authorize 1 (sampleDraws 0) 20]

/-- The device logs out and in again. -/
def sampleLoggedInAgain : List AuthEvent :=
  [.start (sampleFlow 1)] ++ samplePoll 0 1 sampleAuthorized ++
    [.authorize 0 (sampleDraws 0) 20, .logout "refresh0" 50, .start (sampleFlow 2)] ++
    samplePoll 1 2 sampleAuthorized ++ [.authorize 1 (sampleDraws 1) 60]

/-- The statuses of the flows, and which keys and sessions are valid. -/
def sampleSummary (system : AuthSystem) : List FlowStatus × List Bool × List Bool :=
  (system.db.flows.rows.map DeviceFlow.status,
    system.db.deviceKeys.rows.map fun key => key.revokedAt.isNone,
    system.db.sessions.rows.map fun session => session.revokedAt.isNone)

/-- An authorized flow becomes a denied one, and the token of a session that is revoked takes
the next session of the device with it. -/
theorem device_flow_single_use_fails :
    (∃ past system next, Run (step sampleServices) Anything initial past system ∧
      step sampleServices (.deny 0 30) system = some next ∧
      sampleSummary system = ([.authorized], [true], [true]) ∧
      sampleSummary next = ([.denied], [true], [true])) ∧
    ∃ past system next, Run (step sampleServices) Anything initial past system ∧
      PresentsRevoked sampleServices system (.logout "refresh0" 70) ∧
      step sampleServices (.logout "refresh0" 70) system = some next ∧
      sampleSummary system = ([.authorized, .authorized], [true], [false, true]) ∧
      sampleSummary next = ([.authorized, .authorized], [false], [false, false]) := by
  constructor
  · have hexecuted : ((execute (step sampleServices) Anything [] sampleOverwritten initial).bind
        fun system => (step sampleServices (.deny 0 30) system).map fun next =>
          (sampleSummary system, sampleSummary next)) =
        some (([.authorized], [true], [true]), ([.denied], [true], [true])) := by
      decide +kernel
    obtain ⟨system, hrun, hnext⟩ := Option.bind_eq_some_iff.mp hexecuted
    obtain ⟨next, hnext, hsummary⟩ := Option.map_eq_some_iff.mp hnext
    obtain ⟨hbefore, hafter⟩ := Prod.mk.inj hsummary
    exact ⟨_, system, next, Run.start.execute hrun, hnext, hbefore, hafter⟩
  · have hexecuted : ((execute (step sampleServices) Anything [] sampleLoggedInAgain initial).bind
        fun system => (step sampleServices (.logout "refresh0" 70) system).map fun next =>
          decide (PresentsRevoked sampleServices system (.logout "refresh0" 70) ∧
            sampleSummary system = ([.authorized, .authorized], [true], [false, true]) ∧
            sampleSummary next = ([.authorized, .authorized], [false], [false, false]))) =
        some true := by
      decide +kernel
    obtain ⟨system, hrun, hnext⟩ := Option.bind_eq_some_iff.mp hexecuted
    obtain ⟨next, hnext, hsummary⟩ := Option.map_eq_some_iff.mp hnext
    obtain ⟨hpresents, hbefore, hafter⟩ := of_decide_eq_true hsummary
    exact ⟨_, system, next, Run.start.execute hrun, hpresents, hnext, hbefore, hafter⟩

end Sample

end AuthSystem

end MindOne.Auth
