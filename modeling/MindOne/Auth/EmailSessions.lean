import MindOne.Auth.EmailProvenance

/-!
# Sessions of email accounts over whole runs

The events of the pages keep what stands behind every account, every authorized device
login and every session: a registration writes its rows together, the token of an account
activates this account alone, and the page binds a device login once, to the account whose
password was checked.
-/

namespace MindOne.Auth

open CheckedArithmetic Coordinator KeyedTable
open MindOne.Stream (okOr okOr_eq_ok)

variable {services : EmailServices} {past : List EmailSystem.EmailEvent}
  {system next : EmailSystem} {event : EmailSystem.EmailEvent}

section Kept
variable {past' : List EmailSystem.EmailEvent}

theorem EmailInvariant.polls_kept (h : EmailInvariant services past system)
    (later : Later past system past' next) (hpolls : next.auth.polls = system.auth.polls) (i : Nat) :
    StageProven services past' next (next.auth.polls i) := by
  rw [hpolls]
  exact (h.polls i).later later

theorem EmailInvariant.issued_kept (h : EmailInvariant services past system)
    (later : Later past system past' next) (hissued : next.auth.issued = system.auth.issued)
    {entry : Uuid × Uuid} (hentry : entry ∈ next.auth.issued) :
    ∃ session columns key deviceKey,
      Issued services past' next entry.1 entry.2 session columns key deviceKey := by
  rw [hissued] at hentry
  obtain ⟨session, columns, key, deviceKey, issued⟩ := h.issued entry hentry
  obtain ⟨session', columns', deviceKey', issued'⟩ := issued.later later
  exact ⟨session', columns', key, deviceKey', issued'⟩

theorem EmailInvariant.visits_kept (h : EmailInvariant services past system)
    (later : Later past system past' next) {i : Nat} {login : CheckedLogin}
    (hchecked : system.visits i = .checked login) :
    ∃ form, .login i form ∈ past' ∧ Entered services form login := by
  obtain ⟨form, hvisited, entered⟩ := h.visits i login hchecked
  exact ⟨form, later.past hvisited, entered⟩

theorem EmailInvariant.columns_kept (h : EmailInvariant services past system)
    (later : Later past system past' next) {columns : EmailColumns}
    (hcolumns : columns ∈ system.columns.rows) {userId : Uuid}
    (hbound : columns.emailAuthorizedUserId = some userId) :
    ∃ user login form, user.id = userId ∧
      Authorized services past' next columns user login form := by
  obtain ⟨user, login, form, rfl, authorized⟩ := h.columns columns hcolumns userId hbound
  obtain ⟨user', hid, authorized'⟩ := authorized.later later (.refl columns)
  exact ⟨user', login, form, hid, authorized'⟩

theorem EmailInvariant.remember (h : EmailInvariant services past system) (hpast : past ⊆ past') :
    EmailInvariant services past' system := by
  have later : Later past system past' system := .ofPast system hpast
  refine {
    accounts := fun user huser => ?_
    registrations := h.registrations
    single := h.single
    emails := h.emails
    tokens := h.tokens
    visits := fun i login hchecked => h.visits_kept later hchecked
    columns := fun columns hcolumns userId hbound => h.columns_kept later hcolumns hbound
    codes := h.codes
    polls := h.polls_kept later rfl
    issued := fun entry hentry => h.issued_kept later rfl hentry }
  obtain ⟨registration, account⟩ := h.accounts user huser
  exact ⟨registration, account.grow huser later (List.Subset.refl _)⟩

/-- An event that changes nothing. -/
theorem EmailInvariant.unchanged (h : EmailInvariant services past system) :
    EmailInvariant services (event :: past) system :=
  h.remember (List.subset_cons_self _ _)

end Kept

section Registering

/-- The rows of a new account. -/
theorem insertAccount_eq_ok {email username password : String} {draws : RegisterDraws} {now : Int}
    {inserted : EmailSystem}
    (h : system.insertAccount services email username password draws now = .ok inserted) :
    system.auth.db.users.find draws.userId = none ∧
      (∀ user ∈ system.auth.db.users.rows, user.email ≠ some email) ∧
      system.tokens.find draws.tokenId = none ∧
      inserted = { system with
        auth := { system.auth with db := { system.auth.db with
          users := system.auth.db.users.set ⟨draws.userId, "email", email, username, some email,
            none⟩ } }
        passwords := system.passwords.set
          ⟨draws.userId, services.hashPassword password draws.salt⟩
        tokens := system.tokens.set ⟨draws.tokenId, draws.userId, services.hash draws.token,
          now + 24 * 3600 * 1000000, none⟩
        registrations := ⟨email, password, draws⟩ :: system.registrations } := by
  simp only [EmailSystem.insertAccount, bind_eq_ok, rejectIf_eq_ok, exists_const, not_or,
    not_not, List.any_eq_true, Bool.or_eq_true, beq_iff_eq] at h
  obtain ⟨_, ⟨hfresh, hemail⟩, ⟨htoken, _⟩, hinserted⟩ := h
  cases hinserted
  refine ⟨hfresh, fun user huser hsame => ?_, htoken, rfl⟩
  exact hemail ⟨user, huser, .inr hsame⟩

/-- The new account, with its message sent. -/
def EmailSystem.registered (services : EmailServices) (system : EmailSystem)
    (registration : Registration) (username : String) (now : Int) : EmailSystem :=
  { system with
    auth := { system.auth with db := { system.auth.db with
      users := system.auth.db.users.set ⟨registration.draws.userId, "email", registration.email,
        username, some registration.email, none⟩ } }
    passwords := system.passwords.set ⟨registration.draws.userId,
      services.hashPassword registration.password registration.draws.salt⟩
    tokens := system.tokens.set ⟨registration.draws.tokenId, registration.draws.userId,
      services.hash registration.draws.token, now + 24 * 3600 * 1000000, none⟩
    registrations := registration :: system.registrations
    mailed := ⟨registration.email, registration.draws.token⟩ :: system.mailed }

theorem later_of_registered {registration : Registration} {username : String} {now : Int}
    (hfresh : system.auth.db.users.find registration.draws.userId = none) :
    Later past system (event :: past) (system.registered services registration username now) := by
  refine { Later.refl past event system with
    users := Table.evolves_set SameAccount.refl fun old hold => ?_
    passwords := fun user hstored column hcolumn => ?_ }
  · rw [hfresh] at hold
    cases hold
  · have hne : user.id ≠ registration.draws.userId := by
      intro heq
      rw [heq, hfresh] at hstored
      cases hstored
    change (system.passwords.set _).find user.id = _
    rw [Table.find_set, if_neg hne]
    exact hcolumn

theorem EmailInvariant.registered (h : EmailInvariant services past system)
    {registration : Registration} {username : String} {now : Int}
    (hfresh : system.auth.db.users.find registration.draws.userId = none)
    (hemail : ∀ user ∈ system.auth.db.users.rows, user.email ≠ some registration.email) :
    EmailInvariant services (event :: past)
      (system.registered services registration username now) := by
  have later : Later past system (event :: past)
      (system.registered services registration username now) := later_of_registered hfresh
  have hunused : ∀ old ∈ system.registrations,
      old.draws.userId ≠ registration.draws.userId := by
    intro old hold heq
    have hstored := (h.registrations old hold).1
    rw [heq, hfresh] at hstored
    cases hstored
  refine {
    accounts := fun user huser => ?_
    registrations := fun other hother => ?_
    single := fun a ha b hb huser => ?_
    emails := fun a ha b hb hsame => ?_
    tokens := fun token htoken => ?_
    visits := fun i login hchecked => h.visits_kept later hchecked
    columns := fun columns hcolumns userId hbound => h.columns_kept later hcolumns hbound
    codes := h.codes
    polls := h.polls_kept later rfl
    issued := fun entry hentry => h.issued_kept later rfl hentry }
  · rcases Table.mem_set.mp huser with rfl | ⟨hold, _⟩
    · refine ⟨registration, {
        registered := List.mem_cons_self
        userId := rfl
        email := rfl
        subject := rfl
        password := Table.find_set_self
        verified := fun hverified => absurd rfl hverified }⟩
    · obtain ⟨old, account⟩ := h.accounts user hold
      exact ⟨old, account.grow hold later (List.subset_cons_self _ _)⟩
  · rcases List.mem_cons.mp hother with rfl | hold
    · refine ⟨?_, List.mem_cons_self⟩
      change ((system.auth.db.users.set _).find _).isSome = true
      rw [Table.find_set, if_pos rfl]
      rfl
    · obtain ⟨hstored, hmailed⟩ := h.registrations other hold
      obtain ⟨user, huser⟩ := Option.isSome_iff_exists.mp hstored
      obtain ⟨user', huser', _⟩ := later.users _ _ huser
      exact ⟨Option.isSome_of_eq_some huser', List.mem_cons_of_mem _ hmailed⟩
  · rcases List.mem_cons.mp ha with hnew | hold
    · rcases List.mem_cons.mp hb with hnew' | hold'
      · exact hnew.trans hnew'.symm
      · exact absurd (huser.symm.trans (by rw [hnew])) (hunused b hold')
    · rcases List.mem_cons.mp hb with hnew' | hold'
      · exact absurd (huser.trans (by rw [hnew'])) (hunused a hold)
      · exact h.single a hold b hold' huser
  · rcases Table.mem_set.mp ha with rfl | ⟨ha, _⟩
    · rcases Table.mem_set.mp hb with rfl | ⟨hb, _⟩
      · rfl
      · exact absurd hsame.symm (hemail b hb)
    · rcases Table.mem_set.mp hb with rfl | ⟨hb, _⟩
      · exact absurd hsame (hemail a ha)
      · exact h.emails a ha b hb hsame
  · rcases Table.mem_set.mp htoken with rfl | ⟨hold, _⟩
    · exact ⟨registration, List.mem_cons_self, rfl, rfl⟩
    · obtain ⟨other, hother, howner⟩ := h.tokens token hold
      exact ⟨other, List.mem_cons_of_mem _ hother, howner⟩

/-- More messages than accounts may have been sent, never less. -/
theorem EmailInvariant.sent (h : EmailInvariant services past system) (mail : Mail) :
    EmailInvariant services (event :: past) { system with mailed := mail :: system.mailed } := by
  have later : Later past system (event :: past)
      { system with mailed := mail :: system.mailed } := { Later.refl past event system with }
  refine {
    accounts := fun user huser => ?_
    registrations := fun other hother => ?_
    single := h.single
    emails := h.emails
    tokens := h.tokens
    visits := fun i login hchecked => h.visits_kept later hchecked
    columns := fun columns hcolumns userId hbound => h.columns_kept later hcolumns hbound
    codes := h.codes
    polls := h.polls_kept later rfl
    issued := fun entry hentry => h.issued_kept later rfl hentry }
  · obtain ⟨registration, account⟩ := h.accounts user huser
    exact ⟨registration, account.grow huser later (List.Subset.refl _)⟩
  · obtain ⟨hstored, hmailed⟩ := h.registrations other hother
    exact ⟨hstored, List.mem_cons_of_mem _ hmailed⟩

/-- A registration that changes anything has inserted its rows. -/
theorem register_eq_some {form : RegisterForm} {draws : RegisterDraws} {now : Int}
    {delivery : EmailSystem.Delivery}
    (h : EmailSystem.step services (.register form draws now delivery) system = some next) :
    ∃ email username inserted,
      system.insertAccount services email username form.password draws now = .ok inserted ∧
      ((delivery = .sent ∧
          next = { inserted with mailed := ⟨email, draws.token⟩ :: system.mailed }) ∨
        (delivery = .sentUncommitted ∧
          next = { system with mailed := ⟨email, draws.token⟩ :: system.mailed })) := by
  cases hregister : system.register services form draws now delivery with
  | error error =>
      simp only [EmailSystem.step, hregister, Except.toOption] at h
      cases h
  | ok registered =>
      simp only [EmailSystem.step, hregister, Except.toOption] at h
      cases h
      simp only [EmailSystem.register, bind_eq_ok] at hregister
      obtain ⟨⟨email, username⟩, _, inserted, hinserted, hdelivered⟩ := hregister
      refine ⟨email, username, inserted, hinserted, ?_⟩
      cases delivery with
      | refused => cases hdelivered
      | sent =>
          cases hdelivered
          exact .inl ⟨rfl, rfl⟩
      | sentUncommitted =>
          cases hdelivered
          exact .inr ⟨rfl, rfl⟩

theorem EmailInvariant.register (h : EmailInvariant services past system) {form : RegisterForm}
    {draws : RegisterDraws} {now : Int} {delivery : EmailSystem.Delivery}
    (hstep : EmailSystem.step services (.register form draws now delivery) system = some next) :
    EmailInvariant services (event :: past) next := by
  obtain ⟨email, username, inserted, hinserted, hdelivered⟩ := register_eq_some hstep
  obtain ⟨hfresh, hemail, _, rfl⟩ := insertAccount_eq_ok hinserted
  rcases hdelivered with ⟨_, rfl⟩ | ⟨_, rfl⟩
  · have known : EmailInvariant services (event :: past)
        (system.registered services ⟨email, form.password, draws⟩ username now) :=
      h.registered hfresh hemail
    exact known
  · exact h.sent _

end Registering

section Verifying

theorem sameAccount_activate (user : User) (now : Int) :
    SameAccount user (EmailSystem.activate user now) := by
  unfold EmailSystem.activate
  split
  · rename_i hverified
    exact ⟨rfl, rfl, fun h => absurd hverified h⟩
  · exact .refl user

theorem sameAccount_activated (row : VerificationToken) (now : Int) (user : User) :
    SameAccount user (if user.id = row.userId then EmailSystem.activate user now else user) := by
  split
  · exact sameAccount_activate user now
  · exact .refl user

variable (past system) in
theorem later_of_verified (token : String) {row : VerificationToken} {now : Int}
    (h : ∀ user : User, (if user.id = row.userId then EmailSystem.activate user now
      else user).id = user.id) :
    Later past system (.verify token now :: past) { system with
      auth := { system.auth with db := { system.auth.db with
        users := system.auth.db.users.mapRows (fun user =>
          if user.id = row.userId then EmailSystem.activate user now else user) h } }
      tokens := system.tokens.set { row with usedAt := some now } } := by
  refine { Later.refl past (.verify token now) system with
    users := Table.evolves_map (fun _ => Table.find_mapRows (h := h)) fun user => ?_ }
  exact sameAccount_activated row now user

/-- The token activates the account that it was sent for. -/
theorem EmailInvariant.verified (h : EmailInvariant services past system) {token : String}
    {row : VerificationToken} {now : Int} (hrow : row ∈ system.tokens.rows)
    (hpresented : row.tokenHash = services.hash token)
    {hid : ∀ user : User, (if user.id = row.userId then EmailSystem.activate user now
      else user).id = user.id} :
    EmailInvariant services (.verify token now :: past) { system with
      auth := { system.auth with db := { system.auth.db with
        users := system.auth.db.users.mapRows (fun user =>
          if user.id = row.userId then EmailSystem.activate user now else user) hid } }
      tokens := system.tokens.set { row with usedAt := some now } } := by
  have later := later_of_verified past system token hid
  refine {
    accounts := fun user huser => ?_
    registrations := fun registration hregistration => ?_
    single := h.single
    emails := fun a ha b hb hsame => ?_
    tokens := fun other hother => ?_
    visits := fun i login hchecked => h.visits_kept later hchecked
    columns := fun columns hcolumns userId hbound => h.columns_kept later hcolumns hbound
    codes := h.codes
    polls := h.polls_kept later rfl
    issued := fun entry hentry => h.issued_kept later rfl hentry }
  · obtain ⟨old, hold, rfl⟩ := List.mem_map.mp huser
    obtain ⟨registration, account⟩ := h.accounts old hold
    have kept := account.grow hold later (List.Subset.refl _)
    have same := sameAccount_activated row now old
    refine ⟨registration, { kept with
      userId := kept.userId.trans (hid old).symm
      email := same.1.trans kept.email
      subject := same.2.1.trans kept.subject
      password := by rw [hid old]; exact kept.password
      verified := fun hverified => ?_ }⟩
    by_cases howner : old.id = row.userId
    · obtain ⟨other, hother, hsame, hhash⟩ := h.tokens row hrow
      obtain rfl := h.single other hother registration account.registered
        (hsame.trans (howner.symm.trans account.userId.symm))
      exact ⟨token, now, List.mem_cons_self, hpresented.symm.trans hhash⟩
    · rw [if_neg howner] at hverified
      exact kept.verified hverified
  · obtain ⟨hstored, hmailed⟩ := h.registrations registration hregistration
    obtain ⟨user, huser⟩ := Option.isSome_iff_exists.mp hstored
    obtain ⟨user', huser', _⟩ := later.users _ _ huser
    exact ⟨Option.isSome_of_eq_some huser', hmailed⟩
  · obtain ⟨a, hold, rfl⟩ := List.mem_map.mp ha
    obtain ⟨b, hold', rfl⟩ := List.mem_map.mp hb
    rw [(sameAccount_activated row now a).1, (sameAccount_activated row now b).1] at hsame
    rw [h.emails a hold b hold' hsame]
  · rcases Table.mem_set.mp hother with rfl | ⟨hold, _⟩
    · exact h.tokens row hrow
    · exact h.tokens other hold

theorem EmailInvariant.verify (h : EmailInvariant services past system) (token : String)
    (now : Int) : EmailInvariant services (.verify token now :: past)
      (system.verifyEmail services token now).1 := by
  unfold EmailSystem.verifyEmail
  split
  · exact h.unchanged
  · split
    · exact h.unchanged
    · rename_i row hfound
      have hrow := List.mem_of_find?_eq_some hfound
      have hpresented := List.find?_some hfound
      rw [beq_iff_eq] at hpresented
      split
      · exact h.unchanged
      · split
        · exact h.unchanged
        · refine h.verified hrow hpresented

end Verifying

section Visiting

theorem checkLogin_eq_ok {form : LoginForm} {login : CheckedLogin}
    (h : system.checkLogin services form = .ok login) : Entered services form login := by
  simp only [EmailSystem.checkLogin, bind_eq_ok, rejectIf_eq_ok, okOr_eq_ok, exists_const,
    Bool.not_eq_false] at h
  obtain ⟨email, hemail, _, _, userCode, hcode, user, _, _, column, _, hpassword, hlogin⟩ := h
  cases hlogin
  exact ⟨hemail, hcode, hpassword⟩

theorem EmailInvariant.visit {past' : List EmailSystem.EmailEvent}
    (h : EmailInvariant services past system) (hpast : past ⊆ past') {i : Nat} {visit : Visit}
    (hvisit : ∀ login, visit = .checked login →
      ∃ form, .login i form ∈ past' ∧ Entered services form login) :
    EmailInvariant services past' (system.setVisit i visit) := by
  have later : Later past system past' (system.setVisit i visit) :=
    { Later.ofPast system hpast with }
  refine {
    accounts := fun user huser => ?_
    registrations := h.registrations
    single := h.single
    emails := h.emails
    tokens := h.tokens
    visits := fun j login hchecked => ?_
    columns := fun columns hcolumns userId hbound => h.columns_kept later hcolumns hbound
    codes := h.codes
    polls := h.polls_kept later rfl
    issued := fun entry hentry => h.issued_kept later rfl hentry }
  · obtain ⟨registration, account⟩ := h.accounts user huser
    exact ⟨registration, account.grow huser later (List.Subset.refl _)⟩
  · by_cases hj : j = i
    · subst hj
      refine hvisit login ?_
      rw [← hchecked]
      exact (Function.update_self j visit system.visits).symm
    · refine h.visits_kept later (i := j) ?_
      rw [← hchecked]
      exact (Function.update_of_ne hj visit system.visits).symm

theorem stillCurrent_iff {login : CheckedLogin} (h : system.stillCurrent login = true) :
    ∃ user column, system.auth.db.users.find login.userId = some user ∧
      user.email = some login.email ∧ user.emailVerifiedAt ≠ none ∧
      system.passwords.find user.id = some column ∧ column.passwordHash = login.passwordHash := by
  simp only [EmailSystem.stillCurrent, Option.any_eq_true, Bool.and_eq_true, beq_iff_eq,
    bne_iff_ne] at h
  obtain ⟨user, hstored, ⟨⟨⟨_, _⟩, hemail⟩, hverified⟩, column, hcolumn, hhash⟩ := h
  exact ⟨user, column, hstored, hemail, hverified, hcolumn, hhash⟩

theorem later_of_bound {columns : EmailColumns} {userId : Uuid} {now : Int}
    (hcolumns : columns ∈ system.columns.rows) (hfree : columns.emailAuthorizedUserId = none) :
    Later past system (event :: past) { system with
      columns := system.columns.set (EmailSystem.authorizeColumns columns userId now) } := by
  refine { Later.refl past event system with
    columns := Table.evolves_set SameCodes.refl fun old hold => ?_ }
  obtain rfl := Option.some.inj ((Table.find_of_mem hcolumns).symm.trans hold)
  refine ⟨rfl, fun bound hbound => ?_⟩
  rw [hfree] at hbound
  cases hbound

/-- The page binds the device login whose code was entered to the account whose password was
checked. -/
theorem EmailInvariant.bound (h : EmailInvariant services past system) {i : Nat}
    {login : CheckedLogin} {now : Int} (hchecked : system.visits i = .checked login)
    (hbind : system.bindFlow login now = .ok next) :
    EmailInvariant services (event :: past) next := by
  simp only [EmailSystem.bindFlow, bind_eq_ok, rejectIf_eq_ok, exists_const,
    Bool.not_eq_false] at hbind
  obtain ⟨hcurrent, hbind⟩ := hbind
  obtain ⟨user, column, hstored, hemail, hverified, hcolumn, hhash⟩ := stillCurrent_iff hcurrent
  have hid : user.id = login.userId := Table.key_of_find hstored
  split at hbind
  · rename_i columns hsingle
    cases hbind
    have hmem : columns ∈ system.columns.rows.filter fun columns =>
        system.awaitsUser columns login.userCode now := by
      rw [hsingle]
      exact List.mem_singleton_self columns
    obtain ⟨hcolumns, hawaits⟩ := List.mem_filter.mp hmem
    simp only [EmailSystem.awaitsUser, Option.any_eq_true, Bool.and_eq_true, beq_iff_eq,
      decide_eq_true_eq] at hawaits
    obtain ⟨flow, _, ⟨⟨⟨⟨_, hcode⟩, _⟩, _⟩, hfree⟩, _⟩ := hawaits
    have later : Later past system (event :: past) { system with
        columns := system.columns.set (EmailSystem.authorizeColumns columns login.userId now) } :=
      later_of_bound hcolumns hfree
    refine {
      accounts := fun user huser => ?_
      registrations := h.registrations
      single := h.single
      emails := h.emails
      tokens := h.tokens
      visits := fun i login hchecked => h.visits_kept later hchecked
      columns := fun other hother userId hbound => ?_
      codes := fun a ha b hb hsame => ?_
      polls := h.polls_kept later rfl
      issued := fun entry hentry => h.issued_kept later rfl hentry }
    · obtain ⟨registration, account⟩ := h.accounts user huser
      exact ⟨registration, account.grow huser later (List.Subset.refl _)⟩
    · rcases Table.mem_set.mp hother with rfl | ⟨hold, _⟩
      · cases hbound
        obtain ⟨form, hvisited, entered⟩ := h.visits_kept later hchecked
        exact ⟨user, login, form, hid, {
          bound := congrArg some hid.symm
          stored := hid ▸ hstored
          verified := hverified
          email := hemail
          passwordHash := ⟨column, hcolumn, hhash⟩
          userCode := hcode.symm
          visited := ⟨i, hvisited⟩
          entered := entered }⟩
      · exact h.columns_kept later hold hbound
    · have back : ∀ row ∈ (system.columns.set
          (EmailSystem.authorizeColumns columns login.userId now)).rows,
          ∃ old ∈ system.columns.rows, old.flowId = row.flowId ∧
            old.providerDeviceCode = row.providerDeviceCode := by
        intro row hrow
        rcases Table.mem_set.mp hrow with rfl | ⟨hold, _⟩
        · exact ⟨columns, hcolumns, rfl, rfl⟩
        · exact ⟨row, hold, rfl, rfl⟩
      obtain ⟨a', ha', hflow, hdevice⟩ := back a ha
      obtain ⟨b', hb', hflow', hdevice'⟩ := back b hb
      rw [← hflow, ← hflow']
      exact h.codes a' ha' b' hb' (by rw [hdevice, hdevice', hsame])
  · cases hbind

end Visiting

section Starting

theorem EmailInvariant.started (h : EmailInvariant services past system) {flow : DeviceFlow}
    {deviceCode userCode : String}
    (hstart : system.startFlow services flow deviceCode userCode = some next) :
    EmailInvariant services (event :: past) next := by
  simp only [EmailSystem.startFlow, Option.bind_eq_bind, Option.bind_eq_some_iff,
    Option.guard_eq_some', exists_const, List.all_eq_true, Bool.and_eq_true, bne_iff_ne] at hstart
  obtain ⟨⟨_, hfresh, hcodes⟩, auth, hauth, hnext⟩ := hstart
  cases hnext
  simp only [AuthSystem.step] at hauth
  split at hauth
  · rename_i hnew
    cases hauth
    have later : Later past system (event :: past) { system with
        auth := { system.auth with db := { system.auth.db with
          flows := system.auth.db.flows.set flow } }
        columns := system.columns.set ⟨flow.id, deviceCode, userCode, none, none⟩ } := by
      refine { Later.refl past event system with
        columns := Table.evolves_set SameCodes.refl fun old hold => ?_
        flows := Table.evolves_set SameKey.refl fun old hold => ?_ }
      · rw [hfresh] at hold
        cases hold
      · rw [hnew.1] at hold
        cases hold
    refine {
      accounts := fun user huser => ?_
      registrations := h.registrations
      single := h.single
      emails := h.emails
      tokens := h.tokens
      visits := fun i login hchecked => h.visits_kept later hchecked
      columns := fun columns hcolumns userId hbound => ?_
      codes := fun a ha b hb hsame => ?_
      polls := h.polls_kept later rfl
      issued := fun entry hentry => h.issued_kept later rfl hentry }
    · obtain ⟨registration, account⟩ := h.accounts user huser
      exact ⟨registration, account.grow huser later (List.Subset.refl _)⟩
    · rcases Table.mem_set.mp hcolumns with rfl | ⟨hold, _⟩
      · cases hbound
      · exact h.columns_kept later hold hbound
    · rcases Table.mem_set.mp ha with rfl | ⟨hold, _⟩
      · rcases Table.mem_set.mp hb with rfl | ⟨hold', _⟩
        · rfl
        · exact absurd hsame.symm (hcodes b hold').1
      · rcases Table.mem_set.mp hb with rfl | ⟨hold', _⟩
        · exact absurd hsame (hcodes a hold).1
        · exact h.codes a hold b hold' hsame
  · cases hauth

end Starting

section Stored
variable {authServices : AuthServices} {auth auth' : AuthSystem}

/-- Every session that is stored has been issued to a poll. -/
def AllIssued (auth : AuthSystem) : Prop :=
  ∀ session ∈ auth.db.sessions.rows, ∃ flowId, (flowId, session.id) ∈ auth.issued

theorem AllIssued.kept (h : AllIssued auth) (hissued : auth'.issued = auth.issued)
    (hsessions : ∀ session ∈ auth'.db.sessions.rows, ∃ earlier ∈ auth.db.sessions.rows,
      earlier.id = session.id) : AllIssued auth' := by
  intro session hsession
  obtain ⟨earlier, hearlier, hid⟩ := hsessions session hsession
  rw [hissued, ← hid]
  exact h earlier hearlier

theorem AllIssued.same (h : AllIssued auth) (hissued : auth'.issued = auth.issued)
    (hsessions : auth'.db.sessions = auth.db.sessions) : AllIssued auth' :=
  h.kept hissued fun session hsession => ⟨session, hsessions ▸ hsession, rfl⟩

theorem AllIssued.authorize (h : AllIssued auth) (i : Nat) (flow : DeviceFlow) (key : BoundKey)
    (identity : ProviderIdentity) (draws : Draws) (now : Int) :
    AllIssued (auth.authorize authServices i flow key identity draws now) := by
  unfold AuthSystem.authorize
  split
  · exact h.same rfl rfl
  · rename_i db hexpired
    exact h.same rfl (AuthSystem.authorizeFlow_expired hexpired).2
  · rename_i db hissued
    obtain ⟨session, hid, _, hsessions⟩ := (AuthSystem.authorizeFlow_issued hissued).sessions
    intro other hother
    rcases Table.mem_set.mp (hsessions ▸ hother) with rfl | ⟨hold, _⟩
    · exact ⟨flow.id, hid ▸ List.mem_cons_self⟩
    · obtain ⟨flowId, hmem⟩ := h other hold
      exact ⟨flowId, List.mem_cons_of_mem _ hmem⟩

theorem AllIssued.step {event : AuthEvent} (h : AllIssued auth)
    (hstep : AuthSystem.step authServices event auth = some auth') : AllIssued auth' := by
  cases event with
  | start flow =>
      simp only [AuthSystem.step] at hstep
      split at hstep <;> cases hstep
      exact h.same rfl rfl
  | poll i _ | read i _ | hear i _ | providerFailed i | expireOverdue i | note i _ | slowDown i
  | deny i _ | expire i _ =>
      simp only [AuthSystem.step] at hstep
      split at hstep <;> cases hstep
      exact h.same rfl rfl
  | authorize i draws now =>
      simp only [AuthSystem.step] at hstep
      split at hstep
      · split at hstep <;> cases hstep
        exact h.authorize _ _ _ _ _ _
      · cases hstep
  | refresh request draws now =>
      simp only [AuthSystem.step] at hstep
      split at hstep
      · split at hstep <;> cases hstep
        · exact h
        · rename_i db hrefresh
          obtain ⟨old, session, hold, _, _, hid, _, _, _, hsessions⟩ :=
            AuthSystem.authRefresh_ok hrefresh
          refine h.kept rfl fun other hother => ?_
          rcases Table.mem_set.mp (hsessions ▸ hother) with rfl | ⟨hmem, _⟩
          · exact ⟨old, hold, hid.symm⟩
          · exact ⟨other, hmem, rfl⟩
      · cases hstep
  | logout refreshToken now =>
      simp only [AuthSystem.step] at hstep
      split at hstep <;> cases hstep
      · exact h
      · rename_i db hlogout
        refine h.kept rfl fun session hsession => ?_
        obtain ⟨earlier, hearlier, hid, _⟩ :=
          (AuthSystem.authLogout_ok hlogout).sessions session hsession
        exact ⟨earlier, hearlier, hid⟩

/-- The pages touch no session. -/
theorem AllIssued.page (h : AllIssued system.auth)
    (hstep : EmailSystem.step services event system = some next) : AllIssued next.auth := by
  cases event with
  | auth deviceEvent =>
      simp only [EmailSystem.step, Option.bind_eq_bind, Option.bind_eq_some_iff] at hstep
      obtain ⟨_, _, auth, hauth, hnext⟩ := hstep
      cases hnext
      exact h.step hauth
  | start flow deviceCode userCode =>
      simp only [EmailSystem.step, EmailSystem.startFlow, Option.bind_eq_bind,
        Option.bind_eq_some_iff] at hstep
      obtain ⟨_, _, auth, hauth, hnext⟩ := hstep
      cases hnext
      exact h.step hauth
  | hear i now =>
      simp only [EmailSystem.step] at hstep
      split at hstep
      · simp only [Option.bind_eq_bind, Option.bind_eq_some_iff] at hstep
        obtain ⟨_, _, auth, hauth, hnext⟩ := hstep
        cases hnext
        exact h.step hauth
      · cases hstep
  | register form draws now delivery =>
      obtain ⟨email, username, inserted, hinserted, hdelivered⟩ := register_eq_some hstep
      obtain ⟨_, _, _, rfl⟩ := insertAccount_eq_ok hinserted
      rcases hdelivered with ⟨_, rfl⟩ | ⟨_, rfl⟩
      · exact h.same rfl rfl
      · exact h
  | verify token now =>
      cases hstep
      unfold EmailSystem.verifyEmail
      split
      · exact h
      · split
        · exact h
        · split
          · exact h
          · split
            · exact h
            · exact h.same rfl rfl
  | login i form =>
      simp only [EmailSystem.step] at hstep
      split at hstep
      · split at hstep <;> cases hstep <;> exact h
      · cases hstep
  | bind i now =>
      simp only [EmailSystem.step] at hstep
      split at hstep
      · split at hstep
        · rename_i bound hbound
          cases hstep
          simp only [EmailSystem.bindFlow, bind_eq_ok] at hbound
          obtain ⟨_, _, hbound⟩ := hbound
          split at hbound <;> cases hbound
          exact h
        · cases hstep
          exact h
      · cases hstep

end Stored

section Runs

theorem EmailInvariant.step (h : EmailInvariant services past system)
    (hstep : EmailSystem.step services event system = some next) :
    EmailInvariant services (event :: past) next := by
  cases event with
  | auth deviceEvent =>
      simp only [EmailSystem.step, Option.bind_eq_bind, Option.bind_eq_some_iff,
        Option.guard_eq_some', exists_const] at hstep
      obtain ⟨hdelegated, auth, hauth, hnext⟩ := hstep
      cases hnext
      exact h.device hdelegated hauth
  | start flow deviceCode userCode => exact h.started hstep
  | hear i now =>
      simp only [EmailSystem.step] at hstep
      split at hstep
      · rename_i flow key hasking
        simp only [Option.bind_eq_bind, Option.bind_eq_some_iff, AuthSystem.step, hasking] at hstep
        obtain ⟨columns, hcolumns, auth, hauth, hnext⟩ := hstep
        cases hauth
        cases hnext
        have possession : Possession services past system flow.id key := by
          have proven := h.polls i
          rw [hasking] at proven
          exact proven
        have same := Persists.refl system.auth.db
        exact h.ofPoll same ((h.heard hcolumns possession).later (later_of_persists same))
      · cases hstep
  | register form draws now delivery =>
      exact h.register hstep
  | verify token now =>
      cases hstep
      exact h.verify token now
  | login i form =>
      simp only [EmailSystem.step] at hstep
      split at hstep
      · split at hstep
        · rename_i login hlogin
          cases hstep
          refine h.visit (List.subset_cons_self _ _) fun other hother => ?_
          cases hother
          exact ⟨form, List.mem_cons_self, checkLogin_eq_ok hlogin⟩
        · cases hstep
          exact h.visit (List.subset_cons_self _ _) fun _ hother => by cases hother
      · cases hstep
  | bind i now =>
      simp only [EmailSystem.step] at hstep
      split at hstep
      · rename_i login hchecked
        split at hstep
        · rename_i bound hbound
          cases hstep
          exact (h.bound hchecked hbound).visit (List.Subset.refl _) fun _ hother => by
            cases hother
        · cases hstep
          exact h.visit (List.subset_cons_self _ _) fun _ hother => by cases hother
      · cases hstep

theorem initial_emailInvariant : EmailInvariant services [] .initial where
  accounts _ h := by cases h
  registrations _ h := by cases h
  single _ h := by cases h
  emails _ h := by cases h
  tokens _ h := by cases h
  visits _ _ h := by cases h
  columns _ h := by cases h
  codes _ h := by cases h
  polls _ := trivial
  issued _ h := by cases h

theorem EmailInvariant.advance (h : EmailInvariant services past system)
    (event : EmailSystem.EmailEvent) : EmailInvariant services (event :: past)
      ((EmailSystem.step services event system).getD system) := by
  cases hstep : EmailSystem.step services event system with
  | none => exact h.unchanged
  | some next => exact h.step hstep

theorem AllIssued.advance (h : AllIssued system.auth) (event : EmailSystem.EmailEvent) :
    AllIssued ((EmailSystem.step services event system).getD system).auth := by
  cases hstep : EmailSystem.step services event system with
  | none => exact h
  | some next => exact h.page hstep

theorem EmailInvariant.run (h : EmailInvariant services past system) (hall : AllIssued system.auth)
    (events : List EmailSystem.EmailEvent) :
    EmailInvariant services (events.reverse ++ past)
        (EmailSystem.perform services events system) ∧
      AllIssued (EmailSystem.perform services events system).auth := by
  induction events generalizing past system with
  | nil => exact ⟨h, hall⟩
  | cons event events ih =>
      rw [List.reverse_cons, List.append_assoc]
      exact ih (h.advance event) (hall.advance event)

/-- What a session of an email account rests on. -/
def ProvenSession (services : EmailServices) (past : List EmailSystem.EmailEvent)
    (system : EmailSystem) (flowId : Uuid) (session : Session) : Prop :=
  ∃ columns key deviceKey user login form registration,
    Issued services past system flowId session.id session columns key deviceKey ∧
    Authorized services past system columns user login form ∧
    Account services past system user registration ∧
    session.userId = registration.draws.userId ∧
    services.verifyPassword form.password
      (services.hashPassword registration.password registration.draws.salt) = true ∧
    normalizeEmail form.email = .ok registration.email ∧
    ⟨registration.email, registration.draws.token⟩ ∈ system.mailed ∧
    ∃ token now, .verify token now ∈ past ∧
      services.hash token = services.hash registration.draws.token

theorem EmailInvariant.proven (h : EmailInvariant services past system)
    (hall : AllIssued system.auth) {session : Session}
    (hsession : session ∈ system.auth.db.sessions.rows) :
    ∃ flowId, (flowId, session.id) ∈ system.auth.issued ∧
      ProvenSession services past system flowId session := by
  obtain ⟨flowId, hissued⟩ := hall session hsession
  obtain ⟨stored, columns, key, deviceKey, issued⟩ := h.issued _ hissued
  obtain rfl := Option.some.inj ((Table.find_of_mem hsession).symm.trans issued.stored)
  obtain ⟨user, login, form, huser, authorized⟩ :=
    h.columns columns (Table.mem_of_find issued.login) session.userId issued.user
  obtain ⟨registration, account⟩ := h.accounts user (Table.mem_of_find authorized.stored)
  obtain ⟨column, hcolumn, hhash⟩ := authorized.passwordHash
  rw [account.password] at hcolumn
  cases hcolumn
  have hemail : login.email = registration.email :=
    Option.some.inj (authorized.email.symm.trans account.email)
  refine ⟨flowId, hissued, columns, key, deviceKey, user, login, form, registration, issued,
    authorized, account, huser.symm.trans account.userId.symm, ?_, ?_,
    (h.registrations registration account.registered).2, account.verified authorized.verified⟩
  · have hentered := authorized.entered.password
    rw [← hhash] at hentered
    exact hentered
  · rw [← hemail]
    exact authorized.entered.email

/-- Every session of an email account that is ever stored was issued to a poll with the proof of
the device key that its login was started with, for a login that was authorized on the page with
the address, the password and the code, after the token mailed to the address was presented. -/
theorem email_sessions_proven (services : EmailServices) (events : List EmailSystem.EmailEvent) :
    ∀ session ∈ (EmailSystem.perform services events .initial).auth.db.sessions.rows,
      ∃ flowId, (flowId, session.id) ∈
          (EmailSystem.perform services events .initial).auth.issued ∧
        ProvenSession services events (EmailSystem.perform services events .initial)
          flowId session := by
  intro session hsession
  have hnone : AllIssued EmailSystem.initial.auth := fun _ h => by cases h
  have initial : EmailInvariant services [] .initial := initial_emailInvariant
  have run := initial.run hnone events
  rw [List.append_nil] at run
  have known : EmailInvariant services events (EmailSystem.perform services events .initial) :=
    run.1.remember fun _ => List.mem_reverse.mp
  exact known.proven run.2 hsession

def sampleEmailServices : EmailServices where
  providerName := "email"
  emailProvider := true
  hash token := token
  accessTtl := 3600
  refreshTtl := 86400
  deviceKeyProof _ _ _ _ _ signature := signature == "signed"
  refreshKeyProof _ _ _ _ _ signature := signature == "signed"
  providerName_eq := rfl
  emailProvider_eq := rfl
  hashPassword password salt := password ++ salt
  verifyPassword password passwordHash := passwordHash == password ++ "salt"

/-- A registration, its verification, and a login that a poll completes. -/
def sampleEmailEvents : List EmailSystem.EmailEvent :=
  let token := "mnev_aaaaaaaaaaaaaaaaaaaaaaaaaaaaaaaaaaaaaaaaaaa"
  [.register ⟨"a@x.com", "ann", "password", "password"⟩
      ⟨.fromU128 5, .fromU128 6, token, "salt"⟩ 0 .sent,
    .verify token 1,
    .start ⟨.fromU128 1, "email", .pending, 1000, 5, none, some "public", some "fingerprint",
      some "ed25519", some "challenge", none, none⟩ "device" "0123456789AB",
    .login 0 ⟨"A@x.com", "password", "0123-4567-89ab"⟩, .bind 0 5,
    .auth (.poll 0 ⟨.fromU128 1, "signed"⟩), .auth (.read 0 6), .auth (.note 0 6), .hear 0 7,
    .auth (.authorize 0
      ⟨.fromU128 10, .fromU128 11, .fromU128 12, "access", "refresh", "challenge"⟩ 8)]

theorem email_sessions_proven_sample :
    ∃ session ∈ (EmailSystem.perform sampleEmailServices sampleEmailEvents
        .initial).auth.db.sessions.rows,
      ∃ flowId, (flowId, session.id) ∈
          (EmailSystem.perform sampleEmailServices sampleEmailEvents .initial).auth.issued ∧
        ProvenSession sampleEmailServices sampleEmailEvents
          (EmailSystem.perform sampleEmailServices sampleEmailEvents .initial) flowId session := by
  have hone : (EmailSystem.perform sampleEmailServices sampleEmailEvents
      .initial).auth.db.sessions.rows.length = 1 := by
    decide +kernel
  obtain ⟨session, hsession⟩ := List.length_eq_one_iff.mp hone
  have hmem : session ∈ (EmailSystem.perform sampleEmailServices sampleEmailEvents
      .initial).auth.db.sessions.rows := by
    rw [hsession]
    exact List.mem_singleton_self session
  exact ⟨session, hmem, email_sessions_proven sampleEmailServices sampleEmailEvents session hmem⟩

end Runs

end MindOne.Auth
