import Mathlib.Logic.Function.Basic
import MindOne.Coordinator.LedgerEffects

/-!
# The life of a job

A job, its attempts and its receipt change together and apart from all other
jobs. A step either keeps the reservation of the job, ends the job, or settles
it. Every step keeps the attempts numbered without gaps; the job and its
current attempt are leased together as long as no claim leaves an expired
lease half way.
-/

namespace MindOne.Coordinator

open Database

/-- A job with its attempts by number and its receipt. -/
structure Life where
  job : Job
  attempts : Int → Option JobAttempt
  receipt : Option Receipt

/-- An update that ends a leased attempt without success. -/
def EndsAttempt (f : JobAttempt → JobAttempt) : Prop :=
  ∀ attempt, (f attempt).key = attempt.key ∧
    ((f attempt).status = .failed ∨ (f attempt).status = .expired)

/-- The row of a job under a new lease. -/
def Job.leasedTo (job : Job) (nodeId modelInstanceId : Uuid) (expiry : Int) : Job :=
  { job with
    status := .leased
    leasedToNodeId := some nodeId
    modelInstanceId := some modelInstanceId
    leaseExpiresAt := some expiry
    attemptCount := saturatingSuccI32 job.attemptCount }

/-- What a settlement writes to the row of its job. -/
structure JobResult where
  ciphertext : String
  idempotencyKey : String
  actualInputTokens : Int
  actualOutputTokens : Int
  telemetryFingerprint : String

def Job.settled (job : Job) (result : JobResult) : Job :=
  { job with
    status := .succeeded
    resultCiphertext := some result.ciphertext
    resultIdempotencyKey := some result.idempotencyKey
    actualInputTokens := some result.actualInputTokens
    actualOutputTokens := some result.actualOutputTokens
    resultTelemetryFingerprint := some result.telemetryFingerprint }

def JobAttempt.succeed (attempt : JobAttempt) (now : Int) (idempotencyKey : String) :
    JobAttempt :=
  { attempt with
    status := .succeeded
    finishedAt := some now
    resultIdempotencyKey := some idempotencyKey }

def JobAttempt.expire (attempt : JobAttempt) (now : Int) : JobAttempt :=
  { attempt with status := .expired, finishedAt := some now }

/-- A leased attempt with another expiry. -/
def JobAttempt.extend (attempt : JobAttempt) (leaseExpiresAt : Int) : JobAttempt :=
  if attempt.status = .leased then { attempt with leaseExpiresAt } else attempt

theorem JobAttempt.extend_status (attempt : JobAttempt) (leaseExpiresAt : Int) :
    (attempt.extend leaseExpiresAt).status = attempt.status := by
  unfold extend
  split <;> rfl

theorem JobAttempt.extend_key (attempt : JobAttempt) (leaseExpiresAt : Int) :
    (attempt.extend leaseExpiresAt).key = attempt.key := by
  unfold extend
  split <;> rfl

/-- What an ended attempt has become: neither leased nor newly succeeded. -/
theorem EndsAttempt.status {f : JobAttempt → JobAttempt} (ends : EndsAttempt f)
    (attempt : JobAttempt) :
    (if attempt.status = .leased then f attempt else attempt).status ≠ .leased ∧
      ((if attempt.status = .leased then f attempt else attempt).status = .succeeded →
        attempt.status = .succeeded) := by
  by_cases hl : attempt.status = .leased
  · simp only [hl, if_true]
    rcases (ends attempt).2 with he | he <;> simp [he]
  · simp only [hl, if_false]
    exact ⟨hl, id⟩

theorem endsAttempt_expire (now : Int) : EndsAttempt fun attempt => attempt.expire now :=
  fun _ => ⟨rfl, .inr rfl⟩

namespace Life

def current (life : Life) : Option JobAttempt := life.attempts life.job.attemptCount

/-- The attempts after the current one has ended, if it was leased. -/
def endCurrent (life : Life) (f : JobAttempt → JobAttempt) : Int → Option JobAttempt :=
  Function.update life.attempts life.job.attemptCount
    (life.current.map fun attempt => if attempt.status = .leased then f attempt else attempt)

/-- The attempts after a claim has expired the current one. -/
def expireCurrent (life : Life) (now : Int) : Int → Option JobAttempt :=
  if 0 < life.job.attemptCount then life.endCurrent fun attempt => attempt.expire now
  else life.attempts

/-- Steps that keep the reservation. -/
inductive Kept (lost : Prop) (now : Int) (life : Life) : Life → Prop
  | claimed {nodeId modelInstanceId : Uuid} {expiry : Int} {attempt : JobAttempt}
      (awaits : life.job.AwaitsClaim now)
      (fresh : life.expireCurrent now (saturatingSuccI32 life.job.attemptCount) = none)
      (key : attempt.key = (life.job.id, saturatingSuccI32 life.job.attemptCount))
      (leased : attempt.status = .leased)
      (pinned : life.job.confidentialityMode = .regulated →
        life.job.modelInstanceId = some modelInstanceId) :
      Kept lost now life ⟨life.job.leasedTo nodeId modelInstanceId expiry,
        Function.update (life.expireCurrent now) (saturatingSuccI32 life.job.attemptCount)
          (some attempt), life.receipt⟩
  | abandoned (awaits : life.job.AwaitsClaim now) (left : life.job.status = .leased → lost) :
      Kept lost now life ⟨life.job, life.expireCurrent now, life.receipt⟩
  | renewed {expiry : Int} (leased : life.job.status = .leased)
      (valid : life.job.LeaseValid now) :
      Kept lost now life ⟨{ life.job with leaseExpiresAt := some expiry },
        fun n => (life.attempts n).map fun attempt => attempt.extend expiry, life.receipt⟩
  | retried {nowUtc : Int} {f : JobAttempt → JobAttempt} (leased : life.job.status = .leased)
      (remaining : life.job.attemptCount < life.job.maxAttempts) (ends : EndsAttempt f) :
      Kept lost now life ⟨life.job.retried nowUtc, life.endCurrent f, life.receipt⟩

/-- Steps that end the job and give its reservation back. -/
inductive Ended (life : Life) : Life → Prop
  | failed {f : JobAttempt → JobAttempt} (leased : life.job.status = .leased)
      (ends : EndsAttempt f) :
      Ended life ⟨{ life.job with status := .failed }, life.endCurrent f, life.receipt⟩
  | cancelled {f : JobAttempt → JobAttempt} (leased : life.job.status = .leased)
      (ends : EndsAttempt f) :
      Ended life ⟨{ life.job with status := .cancelled, leaseExpiresAt := none },
        life.endCurrent f, life.receipt⟩
  | withdrawn (waiting : life.job.status = .queued ∨ life.job.status = .retry) :
      Ended life ⟨{ life.job with status := .cancelled, leaseExpiresAt := none },
        life.attempts, life.receipt⟩

/-- The step that settles the job. -/
inductive Settled (now : Int) (life : Life) : Life → Prop
  | settled {result : JobResult} {receipt : Receipt} {attempt : JobAttempt}
      (leased : life.job.status = .leased) (valid : life.job.LeaseValid now)
      (held : life.current = some attempt) :
      Settled now life ⟨life.job.settled result,
        Function.update life.attempts life.job.attemptCount
          (some (attempt.succeed now result.idempotencyKey)), some receipt⟩

/-- What holds of a job at any time. -/
structure WellFormed (life : Life) : Prop where
  keyed : ∀ n attempt, life.attempts n = some attempt → attempt.key = (life.job.id, n)
  maxAttempts : 1 ≤ life.job.maxAttempts ∧ life.job.maxAttempts ≤ maxI32
  attemptCount : 0 ≤ life.job.attemptCount ∧ life.job.attemptCount ≤ life.job.maxAttempts
  numbered : ∀ n, (life.attempts n).isSome ↔ 1 ≤ n ∧ n ≤ life.job.attemptCount
  queued : life.job.status = .queued → life.job.attemptCount = 0
  retry : life.job.status = .retry → life.job.attemptCount < life.job.maxAttempts
  leased : life.job.status = .leased → life.job.leaseExpiresAt.isSome
  earlier : ∀ n attempt, life.attempts n = some attempt → n ≠ life.job.attemptCount →
    attempt.status ≠ .leased ∧ attempt.status ≠ .succeeded
  holds : ∀ attempt ∈ life.current, attempt.status = .leased → life.job.status = .leased
  succeeded : life.job.status = .succeeded ↔
    ∃ attempt ∈ life.current, attempt.status = .succeeded
  receipt : life.receipt.isSome ↔ life.job.status = .succeeded

/-- A leased job also has a leased attempt. -/
structure Sound (life : Life) : Prop extends WellFormed life where
  held : life.job.status = .leased → ∃ attempt ∈ life.current, attempt.status = .leased

/-- A write to the row of a job that starts no attempt. -/
structure SameAttempt (life new : Life) : Prop where
  id : new.job.id = life.job.id
  count : new.job.attemptCount = life.job.attemptCount
  maxAttempts : new.job.maxAttempts = life.job.maxAttempts
  queued : new.job.status = .queued → life.job.status = .queued
  retry : new.job.status = .retry → life.job.attemptCount < life.job.maxAttempts
  leased : new.job.status = .leased → new.job.leaseExpiresAt.isSome

section Current
variable {life new : Life} {f : JobAttempt → JobAttempt}

theorem SameAttempt.current (h : SameAttempt life new) {attempt : Option JobAttempt}
    (hattempts : new.attempts = Function.update life.attempts life.job.attemptCount attempt) :
    new.current = attempt := by
  rw [Life.current, h.count, hattempts, Function.update_self]

/-- A write to the current attempt, together with the job. -/
theorem WellFormed.replaceCurrent (h : life.WellFormed) (same : SameAttempt life new)
    (hattempts : new.attempts =
      Function.update life.attempts life.job.attemptCount (life.current.map f))
    (hkey : ∀ attempt, (f attempt).key = attempt.key)
    (hholds : ∀ attempt ∈ life.current, (f attempt).status = .leased → new.job.status = .leased)
    (hsucceeded : new.job.status = .succeeded ↔
      ∃ attempt ∈ life.current, (f attempt).status = .succeeded)
    (hreceipt : new.receipt.isSome ↔ new.job.status = .succeeded) : new.WellFormed := by
  have hcurrent : new.current = life.current.map f := same.current hattempts
  refine {
    keyed := ?_
    maxAttempts := same.maxAttempts ▸ h.maxAttempts
    attemptCount := by rw [same.count, same.maxAttempts]; exact h.attemptCount
    numbered := ?_
    queued := fun hq => same.count.trans (h.queued (same.queued hq))
    retry := fun hr => by rw [same.count, same.maxAttempts]; exact same.retry hr
    leased := same.leased
    earlier := ?_
    holds := ?_
    succeeded := ?_
    receipt := hreceipt }
  · intro n attempt hn
    rw [hattempts] at hn
    rw [same.id]
    by_cases hnc : n = life.job.attemptCount
    · subst hnc
      rw [Function.update_self, Option.map_eq_some_iff] at hn
      obtain ⟨old, hold, rfl⟩ := hn
      rw [hkey]
      exact h.keyed _ _ hold
    · rw [Function.update_of_ne hnc] at hn
      exact h.keyed _ _ hn
  · intro n
    rw [same.count, ← h.numbered n, hattempts]
    by_cases hnc : n = life.job.attemptCount
    · subst hnc
      rw [Function.update_self, Option.isSome_map, Life.current]
    · rw [Function.update_of_ne hnc]
  · intro n attempt hn hne
    rw [same.count] at hne
    rw [hattempts, Function.update_of_ne hne] at hn
    exact h.earlier n attempt hn hne
  · intro attempt hmem hstatus
    rw [hcurrent] at hmem
    obtain ⟨old, hold, rfl⟩ := Option.map_eq_some_iff.mp hmem
    exact hholds old hold hstatus
  · rw [hcurrent, hsucceeded]
    constructor
    · rintro ⟨old, hold, hs⟩
      exact ⟨f old, Option.map_eq_some_iff.mpr ⟨old, hold, rfl⟩, hs⟩
    · rintro ⟨attempt, hmem, hs⟩
      obtain ⟨old, hold, rfl⟩ := Option.map_eq_some_iff.mp hmem
      exact ⟨old, hold, hs⟩

/-- The end of a current attempt, with a job that has not succeeded before or after. -/
theorem WellFormed.endCurrent (h : life.WellFormed) (ends : EndsAttempt f)
    (same : SameAttempt life new) (hattempts : new.attempts = life.endCurrent f)
    (hreceipt : new.receipt = life.receipt)
    (hbefore : life.job.status ≠ .succeeded) (hafter : new.job.status ≠ .succeeded) :
    new.WellFormed := by
  refine h.replaceCurrent same hattempts ?_ ?_ ?_ ?_
  · intro attempt
    by_cases hs : attempt.status = .leased
    · simp only [hs, if_true, (ends attempt).1]
    · simp only [hs, if_false]
  · intro attempt _ hs
    exact absurd hs (ends.status attempt).1
  · refine iff_of_false hafter ?_
    rintro ⟨attempt, hmem, hs⟩
    exact hbefore (h.succeeded.mpr ⟨attempt, hmem, (ends.status attempt).2 hs⟩)
  · rw [hreceipt]
    exact iff_of_false (fun hr => hbefore (h.receipt.mp hr)) hafter

/-- After an end the current attempt is no longer leased. -/
theorem endCurrent_not_leased (ends : EndsAttempt f) (same : SameAttempt life new)
    (hattempts : new.attempts = life.endCurrent f) :
    ∀ attempt ∈ new.current, attempt.status ≠ .leased := by
  intro attempt hmem
  rw [same.current hattempts] at hmem
  obtain ⟨old, -, rfl⟩ := Option.map_eq_some_iff.mp hmem
  exact (ends.status old).1

/-- The expiry that a claim writes is the end of the current attempt, if there is one. -/
theorem WellFormed.expireCurrent (h : life.WellFormed) (now : Int) :
    life.expireCurrent now = life.endCurrent fun attempt => attempt.expire now := by
  by_cases hpos : 0 < life.job.attemptCount
  · rw [Life.expireCurrent, if_pos hpos]
  · have hnone : life.current = none := by
      rw [← Option.not_isSome_iff_eq_none, Life.current, h.numbered]
      omega
    rw [Life.expireCurrent, if_neg hpos, Life.endCurrent, hnone, Option.map_none, ← hnone,
      Life.current, Function.update_eq_self]

/-- A new attempt on a job whose current attempt is over. -/
theorem WellFormed.append (h : life.WellFormed) {nodeId modelInstanceId : Uuid} {expiry : Int}
    {attempt : JobAttempt} (hidle : ∀ old ∈ life.current, old.status ≠ .leased)
    (hstatus : life.job.status ≠ .succeeded)
    (hremaining : life.job.attemptCount < life.job.maxAttempts)
    (hkey : attempt.key = (life.job.id, saturatingSuccI32 life.job.attemptCount))
    (hleased : attempt.status = .leased)
    (hjob : new.job = life.job.leasedTo nodeId modelInstanceId expiry)
    (hattempts : new.attempts =
      Function.update life.attempts (saturatingSuccI32 life.job.attemptCount) (some attempt))
    (hreceipt : new.receipt = life.receipt) : new.Sound := by
  obtain ⟨hlow, hhigh⟩ := h.attemptCount
  have hsucc : saturatingSuccI32 life.job.attemptCount = life.job.attemptCount + 1 := by
    have := h.maxAttempts
    rw [saturatingSuccI32]
    omega
  rw [hsucc] at hkey hattempts
  have hcount : new.job.attemptCount = life.job.attemptCount + 1 := by
    rw [hjob]
    exact hsucc
  have hleasedJob : new.job.status = .leased := by rw [hjob]; rfl
  have hcurrent : new.current = some attempt := by
    rw [Life.current, hcount, hattempts, Function.update_self]
  refine {
    keyed := ?_
    maxAttempts := by rw [hjob]; exact h.maxAttempts
    attemptCount := by
      rw [hcount, hjob]
      exact ⟨by omega, by exact hremaining⟩
    numbered := ?_
    queued := fun hq => by rw [hleasedJob] at hq; cases hq
    retry := fun hr => by rw [hleasedJob] at hr; cases hr
    leased := fun _ => by rw [hjob]; rfl
    earlier := ?_
    holds := fun _ _ _ => hleasedJob
    succeeded := ?_
    receipt := ?_
    held := fun _ => ⟨attempt, hcurrent, hleased⟩ }
  · intro n other hn
    have hid : new.job.id = life.job.id := by rw [hjob]; rfl
    rw [hattempts] at hn
    rw [hid]
    by_cases hnc : n = life.job.attemptCount + 1
    · subst hnc
      rw [Function.update_self, Option.some.injEq] at hn
      exact hn ▸ hkey
    · rw [Function.update_of_ne hnc] at hn
      exact h.keyed _ _ hn
  · intro n
    rw [hcount, hattempts]
    by_cases hnc : n = life.job.attemptCount + 1
    · subst hnc
      simp only [Function.update_self, Option.isSome_some, true_iff]
      omega
    · rw [Function.update_of_ne hnc, h.numbered n]
      omega
  · intro n other hn hne
    rw [hcount] at hne
    rw [hattempts, Function.update_of_ne hne] at hn
    by_cases hnc : n = life.job.attemptCount
    · subst hnc
      exact ⟨hidle other hn, fun hs => hstatus (h.succeeded.mpr ⟨other, hn, hs⟩)⟩
    · exact h.earlier n other hn hnc
  · refine iff_of_false (by rw [hleasedJob]; decide) ?_
    rintro ⟨other, hmem, hs⟩
    rw [hcurrent, Option.mem_some_iff] at hmem
    rw [← hmem, hleased] at hs
    cases hs
  · rw [hreceipt]
    exact iff_of_false (fun hr => hstatus (h.receipt.mp hr)) (by rw [hleasedJob]; decide)

end Current

section Steps
variable {life new : Life} {lost : Prop} {now : Int}

theorem AwaitsClaim.status {job : Job} (h : job.AwaitsClaim now) :
    job.status ≠ .succeeded ∧ job.attemptCount < job.maxAttempts := by
  obtain ⟨hstatus, -, hremaining⟩ := h
  refine ⟨?_, hremaining⟩
  rcases hstatus with hs | hs | ⟨hs, -⟩ <;> rw [hs] <;> decide

/-- The job as a claim finds it once the expired attempt is written. -/
theorem WellFormed.expired (h : life.WellFormed) (hstatus : life.job.status ≠ .succeeded) :
    let left : Life := ⟨life.job, life.expireCurrent now, life.receipt⟩
    left.WellFormed ∧ ∀ attempt ∈ left.current, attempt.status ≠ .leased := by
  intro left
  have same : SameAttempt life left := ⟨rfl, rfl, rfl, id, h.retry, h.leased⟩
  have hattempts : left.attempts = life.endCurrent fun attempt => attempt.expire now :=
    h.expireCurrent now
  exact ⟨h.endCurrent (endsAttempt_expire now) same hattempts rfl hstatus hstatus,
    endCurrent_not_leased (endsAttempt_expire now) same hattempts⟩

/-- A new lease makes a job sound again, whatever its expired lease was left as. -/
theorem WellFormed.claim (h : life.WellFormed) {nodeId modelInstanceId : Uuid} {expiry : Int}
    {attempt : JobAttempt} (awaits : life.job.AwaitsClaim now)
    (key : attempt.key = (life.job.id, saturatingSuccI32 life.job.attemptCount))
    (leased : attempt.status = .leased) :
    Sound ⟨life.job.leasedTo nodeId modelInstanceId expiry,
      Function.update (life.expireCurrent now) (saturatingSuccI32 life.job.attemptCount)
        (some attempt), life.receipt⟩ := by
  obtain ⟨hstatus, hremaining⟩ := AwaitsClaim.status awaits
  obtain ⟨hleft, hidle⟩ : _ ∧ _ := h.expired hstatus
  exact hleft.append hidle hstatus hremaining key leased rfl rfl rfl

/-- A renewal only writes to the current attempt: no other one is leased. -/
theorem WellFormed.extended (h : life.WellFormed) (expiry : Int) :
    (fun n => (life.attempts n).map fun attempt => attempt.extend expiry) =
      Function.update life.attempts life.job.attemptCount
        (life.current.map fun attempt => attempt.extend expiry) := by
  funext n
  by_cases hn : n = life.job.attemptCount
  · subst hn
    rw [Function.update_self, current]
  · rw [Function.update_of_ne hn]
    cases hattempt : life.attempts n with
    | none => rfl
    | some attempt =>
        have hidle := (h.earlier n attempt hattempt hn).1
        rw [Option.map_some, JobAttempt.extend, if_neg hidle]

theorem WellFormed.renew (h : life.WellFormed) {expiry : Int}
    (leased : life.job.status = .leased) :
    WellFormed ⟨{ life.job with leaseExpiresAt := some expiry },
      fun n => (life.attempts n).map fun attempt => attempt.extend expiry, life.receipt⟩ := by
  refine h.replaceCurrent (f := fun attempt => attempt.extend expiry)
    ⟨rfl, rfl, rfl, id, h.retry, fun _ => rfl⟩ (h.extended expiry) ?_ ?_ ?_ h.receipt
  · exact fun attempt => attempt.extend_key expiry
  · exact fun _ _ _ => leased
  · simp only [JobAttempt.extend_status]
    exact h.succeeded

theorem WellFormed.settle (h : life.WellFormed) {result : JobResult} {receipt : Receipt}
    {attempt : JobAttempt} (held : life.current = some attempt) :
    WellFormed ⟨life.job.settled result, Function.update life.attempts life.job.attemptCount
      (some (attempt.succeed now result.idempotencyKey)), some receipt⟩ := by
  refine h.replaceCurrent (f := fun attempt => attempt.succeed now result.idempotencyKey)
    ⟨rfl, rfl, rfl, nofun, nofun, nofun⟩ ?_ (fun _ => rfl) ?_ ?_ ?_
  · rw [held, Option.map_some]
  · rintro _ - hs
    cases hs
  · exact iff_of_true rfl ⟨attempt, held, rfl⟩
  · exact iff_of_true rfl rfl

theorem Kept.wellFormed (step : Kept lost now life new) (h : life.WellFormed) :
    new.WellFormed := by
  cases step with
  | claimed awaits fresh key leased pinned => exact (h.claim awaits key leased).toWellFormed
  | abandoned awaits left => exact (h.expired (AwaitsClaim.status awaits).1).1
  | renewed leased valid => exact h.renew leased
  | retried leased remaining ends =>
      exact h.endCurrent ends ⟨rfl, rfl, rfl, nofun, fun _ => remaining, nofun⟩ rfl rfl
        (by rw [leased]; decide) nofun

theorem Ended.wellFormed (step : Ended life new) (h : life.WellFormed) : new.WellFormed := by
  cases step with
  | failed leased ends =>
      exact h.endCurrent ends ⟨rfl, rfl, rfl, nofun, nofun, nofun⟩ rfl rfl
        (by rw [leased]; decide) nofun
  | cancelled leased ends =>
      exact h.endCurrent ends ⟨rfl, rfl, rfl, nofun, nofun, nofun⟩ rfl rfl
        (by rw [leased]; decide) nofun
  | withdrawn waiting =>
      have hbefore : life.job.status ≠ .succeeded := by
        rcases waiting with hs | hs <;> rw [hs] <;> decide
      have hidle : ∀ attempt ∈ life.current, attempt.status ≠ .leased := by
        intro attempt hmem hs
        have hleased := h.holds attempt hmem hs
        rcases waiting with hw | hw <;> rw [hw] at hleased <;> cases hleased
      refine h.replaceCurrent (f := id) ⟨rfl, rfl, rfl, nofun, nofun, nofun⟩ ?_
        (fun _ => rfl) ?_ ?_ ?_
      · rw [Option.map_id, id_eq, current, Function.update_eq_self]
      · exact fun attempt hmem hs => absurd hs (hidle attempt hmem)
      · exact iff_of_false nofun fun hs => hbefore (h.succeeded.mpr hs)
      · exact iff_of_false (fun hr => hbefore (h.receipt.mp hr)) nofun

theorem Settled.wellFormed (step : Settled now life new) (h : life.WellFormed) :
    new.WellFormed := by
  cases step with
  | settled leased valid held => exact h.settle held

/-- Without an abandoned lease, the job and its current attempt stay leased together. -/
theorem Kept.sound (step : Kept lost now life new) (h : life.Sound) (hlost : ¬ lost) :
    new.Sound := by
  refine ⟨step.wellFormed h.toWellFormed, ?_⟩
  cases step with
  | claimed awaits fresh key leased pinned => exact (h.claim awaits key leased).held
  | abandoned awaits left => exact fun hleased => absurd (left hleased) hlost
  | @renewed expiry leased valid =>
      intro _
      obtain ⟨attempt, hmem, hs⟩ := h.held leased
      refine ⟨attempt.extend expiry, ?_, (attempt.extend_status expiry).trans hs⟩
      exact Option.map_eq_some_iff.mpr ⟨attempt, hmem, rfl⟩
  | retried leased remaining ends => exact nofun

theorem Ended.sound (step : Ended life new) (h : life.Sound) : new.Sound := by
  refine ⟨step.wellFormed h.toWellFormed, ?_⟩
  cases step <;> exact nofun

theorem Settled.sound (step : Settled now life new) (h : life.Sound) : new.Sound := by
  refine ⟨step.wellFormed h.toWellFormed, ?_⟩
  cases step
  exact nofun

/-- A step of any kind. -/
inductive Step (lost : Prop) (now : Int) (life new : Life) : Prop
  | kept (step : Kept lost now life new)
  | ended (step : Ended life new)
  | settled (step : Settled now life new)

theorem Step.wellFormed (step : Step lost now life new) (h : life.WellFormed) :
    new.WellFormed := by
  cases step with
  | kept step => exact step.wellFormed h
  | ended step => exact step.wellFormed h
  | settled step => exact step.wellFormed h

theorem Step.sound (step : Step lost now life new) (h : life.Sound) (hlost : ¬ lost) :
    new.Sound := by
  cases step with
  | kept step => exact step.sound h hlost
  | ended step => exact step.sound h
  | settled step => exact step.sound h

theorem Kept.live (step : Kept lost now life new) :
    life.job.status.Live ∧ new.job.status.Live := by
  cases step with
  | claimed awaits fresh key leased pinned =>
      refine ⟨?_, .inr (.inr rfl)⟩
      rcases awaits.1 with hs | hs | ⟨hs, -⟩ <;> simp [JobStatus.Live, hs]
  | abandoned awaits left =>
      rcases awaits.1 with hs | hs | ⟨hs, -⟩ <;> simp [JobStatus.Live, hs]
  | renewed leased valid => exact ⟨.inr (.inr leased), .inr (.inr leased)⟩
  | retried leased remaining ends => exact ⟨.inr (.inr leased), .inr (.inl rfl)⟩

theorem Ended.live (step : Ended life new) :
    life.job.status.Live ∧ ¬ new.job.status.Live := by
  cases step with
  | failed leased ends => exact ⟨.inr (.inr leased), nofun⟩
  | cancelled leased ends => exact ⟨.inr (.inr leased), nofun⟩
  | withdrawn waiting => exact ⟨waiting.imp_right .inl, nofun⟩

theorem Settled.live (step : Settled now life new) :
    life.job.status.Live ∧ ¬ new.job.status.Live := by
  cases step with
  | settled leased valid held => exact ⟨.inr (.inr leased), nofun⟩

/-- A job that has ended takes no further step. -/
theorem Step.live (step : Step lost now life new) : life.job.status.Live := by
  cases step with
  | kept step => exact step.live.1
  | ended step => exact step.live.1
  | settled step => exact step.live.1

/-- The columns that no step writes. -/
structure Frozen (old new : Job) : Prop where
  id : new.id = old.id
  userId : new.userId = old.userId
  reservedCostMicro : new.reservedCostMicro = old.reservedCostMicro
  encryptedPayload : new.encryptedPayload = old.encryptedPayload
  confidentialityMode : new.confidentialityMode = old.confidentialityMode
  pins : old.confidentialityMode = .regulated →
    new.regulatedNodeId = old.regulatedNodeId ∧ new.modelInstanceId = old.modelInstanceId ∧
      new.attestationReportId = old.attestationReportId

theorem Step.frozen (step : Step lost now life new) : Frozen life.job new.job := by
  cases step with
  | kept step =>
      cases step with
      | claimed awaits fresh key leased pinned =>
          exact ⟨rfl, rfl, rfl, rfl, rfl, fun hr => ⟨rfl, (pinned hr).symm, rfl⟩⟩
      | abandoned awaits left => exact ⟨rfl, rfl, rfl, rfl, rfl, fun _ => ⟨rfl, rfl, rfl⟩⟩
      | renewed leased valid => exact ⟨rfl, rfl, rfl, rfl, rfl, fun _ => ⟨rfl, rfl, rfl⟩⟩
      | retried leased remaining ends =>
          exact ⟨rfl, rfl, rfl, rfl, rfl, fun hr => ⟨rfl, if_pos hr, rfl⟩⟩
  | ended step =>
      cases step <;> exact ⟨rfl, rfl, rfl, rfl, rfl, fun _ => ⟨rfl, rfl, rfl⟩⟩
  | settled step =>
      cases step
      exact ⟨rfl, rfl, rfl, rfl, rfl, fun _ => ⟨rfl, rfl, rfl⟩⟩

end Steps

end Life

end MindOne.Coordinator
