import MindOne.Coordinator.JobLife

/-!
# What a transaction can do

Every transaction is a sequence of transitions: something changes that jobs and
ledgers do not depend on, an account opens, quota enters or leaves, a job
appears, or one job takes one step of its life with the effect on the ledgers
that belongs to the step. The flow of a transition is the quota that enters
through it.
-/

namespace MindOne.Coordinator

open CheckedArithmetic Accounting Database KeyedTable

/-- The rows of a table keep their keys. -/
def KeepsKeys {ρ : Type} {key : ρ → Uuid} (before after : Table key) : Prop :=
  ∀ row ∈ before.rows, (after.find (key row)).isSome

instance {ρ : Type} {key : ρ → Uuid} (before after : Table key) :
    Decidable (KeepsKeys before after) :=
  inferInstanceAs (Decidable (∀ row ∈ before.rows, (after.find (key row)).isSome))

theorem KeepsKeys.find {ρ : Type} {key : ρ → Uuid} {before after : Table key}
    (h : KeepsKeys before after) {id : Uuid} (hfind : (before.find id).isSome) :
    (after.find id).isSome := by
  obtain ⟨row, hrow⟩ := Option.isSome_iff_exists.mp hfind
  have := h row (Table.mem_of_find hrow)
  rwa [Table.key_of_find hrow] at this

theorem KeepsKeys.refl {ρ : Type} {key : ρ → Uuid} (table : Table key) :
    KeepsKeys table table := fun row hrow => by rw [Table.find_of_mem hrow]; rfl

theorem KeepsKeys.trans {ρ : Type} {key : ρ → Uuid} {first second third : Table key}
    (h : KeepsKeys first second) (h' : KeepsKeys second third) : KeepsKeys first third :=
  fun row hrow => h'.find (h row hrow)

theorem keepsKeys_set {ρ : Type} {key : ρ → Uuid} (table : Table key) (row : ρ) :
    KeepsKeys table (table.set row) := by
  intro other hother
  rw [Table.find_set]
  split
  · rfl
  · rw [Table.find_of_mem hother]
    rfl

/-- Rows that jobs refer to are never removed. -/
structure Workers.Keeps (before after : Workers) : Prop where
  nodes : KeepsKeys before.nodes after.nodes
  models : KeepsKeys before.models after.models
  modelInstances : KeepsKeys before.modelInstances after.modelInstances
  attestationReports : KeepsKeys before.attestationReports after.attestationReports

theorem Workers.keeps_iff {before after : Workers} :
    before.Keeps after ↔ KeepsKeys before.nodes after.nodes ∧
      KeepsKeys before.models after.models ∧
      KeepsKeys before.modelInstances after.modelInstances ∧
      KeepsKeys before.attestationReports after.attestationReports :=
  ⟨fun h => ⟨h.nodes, h.models, h.modelInstances, h.attestationReports⟩,
    fun h => ⟨h.1, h.2.1, h.2.2.1, h.2.2.2⟩⟩

instance (before after : Workers) : Decidable (before.Keeps after) :=
  decidable_of_iff _ Workers.keeps_iff.symm

theorem Workers.Keeps.refl (workers : Workers) : workers.Keeps workers :=
  ⟨.refl _, .refl _, .refl _, .refl _⟩

theorem Workers.Keeps.trans {a b c : Workers} (hab : a.Keeps b) (hbc : b.Keeps c) :
    a.Keeps c where
  nodes := fun row hrow => hbc.nodes.find (hab.nodes row hrow)
  models := fun row hrow => hbc.models.find (hab.models row hrow)
  modelInstances := fun row hrow => hbc.modelInstances.find (hab.modelInstances row hrow)
  attestationReports := fun row hrow =>
    hbc.attestationReports.find (hab.attestationReports row hrow)

/-- The rows that pin a regulated job stay there. -/
theorem Workers.Keeps.bindingRows {before after : Workers} (h : before.Keeps after) {job : Job}
    (hrows : (bindingRows before job).isSome) : (bindingRows after job).isSome := by
  obtain ⟨rows, hrows⟩ := Option.isSome_iff_exists.mp hrows
  simp only [Coordinator.bindingRows, Option.bind_eq_bind, Option.bind_eq_some_iff] at hrows
  obtain ⟨node, ⟨nodeId, hnodeId, hnode⟩, mi, ⟨miId, hmiId, hmi⟩, report,
    ⟨reportId, hreportId, hreport⟩, -⟩ := hrows
  have hnode' := h.nodes.find (Option.isSome_of_mem hnode)
  have hmi' := h.modelInstances.find (Option.isSome_of_mem hmi)
  have hreport' := h.attestationReports.find (Option.isSome_of_mem hreport)
  obtain ⟨_, hnode'⟩ := Option.isSome_iff_exists.mp hnode'
  obtain ⟨_, hmi'⟩ := Option.isSome_iff_exists.mp hmi'
  obtain ⟨_, hreport'⟩ := Option.isSome_iff_exists.mp hreport'
  simp [Coordinator.bindingRows, hnodeId, hmiId, hreportId, hnode', hmi', hreport']

/-- Neither jobs nor ledgers change, and what refers to them only grows. -/
structure Quiet (db after : Db) : Prop where
  now : db.now ≤ after.now
  ledger : after.ledger = db.ledger
  jobs : after.jobs = db.jobs
  jobAttempts : after.jobAttempts = db.jobAttempts
  receipts : after.receipts = db.receipts
  workers : db.workers.Keeps after.workers
  grants : ∀ key grant, db.operatorQuotaGrants.find key = some grant →
    after.operatorQuotaGrants.find key = some grant
  releases : ∀ key release, db.operatorReserveReleases.find key = some release →
    after.operatorReserveReleases.find key = some release

theorem Quiet.refl (db : Db) : Quiet db db :=
  ⟨le_rfl, rfl, rfl, rfl, rfl, .refl _, fun _ _ h => h, fun _ _ h => h⟩

/-- Only the tables of the workers change. -/
theorem Quiet.ofWorkers {db : Db} {workers : Workers} (h : db.workers.Keeps workers) :
    Quiet db { db with workers } :=
  ⟨le_rfl, rfl, rfl, rfl, rfl, h, fun _ _ h => h, fun _ _ h => h⟩

theorem Quiet.trans {db mid after : Db} (first : Quiet db mid) (second : Quiet mid after) :
    Quiet db after where
  now := first.now.trans second.now
  ledger := second.ledger.trans first.ledger
  jobs := second.jobs.trans first.jobs
  jobAttempts := second.jobAttempts.trans first.jobAttempts
  receipts := second.receipts.trans first.receipts
  workers := first.workers.trans second.workers
  grants := fun key grant h => second.grants key grant (first.grants key grant h)
  releases := fun key release h => second.releases key release (first.releases key release h)

theorem Db.unpublishDrained_quiet (db : Db) (chosen : Uuid → Bool) :
    Quiet db (db.unpublishDrained chosen) := by
  refine .ofWorkers ⟨.refl _, .refl _, fun mi hmi => ?_, .refl _⟩
  rw [Table.find_mapRows, Table.find_of_mem hmi]
  rfl

theorem Db.finalizeDrainingInstance_quiet (db : Db) (modelInstanceId : Option Uuid) :
    Quiet db (db.finalizeDrainingInstance modelInstanceId) := by
  cases modelInstanceId with
  | none => exact .refl db
  | some id => exact db.unpublishDrained_quiet fun other => other = id

/-- A job with its attempts and its receipt. -/
def Db.life (db : Db) (job : Job) : Life :=
  ⟨job, fun n => db.jobAttempts.find (job.id, n), db.receipts.find job.id⟩

/-- The life of one job is written; everything but the ledgers stays. -/
structure Follows (db : Db) (life : Life) (after : Db) : Prop where
  now : after.now = db.now
  jobs : after.jobs = db.jobs.set life.job
  attempts : ∀ jobId n, after.jobAttempts.find (jobId, n) =
    if jobId = life.job.id then life.attempts n else db.jobAttempts.find (jobId, n)
  receipts : ∀ jobId, after.receipts.find jobId =
    if jobId = life.job.id then life.receipt else db.receipts.find jobId
  workers : after.workers = db.workers
  grants : after.operatorQuotaGrants = db.operatorQuotaGrants
  releases : after.operatorReserveReleases = db.operatorReserveReleases

section Follows
variable {db after : Db} {life : Life}

theorem Follows.find (h : Follows db life after) (id : Uuid) :
    after.jobs.find id = if id = life.job.id then some life.job else db.jobs.find id := by
  rw [h.jobs, Table.find_set]

theorem Follows.self (h : Follows db life after) : after.life life.job = life := by
  obtain ⟨job, attempts, receipt⟩ := life
  simp only [Db.life, h.attempts, h.receipts, if_true]

theorem Follows.other (h : Follows db life after) {job : Job} (hne : job.id ≠ life.job.id) :
    after.life job = db.life job := by
  simp only [Db.life, h.attempts, h.receipts, hne, if_false]

/-- The jobs afterwards: the written one and the others of before. -/
theorem Follows.mem (h : Follows db life after) {job : Job} :
    job ∈ after.jobs.rows ↔
      job = life.job ∨ (job ∈ db.jobs.rows ∧ job.id ≠ life.job.id) := by
  rw [h.jobs, Table.mem_set]

end Follows

/-- A new job. -/
structure Job.Created (job : Job) (env : Services) (workers : Workers) : Prop where
  status : job.status = .queued
  attemptCount : job.attemptCount = 0
  maxAttempts : 1 ≤ job.maxAttempts ∧ job.maxAttempts ≤ maxI32
  reserved : 0 < job.reservedCostMicro
  sealed : job.confidentialityMode = .standard →
    ∃ text, env.encryptForStorage job.id .payload text = .ok job.encryptedPayload
  pinned : job.confidentialityMode = .regulated → (bindingRows workers job).isSome

/-- What a settlement does to the ledgers: the reservation is given back, the
consumer pays, the node earns quota and contribution, and the reserve takes the
rest of the payment. -/
def Paid (db : LedgerDb) (consumer node : Uuid) (reserved : Int) (after : LedgerDb) : Prop :=
  ∃ (amounts : SettlementAmounts) (released paid credited contributed : LedgerDb),
    amounts.userDeductionMicro = amounts.nodeQuotaMicro + amounts.reserveMicro ∧
    db.Moved consumer (-reserved) released ∧
    released.Inserted .quotaLedger (some consumer) "consumer_deduction"
      (-amounts.userDeductionMicro) paid ∧
    paid.Inserted .quotaLedger (some node) "node_reward" amounts.nodeQuotaMicro credited ∧
    credited.Inserted .contributionLedger (some node) "node_contribution"
      amounts.contributionMicro contributed ∧
    contributed.Inserted .reserveLedger none "settlement_inflow" amounts.reserveMicro after

/-- One transition and the quota that enters through it. -/
inductive Transition (env : Services) (lost : Prop) (db : Db) : Int → Db → Prop
  | quiet {after : Db} (quiet : Quiet db after) : Transition env lost db 0 after
  | opened {userId : Uuid} (fresh : db.ledger.accounts.find userId = none) :
      Transition env lost db 0 { db with ledger := db.ledger.openAccount userId }
  | credited {userId : Uuid} {entryType : String} {amount : Int} {ledger : LedgerDb}
      (inserted : db.ledger.Inserted .quotaLedger (some userId) entryType amount ledger) :
      Transition env lost db amount { db with ledger }
  | withdrawn {entryType : String} {amount : Int} {ledger : LedgerDb}
      (inserted : db.ledger.Inserted .reserveLedger none entryType (-amount) ledger) :
      Transition env lost db (-amount) { db with ledger }
  | created {job : Job} {after : Db} (fresh : db.jobs.find job.id = none)
      (new : job.Created env db.workers)
      (reserved : db.ledger.Moved job.userId job.reservedCostMicro after.ledger)
      (follows : Follows db (db.life job) after) : Transition env lost db 0 after
  | kept {job : Job} {life : Life} {after : Db} (found : db.jobs.find job.id = some job)
      (step : Life.Kept lost db.now (db.life job) life) (follows : Follows db life after)
      (ledger : after.ledger = db.ledger) : Transition env lost db 0 after
  | ended {job : Job} {life : Life} {after : Db} (found : db.jobs.find job.id = some job)
      (step : Life.Ended (db.life job) life) (follows : Follows db life after)
      (released : db.ledger.Moved job.userId (-job.reservedCostMicro) after.ledger) :
      Transition env lost db 0 after
  | settled {job : Job} {life : Life} {node : Uuid} {after : Db}
      (found : db.jobs.find job.id = some job)
      (step : Life.Settled db.now (db.life job) life) (follows : Follows db life after)
      (paid : Paid db.ledger job.userId node job.reservedCostMicro after.ledger) :
      Transition env lost db 0 after

/-- A sequence of transitions. -/
inductive Moves (env : Services) (lost : Prop) (db : Db) : Int → Db → Prop
  | refl : Moves env lost db 0 db
  | tail {flow flow' : Int} {mid after : Db} (moves : Moves env lost db flow mid)
      (transition : Transition env lost mid flow' after) :
      Moves env lost db (flow + flow') after

section Moves
variable {env : Services} {lost : Prop} {db mid after : Db} {flow flow' : Int}

theorem Moves.single (h : Transition env lost db flow after) : Moves env lost db flow after := by
  have hmoves := Moves.refl.tail h
  rwa [zero_add] at hmoves

theorem Moves.trans (first : Moves env lost db flow mid) (second : Moves env lost mid flow' after) :
    Moves env lost db (flow + flow') after := by
  induction second with
  | refl => rwa [add_zero]
  | tail _ transition ih =>
      rw [← add_assoc]
      exact ih.tail transition

theorem Moves.quiet (h : Moves env lost db flow mid) (quiet : Quiet mid after) :
    Moves env lost db flow after := by
  have hmoves := h.tail (.quiet quiet)
  rwa [add_zero] at hmoves

theorem Quiet.moves (h : Quiet db after) : Moves env lost db 0 after := .single (.quiet h)

/-- A sequence through which nothing enters, followed by another one. -/
theorem Moves.andThen (first : Moves env lost db 0 mid) (second : Moves env lost mid flow after) :
    Moves env lost db flow after := by
  have hmoves := first.trans second
  rwa [zero_add] at hmoves

/-- What every transition keeps, every sequence keeps. -/
theorem Moves.keeps {I : Db → Prop}
    (hstep : ∀ {db flow after}, Transition env lost db flow after → I db → I after)
    (h : Moves env lost db flow after) (hI : I db) : I after := by
  induction h with
  | refl => exact hI
  | tail _ transition ih => exact hstep transition ih

end Moves

/-- Every job has a life of the given kind, and no attempt or receipt is without a job. -/
structure Db.Lives (P : Life → Prop) (db : Db) : Prop where
  lives : ∀ job ∈ db.jobs.rows, P (db.life job)
  attempts : ∀ jobId n, (db.jobAttempts.find (jobId, n)).isSome → (db.jobs.find jobId).isSome
  receipts : ∀ jobId, (db.receipts.find jobId).isSome → (db.jobs.find jobId).isSome

section Lives
variable {env : Services} {lost : Prop} {db after : Db} {flow : Int} {P : Life → Prop}

/-- Before its first attempt a job has neither attempts nor a receipt. -/
theorem Db.Lives.fresh (h : db.Lives P) {job : Job} (hfresh : db.jobs.find job.id = none) :
    db.life job = ⟨job, fun _ => none, none⟩ := by
  have hattempts (n : Int) : db.jobAttempts.find (job.id, n) = none := by
    rw [← Option.not_isSome_iff_eq_none]
    intro hsome
    have := h.attempts job.id n hsome
    simp [hfresh] at this
  have hreceipt : db.receipts.find job.id = none := by
    rw [← Option.not_isSome_iff_eq_none]
    intro hsome
    have := h.receipts job.id hsome
    simp [hfresh] at this
  simp only [Db.life, hattempts, hreceipt]

/-- The life of one job is written and keeps its kind. -/
theorem Follows.lives {life : Life} (follows : Follows db life after) (h : db.Lives P)
    (hlife : P life) : after.Lives P where
  lives := by
    intro job hmem
    rcases follows.mem.mp hmem with rfl | ⟨hold, hne⟩
    · rw [follows.self]
      exact hlife
    · rw [follows.other hne]
      exact h.lives job hold
  attempts := by
    intro jobId n hsome
    rw [follows.find]
    rw [follows.attempts] at hsome
    by_cases hid : jobId = life.job.id
    · rw [if_pos hid]
      rfl
    · rw [if_neg hid] at hsome ⊢
      exact h.attempts jobId n hsome
  receipts := by
    intro jobId hsome
    rw [follows.find]
    rw [follows.receipts] at hsome
    by_cases hid : jobId = life.job.id
    · rw [if_pos hid]
      rfl
    · rw [if_neg hid] at hsome ⊢
      exact h.receipts jobId hsome

theorem Quiet.lives (quiet : Quiet db after) (h : db.Lives P) : after.Lives P where
  lives := by
    intro job hmem
    rw [quiet.jobs] at hmem
    simp only [Db.life, quiet.jobAttempts, quiet.receipts]
    exact h.lives job hmem
  attempts := by
    rw [quiet.jobs, quiet.jobAttempts]
    exact h.attempts
  receipts := by
    rw [quiet.jobs, quiet.receipts]
    exact h.receipts

/-- What new jobs have and steps keep holds of all lives after a transition. -/
theorem Transition.lives (t : Transition env lost db flow after)
    (hnew : ∀ {job}, job.Created env db.workers → P ⟨job, fun _ => none, none⟩)
    (hstep : ∀ {life new}, Life.Step lost db.now life new → P life → P new)
    (h : db.Lives P) : after.Lives P := by
  cases t with
  | quiet quiet => exact quiet.lives h
  | opened fresh => exact ⟨h.lives, h.attempts, h.receipts⟩
  | credited inserted => exact ⟨h.lives, h.attempts, h.receipts⟩
  | withdrawn inserted => exact ⟨h.lives, h.attempts, h.receipts⟩
  | created fresh new reserved follows =>
      rw [h.fresh fresh] at follows
      exact follows.lives h (hnew new)
  | kept found step follows ledger =>
      exact follows.lives h (hstep (.kept step) (h.lives _ (Table.mem_of_find found)))
  | ended found step follows released =>
      exact follows.lives h (hstep (.ended step) (h.lives _ (Table.mem_of_find found)))
  | settled found step follows paid =>
      exact follows.lives h (hstep (.settled step) (h.lives _ (Table.mem_of_find found)))

theorem Job.Created.wellFormed {job : Job} {workers : Workers}
    (new : job.Created env workers) : Life.WellFormed ⟨job, fun _ => none, none⟩ := by
  have hcount := new.attemptCount
  have hstatus := new.status
  have hmax := new.maxAttempts
  exact {
    keyed := fun _ _ h => nomatch h
    maxAttempts := hmax
    attemptCount := ⟨hcount.ge, by show job.attemptCount ≤ job.maxAttempts; omega⟩
    numbered := by
      intro n
      simp only [hcount, Option.isSome_none, Bool.false_eq_true, false_iff]
      omega
    queued := fun _ => hcount
    retry := fun hr => by simp [hstatus] at hr
    leased := fun hl => by simp [hstatus] at hl
    earlier := fun _ _ h => nomatch h
    holds := fun _ h => nomatch h
    succeeded := by simp [hstatus, Life.current]
    receipt := by simp [hstatus] }

theorem Job.Created.sound {job : Job} {workers : Workers}
    (new : job.Created env workers) : Life.Sound ⟨job, fun _ => none, none⟩ where
  toWellFormed := new.wellFormed
  held := fun hl => by simp [new.status] at hl

theorem Transition.wellFormed (t : Transition env lost db flow after)
    (h : db.Lives Life.WellFormed) : after.Lives Life.WellFormed :=
  t.lives Job.Created.wellFormed Life.Step.wellFormed h

theorem Transition.sound (t : Transition env lost db flow after) (hlost : ¬ lost)
    (h : db.Lives Life.Sound) : after.Lives Life.Sound :=
  t.lives Job.Created.sound (fun step hlife => step.sound hlife hlost) h

end Lives

/-- What a job keeps from its creation, with the rows it is pinned to. -/
structure Job.Admitted (job : Job) (env : Services) (workers : Workers) : Prop where
  reserved : 0 < job.reservedCostMicro
  sealed : job.confidentialityMode = .standard →
    ∃ text, env.encryptForStorage job.id .payload text = .ok job.encryptedPayload
  pinned : job.confidentialityMode = .regulated → (bindingRows workers job).isSome

def Db.Admitted (env : Services) (db : Db) : Prop :=
  ∀ job ∈ db.jobs.rows, job.Admitted env db.workers

section Admitted
variable {env : Services} {lost : Prop} {db after : Db} {flow : Int}

theorem Job.Admitted.keeps {job : Job} {workers : Workers} (h : job.Admitted env db.workers)
    (keeps : db.workers.Keeps workers) : job.Admitted env workers :=
  ⟨h.reserved, h.sealed, fun hr => keeps.bindingRows (h.pinned hr)⟩

theorem Life.Frozen.admitted {old new : Job} {workers : Workers} (frozen : Life.Frozen old new)
    (h : old.Admitted env workers) : new.Admitted env workers where
  reserved := frozen.reservedCostMicro ▸ h.reserved
  sealed := by
    rw [frozen.confidentialityMode, frozen.id, frozen.encryptedPayload]
    exact h.sealed
  pinned := by
    intro hr
    rw [frozen.confidentialityMode] at hr
    obtain ⟨hnode, hinstance, hreport⟩ := frozen.pins hr
    have := h.pinned hr
    simpa only [bindingRows, hnode, hinstance, hreport] using this

theorem Follows.admitted {life : Life} (follows : Follows db life after) (h : db.Admitted env)
    (hjob : life.job.Admitted env db.workers) : after.Admitted env := by
  intro job hmem
  rw [follows.workers]
  rcases follows.mem.mp hmem with rfl | ⟨hold, -⟩
  · exact hjob
  · exact h job hold

theorem Transition.admitted (t : Transition env lost db flow after) (h : db.Admitted env) :
    after.Admitted env := by
  have stepped {job : Job} {life : Life} (found : db.jobs.find job.id = some job)
      (step : Life.Step lost db.now (db.life job) life) (follows : Follows db life after) :
      after.Admitted env :=
    follows.admitted h (step.frozen.admitted (h job (Table.mem_of_find found)))
  cases t with
  | quiet quiet =>
      intro job hmem
      rw [quiet.jobs] at hmem
      exact (h job hmem).keeps quiet.workers
  | opened fresh => exact h
  | credited inserted => exact h
  | withdrawn inserted => exact h
  | created fresh new reserved follows =>
      exact follows.admitted h ⟨new.reserved, new.sealed, new.pinned⟩
  | kept found step follows ledger => exact stepped found (.kept step) follows
  | ended found step follows released => exact stepped found (.ended step) follows
  | settled found step follows paid => exact stepped found (.settled step) follows

end Admitted

section Ledgers
variable {env : Services} {lost : Prop} {db after : Db} {flow : Int}

theorem Paid.consistent {ledger ledger' : LedgerDb} {consumer node : Uuid} {reserved : Int}
    (h : Paid ledger consumer node reserved ledger') (hledger : ledger.Consistent) :
    ledger'.Consistent := by
  obtain ⟨_, _, _, _, _, -, released, paid, credited, contributed, kept⟩ := h
  exact kept.consistent (contributed.consistent (credited.consistent (paid.consistent
    (released.consistent hledger))))

/-- A settlement gives its reservation back and touches no other one. -/
theorem Paid.reservedOf {ledger ledger' : LedgerDb} {consumer node : Uuid} {reserved : Int}
    (h : Paid ledger consumer node reserved ledger') (userId : Uuid) :
    ledger'.reservedOf userId =
      ledger.reservedOf userId + if userId = consumer then -reserved else 0 := by
  obtain ⟨_, _, _, _, _, -, released, paid, credited, contributed, kept⟩ := h
  rw [kept.reservedOf, contributed.reservedOf, credited.reservedOf, paid.reservedOf,
    released.reservedOf]

/-- A settlement moves quota, but makes and loses none. -/
theorem Paid.totals {ledger ledger' : LedgerDb} {consumer node : Uuid} {reserved : Int}
    (h : Paid ledger consumer node reserved ledger') :
    ledger'.spendable + ledger'.reserve.balanceMicro =
      ledger.spendable + ledger.reserve.balanceMicro := by
  obtain ⟨amounts, _, _, _, _, hsum, released, paid, credited, contributed, kept⟩ := h
  obtain ⟨hspendable, hreserve⟩ := released.totals
  have hpaid := paid.totals
  have hcredited := credited.totals
  have hcontributed := contributed.totals
  have hkept := kept.totals
  simp only [if_true, reduceCtorEq, if_false] at hpaid hcredited hcontributed hkept
  rw [hspendable, hreserve] at hpaid
  omega

theorem Paid.rows {ledger ledger' : LedgerDb} {consumer node : Uuid} {reserved : Int}
    (h : Paid ledger consumer node reserved ledger') (table : LedgerTable) :
    ledger.table table <+: ledger'.table table := by
  obtain ⟨_, _, _, _, _, -, released, paid, credited, contributed, kept⟩ := h
  rw [← released.rows table]
  exact (paid.rows table).trans ((credited.rows table).trans ((contributed.rows table).trans
    (kept.rows table)))

theorem Transition.consistent (t : Transition env lost db flow after)
    (h : db.ledger.Consistent) : after.ledger.Consistent := by
  cases t with
  | quiet quiet => exact quiet.ledger ▸ h
  | opened fresh => exact h.openAccount fresh
  | credited inserted => exact inserted.consistent h
  | withdrawn inserted => exact inserted.consistent h
  | created fresh new reserved follows => exact reserved.consistent h
  | kept found step follows ledger => exact ledger ▸ h
  | ended found step follows released => exact released.consistent h
  | settled found step follows paid => exact paid.consistent h

end Ledgers

end MindOne.Coordinator
