import Mathlib.Algebra.Order.Group.Int
import Mathlib.Tactic.Linarith
import MindOne.Lib.CheckedArithmetic
import MindOne.Lib.ReadCommitted
import MindOne.Lib.RollingWindow

/-!
# The budget of private evaluations

A private challenge may only be issued within hourly limits for its catalog, its
account, its device and its node, and after a cooldown for the three identities.
The transaction that issues it takes a global lock before it counts, and the
event that it writes carries the instant at which the transaction began.
-/

namespace MindOne.Evaluations

open CheckedArithmetic ReadCommitted RollingWindow

inductive ScopeKind where
  | catalog | account | device | node
  deriving DecidableEq, Repr

/-- The keyed commitments that a private challenge is accounted under. -/
structure PrivateV2Commitments where
  catalogId : String
  account : String
  device : String
  node : String

def PrivateV2Commitments.scope (commitments : PrivateV2Commitments) : ScopeKind → String
  | .catalog => commitments.catalogId
  | .account => commitments.account
  | .device => commitments.device
  | .node => commitments.node

/-- `PrivateEvaluationBudgetConfig`; the cooldown in milliseconds. -/
structure PrivateEvaluationBudgetConfig where
  catalogHourlyLimit : Nat
  accountHourlyLimit : Nat
  deviceHourlyLimit : Nat
  nodeHourlyLimit : Nat
  cooldownMillis : Nat
  globalReserveEntries : Nat

def PrivateEvaluationBudgetConfig.limit (budget : PrivateEvaluationBudgetConfig) :
    ScopeKind → Nat
  | .catalog => budget.catalogHourlyLimit
  | .account => budget.accountHourlyLimit
  | .device => budget.deviceHourlyLimit
  | .node => budget.nodeHourlyLimit

/-- An event of kind `issued` with commitment version 2. -/
structure IssuedEvent where
  commitments : PrivateV2Commitments
  createdAt : Int

/-- The events in the order in which they were inserted. -/
abbrev IssuedEvents := List IssuedEvent

/-- Instants are microseconds. -/
def privateBudgetWindow : Int := 60 * 60 * 1000000

structure PrivateBudgetSnapshot where
  catalogHourly : Nat
  accountHourly : Nat
  deviceHourly : Nat
  nodeHourly : Nat
  identityInCooldown : Bool
  remainingCatalogEntries : Nat
  accountSeenInCatalog : Bool
  deviceSeenInCatalog : Bool
  nodeSeenInCatalog : Bool

def privateBudgetSnapshotAllows (budget : PrivateEvaluationBudgetConfig)
    (snapshot : PrivateBudgetSnapshot) : Bool :=
  if budget.catalogHourlyLimit ≤ snapshot.catalogHourly ∨
      budget.accountHourlyLimit ≤ snapshot.accountHourly ∨
      budget.deviceHourlyLimit ≤ snapshot.deviceHourly ∨
      budget.nodeHourlyLimit ≤ snapshot.nodeHourly ∨ snapshot.identityInCooldown = true then false
  else
    decide (budget.globalReserveEntries = 0 ∨
      budget.globalReserveEntries < snapshot.remainingCatalogEntries ∨
      (snapshot.accountSeenInCatalog = false ∧ snapshot.deviceSeenInCatalog = false ∧
        snapshot.nodeSeenInCatalog = false))

section Reads
variable (events : IssuedEvents) (commitments : PrivateV2Commitments) (now : Int)

def countPrivateIssuedScope (kind : ScopeKind) : Nat :=
  events.countP fun event => decide (event.commitments.scope kind = commitments.scope kind) &&
    decide (now - privateBudgetWindow < event.createdAt)

/-- Two challenges of one account, device or node. -/
def PrivateV2Commitments.SharesIdentity (a b : PrivateV2Commitments) : Prop :=
  a.account = b.account ∨ a.device = b.device ∨ a.node = b.node

instance (a b : PrivateV2Commitments) : Decidable (a.SharesIdentity b) :=
  inferInstanceAs (Decidable (_ ∨ _ ∨ _))

def identityInCooldown (cooldownMillis : Nat) : Bool :=
  events.any fun event => decide (event.commitments.SharesIdentity commitments) &&
    decide (now - cooldownMillis * 1000 < event.createdAt)

/-- Whether some event of the catalog has the same commitment in a scope. -/
def seenInCatalog (kind : ScopeKind) : Bool :=
  events.any fun event => decide (event.commitments.catalogId = commitments.catalogId) &&
    decide (event.commitments.scope kind = commitments.scope kind)

end Reads

/-- An entry of the catalog that is still available, and how many there are. -/
structure PrivateClaimCandidate where
  commitments : PrivateV2Commitments
  remainingCatalogEntries : Nat

/-- The counts that have been read so far. -/
structure HourlyCounts where
  catalog : Nat
  account : Nat
  device : Nat
  node : Nat

/-- How far a claim has come. -/
inductive IssueStage where
  | opened
  /-- The global lock is held. -/
  | reserved
  /-- The scopes that are still to be locked. -/
  | locking (candidate : PrivateClaimCandidate) (scopes : List ScopeKind)
  /-- The counts that have been read, in the order of the scopes. -/
  | counting (candidate : PrivateClaimCandidate) (counts : List Nat)
  | counted (candidate : PrivateClaimCandidate) (counts : HourlyCounts) (inCooldown : Bool)
  | allowed (candidate : PrivateClaimCandidate)
  | inserted (candidate : PrivateClaimCandidate)
  | refused
  | issued

inductive IssueStatement where
  | lockPrivateGlobalReserve
  /-- The next candidate, by what the challenges leave available. -/
  | nextCandidate (candidate : PrivateClaimCandidate)
  | lockPrivateBudgetScope
  | countPrivateIssuedScope
  | checkCooldown
  | readCatalogHistory
  /-- The insert of the challenge, which may conflict with an older one. -/
  | insertChallenge (conflict : Bool)
  | insertIssuedEvent

inductive IssueLock where
  | globalReserve
  | scope (kind : ScopeKind) (commitment : String)
  deriving DecidableEq

def budgetScopes : List ScopeKind := [.catalog, .account, .device, .node]

def IssueStatement.locks : IssueStatement → IssueStage → List IssueLock
  | .lockPrivateGlobalReserve, _ => [.globalReserve]
  | .lockPrivateBudgetScope, .locking candidate (kind :: _) =>
      [.scope kind (candidate.commitments.scope kind)]
  | _, _ => []

/-- One statement of a claim that issues private challenges. Plain reads see the snapshot
of their statement. -/
def runIssueStatement (budget : PrivateEvaluationBudgetConfig) (began : Int)
    (snapshot : IssuedEvents) : IssueStatement → IssueStage → Option (IssueStage × List IssuedEvent)
  | .lockPrivateGlobalReserve, .opened => some (.reserved, [])
  | .nextCandidate candidate, .reserved => some (.locking candidate budgetScopes, [])
  | .lockPrivateBudgetScope, .locking candidate (_ :: []) => some (.counting candidate [], [])
  | .lockPrivateBudgetScope, .locking candidate (_ :: scopes) =>
      some (.locking candidate scopes, [])
  | .countPrivateIssuedScope, .counting candidate counts =>
      (budgetScopes[counts.length]?).map fun kind =>
        (.counting candidate
          (counts ++ [countPrivateIssuedScope snapshot candidate.commitments began kind]), [])
  | .checkCooldown, .counting candidate [catalog, account, device, node] =>
      if Fits 64 (budget.cooldownMillis : Int) then
        some (.counted candidate ⟨catalog, account, device, node⟩
          (identityInCooldown snapshot candidate.commitments began budget.cooldownMillis), [])
      else none
  | .readCatalogHistory, .counted candidate counts inCooldown =>
      if privateBudgetSnapshotAllows budget {
          catalogHourly := counts.catalog
          accountHourly := counts.account
          deviceHourly := counts.device
          nodeHourly := counts.node
          identityInCooldown := inCooldown
          remainingCatalogEntries := candidate.remainingCatalogEntries
          accountSeenInCatalog := seenInCatalog snapshot candidate.commitments .account
          deviceSeenInCatalog := seenInCatalog snapshot candidate.commitments .device
          nodeSeenInCatalog := seenInCatalog snapshot candidate.commitments .node } = true then
        some (.allowed candidate, [])
      else some (.refused, [])
  | .insertChallenge conflict, .allowed candidate =>
      some (if conflict = true then .reserved else .inserted candidate, [])
  | .insertIssuedEvent, .inserted candidate => some (.issued, [⟨candidate.commitments, began⟩])
  | _, _ => none

/-- A claim commits once it has issued a challenge or has fallen back to a public one. -/
def IssueStage.MayCommit : IssueStage → Prop
  | .opened | .reserved | .refused | .issued => True
  | _ => False

/-- Claims that issue private challenges, as transactions over the issued events. -/
def issuing (budget : PrivateEvaluationBudgetConfig) :
    Engine Int IssuedEvents IssuedEvent IssueLock IssueStage IssueStatement where
  opened := .opened
  apply events event := events ++ [event]
  locks := IssueStatement.locks
  execute stmt stage began snapshot _ := runIssueStatement budget began snapshot stmt stage
  mayCommit := IssueStage.MayCommit

/-- The limits and the cooldown leave room for a challenge at an instant. -/
structure Admits (budget : PrivateEvaluationBudgetConfig) (events : IssuedEvents)
    (commitments : PrivateV2Commitments) (now : Int) : Prop where
  room : ∀ kind, countPrivateIssuedScope events commitments now kind < budget.limit kind
  rested : identityInCooldown events commitments now budget.cooldownMillis = false

/-- Every event was issued within the budget that the events before it left. -/
structure WithinBudget (budget : PrivateEvaluationBudgetConfig) (events : IssuedEvents) :
    Prop where
  paced : ∀ kind text, Paced IssuedEvent.createdAt (fun t => t - privateBudgetWindow)
    (budget.limit kind) (fun event => decide (event.commitments.scope kind = text)) events
  apart : ∀ earlier event later, events = earlier ++ event :: later → ∀ other ∈ earlier,
    other.commitments.SharesIdentity event.commitments →
    other.createdAt + (budget.cooldownMillis : Int) * 1000 ≤ event.createdAt

/-- What the statements of a claim have found out about the events. -/
def IssueStage.Knows (budget : PrivateEvaluationBudgetConfig) (began : Int)
    (events : IssuedEvents) : IssueStage → Prop
  | .counting candidate counts => counts =
      (budgetScopes.take counts.length).map
        (countPrivateIssuedScope events candidate.commitments began)
  | .counted candidate counts inCooldown =>
      [counts.catalog, counts.account, counts.device, counts.node] =
        budgetScopes.map (countPrivateIssuedScope events candidate.commitments began) ∧
      inCooldown = identityInCooldown events candidate.commitments began budget.cooldownMillis
  | .allowed candidate | .inserted candidate => Admits budget events candidate.commitments began
  | _ => True

section Steps
variable {budget : PrivateEvaluationBudgetConfig} {events : IssuedEvents} {began : Int}
  {commitments : PrivateV2Commitments} {stmt : IssueStatement} {stage next : IssueStage}
  {changes : List IssuedEvent}

theorem withinBudget_nil : WithinBudget budget [] where
  paced := fun _ _ => paced_nil
  apart := fun earlier event later h => by simp at h

/-- An event within the budget may be issued. -/
theorem WithinBudget.issue (h : WithinBudget budget events)
    (admits : Admits budget events commitments began) :
    WithinBudget budget (events ++ [⟨commitments, began⟩]) := by
  constructor
  · intro kind text
    refine (h.paced kind text).snoc fun hscope => ?_
    rw [decide_eq_true_eq] at hscope
    rw [← hscope]
    exact admits.room kind
  · intro earlier event later hsplit other hother hshares
    rcases List.eq_nil_or_concat later with rfl | ⟨init, last, rfl⟩
    · obtain ⟨rfl, hevent⟩ := List.append_inj' hsplit rfl
      obtain rfl := List.singleton_inj.mp hevent
      by_contra hlate
      have hin : identityInCooldown events commitments began budget.cooldownMillis = true := by
        refine List.any_eq_true.mpr ⟨other, hother, ?_⟩
        rw [Bool.and_eq_true, decide_eq_true_eq, decide_eq_true_eq]
        exact ⟨hshares, by simp only at hlate; omega⟩
      rw [admits.rested] at hin
      cases hin
    · rw [List.concat_eq_append, ← List.cons_append, ← List.append_assoc] at hsplit
      obtain ⟨hinit, -⟩ := List.append_inj' hsplit rfl
      exact h.apart earlier event init hinit other hother hshares

theorem privateBudgetSnapshotAllows_spec {snapshot : PrivateBudgetSnapshot}
    (h : privateBudgetSnapshotAllows budget snapshot = true) :
    snapshot.catalogHourly < budget.catalogHourlyLimit ∧
      snapshot.accountHourly < budget.accountHourlyLimit ∧
      snapshot.deviceHourly < budget.deviceHourlyLimit ∧
      snapshot.nodeHourly < budget.nodeHourlyLimit ∧ snapshot.identityInCooldown = false := by
  unfold privateBudgetSnapshotAllows at h
  split at h
  · cases h
  · next hroom =>
    simp only [not_or, not_le, Bool.not_eq_true] at hroom
    exact hroom

/-- What a statement does: only the global lock leads out of the first stage, none leads back
to it, and what a claim knows about its snapshot it still knows afterwards. -/
theorem runIssueStatement_spec
    (h : runIssueStatement budget began events stmt stage = some (next, changes)) :
    next ≠ .opened ∧
      (stage = .opened → stmt = .lockPrivateGlobalReserve ∧ next = .reserved ∧ changes = []) ∧
      (stage.Knows budget began events → WithinBudget budget events →
        next.Knows budget began (events ++ changes) ∧ WithinBudget budget (events ++ changes)) := by
  -- a statement that only reads keeps the events, so only what it found out is left to show
  have reads {found : IssueStage} (hfound : some (found, ([] : List IssuedEvent)) =
      some (next, changes)) (hne : found ≠ .opened)
      (hknows : stage.Knows budget began events → found.Knows budget began events)
      (hopened : stage ≠ .opened) :
      next ≠ .opened ∧
        (stage = .opened → stmt = .lockPrivateGlobalReserve ∧ next = .reserved ∧ changes = []) ∧
        (stage.Knows budget began events → WithinBudget budget events →
          next.Knows budget began (events ++ changes) ∧
            WithinBudget budget (events ++ changes)) := by
    cases hfound
    refine ⟨hne, fun h => absurd h hopened, fun known within => ?_⟩
    rw [List.append_nil]
    exact ⟨hknows known, within⟩
  unfold runIssueStatement at h
  split at h
  · cases h
    refine ⟨by simp, fun _ => ⟨rfl, rfl, rfl⟩, fun _ within => ?_⟩
    rw [List.append_nil]
    exact ⟨trivial, within⟩
  · exact reads h (by simp) (fun _ => trivial) (by simp)
  · exact reads h (by simp) (fun _ => rfl) (by simp)
  · exact reads h (by simp) (fun _ => trivial) (by simp)
  · rename_i candidate counts
    obtain ⟨kind, hkind, hnext⟩ := Option.map_eq_some_iff.mp h
    refine reads (congrArg some hnext) (by simp) (fun known => ?_) (by simp)
    have hlt : counts.length < budgetScopes.length := (List.getElem?_eq_some_iff.mp hkind).1
    simp only [IssueStage.Knows] at known ⊢
    rw [List.length_append, List.length_singleton, List.take_add_one, hkind, List.map_append,
      ← known]
    rfl
  · rename_i candidate catalog account device node
    split at h
    · refine reads h (by simp) (fun known => ?_) (by simp)
      exact ⟨known, rfl⟩
    · cases h
  · rename_i candidate counts inCooldown
    split at h
    · next hallows =>
      refine reads h (by simp) (fun known => ?_) (by simp)
      obtain ⟨hcounts, hcooldown⟩ := known
      obtain ⟨hcatalog, haccount, hdevice, hnode, hrested⟩ := privateBudgetSnapshotAllows_spec hallows
      simp only [budgetScopes, List.map_cons, List.map_nil, List.cons.injEq, and_true] at hcounts
      obtain ⟨rcatalog, raccount, rdevice, rnode⟩ := hcounts
      refine ⟨fun kind => ?_, hcooldown ▸ hrested⟩
      cases kind with
      | catalog => exact rcatalog ▸ hcatalog
      | account => exact raccount ▸ haccount
      | device => exact rdevice ▸ hdevice
      | node => exact rnode ▸ hnode
    · exact reads h (by simp) (fun _ => trivial) (by simp)
  · rename_i conflict candidate
    cases conflict with
    | true => exact reads h (by simp) (fun _ => trivial) (by simp)
    | false => exact reads h (by simp) (fun known => known) (by simp)
  · cases h
    refine ⟨by simp, fun h => (nomatch h), fun known within => ?_⟩
    exact ⟨trivial, within.issue known⟩
  · cases h

/-- The changes of a transaction are inserted in their order. -/
theorem applied_eq (events changes : IssuedEvents) :
    changes.foldl (issuing budget).apply events = events ++ changes := by
  induction changes generalizing events with
  | nil => exact (List.append_nil events).symm
  | cons event rest ih =>
      rw [List.foldl_cons, ih]
      exact List.append_assoc events [event] rest

/-- A claim that has left the first stage has taken the global lock. -/
theorem issue_relies {lock : IssueLock} {snapshot current : IssuedEvents}
    (h : (issuing budget).execute stmt stage began snapshot current = some (next, changes))
    (hrelies : lock = .globalReserve ∧ next ≠ .opened) :
    (lock = .globalReserve ∧ stage ≠ .opened) ∨ lock ∈ (issuing budget).locks stmt stage := by
  obtain ⟨rfl, -⟩ := hrelies
  by_cases hopened : stage = .opened
  · obtain ⟨rfl, -, -⟩ := (runIssueStatement_spec h).2.1 hopened
    exact .inr (List.mem_singleton_self _)
  · exact .inl ⟨rfl, hopened⟩

theorem issue_learns {lock : IssueLock} {snapshot current : IssuedEvents}
    (h : (issuing budget).execute stmt stage began snapshot current = some (next, changes))
    (hfresh : lock = .globalReserve → current = snapshot)
    (hknows : lock = .globalReserve → WithinBudget budget current ∧ stage.Knows budget began current)
    (hlock : lock = .globalReserve) :
    WithinBudget budget (changes.foldl (issuing budget).apply current) ∧
      next.Knows budget began (changes.foldl (issuing budget).apply current) := by
  obtain ⟨within, known⟩ := hknows hlock
  rw [hfresh hlock] at within known ⊢
  rw [applied_eq]
  exact ((runIssueStatement_spec h).2.2 known within).symm

theorem issue_learns_locked {lock : IssueLock} {snapshot current : IssuedEvents}
    (h : (issuing budget).execute stmt stage began snapshot current = some (next, changes))
    (hrelies : ¬ (lock = .globalReserve ∧ stage ≠ .opened))
    (hbounded : lock = .globalReserve → WithinBudget budget current)
    (hlock : lock = .globalReserve) :
    WithinBudget budget (changes.foldl (issuing budget).apply current) ∧
      next.Knows budget began (changes.foldl (issuing budget).apply current) := by
  have hopened : stage = .opened := by
    by_contra hne
    exact hrelies ⟨hlock, hne⟩
  obtain ⟨-, rfl, rfl⟩ := (runIssueStatement_spec h).2.1 hopened
  exact ⟨hbounded hlock, trivial⟩

end Steps

/-- What is known behind the global lock survives every interleaving. -/
def issueGuard (budget : PrivateEvaluationBudgetConfig) :
    Guard (issuing budget) (fun events later => later = events) (fun _ _ _ _ _ _ => True) where
  le lock events events' := lock = .globalReserve → events = events'
  bounded lock _ events := lock = .globalReserve → WithinBudget budget events
  relies stage lock := lock = .globalReserve ∧ stage ≠ .opened
  knows lock stage began _ events := lock = .globalReserve →
    WithinBudget budget events ∧ stage.Knows budget began events
  le_refl _ := rfl
  le_trans h h' hlock := (h hlock).trans (h' hlock)
  apply_mono h hlock := congrArg (· ++ _) (h hlock)
  elsewhere_le h _ := h
  bounded_mono h hbounded hlock := h hlock ▸ hbounded hlock
  bounded_later _ hbounded := hbounded
  knows_mono h hknows hlock := h hlock ▸ hknows hlock
  knows_later _ hknows := hknows
  relies_opened h := h.2 rfl
  commits _ hknows _ hlock := (hknows hlock).1
  relies_execute := issue_relies
  shrinks h hrelies _ hlock :=
    absurd ⟨hlock, (runIssueStatement_spec h).1⟩ hrelies
  learns_held h _ _ hfresh hknows := issue_learns h hfresh hknows
  learns_locked h _ _ _ hrelies hbounded := issue_learns_locked h hrelies hbounded

/-- At every moment of every interleaving of claims, no window of an hour holds more issued
events of a scope than its limit, and the events that share an identity are at least the
cooldown apart. -/
theorem private_budget_kept (budget : PrivateEvaluationBudgetConfig) {τ : Type} [DecidableEq τ]
    {clock : Int} {sys : System Int IssuedEvents IssuedEvent IssueLock IssueStage IssueStatement τ}
    (h : ReadCommitted.Reachable (issuing budget) (fun events later => later = events)
      (fun _ _ _ _ _ _ => True) clock [] sys) :
    (∀ kind text t, sys.committed.countP (fun event =>
        decide (event.commitments.scope kind = text) &&
          decide (t - privateBudgetWindow < event.createdAt ∧ event.createdAt ≤ t)) ≤
      budget.limit kind) ∧
    sys.committed.Pairwise fun a b => a.commitments.SharesIdentity b.commitments →
      (budget.cooldownMillis : Int) * 1000 ≤ |a.createdAt - b.createdAt| := by
  have within : WithinBudget budget sys.committed :=
    ((issueGuard budget).sound_of_reachable (fun _ _ => withinBudget_nil) h).bounded
      .globalReserve rfl
  constructor
  · intro kind text t
    refine (within.paced kind text).window_le (fun a b hab => ?_) t
    simp only
    omega
  · refine List.pairwise_iff_getElem.mpr fun i j hi hj hij hshares => ?_
    have hsplit : sys.committed =
        sys.committed.take j ++ sys.committed[j] :: sys.committed.drop (j + 1) := by
      rw [List.getElem_cons_drop, List.take_append_drop]
    have hearlier : sys.committed[i] ∈ sys.committed.take j :=
      List.mem_take_iff_getElem.mpr ⟨i, by omega, rfl⟩
    have hapart := within.apart _ _ _ hsplit _ hearlier hshares
    rw [abs_sub_comm]
    exact (by omega : _ ≤ sys.committed[j].createdAt - sys.committed[i].createdAt).trans (le_abs_self _)

section Sample

def sampleBudget : PrivateEvaluationBudgetConfig where
  catalogHourlyLimit := 2
  accountHourlyLimit := 2
  deviceHourlyLimit := 2
  nodeHourlyLimit := 2
  cooldownMillis := 1000
  globalReserveEntries := 0

def sampleCandidate (node : String) : PrivateClaimCandidate where
  commitments := ⟨"catalog", "account-of-" ++ node, "device-of-" ++ node, node⟩
  remainingCatalogEntries := 5

/-- The statements with which a claim issues one challenge. -/
def sampleStatements (node : String) : List IssueStatement :=
  [.lockPrivateGlobalReserve, .nextCandidate (sampleCandidate node)] ++
    List.replicate 4 .lockPrivateBudgetScope ++ List.replicate 4 .countPrivateIssuedScope ++
    [.checkCooldown, .readCatalogHistory, .insertChallenge false, .insertIssuedEvent]

/-- The claim that begins last commits first. -/
def sampleClaims : List (Move Int IssueStatement Bool) :=
  [.start true, .tick 5, .start false] ++
    (sampleStatements "b").flatMap (fun stmt => [.issue false stmt, .grant false]) ++
    [.commit false] ++
    (sampleStatements "a").flatMap (fun stmt => [.issue true stmt, .grant true]) ++ [.commit true]

instance : DecidablePred (issuing sampleBudget).mayCommit := fun stage =>
  match stage with
  | .opened | .reserved | .refused | .issued => isTrue trivial
  | .locking _ _ | .counting _ _ | .counted _ _ _ | .allowed _ | .inserted _ => isFalse id

theorem private_budget_kept_sample :
    ∃ sys : System Int IssuedEvents IssuedEvent IssueLock IssueStage IssueStatement Bool,
      sys.committed.map IssuedEvent.createdAt = [5, 0] ∧
      (∀ kind text t, sys.committed.countP (fun event =>
          decide (event.commitments.scope kind = text) &&
            decide (t - privateBudgetWindow < event.createdAt ∧ event.createdAt ≤ t)) ≤
        sampleBudget.limit kind) := by
  have hplayed : ((sampleClaims.foldlM (play (issuing sampleBudget) (fun _ _ _ _ _ _ => True))
      ⟨0, [], fun _ => none⟩).map fun sys => sys.committed.map IssuedEvent.createdAt) =
      some [5, 0] := by decide +kernel
  obtain ⟨sys, hplay, htimes⟩ := Option.map_eq_some_iff.mp hplayed
  have hreached : Reachable (issuing sampleBudget) (fun events later => later = events)
    (fun _ _ _ _ _ _ => True) 0 [] sys := Reachable.playAll .init hplay
  exact ⟨sys, htimes, (private_budget_kept sampleBudget hreached).1⟩

end Sample

end MindOne.Evaluations
