import MindOne.Evaluations.Termination
import MindOne.Lib.LabelledRuns
import MindOne.Lib.LatestPerKey
import Mathlib.Data.List.Sort

/-!
# The verdict of an authenticity arbitration

The end of a private challenge is compared with the latest ends of the other instances
in its scope. The events are only appended, and an instance has one live challenge at a
time. So the events of an instance lie in the order of their times, whatever the other
instances do in between, and the counts are those of the instances by their last outcomes.
-/

namespace MindOne.Evaluations

open CheckedArithmetic Coordinator LabelledRuns LatestPerKey
open MindOne.Stream (okOr okOr_eq_ok)

/-- What `record_private_authenticity_arbitration` is called with. -/
structure Outcome where
  transaction : Transaction
  challenge : HiddenChallenge
  passed : Bool
  authorization : TerminalMutationAuthorization

namespace Outcome

def modelInstanceId (outcome : Outcome) : Uuid := outcome.challenge.modelInstanceId

/-- Challenges that are not private have no scope. -/
def scope (outcome : Outcome) : Option ArbitrationScope :=
  match EvaluationDb.arbitrationScope outcome.challenge outcome.authorization,
      outcome.challenge.modelWeightsHash with
  | .ok (some (version, evaluator, caseFamily)), some modelWeightsHash =>
      some ⟨version, modelWeightsHash, evaluator, caseFamily⟩
  | _, _ => none

def record (outcome : Outcome) (db : EvaluationDb) : ApiResult EvaluationDb :=
  db.recordPrivateAuthenticityArbitration outcome.transaction outcome.challenge outcome.passed
    outcome.authorization

end Outcome

/-- The database, the time, and for each instance its live challenge with the time from
which others see it. -/
structure ArbitrationSystem where
  db : EvaluationDb
  clock : Int
  live : Uuid → Option (Uuid × Int)

inductive ArbitrationStep where
  | elapse (duration : Nat)
  /-- Everything but the append-only events may change at any time. -/
  | change (db : EvaluationDb)
  | issue (modelInstanceId challengeId : Uuid)
  | record (outcome : Outcome)

namespace ArbitrationSystem

def setLive (system : ArbitrationSystem) (modelInstanceId : Uuid)
    (challenge : Option (Uuid × Int)) : ArbitrationSystem :=
  { system with live := fun other =>
      if other = modelInstanceId then challenge else system.live other }

/-- The transaction that ends a challenge begins after the challenge could be seen. -/
def Ends (system : ArbitrationSystem) (outcome : Outcome) : Prop :=
  match system.live outcome.modelInstanceId with
  | none => False
  | some (challengeId, issued) => challengeId = outcome.challenge.id ∧
      issued < outcome.transaction.began ∧ outcome.transaction.began ≤ system.clock

instance (system : ArbitrationSystem) (outcome : Outcome) : Decidable (system.Ends outcome) :=
  match h : system.live outcome.modelInstanceId with
  | none => .isFalse (by simp [Ends, h])
  | some (challengeId, issued) =>
      decidable_of_iff (challengeId = outcome.challenge.id ∧
        issued < outcome.transaction.began ∧ outcome.transaction.began ≤ system.clock)
        (by simp [Ends, h])

/-- `model_evaluation_one_live_instance_idx` keeps a second challenge of an instance out. -/
def step : ArbitrationStep → ArbitrationSystem → Option ArbitrationSystem
  | .elapse duration, system => some { system with clock := system.clock + duration }
  | .change db, system =>
      some { system with db := { db with arbitrations := system.db.arbitrations } }
  | .issue modelInstanceId challengeId, system =>
      if system.live modelInstanceId = none then
        some (system.setLive modelInstanceId (some (challengeId, system.clock)))
      else none
  | .record outcome, system =>
      if system.Ends outcome then
        match outcome.record system.db with
        | .ok db => some ({ system with db }.setLive outcome.modelInstanceId none)
        | .error _ => none
      else none

/-- Nothing has been arbitrated, and no challenge is out. -/
structure Fresh (system : ArbitrationSystem) : Prop where
  arbitrations : system.db.arbitrations = []
  live : ∀ modelInstanceId, system.live modelInstanceId = none

end ArbitrationSystem

/-- The outcomes of a run, the last one first. -/
def outcomes (past : List ArbitrationStep) : List Outcome :=
  past.filterMap fun
    | .record outcome => some outcome
    | _ => none

@[simp] theorem outcomes_record (outcome : Outcome) (past : List ArbitrationStep) :
    outcomes (.record outcome :: past) = outcome :: outcomes past := rfl

section Histories
variable (scope : ArbitrationScope) (history : List Outcome)

def inScope : List Outcome := history.filter fun outcome => outcome.scope = some scope

/-- What an instance has shown in the scope, the last one first. -/
def shown (modelInstanceId : Uuid) : List Bool :=
  ((inScope scope history).filter fun outcome =>
    outcome.modelInstanceId = modelInstanceId).map Outcome.passed

def observedInstances : Finset Uuid :=
  ((inScope scope history).map Outcome.modelInstanceId).toFinset

/-- The instances whose latest outcome is this one. -/
def instancesShowing (passed : Bool) : Finset Uuid :=
  (observedInstances scope history).filter fun modelInstanceId =>
    (shown scope history modelInstanceId).head? = some passed

end Histories

/-! ## One outcome -/

/-- The event that an outcome adds to the events. -/
structure Outcome.Arbitrated (outcome : Outcome) (scope : ArbitrationScope) (db : EvaluationDb)
    (event : ArbitrationEvent) : Prop where
  eventScope : event.scope = scope
  modelInstanceId : event.modelInstanceId = outcome.modelInstanceId
  passed : event.passed = outcome.passed
  createdAt : event.createdAt = outcome.transaction.began
  observed : event.observed = (db.latestPerInstance scope outcome.modelInstanceId).length + 1
  passing : event.passing =
    ((db.latestPerInstance scope outcome.modelInstanceId).filter ArbitrationEvent.passed).length +
      outcome.passed.toNat
  failing : event.failing =
    ((db.latestPerInstance scope outcome.modelInstanceId).filter fun old => !old.passed).length +
      (!outcome.passed).toNat
  verdict : event.verdict = EvaluationDb.verdictOf event.observed event.passing event.failing

theorem Outcome.record_ok {outcome : Outcome} {db next : EvaluationDb}
    (h : outcome.record db = .ok next) :
    (outcome.scope = none ∧ next = db) ∨
      ∃ scope event, outcome.scope = some scope ∧ outcome.Arbitrated scope db event ∧
        next = { db with arbitrations := db.arbitrations ++ [event] } := by
  simp only [record, EvaluationDb.recordPrivateAuthenticityArbitration, bind_eq_ok] at h
  obtain ⟨found, hfound, h⟩ := h
  cases found with
  | none =>
      cases h
      exact .inl ⟨by simp only [scope, hfound], rfl⟩
  | some columns =>
      obtain ⟨version, evaluator, caseFamily⟩ := columns
      simp only [bind_eq_ok, EvaluationDb.arbitrate, okOr_eq_ok] at h
      obtain ⟨event, ⟨_, -, weights, hweights, binding, -, _, -, _, -, hevent⟩, hnext⟩ := h
      cases hnext
      cases hevent
      refine .inr ⟨⟨version, weights, evaluator, caseFamily⟩, _, ?_, ?_, rfl⟩
      · simp only [scope, hfound, hweights]
      · exact ⟨rfl, rfl, rfl, rfl, rfl, rfl, rfl, rfl⟩

theorem EvaluationDb.newerThan_irrefl {event : ArbitrationEvent} :
    ¬EvaluationDb.newerThan event event := by
  simp only [newerThan]
  omega

/-! ## Every run -/

/-- What an event and an outcome say about an instance. -/
abbrev Shown := ArbitrationScope × Uuid × Bool

def ArbitrationEvent.shown (event : ArbitrationEvent) : Shown :=
  (event.scope, event.modelInstanceId, event.passed)

def Outcome.shown (outcome : Outcome) : Option Shown :=
  outcome.scope.map fun scope => (scope, outcome.modelInstanceId, outcome.passed)

/-- The events are the outcomes in the order in which they arrived, and those of an
instance are older than its live challenge. -/
structure Chronicle (past : List ArbitrationStep) (system : ArbitrationSystem) : Prop where
  rows : system.db.arbitrations.reverse.map ArbitrationEvent.shown =
    (outcomes past).filterMap Outcome.shown
  chronological : Chronological ArbitrationEvent.modelInstanceId EvaluationDb.newerThan
    system.db.arbitrations
  elapsed : ∀ event ∈ system.db.arbitrations, event.createdAt ≤ system.clock
  issued : ∀ modelInstanceId challengeId time,
    system.live modelInstanceId = some (challengeId, time) →
    ∀ event ∈ system.db.arbitrations, event.modelInstanceId = modelInstanceId →
      event.createdAt ≤ time

namespace ArbitrationSystem

theorem Fresh.chronicle {system : ArbitrationSystem} (h : system.Fresh) :
    Chronicle [] system where
  rows := by
    rw [h.arbitrations]
    rfl
  chronological := by
    rw [h.arbitrations]
    exact List.Pairwise.nil
  elapsed event hevent := by
    rw [h.arbitrations] at hevent
    cases hevent
  issued modelInstanceId challengeId time hlive := by
    rw [h.live] at hlive
    cases hlive

theorem Ends.live {system : ArbitrationSystem} {outcome : Outcome} (h : system.Ends outcome) :
    ∃ issued, system.live outcome.modelInstanceId = some (outcome.challenge.id, issued) ∧
      issued < outcome.transaction.began ∧ outcome.transaction.began ≤ system.clock := by
  cases hlive : system.live outcome.modelInstanceId with
  | none => simp [Ends, hlive] at h
  | some challenge =>
      obtain ⟨challengeId, issued⟩ := challenge
      simp only [Ends, hlive] at h
      obtain ⟨rfl, h⟩ := h
      exact ⟨issued, rfl, h⟩

theorem step_record {system next : ArbitrationSystem} {outcome : Outcome}
    (h : step (.record outcome) system = some next) :
    system.Ends outcome ∧ ∃ db, outcome.record system.db = .ok db ∧
      next = ({ system with db }).setLive outcome.modelInstanceId none := by
  simp only [step] at h
  split at h
  · next hends =>
      cases hrecord : outcome.record system.db with
      | error problem =>
          rw [hrecord] at h
          cases h
      | ok db =>
          rw [hrecord] at h
          cases h
          exact ⟨hends, db, rfl, rfl⟩
  · cases h

end ArbitrationSystem

namespace Chronicle
variable {past : List ArbitrationStep} {system next : ArbitrationSystem}

/-- The event of an outcome is newer than all events of its instance. -/
theorem concat (h : Chronicle past system) {outcome : Outcome} {scope : ArbitrationScope}
    {event : ArbitrationEvent} (hends : system.Ends outcome)
    (hevent : outcome.Arbitrated scope system.db event) :
    Chronological ArbitrationEvent.modelInstanceId EvaluationDb.newerThan
      (system.db.arbitrations ++ [event]) := by
  obtain ⟨issued, hlive, hbegan, -⟩ := hends.live
  refine List.pairwise_append.mpr ⟨h.chronological, List.pairwise_singleton _ _, ?_⟩
  intro old hold last hlast hsame
  rw [List.mem_singleton.mp hlast, hevent.modelInstanceId] at hsame
  have holder := h.issued _ _ _ hlive old hold hsame
  rw [List.mem_singleton.mp hlast]
  have hcreated := hevent.createdAt
  simp only [EvaluationDb.newerThan]
  omega

theorem step (h : Chronicle past system) {event : ArbitrationStep}
    (hstep : ArbitrationSystem.step event system = some next) :
    Chronicle (event :: past) next := by
  cases event with
  | elapse duration =>
      cases hstep
      exact ⟨h.rows, h.chronological, fun event hevent => by
        have := h.elapsed event hevent
        simp only
        omega, h.issued⟩
  | change db =>
      cases hstep
      exact ⟨h.rows, h.chronological, h.elapsed, h.issued⟩
  | issue modelInstanceId challengeId =>
      simp only [ArbitrationSystem.step, Option.ite_none_right_eq_some, Option.some.injEq] at hstep
      obtain ⟨-, rfl⟩ := hstep
      refine ⟨h.rows, h.chronological, h.elapsed, fun other otherId time hlive event hevent
        hsame => ?_⟩
      simp only [ArbitrationSystem.setLive] at hlive
      split at hlive
      · cases hlive
        exact h.elapsed event hevent
      · exact h.issued _ _ _ hlive event hevent hsame
  | record outcome =>
      obtain ⟨hends, db, hrecord, rfl⟩ := ArbitrationSystem.step_record hstep
      have hlive : ∀ other otherId time,
          (({ system with db }).setLive outcome.modelInstanceId none).live other =
            some (otherId, time) →
          other ≠ outcome.modelInstanceId ∧ system.live other = some (otherId, time) := by
        intro other otherId time hlive
        simp only [ArbitrationSystem.setLive] at hlive
        split at hlive
        · cases hlive
        · next hne => exact ⟨hne, hlive⟩
      rcases Outcome.record_ok hrecord with ⟨hscope, rfl⟩ | ⟨scope, event, hscope, hevent, rfl⟩
      · refine ⟨?_, h.chronological, h.elapsed, fun other otherId time hother => ?_⟩
        · have hnone : outcome.shown = none := by rw [Outcome.shown, hscope, Option.map_none]
          rw [outcomes_record, List.filterMap_cons_none hnone]
          exact h.rows
        · exact h.issued _ _ _ (hlive _ _ _ hother).2
      · refine ⟨?_, h.concat hends hevent, ?_, ?_⟩
        · have hsome : outcome.shown = some event.shown := by
            rw [Outcome.shown, hscope, Option.map_some, ArbitrationEvent.shown, hevent.eventScope,
              hevent.modelInstanceId, hevent.passed]
          rw [outcomes_record, List.filterMap_cons_some hsome, ← h.rows]
          simp [ArbitrationSystem.setLive]
        · intro old hold
          rcases List.mem_append.mp hold with hold | hlast
          · exact h.elapsed old hold
          · obtain ⟨-, -, -, hclock⟩ := hends.live
            rw [List.mem_singleton.mp hlast, hevent.createdAt]
            exact hclock
        · intro other otherId time hother old hold hsame
          obtain ⟨hne, hother⟩ := hlive _ _ _ hother
          rcases List.mem_append.mp hold with hold | hlast
          · exact h.issued _ _ _ hother old hold hsame
          · rw [List.mem_singleton.mp hlast, hevent.modelInstanceId] at hsame
            exact absurd hsame.symm hne

end Chronicle

theorem chronicle {start system : ArbitrationSystem} {past : List ArbitrationStep}
    (hstart : start.Fresh) (run : Run ArbitrationSystem.step Anything start past system) :
    Chronicle past system :=
  run.invariant hstart.chronicle fun h _ hstep => h.step hstep

/-! ## The counts -/

def eventsInScope (scope : ArbitrationScope) (events : List ArbitrationEvent) :
    List ArbitrationEvent :=
  events.filter fun event => event.scope = scope

section Counts
variable {outcome : Outcome} {scope : ArbitrationScope} {db : EvaluationDb}
  {event : ArbitrationEvent}

theorem latestPerInstance_eq (modelInstanceId : Uuid) :
    db.latestPerInstance scope modelInstanceId =
      (newest ArbitrationEvent.modelInstanceId EvaluationDb.newerThan
        (eventsInScope scope db.arbitrations)).filter
          fun event => event.modelInstanceId ≠ modelInstanceId := by
  rw [← newest_filter_key fun other => decide (other ≠ modelInstanceId)]
  simp only [EvaluationDb.latestPerInstance, newest, eventsInScope, List.filter_filter]
  simp only [← Bool.decide_and, and_comm]

/-- The new event stands for its instance. -/
theorem Outcome.Arbitrated.newest_eq (h : outcome.Arbitrated scope db event)
    (hchronological : Chronological ArbitrationEvent.modelInstanceId EvaluationDb.newerThan
      (db.arbitrations ++ [event])) :
    newest ArbitrationEvent.modelInstanceId EvaluationDb.newerThan
        (eventsInScope scope (db.arbitrations ++ [event])) =
      db.latestPerInstance scope outcome.modelInstanceId ++ [event] := by
  have hscope : eventsInScope scope (db.arbitrations ++ [event]) =
      eventsInScope scope db.arbitrations ++ [event] := by
    simp [eventsInScope, List.filter_append, h.eventScope]
  have hfiltered := hchronological.filter fun event => decide (event.scope = scope)
  rw [← eventsInScope, hscope] at hfiltered
  rw [hscope, newest_concat EvaluationDb.newerThan_irrefl hfiltered, latestPerInstance_eq,
    h.modelInstanceId]

theorem verdictOf_eq_corroborated {observed passing failing : Nat}
    (h : passing + failing = observed) :
    EvaluationDb.verdictOf observed passing failing = .corroborated ↔
      2 ≤ observed ∧ failing = 0 := by
  simp only [EvaluationDb.verdictOf]
  split
  · simp
    omega
  · split
    · simp
      omega
    · simp
      omega

end Counts

section Links
variable (scope : ArbitrationScope) {events : List ArbitrationEvent} {history : List Outcome}
  (h : events.reverse.map ArbitrationEvent.shown = history.filterMap Outcome.shown)
include h

/-- The events of a scope are its outcomes. -/
theorem eventsInScope_rows :
    (eventsInScope scope events).reverse.map (fun event => (event.modelInstanceId, event.passed)) =
      (inScope scope history).map fun outcome => (outcome.modelInstanceId, outcome.passed) := by
  have hhistory : ((history.filterMap Outcome.shown).filter fun s => s.1 = scope).map (·.2) =
      (inScope scope history).map fun outcome => (outcome.modelInstanceId, outcome.passed) := by
    clear h
    induction history with
    | nil => rfl
    | cons outcome rest ih =>
        simp only [inScope] at ih ⊢
        cases hscope : outcome.scope with
        | none => simp [Outcome.shown, hscope, ← ih]
        | some other =>
            by_cases heq : other = scope
            · simp [Outcome.shown, hscope, heq, ← ih]
            · simp [Outcome.shown, hscope, heq, ← ih]
  rw [← hhistory, ← h, List.filter_map, List.map_map, eventsInScope, List.filter_reverse]
  rfl

theorem observedInstances_eq :
    ((eventsInScope scope events).map ArbitrationEvent.modelInstanceId).toFinset =
      observedInstances scope history := by
  have hrows := congrArg (List.map Prod.fst) (eventsInScope_rows scope h)
  simp only [List.map_map, Function.comp_def] at hrows
  rw [observedInstances, ← hrows, ← List.toFinset_reverse, ← List.map_reverse]

theorem lastOf_passed (modelInstanceId : Uuid) :
    (lastOf ArbitrationEvent.modelInstanceId (eventsInScope scope events) modelInstanceId).map
        ArbitrationEvent.passed =
      (shown scope history modelInstanceId).head? := by
  have hrows := congrArg (fun rows => (rows.find? fun row => row.1 = modelInstanceId).map Prod.snd)
    (eventsInScope_rows scope h)
  simp only [List.find?_map, Option.map_map, Function.comp_def] at hrows
  rw [shown, List.head?_map, List.head?_filter, lastOf]
  exact hrows

end Links

/-- The counts of an event, by the latest outcomes of the instances. -/
structure Counted (scope : ArbitrationScope) (history : List Outcome) (event : ArbitrationEvent) :
    Prop where
  observed : event.observed = (observedInstances scope history).card
  passing : event.passing = (instancesShowing scope history true).card
  failing : event.failing = (instancesShowing scope history false).card

theorem shown_head_isSome {scope : ArbitrationScope} {history : List Outcome}
    {modelInstanceId : Uuid} (h : modelInstanceId ∈ observedInstances scope history) :
    ∃ passed, (shown scope history modelInstanceId).head? = some passed := by
  obtain ⟨outcome, houtcome, hsame⟩ := List.mem_map.mp (List.mem_toFinset.mp h)
  have hmem : outcome.passed ∈ shown scope history modelInstanceId :=
    List.mem_map_of_mem (List.mem_filter.mpr ⟨houtcome, decide_eq_true hsame⟩)
  cases hshown : shown scope history modelInstanceId with
  | nil =>
      rw [hshown] at hmem
      cases hmem
  | cons passed rest => exact ⟨passed, rfl⟩

/-- The latest outcome of an instance is either a success or a failure. -/
theorem card_instancesShowing (scope : ArbitrationScope) (history : List Outcome) :
    (instancesShowing scope history true).card + (instancesShowing scope history false).card =
      (observedInstances scope history).card := by
  rw [instancesShowing, instancesShowing, ← Finset.card_filter_add_card_filter_not
    (s := observedInstances scope history) fun modelInstanceId =>
      (shown scope history modelInstanceId).head? = some true]
  congr 2
  refine Finset.filter_congr fun modelInstanceId hobserved => ?_
  obtain ⟨passed, hpassed⟩ := shown_head_isSome hobserved
  rw [hpassed]
  cases passed <;> simp

theorem Chronicle.counted {past : List ArbitrationStep} {system : ArbitrationSystem}
    {outcome : Outcome} {scope : ArbitrationScope} {event : ArbitrationEvent}
    (h : Chronicle past system) (hends : system.Ends outcome) (hscope : outcome.scope = some scope)
    (hevent : outcome.Arbitrated scope system.db event) :
    Counted scope (outcome :: outcomes past) event := by
  have hchronological := h.concat hends hevent
  have hnewest := hevent.newest_eq hchronological
  have hscoped : Chronological ArbitrationEvent.modelInstanceId EvaluationDb.newerThan
      (eventsInScope scope (system.db.arbitrations ++ [event])) :=
    hchronological.filter _
  have hrows : (system.db.arbitrations ++ [event]).reverse.map ArbitrationEvent.shown =
      (outcome :: outcomes past).filterMap Outcome.shown := by
    have hsome : outcome.shown = some event.shown := by
      rw [Outcome.shown, hscope, Option.map_some, ArbitrationEvent.shown, hevent.eventScope,
        hevent.modelInstanceId, hevent.passed]
    rw [List.filterMap_cons_some hsome, ← h.rows]
    simp
  have hshowing : ∀ passed, (newest ArbitrationEvent.modelInstanceId EvaluationDb.newerThan
      (eventsInScope scope (system.db.arbitrations ++ [event]))).countP (·.passed == passed) =
        (instancesShowing scope (outcome :: outcomes past) passed).card := by
    intro passed
    rw [List.countP_eq_length_filter, length_filter_newest (fun _ => EvaluationDb.newerThan_irrefl)
      hscoped, observedInstances_eq scope hrows]
    congr 1
    refine Finset.filter_congr fun modelInstanceId _ => ?_
    rw [← lastOf_passed scope hrows]
    cases lastOf ArbitrationEvent.modelInstanceId
      (eventsInScope scope (system.db.arbitrations ++ [event])) modelInstanceId <;> simp
  have htrue := hshowing true
  have hfalse := hshowing false
  have hall := length_newest (fun _ => EvaluationDb.newerThan_irrefl) hscoped
  rw [hnewest, List.countP_append, List.countP_singleton, hevent.passed] at htrue hfalse
  rw [hnewest, List.length_append, observedInstances_eq scope hrows] at hall
  constructor
  · rw [hevent.observed, ← hall]
    rfl
  · rw [hevent.passing, ← htrue, ← List.countP_eq_length_filter]
    cases outcome.passed <;> simp
  · rw [hevent.failing, ← hfalse, ← List.countP_eq_length_filter]
    cases outcome.passed <;> simp

/-- Histories in which every instance has shown the same give the same counts. -/
theorem Counted.congr {scope : ArbitrationScope} {history other : List Outcome}
    {event otherEvent : ArbitrationEvent} (h : Counted scope history event)
    (hother : Counted scope other otherEvent)
    (hshown : ∀ modelInstanceId, shown scope other modelInstanceId =
      shown scope history modelInstanceId) :
    otherEvent.observed = event.observed ∧ otherEvent.passing = event.passing ∧
      otherEvent.failing = event.failing := by
  have hobserved : observedInstances scope other = observedInstances scope history := by
    ext modelInstanceId
    have hmem : ∀ past, modelInstanceId ∈ observedInstances scope past ↔
        shown scope past modelInstanceId ≠ [] := by
      intro past
      simp [observedInstances, shown, List.filter_eq_nil_iff]
    rw [hmem, hmem, hshown]
  rw [h.observed, h.passing, h.failing, hother.observed, hother.passing, hother.failing]
  simp only [instancesShowing, hobserved, hshown, and_self]

theorem recorded_event {start system next : ArbitrationSystem} {past : List ArbitrationStep}
    {outcome : Outcome} {scope : ArbitrationScope} (hstart : start.Fresh)
    (run : Run ArbitrationSystem.step Anything start past system)
    (hscope : outcome.scope = some scope)
    (hstep : ArbitrationSystem.step (.record outcome) system = some next) :
    ∃ event, next.db.arbitrations = system.db.arbitrations ++ [event] ∧
      outcome.Arbitrated scope system.db event ∧
      Counted scope (outcome :: outcomes past) event := by
  obtain ⟨hends, db, hrecord, rfl⟩ := ArbitrationSystem.step_record hstep
  rcases Outcome.record_ok hrecord with ⟨hnone, -⟩ | ⟨known, event, hknown, hevent, rfl⟩
  · rw [hscope] at hnone
    cases hnone
  · rw [hscope] at hknown
    cases hknown
    exact ⟨event, rfl, hevent, (chronicle hstart run).counted hends hscope hevent⟩

/-- The event of an outcome counts each instance once, by its latest outcome. Its verdict
is what these counts say, and it is the same in every run in which the instances have shown
the same, in whatever order they did. -/
theorem arbitration_verdict {start system next : ArbitrationSystem} {past : List ArbitrationStep}
    {outcome : Outcome} {scope : ArbitrationScope} (hstart : start.Fresh)
    (run : Run ArbitrationSystem.step Anything start past system)
    (hscope : outcome.scope = some scope)
    (hstep : ArbitrationSystem.step (.record outcome) system = some next) :
    ∃ event, next.db.arbitrations = system.db.arbitrations ++ [event] ∧
      event.modelInstanceId = outcome.modelInstanceId ∧ event.scope = scope ∧
      Counted scope (outcome :: outcomes past) event ∧
      event.passing + event.failing = event.observed ∧
      (event.verdict = .corroborated ↔
        2 ≤ (observedInstances scope (outcome :: outcomes past)).card ∧
          ∀ modelInstanceId ∈ observedInstances scope (outcome :: outcomes past),
            (shown scope (outcome :: outcomes past) modelInstanceId).head? ≠ some false) ∧
      ∀ {start' system' next' : ArbitrationSystem} {past' : List ArbitrationStep}
        {outcome' : Outcome}, start'.Fresh →
        Run ArbitrationSystem.step Anything start' past' system' → outcome'.scope = some scope →
        ArbitrationSystem.step (.record outcome') system' = some next' →
        (∀ modelInstanceId, shown scope (outcome' :: outcomes past') modelInstanceId =
          shown scope (outcome :: outcomes past) modelInstanceId) →
        ∃ event', next'.db.arbitrations = system'.db.arbitrations ++ [event'] ∧
          event'.verdict = event.verdict := by
  obtain ⟨event, hnext, hevent, hcounted⟩ := recorded_event hstart run hscope hstep
  have hsum : event.passing + event.failing = event.observed := by
    rw [hcounted.passing, hcounted.failing, hcounted.observed, card_instancesShowing]
  refine ⟨event, hnext, hevent.modelInstanceId, hevent.eventScope, hcounted, hsum, ?_, ?_⟩
  · rw [hevent.verdict, verdictOf_eq_corroborated hsum, hcounted.observed, hcounted.failing,
      Finset.card_eq_zero, instancesShowing, Finset.filter_eq_empty_iff]
  · intro start' system' next' past' outcome' hstart' run' hscope' hstep' hshown
    obtain ⟨event', hnext', hevent', hcounted'⟩ := recorded_event hstart' run' hscope' hstep'
    obtain ⟨hobserved, hpassing, hfailing⟩ := hcounted.congr hcounted' hshown
    refine ⟨event', hnext', ?_⟩
    rw [hevent.verdict, hevent'.verdict, hobserved, hpassing, hfailing]

section Sample

def privateChallenge (id modelInstanceId : Nat) : HiddenChallenge :=
  { EvaluationDb.sampleChallenge with
    id := .fromU128 id
    modelInstanceId := .fromU128 modelInstanceId
    challengeKind := .hiddenBenchmark
    modelWeightsHash := some "weights"
    challengeBindingHash := some "binding"
    privateCatalogId := some "catalog"
    privateCatalogEntryId := some "entry"
    privateCaseFamily := some "family"
    privateCatalogCommitment := some "commitment"
    privateEvaluatorId := some "evaluator"
    privateEvaluatorKeyFingerprint := some "fingerprint"
    privateCatalogValidUntil := some 1000 }

def sampleOutcome (id modelInstanceId : Nat) (began : Int) (passed : Bool) : Outcome :=
  ⟨⟨began, began, began, fun id => id⟩, privateChallenge id modelInstanceId, passed, .legacy⟩

/-- A challenge is handed out, and its outcome arrives two microseconds later. -/
def sampleEnd (id modelInstanceId : Nat) (began : Int) (passed : Bool) : List ArbitrationStep :=
  [.issue (.fromU128 modelInstanceId) (.fromU128 id), .elapse 2,
    .record (sampleOutcome id modelInstanceId began passed)]

def emptyArbitration : ArbitrationSystem := 
  ⟨EvaluationDb.initial (EvaluationDb.sampleAround []), 0, fun _ => none⟩

/-- One instance fails and later passes, another one passes in between. -/
theorem arbitration_verdict_sample : ∃ system next event,
    ArbitrationSystem.step (.record (sampleOutcome 3 1 6 true)) system = some next ∧
    next.db.arbitrations = system.db.arbitrations ++ [event] ∧
    event.passing + event.failing = event.observed ∧
    next.db.arbitrations.map (fun event => (event.observed, event.verdict)) =
      [(1, .pending), (2, .disputed), (2, .corroborated)] := by
  have hexecuted : ((execute ArbitrationSystem.step Anything []
      (sampleEnd 1 1 2 false ++ sampleEnd 2 2 4 true ++
        [.issue (.fromU128 1) (.fromU128 3), .elapse 2]) emptyArbitration).bind fun system =>
      (ArbitrationSystem.step (.record (sampleOutcome 3 1 6 true)) system).map fun next =>
        next.db.arbitrations.map fun event => (event.observed, event.verdict)) =
      some [(1, .pending), (2, .disputed), (2, .corroborated)] := by decide +kernel
  simp only [Option.bind_eq_some_iff, Option.map_eq_some_iff] at hexecuted
  obtain ⟨system, hrun, next, hstep, hverdicts⟩ := hexecuted
  have hscope : (sampleOutcome 3 1 6 true).scope =
      some ⟨1, "weights", "fingerprint", "family"⟩ := rfl
  obtain ⟨event, hnext, -, -, -, hsum, -⟩ := arbitration_verdict ⟨rfl, fun _ => rfl⟩
    (Run.start.execute hrun) hscope hstep
  exact ⟨system, next, event, hstep, hnext, hsum, hverdicts⟩

end Sample

end MindOne.Evaluations
