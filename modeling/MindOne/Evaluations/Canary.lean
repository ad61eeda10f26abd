import Mathlib.Data.List.Chain
import Mathlib.Data.List.Infix
import MindOne.Lib.KeyedTable
import MindOne.Values

/-!
# Canary quarantine of model instances

Every ended challenge sends one signal for its instance. Three failures in a row
quarantine the instance, and two passes in a row release it again. The row of an
instance is determined by the signals that it has received.
-/

namespace MindOne.Evaluations

open KeyedTable

inductive CanaryReason where
  | answerMatch | answerMismatch | workerFailed | leaseExpired
  deriving DecidableEq, Repr

inductive CanaryEventKind where
  | signalPassed | signalFailed | quarantined | recovered
  deriving DecidableEq, Repr

/-- `model_instance_canary_state` -/
structure CanaryState where
  modelInstanceId : Uuid
  consecutiveFailures : Int
  recoveryPasses : Int
  quarantined : Bool
  lastChallengeId : Option Uuid
  quarantinedAt : Option Int
  recoveredAt : Option Int

/-- `model_instance_canary_events` -/
structure CanaryEvent where
  modelInstanceId : Uuid
  challengeId : Uuid
  eventKind : CanaryEventKind
  reasonCode : CanaryReason
  consecutiveFailures : Int
  recoveryPasses : Int
  quarantined : Bool

/-- The two tables; the events are in the order of their inserts. -/
structure CanaryTables where
  states : Table CanaryState.modelInstanceId
  events : List CanaryEvent

structure CanarySignal where
  challengeId : Uuid
  modelInstanceId : Uuid
  passed : Bool
  reasonCode : CanaryReason
  now : Int

def quarantineFailureThreshold : Int := 3
def recoveryPassThreshold : Int := 2

/-- `saturating_add(1).min(1_000_000)` -/
def counted (n : Int) : Int := min (min (n + 1) 2147483647) 1000000

/-- The row that `ON CONFLICT DO NOTHING` leaves for an instance without one. -/
def CanaryState.new (modelInstanceId : Uuid) : CanaryState where
  modelInstanceId
  consecutiveFailures := 0
  recoveryPasses := 0
  quarantined := false
  lastChallengeId := none
  quarantinedAt := none
  recoveredAt := none

/-- The new failures, the observed recovery passes and the new flag. -/
def CanaryState.observe (state : CanaryState) (passed : Bool) : Int × Int × Bool :=
  if passed = true then
    let recoveryPasses := if state.quarantined = true then counted state.recoveryPasses else 0
    (0, recoveryPasses, state.quarantined && decide (recoveryPasses < recoveryPassThreshold))
  else
    let failures := counted state.consecutiveFailures
    (failures, 0, state.quarantined || decide (quarantineFailureThreshold ≤ failures))

def CanaryState.updated (state : CanaryState) (signal : CanarySignal) : CanaryState :=
  let (newFailures, observedRecoveryPasses, newQuarantined) := state.observe signal.passed
  { state with
    consecutiveFailures := newFailures
    recoveryPasses := if newQuarantined = true then observedRecoveryPasses else 0
    quarantined := newQuarantined
    lastChallengeId := some signal.challengeId
    quarantinedAt := if newQuarantined = true ∧ state.quarantined = false then some signal.now
      else state.quarantinedAt
    recoveredAt := if newQuarantined = false ∧ state.quarantined = true then some signal.now
      else state.recoveredAt }

/-- The event of the signal and, where the flag changes, the event of the change. -/
def CanaryState.emitted (state : CanaryState) (signal : CanarySignal) : List CanaryEvent :=
  let (newFailures, observedRecoveryPasses, newQuarantined) := state.observe signal.passed
  let event (eventKind : CanaryEventKind) (consecutiveFailures recoveryPasses : Int)
      (quarantined : Bool) : CanaryEvent :=
    { modelInstanceId := signal.modelInstanceId, challengeId := signal.challengeId, eventKind,
      reasonCode := signal.reasonCode, consecutiveFailures, recoveryPasses, quarantined }
  event (if signal.passed = true then .signalPassed else .signalFailed) newFailures
      observedRecoveryPasses newQuarantined ::
    if state.quarantined = false ∧ newQuarantined = true then
      [event .quarantined newFailures 0 true]
    else if state.quarantined = true ∧ newQuarantined = false then
      [event .recovered 0 observedRecoveryPasses false]
    else []

def CanaryTables.empty : CanaryTables := ⟨.empty, []⟩

def CanaryTables.state (tables : CanaryTables) (modelInstanceId : Uuid) : CanaryState :=
  (tables.states.find modelInstanceId).getD (.new modelInstanceId)

def recordInstanceCanarySignal (tables : CanaryTables) (signal : CanarySignal) : CanaryTables :=
  let state := tables.state signal.modelInstanceId
  { states := tables.states.set (state.updated signal)
    events := tables.events ++ state.emitted signal }

def recordSignals (signals : List CanarySignal) : CanaryTables :=
  signals.foldl recordInstanceCanarySignal .empty

/-- What the routing asks before it offers an instance. -/
def instanceCanaryQuarantined (tables : CanaryTables) (modelInstanceId : Uuid) : Bool :=
  (tables.states.find modelInstanceId).any CanaryState.quarantined

/-- The signals of one instance, the oldest first: whether each of them passed. -/
def history (signals : List CanarySignal) (modelInstanceId : Uuid) : List Bool :=
  (signals.filter fun signal => signal.modelInstanceId = modelInstanceId).map CanarySignal.passed

/-- The transitions of one instance, in the order in which they were emitted. -/
def CanaryTables.transitions (tables : CanaryTables) (modelInstanceId : Uuid) :
    List CanaryEventKind :=
  (tables.events.filter fun event => event.modelInstanceId = modelInstanceId ∧
    (event.eventKind = .quarantined ∨ event.eventKind = .recovered)).map CanaryEvent.eventKind

/-- Three failures in a row that are not followed by two passes in a row. -/
def Unrecovered (history : List Bool) : Prop :=
  ∃ before after, history = before ++ [false, false, false] ++ after ∧ ¬ [true, true] <:+: after

/-- Quarantines and recoveries in turn, a quarantine first. -/
def Alternate (kinds : List CanaryEventKind) : Prop :=
  (∀ kind ∈ kinds, kind = .quarantined ∨ kind = .recovered) ∧
    (CanaryEventKind.recovered :: kinds).IsChain (· ≠ ·)

section Histories
variable {past : List Bool}

/-- The failures at the end of a history. -/
def trailingFailures (past : List Bool) : Nat := (past.reverse.takeWhile (! ·)).length

@[simp] theorem trailingFailures_pass : trailingFailures (past ++ [true]) = 0 := by
  simp [trailingFailures]

@[simp] theorem trailingFailures_fail :
    trailingFailures (past ++ [false]) = trailingFailures past + 1 := by
  simp [trailingFailures]

theorem two_le_trailingFailures : 2 ≤ trailingFailures past ↔ [false, false] <:+ past := by
  rw [trailingFailures, ← List.reverse_prefix]
  match past.reverse with
  | [] => simp
  | [true] => simp
  | [false] => simp
  | true :: b :: rest => simp
  | false :: true :: rest => simp
  | false :: false :: rest => simp

/-- A failure keeps a quarantine, and makes one after two others. -/
theorem unrecovered_fail :
    Unrecovered (past ++ [false]) ↔ Unrecovered past ∨ [false, false] <:+ past := by
  constructor
  · rintro ⟨before, after, hsplit, hpasses⟩
    rcases List.eq_nil_or_concat after with rfl | ⟨init, last, rfl⟩
    · right
      refine ⟨before, ?_⟩
      have hcut : before ++ [false, false] ++ [false] = past ++ [false] := by
        rw [hsplit]
        simp
      exact List.append_cancel_right hcut
    · left
      rw [List.concat_eq_append, ← List.append_assoc] at hsplit
      obtain ⟨hpast, hlast⟩ := List.append_inj' hsplit rfl
      refine ⟨before, init, hpast, fun hinfix => hpasses ?_⟩
      rw [List.concat_eq_append]
      exact hinfix.trans (List.prefix_append init [last]).isInfix
  · rintro (⟨before, after, rfl, hpasses⟩ | ⟨before, rfl⟩)
    · refine ⟨before, after ++ [false], by simp, fun hinfix => ?_⟩
      rcases List.infix_concat_iff.mp hinfix with hsuffix | hinfix
      · obtain ⟨t, ht⟩ := hsuffix
        have := congrArg List.getLast? ht
        simp at this
      · exact hpasses hinfix
    · exact ⟨before, [], by simp, by simp⟩

/-- A pass keeps a quarantine unless it is the second one in a row. -/
theorem unrecovered_pass :
    Unrecovered (past ++ [true]) ↔ Unrecovered past ∧ past.getLast? ≠ some true := by
  constructor
  · rintro ⟨before, after, hsplit, hpasses⟩
    rcases List.eq_nil_or_concat after with rfl | ⟨init, last, rfl⟩
    · have := congrArg List.getLast? hsplit
      simp at this
    · rw [List.concat_eq_append, ← List.append_assoc] at hsplit
      obtain ⟨rfl, hlast⟩ := List.append_inj' hsplit rfl
      obtain rfl := List.singleton_inj.mp hlast
      refine ⟨⟨before, init, rfl, fun hinfix => hpasses ?_⟩, fun hend => hpasses ?_⟩
      · rw [List.concat_eq_append]
        exact hinfix.trans (List.prefix_append init [true]).isInfix
      · rcases List.eq_nil_or_concat init with rfl | ⟨start, second, rfl⟩
        · simp at hend
        · simp only [List.concat_eq_append, ← List.append_assoc, List.getLast?_concat,
            Option.some.injEq] at hend
          subst hend
          exact ⟨start, [], by simp⟩
  · rintro ⟨⟨before, after, rfl, hpasses⟩, hend⟩
    refine ⟨before, after ++ [true], by simp, fun hinfix => ?_⟩
    rcases List.infix_concat_iff.mp hinfix with hsuffix | hinfix
    · obtain ⟨t, ht⟩ := hsuffix
      have hcut : (t ++ [true]) ++ [true] = after ++ [true] := by rw [← ht]; simp
      obtain rfl := List.append_cancel_right hcut
      simp [← List.append_assoc] at hend
    · exact hpasses hinfix

theorem not_unrecovered_nil : ¬ Unrecovered [] := by
  rintro ⟨before, after, h, -⟩
  simp at h

end Histories

/-- The row of an instance that has received some signals. -/
structure CanaryState.Tracks (state : CanaryState) (past : List Bool) : Prop where
  failures : state.consecutiveFailures = min (trailingFailures past : Int) 1000000
  quarantined : state.quarantined = true ↔ Unrecovered past
  passes : state.recoveryPasses =
    if state.quarantined = true ∧ past.getLast? = some true then 1 else 0

section Steps
variable {state : CanaryState} {signal : CanarySignal} {past : List Bool}

theorem CanaryState.tracks_new (modelInstanceId : Uuid) :
    (CanaryState.new modelInstanceId).Tracks [] where
  failures := rfl
  quarantined := iff_of_false Bool.false_ne_true not_unrecovered_nil
  passes := rfl

theorem CanaryState.Tracks.passed (h : state.Tracks past) (hpassed : signal.passed = true) :
    (state.updated signal).Tracks (past ++ [true]) := by
  have hpasses := h.passes
  have hquarantined := h.quarantined
  cases hq : state.quarantined with
  | false =>
      simp only [hq, Bool.false_eq_true, false_and, if_false] at hpasses
      have hnot : ¬ Unrecovered past := fun hu => by simp [hquarantined.mpr hu] at hq
      exact {
        failures := by simp [updated, observe, hpassed, trailingFailures_pass]
        quarantined := by
          simp [updated, observe, hpassed, hq, unrecovered_pass, hnot]
        passes := by simp [updated, observe, hpassed, hq] }
  | true =>
      have hunrecovered : Unrecovered past := hquarantined.mp hq
      by_cases hlast : past.getLast? = some true
      · simp only [hq, hlast, and_self, if_true] at hpasses
        have hobserve : state.observe signal.passed = (0, 2, false) := by
          simp [observe, hpassed, hq, hpasses, counted, recoveryPassThreshold]
        exact {
          failures := by simp [updated, hobserve]
          quarantined := by simp [updated, hobserve, unrecovered_pass, hlast]
          passes := by simp [updated, hobserve] }
      · simp only [hq, hlast, and_false, if_false] at hpasses
        have hobserve : state.observe signal.passed = (0, 1, true) := by
          simp [observe, hpassed, hq, hpasses, counted, recoveryPassThreshold]
        exact {
          failures := by simp [updated, hobserve]
          quarantined := by simp [updated, hobserve, unrecovered_pass, hlast, hunrecovered]
          passes := by simp [updated, hobserve] }

theorem CanaryState.Tracks.failed (h : state.Tracks past) (hfailed : signal.passed = false) :
    (state.updated signal).Tracks (past ++ [false]) := by
  have hfailures : counted state.consecutiveFailures =
      min ((trailingFailures past + 1 : Nat) : Int) 1000000 := by
    rw [h.failures, counted]
    omega
  have hobserve : state.observe signal.passed = (counted state.consecutiveFailures, 0,
      state.quarantined || decide (quarantineFailureThreshold ≤
        counted state.consecutiveFailures)) := by
    simp [observe, hfailed]
  exact {
    failures := by simp only [updated, hobserve, hfailures, trailingFailures_fail]
    quarantined := by
      simp only [updated, hobserve, Bool.or_eq_true, decide_eq_true_eq, h.quarantined,
        unrecovered_fail, ← two_le_trailingFailures, hfailures, quarantineFailureThreshold]
      refine or_congr_right ?_
      omega
    passes := by simp [updated, hobserve] }

theorem CanaryState.Tracks.updated (h : state.Tracks past) (signal : CanarySignal) :
    (state.updated signal).Tracks (past ++ [signal.passed]) := by
  cases hpassed : signal.passed with
  | false => exact h.failed hpassed
  | true => exact h.passed hpassed

/-- Without a quarantine fewer than three failures stand at the end. -/
theorem trailingFailures_lt (h : ¬ Unrecovered past) : trailingFailures past < 3 := by
  rcases List.eq_nil_or_concat past with rfl | ⟨init, last, rfl⟩
  · decide
  · rw [List.concat_eq_append] at h ⊢
    cases last with
    | true => simp
    | false =>
        have htwo : ¬ 2 ≤ trailingFailures init := fun htwo =>
          h (unrecovered_fail.mpr (.inr (two_le_trailingFailures.mp htwo)))
        rw [trailingFailures_fail]
        omega

/-- The changes of the flag that a signal makes. -/
def CanaryState.changes (state : CanaryState) (signal : CanarySignal) : List CanaryEventKind :=
  if state.quarantined = (state.updated signal).quarantined then []
  else if state.quarantined = true then [.recovered] else [.quarantined]

theorem CanaryTables.transitions_append (tables : CanaryTables) (events : List CanaryEvent)
    (states : Table CanaryState.modelInstanceId) (modelInstanceId : Uuid) :
    CanaryTables.transitions ⟨states, tables.events ++ events⟩ modelInstanceId =
      tables.transitions modelInstanceId ++
        CanaryTables.transitions ⟨states, events⟩ modelInstanceId := by
  simp only [transitions, List.filter_append, List.map_append]

theorem CanaryState.transitions_emitted (state : CanaryState) (signal : CanarySignal)
    (states : Table CanaryState.modelInstanceId) (modelInstanceId : Uuid) :
    CanaryTables.transitions ⟨states, state.emitted signal⟩ modelInstanceId =
      if signal.modelInstanceId = modelInstanceId then state.changes signal else [] := by
  rcases hobserve : state.observe signal.passed with ⟨failures, passes, flag⟩
  by_cases hid : signal.modelInstanceId = modelInstanceId
  · cases hq : state.quarantined <;> cases hpassed : signal.passed <;> cases flag <;>
      simp_all [CanaryTables.transitions, emitted, changes, updated]
  · cases hq : state.quarantined <;> cases flag <;>
      simp_all [CanaryTables.transitions, emitted]

end Steps

section Runs

variable {tables : CanaryTables} {modelInstanceId : Uuid}

theorem CanaryTables.state_id (tables : CanaryTables) (modelInstanceId : Uuid) :
    (tables.state modelInstanceId).modelInstanceId = modelInstanceId := by
  unfold state
  cases hfind : tables.states.find modelInstanceId with
  | none => rfl
  | some row => exact Table.key_of_find hfind

theorem CanaryTables.state_record (tables : CanaryTables) (signal : CanarySignal)
    (modelInstanceId : Uuid) :
    (recordInstanceCanarySignal tables signal).state modelInstanceId =
      if signal.modelInstanceId = modelInstanceId then
        (tables.state modelInstanceId).updated signal
      else tables.state modelInstanceId := by
  have hkey : ((tables.state signal.modelInstanceId).updated signal).modelInstanceId =
      signal.modelInstanceId := tables.state_id signal.modelInstanceId
  have hfind : (tables.states.set ((tables.state signal.modelInstanceId).updated signal)).find
      modelInstanceId = _ := Table.find_set
  rw [hkey] at hfind
  by_cases hid : signal.modelInstanceId = modelInstanceId
  · subst hid
    rw [if_pos rfl] at hfind ⊢
    rw [state, recordInstanceCanarySignal, hfind, Option.getD_some]
  · rw [if_neg (Ne.symm hid)] at hfind
    rw [if_neg hid, state, recordInstanceCanarySignal, hfind, ← state]

/-- The change that leads to a flag. -/
def changeTo (quarantined : Bool) : CanaryEventKind :=
  if quarantined = true then .quarantined else .recovered

/-- A change of the flag continues the alternation. -/
theorem Alternate.turn {kinds : List CanaryEventKind} {flag flag' : Bool} (h : Alternate kinds)
    (hlast : (CanaryEventKind.recovered :: kinds).getLast? = some (changeTo flag))
    (hne : flag ≠ flag') : Alternate (kinds ++ [changeTo flag']) := by
  obtain ⟨hkinds, hchain⟩ := h
  constructor
  · intro kind hmem
    rcases List.mem_append.mp hmem with hmem | hmem
    · exact hkinds kind hmem
    · obtain rfl := List.mem_singleton.mp hmem
      cases flag' with
      | true => exact .inl rfl
      | false => exact .inr rfl
  · rw [← List.cons_append, List.isChain_append]
    refine ⟨hchain, List.isChain_singleton _, ?_⟩
    intro x hx y hy
    rw [hlast, Option.mem_some_iff] at hx
    obtain rfl := Option.mem_some_iff.mp hy
    rw [← hx]
    cases flag <;> cases flag' <;> first | exact absurd rfl hne | decide

/-- The changes of an instance alternate, and its flag is the last of them. -/
structure CanaryTables.InTurn (tables : CanaryTables) (modelInstanceId : Uuid) : Prop where
  alternate : Alternate (tables.transitions modelInstanceId)
  last : (CanaryEventKind.recovered :: tables.transitions modelInstanceId).getLast? =
    some (changeTo (tables.state modelInstanceId).quarantined)

theorem CanaryState.changes_eq (state : CanaryState) (signal : CanarySignal) :
    state.changes signal = if state.quarantined = (state.updated signal).quarantined then []
      else [changeTo (state.updated signal).quarantined] := by
  unfold changes changeTo
  cases hq : state.quarantined <;> cases hq' : (state.updated signal).quarantined <;> rfl

theorem CanaryTables.InTurn.record (h : tables.InTurn modelInstanceId) (signal : CanarySignal) :
    (recordInstanceCanarySignal tables signal).InTurn modelInstanceId := by
  have htransitions : (recordInstanceCanarySignal tables signal).transitions modelInstanceId =
      tables.transitions modelInstanceId ++
        if signal.modelInstanceId = modelInstanceId then
          (tables.state modelInstanceId).changes signal else [] := by
    rw [recordInstanceCanarySignal, tables.transitions_append, CanaryState.transitions_emitted]
    split <;> simp_all
  have hstate := tables.state_record signal modelInstanceId
  by_cases hid : signal.modelInstanceId = modelInstanceId
  · rw [if_pos hid, CanaryState.changes_eq] at htransitions
    rw [if_pos hid] at hstate
    by_cases hflag : (tables.state modelInstanceId).quarantined =
        ((tables.state modelInstanceId).updated signal).quarantined
    · rw [if_pos hflag, List.append_nil] at htransitions
      exact ⟨htransitions ▸ h.alternate, by rw [htransitions, hstate, ← hflag]; exact h.last⟩
    · rw [if_neg hflag] at htransitions
      refine ⟨htransitions ▸ h.alternate.turn h.last hflag, ?_⟩
      rw [htransitions, hstate, ← List.cons_append, List.getLast?_concat]
  · rw [if_neg hid, List.append_nil] at htransitions
    rw [if_neg hid] at hstate
    exact ⟨htransitions ▸ h.alternate, by rw [htransitions, hstate]; exact h.last⟩

theorem history_append (signals : List CanarySignal) (signal : CanarySignal)
    (modelInstanceId : Uuid) :
    history (signals ++ [signal]) modelInstanceId =
      if signal.modelInstanceId = modelInstanceId then
        history signals modelInstanceId ++ [signal.passed]
      else history signals modelInstanceId := by
  by_cases hid : signal.modelInstanceId = modelInstanceId <;> simp [history, hid]

theorem recordSignals_append (signals : List CanarySignal) (signal : CanarySignal) :
    recordSignals (signals ++ [signal]) =
      recordInstanceCanarySignal (recordSignals signals) signal :=
  List.foldl_append

theorem recordSignals_tracks (signals : List CanarySignal) (modelInstanceId : Uuid) :
    ((recordSignals signals).state modelInstanceId).Tracks (history signals modelInstanceId) ∧
      (recordSignals signals).InTurn modelInstanceId := by
  induction signals using List.reverseRecOn with
  | nil =>
      exact ⟨CanaryState.tracks_new modelInstanceId,
        ⟨⟨fun _ h => (nomatch h), List.isChain_singleton _⟩, rfl⟩⟩
  | append_singleton signals signal ih =>
      obtain ⟨htracks, hturn⟩ := ih
      rw [recordSignals_append]
      refine ⟨?_, hturn.record signal⟩
      rw [CanaryTables.state_record, history_append]
      split
      · exact htracks.updated signal
      · exact htracks

end Runs

/-- After any signals an instance is quarantined exactly if its history has three failures
in a row that no two passes in a row follow; its counters stay below their thresholds; and
its quarantines and recoveries alternate. -/
theorem canary_quarantine_of_history (signals : List CanarySignal) (modelInstanceId : Uuid) :
    (instanceCanaryQuarantined (recordSignals signals) modelInstanceId = true ↔
      Unrecovered (history signals modelInstanceId)) ∧
    (∀ state, (recordSignals signals).states.find modelInstanceId = some state →
      (state.quarantined = false → state.consecutiveFailures < 3 ∧ state.recoveryPasses = 0) ∧
      (state.quarantined = true → state.recoveryPasses < 2)) ∧
    Alternate ((recordSignals signals).transitions modelInstanceId) := by
  obtain ⟨htracks, hturn⟩ := recordSignals_tracks signals modelInstanceId
  refine ⟨?_, ?_, hturn.alternate⟩
  · rw [← htracks.quarantined, instanceCanaryQuarantined, CanaryTables.state]
    cases (recordSignals signals).states.find modelInstanceId with
    | none => exact Iff.rfl
    | some state => exact Iff.rfl
  · intro state hfind
    have hstate : (recordSignals signals).state modelInstanceId = state := by
      rw [CanaryTables.state, hfind, Option.getD_some]
    rw [hstate] at htracks
    refine ⟨fun hq => ?_, fun hq => ?_⟩
    · have hnot : ¬ Unrecovered (history signals modelInstanceId) := fun hu => by
        simp [htracks.quarantined.mpr hu] at hq
      have hlt := trailingFailures_lt hnot
      refine ⟨?_, by rw [htracks.passes]; simp [hq]⟩
      rw [htracks.failures]
      omega
    · rw [htracks.passes]
      split <;> decide

section Sample

/-- Four failures and two passes of one instance: quarantined at the third, released at the
end. -/
def sampleSignals : List CanarySignal :=
  [false, false, false, false, true, true].mapIdx fun i passed =>
    ⟨.fromU128 (40 + i), .fromU128 21, passed,
      if passed = true then .answerMatch else .workerFailed, i⟩

example : (recordSignals sampleSignals).transitions (.fromU128 21) =
    [.quarantined, .recovered] := by decide +kernel

end Sample

end MindOne.Evaluations
