import MindOne.Worker.Slots

/-!
# The pause for temperature

The loop and every task keep the pause in their own copy of the share state, and
the copy of an ended task replaces the one of the loop. As long as no task that
has missed the heat hands its copy back, the loop claims nothing between a
reading above the limit and a reading five degrees below it.
-/

namespace MindOne.Worker

open LabelledRuns

/-- What the loop or a task reads off the sensor. -/
inductive Reading where
  | byLoop (temperature : Rat)
  | byTask (temperature : Rat)

def Event.reading : Event → Option Reading
  | .observe _ hardware => hardware.gpuTemperatureC.map .byLoop
  | .taskHeartbeat _ _ hardware => hardware.gpuTemperatureC.map .byTask
  | _ => none

/-- The loop has read a temperature above the limit, and nobody one at or below the
lower limit since; the last event comes first. -/
def hotAfter (limit : Nat) : List Event → Bool
  | [] => false
  | event :: past =>
      match event.reading with
      | some (.byLoop temperature) =>
          if (limit : Rat) < temperature then true
          else if temperature ≤ (limit - 5 : Nat) then false
          else hotAfter limit past
      | some (.byTask temperature) =>
          if temperature ≤ (limit - 5 : Nat) then false else hotAfter limit past
      | none => hotAfter limit past

/-- Policies that are read during the run name this limit. -/
def Event.Limited (limit : Nat) : Event → Prop
  | .observe policy _ => policy.gpuTempLimitC = some limit
  | .taskHeartbeat _ policy _ => policy.gpuTempLimitC = some limit
  | _ => True

instance (limit : Nat) (event : Event) : Decidable (event.Limited limit) :=
  match event with
  | .observe _ _ | .taskHeartbeat _ _ _ => inferInstanceAs (Decidable (_ = _))
  | .stop | .heartbeatAnswered _ | .claimAnswered _ | .waited | .collect _ | .declined _
  | .notSent _ | .sent _ | .answered _ | .erased _ _ | .leaseLost _ | .submitted _ =>
      inferInstanceAs (Decidable True)

/-- A task hands back a copy without a pause although it is still hot. -/
def LosesPause (limit : Nat) (past : List Event) (loop : WorkerLoop) : Event → Prop
  | .collect i => hotAfter limit past = true ∧
      (loop.tasks[i]?.any fun task => !task.state.pausedForTemperature) = true
  | _ => False

instance (limit : Nat) (past : List Event) (loop : WorkerLoop) (event : Event) :
    Decidable (LosesPause limit past loop event) :=
  match event with
  | .collect _ => inferInstanceAs (Decidable (_ ∧ _))
  | .stop | .observe _ _ | .heartbeatAnswered _ | .claimAnswered _ | .waited
  | .taskHeartbeat _ _ _ | .declined _ | .notSent _ | .sent _ | .answered _ | .erased _ _
  | .leaseLost _ | .submitted _ => inferInstanceAs (Decidable False)

section Hot
variable {limit : Nat} {past : List Event} {event : Event}

theorem hotAfter_silent (h : event.reading = none) :
    hotAfter limit (event :: past) = hotAfter limit past := by
  simp only [hotAfter, h]

/-- A task can only end the heat. -/
theorem hotAfter_byTask {i : Nat} {policy : NodePolicy} {hardware : HardwareMetrics}
    (h : hotAfter limit (.taskHeartbeat i policy hardware :: past) = true) :
    hotAfter limit past = true := by
  simp only [hotAfter, Event.reading] at h
  cases htemperature : hardware.gpuTemperatureC with
  | none => simpa [htemperature] using h
  | some temperature =>
      simp only [htemperature, Option.map_some] at h
      split at h
      · cases h
      · exact h

/-- While it is hot after its own reading, the loop pauses. -/
theorem paused_of_hot {policy : NodePolicy} {hardware : HardwareMetrics} {wasPaused : Bool}
    (hlimit : policy.gpuTempLimitC = some limit)
    (hpast : hotAfter limit past = true → wasPaused = true)
    (h : hotAfter limit (.observe policy hardware :: past) = true) :
    updateTemperaturePause wasPaused policy.gpuTempLimitC hardware.gpuTemperatureC = true := by
  rw [hlimit]
  simp only [hotAfter, Event.reading] at h
  cases htemperature : hardware.gpuTemperatureC with
  | none => rfl
  | some temperature =>
      simp only [htemperature, Option.map_some] at h
      split at h
      · rename_i hhot
        exact updateTemperaturePause_of_hot hhot wasPaused
      · split at h
        · cases h
        · rename_i hwarm
          rw [hpast h]
          refine updateTemperaturePause_of_paused fun other hother => ?_
          cases hother
          exact not_le.mp hwarm

end Hot

/-- While it is hot, the loop is paused and is not about to claim. -/
structure HeatSeen (limit : Nat) (past : List Event) (loop : WorkerLoop) : Prop where
  paused : hotAfter limit past = true → loop.state.pausedForTemperature = true
  heartbeat : ∀ current max, loop.control = .heartbeat true current max →
    hotAfter limit past = false
  claiming : ∀ max, loop.control = .claiming max → hotAfter limit past = false

section Steps
variable {limit : Nat} {past : List Event} {loop after : WorkerLoop} {event : Event}

/-- The loop has gone back to its head, or has stopped, with its own state. -/
theorem HeatSeen.rest (h : HeatSeen limit past loop) (hsilent : event.reading = none)
    (hstate : after.state = loop.state)
    (hcontrol : after.control = .top ∨ after.control = .full ∨ after.control = .idle ∨
      after.control = .stopped) : HeatSeen limit (event :: past) after := by
  refine ⟨?_, ?_, ?_⟩
  · rw [hotAfter_silent hsilent, hstate]
    exact h.paused
  · intro current max hheartbeat
    rcases hcontrol with hc | hc | hc | hc <;> rw [hheartbeat] at hc <;> cases hc
  · intro max hclaiming
    rcases hcontrol with hc | hc | hc | hc <;> rw [hclaiming] at hc <;> cases hc

/-- A task has gone on. -/
theorem HeatSeen.task (h : HeatSeen limit past loop)
    (hhot : hotAfter limit (event :: past) = true → hotAfter limit past = true)
    (hstate : after.state = loop.state) (hcontrol : after.control = loop.control) :
    HeatSeen limit (event :: past) after := by
  have hcold (hpast : hotAfter limit past = false) : hotAfter limit (event :: past) = false := by
    rw [Bool.eq_false_iff] at hpast ⊢
    exact fun hnow => hpast (hhot hnow)
  refine ⟨?_, ?_, ?_⟩
  · intro hnow
    rw [hstate]
    exact h.paused (hhot hnow)
  · intro current max hheartbeat
    exact hcold (h.heartbeat current max (hcontrol ▸ hheartbeat))
  · intro max hclaiming
    exact hcold (h.claiming max (hcontrol ▸ hclaiming))

theorem HeatSeen.advance {i : Nat} {phases : List TaskPhase} {next : TaskPhase}
    (h : HeatSeen limit past loop) (hsilent : event.reading = none)
    (hadvance : loop.advance i phases next = some after) : HeatSeen limit (event :: past) after := by
  obtain ⟨task, -, -, rfl⟩ := WorkerLoop.advance_eq_some.mp hadvance
  exact h.task (fun hnow => hotAfter_silent hsilent ▸ hnow) rfl rfl

theorem HeatSeen.observe {policy : NodePolicy} {hardware : HardwareMetrics}
    (h : HeatSeen limit past loop) (hlimit : policy.gpuTempLimitC = some limit) :
    HeatSeen limit (.observe policy hardware :: past) (loop.observe policy hardware) := by
  have hpaused : hotAfter limit (.observe policy hardware :: past) = true →
      updateTemperaturePause loop.state.pausedForTemperature policy.gpuTempLimitC
        hardware.gpuTemperatureC = true :=
    paused_of_hot hlimit h.paused
  refine ⟨hpaused, ?_, ?_⟩
  · intro current max hheartbeat
    injection hheartbeat with haccepting
    simp only [Bool.and_eq_true, Bool.not_eq_eq_eq_not, Bool.not_true] at haccepting
    rw [Bool.eq_false_iff]
    intro hnow
    rw [hpaused hnow] at haccepting
    cases haccepting.2
  · intro max hclaiming
    cases hclaiming

theorem HeatSeen.heartbeatAnswered {acceptingJobs : Option Bool} {accepting : Bool}
    {current max : Nat} (h : HeatSeen limit past loop)
    (hcontrol : loop.control = .heartbeat accepting current max) :
    HeatSeen limit (.heartbeatAnswered acceptingJobs :: past)
      { loop with
        control := WorkerLoop.afterHeartbeat accepting current max acceptingJobs } := by
  unfold WorkerLoop.afterHeartbeat
  split
  · rename_i haccepted
    split
    · exact h.rest rfl rfl (.inr (.inl rfl))
    · refine ⟨h.paused, fun _ _ hheartbeat => (nomatch hheartbeat), ?_⟩
      intro _ _
      exact h.heartbeat current max (haccepted.2 ▸ hcontrol)
  · exact h.rest rfl rfl (.inl rfl)

theorem HeatSeen.collect {i : Nat} (h : HeatSeen limit past loop)
    (hkept : ¬ LosesPause limit past loop (.collect i)) (hcollect : loop.collect i = some after) :
    HeatSeen limit (.collect i :: past) after := by
  obtain ⟨task, htask, -, -, rfl⟩ := WorkerLoop.collect_eq_some.mp hcollect
  unfold WorkerLoop.applyJobTaskOutcome
  split
  · exact h.rest rfl rfl (.inr (.inr (.inr rfl)))
  · refine ⟨?_, fun _ _ hheartbeat => (nomatch hheartbeat), fun _ hclaiming => (nomatch hclaiming)⟩
    intro hnow
    show task.state.pausedForTemperature = true
    by_contra hunpaused
    refine hkept ⟨hnow, ?_⟩
    rw [htask, Option.any_some, Bool.not_eq_true']
    exact Bool.eq_false_of_not_eq_true hunpaused

theorem HeatSeen.step (h : HeatSeen limit past loop) (hlimited : event.Limited limit)
    (hkept : ¬ LosesPause limit past loop event) (hstep : WorkerLoop.step event loop = some after) :
    HeatSeen limit (event :: past) after := by
  obtain ⟨-, hstep⟩ := WorkerLoop.step_running hstep
  cases event with
  | stop =>
      cases hstep
      exact h.rest rfl rfl (.inr (.inr (.inr rfl)))
  | observe policy hardware =>
      simp only [WorkerLoop.goOn, Option.ite_none_right_eq_some, Option.some.injEq] at hstep
      obtain ⟨-, rfl⟩ := hstep
      exact h.observe hlimited
  | heartbeatAnswered acceptingJobs =>
      simp only [WorkerLoop.goOn] at hstep
      split at hstep
      · rename_i hcontrol
        cases hstep
        exact h.heartbeatAnswered hcontrol
      · cases hstep
  | claimAnswered answer =>
      simp only [WorkerLoop.goOn] at hstep
      split at hstep
      · cases hstep
        exact h.rest rfl rfl (.inl rfl)
      · cases hstep
        exact h.rest rfl rfl (.inr (.inr (.inl rfl)))
      · cases hstep
        obtain ⟨hstate, hcontrol⟩ := loop.spawn_control _
        exact h.rest rfl hstate (hcontrol.imp_right fun hstopped => .inr (.inr hstopped))
      · cases hstep
  | waited =>
      simp only [WorkerLoop.goOn, Option.ite_none_right_eq_some, Option.some.injEq] at hstep
      obtain ⟨-, rfl⟩ := hstep
      exact h.rest rfl rfl (.inl rfl)
  | collect i => exact h.collect hkept hstep
  | taskHeartbeat i policy hardware =>
      obtain ⟨task, -, -, rfl⟩ := WorkerLoop.taskHeartbeat_eq_some.mp hstep
      exact h.task hotAfter_byTask rfl rfl
  | declined i => exact h.advance rfl hstep
  | notSent i => exact h.advance rfl hstep
  | sent i =>
      obtain ⟨task, -, -, rfl⟩ := WorkerLoop.sent_eq_some.mp hstep
      exact h.task id rfl rfl
  | answered i => exact h.advance rfl hstep
  | erased i receipt =>
      obtain ⟨task, -, -, rfl⟩ := WorkerLoop.erased_eq_some.mp hstep
      split <;> exact h.task id rfl rfl
  | leaseLost i => exact h.advance rfl hstep
  | submitted i => exact h.advance rfl hstep

end Steps

/-- In every run under one limit in which no task hands back a copy without a pause
while it is hot, the loop sends no claim while it is hot. -/
theorem no_claim_while_hot {limit : Nat} {start : ShareState} {past : List Event}
    {loop : WorkerLoop}
    (run : Run WorkerLoop.step
      (fun past loop event => event.Limited limit ∧ ¬ LosesPause limit past loop event)
      (WorkerLoop.initial start) past loop) :
    ∀ max, loop.control = .claiming max → hotAfter limit past = false := by
  have seen : HeatSeen limit past loop :=
    run.invariant ⟨fun hnow => (nomatch hnow), fun _ _ hheartbeat => (nomatch hheartbeat),
      fun _ hclaiming => (nomatch hclaiming)⟩
      fun hseen hallowed hstep => hseen.step hallowed.1 hallowed.2 hstep
  exact seen.claiming

section Sample

/-- A task ends without having seen the 90 degrees that have paused the loop, and the
loop claims at 78. -/
def sampleLostPause : List Event := sampleClaim ++ [.declined 0, .submitted 0,
  .observe samplePolicy (sampleHardware 90), .heartbeatAnswered (some true), .collect 0,
  .observe samplePolicy (sampleHardware 78), .heartbeatAnswered (some true)]

/-- The task sees the 90 degrees too; the loop claims when the sensor is down at 75. -/
def sampleKeptPause : List Event := sampleClaim ++ [
  .taskHeartbeat 0 samplePolicy (sampleHardware 90), .declined 0, .submitted 0,
  .observe samplePolicy (sampleHardware 90), .heartbeatAnswered (some true), .collect 0,
  .observe samplePolicy (sampleHardware 78), .heartbeatAnswered (some true),
  .observe samplePolicy (sampleHardware 75), .heartbeatAnswered (some true)]

theorem no_claim_while_hot_sample :
    ∃ past loop, Run WorkerLoop.step
        (fun past loop event => event.Limited 80 ∧ ¬ LosesPause 80 past loop event)
        (WorkerLoop.initial ⟨false⟩) past loop ∧ loop.control = .claiming 3 ∧
      hotAfter 80 past = false := by
  cases h : execute WorkerLoop.step
      (fun past loop event => event.Limited 80 ∧ ¬ LosesPause 80 past loop event) []
      sampleKeptPause (WorkerLoop.initial ⟨false⟩) with
  | none => exact absurd (congrArg Option.isSome h) (by decide +kernel)
  | some loop =>
      have run := Run.start.execute h
      have hcontrol : loop.control = .claiming 3 := by
        have := (congrArg (Option.map WorkerLoop.control) h).symm.trans
          (by decide +kernel : _ = some (.claiming 3))
        exact Option.some.inj this
      exact ⟨_, loop, run, hcontrol, no_claim_while_hot run 3 hcontrol⟩

/-- A copy that has missed the heat undoes the pause. -/
theorem no_claim_while_hot_fails :
    ¬ ∀ (limit : Nat) (start : ShareState) (past : List Event) (loop : WorkerLoop),
      30 ≤ limit ∧ limit ≤ 110 →
      Run WorkerLoop.step (fun _ _ event => event.Limited limit) (WorkerLoop.initial start)
        past loop →
      ∀ max, loop.control = .claiming max → hotAfter limit past = false := by
  intro cold
  cases h : execute WorkerLoop.step (fun _ _ event => event.Limited 80) [] sampleLostPause
      (WorkerLoop.initial ⟨false⟩) with
  | none => exact absurd (congrArg Option.isSome h) (by decide +kernel)
  | some loop =>
      have hcontrol := (congrArg (Option.map WorkerLoop.control) h).symm.trans
        (by decide +kernel : _ = some (.claiming 3))
      have hcold := cold 80 ⟨false⟩ _ loop (by decide) (Run.start.execute h) 3
        (Option.some.inj hcontrol)
      exact absurd hcold (by decide +kernel)

end Sample

end MindOne.Worker
