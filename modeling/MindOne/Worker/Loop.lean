import MindOne.Lib.LabelledRuns
import MindOne.Worker.Policy

/-!
# The loop of a sharing worker

The main loop claims jobs and spawns a task for each; a task owns one slot of the
local engine and its own copy of the share state until the loop takes both back.
A step is one stretch of code between two points where the loop or a task waits.
For every slot the engine remembers whether it still holds what an earlier
request left there.
-/

namespace MindOne.Worker

open LabelledRuns

/-- The part of the share state that the loop and its tasks decide by. -/
structure ShareState where
  pausedForTemperature : Bool

inductive TaskPhase where
  /-- Bindings and policies are checked; nothing has been sent to the engine. -/
  | checking
  /-- The engine has the request. -/
  | inferring
  /-- The inference is over, well or badly, and the slot is being erased. -/
  | erasing
  /-- The inference future has returned or has been dropped. -/
  | submitting
  | finished
  deriving DecidableEq

/-- A claimed job in the hands of `process_claimed_job`. -/
structure JobTask where
  slotId : Nat
  state : ShareState
  phase : TaskPhase

/-- Where the main loop waits. -/
inductive Control where
  /-- The head of the loop, where ended tasks are collected. -/
  | top
  /-- The heartbeat is under way. -/
  | heartbeat (locallyAccepting : Bool) (currentConcurrent maxConcurrent : Nat)
  /-- At capacity: waiting for a task to end. -/
  | full
  /-- The claim request is under way. -/
  | claiming (maxConcurrent : Nat)
  /-- No job was to be had: waiting for a task or for two seconds. -/
  | idle
  | stopped
  deriving DecidableEq

structure WorkerLoop where
  state : ShareState
  availableSlots : List Nat
  activeCount : Nat
  tasks : List JobTask
  control : Control
  /-- The slots that a request was sent to and no receipt has confirmed as erased since. -/
  dirty : Nat → Bool

/-- The receipt of `erase_managed_llama_slot`. -/
structure SlotEraseReceipt where
  idSlot : Nat
  nErased : Nat
  deriving DecidableEq

inductive ClaimAnswer where
  | failed | noJob | job
  deriving DecidableEq

inductive Event where
  /-- The loop gives up with an error, or ends; its tasks are dropped. -/
  | stop
  /-- The loop reads policy and hardware and sends a heartbeat. -/
  | observe (policy : NodePolicy) (hardware : HardwareMetrics)
  | heartbeatAnswered (acceptingJobs : Option Bool)
  | claimAnswered (answer : ClaimAnswer)
  | waited
  /-- The loop takes back what an ended task had. -/
  | collect (task : Nat)
  | taskHeartbeat (task : Nat) (policy : NodePolicy) (hardware : HardwareMetrics)
  /-- A task ends without an attempt at local inference. -/
  | declined (task : Nat)
  /-- Local inference fails before its request is sent. -/
  | notSent (task : Nat)
  | sent (task : Nat)
  /-- The engine's response has ended or has failed. -/
  | answered (task : Nat)
  | erased (task : Nat) (receipt : Option SlotEraseReceipt)
  /-- The lease could not be renewed: the inference future is dropped. -/
  | leaseLost (task : Nat)
  | submitted (task : Nat)

namespace WorkerLoop

/-- A worker that has just started. -/
def initial (state : ShareState) : WorkerLoop where
  state
  availableSlots := (List.range managedShareMaxConcurrent).filterMap managedShareSlotId
  activeCount := 0
  tasks := []
  control := .top
  dirty := fun _ => false

def stop (loop : WorkerLoop) : WorkerLoop := { loop with control := .stopped, tasks := [] }

/-- A task in one of the phases goes on. -/
def advance (loop : WorkerLoop) (i : Nat) (phases : List TaskPhase) (next : TaskPhase) :
    Option WorkerLoop := do
  let task ← loop.tasks[i]?
  if task.phase ∈ phases then
    some { loop with tasks := loop.tasks.set i { task with phase := next } }
  else none

def mark (loop : WorkerLoop) (slotId : Nat) (unclean : Bool) : WorkerLoop :=
  { loop with dirty := fun slot => if slot = slotId then unclean else loop.dirty slot }

/-- The pause that the loop itself observes, and whether it would take a job. -/
def observe (loop : WorkerLoop) (policy : NodePolicy) (hardware : HardwareMetrics) : WorkerLoop :=
  let paused := updateTemperaturePause loop.state.pausedForTemperature policy.gpuTempLimitC
    hardware.gpuTemperatureC
  let policyState := evaluatePolicy policy [] loop.activeCount hardware
  { loop with
    state := { loop.state with pausedForTemperature := paused }
    control := .heartbeat (policyState.isOk && !paused) loop.activeCount policy.maxConcurrent }

/-- What follows a heartbeat. -/
def afterHeartbeat (locallyAccepting : Bool) (currentConcurrent maxConcurrent : Nat)
    (acceptingJobs : Option Bool) : Control :=
  if acceptingJobs = some true ∧ locallyAccepting = true then
    if maxConcurrent ≤ currentConcurrent then .full else .claiming maxConcurrent
  else .top

/-- A claimed job gets the slot that has been free for longest. -/
def spawn (loop : WorkerLoop) (maxConcurrent : Nat) : WorkerLoop :=
  match loop.availableSlots with
  | [] => loop.stop
  | slotId :: rest =>
      let nextActive := loop.activeCount + 1
      if maxConcurrent < nextActive ∨ managedShareMaxConcurrent < nextActive then loop.stop
      else { loop with
        availableSlots := rest
        activeCount := nextActive
        tasks := loop.tasks ++ [⟨slotId, loop.state, .checking⟩]
        control := .top }

/-- `apply_job_task_outcome`: the slot goes back, and the task's copy of the share
state replaces the loop's. -/
def applyJobTaskOutcome (loop : WorkerLoop) (outcome : JobTask) : WorkerLoop :=
  if loop.activeCount = 0 ∨ outcome.slotId ∈ loop.availableSlots then loop.stop
  else { loop with
    activeCount := loop.activeCount - 1
    availableSlots := loop.availableSlots ++ [outcome.slotId]
    state := outcome.state
    control := .top }

/-- An ended task is collected wherever the loop looks for one. -/
def collect (loop : WorkerLoop) (i : Nat) : Option WorkerLoop := do
  let task ← loop.tasks[i]?
  if task.phase = .finished ∧ (loop.control = .top ∨ loop.control = .full ∨ loop.control = .idle)
  then some ({ loop with tasks := loop.tasks.eraseIdx i }.applyJobTaskOutcome task)
  else none

/-- A heartbeat of a running task, on its own copy of the share state. -/
def taskHeartbeat (loop : WorkerLoop) (i : Nat) (policy : NodePolicy)
    (hardware : HardwareMetrics) : Option WorkerLoop := do
  let task ← loop.tasks[i]?
  if task.phase = .finished then none
  else
    let paused := updateTemperaturePause task.state.pausedForTemperature policy.gpuTempLimitC
      hardware.gpuTemperatureC
    let state := { task.state with pausedForTemperature := paused }
    some { loop with tasks := loop.tasks.set i { task with state } }

/-- The slot of a task. -/
def slotOf (loop : WorkerLoop) (i : Nat) : Option Nat := loop.tasks[i]?.map JobTask.slotId

/-- The request goes out, and with it the slot becomes dirty. -/
def sent (loop : WorkerLoop) (i : Nat) : Option WorkerLoop := do
  let slotId ← loop.slotOf i
  let next ← loop.advance i [.checking] .inferring
  return next.mark slotId true

/-- A receipt cleans the slot of the task that asked for it, and no other. -/
def erased (loop : WorkerLoop) (i : Nat) (receipt : Option SlotEraseReceipt) :
    Option WorkerLoop := do
  let slotId ← loop.slotOf i
  let next ← loop.advance i [.erasing] .submitting
  return if receipt.map SlotEraseReceipt.idSlot = some slotId then next.mark slotId false else next

/-- The steps of a loop that has not stopped. -/
def goOn (loop : WorkerLoop) (event : Event) : Option WorkerLoop :=
  match event with
  | .stop => some loop.stop
  | .observe policy hardware =>
      if loop.control = .top then some (loop.observe policy hardware) else none
  | .heartbeatAnswered acceptingJobs =>
      match loop.control with
      | .heartbeat accepting current max =>
          some { loop with control := afterHeartbeat accepting current max acceptingJobs }
      | _ => none
  | .claimAnswered answer =>
      match loop.control, answer with
      | .claiming _, .failed => some { loop with control := .top }
      | .claiming _, .noJob => some { loop with control := .idle }
      | .claiming maxConcurrent, .job => some (loop.spawn maxConcurrent)
      | _, _ => none
  | .waited =>
      if loop.control = .idle ∨ loop.control = .full ∧ loop.tasks.isEmpty = true then
        some { loop with control := .top }
      else none
  | .collect task => loop.collect task
  | .taskHeartbeat task policy hardware => loop.taskHeartbeat task policy hardware
  | .declined task => loop.advance task [.checking] .submitting
  | .notSent task => loop.advance task [.checking] .erasing
  | .sent task => loop.sent task
  | .answered task => loop.advance task [.inferring] .erasing
  | .erased task receipt => loop.erased task receipt
  | .leaseLost task => loop.advance task [.checking, .inferring, .erasing] .submitting
  | .submitted task => loop.advance task [.submitting] .finished

def step (event : Event) (loop : WorkerLoop) : Option WorkerLoop :=
  if loop.control = .stopped then none else loop.goOn event

theorem step_running {event : Event} {loop after : WorkerLoop} (h : step event loop = some after) :
    loop.control ≠ .stopped ∧ loop.goOn event = some after :=
  Option.ite_none_left_eq_some.mp h

variable {loop after : WorkerLoop} {i : Nat}

theorem advance_eq_some {phases : List TaskPhase} {next : TaskPhase} :
    loop.advance i phases next = some after ↔ ∃ task, loop.tasks[i]? = some task ∧
      task.phase ∈ phases ∧
      after = { loop with tasks := loop.tasks.set i { task with phase := next } } := by
  unfold advance
  cases htask : loop.tasks[i]? with
  | none => simp
  | some task =>
      by_cases hphase : task.phase ∈ phases
      · simp [hphase, eq_comm]
      · simp [hphase]

theorem taskHeartbeat_eq_some {policy : NodePolicy} {hardware : HardwareMetrics} :
    loop.taskHeartbeat i policy hardware = some after ↔ ∃ task, loop.tasks[i]? = some task ∧
      task.phase ≠ .finished ∧
      after = { loop with tasks := loop.tasks.set i { task with
        state.pausedForTemperature := updateTemperaturePause task.state.pausedForTemperature
          policy.gpuTempLimitC hardware.gpuTemperatureC } } := by
  unfold taskHeartbeat
  cases htask : loop.tasks[i]? with
  | none => simp
  | some task =>
      by_cases hphase : task.phase = .finished
      · simp [hphase]
      · simp [eq_comm]

theorem collect_eq_some :
    loop.collect i = some after ↔ ∃ task, loop.tasks[i]? = some task ∧ task.phase = .finished ∧
      (loop.control = .top ∨ loop.control = .full ∨ loop.control = .idle) ∧
      after = { loop with tasks := loop.tasks.eraseIdx i }.applyJobTaskOutcome task := by
  unfold collect
  cases htask : loop.tasks[i]? with
  | none => simp
  | some task =>
      by_cases hready : task.phase = .finished ∧
          (loop.control = .top ∨ loop.control = .full ∨ loop.control = .idle)
      · simp [hready, eq_comm]
      · simp only [Option.bind_eq_bind, Option.bind_some, if_neg hready, reduceCtorEq, false_iff]
        rintro ⟨_, hsome, hfinished, hcontrol, -⟩
        cases hsome
        exact hready ⟨hfinished, hcontrol⟩

theorem sent_eq_some :
    loop.sent i = some after ↔ ∃ task, loop.tasks[i]? = some task ∧ task.phase = .checking ∧
      after = { loop with tasks := loop.tasks.set i { task with phase := .inferring } }.mark
        task.slotId true := by
  simp only [sent, slotOf, Option.bind_eq_bind, Option.bind_eq_some_iff, Option.map_eq_some_iff,
    advance_eq_some, List.mem_singleton, Option.pure_def, Option.some.injEq]
  constructor
  · rintro ⟨_, ⟨task, htask, rfl⟩, _, ⟨_, hagain, hphase, rfl⟩, rfl⟩
    cases htask.symm.trans hagain
    exact ⟨task, htask, hphase, rfl⟩
  · rintro ⟨task, htask, hphase, rfl⟩
    exact ⟨task.slotId, ⟨task, htask, rfl⟩, _, ⟨task, htask, hphase, rfl⟩, rfl⟩

theorem erased_eq_some {receipt : Option SlotEraseReceipt} :
    loop.erased i receipt = some after ↔ ∃ task, loop.tasks[i]? = some task ∧
      task.phase = .erasing ∧
      after = if receipt.map SlotEraseReceipt.idSlot = some task.slotId then
          { loop with tasks := loop.tasks.set i { task with phase := .submitting } }.mark
            task.slotId false
        else { loop with tasks := loop.tasks.set i { task with phase := .submitting } } := by
  simp only [erased, slotOf, Option.bind_eq_bind, Option.bind_eq_some_iff, Option.map_eq_some_iff,
    advance_eq_some, List.mem_singleton, Option.pure_def, Option.some.injEq]
  constructor
  · rintro ⟨_, ⟨task, htask, rfl⟩, _, ⟨_, hagain, hphase, rfl⟩, rfl⟩
    cases htask.symm.trans hagain
    exact ⟨task, htask, hphase, rfl⟩
  · rintro ⟨task, htask, hphase, rfl⟩
    exact ⟨task.slotId, ⟨task, htask, rfl⟩, _, ⟨task, htask, hphase, rfl⟩, rfl⟩

/-- A claimed job leaves the loop at its head or stopped, with its own state. -/
theorem spawn_control (loop : WorkerLoop) (maxConcurrent : Nat) :
    (loop.spawn maxConcurrent).state = loop.state ∧
      ((loop.spawn maxConcurrent).control = .top ∨
        (loop.spawn maxConcurrent).control = .stopped) := by
  unfold spawn
  cases loop.availableSlots with
  | nil => exact ⟨rfl, .inr rfl⟩
  | cons slotId rest =>
      simp only
      split
      · exact ⟨rfl, .inr rfl⟩
      · exact ⟨rfl, .inl rfl⟩

end WorkerLoop

end MindOne.Worker
