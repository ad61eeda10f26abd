import Mathlib.Data.List.Sort
import MindOne.Values
import MindOne.Worker.Slots

/-!
# The slot pool of a sharing worker

The loop keeps the free slots in a queue, the running jobs in a task set and
their number in a counter, and it updates the three in different places. Between
two waits they agree: each managed slot is free or owned by one task, and the
counter is the number of tasks. The policy that a claim was made under is the
one the loop read in the same iteration, so a claimed job always finds a slot.
-/

namespace MindOne.Worker

open LabelledRuns

/-- What the policy path holds. -/
inductive PolicyFile where
  | missing
  /-- A symbolic link, or anything else that is no regular file. -/
  | notRegular
  | uninspectable (error : String)
  | unreadable (error : String)
  | stored (policy : NodePolicy)

/-- `CliError::PolicyRejected`. -/
inductive PolicyLoadError where
  | policyRejected (message : String)
  deriving DecidableEq

def trim (text : String) : List Char :=
  ((text.toList.dropWhile isWhitespace).reverse.dropWhile isWhitespace).reverse

def isTagChar (c : Char) : Bool :=
  ('a' ≤ c && c ≤ 'z') || ('A' ≤ c && c ≤ 'Z') || ('0' ≤ c && c ≤ '9') || c = '-' || c = '_'

/-- The tags in lower case, without repetitions and in order; nothing for a tag that is
empty or has another character. -/
def normalizeTags (tags : List String) : Option (List String) := do
  let normalized ← tags.foldlM (fun normalized tag =>
    let tag := String.ofList ((trim tag).map Char.toLower)
    if tag.isEmpty ∨ tag.toList.all isTagChar = false then none
    else some (if tag ∈ normalized then normalized else normalized ++ [tag])) []
  return normalized.insertionSort fun a b => ¬ b < a

def NodePolicy.default : NodePolicy := ⟨[], managedShareMaxConcurrent, none, 0⟩

/-- The checks of a policy that has been read. -/
def checkPolicy (policy : NodePolicy) : Except PolicyLoadError NodePolicy :=
  if policy.maxConcurrent < 1 ∨ managedShareMaxConcurrent < policy.maxConcurrent then
    .error (.policyRejected ("本地策略声明 max_concurrent=" ++ toString policy.maxConcurrent ++
      "，但受管贡献 slot 只允许 1..=" ++ toString managedShareMaxConcurrent ++
      "；请运行 mindone node policy set --max-concurrent <范围内数值>"))
  else
    match normalizeTags policy.rejectTags with
    | none => .error (.policyRejected "节点策略包含无效或未规范化的拒绝标签")
    | some normalizedTags =>
        if normalizedTags ≠ policy.rejectTags then
          .error (.policyRejected "节点策略拒绝标签必须小写、去重并按稳定顺序保存")
        else if (∃ limit ∈ policy.gpuTempLimitC, limit < 30 ∨ 110 < limit) ∨
            policy.vramReserveGb < 0 then
          .error (.policyRejected "节点策略硬件阈值超出允许范围")
        else .ok policy

def loadPolicyPath (file : PolicyFile) (allowMissingDefault : Bool) :
    Except PolicyLoadError NodePolicy :=
  match file with
  | .stored policy => checkPolicy policy
  | .unreadable error => .error (.policyRejected
      ("节点策略文件无法安全读取或格式损坏，活动 worker 已失败关闭：" ++ error))
  | .notRegular => .error (.policyRejected
      "节点策略路径不是普通文件或是符号链接，活动 worker 已失败关闭")
  | .missing =>
      if allowMissingDefault then checkPolicy .default
      else .error (.policyRejected
        "节点策略文件缺失，活动 worker 已失败关闭；请停止共享后重新发布或显式设置策略")
  | .uninspectable error => .error (.policyRejected
      ("无法检查节点策略文件，活动 worker 已失败关闭：" ++ error))

/-- `load_persisted_policy`. -/
def loadPersistedPolicy (file : PolicyFile) : Except PolicyLoadError NodePolicy :=
  loadPolicyPath file false

theorem checkPolicy_eq_ok {policy loaded : NodePolicy} (h : checkPolicy policy = .ok loaded) :
    loaded = policy ∧ 1 ≤ policy.maxConcurrent ∧
      policy.maxConcurrent ≤ managedShareMaxConcurrent := by
  simp only [checkPolicy] at h
  split at h
  · cases h
  · rename_i hrange
    split at h
    · cases h
    · split at h
      · cases h
      · split at h
        · cases h
        · cases h
          exact ⟨rfl, by omega, by omega⟩

/-- A policy that an active worker has loaded keeps to the managed slots. -/
theorem loadPersistedPolicy_range {file : PolicyFile} {policy : NodePolicy}
    (h : loadPersistedPolicy file = .ok policy) :
    1 ≤ policy.maxConcurrent ∧ policy.maxConcurrent ≤ managedShareMaxConcurrent := by
  cases file with
  | stored stored =>
    obtain ⟨rfl, hrange⟩ := checkPolicy_eq_ok h
    exact hrange
  | missing => cases h
  | notRegular => cases h
  | uninspectable error => cases h
  | unreadable error => cases h

/-- An error that ends the loop because slots, counter and tasks disagree. -/
inductive SlotError where
  | noLocalSlot
  | concurrencyAboveLimit (nextActive : Nat)
  | countUnderflow
  | returnedTwice (slotId : Nat)
  deriving DecidableEq

/-- The policy of an iteration is what the loop loaded at its beginning. -/
def Event.PolicyLoaded : Event → Prop
  | .observe policy _ => (loadPersistedPolicy (.stored policy)).isOk = true
  | _ => True

instance (event : Event) : Decidable event.PolicyLoaded :=
  match event with
  | .observe _ _ => inferInstanceAs (Decidable (_ = true))
  | .stop | .heartbeatAnswered _ | .claimAnswered _ | .waited | .collect _
  | .taskHeartbeat _ _ _ | .declined _ | .notSent _ | .sent _ | .answered _ | .erased _ _
  | .leaseLost _ | .submitted _ => inferInstanceAs (Decidable True)

/-- The policy that the loop read last. -/
def lastObserved : List Event → Option NodePolicy
  | [] => none
  | .observe policy _ :: _ => some policy
  | _ :: past => lastObserved past

def managedSlots : List Nat :=
  (List.range managedShareMaxConcurrent).filterMap managedShareSlotId

namespace WorkerLoop

/-- The errors of a claim that has brought a job. -/
def spawnError (loop : WorkerLoop) (maxConcurrent : Nat) : Option SlotError :=
  if loop.availableSlots = [] then some .noLocalSlot
  else if maxConcurrent < loop.activeCount + 1 ∨
      managedShareMaxConcurrent < loop.activeCount + 1 then
    some (.concurrencyAboveLimit (loop.activeCount + 1))
  else none

/-- The errors of `apply_job_task_outcome`. -/
def applyError (loop : WorkerLoop) (outcome : JobTask) : Option SlotError :=
  if loop.activeCount = 0 then some .countUnderflow
  else if outcome.slotId ∈ loop.availableSlots then some (.returnedTwice outcome.slotId)
  else none

variable {loop after : WorkerLoop} {i : Nat} {task : JobTask}

theorem spawn_of_spawnError {maxConcurrent : Nat} {error : SlotError}
    (h : loop.spawnError maxConcurrent = some error) : loop.spawn maxConcurrent = loop.stop := by
  unfold spawn
  cases hslots : loop.availableSlots with
  | nil => rfl
  | cons slotId rest =>
    simp only [spawnError, hslots, reduceCtorEq, if_false] at h
    split at h
    · rename_i hlimit
      exact if_pos hlimit
    · cases h

/-- Without an error the job gets the slot at the head of the queue. -/
theorem spawn_of_none {maxConcurrent : Nat} (h : loop.spawnError maxConcurrent = none) :
    ∃ slotId rest, loop.availableSlots = slotId :: rest ∧
      loop.spawn maxConcurrent = { loop with
        availableSlots := rest
        activeCount := loop.activeCount + 1
        tasks := loop.tasks ++ [⟨slotId, loop.state, .checking⟩]
        control := .top } := by
  cases hslots : loop.availableSlots with
  | nil => simp [spawnError, hslots] at h
  | cons slotId rest =>
    refine ⟨slotId, rest, rfl, ?_⟩
    simp only [spawnError, hslots, reduceCtorEq, if_false] at h
    split at h
    · cases h
    · rename_i hlimit
      simp only [spawn, hslots, if_neg hlimit]

theorem applyJobTaskOutcome_of_none {outcome : JobTask} (h : loop.applyError outcome = none) :
    loop.applyJobTaskOutcome outcome = { loop with
      activeCount := loop.activeCount - 1
      availableSlots := loop.availableSlots ++ [outcome.slotId]
      state := outcome.state
      control := .top } := by
  simp only [applyError] at h
  split at h
  · cases h
  · split at h
    · cases h
    · rename_i hcount hslot
      simp only [applyJobTaskOutcome, hcount, hslot, or_self, if_false]

theorem applyJobTaskOutcome_of_applyError {outcome : JobTask} {error : SlotError}
    (h : loop.applyError outcome = some error) :
    loop.applyJobTaskOutcome outcome = loop.stop := by
  simp only [applyError] at h
  simp only [applyJobTaskOutcome]
  split at h
  · rename_i hcount
    exact if_pos (.inl hcount)
  · split at h
    · rename_i hslot
      exact if_pos (.inr hslot)
    · cases h

/-- Slots, counter and tasks agree, and a claim is made under the policy read last. -/
structure SlotPool (past : List Event) (loop : WorkerLoop) : Prop where
  slots : loop.slots.Perm managedSlots
  count : loop.activeCount = loop.tasks.length
  observed : ∀ policy, lastObserved past = some policy →
    policy.maxConcurrent ≤ managedShareMaxConcurrent
  heartbeat : ∀ accepting current maxConcurrent,
    loop.control = .heartbeat accepting current maxConcurrent →
      current = loop.activeCount ∧
        (lastObserved past).map NodePolicy.maxConcurrent = some maxConcurrent
  claiming : ∀ maxConcurrent, loop.control = .claiming maxConcurrent →
    loop.activeCount < maxConcurrent ∧
      (lastObserved past).map NodePolicy.maxConcurrent = some maxConcurrent

/-- The pool of a loop that has not ended. -/
def Agrees (past : List Event) (loop : WorkerLoop) : Prop :=
  loop.control = .stopped ∨ SlotPool past loop

variable {past : List Event} {event : Event}

theorem length_slots (h : SlotPool past loop) :
    loop.availableSlots.length + loop.tasks.length = managedShareMaxConcurrent := by
  have hlength := h.slots.length_eq
  rw [slots, List.length_append, List.length_map] at hlength
  exact hlength.trans (by decide)

/-- A claim leaves no room for an error of the pool. -/
theorem SlotPool.spawnError (h : SlotPool past loop) {maxConcurrent : Nat}
    (hcontrol : loop.control = .claiming maxConcurrent) :
    loop.spawnError maxConcurrent = none := by
  obtain ⟨hlimit, hmax⟩ := h.claiming maxConcurrent hcontrol
  obtain ⟨policy, hpolicy, rfl⟩ := Option.map_eq_some_iff.mp hmax
  have hrange := h.observed policy hpolicy
  have hlength := length_slots h
  rw [← h.count] at hlength
  have hfree : loop.availableSlots ≠ [] := by
    intro hnil
    rw [hnil, List.length_nil] at hlength
    omega
  rw [WorkerLoop.spawnError, if_neg hfree, if_neg (by omega)]

/-- Nor does a task that ends. -/
theorem SlotPool.applyError (h : SlotPool past loop) (htask : loop.tasks[i]? = some task) :
    { loop with tasks := loop.tasks.eraseIdx i }.applyError task = none := by
  have hmem : task ∈ loop.tasks := List.mem_of_getElem? htask
  have hcount : loop.activeCount ≠ 0 := by
    rw [h.count]
    exact (List.length_pos_of_mem hmem).ne'
  have hnodup : loop.slots.Nodup := h.slots.nodup_iff.mpr (by decide)
  have hfree : task.slotId ∉ loop.availableSlots := fun hslot =>
    (List.nodup_append.mp hnodup).2.2 task.slotId hslot task.slotId
      (List.mem_map_of_mem hmem) rfl
  simp [WorkerLoop.applyError, hcount, hfree]

/-- A task that goes on keeps its slot. -/
theorem SlotPool.replace (h : SlotPool past loop) (htask : loop.tasks[i]? = some task)
    {next : JobTask} {dirty : Nat → Bool} (hslot : next.slotId = task.slotId) :
    SlotPool past { loop with tasks := loop.tasks.set i next, dirty } := by
  obtain ⟨before, others, htasks, hset, -⟩ := processes_at htask
  have hslots : (loop.tasks.set i next).map JobTask.slotId = loop.tasks.map JobTask.slotId := by
    rw [hset, htasks, List.map_append, List.map_append, List.map_cons, List.map_cons, hslot]
  refine ⟨?_, ?_, h.observed, h.heartbeat, h.claiming⟩
  · show (loop.availableSlots ++ (loop.tasks.set i next).map JobTask.slotId).Perm _
    rw [hslots]
    exact h.slots
  · show loop.activeCount = (loop.tasks.set i next).length
    rw [List.length_set]
    exact h.count

theorem SlotPool.advance (h : SlotPool past loop) {phases : List TaskPhase} {next : TaskPhase}
    (hadvance : loop.advance i phases next = some after) : SlotPool past after := by
  obtain ⟨task, htask, -, rfl⟩ := advance_eq_some.mp hadvance
  exact h.replace htask rfl

/-- The loop moves on without touching slots, counter or tasks. -/
theorem SlotPool.moveTo (h : SlotPool past loop) {control : Control}
    (hheartbeat : ∀ accepting current maxConcurrent,
      control ≠ .heartbeat accepting current maxConcurrent)
    (hclaiming : ∀ maxConcurrent, control = .claiming maxConcurrent →
      loop.activeCount < maxConcurrent ∧
        (lastObserved past).map NodePolicy.maxConcurrent = some maxConcurrent) :
    SlotPool past { loop with control } :=
  ⟨h.slots, h.count, h.observed, fun accepting current maxConcurrent heq =>
    absurd heq (hheartbeat accepting current maxConcurrent), hclaiming⟩

theorem SlotPool.spawn (h : SlotPool past loop) {maxConcurrent : Nat}
    (hcontrol : loop.control = .claiming maxConcurrent) :
    SlotPool past (loop.spawn maxConcurrent) := by
  obtain ⟨slotId, rest, hslots, hspawn⟩ := spawn_of_none (h.spawnError hcontrol)
  rw [hspawn]
  refine ⟨?_, ?_, h.observed, (fun _ _ _ heq => nomatch heq), fun _ heq => nomatch heq⟩
  · have hold := h.slots
    rw [WorkerLoop.slots, hslots, List.cons_append] at hold
    show (rest ++ (loop.tasks ++ [(⟨slotId, loop.state, .checking⟩ : JobTask)]).map
      JobTask.slotId).Perm _
    rw [List.map_append, ← List.append_assoc]
    exact (List.perm_append_singleton slotId _).trans hold
  · show loop.activeCount + 1 = (loop.tasks ++ [_]).length
    rw [List.length_append, h.count]
    rfl

theorem SlotPool.collect (h : SlotPool past loop) (hcollect : loop.collect i = some after) :
    SlotPool past after := by
  obtain ⟨task, htask, -, -, rfl⟩ := collect_eq_some.mp hcollect
  obtain ⟨before, others, htasks, -, herase⟩ := processes_at htask
  rw [applyJobTaskOutcome_of_none (h.applyError htask)]
  refine ⟨?_, ?_, h.observed, (fun _ _ _ heq => nomatch heq), fun _ heq => nomatch heq⟩
  · refine List.Perm.trans ?_ h.slots
    show (loop.availableSlots ++ [task.slotId] ++
      (loop.tasks.eraseIdx i).map JobTask.slotId).Perm loop.slots
    rw [WorkerLoop.slots, herase, htasks, List.append_assoc]
    refine List.Perm.append_left _ ?_
    rw [List.map_append, List.map_append, List.map_cons, List.singleton_append]
    exact List.perm_middle.symm
  · have hcount := h.count
    rw [htasks, List.length_append, List.length_cons] at hcount
    show loop.activeCount - 1 = (loop.tasks.eraseIdx i).length
    rw [herase, List.length_append]
    omega

/-- A new policy is in force from the heartbeat on. -/
theorem SlotPool.observe (h : SlotPool past loop) {policy : NodePolicy}
    {hardware : HardwareMetrics} (hrange : policy.maxConcurrent ≤ managedShareMaxConcurrent) :
    SlotPool (.observe policy hardware :: past) (loop.observe policy hardware) := by
  refine ⟨h.slots, h.count, ?_, ?_, fun _ heq => nomatch heq⟩
  · intro other heq
    cases heq
    exact hrange
  · intro accepting current maxConcurrent heq
    cases heq
    exact ⟨rfl, rfl⟩

/-- Every other event leaves the policy of the iteration alone. -/
theorem SlotPool.cons (h : SlotPool past loop) (hsame : lastObserved (event :: past) =
    lastObserved past) : SlotPool (event :: past) loop :=
  ⟨h.slots, h.count, hsame ▸ h.observed, hsame ▸ h.heartbeat, hsame ▸ h.claiming⟩

theorem Agrees.step (h : Agrees past loop) (hloaded : event.PolicyLoaded)
    (made : WorkerLoop.step event loop = some after) : Agrees (event :: past) after := by
  obtain ⟨hrunning, hstep⟩ := step_running made
  have pool : SlotPool past loop := h.resolve_left hrunning
  cases event with
  | stop =>
    cases hstep
    exact .inl rfl
  | observe policy hardware =>
    simp only [goOn, Option.ite_none_right_eq_some, Option.some.injEq] at hstep
    obtain ⟨-, rfl⟩ := hstep
    obtain ⟨loaded, hload⟩ : ∃ loaded, checkPolicy policy = .ok loaded := by
      cases hcheck : checkPolicy policy with
      | ok loaded => exact ⟨loaded, rfl⟩
      | error e =>
        rw [Event.PolicyLoaded, loadPersistedPolicy, loadPolicyPath, hcheck] at hloaded
        cases hloaded
    exact .inr (pool.observe (checkPolicy_eq_ok hload).2.2)
  | heartbeatAnswered acceptingJobs =>
    simp only [goOn] at hstep
    split at hstep
    · rename_i accepting current maxConcurrent hcontrol
      cases hstep
      obtain ⟨rfl, hmax⟩ := pool.heartbeat _ _ _ hcontrol
      refine .inr ((pool.moveTo ?_ ?_).cons rfl)
      · intro accepting' current' maxConcurrent'
        simp only [afterHeartbeat]
        split
        · split <;> simp
        · simp
      · intro maxConcurrent' heq
        simp only [afterHeartbeat] at heq
        split at heq
        · split at heq
          · cases heq
          · cases heq
            exact ⟨by omega, hmax⟩
        · cases heq
    · cases hstep
  | claimAnswered answer =>
    simp only [goOn] at hstep
    split at hstep
    · cases hstep
      exact .inr ((pool.moveTo (by simp) (by simp)).cons rfl)
    · cases hstep
      exact .inr ((pool.moveTo (by simp) (by simp)).cons rfl)
    · rename_i hcontrol
      cases hstep
      exact .inr ((pool.spawn hcontrol).cons rfl)
    · cases hstep
  | waited =>
    simp only [goOn, Option.ite_none_right_eq_some, Option.some.injEq] at hstep
    obtain ⟨-, rfl⟩ := hstep
    exact .inr ((pool.moveTo (by simp) (by simp)).cons rfl)
  | collect i => exact .inr ((pool.collect hstep).cons rfl)
  | taskHeartbeat i policy hardware =>
    obtain ⟨task, htask, -, rfl⟩ := taskHeartbeat_eq_some.mp hstep
    refine .inr (SlotPool.cons ?_ rfl)
    exact pool.replace htask rfl
  | declined i => exact .inr ((pool.advance hstep).cons rfl)
  | notSent i => exact .inr ((pool.advance hstep).cons rfl)
  | sent i =>
    obtain ⟨task, htask, -, rfl⟩ := sent_eq_some.mp hstep
    refine .inr (SlotPool.cons ?_ rfl)
    exact pool.replace htask (rfl : { task with phase := .inferring }.slotId = task.slotId)
  | answered i => exact .inr ((pool.advance hstep).cons rfl)
  | erased i receipt =>
    obtain ⟨task, htask, -, rfl⟩ := erased_eq_some.mp hstep
    refine .inr (SlotPool.cons ?_ rfl)
    split
    · exact pool.replace htask (rfl : { task with phase := .submitting }.slotId = task.slotId)
    · exact pool.replace htask (rfl : { task with phase := .submitting }.slotId = task.slotId)
  | leaseLost i => exact .inr ((pool.advance hstep).cons rfl)
  | submitted i => exact .inr ((pool.advance hstep).cons rfl)

theorem slotPool_initial (state : ShareState) : SlotPool [] (initial state) where
  slots := List.Perm.refl _
  count := rfl
  observed := fun _ heq => nomatch heq
  heartbeat := fun _ _ _ heq => nomatch heq
  claiming := fun _ heq => nomatch heq

/-- Only a claim adds a task. -/
theorem claiming_of_tasks_grow (made : WorkerLoop.step event loop = some after)
    (hgrow : loop.tasks.length < after.tasks.length) :
    ∃ maxConcurrent, loop.control = .claiming maxConcurrent := by
  obtain ⟨-, hstep⟩ := step_running made
  have hset : ∀ (i : Nat) (task : JobTask), ¬ loop.tasks.length <
      (loop.tasks.set i task).length := fun i task h => by simp at h
  have hadvance : ∀ {i : Nat} {phases : List TaskPhase} {next : TaskPhase},
      loop.advance i phases next ≠ some after := by
    intro i phases next heq
    obtain ⟨task, -, -, rfl⟩ := advance_eq_some.mp heq
    exact hset i _ hgrow
  cases event with
  | stop =>
    cases hstep
    exact absurd hgrow (Nat.not_lt_zero _)
  | observe policy hardware =>
    simp only [goOn, Option.ite_none_right_eq_some, Option.some.injEq] at hstep
    obtain ⟨-, rfl⟩ := hstep
    exact absurd hgrow (Nat.lt_irrefl _)
  | heartbeatAnswered acceptingJobs =>
    simp only [goOn] at hstep
    split at hstep
    · cases hstep
      exact absurd hgrow (Nat.lt_irrefl _)
    · cases hstep
  | claimAnswered answer =>
    cases hcontrol : loop.control with
    | claiming maxConcurrent => exact ⟨maxConcurrent, rfl⟩
    | top | heartbeat _ _ _ | full | idle | stopped => simp [goOn, hcontrol] at hstep
  | waited =>
    simp only [goOn, Option.ite_none_right_eq_some, Option.some.injEq] at hstep
    obtain ⟨-, rfl⟩ := hstep
    exact absurd hgrow (Nat.lt_irrefl _)
  | collect i =>
    obtain ⟨task, -, -, -, rfl⟩ := collect_eq_some.mp hstep
    have hle : (loop.tasks.eraseIdx i).length ≤ loop.tasks.length :=
      (List.eraseIdx_sublist loop.tasks i).length_le
    simp only [applyJobTaskOutcome] at hgrow
    split at hgrow
    · exact absurd hgrow (Nat.not_lt_zero _)
    · exact absurd hgrow (Nat.not_lt.mpr hle)
  | taskHeartbeat i policy hardware =>
    obtain ⟨task, -, -, rfl⟩ := taskHeartbeat_eq_some.mp hstep
    exact absurd hgrow (hset i _)
  | sent i =>
    obtain ⟨task, -, -, rfl⟩ := sent_eq_some.mp hstep
    exact absurd hgrow (hset i _)
  | erased i receipt =>
    obtain ⟨task, -, -, rfl⟩ := erased_eq_some.mp hstep
    split at hgrow
    · exact absurd hgrow (hset i _)
    · exact absurd hgrow (hset i _)
  | declined i | notSent i | answered i | leaseLost i | submitted i => exact absurd hstep hadvance

end WorkerLoop

/-- Whatever order claims, policies and ends of tasks come in, every managed slot is free
or owned by one task, the counter is the number of tasks, a task is added only below the
limit that the loop read last, and no error of the pool can occur: a claimed job gets a
slot, and an ended task gives one back. -/
theorem slot_pool_agrees {start : ShareState} {past : List Event} {loop : WorkerLoop}
    (run : Run WorkerLoop.step (fun _ _ event => event.PolicyLoaded)
      (WorkerLoop.initial start) past loop) (running : loop.control ≠ .stopped) :
    loop.slots.Perm managedSlots ∧ loop.activeCount = loop.tasks.length ∧
      (∀ event next, WorkerLoop.step event loop = some next →
        loop.tasks.length < next.tasks.length →
        ∃ policy, lastObserved past = some policy ∧
          loop.activeCount < policy.maxConcurrent) ∧
      (∀ maxConcurrent, loop.control = .claiming maxConcurrent →
        loop.spawnError maxConcurrent = none ∧
        ∃ slotId rest next, loop.availableSlots = slotId :: rest ∧
          WorkerLoop.step (.claimAnswered .job) loop = some next ∧
          next.availableSlots = rest ∧
          next.tasks = loop.tasks ++ [⟨slotId, loop.state, .checking⟩]) ∧
      ∀ i task, loop.tasks[i]? = some task →
        { loop with tasks := loop.tasks.eraseIdx i }.applyError task = none := by
  have agrees : WorkerLoop.Agrees past loop :=
    run.invariant (.inr (WorkerLoop.slotPool_initial start))
      fun hagrees hloaded made => hagrees.step hloaded made
  have pool := agrees.resolve_left running
  refine ⟨pool.slots, pool.count, ?_, ?_, fun i task htask => pool.applyError htask⟩
  · intro event next made hgrow
    obtain ⟨maxConcurrent, hcontrol⟩ := WorkerLoop.claiming_of_tasks_grow made hgrow
    obtain ⟨hlimit, hmax⟩ := pool.claiming maxConcurrent hcontrol
    obtain ⟨policy, hpolicy, rfl⟩ := Option.map_eq_some_iff.mp hmax
    exact ⟨policy, hpolicy, hlimit⟩
  · intro maxConcurrent hcontrol
    have hnone := pool.spawnError hcontrol
    obtain ⟨slotId, rest, hslots, hspawn⟩ := WorkerLoop.spawn_of_none hnone
    refine ⟨hnone, slotId, rest, loop.spawn maxConcurrent, hslots, ?_, ?_, ?_⟩
    · simp [WorkerLoop.step, hcontrol, WorkerLoop.goOn]
    · rw [hspawn]
    · rw [hspawn]

/-- Two of three slots are owned by tasks when the loop asks for another job. -/
theorem slot_pool_agrees_sample :
    ∃ past loop, Run WorkerLoop.step (fun _ _ event => event.PolicyLoaded)
        (WorkerLoop.initial ⟨false⟩) past loop ∧ loop.control = .claiming 3 ∧
      loop.availableSlots = [1] ∧ loop.slots.Perm managedSlots ∧ loop.activeCount = 2 := by
  cases h : execute WorkerLoop.step (fun _ _ event => event.PolicyLoaded) []
      (sampleErased ++ [.observe samplePolicy (sampleHardware 60),
        .heartbeatAnswered (some true)]) (WorkerLoop.initial ⟨false⟩) with
  | none => exact absurd (congrArg Option.isSome h) (by decide +kernel)
  | some loop =>
    have run := Run.start.execute h
    have hseen := congrArg (Option.map fun loop : WorkerLoop =>
      (loop.control, loop.availableSlots, loop.activeCount)) h
    have hstate := hseen.symm.trans
      (by decide +kernel : _ = some (Control.claiming 3, [1], 2))
    obtain ⟨hcontrol, hrest⟩ := Prod.mk.inj (Option.some.inj hstate)
    obtain ⟨hslots, hcount⟩ := Prod.mk.inj hrest
    have running : loop.control ≠ .stopped := by
      rw [hcontrol]
      decide
    exact ⟨_, loop, run, hcontrol, hslots, (slot_pool_agrees run running).1, hcount⟩

end MindOne.Worker
