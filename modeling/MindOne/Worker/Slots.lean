import MindOne.Worker.Loop

/-!
# The KV cache of a slot between two jobs

Every slot is in the pool or in the hands of one task, never both. A slot is
clean in the pool and in every task that has not sent its request, as long as no
erase fails and no lease is lost while the slot holds a request: a lost lease
drops the future that would have erased the slot, and a failed erase is only
reported as a failure of the job.
-/

namespace MindOne.Worker

open LabelledRuns

/-- The task will not touch its slot again before it ends, or has not touched it yet. -/
def TaskPhase.Quiet (phase : TaskPhase) : Prop :=
  phase = .checking ∨ phase = .submitting ∨ phase = .finished

namespace WorkerLoop

/-- The slots in the pool and in the hands of tasks. -/
def slots (loop : WorkerLoop) : List Nat := loop.availableSlots ++ loop.tasks.map JobTask.slotId

structure SlotsClean (loop : WorkerLoop) : Prop where
  nodup : loop.slots.Nodup
  available : ∀ slotId ∈ loop.availableSlots, loop.dirty slotId = false
  tasks : ∀ task ∈ loop.tasks, task.phase.Quiet → loop.dirty task.slotId = false

/-- The task holds a slot that is not clean. -/
def HoldsDirty (loop : WorkerLoop) (i : Nat) : Prop :=
  (loop.tasks[i]?.any fun task => loop.dirty task.slotId) = true

instance (loop : WorkerLoop) (i : Nat) : Decidable (loop.HoldsDirty i) :=
  inferInstanceAs (Decidable (_ = _))

/-- The event makes a task give up a slot that still holds a request: its lease is
lost, or no receipt confirms the erase of this slot. -/
def LeavesDirty (loop : WorkerLoop) : Event → Prop
  | .leaseLost i => loop.HoldsDirty i
  | .erased i receipt =>
      loop.HoldsDirty i ∧ receipt.map SlotEraseReceipt.idSlot ≠ loop.slotOf i
  | _ => False

instance (loop : WorkerLoop) (event : Event) : Decidable (loop.LeavesDirty event) :=
  match event with
  | .leaseLost i => inferInstanceAs (Decidable (loop.HoldsDirty i))
  | .erased _ _ => inferInstanceAs (Decidable (_ ∧ _))
  | .stop | .observe _ _ | .heartbeatAnswered _ | .claimAnswered _ | .waited | .collect _
  | .taskHeartbeat _ _ _ | .declined _ | .notSent _ | .sent _ | .answered _ | .submitted _ =>
      inferInstanceAs (Decidable False)

variable {loop after : WorkerLoop} {i : Nat} {task : JobTask}

theorem holdsDirty_iff :
    loop.HoldsDirty i ↔ ∃ task, loop.tasks[i]? = some task ∧ loop.dirty task.slotId = true := by
  simp [HoldsDirty, Option.any_eq_true]

theorem SlotsClean.stop (h : loop.SlotsClean) : loop.stop.SlotsClean where
  nodup := by simpa [slots, WorkerLoop.stop] using (List.nodup_append.mp h.nodup).1
  available := h.available
  tasks := fun _ hmem => nomatch hmem

/-- A task goes on, and no slot but its own is touched. -/
theorem SlotsClean.replace (h : loop.SlotsClean) (htask : loop.tasks[i]? = some task)
    {next : JobTask} {dirty : Nat → Bool} (hslot : next.slotId = task.slotId)
    (hother : ∀ slotId, slotId ≠ task.slotId → dirty slotId = loop.dirty slotId)
    (hown : next.phase.Quiet → dirty task.slotId = false) :
    SlotsClean { loop with tasks := loop.tasks.set i next, dirty } := by
  obtain ⟨before, others, htasks, hset, -⟩ := processes_at htask
  have hslots : (loop.tasks.set i next).map JobTask.slotId = loop.tasks.map JobTask.slotId := by
    rw [hset, htasks, List.map_append, List.map_append, List.map_cons, List.map_cons, hslot]
  have hnodup := h.nodup
  rw [slots, htasks, List.map_append, List.map_cons, List.nodup_append] at hnodup
  obtain ⟨-, htail, hapart⟩ := hnodup
  have hfar : ∀ other ∈ before ++ others, other.slotId ≠ task.slotId := by
    intro other hmem heq
    have hmiddle := List.nodup_middle.mp htail
    rw [← List.map_append, List.nodup_cons, List.mem_map] at hmiddle
    exact hmiddle.1 ⟨other, hmem, heq⟩
  refine ⟨?_, ?_, ?_⟩
  · show (loop.availableSlots ++ (loop.tasks.set i next).map JobTask.slotId).Nodup
    rw [hslots]
    exact h.nodup
  · intro slotId hmem
    have hne : slotId ≠ task.slotId := hapart slotId hmem task.slotId (by simp)
    exact (hother slotId hne).trans (h.available slotId hmem)
  · intro other hmem hquiet
    rw [show (loop.tasks.set i next) = _ from hset next, List.mem_append, List.mem_cons] at hmem
    rcases hmem with hbefore | rfl | hafter
    · have hmem : other ∈ before ++ others := List.mem_append_left _ hbefore
      exact (hother _ (hfar other hmem)).trans
        (h.tasks other (htasks ▸ List.mem_append_left _ hbefore) hquiet)
    · show dirty other.slotId = false
      rw [hslot]
      exact hown hquiet
    · have hmem : other ∈ before ++ others := List.mem_append_right _ hafter
      exact (hother _ (hfar other hmem)).trans
        (h.tasks other (htasks ▸ List.mem_append_right _ (List.mem_cons_of_mem _ hafter)) hquiet)

/-- The same where no slot is touched. -/
theorem SlotsClean.advance (h : loop.SlotsClean) {phases : List TaskPhase} {next : TaskPhase}
    (hadvance : loop.advance i phases next = some after)
    (hquiet : ∀ task, loop.tasks[i]? = some task → task.phase ∈ phases → next.Quiet →
      loop.dirty task.slotId = false) : after.SlotsClean := by
  obtain ⟨task, htask, hphase, rfl⟩ := advance_eq_some.mp hadvance
  exact h.replace htask rfl (fun _ _ => rfl) (hquiet task htask hphase)

theorem SlotsClean.spawn (h : loop.SlotsClean) (maxConcurrent : Nat) :
    (loop.spawn maxConcurrent).SlotsClean := by
  unfold WorkerLoop.spawn
  cases hslots : loop.availableSlots with
  | nil => exact h.stop
  | cons slotId rest =>
      simp only
      split
      · exact h.stop
      · have hnodup := h.nodup
        rw [slots, hslots, List.cons_append] at hnodup
        refine ⟨?_, ?_, ?_⟩
        · show (rest ++ (loop.tasks ++ [(⟨slotId, loop.state, .checking⟩ : JobTask)]).map
            JobTask.slotId).Nodup
          rw [List.map_append, ← List.append_assoc]
          exact (List.perm_append_singleton slotId _).nodup_iff.mpr hnodup
        · intro other hmem
          exact h.available other (hslots ▸ List.mem_cons_of_mem _ hmem)
        · intro other hmem hquiet
          rcases List.mem_append.mp hmem with hold | hnew
          · exact h.tasks other hold hquiet
          · cases List.mem_singleton.mp hnew
            exact h.available slotId (hslots ▸ List.mem_cons_self)

theorem SlotsClean.collect (h : loop.SlotsClean) (hcollect : loop.collect i = some after) :
    after.SlotsClean := by
  obtain ⟨task, htask, hfinished, -, rfl⟩ := collect_eq_some.mp hcollect
  obtain ⟨before, others, htasks, -, herase⟩ := processes_at htask
  have hmem : task ∈ loop.tasks := List.mem_of_getElem? htask
  have hperm : (loop.availableSlots ++ [task.slotId] ++
      (loop.tasks.eraseIdx i).map JobTask.slotId).Perm loop.slots := by
    rw [slots, herase, htasks, List.append_assoc]
    refine List.Perm.append_left _ ?_
    rw [List.map_append, List.map_append, List.map_cons, List.singleton_append]
    exact List.perm_middle.symm
  have hsub : ∀ other ∈ loop.tasks.eraseIdx i, other ∈ loop.tasks := by
    intro other hother
    exact (List.eraseIdx_sublist loop.tasks i).mem hother
  unfold applyJobTaskOutcome
  split
  · refine ⟨?_, h.available, fun _ hmem => nomatch hmem⟩
    simpa [slots, WorkerLoop.stop] using (List.nodup_append.mp h.nodup).1
  · refine ⟨hperm.nodup_iff.mpr h.nodup, ?_, ?_⟩
    · intro slotId hslot
      rcases List.mem_append.mp hslot with hold | hnew
      · exact h.available slotId hold
      · cases List.mem_singleton.mp hnew
        exact h.tasks task hmem (.inr (.inr hfinished))
    · intro other hother hquiet
      exact h.tasks other (hsub other hother) hquiet

theorem SlotsClean.erased (h : loop.SlotsClean) {receipt : Option SlotEraseReceipt}
    (hkept : ¬ loop.LeavesDirty (.erased i receipt)) (herased : loop.erased i receipt = some after) :
    after.SlotsClean := by
  obtain ⟨task, htask, -, rfl⟩ := erased_eq_some.mp herased
  have hslot : loop.slotOf i = some task.slotId := by rw [slotOf, htask, Option.map_some]
  split
  · refine h.replace htask (rfl : { task with phase := .submitting }.slotId = task.slotId) ?_
      fun _ => if_pos rfl
    intro slotId hne
    exact if_neg hne
  · rename_i hmismatch
    refine h.replace htask (rfl : { task with phase := .submitting }.slotId = task.slotId)
      (fun _ _ => rfl) ?_
    intro _
    rw [← hslot] at hmismatch
    have hclean : ¬ loop.dirty task.slotId = true := fun hdirty =>
      hkept ⟨holdsDirty_iff.mpr ⟨task, htask, hdirty⟩, hmismatch⟩
    exact Bool.eq_false_of_not_eq_true hclean

/-- Every event keeps the slots clean that leaves none dirty. -/
theorem SlotsClean.step (h : loop.SlotsClean) {event : Event} (hkept : ¬ loop.LeavesDirty event)
    (hstep : WorkerLoop.step event loop = some after) : after.SlotsClean := by
  obtain ⟨-, hstep⟩ := step_running hstep
  cases event with
  | stop =>
      cases hstep
      exact h.stop
  | observe policy hardware =>
      simp only [goOn, Option.ite_none_right_eq_some, Option.some.injEq] at hstep
      obtain ⟨-, rfl⟩ := hstep
      exact ⟨h.nodup, h.available, h.tasks⟩
  | heartbeatAnswered acceptingJobs =>
      simp only [goOn] at hstep
      split at hstep
      · cases hstep
        exact ⟨h.nodup, h.available, h.tasks⟩
      · cases hstep
  | claimAnswered answer =>
      simp only [goOn] at hstep
      split at hstep
      · cases hstep
        exact ⟨h.nodup, h.available, h.tasks⟩
      · cases hstep
        exact ⟨h.nodup, h.available, h.tasks⟩
      · cases hstep
        exact h.spawn _
      · cases hstep
  | waited =>
      simp only [goOn, Option.ite_none_right_eq_some, Option.some.injEq] at hstep
      obtain ⟨-, rfl⟩ := hstep
      exact ⟨h.nodup, h.available, h.tasks⟩
  | collect i => exact h.collect hstep
  | taskHeartbeat i policy hardware =>
      obtain ⟨task, htask, -, rfl⟩ := taskHeartbeat_eq_some.mp hstep
      exact h.replace htask rfl (fun _ _ => rfl) (h.tasks task (List.mem_of_getElem? htask))
  | declined i =>
      refine h.advance hstep fun task htask hphase _ => ?_
      exact h.tasks task (List.mem_of_getElem? htask) (.inl (List.mem_singleton.mp hphase))
  | notSent i => exact h.advance hstep fun _ _ _ => by simp [TaskPhase.Quiet]
  | sent i =>
      obtain ⟨task, htask, -, rfl⟩ := sent_eq_some.mp hstep
      refine h.replace htask (rfl : { task with phase := .inferring }.slotId = task.slotId) ?_
        (by simp [TaskPhase.Quiet])
      intro slotId hne
      exact if_neg hne
  | answered i => exact h.advance hstep fun _ _ _ => by simp [TaskPhase.Quiet]
  | erased i receipt => exact h.erased hkept hstep
  | leaseLost i =>
      refine h.advance hstep fun task htask _ _ => ?_
      exact Bool.eq_false_of_not_eq_true fun hdirty =>
        hkept (holdsDirty_iff.mpr ⟨task, htask, hdirty⟩)
  | submitted i =>
      refine h.advance hstep fun task htask hphase _ => ?_
      exact h.tasks task (List.mem_of_getElem? htask) (.inr (.inl (List.mem_singleton.mp hphase)))

theorem slotsClean_initial (state : ShareState) : (initial state).SlotsClean where
  nodup := (by decide : [1, 2, 3].Nodup)
  available := fun _ _ => rfl
  tasks := fun _ hmem => nomatch hmem

end WorkerLoop

/-- In every run in which no event makes a task give up a dirty slot, a task sends its
request to a clean slot; so is every slot that an ended task gives back, and every
slot of the pool. -/
theorem slots_clean {start : ShareState} {past : List Event} {loop : WorkerLoop}
    (run : Run WorkerLoop.step (fun _ loop event => ¬ loop.LeavesDirty event)
      (WorkerLoop.initial start) past loop) :
    (∀ (i : Nat) (task : JobTask), loop.tasks[i]? = some task →
      (WorkerLoop.step (.sent i) loop).isSome = true → loop.dirty task.slotId = false) ∧
    (∀ (i : Nat) (task : JobTask), loop.tasks[i]? = some task →
      (WorkerLoop.step (.collect i) loop).isSome = true → loop.dirty task.slotId = false) ∧
    ∀ slotId ∈ loop.availableSlots, loop.dirty slotId = false := by
  have clean : loop.SlotsClean := run.stays (WorkerLoop.slotsClean_initial start)
    fun hclean hkept hstep => hclean.step hkept hstep
  refine ⟨fun i task htask hsent => ?_, fun i task htask hcollect => ?_, clean.available⟩
  · obtain ⟨after, hstep⟩ := Option.isSome_iff_exists.mp hsent
    obtain ⟨-, hstep⟩ := WorkerLoop.step_running hstep
    obtain ⟨sender, hsender, hphase, -⟩ := WorkerLoop.sent_eq_some.mp hstep
    cases htask.symm.trans hsender
    exact clean.tasks task (List.mem_of_getElem? htask) (.inl hphase)
  · obtain ⟨after, hstep⟩ := Option.isSome_iff_exists.mp hcollect
    obtain ⟨-, hstep⟩ := WorkerLoop.step_running hstep
    obtain ⟨ended, hended, hphase, -⟩ := WorkerLoop.collect_eq_some.mp hstep
    cases htask.symm.trans hended
    exact clean.tasks task (List.mem_of_getElem? htask) (.inr (.inr hphase))

section Sample

def samplePolicy : NodePolicy := ⟨[], 3, some 80, 0⟩

def sampleHardware (temperature : Rat) : HardwareMetrics := ⟨some temperature, none, none⟩

/-- The loop claims a job. -/
def sampleClaim : List Event := [.observe samplePolicy (sampleHardware 60),
  .heartbeatAnswered (some true), .claimAnswered .job]

/-- A job that needs no local inference. -/
def sampleDeclined : List Event := sampleClaim ++ [.declined 0, .submitted 0, .collect 0]

/-- A job on slot 1 whose inference is answered and erased, and two more claims. -/
def sampleErased : List Event := sampleClaim ++ [.sent 0, .answered 0, .erased 0 (some ⟨1, 7⟩),
  .submitted 0, .collect 0] ++ sampleClaim ++ sampleClaim

/-- A job on slot 1 loses its lease with its request under way; when slot 1 comes round
again, its next job is about to send its request. -/
def sampleLeaseLost : List Event := sampleClaim ++ [.sent 0, .leaseLost 0, .submitted 0,
  .collect 0] ++ sampleDeclined ++ sampleDeclined ++ sampleClaim

theorem slots_clean_sample :
    ∃ past loop, Run WorkerLoop.step (fun _ loop event => ¬ loop.LeavesDirty event)
        (WorkerLoop.initial ⟨false⟩) past loop ∧ loop.availableSlots = [1] ∧
      loop.dirty 1 = false ∧ loop.tasks.map JobTask.phase = [.checking, .checking] := by
  cases h : execute WorkerLoop.step (fun _ loop event => ¬ loop.LeavesDirty event) []
      sampleErased (WorkerLoop.initial ⟨false⟩) with
  | none => exact absurd (congrArg Option.isSome h) (by decide +kernel)
  | some loop =>
      have run := Run.start.execute h
      have hseen := congrArg (Option.map fun loop : WorkerLoop =>
        (loop.availableSlots, loop.tasks.map JobTask.phase)) h
      have hslots : loop.availableSlots = [1] ∧
          loop.tasks.map JobTask.phase = [.checking, .checking] := by
        have := hseen.symm.trans (by decide +kernel : _ = some ([1], [.checking, .checking]))
        exact Prod.mk.inj (Option.some.inj this)
      refine ⟨_, loop, run, hslots.1, (slots_clean run).2.2 1 ?_, hslots.2⟩
      rw [hslots.1]
      exact List.mem_singleton_self 1

/-- A lost lease hands the next job a slot that still holds the last one. -/
theorem slots_clean_fails :
    ¬ ∀ (start : ShareState) (past : List Event) (loop : WorkerLoop),
      Run WorkerLoop.step Anything (WorkerLoop.initial start) past loop →
      ∀ (i : Nat) (task : JobTask), loop.tasks[i]? = some task →
        (WorkerLoop.step (.sent i) loop).isSome = true → loop.dirty task.slotId = false := by
  intro clean
  cases h : execute WorkerLoop.step Anything [] sampleLeaseLost
      (WorkerLoop.initial ⟨false⟩) with
  | none => exact absurd (congrArg Option.isSome h) (by decide +kernel)
  | some loop =>
      have hseen := congrArg (Option.map fun loop : WorkerLoop =>
        (loop.tasks[0]?.map JobTask.slotId, (WorkerLoop.step (.sent 0) loop).isSome,
          loop.dirty 1)) h
      have hdirty := hseen.symm.trans (by decide +kernel : _ = some (some 1, true, true))
      obtain ⟨htask, hrest⟩ := Prod.mk.inj (Option.some.inj hdirty)
      obtain ⟨hsends, hone⟩ := Prod.mk.inj hrest
      obtain ⟨task, hfind, hslot⟩ := Option.map_eq_some_iff.mp htask
      have hclean := clean ⟨false⟩ _ loop (Run.start.execute h) 0 task hfind hsends
      rw [hslot, hone] at hclean
      cases hclean

end Sample

end MindOne.Worker
