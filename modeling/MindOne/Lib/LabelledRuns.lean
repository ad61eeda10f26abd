import Mathlib.Data.List.Basic
import Mathlib.Data.List.Nodup

/-!
# Runs of a system with labelled steps

A system makes one step for each event, or none where the event is impossible.
A run lists its events, the last one first, so that what has happened so far is
at hand when the next event is judged. An invariant may speak about the history
as well as about the state.
-/

universe u v

namespace LabelledRuns

variable {State : Type u} {Event : Type v} {step : Event → State → Option State}

/-- The events, the last one first, lead from one state to the other, and each was
allowed after those before it. -/
inductive Run (step : Event → State → Option State)
    (allowed : List Event → State → Event → Prop) (start : State) : List Event → State → Prop
  | start : Run step allowed start [] start
  | step {past : List Event} {state next : State} {event : Event} :
      Run step allowed start past state → allowed past state event →
      step event state = some next → Run step allowed start (event :: past) next

/-- Events without a condition. -/
def Anything : List Event → State → Event → Prop := fun _ _ _ => True

instance (past : List Event) (state : State) (event : Event) :
    Decidable (Anything past state event) :=
  inferInstanceAs (Decidable True)

/-- Run further events in the order in which they happen, as long as they are allowed. -/
def execute (step : Event → State → Option State) (allowed : List Event → State → Event → Prop)
    [∀ past state event, Decidable (allowed past state event)] :
    List Event → List Event → State → Option State
  | _, [], state => some state
  | past, event :: rest, state =>
      if allowed past state event then
        (step event state).bind (execute step allowed (event :: past) rest)
      else none

/-- What holds at the start and survives every allowed step holds in every run. -/
theorem Run.invariant {allowed : List Event → State → Event → Prop} {start : State}
    {Invariant : List Event → State → Prop} {past : List Event} {state : State}
    (run : Run step allowed start past state) (hstart : Invariant [] start)
    (hstep : ∀ {past state next event}, Invariant past state → allowed past state event →
      step event state = some next → Invariant (event :: past) next) : Invariant past state := by
  induction run with
  | start => exact hstart
  | step _ ok made ih => exact hstep ih ok made

/-- An invariant that does not speak about the history. -/
theorem Run.stays {allowed : List Event → State → Event → Prop} {start : State}
    {Holds : State → Prop} {past : List Event} {state : State}
    (run : Run step allowed start past state) (hstart : Holds start)
    (hstep : ∀ {past state next event}, Holds state → allowed past state event →
      step event state = some next → Holds next) : Holds state := by
  induction run with
  | start => exact hstart
  | step _ ok made ih => exact hstep ih ok made

theorem Run.mono {allowed allowed' : List Event → State → Event → Prop} {start state : State}
    {past : List Event} (run : Run step allowed start past state)
    (h : ∀ past state event, allowed past state event → allowed' past state event) :
    Run step allowed' start past state := by
  induction run with
  | start => exact .start
  | step _ ok made ih => exact .step ih (h _ _ _ ok) made

/-- What has been executed is a run. -/
theorem Run.execute {allowed : List Event → State → Event → Prop}
    [∀ past state event, Decidable (allowed past state event)] {start state final : State}
    {past events : List Event} (run : Run step allowed start past state)
    (h : LabelledRuns.execute step allowed past events state = some final) :
    Run step allowed start (events.reverse ++ past) final := by
  induction events generalizing past state with
  | nil =>
      cases h
      exact run
  | cons event rest ih =>
      simp only [LabelledRuns.execute, Option.ite_none_right_eq_some,
        Option.bind_eq_some_iff] at h
      obtain ⟨ok, next, made, hrest⟩ := h
      rw [List.reverse_cons, List.append_assoc]
      exact ih (run.step ok made) hrest

section Finishing
variable (step : Event → State → Option State) (allowed : List Event → State → Event → Prop)

/-- As long as the work goes on there is a step to make, and every step leaves less of it. -/
structure Finishing (Going Done : State → Prop) (remaining : State → Nat) : Prop where
  exists_step : ∀ past state, Going state →
    ∃ event next, allowed past state event ∧ step event state = some next
  onward : ∀ past state event next, Going state → allowed past state event →
    step event state = some next → Going next ∧ remaining next < remaining state ∨ Done next
  rests : ∀ past state event, Done state → allowed past state event → step event state = none

variable {step allowed} {Going Done : State → Prop} {remaining : State → Nat} {start state : State}

/-- Every run of such steps can be continued until the work is done. -/
theorem Finishing.finishes (h : Finishing step allowed Going Done remaining) {past : List Event}
    (run : Run step allowed start past state) (hgoing : Going state) :
    ∃ events final, Run step allowed start events final ∧ Done final := by
  induction hn : remaining state using Nat.strongRecOn generalizing past state with
  | ind n ih =>
      subst hn
      obtain ⟨event, next, hallowed, hstep⟩ := h.exists_step past state hgoing
      rcases h.onward past state event next hgoing hallowed hstep with ⟨hnext, hless⟩ | hdone
      · exact ih _ hless (run.step hallowed hstep) hnext rfl
      · exact ⟨_, next, run.step hallowed hstep, hdone⟩

/-- There is nowhere else to go. -/
theorem Finishing.stays (h : Finishing step allowed Going Done remaining) (hgoing : Going start)
    {past : List Event} (run : Run step allowed start past state) : Going state ∨ Done state := by
  induction run with
  | start => exact .inl hgoing
  | step _ hallowed hstep ih =>
      rcases ih with hgoing | hdone
      · exact (h.onward _ _ _ _ hgoing hallowed hstep).imp_left And.left
      · rw [h.rests _ _ _ hdone hallowed] at hstep
        cases hstep

end Finishing

section Processes
variable {α : Type u}

/-- The processes around the one that makes a step. -/
theorem processes_at {l : List α} {i : Nat} {a : α} (h : l[i]? = some a) :
    ∃ before after, l = before ++ a :: after ∧ (∀ b, l.set i b = before ++ b :: after) ∧
      l.eraseIdx i = before ++ after := by
  obtain ⟨hlt, rfl⟩ := List.getElem?_eq_some_iff.mp h
  refine ⟨l.take i, l.drop (i + 1), ?_, fun b => List.set_eq_take_cons_drop b hlt,
    List.eraseIdx_eq_take_drop_succ l i⟩
  rw [List.getElem_cons_drop hlt, List.take_append_drop]

end Processes

end LabelledRuns
