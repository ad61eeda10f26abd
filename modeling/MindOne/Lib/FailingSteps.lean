import Mathlib.Logic.Basic

/-!
# Programs whose steps can fail

A program changes a state step by step, and a step that fails ends it with the state
that was reached so far. What holds behind a program is stated twice: for its result,
and for the state in which it was left by a failure.
-/

universe u

namespace FailingSteps

/-- A program over a state; what was done before a failure stays done. -/
abbrev Effect (ε σ : Type u) := ExceptT ε (StateM σ)

variable {ε σ α β : Type u}

def exec (program : Effect ε σ α) (state : σ) : Except ε α × σ := program.run.run state

theorem exec_bind (program : Effect ε σ α) (next : α → Effect ε σ β) (state : σ) :
    exec (program >>= next) state =
      match exec program state with
      | (.ok value, after) => exec (next value) after
      | (.error error, after) => (.error error, after) := by
  simp only [exec, ExceptT.run_bind, StateT.run_bind]
  rcases program.run.run state with ⟨_ | _, after⟩
  · rfl
  · rfl

/-- One step, which either fails or acts on the state. -/
def perform (failure : Option ε) (action : σ → α × σ) : Effect ε σ α :=
  ExceptT.mk fun state =>
    match failure with
    | some error => (.error error, state)
    | none => (.ok (action state).1, (action state).2)

/-- Fail under a condition. -/
def failIf (condition : Prop) [Decidable condition] (error : ε) : Effect ε σ PUnit :=
  if condition then throw error else pure ⟨⟩

/-- The outcome of a program as a value. -/
def observe (program : Effect ε σ α) : Effect ε σ (Except ε α) :=
  ExceptT.mk fun state => (.ok (exec program state).1, (exec program state).2)

/-- What holds of the result of a program, and of the state that a failure leaves. -/
def Reaches (program : Effect ε σ α) (state : σ) (good : α → σ → Prop) (bad : σ → Prop) : Prop :=
  match exec program state with
  | (.ok value, after) => good value after
  | (.error _, after) => bad after

variable {program : Effect ε σ α} {next : α → Effect ε σ β} {state : σ} {good : α → σ → Prop}
  {bad : σ → Prop}

theorem Reaches.mono (h : Reaches program state good bad) {good' : α → σ → Prop}
    {bad' : σ → Prop} (hgood : ∀ value after, good value after → good' value after)
    (hbad : ∀ after, bad after → bad' after) : Reaches program state good' bad' := by
  simp only [Reaches] at h ⊢
  generalize exec program state = outcome at h ⊢
  obtain ⟨error | value, after⟩ := outcome
  · exact hbad after h
  · exact hgood value after h

theorem reaches_pure {value : α} (h : good value state) :
    Reaches (pure value : Effect ε σ α) state good bad := h

theorem reaches_throw {error : ε} (h : bad state) :
    Reaches (throw error : Effect ε σ α) state good bad := h

theorem reaches_failIf {condition : Prop} [Decidable condition] {error : ε}
    {good : PUnit → σ → Prop} (hbad : condition → bad state)
    (hgood : ¬ condition → good ⟨⟩ state) : Reaches (failIf condition error) state good bad := by
  simp only [failIf]
  split
  · rename_i h
    exact reaches_throw (hbad h)
  · rename_i h
    exact reaches_pure (hgood h)

/-- A program is followed by the rest of it. -/
theorem Reaches.bind {good' : β → σ → Prop} (h : Reaches program state good bad)
    (hnext : ∀ value after, good value after → Reaches (next value) after good' bad) :
    Reaches (program >>= next) state good' bad := by
  simp only [Reaches, exec_bind] at h hnext ⊢
  generalize exec program state = outcome at h ⊢
  obtain ⟨error | value, after⟩ := outcome
  · exact h
  · exact hnext value after h

/-- A check that passes is followed by the rest. -/
theorem reaches_failIf_bind {condition : Prop} [Decidable condition] {error : ε}
    {next : PUnit → Effect ε σ β} {good : β → σ → Prop} (h : ¬ condition)
    (hnext : Reaches (next ⟨⟩) state good bad) :
    Reaches (failIf condition error >>= next) state good bad := by
  rw [failIf, if_neg h, pure_bind]
  exact hnext

theorem reaches_perform {failure : Option ε} {action : σ → α × σ} (hbad : bad state)
    (hgood : good (action state).1 (action state).2) :
    Reaches (perform failure action) state good bad := by
  cases failure with
  | none => exact hgood
  | some error => exact hbad

/-- A failure is a value for who observes it. -/
theorem reaches_observe (h : Reaches program state good bad) :
    Reaches (observe program) state
      (fun outcome after => match outcome with
        | .ok value => good value after
        | .error _ => bad after) (fun _ => False) := by
  have hexec : exec (observe program) state =
      (.ok (exec program state).1, (exec program state).2) := rfl
  simp only [Reaches, hexec] at h ⊢
  generalize exec program state = outcome at h ⊢
  obtain ⟨error | value, after⟩ := outcome
  · exact h
  · exact h

/-- What a finished program was proved to reach. -/
theorem Reaches.of_ok (h : Reaches program state good bad) {value : α} {after : σ}
    (hexec : exec program state = (.ok value, after)) : good value after := by
  simpa only [Reaches, hexec] using h

theorem Reaches.of_error (h : Reaches program state good bad) {error : ε} {after : σ}
    (hexec : exec program state = (.error error, after)) : bad after := by
  simpa only [Reaches, hexec] using h

end FailingSteps
