import Mathlib.Tactic.TypeStar

/-!
# Programs that ask a world

A program asks queries and goes on with the answers. It is a tree, so it ends
whatever the answers are. A world is a relation between a state, a query, an
answer to it and the next state; what other parties do meanwhile is part of that
relation.
-/

universe u

inductive Dialogue (Query : Type) (Answer : Query → Type) (α : Type) where
  | done (value : α)
  | ask (query : Query) (next : Answer query → Dialogue Query Answer α)

namespace Dialogue

variable {Query : Type} {Answer : Query → Type} {α β : Type} {World : Type u}

def bind : Dialogue Query Answer α → (α → Dialogue Query Answer β) → Dialogue Query Answer β
  | done value, f => f value
  | ask query next, f => ask query fun answer => (next answer).bind f

instance : Monad (Dialogue Query Answer) where
  pure := done
  bind := bind

/-- Ask one query and return the answer. -/
def query (q : Query) : Dialogue Query Answer (Answer q) := ask q done

/-- The program leads from one state of the world to another and returns the value. -/
inductive Talks (step : World → (q : Query) → Answer q → World → Prop) :
    Dialogue Query Answer α → World → α → World → Prop
  | done {value : α} {world : World} : Talks step (done value) world value world
  | ask {q : Query} {next : Answer q → Dialogue Query Answer α} {answer : Answer q}
      {world asked final : World} {value : α} :
      step world q answer asked → Talks step (next answer) asked value final →
      Talks step (ask q next) world value final

variable {step : World → (q : Query) → Answer q → World → Prop} {world final : World}

@[simp] theorem talks_done {value result : α} :
    Talks step (done value) world result final ↔ value = result ∧ world = final := by
  constructor
  · rintro ⟨⟩
    exact ⟨rfl, rfl⟩
  · rintro ⟨rfl, rfl⟩
    exact .done

@[simp] theorem talks_pure {value result : α} :
    Talks step (pure value : Dialogue Query Answer α) world result final ↔
      value = result ∧ world = final :=
  talks_done

theorem talks_ask {q : Query} {next : Answer q → Dialogue Query Answer α} {result : α} :
    Talks step (ask q next) world result final ↔
      ∃ answer asked, step world q answer asked ∧ Talks step (next answer) asked result final := by
  constructor
  · intro h
    cases h with
    | ask made rest => exact ⟨_, _, made, rest⟩
  · rintro ⟨answer, asked, made, rest⟩
    exact .ask made rest

@[simp] theorem talks_query {q : Query} {answer : Answer q} :
    Talks step (query q : Dialogue Query Answer (Answer q)) world answer final ↔
      step world q answer final := by
  rw [query, talks_ask]
  constructor
  · rintro ⟨given, asked, made, rest⟩
    obtain ⟨rfl, rfl⟩ := talks_done.mp rest
    exact made
  · intro made
    exact ⟨answer, final, made, .done⟩

/-- A program in sequence runs its parts one after the other. -/
@[simp] theorem talks_bind {program : Dialogue Query Answer α}
    {f : α → Dialogue Query Answer β} {result : β} :
    Talks step (program >>= f) world result final ↔
      ∃ value between, Talks step program world value between ∧
        Talks step (f value) between result final := by
  induction program generalizing world with
  | done value =>
    constructor
    · intro h
      exact ⟨value, world, .done, h⟩
    · rintro ⟨_, _, first, rest⟩
      obtain ⟨rfl, rfl⟩ := talks_done.mp first
      exact rest
  | ask q next ih =>
    constructor
    · intro h
      cases h with
      | ask made rest =>
        obtain ⟨value, between, first, second⟩ := (ih _).mp rest
        exact ⟨value, between, .ask made first, second⟩
    · rintro ⟨value, between, first, second⟩
      cases first with
      | ask made rest => exact .ask made ((ih _).mpr ⟨value, between, rest, second⟩)

/-- What every step of the world keeps holds when a program has ended. -/
theorem Talks.keeps {program : Dialogue Query Answer α} {result : α} (Holds : World → Prop)
    (h : Talks step program world result final) (hstart : Holds world)
    (hstep : ∀ {before q answer after}, Holds before → step before q answer after → Holds after) :
    Holds final := by
  induction h with
  | done => exact hstart
  | ask made _ ih => exact ih (hstep hstart made)

end Dialogue
