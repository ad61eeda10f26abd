import Mathlib.Data.List.Induction
import Mathlib.Order.Monotone.Defs

/-!
# Rolling windows over events out of order

Events are admitted one after another, each at its own instant, and the instants
need not grow with the order of admission. An event is paced when fewer than
`limit` of those admitted before it lie after the opening of its window. If all
of them are paced, no window holds more than `limit` events, wherever it ends.
-/

universe u v

namespace RollingWindow

variable {ε : Type u} {T : Type v} [LT T] [DecidableLT T]

/-- Every chosen event was admitted with fewer than `limit` chosen ones in its window. -/
def Paced (time : ε → T) (opens : T → T) (limit : Nat) (p : ε → Bool) (events : List ε) : Prop :=
  ∀ earlier event later, events = earlier ++ event :: later → p event = true →
    earlier.countP (fun other => p other && decide (opens (time event) < time other)) < limit

variable {time : ε → T} {opens : T → T} {limit : Nat} {p : ε → Bool} {events : List ε} {event : ε}

theorem paced_nil : Paced time opens limit p [] := by
  intro earlier event later h
  simp at h

theorem Paced.init (h : Paced time opens limit p (events ++ [event])) :
    Paced time opens limit p events := by
  intro earlier other later hsplit
  exact h earlier other (later ++ [event]) (by simp [hsplit])

theorem Paced.snoc (h : Paced time opens limit p events)
    (hlast : p event = true →
      events.countP (fun other => p other && decide (opens (time event) < time other)) < limit) :
    Paced time opens limit p (events ++ [event]) := by
  intro earlier other later hsplit hp
  rcases List.eq_nil_or_concat later with rfl | ⟨init, last, rfl⟩
  · obtain ⟨rfl, hother⟩ := List.append_inj' hsplit rfl
    obtain rfl := List.singleton_inj.mp hother
    exact hlast hp
  · rw [List.concat_eq_append, ← List.cons_append, ← List.append_assoc] at hsplit
    obtain ⟨hinit, -⟩ := List.append_inj' hsplit rfl
    exact h earlier other init hinit hp

end RollingWindow

namespace RollingWindow

variable {ε : Type u} {T : Type v} [Preorder T] [DecidableLT T] [DecidableLE T]
  {time : ε → T} {opens : T → T} {limit : Nat} {p : ε → Bool} {events : List ε}

/-- No window of paced events holds more than the limit. -/
theorem Paced.window_le (h : Paced time opens limit p events) (mono : Monotone opens) (t : T) :
    events.countP (fun event => p event && decide (opens t < time event ∧ time event ≤ t)) ≤
      limit := by
  induction events using List.reverseRecOn with
  | nil => exact Nat.zero_le limit
  | append_singleton events event ih =>
      rw [List.countP_append, List.countP_singleton]
      split
      · next hin =>
        -- the event that was admitted last saw all others of the window
        rw [Bool.and_eq_true, decide_eq_true_eq] at hin
        obtain ⟨hp, -, hle⟩ := hin
        have hlast := h events event [] rfl hp
        have hsub : events.countP
              (fun other => p other && decide (opens t < time other ∧ time other ≤ t)) ≤
            events.countP
              (fun other => p other && decide (opens (time event) < time other)) := by
          refine List.countP_mono_left fun other _ hother => ?_
          rw [Bool.and_eq_true, decide_eq_true_eq] at hother ⊢
          exact ⟨hother.1, (mono hle).trans_lt hother.2.1⟩
        omega
      · exact ih h.init

end RollingWindow
