import Mathlib.Data.List.Basic

/-!
# Lines of a stream that arrives in pieces

A reader takes the ended lines off what has arrived and hands them to a handler
one by one; what comes after the last end waits for the next piece. However the
stream is cut, the handler sees the same lines and the same rest is left.
-/

universe u

namespace LineReader

variable {α : Type u} [DecidableEq α]

/-- The ended lines of a text, and what comes after the last of them. -/
def takeLines (newline : α) : List α → List (List α) × List α
  | [] => ([], [])
  | c :: rest =>
      if c = newline then ([] :: (takeLines newline rest).1, (takeLines newline rest).2)
      else
        match (takeLines newline rest).1 with
        | [] => ([], c :: (takeLines newline rest).2)
        | line :: lines => ((c :: line) :: lines, (takeLines newline rest).2)

/-- The lines of two pieces are those of the first and then those of what it leaves
with the second. -/
theorem takeLines_append (newline : α) (first second : List α) :
    takeLines newline (first ++ second) =
      ((takeLines newline first).1 ++ (takeLines newline ((takeLines newline first).2 ++ second)).1,
        (takeLines newline ((takeLines newline first).2 ++ second)).2) := by
  induction first with
  | nil => rfl
  | cons c rest ih =>
      by_cases hc : c = newline
      · simp only [List.cons_append, takeLines, if_pos hc, ih]
      · cases hlines : (takeLines newline rest).1 with
        | nil =>
            rw [hlines, List.nil_append] at ih
            simp only [List.cons_append, takeLines, if_neg hc, hlines, List.nil_append, ih]
        | cons line lines =>
            rw [hlines, List.cons_append] at ih
            simp only [List.cons_append, takeLines, if_neg hc, hlines, ih]

/-- What is left has no line. -/
theorem takeLines_rest (newline : α) (text : List α) :
    takeLines newline (takeLines newline text).2 = ([], (takeLines newline text).2) := by
  have h := takeLines_append newline text []
  rw [List.append_nil, List.append_nil] at h
  have hlines := congrArg Prod.fst h
  have hrest := congrArg Prod.snd h
  simp only at hlines hrest
  exact Prod.ext (List.self_eq_append_right.mp hlines) hrest.symm

/-- What a reader has come to, and the text after the last ended line. -/
structure Feed (σ : Type u) (α : Type u) where
  state : σ
  rest : List α

section Feeding
variable {newline : α} {σ ε : Type u} {onLine : σ → List α → Except ε σ}

/-- One more piece arrives, and its ended lines are handled. -/
def Feed.push (newline : α) (onLine : σ → List α → Except ε σ) (feed : Feed σ α)
    (piece : List α) : Except ε (Feed σ α) := do
  let state ← (takeLines newline (feed.rest ++ piece)).1.foldlM onLine feed.state
  .ok ⟨state, (takeLines newline (feed.rest ++ piece)).2⟩

/-- A reader of a text that has no ended line is as it was before it looked at it. -/
theorem push_nil {feed : Feed σ α} (h : takeLines newline feed.rest = ([], feed.rest)) :
    feed.push newline onLine [] = .ok feed := by
  rw [Feed.push, List.append_nil, h]
  rfl

theorem push_ok_rest {feed after : Feed σ α} {piece : List α}
    (h : feed.push newline onLine piece = .ok after) :
    takeLines newline after.rest = ([], after.rest) := by
  rw [Feed.push] at h
  cases hlines : (takeLines newline (feed.rest ++ piece)).1.foldlM onLine feed.state with
  | error e =>
      rw [hlines] at h
      cases h
  | ok state =>
      rw [hlines] at h
      cases h
      exact takeLines_rest newline _

/-- Two pieces one after the other are one piece. -/
theorem push_push (feed : Feed σ α) (first second : List α) :
    (feed.push newline onLine first >>= fun after => after.push newline onLine second) =
      feed.push newline onLine (first ++ second) := by
  have hsplit := takeLines_append newline (feed.rest ++ first) second
  rw [List.append_assoc] at hsplit
  rw [Feed.push, Feed.push, hsplit, List.foldlM_append]
  cases (takeLines newline (feed.rest ++ first)).1.foldlM onLine feed.state with
  | error e => rfl
  | ok state => rfl

/-- However a text is cut into pieces, the reader comes to the same. -/
theorem foldlM_push {feed : Feed σ α} (h : takeLines newline feed.rest = ([], feed.rest))
    (pieces : List (List α)) :
    pieces.foldlM (fun feed piece => feed.push newline onLine piece) feed =
      feed.push newline onLine pieces.flatten := by
  induction pieces generalizing feed with
  | nil => exact (push_nil h).symm
  | cons piece pieces ih =>
      rw [List.foldlM_cons, List.flatten_cons, ← push_push]
      cases hpush : feed.push newline onLine piece with
      | error e => rfl
      | ok after => exact ih (push_ok_rest hpush)

end Feeding

section Projections
variable {σ ε τ : Type u}

/-- Steps that agree on a part of their results, one after the other. -/
theorem bind_project {β γ : Type u} {p : β → γ} {q : σ → τ} {x y : Except ε β}
    {f g : β → Except ε σ} (h : x.map p = y.map p)
    (hnext : ∀ a b, p a = p b → (f a).map q = (g b).map q) :
    (x >>= f).map q = (y >>= g).map q := by
  cases x with
  | error e =>
      cases y with
      | error e' =>
          cases h
          rfl
      | ok b => cases h
  | ok a =>
      cases y with
      | error e' => cases h
      | ok b => exact hnext a b (Except.ok.inj h)

/-- Two handlers that agree on a part of their states agree on it after any items. -/
theorem foldlM_project {β : Type u} {p : σ → τ} {first second : σ → β → Except ε σ}
    (hstep : ∀ s t item, p s = p t → (first s item).map p = (second t item).map p)
    (items : List β) {s t : σ} (h : p s = p t) :
    (items.foldlM first s).map p = (items.foldlM second t).map p := by
  induction items generalizing s t with
  | nil => exact congrArg Except.ok h
  | cons item items ih =>
      rw [List.foldlM_cons, List.foldlM_cons]
      exact bind_project (hstep s t item h) fun after after' hafter => ih hafter

variable {p : σ → τ} {first second : σ → List α → Except ε σ}

def Feed.project (p : σ → τ) (feed : Feed σ α) : Feed τ α := ⟨p feed.state, feed.rest⟩

theorem push_project {newline : α}
    (hstep : ∀ s t line, p s = p t → (first s line).map p = (second t line).map p)
    {a b : Feed σ α} (h : a.project p = b.project p) (piece : List α) :
    (a.push newline first piece).map (Feed.project p) =
      (b.push newline second piece).map (Feed.project p) := by
  obtain ⟨hstate, hrest⟩ := Feed.mk.inj h
  rw [Feed.push, Feed.push, hrest]
  refine bind_project (foldlM_project hstep _ hstate) fun after after' hafter => ?_
  exact congrArg (fun state => Except.ok (Feed.mk state _)) hafter

end Projections

end LineReader
