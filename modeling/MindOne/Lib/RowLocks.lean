import Mathlib.Data.List.Basic
import Mathlib.Logic.Function.Basic

/-!
# Transactions under row locks

A system has a committed state and open transactions. A transaction runs one
statement after another against the committed state with its own changes laid
over it, and the changes reach the committed state when it commits. A statement
only runs when no other transaction holds one of its locks, and the locks are
kept to the end. A property that speaks about one locked part at a time, and
that every statement keeps when it runs alone, then holds of the committed
state and of every transaction's view under all interleavings.
-/

universe u v w x y z

namespace RowLocks

variable {σ : Type u} {δ : Type v} {κ : Type w} {τ : Type x} {Stmt : Type y} {ε : Type z}

/-- How statements compute changes, how changes act, and which locks are taken. -/
structure Engine (σ : Type u) (δ : Type v) (κ : Type w) (Stmt : Type y) (ε : Type z) where
  apply : σ → δ → σ
  execute : Stmt → σ → Except ε (List δ)
  locks : Stmt → List κ

/-- An open transaction: its changes, its locks, and whether a statement failed. -/
structure Session (δ : Type v) (κ : Type w) where
  log : List δ
  held : List κ
  failed : Bool

/-- The committed state and the open transactions. -/
structure System (σ : Type u) (δ : Type v) (κ : Type w) (τ : Type x) where
  committed : σ
  sessions : τ → Option (Session δ κ)

namespace Engine
variable (engine : Engine σ δ κ Stmt ε)

/-- What a transaction sees: the committed state under its own changes. -/
def view (committed : σ) (session : Session δ κ) : σ := session.log.foldl engine.apply committed

/-- No other transaction holds a lock that the statement needs. -/
def Free (sys : System σ δ κ τ) (t : τ) (stmt : Stmt) : Prop :=
  ∀ other session, other ≠ t → sys.sessions other = some session →
    ∀ k ∈ engine.locks stmt, k ∉ session.held

variable [DecidableEq τ]

/-- The system after a transaction changed its own session. -/
def withSession (sys : System σ δ κ τ) (t : τ) (session : Option (Session δ κ)) :
    System σ δ κ τ :=
  { sys with sessions := Function.update sys.sessions t session }

/-- One statement of an open transaction. A rejected one adds no change, and
fails the transaction: everything after it is refused until it is rolled back. -/
inductive Attempt (sys : System σ δ κ τ) (t : τ) (stmt : Stmt) :
    System σ δ κ τ → Prop
  | accepted {session : Session δ κ} {changes : List δ} :
      sys.sessions t = some session → session.failed = false → engine.Free sys t stmt →
      engine.execute stmt (engine.view sys.committed session) = .ok changes →
      Attempt sys t stmt (withSession sys t (some
        { session with
          log := session.log ++ changes, held := session.held ++ engine.locks stmt }))
  | rejected {session : Session δ κ} {error : ε} :
      sys.sessions t = some session → session.failed = false → engine.Free sys t stmt →
      engine.execute stmt (engine.view sys.committed session) = .error error →
      Attempt sys t stmt (withSession sys t (some
        { session with held := session.held ++ engine.locks stmt, failed := true }))
  | refused {session : Session δ κ} :
      sys.sessions t = some session → session.failed = true → Attempt sys t stmt sys

/-- The steps of the system, in any order among the transactions. -/
inductive Step (sys : System σ δ κ τ) : System σ δ κ τ → Prop
  | start {t : τ} : sys.sessions t = none →
      Step sys (withSession sys t (some ⟨[], [], false⟩))
  | statement {t : τ} {stmt : Stmt} {sys' : System σ δ κ τ} :
      engine.Attempt sys t stmt sys' → Step sys sys'
  | commit {t : τ} {session : Session δ κ} :
      sys.sessions t = some session → session.failed = false →
      Step sys (withSession { sys with committed := engine.view sys.committed session } t none)
  | rollback {t : τ} {session : Session δ κ} :
      sys.sessions t = some session → Step sys (withSession sys t none)

/-- The systems reached from a committed state without transactions. -/
inductive Reachable (initial : σ) : System σ δ κ τ → Prop
  | init : Reachable initial ⟨initial, fun _ => none⟩
  | step {sys sys' : System σ δ κ τ} : Reachable initial sys → engine.Step sys sys' →
      Reachable initial sys'

/-- The part of the state behind each lock, and the locks a change touches: a
change leaves the other parts alone and acts on a part by that part only. -/
structure Parts (π : κ → Type u) where
  part : (k : κ) → σ → π k
  touches : δ → List κ
  part_apply {s : σ} {c : δ} {k : κ} : k ∉ touches c → part k (engine.apply s c) = part k s
  part_congr {s s' : σ} {c : δ} {k : κ} : part k s = part k s' →
    part k (engine.apply s c) = part k (engine.apply s' c)
  confined {stmt : Stmt} {s : σ} {changes : List δ} :
    engine.execute stmt s = .ok changes →
    ∀ c ∈ changes, ∀ k ∈ touches c, k ∈ engine.locks stmt

namespace Parts
variable {engine} {π : κ → Type u} (parts : engine.Parts π)

omit [DecidableEq τ] in
theorem part_foldl {log : List δ} {s : σ} {k : κ} (h : ∀ c ∈ log, k ∉ parts.touches c) :
    parts.part k (log.foldl engine.apply s) = parts.part k s := by
  induction log generalizing s with
  | nil => rfl
  | cons c log ih =>
      rw [List.foldl_cons, ih fun d hd => h d (by simp [hd]), parts.part_apply (h c (by simp))]

omit [DecidableEq τ] in
theorem part_foldl_congr {log : List δ} {s s' : σ} {k : κ}
    (h : parts.part k s = parts.part k s') :
    parts.part k (log.foldl engine.apply s) = parts.part k (log.foldl engine.apply s') := by
  induction log generalizing s s' with
  | nil => exact h
  | cons c log ih => exact ih (parts.part_congr h)

/-- The invariant of the interleavings: locks are exclusive, changes stay behind
the locks, and the property holds of the committed state and of every view. -/
structure Consistent (P : (k : κ) → π k → Prop) (sys : System σ δ κ τ) : Prop where
  exclusive : ∀ t u x y, sys.sessions t = some x → sys.sessions u = some y → t ≠ u →
    ∀ k ∈ x.held, k ∉ y.held
  behind : ∀ t x, sys.sessions t = some x → ∀ c ∈ x.log, ∀ k ∈ parts.touches c, k ∈ x.held
  committed : ∀ k, P k (parts.part k sys.committed)
  views : ∀ t x, sys.sessions t = some x →
    ∀ k, P k (parts.part k (engine.view sys.committed x))

section Invariant
variable {P : (k : κ) → π k → Prop} {sys sys' : System σ δ κ τ}

/-- Replacing one session keeps the invariant when the new one keeps its part of it. -/
theorem Consistent.withSession (h : parts.Consistent P sys) {t : τ}
    {new : Option (Session δ κ)}
    (exclusive : ∀ x, new = some x → ∀ u y, u ≠ t → sys.sessions u = some y →
      ∀ k ∈ x.held, k ∉ y.held)
    (behind : ∀ x, new = some x → ∀ c ∈ x.log, ∀ k ∈ parts.touches c, k ∈ x.held)
    (views : ∀ x, new = some x → ∀ k, P k (parts.part k (engine.view sys.committed x))) :
    parts.Consistent P (Engine.withSession sys t new) := by
  refine ⟨?_, ?_, h.committed, ?_⟩
  · intro a b x y hx hy hab k hkx hky
    simp only [Engine.withSession, Function.update_apply] at hx hy
    by_cases ha : a = t
    · rw [if_pos ha] at hx
      rw [if_neg (by rintro rfl; exact hab ha)] at hy
      exact exclusive x hx b y (by rintro rfl; exact hab ha) hy k hkx hky
    · rw [if_neg ha] at hx
      by_cases hb : b = t
      · rw [if_pos hb] at hy
        exact exclusive y hy a x ha hx k hky hkx
      · rw [if_neg hb] at hy
        exact h.exclusive a b x y hx hy hab k hkx hky
  · intro a x hx
    simp only [Engine.withSession, Function.update_apply] at hx
    by_cases ha : a = t
    · rw [if_pos ha] at hx
      exact behind x hx
    · rw [if_neg ha] at hx
      exact h.behind a x hx
  · intro a x hx
    simp only [Engine.withSession, Function.update_apply] at hx
    by_cases ha : a = t
    · rw [if_pos ha] at hx
      exact views x hx
    · rw [if_neg ha] at hx
      exact h.views a x hx

/-- What an attempted statement does to the invariant, when statements alone keep `P`. -/
theorem Consistent.attempt
    (keeps : ∀ stmt s changes, (∀ k, P k (parts.part k s)) →
      engine.execute stmt s = .ok changes →
      ∀ k, P k (parts.part k (changes.foldl engine.apply s)))
    (h : parts.Consistent P sys) {t : τ} {stmt : Stmt} (attempt : engine.Attempt sys t stmt sys') :
    parts.Consistent P sys' := by
  have hlocks {session : Session δ κ} (hs : sys.sessions t = some session)
      (free : engine.Free sys t stmt) (u : τ) (y : Session δ κ) (hu : u ≠ t)
      (hy : sys.sessions u = some y) : ∀ k ∈ session.held ++ engine.locks stmt, k ∉ y.held := by
    intro k hk
    rcases List.mem_append.mp hk with hk | hk
    · exact h.exclusive t u session y hs hy (Ne.symm hu) k hk
    · exact free u y hu hy k hk
  cases attempt with
  | @accepted session changes hs _ free hexec =>
      refine Consistent.withSession parts h ?_ ?_ ?_
      · rintro x hx u y hu hy
        cases hx
        exact hlocks hs free u y hu hy
      · rintro x hx c hc k hk
        cases hx
        rcases List.mem_append.mp hc with hc | hc
        · exact List.mem_append_left _ (h.behind t session hs c hc k hk)
        · exact List.mem_append_right _ (parts.confined hexec c hc k hk)
      · rintro x hx
        cases hx
        simp only [view, List.foldl_append]
        exact keeps stmt _ changes (h.views t session hs) hexec
  | @rejected session error hs _ free hexec =>
      refine Consistent.withSession parts h ?_ ?_ ?_
      · rintro x hx u y hu hy
        cases hx
        exact hlocks hs free u y hu hy
      · rintro x hx c hc k hk
        cases hx
        exact List.mem_append_left _ (h.behind t session hs c hc k hk)
      · rintro x hx
        cases hx
        exact h.views t session hs
  | refused _ _ => exact h

/-- Committing moves one view into the committed state; the other views keep the
parts they have locked and see the new parts elsewhere. -/
theorem Consistent.commit (h : parts.Consistent P sys) {t : τ} {session : Session δ κ}
    (hs : sys.sessions t = some session) :
    parts.Consistent P (Engine.withSession
      { sys with committed := engine.view sys.committed session } t none) := by
  refine ⟨?_, ?_, h.views t session hs, ?_⟩
  · intro a b x y hx hy
    simp only [Engine.withSession, Function.update_apply] at hx hy
    by_cases ha : a = t
    · simp [ha] at hx
    · by_cases hb : b = t
      · simp [hb] at hy
      · rw [if_neg ha] at hx
        rw [if_neg hb] at hy
        exact h.exclusive a b x y hx hy
  · intro a x hx
    simp only [Engine.withSession, Function.update_apply] at hx
    by_cases ha : a = t
    · simp [ha] at hx
    · rw [if_neg ha] at hx
      exact h.behind a x hx
  · intro a x hx k
    simp only [Engine.withSession, Function.update_apply] at hx
    by_cases ha : a = t
    · simp [ha] at hx
    rw [if_neg ha] at hx
    by_cases hk : k ∈ x.held
    · have hfree : ∀ c ∈ session.log, k ∉ parts.touches c := fun c hc hkc =>
        h.exclusive a t x session hx hs ha k hk (h.behind t session hs c hc k hkc)
      have hsame := parts.part_foldl (s := sys.committed) hfree
      have hview : parts.part k (engine.view (engine.view sys.committed session) x) =
          parts.part k (engine.view sys.committed x) := parts.part_foldl_congr hsame
      exact hview.symm ▸ h.views a x hx k
    · have hfree : ∀ c ∈ x.log, k ∉ parts.touches c := fun c hc hkc =>
        hk (h.behind a x hx c hc k hkc)
      exact (parts.part_foldl hfree).symm ▸ h.views t session hs k

theorem Consistent.step
    (keeps : ∀ stmt s changes, (∀ k, P k (parts.part k s)) →
      engine.execute stmt s = .ok changes →
      ∀ k, P k (parts.part k (changes.foldl engine.apply s)))
    (h : parts.Consistent P sys) (hstep : engine.Step sys sys') : parts.Consistent P sys' := by
  cases hstep with
  | start _ =>
      refine Consistent.withSession parts h ?_ ?_ ?_
      · rintro x hx
        cases hx
        simp
      · rintro x hx
        cases hx
        simp
      · rintro x hx
        cases hx
        exact h.committed
  | statement attempt => exact Consistent.attempt parts keeps h attempt
  | commit hs _ => exact Consistent.commit parts h hs
  | rollback _ =>
      refine Consistent.withSession parts h ?_ ?_ ?_ <;> · intro x hx; cases hx

/-- The rule of the library: what every statement keeps alone holds throughout. -/
theorem consistent_of_reachable {initial : σ}
    (keeps : ∀ stmt s changes, (∀ k, P k (parts.part k s)) →
      engine.execute stmt s = .ok changes →
      ∀ k, P k (parts.part k (changes.foldl engine.apply s)))
    (hinit : ∀ k, P k (parts.part k initial)) (h : engine.Reachable initial sys) :
    parts.Consistent P sys := by
  induction h with
  | init =>
      refine ⟨?_, ?_, hinit, ?_⟩
      · intro t u x y hx
        cases hx
      · intro t x hx
        cases hx
      · intro t x hx
        cases hx
  | step _ hstep ih => exact Consistent.step parts keeps ih hstep

end Invariant

end Parts

/-- Transactions of one statement each, one after another; a rejected one changes nothing. -/
def serial (engine : Engine σ δ κ Stmt ε) (stmts : List Stmt) (s : σ) : σ :=
  stmts.foldl (fun s stmt => match engine.execute stmt s with
    | .ok changes => changes.foldl engine.apply s
    | .error _ => s) s

/-- A statement that runs alone in its transaction, while no other is open. -/
theorem Reachable.alone {engine : Engine σ δ κ Stmt ε} {initial s : σ} {stmt : Stmt}
    {changes : List δ} (t : τ)
    (h : engine.Reachable initial (⟨s, fun _ => none⟩ : System σ δ κ τ))
    (hexec : engine.execute stmt s = .ok changes) :
    engine.Reachable initial (⟨changes.foldl engine.apply s, fun _ => none⟩ : System σ δ κ τ) := by
  let session : Session δ κ := ⟨[], [], false⟩
  have hopen : (withSession (⟨s, fun _ => none⟩ : System σ δ κ τ) t (some session)).sessions t =
      some session := by simp [withSession]
  have hfree : engine.Free (withSession (⟨s, fun _ => none⟩ : System σ δ κ τ) t
      (some session)) t stmt := by
    intro other found hne hfound
    simp [withSession, hne] at hfound
  have hstarted := h.step (.start (t := t) rfl)
  have hran := hstarted.step (.statement (.accepted hopen rfl hfree hexec))
  have hdone := hran.step (.commit (t := t) (by simp [withSession]; rfl) rfl)
  simpa [withSession, view, session, Function.update_idem, Function.update_eq_self] using hdone

theorem Reachable.serial {engine : Engine σ δ κ Stmt ε} {initial s : σ} (t : τ)
    (h : engine.Reachable initial (⟨s, fun _ => none⟩ : System σ δ κ τ)) (stmts : List Stmt) :
    engine.Reachable initial (⟨engine.serial stmts s, fun _ => none⟩ : System σ δ κ τ) := by
  induction stmts generalizing s with
  | nil => exact h
  | cons stmt rest ih =>
      rw [Engine.serial, List.foldl_cons]
      cases hexec : engine.execute stmt s with
      | ok changes => exact ih (h.alone t hexec)
      | error error => exact ih h

/-- The engine as a client drives it, whose calls stand for statements. -/
def comap {Call : Type*} (engine : Engine σ δ κ Stmt ε) (client : Call → Stmt) :
    Engine σ δ κ Call ε where
  apply := engine.apply
  execute := fun call => engine.execute (client call)
  locks := fun call => engine.locks (client call)

/-- The parts of an engine are the parts of it under any client. -/
def Parts.comap {Call : Type*} {engine : Engine σ δ κ Stmt ε} {π : κ → Type u}
    (parts : engine.Parts π) (client : Call → Stmt) : (engine.comap client).Parts π where
  part := parts.part
  touches := parts.touches
  part_apply := parts.part_apply
  part_congr := parts.part_congr
  confined := parts.confined

/-- What is seen somewhere in the system: the committed state, or the view of an open
transaction. -/
def Sees (engine : Engine σ δ κ Stmt ε) (sys : System σ δ κ τ) (s : σ) : Prop :=
  s = sys.committed ∨
    ∃ t session, sys.sessions t = some session ∧ s = engine.view sys.committed session

omit [DecidableEq τ] in
theorem Parts.Consistent.sees {engine : Engine σ δ κ Stmt ε} {π : κ → Type u}
    {parts : engine.Parts π} {P : (k : κ) → π k → Prop} {sys : System σ δ κ τ} {s : σ}
    (h : parts.Consistent P sys) (hs : engine.Sees sys s) : ∀ k, P k (parts.part k s) := by
  rcases hs with rfl | ⟨t, session, hsession, rfl⟩
  · exact h.committed
  · exact h.views t session hsession

/-- A statement that the engine rejects changes neither the committed state nor
any transaction's view. -/
theorem Attempt.unchanged {engine : Engine σ δ κ Stmt ε} {sys sys' : System σ δ κ τ} {t : τ}
    {stmt : Stmt} {session : Session δ κ} {error : ε} (hs : sys.sessions t = some session)
    (hreject : engine.execute stmt (engine.view sys.committed session) = .error error)
    (attempt : engine.Attempt sys t stmt sys') :
    sys'.committed = sys.committed ∧ ∀ u,
      (sys'.sessions u).map (engine.view sys'.committed) =
        (sys.sessions u).map (engine.view sys.committed) := by
  cases attempt with
  | accepted hs' _ _ hexec =>
      rw [hs] at hs'
      cases hs'
      rw [hreject] at hexec
      cases hexec
  | @rejected session' _ hs' _ _ _ =>
      refine ⟨rfl, fun u => ?_⟩
      by_cases hu : u = t
      · subst hu
        simp [withSession, hs', view]
      · simp [withSession, hu]
  | refused _ _ => exact ⟨rfl, fun _ => rfl⟩

end Engine

end RowLocks
