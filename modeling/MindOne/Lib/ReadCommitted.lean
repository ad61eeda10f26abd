import Mathlib.Data.List.Basic
import Mathlib.Data.Fintype.Defs
import Mathlib.Logic.Function.Basic
import Mathlib.Order.Defs.PartialOrder

/-!
# Transactions that read committed rows

A transaction runs one statement after another. A statement reads a snapshot of
what is committed when it is issued, may then wait for locks, and acts on the
rows as they are once it has them. Locks are kept to the end of the transaction,
its changes reach the committed state when it commits, and the clock runs on in
between. A bound on what stands behind each lock survives every interleaving
when a transaction only commits what it knows to be within the bound, and
changes behind a lock that it does not hold make nothing larger there.
-/

universe u v w x y z a

namespace ReadCommitted

variable {T : Type u} {σ : Type v} {δ : Type w} {κ : Type x} {μ : Type y} {Stmt : Type z}
  {τ : Type a}

/-- How statements compute changes from the memory of their transaction, the
instant it began, their snapshot and the current rows. -/
structure Engine (T : Type u) (σ : Type v) (δ : Type w) (κ : Type x) (μ : Type y)
    (Stmt : Type z) where
  opened : μ
  apply : σ → δ → σ
  locks : Stmt → μ → List κ
  execute : Stmt → μ → T → σ → σ → Option (μ × List δ)
  mayCommit : μ → Prop

/-- An open transaction, with the statement it waits for and its snapshot. -/
structure Session (T : Type u) (σ : Type v) (δ : Type w) (κ : Type x) (μ : Type y)
    (Stmt : Type z) where
  began : T
  memory : μ
  log : List δ
  held : List κ
  waiting : Option (Stmt × σ)

structure System (T : Type u) (σ : Type v) (δ : Type w) (κ : Type x) (μ : Type y)
    (Stmt : Type z) (τ : Type a) where
  clock : T
  committed : σ
  sessions : τ → Option (Session T σ δ κ μ Stmt)

/-- No other transaction holds one of the locks. -/
def System.Free (sys : System T σ δ κ μ Stmt τ) (t : τ) (locks : List κ) : Prop :=
  ∀ other session, other ≠ t → sys.sessions other = some session →
    ∀ k ∈ locks, k ∉ session.held

namespace Engine
variable (engine : Engine T σ δ κ μ Stmt)

/-- What a transaction sees: the committed rows under its own changes. -/
def view (committed : σ) (session : Session T σ δ κ μ Stmt) : σ :=
  session.log.foldl engine.apply committed

def begin (now : T) : Session T σ δ κ μ Stmt := ⟨now, engine.opened, [], [], none⟩

/-- The transaction after a statement has run. -/
def ran (session : Session T σ δ κ μ Stmt) (stmt : Stmt) (memory : μ) (changes : List δ) :
    Session T σ δ κ μ Stmt :=
  { session with
    memory
    log := session.log ++ changes
    held := session.held ++ engine.locks stmt session.memory
    waiting := none }

theorem view_ran (committed : σ) (session : Session T σ δ κ μ Stmt) (stmt : Stmt) (memory : μ)
    (changes : List δ) : engine.view committed (engine.ran session stmt memory changes) =
      changes.foldl engine.apply (engine.view committed session) := List.foldl_append

end Engine

variable [DecidableEq τ]

/-- The system after a transaction changed its own session. -/
def System.put (sys : System T σ δ κ μ Stmt τ) (t : τ)
    (session : Option (Session T σ δ κ μ Stmt)) : System T σ δ κ μ Stmt τ :=
  { sys with sessions := Function.update sys.sessions t session }

theorem System.sessions_put {sys : System T σ δ κ μ Stmt τ} {t other : τ}
    {session : Option (Session T σ δ κ μ Stmt)} {found : Session T σ δ κ μ Stmt}
    (h : (sys.put t session).sessions other = some found) :
    (other = t ∧ session = some found) ∨ (other ≠ t ∧ sys.sessions other = some found) := by
  simp only [put, Function.update_apply] at h
  by_cases ht : other = t
  · rw [if_pos ht] at h
    exact .inl ⟨ht, h⟩
  · rw [if_neg ht] at h
    exact .inr ⟨ht, h⟩

section Runs
variable [LE T] (engine : Engine T σ δ κ μ Stmt) (elsewhere : σ → σ → Prop)
  (allowed : T → T → Stmt → μ → σ → σ → Prop)

/-- The steps of the system: the clock runs on, something else commits, or one of
the transactions goes on. -/
inductive Step (sys : System T σ δ κ μ Stmt τ) : System T σ δ κ μ Stmt τ → Prop
  | tick {now : T} : sys.clock ≤ now → Step sys { sys with clock := now }
  | elsewhere {next : σ} : elsewhere sys.committed next → Step sys { sys with committed := next }
  | start {t : τ} : sys.sessions t = none → Step sys (sys.put t (some (engine.begin sys.clock)))
  | issue {t : τ} {session : Session T σ δ κ μ Stmt} {stmt : Stmt} :
      sys.sessions t = some session → session.waiting = none →
      Step sys (sys.put t (some
        { session with waiting := some (stmt, engine.view sys.committed session) }))
  | grant {t : τ} {session : Session T σ δ κ μ Stmt} {stmt : Stmt} {snapshot : σ} {memory : μ}
      {changes : List δ} :
      sys.sessions t = some session → session.waiting = some (stmt, snapshot) →
      sys.Free t (engine.locks stmt session.memory) →
      engine.execute stmt session.memory session.began snapshot
        (engine.view sys.committed session) = some (memory, changes) →
      allowed session.began sys.clock stmt session.memory snapshot
        (engine.view sys.committed session) →
      Step sys (sys.put t (some (engine.ran session stmt memory changes)))
  | commit {t : τ} {session : Session T σ δ κ μ Stmt} :
      sys.sessions t = some session → session.waiting = none → engine.mayCommit session.memory →
      Step sys ({ sys with committed := engine.view sys.committed session }.put t none)
  | rollback {t : τ} {session : Session T σ δ κ μ Stmt} :
      sys.sessions t = some session → Step sys (sys.put t none)

/-- The systems reached from committed rows without open transactions. -/
inductive Reachable (clock : T) (initial : σ) : System T σ δ κ μ Stmt τ → Prop
  | init : Reachable clock initial ⟨clock, initial, fun _ => none⟩
  | step {sys sys' : System T σ δ κ μ Stmt τ} : Reachable clock initial sys →
      Step engine elsewhere allowed sys sys' → Reachable clock initial sys'

end Runs

section Schedules
variable [LE T] [DecidableLE T] [DecidableEq κ] [Fintype τ] (engine : Engine T σ δ κ μ Stmt)
  [DecidablePred engine.mayCommit] {elsewhere : σ → σ → Prop}
  (allowed : T → T → Stmt → μ → σ → σ → Prop)
  [∀ began now stmt memory snapshot current,
    Decidable (allowed began now stmt memory snapshot current)]

/-- The moves of one interleaving. -/
inductive Move (T : Type u) (Stmt : Type z) (τ : Type a) where
  | tick (now : T)
  | start (t : τ)
  | issue (t : τ) (stmt : Stmt)
  | grant (t : τ)
  | commit (t : τ)

omit [LE T] [DecidableLE T] in
instance (sys : System T σ δ κ μ Stmt τ) (t : τ) (locks : List κ) :
    Decidable (sys.Free t locks) :=
  decidable_of_iff (∀ other, other ≠ t → ∀ session ∈ sys.sessions other,
    ∀ k ∈ locks, k ∉ session.held) <| by
    constructor
    · intro h other session hne hs
      exact h other hne session hs
    · intro h other hne session hs
      exact h other session hne hs

/-- The statement that a transaction waits for, when it can run now. -/
def granted (sys : System T σ δ κ μ Stmt τ) (t : τ) (session : Session T σ δ κ μ Stmt)
    (stmt : Stmt) (snapshot : σ) : Option (System T σ δ κ μ Stmt τ) :=
  let current := engine.view sys.committed session
  if sys.Free t (engine.locks stmt session.memory) ∧
      allowed session.began sys.clock stmt session.memory snapshot current then
    (engine.execute stmt session.memory session.began snapshot current).map
      fun (memory, changes) => sys.put t (some (engine.ran session stmt memory changes))
  else none

def play (sys : System T σ δ κ μ Stmt τ) : Move T Stmt τ → Option (System T σ δ κ μ Stmt τ)
  | .tick now => if sys.clock ≤ now then some { sys with clock := now } else none
  | .start t =>
      match sys.sessions t with
      | none => some (sys.put t (some (engine.begin sys.clock)))
      | some _ => none
  | .issue t stmt =>
      match sys.sessions t with
      | none => none
      | some session =>
          if session.waiting.isNone = true then
            some (sys.put t (some
              { session with waiting := some (stmt, engine.view sys.committed session) }))
          else none
  | .grant t =>
      match sys.sessions t with
      | none => none
      | some session =>
          session.waiting.bind fun (stmt, snapshot) =>
            granted engine allowed sys t session stmt snapshot
  | .commit t =>
      match sys.sessions t with
      | none => none
      | some session =>
          if session.waiting.isNone = true ∧ engine.mayCommit session.memory then
            some ({ sys with committed := engine.view sys.committed session }.put t none)
          else none

variable {engine allowed} {sys sys' : System T σ δ κ μ Stmt τ}

theorem play_step {move : Move T Stmt τ} (h : play engine allowed sys move = some sys') :
    Step engine elsewhere allowed sys sys' := by
  cases move with
  | tick now =>
      simp only [play, Option.ite_none_right_eq_some] at h
      obtain ⟨hnow, hsys⟩ := h
      cases hsys
      exact .tick hnow
  | start t =>
      cases hs : sys.sessions t with
      | none =>
          simp only [play, hs] at h
          cases h
          exact .start hs
      | some session => simp [play, hs] at h
  | issue t stmt =>
      cases hs : sys.sessions t with
      | none => simp [play, hs] at h
      | some session =>
          simp only [play, hs, Option.ite_none_right_eq_some, Option.isNone_iff_eq_none] at h
          obtain ⟨hw, hsys⟩ := h
          cases hsys
          exact .issue hs hw
  | grant t =>
      cases hs : sys.sessions t with
      | none => simp [play, hs] at h
      | some session =>
          simp only [play, hs, Option.bind_eq_some_iff] at h
          obtain ⟨⟨stmt, snapshot⟩, hw, hgranted⟩ := h
          simp only [granted, Option.ite_none_right_eq_some, Option.map_eq_some_iff] at hgranted
          obtain ⟨⟨free, hallowed⟩, ⟨memory, changes⟩, hexec, hsys⟩ := hgranted
          cases hsys
          exact .grant hs hw free hexec hallowed
  | commit t =>
      cases hs : sys.sessions t with
      | none => simp [play, hs] at h
      | some session =>
          simp only [play, hs, Option.ite_none_right_eq_some, Option.isNone_iff_eq_none] at h
          obtain ⟨⟨hw, hmay⟩, hsys⟩ := h
          cases hsys
          exact .commit hs hw hmay

/-- What a schedule reaches is reachable. -/
theorem Reachable.playAll {clock : T} {initial : σ}
    (h : Reachable engine elsewhere allowed clock initial sys) {moves : List (Move T Stmt τ)}
    (hplay : moves.foldlM (play engine allowed) sys = some sys') :
    Reachable engine elsewhere allowed clock initial sys' := by
  induction moves generalizing sys with
  | nil =>
      cases hplay
      exact h
  | cons move moves ih =>
      rw [List.foldlM_cons, Option.bind_eq_bind, Option.bind_eq_some_iff] at hplay
      obtain ⟨next, hnext, hrest⟩ := hplay
      exact ih (h.step (play_step hnext)) hrest

end Schedules

/-- A bound behind each lock, and what a transaction has to know about it. -/
structure Guard [LE T] (engine : Engine T σ δ κ μ Stmt) (elsewhere : σ → σ → Prop)
    (allowed : T → T → Stmt → μ → σ → σ → Prop) where
  le : κ → σ → σ → Prop
  bounded : κ → T → σ → Prop
  relies : μ → κ → Prop
  knows : κ → μ → T → T → σ → Prop
  le_refl {k s} : le k s s
  le_trans {k s s' s''} : le k s s' → le k s' s'' → le k s s''
  apply_mono {k s s' c} : le k s s' → le k (engine.apply s c) (engine.apply s' c)
  elsewhere_le {k s s'} : elsewhere s s' → le k s' s
  bounded_mono {k now s s'} : le k s' s → bounded k now s → bounded k now s'
  bounded_later {k now now' s} : now ≤ now' → bounded k now s → bounded k now' s
  knows_mono {k memory began now s s'} : le k s' s → knows k memory began now s →
    knows k memory began now s'
  knows_later {k memory began now now' s} : now ≤ now' → knows k memory began now s →
    knows k memory began now' s
  relies_opened {k} : ¬ relies engine.opened k
  commits {k memory began now s} : engine.mayCommit memory → knows k memory began now s →
    began ≤ now → bounded k now s
  relies_execute {k stmt memory began snapshot current memory' changes} :
    engine.execute stmt memory began snapshot current = some (memory', changes) →
    relies memory' k → relies memory k ∨ k ∈ engine.locks stmt memory
  shrinks {k stmt memory began snapshot current memory' changes} :
    engine.execute stmt memory began snapshot current = some (memory', changes) →
    ¬ relies memory' k → ∀ s, le k (changes.foldl engine.apply s) s
  learns_held {k stmt memory began now snapshot current memory' changes} :
    engine.execute stmt memory began snapshot current = some (memory', changes) →
    allowed began now stmt memory snapshot current → began ≤ now → le k current snapshot →
    knows k memory began now current →
    knows k memory' began now (changes.foldl engine.apply current)
  learns_locked {k stmt memory began now snapshot current memory' changes} :
    engine.execute stmt memory began snapshot current = some (memory', changes) →
    allowed began now stmt memory snapshot current → began ≤ now → k ∈ engine.locks stmt memory →
    ¬ relies memory k → bounded k now current →
    knows k memory' began now (changes.foldl engine.apply current)

namespace Guard
variable [Preorder T] {engine : Engine T σ δ κ μ Stmt} {elsewhere : σ → σ → Prop}
  {allowed : T → T → Stmt → μ → σ → σ → Prop} (guard : Guard engine elsewhere allowed)

omit [DecidableEq τ] in
theorem foldl_mono {k : κ} {log : List δ} {s s' : σ} (h : guard.le k s s') :
    guard.le k (log.foldl engine.apply s) (log.foldl engine.apply s') := by
  induction log generalizing s s' with
  | nil => exact h
  | cons c log ih => exact ih (guard.apply_mono h)

/-- What holds of one open transaction. -/
structure Keeps (clock : T) (committed : σ) (session : Session T σ δ κ μ Stmt) : Prop where
  begun : session.began ≤ clock
  relies : ∀ k, guard.relies session.memory k → k ∈ session.held
  knows : ∀ k ∈ session.held,
    guard.knows k session.memory session.began clock (engine.view committed session)
  shrinks : ∀ k, k ∉ session.held → ∀ s, guard.le k (session.log.foldl engine.apply s) s
  current : ∀ stmt snapshot, session.waiting = some (stmt, snapshot) → ∀ k ∈ session.held,
    guard.le k (engine.view committed session) snapshot

/-- The invariant of the interleavings: locks are exclusive, and the bound holds of
what is committed. -/
structure Sound (sys : System T σ δ κ μ Stmt τ) : Prop where
  exclusive : ∀ t u x y, sys.sessions t = some x → sys.sessions u = some y → t ≠ u →
    ∀ k ∈ x.held, k ∉ y.held
  bounded : ∀ k, guard.bounded k sys.clock sys.committed
  keeps : ∀ t x, sys.sessions t = some x → guard.Keeps sys.clock sys.committed x

section Sessions
variable {clock : T} {committed : σ} {session : Session T σ δ κ μ Stmt}

omit [DecidableEq τ] in
theorem Keeps.later (h : guard.Keeps clock committed session) {now : T} (hnow : clock ≤ now) :
    guard.Keeps now committed session :=
  ⟨Preorder.le_trans _ _ _ h.begun hnow, h.relies,
    fun k hk => guard.knows_later hnow (h.knows k hk), h.shrinks, h.current⟩

omit [DecidableEq τ] in
/-- A transaction loses nothing when the rows behind its locks get fewer. -/
theorem Keeps.mono (h : guard.Keeps clock committed session) {next : σ}
    (hle : ∀ k ∈ session.held, guard.le k next committed) :
    guard.Keeps clock next session := by
  have hview : ∀ k ∈ session.held,
      guard.le k (engine.view next session) (engine.view committed session) :=
    fun k hk => guard.foldl_mono (hle k hk)
  exact ⟨h.begun, h.relies, fun k hk => guard.knows_mono (hview k hk) (h.knows k hk), h.shrinks,
    fun stmt snapshot hw k hk => guard.le_trans (hview k hk) (h.current stmt snapshot hw k hk)⟩

omit [DecidableEq τ] in
theorem keeps_begin : guard.Keeps clock committed (engine.begin clock) where
  begun := Preorder.le_refl clock
  relies := fun _ hk => absurd hk guard.relies_opened
  knows := fun _ hk => by cases hk
  shrinks := fun _ _ _ => guard.le_refl
  current := fun _ _ hw => by cases hw

omit [DecidableEq τ] in
theorem Keeps.issue (h : guard.Keeps clock committed session) (stmt : Stmt) :
    guard.Keeps clock committed
      { session with waiting := some (stmt, engine.view committed session) } := by
  refine ⟨h.begun, h.relies, h.knows, h.shrinks, ?_⟩
  rintro _ _ hw k _
  cases hw
  exact guard.le_refl

omit [DecidableEq τ] in
/-- A statement: what was known about a lock that is held, and the bound behind one
that is taken, give what the transaction knows afterwards. -/
theorem Keeps.ran (h : guard.Keeps clock committed session) {stmt : Stmt} {snapshot : σ}
    {memory : μ} {changes : List δ} (hbounded : ∀ k, guard.bounded k clock committed)
    (hw : session.waiting = some (stmt, snapshot))
    (hexec : engine.execute stmt session.memory session.began snapshot
      (engine.view committed session) = some (memory, changes))
    (hallowed : allowed session.began clock stmt session.memory snapshot
      (engine.view committed session)) :
    guard.Keeps clock committed (engine.ran session stmt memory changes) := by
  refine ⟨h.begun, ?_, ?_, ?_, ?_⟩
  · intro k hk
    rcases guard.relies_execute hexec hk with hk | hk
    · exact List.mem_append_left _ (h.relies k hk)
    · exact List.mem_append_right _ hk
  · intro k hk
    rw [engine.view_ran]
    by_cases hheld : k ∈ session.held
    · exact guard.learns_held hexec hallowed h.begun (h.current stmt snapshot hw k hheld)
        (h.knows k hheld)
    · have hlock : k ∈ engine.locks stmt session.memory := (List.mem_append.mp hk).resolve_left hheld
      exact guard.learns_locked hexec hallowed h.begun hlock (fun hr => hheld (h.relies k hr))
        (guard.bounded_mono (h.shrinks k hheld committed) (hbounded k))
  · intro k hk s
    obtain ⟨hheld, hlock⟩ := not_or.mp fun hor => hk (List.mem_append.mpr hor)
    have hrelies : ¬ guard.relies memory k := by
      intro hr
      rcases guard.relies_execute hexec hr with hr | hr
      · exact hheld (h.relies k hr)
      · exact hlock hr
    change guard.le k ((session.log ++ changes).foldl engine.apply s) s
    rw [List.foldl_append]
    exact guard.le_trans (guard.shrinks hexec hrelies _) (h.shrinks k hheld s)
  · intro _ _ hnone
    cases hnone

end Sessions

section Steps
variable {sys sys' : System T σ δ κ μ Stmt τ}

theorem Sound.put (h : guard.Sound sys) {t : τ} {session : Option (Session T σ δ κ μ Stmt)}
    (exclusive : ∀ x, session = some x → ∀ u y, u ≠ t → sys.sessions u = some y →
      ∀ k ∈ x.held, k ∉ y.held)
    (keeps : ∀ x, session = some x → guard.Keeps sys.clock sys.committed x) :
    guard.Sound (sys.put t session) := by
  refine ⟨?_, h.bounded, ?_⟩
  · intro a b x y hx hy hab k hkx hky
    rcases System.sessions_put hx with ⟨rfl, hx'⟩ | ⟨ha, hx'⟩ <;>
      rcases System.sessions_put hy with ⟨rfl, hy'⟩ | ⟨hb, hy'⟩
    · exact hab rfl
    · exact exclusive x hx' b y hb hy' k hkx hky
    · exact exclusive y hy' a x ha hx' k hky hkx
    · exact h.exclusive a b x y hx' hy' hab k hkx hky
  · intro a x hx
    rcases System.sessions_put hx with ⟨rfl, hx'⟩ | ⟨_, hx'⟩
    · exact keeps x hx'
    · exact h.keeps a x hx'

/-- A commit keeps the bound: behind the locks of the transaction because of what it
knows, elsewhere because its changes make nothing larger. -/
theorem Sound.commit (h : guard.Sound sys) {t : τ} {session : Session T σ δ κ μ Stmt}
    (hs : sys.sessions t = some session) (hmay : engine.mayCommit session.memory) :
    guard.Sound ({ sys with committed := engine.view sys.committed session }.put t none) := by
  have hkeeps := h.keeps t session hs
  refine ⟨?_, ?_, ?_⟩
  · intro a b x y hx hy hab
    rcases System.sessions_put hx with ⟨_, hx⟩ | ⟨_, hx⟩
    · cases hx
    · rcases System.sessions_put hy with ⟨_, hy⟩ | ⟨_, hy⟩
      · cases hy
      · exact h.exclusive a b x y hx hy hab
  · intro k
    by_cases hk : k ∈ session.held
    · exact guard.commits hmay (hkeeps.knows k hk) hkeeps.begun
    · exact guard.bounded_mono (hkeeps.shrinks k hk _) (h.bounded k)
  · intro a x hx
    rcases System.sessions_put hx with ⟨_, hx⟩ | ⟨ha, hx⟩
    · cases hx
    · refine Keeps.mono guard (h.keeps a x hx) fun k hk => ?_
      exact hkeeps.shrinks k (h.exclusive a t x session hx hs ha k hk) _

theorem Sound.step (h : guard.Sound sys) (hstep : Step engine elsewhere allowed sys sys') :
    guard.Sound sys' := by
  cases hstep with
  | tick hnow =>
      exact ⟨h.exclusive, fun k => guard.bounded_later hnow (h.bounded k),
        fun t x hx => Keeps.later guard (h.keeps t x hx) hnow⟩
  | elsewhere hnext =>
      exact ⟨h.exclusive, fun k => guard.bounded_mono (guard.elsewhere_le hnext) (h.bounded k),
        fun t x hx => Keeps.mono guard (h.keeps t x hx) fun _ _ => guard.elsewhere_le hnext⟩
  | start hnone =>
      refine Sound.put guard h ?_ ?_
      · rintro x hx u y _ _ k hk
        cases hx
        cases hk
      · rintro x hx
        cases hx
        exact keeps_begin guard
  | @issue t session stmt hs hw =>
      refine Sound.put guard h ?_ ?_
      · rintro x hx u y hu hy
        cases hx
        exact h.exclusive t u session y hs hy hu.symm
      · rintro x hx
        cases hx
        exact Keeps.issue guard (h.keeps t session hs) stmt
  | @grant t session stmt snapshot memory changes hs hw free hexec hallowed =>
      refine Sound.put guard h ?_ ?_
      · rintro x hx u y hu hy k hk
        cases hx
        rcases List.mem_append.mp hk with hk | hk
        · exact h.exclusive t u session y hs hy hu.symm k hk
        · exact free u y hu hy k hk
      · rintro x hx
        cases hx
        exact Keeps.ran guard (h.keeps t session hs) h.bounded hw hexec hallowed
  | commit hs _ hmay => exact Sound.commit guard h hs hmay
  | rollback hs =>
      refine Sound.put guard h ?_ ?_ <;> · intro x hx; cases hx

/-- The rule of the library: a bound that holds at the start holds at every moment
of every interleaving. -/
theorem sound_of_reachable {clock : T} {initial : σ}
    (hinit : ∀ k, guard.bounded k clock initial)
    (h : Reachable engine elsewhere allowed clock initial sys) : guard.Sound sys := by
  induction h with
  | init =>
      refine ⟨?_, hinit, ?_⟩
      · intro t u x y hx
        cases hx
      · intro t x hx
        cases hx
  | step _ hstep ih => exact Sound.step guard ih hstep

end Steps

end Guard

end ReadCommitted
