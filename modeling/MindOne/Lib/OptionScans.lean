import Mathlib.Data.List.Basic

/-!
# Command lines read by position

A parser scans its tokens from left to right. An option takes a fixed number of the
tokens behind it, whatever they look like, and writes one setting; the last write of a
setting counts. A token in the place of an option that is none, and an option without
its tokens, are errors. What a part of a command line writes is independent of what
stands before it, once the option that waits for tokens is known.
-/

universe u v w

namespace OptionScans

/-- What an option does. -/
structure Entry (τ : Type u) (σ : Type v) (ν : Type w) where
  setting : σ
  arity : Nat
  value : List τ → ν

/-- The options that a parser knows. -/
abbrev Table (τ : Type u) (σ : Type v) (ν : Type w) := τ → Option (Entry τ σ ν)

/-- Between two tokens: what was written, and the option that waits for tokens. -/
structure Reading (τ : Type u) (σ : Type v) (ν : Type w) where
  writes : List (σ × ν)
  pending : Option (Entry τ σ ν × List τ)

variable {τ : Type u} {σ : Type v} {ν : Type w}

/-- Nothing was read. -/
def Reading.start : Reading τ σ ν := ⟨[], none⟩

/-- One more token of an option. -/
def take (writes : List (σ × ν)) (entry : Entry τ σ ν) (values : List τ) : Reading τ σ ν :=
  if entry.arity ≤ values.length then ⟨writes ++ [(entry.setting, entry.value values)], none⟩
  else ⟨writes, some (entry, values)⟩

section Scan
variable (table : Table τ σ ν)

def read (reading : Reading τ σ ν) (token : τ) : Option (Reading τ σ ν) :=
  match reading.pending with
  | some (entry, values) => some (take reading.writes entry (values ++ [token]))
  | none => (table token).map fun entry => take reading.writes entry []

def readAll (reading : Reading τ σ ν) (tokens : List τ) : Option (Reading τ σ ν) :=
  tokens.foldlM (read table) reading

/-- The writes of a whole command line. -/
def parse (tokens : List τ) : Option (List (σ × ν)) :=
  (readAll table .start tokens).bind fun reading =>
    if reading.pending.isNone then some reading.writes else none

end Scan

/-- The last write of a setting. -/
def last [DecidableEq σ] (writes : List (σ × ν)) (setting : σ) : Option ν :=
  ((writes.filter fun entry => entry.1 = setting).getLast?).map Prod.snd

section Lemmas
variable {table : Table τ σ ν} {reading : Reading τ σ ν}

theorem last_append [DecidableEq σ] (a b : List (σ × ν)) (setting : σ) :
    last (a ++ b) setting = (last b setting).or (last a setting) := by
  simp only [last, List.filter_append, List.getLast?_append]
  cases (b.filter fun entry => decide (entry.1 = setting)).getLast? with
  | none => rfl
  | some entry => rfl

theorem take_shift (before writes : List (σ × ν)) (entry : Entry τ σ ν) (values : List τ) :
    take (before ++ writes) entry values =
      ⟨before ++ (take writes entry values).writes, (take writes entry values).pending⟩ := by
  simp only [take]
  split
  · rw [List.append_assoc]
  · rfl

/-- What was written before does not matter for what is read next. -/
theorem readAll_shift (before : List (σ × ν)) (reading : Reading τ σ ν) (tokens : List τ) :
    readAll table ⟨before ++ reading.writes, reading.pending⟩ tokens =
      (readAll table reading tokens).map fun after => ⟨before ++ after.writes, after.pending⟩ := by
  induction tokens generalizing reading with
  | nil => rfl
  | cons token rest ih =>
      have hread : read table ⟨before ++ reading.writes, reading.pending⟩ token =
          (read table reading token).map
            fun after => ⟨before ++ after.writes, after.pending⟩ := by
        simp only [read]
        split
        · rw [take_shift]
          rfl
        · cases table token with
          | none => rfl
          | some entry => simp only [Option.map_some, take_shift]
      simp only [readAll, List.foldlM_cons] at ih ⊢
      rw [hread]
      cases read table reading token with
      | none => rfl
      | some after => exact ih after

theorem readAll_append (tokens tokens' : List τ) :
    readAll table reading (tokens ++ tokens') =
      (readAll table reading tokens).bind fun after => readAll table after tokens' := by
  simp only [readAll, List.foldlM_append, Option.bind_eq_bind]

/-- A part of a command line is read from the option that waits before it. -/
theorem readAll_append_eq_some {tokens tokens' : List τ} {after : Reading τ σ ν} :
    readAll table reading (tokens ++ tokens') = some after ↔
      ∃ front back, readAll table reading tokens = some front ∧
        readAll table ⟨[], front.pending⟩ tokens' = some back ∧
        after = ⟨front.writes ++ back.writes, back.pending⟩ := by
  rw [readAll_append, Option.bind_eq_some_iff]
  constructor
  · rintro ⟨front, hfront, hback⟩
    have hshift := @readAll_shift _ _ _ table front.writes ⟨[], front.pending⟩ tokens'
    rw [List.append_nil] at hshift
    rw [hshift, Option.map_eq_some_iff] at hback
    obtain ⟨back, hback, hafter⟩ := hback
    exact ⟨front, back, hfront, hback, hafter.symm⟩
  · rintro ⟨front, back, hfront, hback, rfl⟩
    refine ⟨front, hfront, ?_⟩
    have hshift := @readAll_shift _ _ _ table front.writes ⟨[], front.pending⟩ tokens'
    rw [List.append_nil] at hshift
    rw [hshift, hback]
    rfl

theorem parse_eq_some {tokens : List τ} {writes : List (σ × ν)} :
    parse table tokens = some writes ↔ readAll table .start tokens = some ⟨writes, none⟩ := by
  simp only [parse, Option.bind_eq_some_iff, Option.ite_none_right_eq_some,
    Option.isNone_iff_eq_none, Option.some.injEq]
  constructor
  · rintro ⟨⟨_, _⟩, hread, rfl, rfl⟩
    exact hread
  · intro hread
    exact ⟨_, hread, rfl, rfl⟩

end Lemmas

section Known
variable {table : Table τ σ ν}

/-- An option with one token, which is the value it writes. -/
def Takes (table : Table τ σ τ) (option : τ) (setting : σ) : Prop :=
  ∃ entry, table option = some entry ∧ entry.setting = setting ∧ entry.arity = 1 ∧
    ∀ token, entry.value [token] = token

/-- An option without tokens. -/
def Switches (table : Table τ σ ν) (option : τ) (setting : σ) (value : ν) : Prop :=
  ∃ entry, table option = some entry ∧ entry.setting = setting ∧ entry.arity = 0 ∧
    entry.value [] = value

/-- Tokens that are complete options, with what they write. -/
def Writes (table : Table τ σ ν) (tokens : List τ) (writes : List (σ × ν)) : Prop :=
  readAll table .start tokens = some ⟨writes, none⟩

theorem Writes.nil : Writes table [] [] := rfl

theorem Writes.append {tokens tokens' : List τ} {writes writes' : List (σ × ν)}
    (h : Writes table tokens writes) (h' : Writes table tokens' writes') :
    Writes table (tokens ++ tokens') (writes ++ writes') :=
  readAll_append_eq_some.mpr ⟨_, _, h, h', rfl⟩

theorem Takes.writes {table : Table τ σ τ} {option token : τ} {setting : σ}
    (h : Takes table option setting) : Writes table [option, token] [(setting, token)] := by
  obtain ⟨entry, hentry, rfl, harity, hvalue⟩ := h
  simp [Writes, readAll, read, take, Reading.start, hentry, harity, hvalue]

theorem Switches.writes {option : τ} {setting : σ} {value : ν}
    (h : Switches table option setting value) : Writes table [option] [(setting, value)] := by
  obtain ⟨entry, hentry, rfl, harity, rfl⟩ := h
  simp [Writes, readAll, read, take, Reading.start, hentry, harity]

theorem Takes.writes_cons {table : Table τ σ τ} {option token : τ} {setting : σ}
    {tokens : List τ} {writes : List (σ × τ)} (h : Takes table option setting)
    (hrest : Writes table tokens writes) :
    Writes table (option :: token :: tokens) ((setting, token) :: writes) :=
  h.writes.append hrest

theorem Switches.writes_cons {option : τ} {setting : σ} {value : ν} {tokens : List τ}
    {writes : List (σ × ν)} (h : Switches table option setting value)
    (hrest : Writes table tokens writes) :
    Writes table (option :: tokens) ((setting, value) :: writes) :=
  h.writes.append hrest

end Known

section Origin
variable {table : Table τ σ ν} {known : σ → Prop}

/-- The settings of what was written and of the option that waits. -/
def Among (known : σ → Prop) (reading : Reading τ σ ν) : Prop :=
  (∀ write ∈ reading.writes, known write.1) ∧ ∀ waiting ∈ reading.pending, known waiting.1.setting

theorem among_take {writes : List (σ × ν)} {entry : Entry τ σ ν} {values : List τ}
    (hwrites : ∀ write ∈ writes, known write.1) (hentry : known entry.setting) :
    Among known (take writes entry values) := by
  simp only [take]
  split
  · refine ⟨fun write hwrite => ?_, by rintro _ ⟨⟩⟩
    rcases List.mem_append.mp hwrite with hmem | hmem
    · exact hwrites write hmem
    · rw [List.mem_singleton.mp hmem]
      exact hentry
  · refine ⟨hwrites, ?_⟩
    rintro _ ⟨⟩
    exact hentry

/-- Options write the settings that the table gives to their tokens. -/
theorem among_readAll {reading after : Reading τ σ ν} {tokens : List τ}
    (h : readAll table reading tokens = some after) (hreading : Among known reading)
    (htokens : ∀ token ∈ tokens, ∀ entry, table token = some entry → known entry.setting) :
    Among known after := by
  induction tokens generalizing reading with
  | nil =>
      cases h
      exact hreading
  | cons token rest ih =>
      rw [readAll, List.foldlM_cons, Option.bind_eq_bind, Option.bind_eq_some_iff] at h
      obtain ⟨middle, hmiddle, hrest⟩ := h
      refine ih hrest ?_ fun other hother => htokens other (List.mem_cons_of_mem _ hother)
      simp only [read] at hmiddle
      split at hmiddle
      · rename_i entry values hpending
        cases hmiddle
        exact among_take hreading.1 (hreading.2 _ hpending)
      · obtain ⟨entry, hentry, rfl⟩ := Option.map_eq_some_iff.mp hmiddle
        exact among_take hreading.1 (htokens token List.mem_cons_self entry hentry)

end Origin

end OptionScans
