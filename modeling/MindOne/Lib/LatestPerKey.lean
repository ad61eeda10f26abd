import Mathlib.Data.Finset.Card
import Mathlib.Data.List.Basic

/-!
# The latest entry of each key of a log

A query that wants the newest entry of every key finds the entries that no other
entry of their key outdates. Where the entries of a key are appended in the order of
their age these are the last ones of their keys, one for each key, and what they say
does not depend on how the entries of different keys are interleaved.
-/

universe u v

namespace LatestPerKey

variable {α : Type u} {κ : Type v} [DecidableEq κ] (key : α → κ) (newer : α → α → Prop)
  [DecidableRel newer] (log : List α)

/-- The entries that no entry of their key outdates. -/
def newest : List α :=
  log.filter fun entry => ∀ other ∈ log, key other = key entry → ¬newer other entry

/-- The entry of a key that was appended last. -/
def lastOf (k : κ) : Option α := log.reverse.find? fun entry => key entry = k

/-- What is appended is newer than what is there of its key. -/
def Chronological : Prop :=
  log.Pairwise fun old entry => key old = key entry → newer entry old ∧ ¬newer old entry

variable {key newer log}

theorem lastOf_concat (entry : α) (k : κ) :
    lastOf key (log ++ [entry]) k = if key entry = k then some entry else lastOf key log k := by
  simp only [lastOf, List.reverse_append, List.reverse_singleton, List.singleton_append,
    List.find?_cons]
  split <;> simp_all

theorem key_of_lastOf {k : κ} {entry : α} (h : lastOf key log k = some entry) :
    key entry = k := by
  simpa using List.find?_some h

theorem mem_of_lastOf {k : κ} {entry : α} (h : lastOf key log k = some entry) : entry ∈ log :=
  List.mem_reverse.mp (List.mem_of_find?_eq_some h)

theorem lastOf_isSome {k : κ} : (lastOf key log k).isSome ↔ k ∈ log.map key := by
  simp [lastOf, List.find?_isSome]

omit [DecidableEq κ] [DecidableRel newer] in
theorem Chronological.of_concat {entry : α} (h : Chronological key newer (log ++ [entry])) :
    Chronological key newer log ∧
      ∀ old ∈ log, key old = key entry → newer entry old ∧ ¬newer old entry := by
  obtain ⟨hlog, -, hentry⟩ := List.pairwise_append.mp h
  exact ⟨hlog, fun old hold => hentry old hold entry (List.mem_singleton_self _)⟩

/-- A new entry takes the place of the one of its key. -/
theorem newest_concat {entry : α} (hirrefl : ¬newer entry entry)
    (h : Chronological key newer (log ++ [entry])) :
    newest key newer (log ++ [entry]) =
      (newest key newer log).filter (fun old => key old ≠ key entry) ++ [entry] := by
  obtain ⟨-, hentry⟩ := h.of_concat
  simp only [newest, List.filter_append, List.filter_filter]
  congr 1
  · refine List.filter_congr fun old hold => ?_
    have hnewer := hentry old hold
    simp only [List.mem_append, List.mem_singleton, or_imp, forall_and, forall_eq,
      ← Bool.decide_and, decide_eq_decide]
    constructor
    · rintro ⟨hlog, hlast⟩
      exact ⟨fun heq => hlast heq.symm (hnewer heq).1, hlog⟩
    · rintro ⟨hne, hlog⟩
      exact ⟨hlog, fun heq => absurd heq.symm hne⟩
  · refine List.filter_eq_self.mpr fun last hlast => decide_eq_true fun other hother heq => ?_
    rw [List.mem_singleton] at hlast
    subst hlast
    rcases List.mem_append.mp hother with hlog | hother
    · exact (hentry other hlog heq).2
    · rw [List.mem_singleton.mp hother]
      exact hirrefl

section Chronological
variable (hirrefl : ∀ entry, ¬newer entry entry) (h : Chronological key newer log)
include hirrefl h

theorem mem_newest_iff {entry : α} :
    entry ∈ newest key newer log ↔ lastOf key log (key entry) = some entry := by
  induction log using List.reverseRecOn with
  | nil => simp [newest, lastOf]
  | append_singleton old last ih =>
      rw [newest_concat (hirrefl last) h, lastOf_concat, List.mem_append, List.mem_filter,
        List.mem_singleton, ih h.of_concat.1]
      by_cases hkey : key last = key entry
      · simp [hkey, eq_comm]
      · have hne : entry ≠ last := fun heq => hkey (heq ▸ rfl)
        simp [hkey, hne, Ne.symm hkey]

theorem nodup_keys_newest : ((newest key newer log).map key).Nodup := by
  induction log using List.reverseRecOn with
  | nil => simp [newest]
  | append_singleton old last ih =>
      rw [newest_concat (hirrefl last) h, List.map_append, List.nodup_append]
      refine ⟨(ih h.of_concat.1).sublist (List.filter_sublist.map key), by simp, ?_⟩
      intro k hk k' hk'
      obtain ⟨entry, hentry, rfl⟩ := List.mem_map.mp hk
      rw [List.map_singleton, List.mem_singleton] at hk'
      rw [hk']
      simpa using (List.mem_filter.mp hentry).2

/-- The newest entries of some kind, counted by the keys whose last entry is of it. -/
theorem length_filter_newest (kind : α → Bool) :
    ((newest key newer log).filter kind).length =
      ((log.map key).toFinset.filter fun k => (lastOf key log k).any kind).card := by
  have hnodup : (((newest key newer log).filter kind).map key).Nodup :=
    (nodup_keys_newest hirrefl h).sublist (List.filter_sublist.map key)
  rw [← List.length_map key, ← List.toFinset_card_of_nodup hnodup]
  congr 1
  ext k
  simp only [List.mem_toFinset, List.mem_map, List.mem_filter, Finset.mem_filter,
    mem_newest_iff hirrefl h, Option.any_eq_true]
  constructor
  · rintro ⟨entry, ⟨hlast, hkind⟩, rfl⟩
    exact ⟨⟨entry, mem_of_lastOf hlast, rfl⟩, entry, hlast, hkind⟩
  · rintro ⟨-, entry, hlast, hkind⟩
    have hkey := key_of_lastOf hlast
    exact ⟨entry, ⟨hkey ▸ hlast, hkind⟩, hkey⟩

theorem length_newest :
    (newest key newer log).length = (log.map key).toFinset.card := by
  have hall := length_filter_newest hirrefl h fun _ => true
  rw [List.filter_true] at hall
  rw [hall, Finset.filter_true_of_mem]
  intro k hk
  rw [Option.any_true, lastOf_isSome]
  exact List.mem_toFinset.mp hk

end Chronological

/-- To leave out a key is to leave out its newest entry. -/
theorem newest_filter_key (keep : κ → Bool) :
    newest key newer (log.filter fun entry => keep (key entry)) =
      (newest key newer log).filter fun entry => keep (key entry) := by
  simp only [newest, List.filter_filter]
  refine List.filter_congr fun entry _ => ?_
  by_cases hkeep : keep (key entry)
  · simp only [hkeep, Bool.and_true, Bool.true_and, decide_eq_decide]
    exact ⟨fun hall other hother heq => hall other (List.mem_filter.mpr ⟨hother, heq ▸ hkeep⟩) heq,
      fun hall other hother heq => hall other (List.mem_filter.mp hother).1 heq⟩
  · simp [hkeep]

end LatestPerKey
