import Mathlib.Algebra.BigOperators.Group.List.Basic
import Mathlib.Algebra.Order.Group.Int
import Mathlib.Algebra.Order.BigOperators.Group.List
import Mathlib.Data.Finset.Card
import Mathlib.Data.List.Nodup
import Mathlib.Tactic.Abel

/-!
# Tables with a unique key

A table is a list of rows together with the fact that no two rows have the same
key. Rows are looked up by key and written by key; a write replaces the row
with that key or appends a new one. Sums over a table change by the difference
of the written row.
-/

universe u v w

namespace KeyedTable

variable {κ : Type u} {ρ : Type v}

/-- Rows whose keys are pairwise different. -/
structure Table (key : ρ → κ) where
  rows : List ρ
  nodup : (rows.map key).Nodup

namespace Table
variable {key : ρ → κ}

theorem ext_rows {a b : Table key} (h : a.rows = b.rows) : a = b := by
  cases a
  cases b
  cases h
  rfl

/-- The table without rows. -/
def empty : Table key := ⟨[], .nil⟩

section Totals
variable {M : Type w} [AddCommGroup M]

/-- The sum of a quantity over all rows. -/
def sum (table : Table key) (f : ρ → M) : M := (table.rows.map f).sum

@[simp] theorem sum_empty (f : ρ → M) : (empty : Table key).sum f = 0 := rfl

/-- Sums only depend on the quantity at the rows of the table. -/
theorem sum_congr {table : Table key} {f g : ρ → M} (h : ∀ row ∈ table.rows, f row = g row) :
    table.sum f = table.sum g := by
  rw [sum, sum, List.map_congr_left h]

theorem sum_nonneg {table : Table key} {f : ρ → Int} (h : ∀ row ∈ table.rows, 0 ≤ f row) :
    0 ≤ table.sum f := by
  refine List.sum_nonneg fun x hx => ?_
  obtain ⟨row, hrow, rfl⟩ := List.mem_map.mp hx
  exact h row hrow

/-- No row holds more of a quantity than all rows together. -/
theorem le_sum {table : Table key} {f : ρ → Int} (h : ∀ row ∈ table.rows, 0 ≤ f row) {row : ρ}
    (hmem : row ∈ table.rows) : f row ≤ table.sum f := by
  refine List.single_le_sum ?_ _ (List.mem_map_of_mem hmem)
  intro x hx
  obtain ⟨other, hother, rfl⟩ := List.mem_map.mp hx
  exact h other hother

end Totals

/-- Rewrite every row under its own key. -/
def mapRows (table : Table key) (f : ρ → ρ) (h : ∀ row, key (f row) = key row) : Table key where
  rows := table.rows.map f
  nodup := by
    have hkeys : (table.rows.map f).map key = table.rows.map key := by
      rw [List.map_map]
      exact List.map_congr_left fun row _ => h row
    rw [hkeys]
    exact table.nodup

variable [DecidableEq κ]

/-- The row with a given key. -/
def find (table : Table key) (k : κ) : Option ρ := table.rows.find? fun row => key row = k

theorem find_eq_some {table : Table key} {k : κ} {row : ρ} :
    table.find k = some row ↔ row ∈ table.rows ∧ key row = k := by
  constructor
  · intro h
    exact ⟨List.mem_of_find?_eq_some h, by simpa using List.find?_some h⟩
  · rintro ⟨hmem, rfl⟩
    cases h : table.find (key row) with
    | none =>
        have := List.find?_eq_none.mp h row hmem
        simp at this
    | some other =>
        have hkey : key other = key row := by simpa using List.find?_some h
        rw [List.inj_on_of_nodup_map table.nodup (List.mem_of_find?_eq_some h) hmem hkey]

theorem find_eq_none {table : Table key} {k : κ} :
    table.find k = none ↔ ∀ row ∈ table.rows, key row ≠ k := by
  simp [find]

theorem key_of_find {table : Table key} {k : κ} {row : ρ} (h : table.find k = some row) :
    key row = k := (find_eq_some.mp h).2

theorem mem_of_find {table : Table key} {k : κ} {row : ρ} (h : table.find k = some row) :
    row ∈ table.rows := (find_eq_some.mp h).1

theorem find_of_mem {table : Table key} {row : ρ} (h : row ∈ table.rows) :
    table.find (key row) = some row := find_eq_some.mpr ⟨h, rfl⟩

/-- The rows with the one of the same key replaced. -/
def replaceRow (key : ρ → κ) (row : ρ) (rows : List ρ) : List ρ :=
  rows.map fun other => if key other = key row then row else other

theorem map_key_replaceRow (row : ρ) (rows : List ρ) :
    (replaceRow key row rows).map key = rows.map key := by
  simp only [replaceRow, List.map_map]
  refine List.map_congr_left fun other _ => ?_
  by_cases h : key other = key row <;> simp [h]

/-- Write a row under its key. -/
def set (table : Table key) (row : ρ) : Table key :=
  if h : table.find (key row) = none then
    ⟨table.rows ++ [row], by
      rw [List.map_append, List.nodup_append]
      refine ⟨table.nodup, List.nodup_singleton _, ?_⟩
      rintro a ha b hb rfl
      obtain ⟨other, hother, rfl⟩ := List.mem_map.mp ha
      exact find_eq_none.mp h other hother (by simpa using hb)⟩
  else
    ⟨replaceRow key row table.rows, by rw [map_key_replaceRow]; exact table.nodup⟩

theorem mem_set {table : Table key} {row other : ρ} :
    other ∈ (table.set row).rows ↔
      other = row ∨ (other ∈ table.rows ∧ key other ≠ key row) := by
  by_cases h : table.find (key row) = none
  · simp only [set, h, dite_true, List.mem_append, List.mem_singleton]
    constructor
    · rintro (hmem | rfl)
      · exact .inr ⟨hmem, find_eq_none.mp h other hmem⟩
      · exact .inl rfl
    · rintro (rfl | ⟨hmem, -⟩)
      · exact .inr rfl
      · exact .inl hmem
  · simp only [set, h, dite_false, replaceRow, List.mem_map]
    constructor
    · rintro ⟨x, hx, rfl⟩
      by_cases hk : key x = key row
      · simp [hk]
      · simp [hk, hx]
    · rintro (rfl | ⟨hmem, hne⟩)
      · obtain ⟨old, hold⟩ := Option.ne_none_iff_exists'.mp h
        exact ⟨old, mem_of_find hold, by simp [key_of_find hold]⟩
      · exact ⟨other, hmem, by simp [hne]⟩

@[simp] theorem find_set_self {table : Table key} {row : ρ} :
    (table.set row).find (key row) = some row :=
  find_eq_some.mpr ⟨mem_set.mpr (.inl rfl), rfl⟩

theorem find_set_ne {table : Table key} {row : ρ} {k : κ} (h : k ≠ key row) :
    (table.set row).find k = table.find k := by
  cases hf : table.find k with
  | none =>
      refine find_eq_none.mpr fun other hother => ?_
      rcases mem_set.mp hother with rfl | ⟨hmem, -⟩
      · exact h.symm
      · exact find_eq_none.mp hf other hmem
  | some found =>
      have hkey := key_of_find hf
      exact find_eq_some.mpr
        ⟨mem_set.mpr (.inr ⟨mem_of_find hf, by rw [hkey]; exact h⟩), hkey⟩

theorem find_set {table : Table key} {row : ρ} {k : κ} :
    (table.set row).find k = if k = key row then some row else table.find k := by
  by_cases h : k = key row
  · subst h
    simp
  · rw [find_set_ne h, if_neg h]

/-- Writing a row again changes nothing. -/
theorem set_of_find {table : Table key} {row : ρ} (h : table.find (key row) = some row) :
    table.set row = table := by
  have hne : table.find (key row) ≠ none := by simp [h]
  apply ext_rows
  simp only [set, hne, dite_false, replaceRow]
  refine (List.map_congr_left fun other hother => ?_).trans (List.map_id _)
  by_cases hkey : key other = key row
  · have hsame := find_of_mem hother
    rw [hkey, h, Option.some.injEq] at hsame
    rw [if_pos hkey, hsame, id]
  · rw [if_neg hkey, id]

theorem find_mapRows {table : Table key} {f : ρ → ρ} {h : ∀ row, key (f row) = key row} {k : κ} :
    (table.mapRows f h).find k = (table.find k).map f := by
  cases hf : table.find k with
  | none =>
      refine find_eq_none.mpr fun row hrow => ?_
      obtain ⟨old, hold, rfl⟩ := List.mem_map.mp hrow
      rw [h old]
      exact find_eq_none.mp hf old hold
  | some row =>
      exact find_eq_some.mpr
        ⟨List.mem_map.mpr ⟨row, mem_of_find hf, rfl⟩, (h row).trans (key_of_find hf)⟩

/-- Write rows, the last one of the list first. -/
def setAll (table : Table key) (rows : List ρ) : Table key := rows.foldr (fun row t => t.set row) table

theorem find_setAll {table : Table key} {rows : List ρ} {k : κ} :
    (table.setAll rows).find k = (rows.find? fun row => key row = k).or (table.find k) := by
  induction rows with
  | nil => rfl
  | cons row rest ih =>
      rw [setAll, List.foldr_cons, find_set, List.find?_cons]
      by_cases hk : k = key row
      · rw [if_pos hk, decide_eq_true hk.symm]
        rfl
      · rw [if_neg hk, decide_eq_false (Ne.symm hk)]
        exact ih

/-- Take out the row of a key. -/
def erase (table : Table key) (k : κ) : Table key where
  rows := table.rows.filter fun row => key row ≠ k
  nodup := table.nodup.sublist (List.filter_sublist.map key)

theorem mem_erase {table : Table key} {k : κ} {row : ρ} :
    row ∈ (table.erase k).rows ↔ row ∈ table.rows ∧ key row ≠ k := by
  rw [erase, List.mem_filter, decide_eq_true_eq]

theorem find_erase {table : Table key} {k other : κ} :
    (table.erase k).find other = if other = k then none else table.find other := by
  split
  · rename_i hk
    exact find_eq_none.mpr fun row hrow => hk ▸ (mem_erase.mp hrow).2
  · rename_i hk
    cases hf : table.find other with
    | none => exact find_eq_none.mpr fun row hrow => find_eq_none.mp hf row (mem_erase.mp hrow).1
    | some row =>
        have hkey := key_of_find hf
        exact find_eq_some.mpr ⟨mem_erase.mpr ⟨mem_of_find hf, hkey ▸ hk⟩, hkey⟩

theorem length_set (table : Table key) (row : ρ) :
    (table.set row).rows.length =
      table.rows.length + if table.find (key row) = none then 1 else 0 := by
  by_cases h : table.find (key row) = none
  · simp [set, h]
  · simp [set, h, replaceRow]

theorem length_erase {table : Table key} {k : κ} {row : ρ} (h : table.find k = some row) :
    (table.erase k).rows.length + 1 = table.rows.length := by
  obtain ⟨hmem, hkey⟩ := find_eq_some.mp h
  have hone : table.rows.countP (fun other => key other = k) = 1 := by
    have hcount := List.count_eq_one_of_mem table.nodup (List.mem_map_of_mem hmem)
    rw [hkey, List.count, List.countP_map] at hcount
    rw [← hcount]
    refine List.countP_congr fun other _ => ?_
    simp
  rw [erase, List.length_eq_countP_add_countP (fun other => key other ≠ k) (l := table.rows),
    ← List.countP_eq_length_filter]
  congr 1
  rw [← hone]
  refine (List.countP_congr fun other _ => ?_)
  simp

/-- Keep the rows with a property. -/
def retain (table : Table key) (p : ρ → Bool) : Table key where
  rows := table.rows.filter p
  nodup := table.nodup.sublist (List.filter_sublist.map key)

theorem find_retain {table : Table key} {p : ρ → Bool} {k : κ} :
    (table.retain p).find k = (table.find k).filter p := by
  cases hf : table.find k with
  | none =>
      exact find_eq_none.mpr fun row hrow => find_eq_none.mp hf row (List.mem_filter.mp hrow).1
  | some row =>
      by_cases hp : p row = true
      · rw [Option.filter_some, if_pos hp]
        exact find_eq_some.mpr ⟨List.mem_filter.mpr ⟨mem_of_find hf, hp⟩, key_of_find hf⟩
      · rw [Option.filter_some, if_neg hp]
        refine find_eq_none.mpr fun other hother hkey => ?_
        obtain ⟨hmem, hother⟩ := List.mem_filter.mp hother
        have hsame := (find_of_mem hmem).symm.trans (hkey ▸ hf)
        exact hp (Option.some.inj hsame ▸ hother)

/-- The keys of the rows with a property. -/
def keysWhere (table : Table key) (p : ρ → Bool) : Finset κ :=
  ((table.rows.filter p).map key).toFinset

theorem mem_keysWhere {table : Table key} {p : ρ → Bool} {k : κ} :
    k ∈ table.keysWhere p ↔ ∃ row, table.find k = some row ∧ p row = true := by
  simp only [keysWhere, List.mem_toFinset, List.mem_map, List.mem_filter, find_eq_some]
  constructor
  · rintro ⟨row, ⟨hmem, hp⟩, hkey⟩
    exact ⟨row, ⟨hmem, hkey⟩, hp⟩
  · rintro ⟨row, ⟨hmem, hkey⟩, hp⟩
    exact ⟨row, ⟨hmem, hp⟩, hkey⟩

theorem card_keysWhere (table : Table key) (p : ρ → Bool) :
    (table.keysWhere p).card = table.rows.countP p := by
  rw [keysWhere, List.toFinset_card_of_nodup, List.length_map, List.countP_eq_length_filter]
  exact table.nodup.sublist (List.filter_sublist.map key)

/-- Counting rows without those of some keys. -/
theorem card_keysWhere_sdiff (table : Table key) (p : ρ → Bool) (without : Finset κ) :
    (table.keysWhere p \ without).card =
      table.rows.countP fun row => p row && decide (key row ∉ without) := by
  rw [← card_keysWhere]
  congr 1
  ext k
  simp only [Finset.mem_sdiff, mem_keysWhere, Bool.and_eq_true, decide_eq_true_eq]
  constructor
  · rintro ⟨⟨row, hrow, hp⟩, hk⟩
    exact ⟨row, hrow, hp, by rwa [key_of_find hrow]⟩
  · rintro ⟨row, hrow, hp, hk⟩
    exact ⟨⟨row, hrow, hp⟩, by rwa [key_of_find hrow] at hk⟩

@[simp] theorem find_empty {k : κ} : (empty : Table key).find k = none := rfl

section Sums
variable {M : Type w} [AddCommGroup M]

theorem sum_replaceRow {rows : List ρ} (hnodup : (rows.map key).Nodup) {old row : ρ}
    (hmem : old ∈ rows) (hkey : key old = key row) (f : ρ → M) :
    ((replaceRow key row rows).map f).sum = (rows.map f).sum - f old + f row := by
  induction rows with
  | nil => cases hmem
  | cons x rows ih =>
      rw [List.map_cons, List.nodup_cons] at hnodup
      by_cases hx : key x = key row
      · have hrest : replaceRow key row rows = rows := by
          refine (List.map_congr_left fun y hy => ?_).trans (List.map_id _)
          have hne : key y ≠ key row := fun hyr =>
            hnodup.1 (List.mem_map.mpr ⟨y, hy, hyr.trans hx.symm⟩)
          simp [hne]
        have hold : old = x := by
          rcases List.mem_cons.mp hmem with h | h
          · exact h
          · exact absurd (List.mem_map.mpr ⟨old, h, hkey.trans hx.symm⟩) hnodup.1
        subst hold
        have hcons : replaceRow key row (old :: rows) = row :: rows := by
          simpa [replaceRow, hx] using hrest
        rw [hcons]
        simp only [List.map_cons, List.sum_cons]
        abel
      · have hold : old ∈ rows := by
          rcases List.mem_cons.mp hmem with h | h
          · exact absurd (h ▸ hkey) hx
          · exact h
        have hcons : replaceRow key row (x :: rows) = x :: replaceRow key row rows := by
          simp [replaceRow, hx]
        rw [hcons]
        simp only [List.map_cons, List.sum_cons, ih hnodup.2 hold]
        abel

/-- A write changes a sum by the difference between the new row and the old one. -/
theorem sum_set_of_find {table : Table key} {old row : ρ} (h : table.find (key row) = some old)
    (f : ρ → M) : (table.set row).sum f = table.sum f - f old + f row := by
  have hne : table.find (key row) ≠ none := by simp [h]
  simp only [sum, set, hne, dite_false]
  exact sum_replaceRow table.nodup (mem_of_find h) (key_of_find h) f

theorem sum_set_of_none {table : Table key} {row : ρ} (h : table.find (key row) = none)
    (f : ρ → M) : (table.set row).sum f = table.sum f + f row := by
  simp [sum, set, h]

end Sums

end Table

end KeyedTable
