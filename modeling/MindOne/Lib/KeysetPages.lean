import Mathlib.Data.List.Sort

/-!
# Pages behind a cursor

A sorted table is read page by page: each page holds the first rows whose key
lies below a cursor, and the key of its last row is the next cursor. The walk
always ends. It reads every row once and in order for every page size exactly
when the keys fall along the sorted table.
-/

universe u v

namespace KeysetPages

section Sorting
variable {α : Type u} {r : α → α → Prop} [DecidableRel r] [IsTrans α r] [Std.Total r]

omit [IsTrans α r] [Std.Total r] in
theorem orderedInsert_of_below {row : α} {rows : List α} (h : ∀ other ∈ rows, r row other) :
    rows.orderedInsert r row = row :: rows := by
  cases rows with
  | nil => rfl
  | cons first rest => exact List.orderedInsert_cons_of_le r rest (h first List.mem_cons_self)

omit [Std.Total r] in
theorem filter_orderedInsert {p : α → Bool} {row : α} {rows : List α}
    (h : rows.Pairwise r) :
    (rows.orderedInsert r row).filter p =
      if p row = true then (rows.filter p).orderedInsert r row else rows.filter p := by
  induction rows with
  | nil => by_cases hp : p row = true <;> simp [hp]
  | cons first rest ih =>
      obtain ⟨hfirst, hrest⟩ := List.pairwise_cons.mp h
      by_cases hr : r row first
      · rw [List.orderedInsert_cons_of_le r _ hr]
        have hbelow : ∀ other ∈ (first :: rest).filter p, r row other := by
          intro other hother
          rcases List.mem_cons.mp (List.mem_filter.mp hother).1 with rfl | hmem
          · exact hr
          · exact Trans.trans hr (hfirst other hmem)
        by_cases hp : p row = true
        · rw [List.filter_cons_of_pos hp, if_pos hp]
          exact (orderedInsert_of_below hbelow).symm
        · rw [List.filter_cons_of_neg hp, if_neg hp]
      · rw [List.orderedInsert_of_not_le r _ hr]
        by_cases hp : p first = true
        · rw [List.filter_cons_of_pos hp, ih hrest, List.filter_cons_of_pos hp]
          by_cases hrow : p row = true
          · rw [if_pos hrow, if_pos hrow, List.orderedInsert_of_not_le r _ hr]
          · rw [if_neg hrow, if_neg hrow]
        · rw [List.filter_cons_of_neg hp, ih hrest, List.filter_cons_of_neg hp]

/-- Rows are left out before sorting or after it, with the same result. -/
theorem filter_insertionSort (p : α → Bool) (rows : List α) :
    (rows.insertionSort r).filter p = (rows.filter p).insertionSort r := by
  induction rows with
  | nil => rfl
  | cons row rows ih =>
      rw [List.insertionSort_cons, filter_orderedInsert (List.pairwise_insertionSort r rows), ih]
      by_cases hp : p row = true
      · rw [if_pos hp, List.filter_cons_of_pos hp, List.insertionSort_cons]
      · rw [if_neg hp, List.filter_cons_of_neg hp]

end Sorting

variable {α : Type u} {κ : Type v} [LinearOrder κ] (key : α → κ)

/-- The key lies below the cursor; without a cursor every key does. -/
def below (cursor : Option κ) (row : α) : Bool := decide (∀ bound ∈ cursor, key row < bound)

def page (rows : List α) (limit : Nat) (cursor : Option κ) : List α :=
  (rows.filter (below key cursor)).take limit

/-- Fetch page after page until one is empty. -/
def walk (rows : List α) (limit : Nat) : Nat → Option κ → Option (List α)
  | 0, _ => none
  | fuel + 1, cursor =>
      match page key rows limit cursor with
      | [] => some []
      | row :: rest =>
          (walk rows limit fuel ((row :: rest).getLast?.map key)).map (row :: rest ++ ·)

variable {key} {rows : List α} {limit : Nat}

theorem below_trans {cursor : Option κ} {last row : α} (hlast : below key cursor last = true)
    (h : below key (some (key last)) row = true) : below key cursor row = true := by
  simp only [below, decide_eq_true_eq, Option.mem_some_iff, forall_eq'] at hlast h ⊢
  exact fun bound hbound => h.trans (hlast bound hbound)

/-- Below the key of a row there are fewer rows. -/
theorem length_below_lt {cursor : Option κ} {last : α}
    (hlast : last ∈ rows.filter (below key cursor)) :
    (rows.filter (below key (some (key last)))).length <
      (rows.filter (below key cursor)).length := by
  have hbelow := (List.mem_filter.mp hlast).2
  have hfilter : rows.filter (below key (some (key last))) =
      (rows.filter (below key cursor)).filter (below key (some (key last))) := by
    rw [List.filter_filter]
    refine List.filter_congr fun row _ => ?_
    by_cases h : below key (some (key last)) row = true
    · rw [h, below_trans hbelow h]
      rfl
    · simp only [Bool.not_eq_true] at h
      rw [h, Bool.false_and]
  rw [hfilter, List.length_filter_lt_length_iff_exists]
  exact ⟨last, hlast, by simp [below]⟩

/-- The walk ends, whatever the keys of the rows are. -/
theorem walk_isSome {fuel : Nat} {cursor : Option κ}
    (h : (rows.filter (below key cursor)).length < fuel) :
    (walk key rows limit fuel cursor).isSome = true := by
  induction fuel generalizing cursor with
  | zero => exact absurd h (Nat.not_lt_zero _)
  | succ fuel ih =>
      rw [walk]
      cases hpage : page key rows limit cursor with
      | nil => rfl
      | cons row rest =>
          have hlast : (row :: rest).getLast? = some ((row :: rest).getLast (by simp)) :=
            List.getLast?_eq_some_getLast (by simp)
          have hpaged : (row :: rest).getLast (by simp) ∈ page key rows limit cursor := by
            rw [hpage]
            exact List.getLast_mem (by simp)
          have hfewer := length_below_lt (List.mem_of_mem_take hpaged)
          simp only [hlast, Option.map_some, Option.isSome_map]
          exact ih (by omega)

/-- Along falling keys, what lies below the key of a row is what comes after it. -/
theorem filter_below_of_falling {front rest : List α} {last : α}
    (falling : (front ++ last :: rest).Pairwise fun a b => key b < key a) :
    (front ++ last :: rest).filter (below key (some (key last))) = rest := by
  obtain ⟨-, hrest, hfront⟩ := List.pairwise_append.mp falling
  have hkeep : ∀ row ∈ rest, below key (some (key last)) row = true := by
    intro row hrow
    simpa [below] using (List.pairwise_cons.mp hrest).1 row hrow
  have hdrop : ∀ row ∈ front, ¬ below key (some (key last)) row = true := by
    intro row hrow
    simpa [below] using (hfront row hrow last List.mem_cons_self).le
  rw [List.filter_append, List.filter_eq_nil_iff.mpr hdrop, List.nil_append,
    List.filter_cons_of_neg (by simp [below]), List.filter_eq_self.mpr hkeep]

/-- Along falling keys, a walk reads all that lies below its cursor. -/
theorem walk_falling (falling : rows.Pairwise fun a b => key b < key a) (hlimit : 0 < limit)
    {fuel : Nat} {cursor : Option κ} {front rest : List α} (hrows : rows = front ++ rest)
    (hrest : rows.filter (below key cursor) = rest) (hfuel : rest.length < fuel) :
    walk key rows limit fuel cursor = some rest := by
  induction fuel generalizing cursor front rest with
  | zero => exact absurd hfuel (Nat.not_lt_zero _)
  | succ fuel ih =>
      rw [walk, page, hrest]
      cases hpage : rest.take limit with
      | nil =>
          rcases List.take_eq_nil_iff.mp hpage with hzero | hempty
          · omega
          · rw [hempty]
      | cons row page =>
          obtain ⟨init, last, hlast⟩ : ∃ init last, row :: page = init ++ [last] :=
            ⟨_, _, (List.dropLast_append_getLast (List.cons_ne_nil row page)).symm⟩
          have hsplit : rest = init ++ last :: rest.drop limit := by
            rw [← List.singleton_append, ← List.append_assoc, ← hlast, ← hpage,
              List.take_append_drop]
          have hrows' : rows = front ++ init ++ last :: rest.drop limit := by
            rw [List.append_assoc, ← hsplit, hrows]
          have hbehind : rows.filter (below key (some (key last))) = rest.drop limit := by
            rw [hrows'] at falling ⊢
            exact filter_below_of_falling falling
          have hshorter : (rest.drop limit).length < fuel := by
            rw [List.length_drop]
            have hlong : 0 < rest.length := by
              rw [hsplit, List.length_append, List.length_cons]
              omega
            omega
          have hnext := ih (hrows'.trans (List.append_cons _ _ _)) hbehind hshorter
          change (walk key rows limit fuel ((row :: page).getLast?.map key)).map
            (row :: page ++ ·) = some rest
          rw [hlast, List.getLast?_concat, Option.map_some, hnext, Option.map_some,
            List.append_assoc, List.singleton_append, ← hsplit]

/-- A walk reads nothing but rows of the table. -/
theorem subset_of_walk {fuel : Nat} {cursor : Option κ} {out : List α}
    (h : walk key rows limit fuel cursor = some out) : out ⊆ rows := by
  induction fuel generalizing cursor out with
  | zero => cases h
  | succ fuel ih =>
      rw [walk] at h
      cases hpage : page key rows limit cursor with
      | nil =>
          rw [hpage] at h
          cases h
          exact List.nil_subset rows
      | cons row rest =>
          rw [hpage] at h
          obtain ⟨later, hlater, rfl⟩ := Option.map_eq_some_iff.mp h
          refine List.append_subset.mpr ⟨fun other hother => ?_, ih hlater⟩
          have hpaged : other ∈ page key rows limit cursor := hpage ▸ hother
          exact (List.mem_filter.mp (List.mem_of_mem_take hpaged)).1

/-- A walk with pages of one row only meets ever smaller keys. -/
theorem falling_of_walk {fuel : Nat} {cursor : Option κ} {out : List α}
    (h : walk key rows 1 fuel cursor = some out) :
    (∀ row ∈ out, below key cursor row = true) ∧ out.Pairwise fun a b => key b < key a := by
  induction fuel generalizing cursor out with
  | zero => cases h
  | succ fuel ih =>
      rw [walk] at h
      cases hpage : page key rows 1 cursor with
      | nil =>
          rw [hpage] at h
          cases h
          exact ⟨by simp, .nil⟩
      | cons row rest =>
          have hone : rest = [] := by
            have hlength := congrArg List.length hpage
            rw [page, List.length_take, List.length_cons] at hlength
            exact List.eq_nil_of_length_eq_zero (by omega)
          subst hone
          have hrow : row ∈ page key rows 1 cursor := hpage ▸ List.mem_singleton_self row
          have hbelow := (List.mem_filter.mp (List.mem_of_mem_take hrow)).2
          rw [hpage] at h
          obtain ⟨later, hlater, rfl⟩ := Option.map_eq_some_iff.mp h
          obtain ⟨hsmaller, hfalling⟩ := ih hlater
          refine ⟨?_, ?_⟩
          · intro other hother
            rcases List.mem_cons.mp hother with rfl | hmem
            · exact hbelow
            · exact below_trans hbelow (hsmaller other hmem)
          · refine List.pairwise_cons.mpr ⟨fun other hother => ?_, hfalling⟩
            simpa [below] using hsmaller other hother

/-- The rule of the library: every page size reads the whole table, in its order and
without repetition, exactly when the keys fall along it. -/
theorem walk_complete_iff :
    (∀ limit, 0 < limit → walk key rows limit (rows.length + 1) none = some rows) ↔
      rows.Pairwise fun a b => key b < key a := by
  constructor
  · intro h
    exact (falling_of_walk (h 1 Nat.one_pos)).2
  · intro falling limit hlimit
    exact walk_falling falling hlimit (List.nil_append rows).symm
      (List.filter_eq_self.mpr (by simp [below])) (Nat.lt_succ_self _)

end KeysetPages
