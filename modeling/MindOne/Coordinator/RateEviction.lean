import MindOne.Coordinator.RateAccounting

/-!
# When a call loses its first key

The bucket of the first key gives way to the second one when the map is full, the
second key has no bucket and no bucket is older than the one of the first key. Which
of several oldest buckets gives way depends on the iteration order of the map.
-/

namespace MindOne.RateLimits

open KeyedTable

section Condition
variable (windows : Windows) (now : Nat) (first second : RateKey)

/-- When the bucket that a charge finds or opens was opened. -/
def opened (key : RateKey) : Nat := ((get windows key).map RateWindow.started).getD now

def older (t : Nat) : List (RateKey × RateWindow) :=
  windows.rows.filter fun entry => decide (entry.2.started < t)

/-- The buckets that give way to a key. -/
def evictions (key : RateKey) : Nat :=
  if get windows key = none ∧ maxRateBuckets ≤ windows.rows.length then 1 else 0

/-- The second key of a call finds a full map without a bucket of its own and without one
that is older than the bucket of the first key. -/
structure Displaced : Prop where
  full : maxRateBuckets ≤ windows.rows.length + if get windows first = none then 1 else 0
  oldest : (older windows (opened windows now first)).length ≤ evictions windows first
  absent : get windows second = none ∨
    evictions windows first = 1 ∧ ∀ entry ∈ older windows now, entry.1 = second

end Condition

/-- An admitted call in a map where its second key can displace the first one. -/
def Served.Displaces (self : Served) : Prop :=
  admits self.call.keys self.live = true ∧
    ∃ other ∈ self.call.second, Displaced self.live self.call.now self.call.first.1 other.1

section Charged
variable {order : IterationOrder} {now : Nat} {windows : Windows} {first second : RateKey}

theorem get_eq_some {key : RateKey} {window : RateWindow} :
    get windows key = some window ↔ (key, window) ∈ windows.rows := by
  rw [get, Option.map_eq_some_iff]
  constructor
  · rintro ⟨⟨_, _⟩, hfind, rfl⟩
    obtain ⟨hmem, rfl⟩ := Table.find_eq_some.mp hfind
    exact hmem
  · intro hmem
    exact ⟨_, Table.find_of_mem hmem, rfl⟩

theorem get_of_mem {entry : RateKey × RateWindow} (h : entry ∈ windows.rows) :
    get windows entry.1 = some entry.2 := get_eq_some.mpr h

/-- The buckets after a charge. -/
theorem mem_charge {entry : RateKey × RateWindow} :
    entry ∈ (charge order now windows first).rows ↔
      entry = (first, counted now (get windows first)) ∨
        entry ∈ windows.rows ∧ entry.1 ≠ first ∧ victim order windows first ≠ some entry.1 := by
  rw [charge, Table.mem_set, get_makeRoom_of_spared victim_ne_self]
  refine or_congr_right ?_
  simp only [makeRoom]
  split
  · rename_i oldest hvictim
    rw [Table.mem_erase, hvictim, and_assoc, ne_eq (some oldest), Option.some.injEq,
      eq_comm (a := oldest)]
    exact and_congr_right fun _ => and_comm
  · rename_i hvictim
    rw [hvictim]
    simp

theorem started_counted : (counted now (get windows first)).started = opened windows now first := by
  cases hwindow : get windows first with
  | none => simp [counted, opened, hwindow]
  | some window => simp [counted, opened, hwindow]

/-- A new bucket takes a free place or the place of another one. -/
theorem length_charge (hbound : windows.rows.length ≤ maxRateBuckets) :
    (charge order now windows first).rows.length =
      windows.rows.length + (if get windows first = none then 1 else 0) -
        evictions windows first := by
  have hmax : maxRateBuckets = 4096 := rfl
  have hkept := get_makeRoom_of_spared (@victim_ne_self order windows first)
  have hfind : (makeRoom order windows first).find first = none ↔ get windows first = none := by
    rw [← hkept, get_eq_none]
  rw [charge, Table.length_set, if_congr hfind rfl rfl]
  by_cases hroom : get windows first = none ∧ maxRateBuckets ≤ windows.rows.length
  · rw [evictions, if_pos hroom, if_pos hroom.1]
    have hlength : (makeRoom order windows first).rows.length < maxRateBuckets :=
      length_makeRoom hroom.1 hbound
    simp only [makeRoom] at hlength ⊢
    split at hlength
    · rename_i oldest hvictim
      obtain ⟨_, _, entry, hentry, rfl, _⟩ := victim_eq_some hvictim
      have herase := Table.length_erase (Table.find_of_mem hentry)
      omega
    · omega
  · have hnone : victim order windows first = none := if_neg hroom
    rw [evictions, if_neg hroom, makeRoom, hnone]
    rfl

/-- Whoever displaces the first key does it in a displaced map. -/
theorem displaced_of_victim (hbound : windows.rows.length ≤ maxRateBuckets)
    (h : victim order (charge order now windows first) second = some first) :
    Displaced windows now first second := by
  obtain ⟨habsent, hfull, entry, hentry, rfl, hleast⟩ := victim_eq_some h
  have hlength := @length_charge order now windows entry.1 hbound
  have hne : second ≠ entry.1 := by
    rintro rfl
    rw [get_charge_self] at habsent
    cases habsent
  have hstarted : entry.2.started = opened windows now entry.1 := by
    rcases mem_charge.mp hentry with hself | ⟨_, hother, _⟩
    · rw [hself, started_counted]
    · exact absurd rfl hother
  -- an older bucket that is left would have to give way first
  have hgone : ∀ other ∈ older windows (opened windows now entry.1), other.1 ≠ entry.1 →
      victim order windows entry.1 = some other.1 := by
    intro other hother hdifferent
    obtain ⟨hmem, holder⟩ := List.mem_filter.mp hother
    rw [decide_eq_true_eq] at holder
    by_contra hspared
    have hle := hleast other (mem_charge.mpr (.inr ⟨hmem, hdifferent, hspared⟩))
    omega
  have hself : ∀ other ∈ older windows (opened windows now entry.1), other.1 ≠ entry.1 := by
    intro other hother hsame
    obtain ⟨hmem, holder⟩ := List.mem_filter.mp hother
    rw [decide_eq_true_eq] at holder
    have hwindow : get windows entry.1 = some other.2 := get_eq_some.mpr (hsame ▸ hmem)
    simp only [opened, hwindow, Option.map_some, Option.getD_some, lt_irrefl] at holder
  by_cases hroom : get windows entry.1 = none ∧ maxRateBuckets ≤ windows.rows.length
  · have hevictions : evictions windows entry.1 = 1 := if_pos hroom
    have hopened : opened windows now entry.1 = now := by simp [opened, hroom.1]
    refine ⟨hroom.2.trans (Nat.le_add_right _ _), ?_, ?_⟩
    · rw [hevictions]
      have hnodup : ((older windows (opened windows now entry.1)).map Prod.fst).Nodup :=
        windows.nodup.sublist (List.filter_sublist.map _)
      rcases hlist : older windows (opened windows now entry.1) with _ | ⟨a, _ | ⟨b, rest⟩⟩
      · exact Nat.zero_le 1
      · exact le_rfl
      · rw [hlist] at hgone hself hnodup
        have ha := hgone a (by simp) (hself a (by simp))
        have hb := hgone b (by simp) (hself b (by simp))
        have hsame : a.1 = b.1 := Option.some.inj (ha.symm.trans hb)
        simp [hsame] at hnodup
    · by_cases hsecond : get windows second = none
      · exact .inl hsecond
      · refine .inr ⟨hevictions, fun other hother => ?_⟩
        have hvictim : victim order windows entry.1 = some second := by
          by_contra hspared
          rw [get_charge_of_spared hne hspared] at habsent
          exact hsecond habsent
        rw [← hopened] at hother
        exact Option.some.inj ((hgone other hother (hself other hother)).symm.trans hvictim)
  · have hevictions : evictions windows entry.1 = 0 := if_neg hroom
    have hnone : victim order windows entry.1 = none := if_neg hroom
    refine ⟨by omega, ?_, .inl ?_⟩
    · rw [hevictions, Nat.le_zero, List.length_eq_zero_iff, List.eq_nil_iff_forall_not_mem]
      intro other hother
      have hvictim := hgone other hother (hself other hother)
      rw [hnone] at hvictim
      cases hvictim
    · rwa [get_charge_of_spared hne (by rw [hnone]; exact Option.some_ne_none _ |>.symm)] at habsent

end Charged

section Favoured
variable {now : Nat} {windows : Windows} {first second : RateKey}

/-- An iteration order that yields the buckets of two keys before all others. -/
def favouring (first second : RateKey) : IterationOrder where
  entries rows := rows.filter (fun entry => decide (entry.1 = first ∨ entry.1 = second)) ++
    rows.filter fun entry => !decide (entry.1 = first ∨ entry.1 = second)
  perm rows := List.filter_append_perm _ rows

/-- Among the oldest buckets the favoured one gives way. -/
theorem oldest_favouring {entry : RateKey × RateWindow} (hentry : entry ∈ windows.rows)
    (hkey : entry.1 = first ∨ entry.1 = second)
    (halone : ∀ other ∈ windows.rows, other.1 = first ∨ other.1 = second → other.1 = entry.1)
    (hleast : ∀ other ∈ windows.rows, entry.2.started ≤ other.2.started) :
    oldest (favouring first second) windows = some entry.1 := by
  have hmem : entry ∈ windows.rows.filter
      fun other => decide (other.1 = first ∨ other.1 = second) :=
    List.mem_filter.mpr ⟨hentry, decide_eq_true hkey⟩
  obtain ⟨head, tail, hlist⟩ := List.exists_cons_of_ne_nil (List.ne_nil_of_mem hmem)
  have hhead : head ∈ windows.rows.filter
      fun other => decide (other.1 = first ∨ other.1 = second) := hlist ▸ List.mem_cons_self
  obtain ⟨hstored, hfavoured⟩ := List.mem_filter.mp hhead
  rw [decide_eq_true_eq] at hfavoured
  have hsame : head = entry := by
    have hfind := Table.find_of_mem hstored
    rw [halone head hstored hfavoured, Table.find_of_mem hentry] at hfind
    exact (Option.some.inj hfind).symm
  have hperm := (favouring first second).perm windows.rows
  have hargmin : ((favouring first second).entries windows.rows).argmin
      (fun other => other.2.started) = some entry := by
    simp only [favouring, hlist, hsame, List.cons_append]
    rw [List.argmin_cons]
    cases hrest : (tail ++ windows.rows.filter
        fun entry => !decide (entry.1 = first ∨ entry.1 = second)).argmin
          fun other => other.2.started with
    | none => rfl
    | some other =>
        have hother : other ∈ (favouring first second).entries windows.rows := by
          simp only [favouring, hlist, List.cons_append]
          exact List.mem_cons_of_mem _ (List.argmin_mem hrest)
        exact if_neg (not_lt.mpr (hleast other (hperm.mem_iff.mp hother)))
  rw [oldest, hargmin, Option.map_some]

/-- In a displaced map the first key loses its bucket under some iteration order. -/
theorem victim_of_displaced (hne : second ≠ first)
    (hbound : windows.rows.length ≤ maxRateBuckets)
    (hpast : ∀ entry ∈ windows.rows, entry.2.started ≤ now)
    (h : Displaced windows now first second) :
    victim (favouring first second) (charge (favouring first second) now windows first) second =
      some first := by
  generalize horder : favouring first second = order
  have hlength := @length_charge order now windows first hbound
  have hself : (first, counted now (get windows first)) ∈
      (charge order now windows first).rows := mem_charge.mpr (.inl rfl)
  -- what gave way to the first key leaves no older bucket and none of the second key
  have hleft : (∀ entry ∈ windows.rows, entry.1 ≠ first →
      victim order windows first ≠ some entry.1 →
        opened windows now first ≤ entry.2.started) ∧
      (get windows second = none ∨ victim order windows first = some second) := by
    by_cases hroom : get windows first = none ∧ maxRateBuckets ≤ windows.rows.length
    · have hevictions : evictions windows first = 1 := if_pos hroom
      have hopened : opened windows now first = now := by simp [opened, hroom.1]
      have hvictim : victim order windows first = oldest order windows := if_pos hroom
      have hold := h.oldest
      rw [hevictions, hopened] at hold
      cases hoccupied : victim order windows first with
      | none =>
          rw [hvictim, oldest, Option.map_eq_none_iff, List.argmin_eq_none] at hoccupied
          have hempty := (order.perm windows.rows).length_eq
          have hmax : maxRateBuckets = 4096 := rfl
          rw [hoccupied, List.length_nil] at hempty
          omega
      | some gone =>
          obtain ⟨_, _, entry, hentry, rfl, hleast⟩ := victim_eq_some hoccupied
          have holder : ∀ other ∈ older windows now, other.1 = entry.1 := by
            intro other hother
            obtain ⟨hmem, hbefore⟩ := List.mem_filter.mp hother
            rw [decide_eq_true_eq] at hbefore
            have hthis : entry ∈ older windows now :=
              List.mem_filter.mpr ⟨hentry, decide_eq_true ((hleast other hmem).trans_lt hbefore)⟩
            obtain ⟨only, honly⟩ := List.length_eq_one_iff.mp
              (le_antisymm hold (List.length_pos_of_mem hother))
            rw [honly, List.mem_singleton] at hother hthis
            rw [hother, hthis]
          refine ⟨fun other hother hdifferent hspared => ?_, ?_⟩
          · by_contra hbefore
            rw [hopened, not_le] at hbefore
            exact hspared (congrArg some (holder other
              (List.mem_filter.mpr ⟨hother, decide_eq_true hbefore⟩)).symm)
          · refine or_iff_not_imp_left.mpr fun hpresent => ?_
            obtain ⟨_, hsecond⟩ := h.absent.resolve_left hpresent
            obtain ⟨window, hwindow⟩ := Option.ne_none_iff_exists'.mp hpresent
            have hstored := get_eq_some.mp hwindow
            by_cases hearly : older windows now = []
            · -- all buckets are as young as the call, so the favoured one gives way
              have hyoung : ∀ other ∈ windows.rows, now ≤ other.2.started := by
                intro other hother
                by_contra hbefore
                have hmem : other ∈ older windows now :=
                  List.mem_filter.mpr ⟨hother, decide_eq_true (not_le.mp hbefore)⟩
                rw [hearly] at hmem
                cases hmem
              have hchosen := @oldest_favouring _ first second (second, window) hstored (.inr rfl) ?_ ?_
              · rw [hvictim, ← horder, hchosen] at hoccupied
                exact hoccupied.symm
              · rintro other hother (hfirst | hsame)
                · have hfound := get_of_mem hother
                  rw [hfirst, hroom.1] at hfound
                  cases hfound
                · exact hsame
              · intro other hother
                exact (hpast _ hstored).trans (hyoung other hother)
            · obtain ⟨other, hother⟩ := List.exists_mem_of_ne_nil _ hearly
              rw [← hsecond other hother, holder other hother]
    · have hevictions : evictions windows first = 0 := if_neg hroom
      have hold := h.oldest
      rw [hevictions, Nat.le_zero, List.length_eq_zero_iff] at hold
      refine ⟨fun entry hentry _ _ => ?_, .inl (h.absent.resolve_right fun hone => ?_)⟩
      · by_contra hbefore
        have hmem : entry ∈ older windows (opened windows now first) :=
          List.mem_filter.mpr ⟨hentry, decide_eq_true (not_le.mp hbefore)⟩
        rw [hold] at hmem
        cases hmem
      · omega
  have habsent : get (charge order now windows first) second = none := by
    by_cases hvictim : victim order windows first = some second
    · exact get_charge_of_victim hvictim
    · rw [get_charge_of_spared hne hvictim]
      exact hleft.2.resolve_right hvictim
  have hfull : maxRateBuckets ≤ (charge order now windows first).rows.length := by
    have hfull := h.full
    rw [hlength]
    by_cases hroom : get windows first = none ∧ maxRateBuckets ≤ windows.rows.length
    · rw [evictions, if_pos hroom, if_pos hroom.1]
      exact hroom.2
    · rw [evictions, if_neg hroom]
      exact hfull
  rw [victim, if_pos ⟨habsent, hfull⟩, ← horder]
  refine @oldest_favouring _ _ _ (first, counted now (get windows first)) (horder ▸ hself)
    (.inl rfl) ?_ ?_
  · rintro other hother (hsame | hsecond)
    · exact hsame
    · have hfound := get_of_mem hother
      rw [hsecond, horder, habsent] at hfound
      cases hfound
  · intro other hother
    rw [started_counted]
    rw [horder] at hother
    rcases mem_charge.mp hother with rfl | ⟨hmem, hdifferent, hspared⟩
    · rw [started_counted]
    · exact hleft.1 other hmem hdifferent hspared

end Favoured

section Runs
variable {orders : Nat → IterationOrder} {windows : Windows} {calls : List RateCall}
  {step : Served}

theorem Served.keys_eq {other : RateKey × UInt32} (h : step.call.second = some other) :
    step.call.keys = [step.call.first, other] := by
  rw [RateCall.keys, h]
  rfl

/-- An admitted call counts for all of its keys unless the second displaces the first. -/
theorem Served.counts_of_spared (hadmitted : step.admitted = true)
    (hbound : step.live.rows.length ≤ maxRateBuckets) (h : ¬ step.Displaces) :
    ∀ key ∈ step.call.keys.map Prod.fst, step.Counts key := by
  have hafter := Served.after_of_admitted hadmitted
  cases hsecond : step.call.second with
  | none =>
      have hkeys : step.call.keys = [step.call.first] := by rw [RateCall.keys, hsecond]; rfl
      intro key hkey
      obtain ⟨entry, hentry, rfl⟩ := List.mem_map.mp hkey
      refine Served.counts_of_get hadmitted hentry (.inr rfl) ?_
      rw [hkeys, List.mem_singleton] at hentry
      rw [hafter, hkeys, hentry]
      exact get_charge_self
  | some other =>
      have hkeys := Served.keys_eq hsecond
      have hne := step.call.distinct other hsecond
      have hvictim : victim step.order (charge step.order step.call.now step.live
          step.call.first.1) other.1 ≠ some step.call.first.1 := by
        intro hvictim
        refine h ⟨Served.admitted_eq ▸ hadmitted, other, hsecond, ?_⟩
        exact displaced_of_victim hbound hvictim
      have hcharged : step.after = charge step.order step.call.now (charge step.order
          step.call.now step.live step.call.first.1) other.1 := by
        rw [hafter, hkeys]
        rfl
      intro key hkey
      rw [hkeys, List.map_cons, List.map_singleton] at hkey
      rcases List.mem_cons.mp hkey with rfl | hkey
      · refine Served.counts_of_get hadmitted (by rw [hkeys]; exact List.mem_cons_self)
          (.inr rfl) ?_
        rw [hcharged, get_charge_of_spared hne.symm hvictim, get_charge_self]
      · rw [List.mem_singleton] at hkey
        subst hkey
        have hother : other ∈ step.call.keys := by
          rw [hkeys]
          exact List.mem_cons_of_mem _ List.mem_cons_self
        refine Served.counts_of_get hadmitted hother ?_ (by rw [hcharged, get_charge_self])
        by_cases hgone : victim step.order step.live step.call.first.1 = some other.1
        · exact .inl (get_charge_of_victim hgone)
        · exact .inr (get_charge_of_spared hne hgone)

/-- Maps of a bounded size without buckets of the future. -/
structure Tidy (windows : Windows) (calls : List RateCall) : Prop where
  bounded : windows.rows.length ≤ maxRateBuckets
  past : ∀ entry ∈ windows.rows, ∀ call ∈ calls, entry.2.started ≤ call.now

theorem tidy_empty : Tidy .empty calls := ⟨Nat.zero_le _, fun _ h => absurd h List.not_mem_nil⟩

theorem started_le_of_chargeAll {order : IterationOrder} {now : Nat}
    {keys : List (RateKey × UInt32)} (h : ∀ entry ∈ windows.rows, entry.2.started ≤ now) :
    ∀ entry ∈ (chargeAll order now keys windows).rows, entry.2.started ≤ now := by
  induction keys generalizing windows with
  | nil => exact h
  | cons first rest ih =>
      refine ih fun entry hentry => ?_
      rcases mem_charge.mp hentry with rfl | ⟨hmem, _⟩
      · rw [started_counted, opened]
        cases hwindow : get windows first.1 with
        | none => exact le_rfl
        | some window => exact h _ (get_eq_some.mp hwindow)
      · exact h entry hmem

theorem Served.live_subset {entry : RateKey × RateWindow} (h : entry ∈ step.live.rows) :
    entry ∈ step.before.rows := (List.mem_filter.mp h).1

theorem Served.length_live_le : step.live.rows.length ≤ step.before.rows.length :=
  List.length_filter_le _ _

theorem Served.length_after_le (h : step.before.rows.length ≤ maxRateBuckets) :
    step.after.rows.length ≤ maxRateBuckets := by
  have hlive := Served.length_live_le.trans h
  cases hadmitted : step.admitted with
  | true =>
      rw [Served.after_of_admitted hadmitted]
      exact length_chargeAll_le hlive
  | false =>
      rw [Served.after_of_refused hadmitted]
      exact hlive

/-- A call keeps the map tidy for the calls behind it. -/
theorem Tidy.after {call : RateCall} {rest : List RateCall} (h : Tidy step.before (call :: rest))
    (hcall : step.call = call) (hsorted : (call :: rest).Pairwise fun a b => a.now ≤ b.now) :
    Tidy step.after rest := by
  refine ⟨Served.length_after_le h.bounded, fun entry hentry later hlater => ?_⟩
  refine le_trans ?_ ((List.pairwise_cons.mp hsorted).1 later hlater)
  have hlive : ∀ entry ∈ step.live.rows, entry.2.started ≤ step.call.now := fun entry hentry =>
    h.past entry (Served.live_subset hentry) _ (hcall ▸ List.mem_cons_self)
  rw [← hcall]
  cases hadmitted : step.admitted with
  | true =>
      rw [Served.after_of_admitted hadmitted] at hentry
      exact started_le_of_chargeAll hlive entry hentry
  | false =>
      rw [Served.after_of_refused hadmitted] at hentry
      exact hlive entry hentry

theorem tidy_of_served (hsorted : calls.Pairwise fun a b => a.now ≤ b.now)
    (htidy : Tidy windows calls) :
    ∀ step ∈ served orders windows calls, Tidy step.before [step.call] := by
  induction calls generalizing orders windows with
  | nil => exact fun _ h => absurd h List.not_mem_nil
  | cons call rest ih =>
      refine List.forall_mem_cons.mpr ⟨?_, ?_⟩
      · refine ⟨htidy.bounded, fun entry hentry other hother => ?_⟩
        rw [List.mem_singleton.mp hother]
        exact htidy.past entry hentry call List.mem_cons_self
      · exact ih (List.pairwise_cons.mp hsorted).2 (htidy.after rfl hsorted)

/-- The account of a run without displaced keys. -/
theorem accounting_of_spared (hsorted : calls.Pairwise fun a b => a.now ≤ b.now)
    (h : ∀ step ∈ served orders .empty calls, ¬ step.Displaces) :
    Accounting (served orders .empty calls) := by
  have htidy := @tidy_of_served orders _ _ hsorted tidy_empty
  constructor
  · intro step _ hrefused key
    rw [Served.after_of_refused hrefused]
  · intro step hstep hadmitted
    exact Served.counts_of_spared hadmitted
      (Served.length_live_le.trans (htidy step hstep).bounded) (h step hstep)
  · intro step hstep
    exact Served.length_after_le (htidy step hstep).bounded
  · intro key limit segment hsegment hkept hlimit
    exact limited_of_served hsorted hsegment hkept hlimit

/-- A displaced key is not counted under some iteration order. -/
theorem not_counts_of_displaces (htidy : Tidy step.before [step.call]) (h : step.Displaces) :
    ∃ order, Served.admitted ⟨step.call, order, step.before⟩ = true ∧
      ¬ Served.Counts ⟨step.call, order, step.before⟩ step.call.first.1 := by
  obtain ⟨hadmits, other, hsecond, hdisplaced⟩ := h
  have hpast : ∀ entry ∈ step.live.rows, entry.2.started ≤ step.call.now := fun entry hentry =>
    htidy.past entry (Served.live_subset hentry) _ List.mem_cons_self
  have hvictim := victim_of_displaced (step.call.distinct other hsecond)
    (Served.length_live_le.trans htidy.bounded) hpast hdisplaced
  generalize horder : favouring step.call.first.1 other.1 = order at hvictim
  have hadmitted : Served.admitted ⟨step.call, order, step.before⟩ = true := by
    rw [Served.admitted_eq]
    exact hadmits
  refine ⟨order, hadmitted, ?_⟩
  rintro ⟨window, hwindow, _⟩
  rw [Served.after_of_admitted hadmitted] at hwindow
  simp only [Served.keys_eq hsecond] at hwindow
  have hgone := @get_charge_of_victim _ step.call.now _ _ _ hvictim
  cases hwindow.symm.trans hgone

/-- A step of a run can meet another iteration order. -/
theorem exists_served_with (hstep : step ∈ served orders windows calls) (order : IterationOrder) :
    ∃ orders', ⟨step.call, order, step.before⟩ ∈ served orders' windows calls := by
  induction calls generalizing orders windows with
  | nil => cases hstep
  | cons call rest ih =>
      rcases List.mem_cons.mp hstep with rfl | hlater
      · exact ⟨fun _ => order, List.mem_cons_self⟩
      · obtain ⟨orders', hmem⟩ := ih hlater
        exact ⟨fun n => Nat.casesOn n (orders 0) orders', List.mem_cons_of_mem _ hmem⟩

/-- The limiter keeps account in every run of some calls exactly when no call meets a map in
which its second key can displace its first one. -/
theorem allow_accounting_iff (hsorted : calls.Pairwise fun a b => a.now ≤ b.now) :
    (∀ orders, Accounting (served orders .empty calls)) ↔
      ∀ orders, ∀ step ∈ served orders .empty calls, ¬ step.Displaces := by
  constructor
  · intro haccounting orders step hstep hdisplaces
    have htidy := tidy_of_served hsorted tidy_empty step hstep
    obtain ⟨order, hadmitted, hlost⟩ := not_counts_of_displaces htidy hdisplaces
    obtain ⟨orders', hmem⟩ := exists_served_with hstep order
    exact hlost ((haccounting orders').counts _ hmem hadmitted _
      (List.mem_map_of_mem List.mem_cons_self))
  · intro hspared orders
    exact accounting_of_spared hsorted (hspared orders)

end Runs

section Sample

theorem length_numbered (n : Nat) : (Regulated.beBytes 32 n).length = 32 :=
  Regulated.length_beBytes 32 n

def numbered (n : Nat) : RateKey := ⟨⟨Regulated.beBytes 32 n, length_numbered n⟩⟩

theorem numbered_injOn {m n : Nat} (hm : m < 256 ^ 32) (hn : n < 256 ^ 32)
    (h : numbered m = numbered n) : m = n := by
  have hbytes := congrArg (fun key => key.digest.toList) h
  exact Regulated.beBytes_injective hm hn hbytes

/-- A call of a client without credentials. -/
def anonymous (now n : Nat) : RateCall where
  now := now
  first := (numbered n, 120)
  second := none
  distinct := by rintro _ ⟨⟩
  positive := List.forall_mem_cons.mpr
    ⟨(by decide : (0 : UInt32) < 120), fun _ h => absurd h List.not_mem_nil⟩

/-- A call of the first client with credentials. -/
def authenticated (now n : Nat) (hne : numbered n ≠ numbered 0) : RateCall where
  now := now
  first := (numbered 0, 960)
  second := some (numbered n, 120)
  distinct := by
    intro other hother
    rw [← Option.some.inj hother]
    exact hne
  positive := List.forall_mem_cons.mpr ⟨(by decide : (0 : UInt32) < 960), List.forall_mem_cons.mpr
    ⟨(by decide : (0 : UInt32) < 120), fun _ h => absurd h List.not_mem_nil⟩⟩

/-- The map behind some calls. -/
def reached (orders : Nat → IterationOrder) : Windows → List RateCall → Windows
  | windows, [] => windows
  | windows, call :: rest =>
      reached (fun n => orders (n + 1)) (Served.after ⟨call, orders 0, windows⟩) rest

theorem served_append {orders : Nat → IterationOrder} {windows : Windows}
    {earlier later : List RateCall} :
    ∃ orders', served orders windows (earlier ++ later) =
      served orders windows earlier ++ served orders' (reached orders windows earlier) later := by
  induction earlier generalizing orders windows with
  | nil => exact ⟨orders, rfl⟩
  | cons call rest ih =>
      obtain ⟨orders', htail⟩ := @ih (fun n => orders (n + 1))
        (Served.after ⟨call, orders 0, windows⟩)
      exact ⟨orders', by rw [List.cons_append, served, htail, served, reached, List.cons_append]⟩

/-- Calls of new clients in a map with free places. -/
theorem rows_reached_anonymous {orders : Nat → IterationOrder} {windows : Windows} {now : Nat}
    {numbers : List Nat} (hnodup : (numbers.map numbered).Nodup)
    (hnew : ∀ n ∈ numbers, get windows (numbered n) = none)
    (hroom : windows.rows.length + numbers.length ≤ maxRateBuckets)
    (hlive : ∀ entry ∈ windows.rows, now - entry.2.started < rateWindow) :
    (reached orders windows (numbers.map (anonymous now))).rows =
      windows.rows ++ numbers.map fun n => (numbered n, ⟨now, 1⟩) := by
  induction numbers generalizing orders windows with
  | nil => simp [reached]
  | cons n rest ih =>
      obtain ⟨hfirst, hrest⟩ := List.forall_mem_cons.mp hnew
      rw [List.map_cons, List.nodup_cons] at hnodup
      rw [List.length_cons] at hroom
      generalize hstep : (⟨anonymous now n, orders 0, windows⟩ : Served) = step
      have hkept : step.live = windows := by
        apply Table.ext_rows
        rw [← hstep]
        exact List.filter_eq_self.mpr fun entry hentry => decide_eq_true (hlive entry hentry)
      have hkeys : step.call.keys = [(numbered n, 120)] := by rw [← hstep]; rfl
      have hnow : step.call.now = now := by rw [← hstep]; rfl
      have hadmitted : step.admitted = true := by
        rw [Served.admitted_eq, hkept, hkeys]
        simp [admits, hfirst]
      have hvictim : victim step.order windows (numbered n) = none :=
        if_neg fun hfull => by omega
      have hrows : step.after.rows = windows.rows ++ [(numbered n, ⟨now, 1⟩)] := by
        rw [Served.after_of_admitted hadmitted, hkept, hkeys, hnow]
        simp only [chargeAll, List.foldl_cons, List.foldl_nil, charge, makeRoom, hvictim, hfirst,
          counted_none]
        simp only [Table.set, get_eq_none.mp hfirst, dite_true]
      rw [List.map_cons, reached, hstep, ih hnodup.2, hrows, List.append_assoc]
      · rfl
      · intro m hm
        have hne : numbered m ≠ numbered n := fun hsame =>
          hnodup.1 (hsame ▸ List.mem_map_of_mem hm)
        rw [get_eq_none, Table.find_eq_none, hrows]
        intro entry hentry
        rcases List.mem_append.mp hentry with hmem | hmem
        · exact Table.find_eq_none.mp (get_eq_none.mp (hrest m hm)) entry hmem
        · rw [List.mem_singleton.mp hmem]
          exact hne.symm
      · rw [hrows, List.length_append, List.length_singleton]
        omega
      · intro entry hentry
        rw [hrows] at hentry
        rcases List.mem_append.mp hentry with hmem | hmem
        · exact hlive entry hmem
        · rw [List.mem_singleton.mp hmem]
          simp only [Nat.sub_self]
          decide

theorem numbered_ne {m n : Nat} (hm : m ≤ 4096) (hn : n ≤ 4096) (hne : m ≠ n) :
    numbered m ≠ numbered n := by
  have hsmall : 4096 < 256 ^ 32 := by norm_num
  intro hsame
  exact hne (numbered_injOn (by omega) (by omega) hsame)

def returning : RateCall := authenticated 2 4096 (numbered_ne le_rfl (by decide) (by decide))

/-- One client, 4095 later ones, and then the first one again with credentials. -/
def crowdedCalls : List RateCall :=
  [0].map (anonymous 0) ++ ((List.range' 1 4095).map (anonymous 1) ++ [returning])

theorem crowded_range {n : Nat} (h : n ∈ List.range' 1 4095) : 1 ≤ n ∧ n ≤ 4095 := by
  rw [List.mem_range'_1] at h
  omega

theorem crowdedCalls_sorted : crowdedCalls.Pairwise fun a b => a.now ≤ b.now := by
  have hnow : ∀ call ∈ (List.range' 1 4095).map (anonymous 1), call.now = 1 := by
    intro call hcall
    obtain ⟨n, _, rfl⟩ := List.mem_map.mp hcall
    rfl
  rw [crowdedCalls, List.map_singleton, List.singleton_append, List.pairwise_cons,
    List.pairwise_append]
  refine ⟨fun _ _ => Nat.zero_le _, ?_, List.pairwise_singleton _ _, ?_⟩
  · refine List.Pairwise.imp_of_mem ?_ (List.pairwise_of_forall (R := fun _ _ => True)
      fun _ _ => trivial)
    intro a b ha hb _
    rw [hnow a ha, hnow b hb]
  · intro a ha b hb
    rw [hnow a ha, List.mem_singleton.mp hb]
    exact Nat.le_succ 1

theorem rows_reached_crowded {orders orders' : Nat → IterationOrder} :
    (reached orders' (reached orders .empty ([0].map (anonymous 0)))
        ((List.range' 1 4095).map (anonymous 1))).rows =
      (numbered 0, ⟨0, 1⟩) :: (List.range' 1 4095).map fun n => (numbered n, ⟨1, 1⟩) := by
  have hfirst : (reached orders .empty ([0].map (anonymous 0))).rows =
      [(numbered 0, ⟨0, 1⟩)] := by
    rw [@rows_reached_anonymous orders .empty 0 [0] (List.nodup_singleton (numbered 0))
      (fun _ _ => rfl) (show 0 + 1 ≤ 4096 by decide) (fun _ h => absurd h List.not_mem_nil)]
    rfl
  rw [rows_reached_anonymous, hfirst]
  · rfl
  · refine List.Nodup.map_on (fun m hm n hn hsame => ?_) List.nodup_range'
    by_contra hne
    have hm' := crowded_range hm
    have hn' := crowded_range hn
    exact numbered_ne (by omega) (by omega) hne hsame
  · intro n hn
    have hn' := crowded_range hn
    rw [get_eq_none, Table.find_eq_none, hfirst]
    intro entry hentry
    rw [List.mem_singleton.mp hentry]
    exact numbered_ne (by decide) (by omega) (by omega)
  · rw [hfirst, List.length_range']
    exact le_rfl
  · intro entry hentry
    rw [hfirst] at hentry
    rw [List.mem_singleton.mp hentry]
    decide

/-- The returning client is not counted, whatever the iteration order is. -/
theorem not_counts_returning {order : IterationOrder} {windows : Windows}
    (hrows : windows.rows =
      (numbered 0, ⟨0, 1⟩) :: (List.range' 1 4095).map fun n => (numbered n, ⟨1, 1⟩)) :
    Served.admitted ⟨returning, order, windows⟩ = true ∧
      ¬ Served.Counts ⟨returning, order, windows⟩ (numbered 0) := by
  generalize hstep : (⟨returning, order, windows⟩ : Served) = step
  have hlater : ∀ entry ∈ windows.rows, entry = (numbered 0, ⟨0, 1⟩) ∨
      (entry.2 = ⟨1, 1⟩ ∧ ∃ n, 1 ≤ n ∧ n ≤ 4095 ∧ entry.1 = numbered n) := by
    intro entry hentry
    rw [hrows] at hentry
    rcases List.mem_cons.mp hentry with rfl | hmem
    · exact .inl rfl
    · obtain ⟨n, hn, rfl⟩ := List.mem_map.mp hmem
      have hn' := crowded_range hn
      exact .inr ⟨rfl, n, hn'.1, hn'.2, rfl⟩
  have hfirst : get windows (numbered 0) = some ⟨0, 1⟩ :=
    get_eq_some.mpr (hrows ▸ List.mem_cons_self)
  have hsecond : get windows (numbered 4096) = none := by
    rw [get_eq_none, Table.find_eq_none]
    intro entry hentry
    rcases hlater entry hentry with rfl | ⟨_, n, hlow, hhigh, hkey⟩
    · exact numbered_ne (by decide) le_rfl (by decide)
    · rw [hkey]
      exact numbered_ne (by omega) le_rfl (by omega)
  have hlive : step.live = windows := by
    apply Table.ext_rows
    rw [← hstep]
    refine List.filter_eq_self.mpr fun entry hentry => decide_eq_true ?_
    rcases hlater entry hentry with rfl | ⟨hwindow, _⟩
    · exact (by decide : 2 - 0 < rateWindow)
    · rw [hwindow]
      exact (by decide : 2 - 1 < rateWindow)
  have hkeys : step.call.keys = [(numbered 0, 960), (numbered 4096, 120)] := by
    rw [← hstep]
    rfl
  have hadmitted : step.admitted = true := by
    rw [Served.admitted_eq, hlive, hkeys]
    simp only [admits, List.any_cons, List.any_nil, hfirst, hsecond]
    decide
  refine ⟨hadmitted, ?_⟩
  rintro ⟨window, hwindow, _⟩
  rw [Served.after_of_admitted hadmitted, hlive, hkeys] at hwindow
  have hkept : victim step.order windows (numbered 0) = none :=
    if_neg fun habsent => by rw [hfirst] at habsent; cases habsent.1
  have hlength : (charge step.order step.call.now windows (numbered 0)).rows.length = 4096 := by
    have hsize : windows.rows.length = 4096 := by
      rw [hrows, List.length_cons, List.length_map, List.length_range']
    have hpresent : get windows (numbered 0) ≠ none := by
      rw [hfirst]
      exact Option.some_ne_none _
    rw [length_charge hsize.le, hsize, evictions, if_neg hpresent,
      if_neg fun habsent => hpresent habsent.1]
  have hroom : get (charge step.order step.call.now windows (numbered 0)) (numbered 4096) = none ∧
      maxRateBuckets ≤ (charge step.order step.call.now windows (numbered 0)).rows.length := by
    refine ⟨?_, hlength.ge⟩
    rw [get_charge_of_spared (numbered_ne le_rfl (by decide) (by decide))
      (by rw [hkept]; exact (Option.some_ne_none _).symm), hsecond]
  -- only the bucket of the first client is as old as that
  have hvictim : victim step.order (charge step.order step.call.now windows (numbered 0))
      (numbered 4096) = some (numbered 0) := by
    have hself : (numbered 0, counted step.call.now (get windows (numbered 0))) ∈
        (charge step.order step.call.now windows (numbered 0)).rows := mem_charge.mpr (.inl rfl)
    cases hvictim : victim step.order (charge step.order step.call.now windows (numbered 0))
        (numbered 4096) with
    | none =>
        have hlost := @length_makeRoom step.order _ _ hroom.1 hlength.le
        rw [makeRoom, hvictim] at hlost
        exact absurd hlost (not_lt.mpr hlength.ge)
    | some gone =>
        obtain ⟨_, _, entry, hentry, rfl, hleast⟩ := victim_eq_some hvictim
        have hold := hleast _ hself
        rw [started_counted, opened, hfirst] at hold
        rcases mem_charge.mp hentry with rfl | ⟨hmem, hne, _⟩
        · rfl
        · rcases hlater entry hmem with rfl | ⟨hyoung, _⟩
          · exact absurd rfl hne
          · rw [hyoung] at hold
            exact absurd (show 1 ≤ 0 from hold) (by decide)
  have hgone := @get_charge_of_victim _ step.call.now _ _ _ hvictim
  cases hwindow.symm.trans hgone

/-- A map with free places displaces nobody. -/
theorem not_displaces_of_room {step : Served}
    (h : step.before.rows.length + 1 < maxRateBuckets) : ¬ step.Displaces := by
  rintro ⟨_, other, _, hdisplaced⟩
  have hfull := hdisplaced.full
  have hle : step.live.rows.length ≤ step.before.rows.length := Served.length_live_le
  split at hfull
  · omega
  · omega

/-- Two calls in an empty map are both counted. -/
theorem allow_accounting_sample :
    ([returning, anonymous 3 1].Pairwise fun a b => a.now ≤ b.now) ∧
      ∀ orders, Accounting (served orders .empty [returning, anonymous 3 1]) := by
  have hsorted : [returning, anonymous 3 1].Pairwise fun a b => a.now ≤ b.now :=
    List.pairwise_pair.mpr (by decide : 2 ≤ 3)
  refine ⟨hsorted, (allow_accounting_iff hsorted).mpr fun orders step hstep => ?_⟩
  rcases List.mem_cons.mp hstep with rfl | hlater
  · exact not_displaces_of_room (by decide : 0 + 1 < maxRateBuckets)
  · obtain rfl := List.mem_singleton.mp hlater
    rintro ⟨_, _, hnone, _⟩
    cases hnone

/-- The call that opens the last bucket loses the one that it has just charged. -/
theorem allow_evicts_charged :
    (crowdedCalls.Pairwise fun a b => a.now ≤ b.now) ∧
      ∀ orders, ¬ Accounting (served orders .empty crowdedCalls) := by
  refine ⟨crowdedCalls_sorted, fun orders haccounting => ?_⟩
  obtain ⟨orders₁, hfront⟩ := @served_append orders .empty ([0].map (anonymous 0))
    ((List.range' 1 4095).map (anonymous 1) ++ [returning])
  obtain ⟨orders₂, hback⟩ := @served_append orders₁ (reached orders .empty ([0].map (anonymous 0)))
    ((List.range' 1 4095).map (anonymous 1)) [returning]
  obtain ⟨hadmitted, hlost⟩ := @not_counts_returning (orders₂ 0) _
    (@rows_reached_crowded orders orders₁)
  refine hlost (haccounting.counts _ ?_ hadmitted _ (List.mem_map_of_mem List.mem_cons_self))
  rw [crowdedCalls, hfront, hback]
  exact List.mem_append_right _ (List.mem_append_right _ List.mem_cons_self)

end Sample

end MindOne.RateLimits
