import Mathlib.Data.List.Basic
import Mathlib.Order.Lattice
import Mathlib.Order.Monotone.Basic

/-!
# Counters over fixed windows

A counter opens a window with a charge and counts the charges of this window; the
first charge after its end opens the next one. If no charge is admitted beyond the
limit, no window holds more charges than the limit, and an interval as long as a
window meets two windows at most.
-/

universe u

namespace FixedWindows

/-- A window that was opened, with the charges that it has counted. -/
structure Bucket (T : Type u) where
  started : T
  count : Nat

section Charges
variable {T : Type u} [LT T] [DecidableLT T] (closes : T → T)

/-- The bucket after one more charge. -/
def charge (bucket : Option (Bucket T)) (now : T) : Bucket T :=
  match bucket with
  | none => ⟨now, 1⟩
  | some window =>
      if now < closes window.started then ⟨window.started, window.count + 1⟩ else ⟨now, 1⟩

/-- Charges that were admitted one after another, each with the bucket that it left. -/
inductive Charged (limit : Nat) : Option (Bucket T) → List (T × Bucket T) → Prop where
  | nil {bucket : Option (Bucket T)} : Charged limit bucket []
  | cons {bucket : Option (Bucket T)} {now : T} {rest : List (T × Bucket T)}
      (admitted : (charge closes bucket now).count ≤ limit)
      (later : Charged limit (some (charge closes bucket now)) rest) :
      Charged limit bucket ((now, charge closes bucket now) :: rest)

end Charges

variable {T : Type u} [LinearOrder T] {closes : T → T} {limit : Nat} {bucket : Option (Bucket T)}
  {charges : List (T × Bucket T)}

/-- A window that has ended counts as none. -/
theorem Charged.of_ended {window : Bucket T} (h : Charged closes limit none charges)
    (hended : ∀ entry ∈ charges, closes window.started ≤ entry.1) :
    Charged closes limit (some window) charges := by
  cases h with
  | nil => exact .nil
  | @cons _ now rest admitted later =>
      have hnow : closes window.started ≤ now := hended _ List.mem_cons_self
      have hsame : charge closes none now = charge closes (some window) now := by
        simp only [charge, if_neg (not_lt.mpr hnow)]
      rw [hsame] at admitted later ⊢
      exact .cons admitted later

theorem charge_count_pos (bucket : Option (Bucket T)) (now : T) :
    1 ≤ (charge closes bucket now).count := by
  cases bucket with
  | none => exact le_rfl
  | some window =>
      simp only [charge]
      split
      · exact Nat.le_add_left 1 _
      · exact le_rfl

/-- The window of a charge is open. -/
theorem lt_closes_charge (hopen : ∀ t, t < closes t) (bucket : Option (Bucket T)) (now : T) :
    now < closes (charge closes bucket now).started := by
  cases bucket with
  | none => exact hopen now
  | some window =>
      simp only [charge]
      split
      · assumption
      · exact hopen now

theorem le_started {s : T} (h : Charged closes limit bucket charges)
    (hbucket : ∀ window ∈ bucket, s ≤ window.started) (htimes : ∀ entry ∈ charges, s ≤ entry.1) :
    ∀ entry ∈ charges, s ≤ entry.2.started := by
  induction h with
  | nil => exact fun entry hentry => absurd hentry List.not_mem_nil
  | @cons bucket now rest _ _ ih =>
      have hnow : s ≤ now := htimes _ List.mem_cons_self
      have hcharge : s ≤ (charge closes bucket now).started := by
        cases bucket with
        | none => exact hnow
        | some window =>
            simp only [charge]
            split
            · exact hbucket window rfl
            · exact hnow
      intro entry hentry
      rcases List.mem_cons.mp hentry with rfl | hrest
      · exact hcharge
      · refine ih ?_ (fun other hother => htimes other (List.mem_cons_of_mem _ hother)) entry hrest
        rintro window ⟨⟩
        exact hcharge

section OneWindow

/-- What an open window still admits. -/
theorem countP_started_add_count (hopen : ∀ t, t < closes t) {window : Bucket T}
    (h : Charged closes limit (some window) charges)
    (hsorted : charges.Pairwise fun a b => a.1 ≤ b.1) (hcount : window.count ≤ limit) :
    charges.countP (fun entry => decide (entry.2.started = window.started)) + window.count ≤
      limit := by
  induction charges generalizing window with
  | nil => simpa using hcount
  | cons entry rest ih =>
      obtain ⟨hfirst, hrest⟩ := List.pairwise_cons.mp hsorted
      cases h with
      | @cons _ now _ admitted later =>
          by_cases hlive : now < closes window.started
          · have hcharge : charge closes (some window) now =
                ⟨window.started, window.count + 1⟩ := if_pos hlive
            rw [hcharge] at admitted later
            have hlater := ih later hrest admitted
            rw [hcharge, List.countP_cons_of_pos (by simp)]
            simp only at hlater
            omega
          · have hcharge : charge closes (some window) now = ⟨now, 1⟩ := if_neg hlive
            have hnow : window.started < now := (hopen _).trans_le (not_lt.mp hlive)
            rw [hcharge] at later ⊢
            have hstarts : ∀ other ∈ rest, now ≤ other.2.started := by
              refine le_started later ?_ hfirst
              rintro _ ⟨⟩
              exact le_rfl
            have hnone : rest.countP
                (fun other => decide (other.2.started = window.started)) = 0 := by
              refine List.countP_eq_zero.mpr fun other hother => ?_
              have hlate := hnow.trans_le (hstarts other hother)
              simpa using hlate.ne'
            rw [List.countP_cons_of_neg (by simpa using hnow.ne'), hnone]
            omega

/-- No window holds more charges than the limit. -/
theorem Charged.countP_started_le (hopen : ∀ t, t < closes t)
    (h : Charged closes limit bucket charges)
    (hsorted : charges.Pairwise fun a b => a.1 ≤ b.1) (s : T) :
    charges.countP (fun entry => decide (entry.2.started = s)) ≤ limit := by
  induction h with
  | nil => exact Nat.zero_le limit
  | @cons bucket now rest admitted later ih =>
      obtain ⟨_, hrest⟩ := List.pairwise_cons.mp hsorted
      by_cases hs : (charge closes bucket now).started = s
      · have hlater := countP_started_add_count hopen later hrest admitted
        have hpos := @charge_count_pos _ _ closes bucket now
        rw [hs] at hlater
        rw [List.countP_cons_of_pos (by simpa using hs)]
        omega
      · rw [List.countP_cons_of_neg (by simpa using hs)]
        exact ih hrest

end OneWindow

section Intervals

/-- The charges of an interval that begins at `t` and is as long as a window. -/
def Inside (closes : T → T) (t : T) (entry : T × Bucket T) : Bool :=
  decide (t ≤ entry.1 ∧ entry.1 ≤ closes t)

/-- A window opened inside of the interval is the last one that meets it. -/
theorem countP_inside_of_opened (hmono : StrictMono closes) {t : T} {window : Bucket T}
    (h : Charged closes limit (some window) charges)
    (hsorted : charges.Pairwise fun a b => a.1 ≤ b.1) (hcount : window.count ≤ limit)
    (hafter : t < window.started) :
    charges.countP (Inside closes t) + window.count ≤ limit := by
  induction charges generalizing window with
  | nil => simpa using hcount
  | cons entry rest ih =>
      obtain ⟨hfirst, hrest⟩ := List.pairwise_cons.mp hsorted
      cases h with
      | @cons _ now _ admitted later =>
          by_cases hlive : now < closes window.started
          · have hcharge : charge closes (some window) now =
                ⟨window.started, window.count + 1⟩ := if_pos hlive
            rw [hcharge] at admitted later
            have hlater := ih later hrest admitted hafter
            simp only at hlater
            have hone := List.countP_cons (p := Inside closes t) (l := rest)
              (a := (now, charge closes (some window) now))
            split at hone <;> omega
          · have hlate : closes t < now := (hmono hafter).trans_le (not_lt.mp hlive)
            have hnone : ((now, charge closes (some window) now) :: rest).countP
                (Inside closes t) = 0 := by
              refine List.countP_eq_zero.mpr fun other hother => ?_
              have hother : closes t < other.1 := by
                rcases List.mem_cons.mp hother with rfl | hmem
                · exact hlate
                · exact hlate.trans_le (hfirst other hmem)
              simp only [Inside, decide_eq_true_eq, not_and, not_le]
              exact fun _ => hother
            omega

/-- A window that is open at the beginning of the interval is followed by one more. -/
theorem countP_inside_of_open (hmono : StrictMono closes) {t : T}
    {window : Bucket T} (h : Charged closes limit (some window) charges)
    (hsorted : charges.Pairwise fun a b => a.1 ≤ b.1) (hcount : window.count ≤ limit)
    (hlasting : t < closes window.started) :
    charges.countP (Inside closes t) + window.count ≤ 2 * limit := by
  induction charges generalizing window with
  | nil => simp; omega
  | cons entry rest ih =>
      obtain ⟨_, hrest⟩ := List.pairwise_cons.mp hsorted
      cases h with
      | @cons _ now _ admitted later =>
          have hone := List.countP_cons (p := Inside closes t) (l := rest)
            (a := (now, charge closes (some window) now))
          by_cases hlive : now < closes window.started
          · have hcharge : charge closes (some window) now =
                ⟨window.started, window.count + 1⟩ := if_pos hlive
            rw [hcharge] at admitted later
            have hlater := ih later hrest admitted hlasting
            simp only at hlater
            split at hone <;> omega
          · have hcharge : charge closes (some window) now = ⟨now, 1⟩ := if_neg hlive
            rw [hcharge] at admitted later
            have hlater := countP_inside_of_opened hmono later hrest admitted
              (hlasting.trans_le (not_lt.mp hlive))
            simp only at hlater
            split at hone <;> omega

/-- An interval as long as a window holds at most two limits of charges. -/
theorem Charged.countP_inside_le (hopen : ∀ t, t < closes t) (hmono : StrictMono closes)
    (h : Charged closes limit bucket charges)
    (hsorted : charges.Pairwise fun a b => a.1 ≤ b.1) (t : T) :
    charges.countP (Inside closes t) ≤ 2 * limit := by
  induction h with
  | nil => exact Nat.zero_le _
  | @cons bucket now rest admitted later ih =>
      obtain ⟨_, hrest⟩ := List.pairwise_cons.mp hsorted
      by_cases hin : Inside closes t (now, charge closes bucket now) = true
      · rw [List.countP_cons_of_pos hin]
        have ht : t ≤ now := (of_decide_eq_true hin).1
        have hlater := countP_inside_of_open hmono later hrest admitted
          (ht.trans_lt (lt_closes_charge hopen bucket now))
        have hpos := @charge_count_pos _ _ closes bucket now
        omega
      · rw [List.countP_cons_of_neg hin]
        exact ih hrest

end Intervals

end FixedWindows
