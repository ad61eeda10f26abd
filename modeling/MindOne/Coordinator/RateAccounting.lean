import MindOne.Coordinator.RateLimiter
import MindOne.Lib.FixedWindows

/-!
# What the rate limiter counts

A refused call changes no counter, the map stays within its bound, and a key whose
bucket does not give way is charged within its limit. An admitted call with two keys
can lose the first of them: in a full map the bucket of the second key takes the
place of the oldest one, which may be the one that the same call has just charged.
-/

namespace MindOne.RateLimits

open KeyedTable

/-- A call with the map that it met. -/
structure Served where
  call : RateCall
  order : IterationOrder
  before : Windows

namespace Served
variable (self : Served)

/-- The buckets whose windows have not ended. -/
def live : Windows := RateLimits.live self.call.now self.before

def admitted : Bool := (allow self.order self.call.now self.call.keys self.before).1

def after : Windows := (allow self.order self.call.now self.call.keys self.before).2

def Charges (key : RateKey) : Prop := self.admitted = true ∧ key ∈ self.call.keys.map Prod.fst

instance (key : RateKey) : Decidable (self.Charges key) := inferInstanceAs (Decidable (_ ∧ _))

def Evicts (key : RateKey) : Prop :=
  self.admitted = true ∧ key ∈ evicted self.order self.call.now self.call.keys self.live

/-- A live bucket of the key counts this call. -/
def Counts (key : RateKey) : Prop :=
  ∃ window, get self.after key = some window ∧ self.call.now - window.started < rateWindow ∧
    (window = ⟨self.call.now, 1⟩ ∨ ∃ old, get self.live key = some old ∧
      window.started = old.started ∧ window.count.toNat = old.count.toNat + 1)

end Served

/-- The calls one after another. -/
def served (orders : Nat → IterationOrder) : Windows → List RateCall → List Served
  | _, [] => []
  | windows, call :: rest =>
      ⟨call, orders 0, windows⟩ ::
        served (fun n => orders (n + 1)) (Served.after ⟨call, orders 0, windows⟩) rest

/-- What the limiter is to keep account of over a run. -/
structure Accounting (steps : List Served) : Prop where
  refused : ∀ step ∈ steps, step.admitted = false → ∀ key,
    get step.after key = get step.live key
  counts : ∀ step ∈ steps, step.admitted = true → ∀ key ∈ step.call.keys.map Prod.fst,
    step.Counts key
  bounded : ∀ step ∈ steps, step.after.rows.length ≤ maxRateBuckets
  limited : ∀ (key : RateKey) (limit : UInt32) (segment : List Served), segment <:+: steps →
    (∀ step ∈ segment, ¬ step.Evicts key) →
    (∀ step ∈ segment, ∀ entry ∈ step.call.keys, entry.1 = key → entry.2 ≤ limit) →
      (∀ started, segment.countP (fun step => decide (step.Charges key ∧
        (get step.after key).map RateWindow.started = some started)) ≤ limit.toNat) ∧
      ∀ t, segment.countP (fun step => decide (step.Charges key ∧ t ≤ step.call.now ∧
        step.call.now ≤ t + rateWindow)) ≤ 2 * limit.toNat

section Steps
variable {step : Served} {key : RateKey}

theorem Served.admitted_eq : step.admitted = admits step.call.keys step.live := by
  simp only [Served.admitted, allow, Served.live]
  split
  · rename_i h
    exact h.symm
  · rename_i h
    exact (Bool.eq_false_iff.mpr h).symm

theorem Served.after_of_admitted (h : step.admitted = true) :
    step.after = chargeAll step.order step.call.now step.call.keys step.live := by
  rw [Served.admitted_eq, Served.live] at h
  simp only [Served.after, allow, Served.live, h, if_true]

theorem Served.after_of_refused (h : step.admitted = false) : step.after = step.live := by
  rw [Served.admitted_eq, Served.live] at h
  simp only [Served.after, allow, Served.live, h, Bool.false_eq_true, if_false]

theorem RateCall.nodup_keys (call : RateCall) : (call.keys.map Prod.fst).Nodup := by
  obtain ⟨now, first, second, distinct, positive⟩ := call
  cases second with
  | none => exact List.nodup_singleton _
  | some other =>
      have hne : first.1 ≠ other.1 := (distinct other rfl).symm
      simp [RateCall.keys, hne]

/-- A charge of a key below its limit adds one to its counter. -/
theorem count_counted {now : Nat} {window : RateWindow} {limit : UInt32}
    (h : ¬ limit ≤ window.count) :
    (counted now (some window)).count.toNat = window.count.toNat + 1 := by
  rw [UInt32.not_le, UInt32.lt_iff_toNat_lt] at h
  have hlimit := limit.toNat_lt
  have hfits : window.count.toNat + (1 : UInt32).toNat < 2 ^ 32 := by
    have hone : (1 : UInt32).toNat = 1 := rfl
    omega
  simp only [counted, Option.getD_some, saturatingAdd, if_pos hfits, UInt32.toNat_add]
  rw [Nat.mod_eq_of_lt hfits]
  rfl

theorem counted_none {now : Nat} : counted now none = ⟨now, 1⟩ := rfl

theorem below_limit_of_admits {keys : List (RateKey × UInt32)} {windows : Windows}
    (h : admits keys windows = true) {entry : RateKey × UInt32} (hentry : entry ∈ keys)
    {window : RateWindow} (hwindow : get windows entry.1 = some window) :
    ¬ entry.2 ≤ window.count := by
  simp only [admits, Bool.not_eq_true', List.any_eq_false] at h
  have hbelow := h entry hentry
  rw [hwindow] at hbelow
  simpa using hbelow

/-- A live bucket is one of the map whose window has not ended. -/
theorem Served.get_live_eq_some {window : RateWindow} :
    get step.live key = some window ↔
      get step.before key = some window ∧ step.call.now - window.started < rateWindow := by
  rw [Served.live, get_live, Option.filter_eq_some_iff, decide_eq_true_eq]

/-- What is charged is counted, whether its bucket is kept or is opened for it. -/
theorem Served.counts_of_get {entry : RateKey × UInt32} (hadmitted : step.admitted = true)
    (hentry : entry ∈ step.call.keys) {old : Option RateWindow}
    (hold : old = none ∨ old = get step.live entry.1)
    (hafter : get step.after entry.1 = some (counted step.call.now old)) :
    step.Counts entry.1 := by
  refine ⟨_, hafter, ?_⟩
  have hpositive : 0 < rateWindow := by decide
  cases hwindow : old with
  | none =>
      rw [counted_none]
      exact ⟨by simpa using hpositive, .inl rfl⟩
  | some window =>
      have hlive : get step.live entry.1 = some window := by
        rcases hold with hnone | hsame
        · rw [hwindow] at hnone
          cases hnone
        · rw [← hsame, hwindow]
      rw [Served.admitted_eq] at hadmitted
      have hcount := @count_counted step.call.now _ _
        (below_limit_of_admits hadmitted hentry hlive)
      exact ⟨(Served.get_live_eq_some.mp hlive).2, .inr ⟨window, hlive, rfl, hcount⟩⟩

end Steps

section Runs
variable {orders : Nat → IterationOrder} {windows : Windows} {calls : List RateCall}

theorem map_call_served : (served orders windows calls).map Served.call = calls := by
  induction calls generalizing orders windows with
  | nil => rfl
  | cons call rest ih => rw [served, List.map_cons, ih]

/-- A part of a run is a run from the map that it met. -/
theorem served_of_append {earlier later : List Served}
    (h : served orders windows calls = earlier ++ later) :
    (∃ orders' windows', later = served orders' windows' (calls.drop earlier.length)) ∧
      earlier = served orders windows (calls.take earlier.length) := by
  induction earlier generalizing orders windows calls with
  | nil => exact ⟨⟨orders, windows, h.symm⟩, rfl⟩
  | cons step earlier ih =>
      cases calls with
      | nil => cases h
      | cons call rest =>
          rw [served, List.cons_append, List.cons.injEq] at h
          obtain ⟨rfl, htail⟩ := h
          obtain ⟨hlater, hearlier⟩ := ih htail
          refine ⟨hlater, ?_⟩
          rw [List.length_cons, List.take_succ_cons, served, ← hearlier]

theorem exists_served_of_infix {segment : List Served}
    (h : segment <:+: served orders windows calls) :
    ∃ orders' windows' calls', segment = served orders' windows' calls' ∧
      calls'.Sublist calls := by
  obtain ⟨earlier, later, hsplit⟩ := h
  obtain ⟨_, hfront⟩ := served_of_append hsplit.symm
  obtain ⟨⟨orders', windows', hsegment⟩, _⟩ := served_of_append hfront.symm
  exact ⟨orders', windows', _, hsegment,
    (List.drop_sublist _ _).trans (List.take_sublist _ _)⟩

end Runs

section Windows

/-- The window that starts at an instant ends there. -/
def closes (started : Nat) : Nat := started + rateWindow

theorem lt_closes (t : Nat) : t < closes t :=
  Nat.lt_add_of_pos_right (by decide : 0 < rateWindow)

theorem closes_strictMono : StrictMono closes := fun _ _ h => Nat.add_lt_add_right h rateWindow

def bucket (window : RateWindow) : FixedWindows.Bucket Nat := ⟨window.started, window.count.toNat⟩

variable {step : Served} {key : RateKey} {limit : UInt32}

/-- An admitted charge with the bucket that it left. -/
def Served.charged (key : RateKey) (step : Served) : Nat × FixedWindows.Bucket Nat :=
  (step.call.now, bucket ((get step.after key).getD ⟨step.call.now, 0⟩))

/-- The charges of a key over some steps. -/
def chargesOf (key : RateKey) (steps : List Served) : List (Nat × FixedWindows.Bucket Nat) :=
  (steps.filter fun step => decide (step.Charges key)).map (Served.charged key)

theorem get_after_of_kept (h : ¬ step.Evicts key) :
    get step.after key =
      if step.Charges key then some (counted step.call.now (get step.live key))
      else get step.live key := by
  cases hadmitted : step.admitted with
  | false =>
      have hcharges : ¬ step.Charges key := fun hcharges => by
        rw [Served.Charges, hadmitted] at hcharges
        exact Bool.false_ne_true hcharges.1
      rw [if_neg hcharges, Served.after_of_refused hadmitted]
  | true =>
      have hkept : key ∉ evicted step.order step.call.now step.call.keys step.live :=
        fun hmem => h ⟨hadmitted, hmem⟩
      rw [Served.after_of_admitted hadmitted, get_chargeAll step.call.nodup_keys hkept]
      simp only [Served.Charges, hadmitted, true_and]

/-- A charge of the limiter is one of the counter over fixed windows. -/
theorem charged_eq (hkept : ¬ step.Evicts key) (hcharges : step.Charges key)
    (hlimit : ∀ entry ∈ step.call.keys, entry.1 = key → entry.2 ≤ limit) :
    step.charged key = (step.call.now,
        FixedWindows.charge closes ((get step.before key).map bucket) step.call.now) ∧
      (step.charged key).2.count ≤ limit.toNat := by
  obtain ⟨hadmitted, hkey⟩ := hcharges
  obtain ⟨entry, hentry, rfl⟩ := List.mem_map.mp hkey
  have hle : entry.2.toNat ≤ limit.toNat := UInt32.le_iff_toNat_le.mp (hlimit entry hentry rfl)
  have hcharged : step.charged entry.1 =
      (step.call.now, bucket (counted step.call.now (get step.live entry.1))) := by
    rw [Served.charged, get_after_of_kept hkept, if_pos ⟨hadmitted, hkey⟩, Option.getD_some]
  rw [hcharged]
  rw [Served.admitted_eq] at hadmitted
  cases hlive : get step.live entry.1 with
  | none =>
      have hpositive := step.call.positive entry hentry
      rw [UInt32.lt_iff_toNat_lt] at hpositive
      have hzero : (0 : UInt32).toNat = 0 := rfl
      have hone : (bucket (counted step.call.now none)).count = 1 := rfl
      refine ⟨?_, by rw [hone]; omega⟩
      cases hbefore : get step.before entry.1 with
      | none => rfl
      | some window =>
          have hended : ¬ step.call.now < closes window.started := by
            intro hopen
            have hfound : get step.live entry.1 = some window := by
              refine Served.get_live_eq_some.mpr ⟨hbefore, ?_⟩
              simp only [closes] at hopen
              have hpositive : 0 < rateWindow := by decide
              omega
            rw [hfound] at hlive
            cases hlive
          have hcharge : FixedWindows.charge closes (some (bucket window)) step.call.now =
              ⟨step.call.now, 1⟩ := if_neg hended
          rw [Option.map_some, hcharge]
          rfl
  | some window =>
      have hbelow := below_limit_of_admits hadmitted hentry hlive
      have hcount := @count_counted step.call.now _ _ hbelow
      obtain ⟨hbefore, hopen⟩ := Served.get_live_eq_some.mp hlive
      rw [UInt32.not_le, UInt32.lt_iff_toNat_lt] at hbelow
      have hcharge : FixedWindows.charge closes (some (bucket window)) step.call.now =
          ⟨window.started, window.count.toNat + 1⟩ := by
        refine if_pos ?_
        simp only [closes, bucket]
        omega
      rw [hbefore, Option.map_some, hcharge, bucket, hcount]
      refine ⟨rfl, ?_⟩
      change window.count.toNat + 1 ≤ limit.toNat
      omega

variable {orders : Nat → IterationOrder} {windows : Windows} {calls : List RateCall}

theorem mem_chargesOf {steps : List Served} {entry : Nat × FixedWindows.Bucket Nat}
    (h : entry ∈ chargesOf key steps) : ∃ step ∈ steps, step.call.now = entry.1 := by
  obtain ⟨step, hstep, rfl⟩ := List.mem_map.mp h
  exact ⟨step, (List.mem_filter.mp hstep).1, rfl⟩

theorem now_of_mem_served {step : Served} (h : step ∈ served orders windows calls) :
    step.call ∈ calls := by
  rw [← @map_call_served orders windows calls]
  exact List.mem_map_of_mem h

/-- The charges of a key whose bucket does not give way are those of one counter. -/
theorem charged_of_served (hsorted : calls.Pairwise fun a b => a.now ≤ b.now)
    (hkept : ∀ step ∈ served orders windows calls, ¬ step.Evicts key)
    (hlimit : ∀ step ∈ served orders windows calls, ∀ entry ∈ step.call.keys,
      entry.1 = key → entry.2 ≤ limit) :
    FixedWindows.Charged closes limit.toNat ((get windows key).map bucket)
      (chargesOf key (served orders windows calls)) := by
  induction calls generalizing orders windows with
  | nil => exact .nil
  | cons call rest ih =>
      obtain ⟨hfirst, hrest⟩ := List.pairwise_cons.mp hsorted
      rw [served] at hkept hlimit ⊢
      obtain ⟨hkeptStep, hkeptRest⟩ := List.forall_mem_cons.mp hkept
      obtain ⟨hlimitStep, hlimitRest⟩ := List.forall_mem_cons.mp hlimit
      have hlater := ih hrest hkeptRest hlimitRest
      generalize hstep : (⟨call, orders 0, windows⟩ : Served) = step at *
      have hbefore : step.before = windows := by rw [← hstep]
      have hnow : step.call.now = call.now := by rw [← hstep]
      have hafter := get_after_of_kept hkeptStep
      by_cases hcharges : step.Charges key
      · obtain ⟨hcharged, hcount⟩ := charged_eq hkeptStep hcharges hlimitStep
        rw [hbefore] at hcharged
        rw [hcharged] at hcount
        have hnext : (get step.after key).map bucket =
            some (FixedWindows.charge closes ((get windows key).map bucket) step.call.now) := by
          have hsecond := congrArg Prod.snd hcharged
          rw [if_pos hcharges] at hafter
          simp only [Served.charged, hafter, Option.getD_some] at hsecond
          rw [hafter, Option.map_some, hsecond]
        rw [hnext] at hlater
        rw [chargesOf, List.filter_cons_of_pos (by simpa using hcharges), List.map_cons, hcharged]
        exact .cons hcount hlater
      · rw [if_neg hcharges] at hafter
        rw [hafter] at hlater
        rw [chargesOf, List.filter_cons_of_neg (by simpa using hcharges)]
        cases hwindow : get windows key with
        | none =>
            have hlive : get step.live key = none := by
              rw [Served.live, get_live, hbefore, hwindow]
              rfl
            rw [hlive] at hlater
            exact hlater
        | some window =>
            by_cases hopen : step.call.now - window.started < rateWindow
            · have hlive : get step.live key = some window :=
                Served.get_live_eq_some.mpr ⟨hbefore ▸ hwindow, hopen⟩
              rw [hlive] at hlater
              exact hlater
            · have hlive : get step.live key = none := by
                rw [Served.live, get_live, hbefore, hwindow, Option.filter_some,
                  if_neg (by simpa using hopen)]
              rw [hlive] at hlater
              refine hlater.of_ended fun entry hentry => ?_
              obtain ⟨other, hother, hsame⟩ := mem_chargesOf hentry
              have hlate := hfirst _ (now_of_mem_served hother)
              have hpositive : 0 < rateWindow := by decide
              simp only [closes, bucket]
              omega

/-- A key whose bucket does not give way is charged within its limit. -/
theorem limited_of_served (hsorted : calls.Pairwise fun a b => a.now ≤ b.now)
    {segment : List Served} (hsegment : segment <:+: served orders windows calls)
    (hkept : ∀ step ∈ segment, ¬ step.Evicts key)
    (hlimit : ∀ step ∈ segment, ∀ entry ∈ step.call.keys, entry.1 = key → entry.2 ≤ limit) :
    (∀ started, segment.countP (fun step => decide (step.Charges key ∧
        (get step.after key).map RateWindow.started = some started)) ≤ limit.toNat) ∧
      ∀ t, segment.countP (fun step => decide (step.Charges key ∧ t ≤ step.call.now ∧
        step.call.now ≤ t + rateWindow)) ≤ 2 * limit.toNat := by
  obtain ⟨orders', windows', calls', rfl, hsub⟩ := exists_served_of_infix hsegment
  have hsorted' := hsorted.sublist hsub
  have hcharged := charged_of_served hsorted' hkept hlimit
  have htimes : (chargesOf key (served orders' windows' calls')).Pairwise
      fun a b => a.1 ≤ b.1 := by
    rw [← @map_call_served orders' windows' calls',
      List.pairwise_map] at hsorted'
    rw [chargesOf, List.pairwise_map]
    exact hsorted'.sublist List.filter_sublist
  constructor
  · intro started
    refine le_trans ?_ (hcharged.countP_started_le lt_closes htimes started)
    rw [chargesOf, List.countP_map, List.countP_filter]
    refine List.countP_mono_left fun step _ hstep => ?_
    rw [decide_eq_true_eq, Option.map_eq_some_iff] at hstep
    obtain ⟨hcharges, window, hwindow, rfl⟩ := hstep
    simp [Served.charged, hwindow, hcharges, bucket]
  · intro t
    refine le_trans ?_ (hcharged.countP_inside_le lt_closes closes_strictMono htimes t)
    rw [chargesOf, List.countP_map, List.countP_filter]
    refine List.countP_mono_left fun step _ hstep => ?_
    rw [decide_eq_true_eq] at hstep
    obtain ⟨hcharges, hinside⟩ := hstep
    simp [Served.charged, hcharges, FixedWindows.Inside, closes, hinside]

end Windows

end MindOne.RateLimits
