import Mathlib.Data.Rat.Floor
import MindOne.Coordinator.Heartbeats
import MindOne.Lib.PgNumeric

/-!
# Verified uptime

Every accepted heartbeat adds the time since the one before it, rounded to a whole second,
unless more than ninety seconds have passed. The gaps add up to the time between the first
and the last heartbeat; what the rounding of each gap gains or loses adds up as well.
-/

namespace MindOne.Coordinator

open PgNumeric

def microsPerSecond : Int := 1000000

/-- `interval '90 seconds'`. -/
def uptimeGapLimit : Int := 90 * microsPerSecond

structure UptimeColumns where
  verifiedUptimeSeconds : Int
  verifiedHeartbeatCount : Int
  lastVerifiedHeartbeatAt : Option Int
  deriving DecidableEq

/-- `EXTRACT(EPOCH FROM (now() - last_verified_heartbeat_at))::bigint`. -/
def uptimeIncrement (lastVerifiedHeartbeatAt : Option Int) (now : Int) : Int :=
  match lastVerifiedHeartbeatAt with
  | some last =>
      if last ≤ now ∧ now - uptimeGapLimit ≤ last then
        max (roundHalfAway (now - last) microsPerSecond) 0
      else 0
  | none => 0

def UptimeColumns.beat (self : UptimeColumns) (now : Int) : UptimeColumns where
  verifiedUptimeSeconds :=
    self.verifiedUptimeSeconds + uptimeIncrement self.lastVerifiedHeartbeatAt now
  verifiedHeartbeatCount := self.verifiedHeartbeatCount + 1
  lastVerifiedHeartbeatAt := some now

/-- The rows of a node with its uptime columns. -/
structure MeteredNode where
  row : HeartbeatNode
  uptime : UptimeColumns

namespace MeteredNode

/-- The columns of a node without a heartbeat. -/
def registered (row : HeartbeatNode) : MeteredNode := ⟨row, 0, 0, none⟩

def heartbeat (self : MeteredNode) (call : HeartbeatCall) : MeteredNode :=
  match nodeHeartbeat (some self.row) call.principal call.request call.now with
  | .ok (after, _) => ⟨after, self.uptime.beat call.now⟩
  | .error _ => self

def heartbeats (self : MeteredNode) (calls : List HeartbeatCall) : MeteredNode :=
  calls.foldl heartbeat self

end MeteredNode

/-- The times of the accepted heartbeats, in microseconds. -/
def HeartbeatNode.beats (row : HeartbeatNode) (calls : List HeartbeatCall) : List Int :=
  (row.accepted calls).map (·.now)

/-- The time between consecutive heartbeats. -/
def beatGaps : Int → List Int → List Int
  | _, [] => []
  | last, now :: rest => (now - last) :: beatGaps now rest

/-- The gap counts and has a fraction of half a second or more. -/
def RoundedUp (gap : Int) : Prop :=
  gap ≤ uptimeGapLimit ∧ microsPerSecond ≤ 2 * (gap % microsPerSecond)

instance (gap : Int) : Decidable (RoundedUp gap) := inferInstanceAs (Decidable (_ ∧ _))

/-- What the columns gain on a gap over the time that has passed, in microseconds. -/
def roundingGain (gap : Int) : Int :=
  if uptimeGapLimit < gap then -gap
  else if RoundedUp gap then microsPerSecond - gap % microsPerSecond
  else -(gap % microsPerSecond)

section Gaps
variable {last now : Int} {times : List Int}

theorem uptimeIncrement_mul (h : last ≤ now) :
    uptimeIncrement (some last) now * microsPerSecond = now - last + roundingGain (now - last) := by
  have hround := roundHalfAway_eq (n := now - last) (d := microsPerSecond) (by omega) (by decide)
  simp only [microsPerSecond] at hround
  by_cases hcounts : now - last ≤ uptimeGapLimit
  · have hincrement : uptimeIncrement (some last) now =
        max (roundHalfAway (now - last) microsPerSecond) 0 :=
      if_pos ⟨h, by omega⟩
    rw [roundingGain, if_neg (not_lt.mpr hcounts), hincrement]
    simp only [RoundedUp, hcounts, true_and, microsPerSecond, hround]
    split <;> omega
  · have hincrement : uptimeIncrement (some last) now = 0 := if_neg fun hboth => by omega
    rw [roundingGain, if_pos (not_le.mp hcounts), hincrement]
    omega

theorem roundingGain_nonpos (h : 0 ≤ now) (hdown : ¬RoundedUp now) : roundingGain now ≤ 0 := by
  rw [roundingGain, if_neg hdown]
  split
  · omega
  · exact neg_nonpos.mpr (Int.emod_nonneg _ (by decide))

theorem sum_roundingGain_nonpos {gaps : List Int} (h : ∀ gap ∈ gaps, 0 ≤ gap ∧ ¬RoundedUp gap) :
    (gaps.map roundingGain).sum ≤ 0 := by
  induction gaps with
  | nil => simp
  | cons gap rest ih =>
      obtain ⟨hnonneg, hdown⟩ := h gap List.mem_cons_self
      rw [List.map_cons, List.sum_cons]
      exact add_nonpos (roundingGain_nonpos hnonneg hdown)
        (ih fun other hother => h other (List.mem_cons_of_mem _ hother))

/-- The gaps of the heartbeats after one of them, as the columns count them. -/
theorem foldl_beat (h : (last :: times).Pairwise (· ≤ ·)) (columns : UptimeColumns)
    (hlast : columns.lastVerifiedHeartbeatAt = some last) :
    (times.foldl UptimeColumns.beat columns).verifiedUptimeSeconds * microsPerSecond =
      columns.verifiedUptimeSeconds * microsPerSecond + (times.getLastD last - last) +
        ((beatGaps last times).map roundingGain).sum := by
  induction times generalizing last columns with
  | nil => simp [beatGaps]
  | cons now rest ih =>
      obtain ⟨hfirst, hrest⟩ := List.pairwise_cons.mp h
      have hstep := uptimeIncrement_mul (hfirst now List.mem_cons_self)
      rw [List.foldl_cons, ih hrest (columns.beat now) rfl, UptimeColumns.beat, hlast, beatGaps,
        List.map_cons, List.sum_cons, List.getLastD_cons]
      simp only [add_mul, hstep]
      omega

theorem beatGaps_nonneg (h : (last :: times).Pairwise (· ≤ ·)) :
    ∀ gap ∈ beatGaps last times, 0 ≤ gap := by
  induction times generalizing last with
  | nil => simp [beatGaps]
  | cons now rest ih =>
      obtain ⟨hfirst, hrest⟩ := List.pairwise_cons.mp h
      intro gap hgap
      rcases List.mem_cons.mp hgap with rfl | hgap
      · have := hfirst now List.mem_cons_self
        omega
      · exact ih hrest gap hgap

end Gaps

section Runs
variable {row : HeartbeatNode}

theorem MeteredNode.heartbeat_eq (node : MeteredNode) (call : HeartbeatCall) :
    (node.heartbeat call).row = node.row.heartbeat call ∧
      (node.heartbeat call).uptime =
        if call.Accepted node.row then node.uptime.beat call.now else node.uptime := by
  rw [MeteredNode.heartbeat, HeartbeatNode.heartbeat]
  cases hcall : nodeHeartbeat (some node.row) call.principal call.request call.now with
  | ok outcome =>
      have haccepted : call.Accepted node.row := congrArg Except.isOk hcall
      rw [if_pos haccepted]
      exact ⟨rfl, rfl⟩
  | error error =>
      have hrefused : ¬call.Accepted node.row := by
        intro haccepted
        have hok : Except.isOk (nodeHeartbeat (some node.row) call.principal call.request
            call.now) = true := haccepted
        rw [hcall] at hok
        cases hok
      rw [if_neg hrefused]
      exact ⟨rfl, rfl⟩

variable (row) in
/-- The columns only see the times of the accepted heartbeats. -/
theorem MeteredNode.heartbeats_uptime (node : MeteredNode) (hsame : row.SameNode node.row)
    (calls : List HeartbeatCall) :
    (node.heartbeats calls).uptime = (row.beats calls).foldl UptimeColumns.beat node.uptime := by
  induction calls generalizing node with
  | nil => rfl
  | cons call rest ih =>
      obtain ⟨hrow, huptime⟩ := node.heartbeat_eq call
      have hnext := ih (node.heartbeat call) (hrow ▸ hsame.heartbeat call)
      refine hnext.trans ?_
      by_cases haccepted : call.Accepted row
      · rw [huptime, if_pos (hsame.accepted.mpr haccepted)]
        simp only [HeartbeatNode.beats, HeartbeatNode.accepted, List.filter_cons, haccepted,
          decide_true, if_true, List.map_cons, List.foldl_cons]
      · rw [huptime, if_neg fun h => haccepted (hsame.accepted.mp h)]
        simp only [HeartbeatNode.beats, HeartbeatNode.accepted, List.filter_cons, haccepted,
          decide_false, Bool.false_eq_true, if_false]

/-- The uptime stays within the real time, rounded up, exactly as long as the rounding gains
less than a second, and so whenever no gap is rounded up. -/
theorem verifiedUptime_le_iff (row : HeartbeatNode) (calls : List HeartbeatCall) {first : Int}
    {rest : List Int} (htimes : row.beats calls = first :: rest)
    (hsorted : (first :: rest).Pairwise (· ≤ ·)) :
    (((MeteredNode.registered row).heartbeats calls).uptime.verifiedUptimeSeconds ≤
        ⌈((rest.getLastD first - first : Int) : ℚ) / microsPerSecond⌉ ↔
      ((beatGaps first rest).map roundingGain).sum < microsPerSecond) ∧
    ((∀ gap ∈ beatGaps first rest, ¬RoundedUp gap) →
      ((MeteredNode.registered row).heartbeats calls).uptime.verifiedUptimeSeconds ≤
        ⌈((rest.getLastD first - first : Int) : ℚ) / microsPerSecond⌉) := by
  rw [MeteredNode.heartbeats_uptime row _ ⟨rfl, rfl⟩, htimes, List.foldl_cons]
  have hfold := foldl_beat hsorted ((MeteredNode.registered row).uptime.beat first) rfl
  have hzero : ((MeteredNode.registered row).uptime.beat first).verifiedUptimeSeconds = 0 := rfl
  rw [hzero, zero_mul, zero_add] at hfold
  set total := (rest.foldl UptimeColumns.beat
    ((MeteredNode.registered row).uptime.beat first)).verifiedUptimeSeconds
  have hceil : total ≤ ⌈((rest.getLastD first - first : Int) : ℚ) / microsPerSecond⌉ ↔
      (total - 1) * microsPerSecond < rest.getLastD first - first := by
    rw [← Int.sub_one_lt_iff, Int.lt_ceil, lt_div_iff₀ (by norm_num [microsPerSecond])]
    exact_mod_cast Iff.rfl
  have hiff : total ≤ ⌈((rest.getLastD first - first : Int) : ℚ) / microsPerSecond⌉ ↔
      ((beatGaps first rest).map roundingGain).sum < microsPerSecond := by
    rw [hceil, sub_mul, hfold, one_mul]
    constructor <;> intro h <;> linarith
  refine ⟨hiff, fun hdown => hiff.mpr ?_⟩
  exact (sum_roundingGain_nonpos fun gap hgap =>
    ⟨beatGaps_nonneg hsorted gap hgap, hdown gap hgap⟩).trans_lt (by decide)

/-- A heartbeat of the sample node at some time. -/
def sampleBeatAt (now : Int) : HeartbeatCall := { sampleBeat 60 0 with now }

theorem verifiedUptime_le_iff_sample :
    ((MeteredNode.registered sampleHeatNode).heartbeats
        ([0, 30400000, 60700000, 400000000].map sampleBeatAt)).uptime.verifiedUptimeSeconds ≤
      ⌈((400000000 - 0 : Int) : ℚ) / microsPerSecond⌉ :=
  (verifiedUptime_le_iff sampleHeatNode _ (by decide +kernel : sampleHeatNode.beats _ =
    [0, 30400000, 60700000, 400000000]) (by decide)).1.mpr (by decide +kernel)

/-- Three heartbeats half a second apart count two seconds in one. -/
theorem verifiedUptime_le_iff_fails :
    sampleHeatNode.beats ([0, 500000, 1000000].map sampleBeatAt) = [0, 500000, 1000000] ∧
    ¬((MeteredNode.registered sampleHeatNode).heartbeats
        ([0, 500000, 1000000].map sampleBeatAt)).uptime.verifiedUptimeSeconds ≤
      ⌈((1000000 - 0 : Int) : ℚ) / microsPerSecond⌉ := by
  have huptime : ((MeteredNode.registered sampleHeatNode).heartbeats
      ([0, 500000, 1000000].map sampleBeatAt)).uptime.verifiedUptimeSeconds = 2 := by
    decide +kernel
  refine ⟨by decide +kernel, ?_⟩
  rw [huptime]
  norm_num [microsPerSecond]

end Runs

end MindOne.Coordinator
