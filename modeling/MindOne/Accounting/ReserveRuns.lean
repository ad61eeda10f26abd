import MindOne.Accounting.Reserve

/-!
# Calls on the reserve

An inflow writes the balance before it checks the total of the inflows. If that
check fails the call returns an error and the balance stays raised. Every other
call either succeeds or leaves the reserve as it was.
-/

namespace MindOne.Accounting

open CheckedArithmetic

def ReserveState.default : ReserveState := ⟨.zero, .zero, .zero⟩

/-- The state after the call, also when it returns an error. -/
def ReserveState.addInflow (self : ReserveState) (amount : MicroQuota) :
    ReserveState × Result Unit :=
  if amount = .zero then
    (self, .error (.invalidReserveRelease "准备金流入不得为零"))
  else
    match self.balance.checkedAdd amount with
    | .error error => (self, .error error)
    | .ok balance =>
        let written := { self with balance }
        match written.totalInflow.checkedAdd amount with
        | .error error => (written, .error error)
        | .ok totalInflow => ({ written with totalInflow }, .ok ())

inductive ReserveCall where
  | addInflow (amount : MicroQuota)
  | release (id : Uuid) (purpose : ReservePurpose) (amount : MicroQuota) (referenceId : String)
      (createdAt : OffsetDateTime)

/-- What a call answers: nothing for an inflow, its record for a release. -/
def ReserveState.call (self : ReserveState) :
    ReserveCall → ReserveState × Result (Option ReserveRelease)
  | .addInflow amount => ((self.addInflow amount).1, (self.addInflow amount).2.map fun _ => none)
  | .release id purpose amount referenceId createdAt =>
      match self.release id purpose amount referenceId createdAt with
      | .error error => (self, .error error)
      | .ok (after, record) => (after, .ok (some record))

def ReserveState.callAll (self : ReserveState) (calls : List ReserveCall) : ReserveState :=
  calls.foldl (fun state call => (state.call call).1) self

/-- The balance is what came in and has not gone out. -/
def ReserveState.Balanced (self : ReserveState) : Prop :=
  self.balance.asI64 = self.totalInflow.asI64 - self.totalOutflow.asI64

/-- What one call has to do: an error changes nothing, the books balance afterwards, and
a release reports both balances. -/
structure ReserveState.CallSound (state : ReserveState) (call : ReserveCall) : Prop where
  atomic : ∀ error, (state.call call).2 = .error error → (state.call call).1 = state
  balanced : (state.call call).1.Balanced
  covered : (state.call call).1.balance.asI64 ≤ (state.call call).1.totalInflow.asI64
  reported : ∀ record, (state.call call).2 = .ok (some record) →
    record.balanceBefore = state.balance ∧ record.balanceAfter = (state.call call).1.balance

/-- The inflow fits into the balance, but not into the total of the inflows. -/
def ReserveState.Overruns (self : ReserveState) : ReserveCall → Prop
  | .addInflow amount => 0 < amount.asI64 ∧ Fits 64 (self.balance.asI64 + amount.asI64) ∧
      ¬ Fits 64 (self.totalInflow.asI64 + amount.asI64)
  | .release .. => False

section Calls
variable {self : ReserveState} {amount : MicroQuota}

theorem MicroQuota.ne_zero_iff : amount ≠ .zero ↔ 0 < amount.asI64 := by
  obtain ⟨value, hvalue⟩ := amount
  simp only [MicroQuota.zero, ne_eq, MicroQuota.mk.injEq]
  omega

theorem MicroQuota.not_fits_of_error {a b : MicroQuota} {error : AccountingError}
    (h : a.checkedAdd b = .error error) : ¬ Fits 64 (a.asI64 + b.asI64) := by
  intro fits
  have hnonneg : 0 ≤ a.asI64 + b.asI64 := Int.add_nonneg a.nonneg b.nonneg
  have hok : a.checkedAdd b = .ok ⟨a.asI64 + b.asI64, hnonneg⟩ :=
    MicroQuota.checkedAdd_eq_ok.mpr ⟨fits, rfl⟩
  rw [h] at hok
  cases hok

/-- An inflow is booked twice, or overruns the total and is booked once, or is turned away. -/
theorem ReserveState.addInflow_cases (self : ReserveState) (amount : MicroQuota) :
    (∃ balance totalInflow, self.addInflow amount = ({ self with balance, totalInflow }, .ok ()) ∧
      ¬ self.Overruns (.addInflow amount) ∧
      balance.asI64 = self.balance.asI64 + amount.asI64 ∧
      totalInflow.asI64 = self.totalInflow.asI64 + amount.asI64) ∨
    (∃ balance error, self.addInflow amount = ({ self with balance }, .error error) ∧
      self.Overruns (.addInflow amount) ∧
      balance.asI64 = self.balance.asI64 + amount.asI64) ∨
    ∃ error, self.addInflow amount = (self, .error error) ∧
      ¬ self.Overruns (.addInflow amount) := by
  unfold addInflow
  by_cases hzero : amount = .zero
  · refine .inr (.inr ⟨_, if_pos hzero, fun h => ?_⟩)
    exact MicroQuota.ne_zero_iff.mpr h.1 hzero
  rw [if_neg hzero]
  cases hbalance : self.balance.checkedAdd amount with
  | error error =>
      exact .inr (.inr ⟨error, rfl, fun h => MicroQuota.not_fits_of_error hbalance h.2.1⟩)
  | ok balance =>
      obtain ⟨hfits, hsum⟩ := MicroQuota.checkedAdd_eq_ok.mp hbalance
      cases htotal : self.totalInflow.checkedAdd amount with
      | error error =>
          exact .inr (.inl ⟨balance, error, by simp only [htotal],
            ⟨MicroQuota.ne_zero_iff.mp hzero, hfits, MicroQuota.not_fits_of_error htotal⟩,
            hsum.symm⟩)
      | ok totalInflow =>
          obtain ⟨hinflow, hsum'⟩ := MicroQuota.checkedAdd_eq_ok.mp htotal
          exact .inl ⟨balance, totalInflow, by simp only [htotal], fun h => h.2.2 hinflow,
            hsum.symm, hsum'.symm⟩

/-- Books that balance cover the balance by the inflows. -/
theorem ReserveState.Balanced.covered (h : self.Balanced) :
    self.balance.asI64 ≤ self.totalInflow.asI64 := by
  have houtflow := self.totalOutflow.nonneg
  unfold Balanced at h
  omega

/-- A release succeeds with its record, or changes nothing. -/
theorem ReserveState.release_sound {id : Uuid} {purpose : ReservePurpose}
    {referenceId : String} {createdAt : OffsetDateTime} (h : self.Balanced) :
    self.CallSound (.release id purpose amount referenceId createdAt) := by
  cases hrelease : self.release id purpose amount referenceId createdAt with
  | error error =>
      have hcall : self.call (.release id purpose amount referenceId createdAt) =
          (self, .error error) := by simp only [call, hrelease]
      exact {
        atomic := fun _ _ => by rw [hcall]
        balanced := by rw [hcall]; exact h
        covered := by rw [hcall]; exact h.covered
        reported := fun _ hok => by rw [hcall] at hok; cases hok }
  | ok outcome =>
      obtain ⟨after, record⟩ := outcome
      have hcall : self.call (.release id purpose amount referenceId createdAt) =
          (after, .ok (some record)) := by simp only [call, hrelease]
      obtain ⟨-, hbefore, hafter, hsum⟩ := release_spec hrelease
      have hbalanced : after.Balanced := by
        simp only [release, bind_eq_ok, MicroQuota.checkedAdd_eq_ok] at hrelease
        obtain ⟨_, -, _, -, balance, -, outflow, ⟨-, houtflow⟩, hresult⟩ := hrelease
        cases hresult
        unfold Balanced at h ⊢
        simp only at hsum ⊢
        omega
      exact {
        atomic := fun _ herror => by rw [hcall] at herror; cases herror
        balanced := by rw [hcall]; exact hbalanced
        covered := by rw [hcall]; exact hbalanced.covered
        reported := fun _ hok => by
          rw [hcall] at hok ⊢
          cases hok
          exact ⟨hbefore, hafter⟩ }

/-- On balanced books a call is sound exactly when it does not overrun the total. -/
theorem ReserveState.callSound_iff (call : ReserveCall) (h : self.Balanced) :
    self.CallSound call ↔ ¬ self.Overruns call := by
  cases call with
  | release id purpose amount referenceId createdAt =>
      exact iff_of_true (release_sound h) fun hover => hover
  | addInflow amount =>
      rcases self.addInflow_cases amount with ⟨balance, totalInflow, hcall, hnot, hb, ht⟩ |
        ⟨balance, error, hcall, hover, hb⟩ | ⟨error, hcall, hnot⟩
      · have hbalanced : ({ self with balance, totalInflow } : ReserveState).Balanced := by
          unfold Balanced at h ⊢
          simp only [hb, ht]
          omega
        refine iff_of_true ?_ hnot
        exact {
          atomic := fun _ herror => by simp only [call, hcall] at herror; cases herror
          balanced := by simp only [call, hcall]; exact hbalanced
          covered := by simp only [call, hcall]; exact hbalanced.covered
          reported := fun _ hok => by simp only [call, hcall] at hok; cases hok }
      · refine iff_of_false (fun sound => ?_) (not_not_intro hover)
        have hsame := sound.atomic error (by simp only [call, hcall]; rfl)
        have hraised : balance = self.balance := by
          simpa only [call, hcall] using congrArg ReserveState.balance hsame
        have hpos := hover.1
        rw [hraised] at hb
        omega
      · refine iff_of_true ?_ hnot
        exact {
          atomic := fun _ _ => by simp only [call, hcall]
          balanced := by simp only [call, hcall]; exact h
          covered := by simp only [call, hcall]; exact h.covered
          reported := fun _ hok => by simp only [call, hcall] at hok; cases hok }

theorem ReserveState.callAll_balanced (calls : List ReserveCall) (h : self.Balanced)
    (hnot : ∀ earlier call later, calls = earlier ++ call :: later →
      ¬ (self.callAll earlier).Overruns call) : (self.callAll calls).Balanced := by
  induction calls generalizing self with
  | nil => exact h
  | cons call rest ih =>
      have hcall := (callSound_iff call h).mpr (hnot [] call rest rfl)
      refine ih hcall.balanced fun earlier next later hrest => ?_
      exact hnot (call :: earlier) next later (by rw [hrest, List.cons_append])

end Calls

/-- In every run from the default state, all calls are sound if and only if no inflow
overruns the total. -/
theorem reserve_calls_sound (calls : List ReserveCall) :
    (∀ earlier call later, calls = earlier ++ call :: later →
      (ReserveState.default.callAll earlier).CallSound call) ↔
    ∀ earlier call later, calls = earlier ++ call :: later →
      ¬ (ReserveState.default.callAll earlier).Overruns call := by
  have hdefault : ReserveState.default.Balanced := rfl
  constructor
  · intro hsound earlier call later hcalls
    have hbalanced : (ReserveState.default.callAll earlier).Balanced := by
      rcases List.eq_nil_or_concat earlier with rfl | ⟨before, last, rfl⟩
      · exact hdefault
      · have hlast := (hsound before last (call :: later) (by simp [hcalls])).balanced
        rwa [List.concat_eq_append, ReserveState.callAll, List.foldl_append]
    exact (ReserveState.callSound_iff call hbalanced).mp (hsound earlier call later hcalls)
  · intro hnot earlier call later hcalls
    have hbalanced : (ReserveState.default.callAll earlier).Balanced := by
      refine ReserveState.callAll_balanced earlier hdefault fun before next after hsplit => ?_
      exact hnot before next (after ++ call :: later) (by simp [hcalls, hsplit])
    exact (ReserveState.callSound_iff call hbalanced).mpr (hnot earlier call later hcalls)

section Sample

def sampleMax : MicroQuota := ⟨9223372036854775807, by decide⟩

/-- The whole range flows in and out again. -/
def sampleTurnover : List ReserveCall :=
  [.addInflow sampleMax, .release (.fromU128 1) .failedRetry sampleMax "job-attempt-2"
    ⟨1784282400000004000, by decide⟩]

/-- The next inflow fails and stays in the balance. -/
theorem reserve_calls_sound_fails :
    ∃ calls earlier call later, calls = earlier ++ call :: later ∧
      ¬ (ReserveState.default.callAll earlier).CallSound call := by
  refine ⟨_, sampleTurnover, .addInflow ⟨1, by decide⟩, [], rfl, fun sound => ?_⟩
  have hbalanced : (ReserveState.default.callAll sampleTurnover).Balanced := by
    unfold ReserveState.Balanced
    decide +kernel
  exact (ReserveState.callSound_iff _ hbalanced).mp sound
    ⟨by decide, by decide +kernel, by decide +kernel⟩

end Sample

end MindOne.Accounting
