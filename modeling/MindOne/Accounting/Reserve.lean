import MindOne.Values
import MindOne.Accounting.Fixed

/-!
# The reserve

The state of the network reserve and its audited release.
-/

namespace MindOne.Accounting

open CheckedArithmetic

inductive ReservePurpose where
  | resultValidation | failedRetry | bandwidthSubsidy | peakGuarantee
  deriving DecidableEq, Repr

structure ReserveRelease where
  id : Uuid
  purpose : ReservePurpose
  amount : MicroQuota
  referenceId : String
  createdAt : OffsetDateTime
  balanceBefore : MicroQuota
  balanceAfter : MicroQuota

structure ReserveState where
  balance : MicroQuota
  totalInflow : MicroQuota
  totalOutflow : MicroQuota

/-- The state after a release together with its record. -/
def ReserveState.release (self : ReserveState) (id : Uuid) (purpose : ReservePurpose)
    (amount : MicroQuota) (referenceId : String) (createdAt : OffsetDateTime) :
    Result (ReserveState × ReserveRelease) := do
  rejectIf (amount = .zero) (.invalidReserveRelease "准备金释放金额不得为零")
  rejectIf (isBlank referenceId = true ∨ (utf8 referenceId).length > 255 ∨
      hasControl referenceId = true)
    (.invalidReserveRelease "准备金释放必须包含有效审计引用")
  let balanceAfter ← self.balance.checkedSub amount
  let totalOutflow ← self.totalOutflow.checkedAdd amount
  return ({ self with balance := balanceAfter, totalOutflow },
    { id, purpose, amount, referenceId, createdAt,
      balanceBefore := self.balance, balanceAfter })

/-- A release lowers the balance by its amount and records both balances. -/
theorem ReserveState.release_spec {self after : ReserveState} {id : Uuid}
    {purpose : ReservePurpose} {amount : MicroQuota} {referenceId : String}
    {createdAt : OffsetDateTime} {record : ReserveRelease}
    (h : self.release id purpose amount referenceId createdAt = .ok (after, record)) :
    0 < amount.asI64 ∧ record.balanceBefore = self.balance ∧
      record.balanceAfter = after.balance ∧
      after.balance.asI64 + amount.asI64 = self.balance.asI64 := by
  simp only [ReserveState.release, bind_eq_ok, exists_const, rejectIf_eq_ok,
    MicroQuota.checkedSub_eq_ok, MicroQuota.checkedAdd_eq_ok] at h
  obtain ⟨hzero, -, balanceAfter, hbalance, totalOutflow, -, hresult⟩ := h
  cases hresult
  have hnonneg := amount.nonneg
  have hpos : amount.asI64 ≠ 0 := by
    intro hamount
    obtain ⟨value, _⟩ := amount
    exact hzero (by simpa [MicroQuota.zero] using hamount)
  refine ⟨by omega, rfl, rfl, ?_⟩
  show balanceAfter.asI64 + amount.asI64 = self.balance.asI64
  omega

end MindOne.Accounting
