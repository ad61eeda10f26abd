import MindOne.Values
import MindOne.Accounting.Fixed

/-!
# Node policies

Whether a node may take one more piece of work: its rejected tags, its bound on
concurrent work, its temperature limit and the memory it keeps free. The
coordinator reads temperatures as integers, so they stay integers here.
-/

namespace MindOne.Accounting

open CheckedArithmetic

structure NodePolicy where
  rejectTags : List String
  maxConcurrent : Nat
  gpuTempLimitC : Option Nat
  vramReserveMib : Nat
  resumeTempHysteresisC : Nat

structure NodeRuntime where
  taskTags : List String
  currentConcurrent : Nat
  gpuTempC : Option Int
  availableVramMib : Option Nat
  pausedForTemperature : Bool

inductive ResourceMetric where
  | gpuTemperature | availableVram
  deriving DecidableEq, Repr

inductive PolicyRejection where
  | rejectedTag (tag : String)
  | maximumConcurrency (current maximum : Nat)
  | insufficientVram (availableMib reservedMib : Nat)
  | metricUnavailable (metric : ResourceMetric)
  | invalidMetric (metric : ResourceMetric)
  deriving DecidableEq, Repr

inductive PolicyDecision where
  | accept (resumedFromTemperature : Bool)
  | pauseTemperature (currentC : Int) (limitC : Nat)
  | reject (reason : PolicyRejection)
  deriving DecidableEq, Repr

def NodePolicy.validate (self : NodePolicy) : Result Unit := do
  rejectIf (self.maxConcurrent = 0) (.invalidPolicy "max_concurrent 必须大于零")
  rejectIf (∃ limit ∈ self.gpuTempLimitC, limit = 0 ∨ self.resumeTempHysteresisC ≥ limit)
    (.invalidPolicy "GPU 温度上限必须大于零且高于恢复滞回值")
  rejectIf (self.rejectTags.any fun tag =>
      isBlank tag || (utf8 tag).length > 128 || hasControl tag)
    (.invalidPolicy "拒绝标签为空或无效")

/-- `trim().to_ascii_lowercase()`. -/
def normalizedTag (tag : String) : String :=
  String.ofList ((((tag.toList.dropWhile isWhitespace).reverse.dropWhile isWhitespace).reverse).map
    Char.toLower)

/-- The first rejected tag that the task carries, in byte order. -/
def rejectedTag (rejectTags taskTags : List String) : Option String :=
  let common := (rejectTags.map normalizedTag).filter (· ∈ taskTags.map normalizedTag)
  (common.mergeSort fun a b => byteRank a ≤ byteRank b).head?

/-- The temperature part of `evaluatePolicy`; `none` lets the evaluation go on. -/
def temperatureDecision (policy : NodePolicy) (runtime : NodeRuntime) (limit : Nat) :
    Option PolicyDecision :=
  match runtime.gpuTempC with
  | none => some (.reject (.metricUnavailable .gpuTemperature))
  | some temperature =>
      let resumeBelow : Int := (limit - policy.resumeTempHysteresisC : Nat)
      let mustPause := if runtime.pausedForTemperature = true then resumeBelow < temperature
        else (limit : Int) ≤ temperature
      if temperature < 0 then some (.reject (.invalidMetric .gpuTemperature))
      else if mustPause then some (.pauseTemperature temperature limit)
      else none

/-- The memory part of `evaluatePolicy`; `none` lets the evaluation go on. -/
def vramDecision (policy : NodePolicy) (runtime : NodeRuntime) : Option PolicyDecision :=
  if policy.vramReserveMib = 0 then none
  else match runtime.availableVramMib with
    | none => some (.reject (.metricUnavailable .availableVram))
    | some available =>
        if available < policy.vramReserveMib then
          some (.reject (.insufficientVram available policy.vramReserveMib))
        else none

def evaluatePolicy (policy : NodePolicy) (runtime : NodeRuntime) : Result PolicyDecision := do
  policy.validate
  match rejectedTag policy.rejectTags runtime.taskTags with
  | some tag => .ok (.reject (.rejectedTag tag))
  | none =>
      if runtime.currentConcurrent ≥ policy.maxConcurrent then
        .ok (.reject (.maximumConcurrency runtime.currentConcurrent policy.maxConcurrent))
      else match policy.gpuTempLimitC.bind (temperatureDecision policy runtime) with
        | some decision => .ok decision
        | none => match vramDecision policy runtime with
          | some decision => .ok decision
          | none => .ok (.accept (policy.gpuTempLimitC.isSome && runtime.pausedForTemperature))

/-- An accepted evaluation leaves room for one more piece of work. -/
theorem evaluatePolicy_accept {policy : NodePolicy} {runtime : NodeRuntime} {resumed : Bool}
    (h : evaluatePolicy policy runtime = .ok (.accept resumed)) :
    runtime.currentConcurrent < policy.maxConcurrent := by
  obtain ⟨_, -, h⟩ := bind_eq_ok.mp h
  cases htag : rejectedTag policy.rejectTags runtime.taskTags with
  | some tag => simp [htag] at h
  | none =>
      by_cases hfull : runtime.currentConcurrent ≥ policy.maxConcurrent
      · simp [htag, hfull] at h
      · omega

end MindOne.Accounting
