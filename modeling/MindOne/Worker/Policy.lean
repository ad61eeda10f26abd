import Mathlib.Algebra.Order.Ring.Rat
import Mathlib.Data.Nat.Cast.Order.Ring

/-!
# The local policy of a sharing worker

A worker reads its policy and its hardware before it offers itself for a job,
and once more right before it runs one. Temperatures and gigabytes are rational
numbers here: a sensor reading is finite.
-/

namespace MindOne.Worker

structure NodePolicy where
  rejectTags : List String
  maxConcurrent : Nat
  gpuTempLimitC : Option Nat
  vramReserveGb : Rat

structure HardwareMetrics where
  gpuTemperatureC : Option Rat
  vramTotalBytes : Option Nat
  vramUsedBytes : Option Nat

/-- Why a policy rejects. -/
inductive PolicyRejection where
  | concurrency (activeRequests maxConcurrent : Nat)
  | tag (tag : String)
  | temperatureUnreadable
  | temperature (temperature : Rat) (limit : Nat)
  | vramTotalUnreadable
  | vramUsedUnreadable
  | vram (free reserve : Rat)

/-- The contribution slots of a worker; slot 0 belongs to the local proxy. -/
def managedShareMaxConcurrent : Nat := 3

def managedShareSlotId (index : Nat) : Option Nat :=
  if index < managedShareMaxConcurrent then some (index + 1) else none

/-- A pause for temperature ends only five degrees below the limit, and holds while
the sensor is silent. -/
def updateTemperaturePause (wasPaused : Bool) (limit : Option Nat) (temperature : Option Rat) :
    Bool :=
  match limit with
  | none => false
  | some limit =>
      match temperature with
      | none => true
      | some temperature =>
          if wasPaused then decide (((limit - 5 : Nat) : Rat) < temperature)
          else decide ((limit : Rat) < temperature)

theorem updateTemperaturePause_of_hot {limit : Nat} {temperature : Rat}
    (h : (limit : Rat) < temperature) (wasPaused : Bool) :
    updateTemperaturePause wasPaused (some limit) (some temperature) = true := by
  have hlow : ((limit - 5 : Nat) : Rat) ≤ limit := Nat.cast_le.mpr (Nat.sub_le limit 5)
  cases wasPaused
  · simpa [updateTemperaturePause] using h
  · simpa [updateTemperaturePause] using hlow.trans_lt h

/-- A pause outlasts every reading above its lower limit, and every silence. -/
theorem updateTemperaturePause_of_paused {limit : Nat} {reading : Option Rat}
    (h : ∀ temperature, reading = some temperature → ((limit - 5 : Nat) : Rat) < temperature) :
    updateTemperaturePause true (some limit) reading = true := by
  cases reading with
  | none => rfl
  | some temperature => simpa [updateTemperaturePause] using h temperature rfl

def checkTags (policy : NodePolicy) (tags : List String) : Except PolicyRejection Unit :=
  match tags.find? fun tag => policy.rejectTags.any fun rejected =>
      rejected.toLower == tag.toLower with
  | some tag => .error (.tag tag)
  | none => .ok ()

def checkTemperature (policy : NodePolicy) (metrics : HardwareMetrics) :
    Except PolicyRejection Unit :=
  match policy.gpuTempLimitC, metrics.gpuTemperatureC with
  | none, _ => .ok ()
  | some _, none => .error .temperatureUnreadable
  | some limit, some temperature =>
      if (limit : Rat) < temperature then .error (.temperature temperature limit) else .ok ()

def checkVram (policy : NodePolicy) (metrics : HardwareMetrics) : Except PolicyRejection Unit :=
  if policy.vramReserveGb ≤ 0 then .ok ()
  else
    match metrics.vramTotalBytes, metrics.vramUsedBytes with
    | none, _ => .error .vramTotalUnreadable
    | some _, none => .error .vramUsedUnreadable
    | some total, some used =>
        let free : Rat := (total - used : Nat)
        let reserve := policy.vramReserveGb * 1024 * 1024 * 1024
        if free < reserve then .error (.vram free reserve) else .ok ()

def evaluatePolicy (policy : NodePolicy) (tags : List String) (activeRequests : Nat)
    (metrics : HardwareMetrics) : Except PolicyRejection Unit := do
  if policy.maxConcurrent ≤ activeRequests then
    throw (.concurrency activeRequests policy.maxConcurrent)
  checkTags policy tags
  checkTemperature policy metrics
  checkVram policy metrics

end MindOne.Worker
