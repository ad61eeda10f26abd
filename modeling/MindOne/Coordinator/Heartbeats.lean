import MindOne.Coordinator.Nodes
import MindOne.Stream.Events

/-!
# Heartbeats and the temperature pause

A heartbeat sets the status of its node. That a node is paused for its
temperature is only remembered in the one column for the reason of the pause:
a heartbeat that drains the node, or that finds another reason to pause it,
overwrites the memory, and the next one resumes at any temperature below the
limit.
-/

namespace MindOne.Coordinator

open CheckedArithmetic MindOne.Stream

inductive PauseReason where
  | gpuTemperatureLimit | vramReserve | maxConcurrent | awaitingFirstHeartbeat
  | deviceRebindRequired
  deriving DecidableEq, Repr

structure NodePolicyDto where
  rejectTags : List String
  maxConcurrent : Nat
  gpuTempLimitC : Option Nat
  vramReserveMib : Nat

structure HeartbeatRequest where
  tpsMilli : Int
  ttftMs : Int
  currentConcurrent : Int
  gpuTempC : Option Int
  vramUsedMib : Option Int
  vramTotalMib : Option Int
  errorRatePpm : Int
  coordinatorRttMs : Option Int
  draining : Bool
  policy : Option NodePolicyDto

def validateTags (tags : List String) : Except ProtocolValidationError Unit := do
  rejectIf (32 < tags.length) ⟨"tags", "标签数量不得超过 32 个"⟩
  rejectIf ((tags.any fun tag => tag.isEmpty || decide (64 < tag.utf8ByteSize) ||
      tag.toList.any fun c => decide (128 ≤ c.toNat)) = true)
    ⟨"tags", "每个标签必须是 1 到 64 字节的 ASCII 字符串"⟩

def NodePolicyDto.validate (policy : NodePolicyDto) : Except ProtocolValidationError Unit := do
  validateTags policy.rejectTags
  rejectIf (policy.maxConcurrent < 1 ∨ 1024 < policy.maxConcurrent)
    ⟨"max_concurrent", "必须在 1 到 1024 之间"⟩
  rejectIf ((policy.gpuTempLimitC.any fun limit => limit < 30 ∨ 120 < limit) = true)
    ⟨"gpu_temp_limit_c", "必须在 30 到 120 摄氏度之间"⟩
  rejectIf (9223372036854775807 < policy.vramReserveMib)
    ⟨"vram_reserve_mib", "超出协调服务器可结算范围"⟩

def HeartbeatRequest.validate (request : HeartbeatRequest) :
    Except ProtocolValidationError Unit := do
  rejectIf (request.tpsMilli < 0 ∨ request.ttftMs < 0 ∨ request.currentConcurrent < 0 ∨
      ¬ (0 ≤ request.errorRatePpm ∧ request.errorRatePpm ≤ 1000000))
    ⟨"metrics", "TPS、TTFT、并发不得为负，错误率必须在 0 到 1000000 ppm"⟩
  rejectIf ((request.gpuTempC.any fun value => ¬ (0 ≤ value ∧ value ≤ 200)) = true)
    ⟨"gpu_temp_c", "温度必须在 0 到 200 摄氏度之间"⟩
  rejectIf ((request.coordinatorRttMs.any fun value => ¬ (1 ≤ value ∧ value ≤ 60000)) = true)
    ⟨"coordinator_rtt_ms", "协调服务器往返时延必须在 1 到 60000 毫秒之间"⟩
  rejectIf ((request.vramUsedMib.any fun value => value < 0) = true ∨
      (request.vramTotalMib.any fun value => value < 0) = true ∨
      ((request.vramUsedMib.bind fun used =>
        request.vramTotalMib.map fun total => decide (total < used)) = some true))
    ⟨"vram", "显存指标不得为负且已用显存不得超过总显存"⟩
  match request.policy with
  | some policy => policy.validate
  | none => .ok ()

/-- The rows of a node that a heartbeat locks. -/
structure HeartbeatNode where
  node : Node
  pauseReason : Option PauseReason
  policy : NodePolicyRow

structure HeartbeatAnswer where
  nodeId : Uuid
  status : NodeStatus
  acceptingJobs : Bool
  pauseReason : Option PauseReason
  policyUpdated : Bool

/-- The policy in numbers that the columns can hold. -/
def sqlPolicyValues (policy : NodePolicyDto) : ApiResult (Nat × Option Nat × Nat) := do
  rejectIf (2147483647 < policy.maxConcurrent)
    (.badRequest "invalid_node_policy" "节点并发超出数据库范围")
  rejectIf (9223372036854775807 < policy.vramReserveMib)
    (.badRequest "invalid_node_policy" "显存保留阈值超出数据库范围")
  return (policy.maxConcurrent, policy.gpuTempLimitC, policy.vramReserveMib)

def updatePolicy (row : NodePolicyRow) : Option NodePolicyDto → ApiResult NodePolicyRow
  | none => .ok row
  | some policy => do
      let (maxConcurrent, gpuTempLimitC, vramReserveMib) ← sqlPolicyValues policy
      return { row with
        rejectTags := policy.rejectTags
        maxConcurrent
        gpuTempLimitC
        vramReserveMib }

def HeartbeatNode.wasTemperaturePaused (row : HeartbeatNode) : Bool :=
  decide (row.node.status = .paused ∧ row.pauseReason = some .gpuTemperatureLimit)

/-- A paused node resumes five degrees below the limit; a silent sensor pauses. -/
def temperatureRequiresPause (wasPaused : Bool) (gpuLimit : Option Nat)
    (gpuTempC : Option Int) : Bool :=
  match gpuLimit with
  | none => false
  | some gpuLimit =>
      match gpuTempC with
      | none => true
      | some temperature =>
          if wasPaused = true then decide ((gpuLimit : Int) - 5 < temperature)
          else decide ((gpuLimit : Int) ≤ temperature)

def vramShort (policy : NodePolicyRow) (request : HeartbeatRequest) : Bool :=
  match request.vramUsedMib, request.vramTotalMib with
  | some used, some total => decide (total - used < policy.vramReserveMib)
  | _, _ => false

def atMaximum (policy : NodePolicyRow) (request : HeartbeatRequest) : Bool :=
  decide ((policy.maxConcurrent : Int) ≤ request.currentConcurrent)

/-- The last reason that applies, in the order in which they are checked. -/
def HeartbeatNode.newPauseReason (row : HeartbeatNode) (policy : NodePolicyRow)
    (request : HeartbeatRequest) : Option PauseReason :=
  if atMaximum policy request = true then some .maxConcurrent
  else if vramShort policy request = true then some .vramReserve
  else if temperatureRequiresPause row.wasTemperaturePaused policy.gpuTempLimitC
      request.gpuTempC = true then some .gpuTemperatureLimit
  else none

def newStatus (draining : Bool) (pauseReason : Option PauseReason) : NodeStatus :=
  if draining = true then .draining else if pauseReason.isSome = true then .paused else .online

/-- What a heartbeat that passes its checks writes, under the policy in force. -/
def HeartbeatNode.beat (row : HeartbeatNode) (policy : NodePolicyRow) (request : HeartbeatRequest)
    (now : Int) : HeartbeatNode :=
  let pauseReason := row.newPauseReason policy request
  { node := { row.node with
      status := newStatus request.draining pauseReason
      lastSeenAt := some now }
    pauseReason
    policy }

/-- `node_heartbeat` of a device; what it adds to the logs of metrics and heartbeats is
left out. -/
def nodeHeartbeat (row : Option HeartbeatNode) (principal : Principal)
    (request : HeartbeatRequest) (now : Int) : ApiResult (HeartbeatNode × HeartbeatAnswer) := do
  request.validate.mapError fun error => .badRequest "invalid_protocol_payload" error.text
  let row ← okOr (.notFound "节点") row
  requireNodeDeviceBinding principal row.node
  let policy ← updatePolicy row.policy request.policy
  let after := row.beat policy request now
  return (after, {
    nodeId := after.node.id
    status := after.node.status
    acceptingJobs := decide (after.node.status = .online)
    pauseReason := after.pauseReason
    policyUpdated := request.policy.isSome })

/-- A heartbeat of some device for the node. -/
structure HeartbeatCall where
  principal : Principal
  request : HeartbeatRequest
  now : Int

/-- The rows after a call; a call that is turned away leaves them. -/
def HeartbeatNode.heartbeat (row : HeartbeatNode) (call : HeartbeatCall) : HeartbeatNode :=
  match nodeHeartbeat (some row) call.principal call.request call.now with
  | .ok (after, _) => after
  | .error _ => row

def HeartbeatNode.heartbeats (row : HeartbeatNode) (calls : List HeartbeatCall) : HeartbeatNode :=
  calls.foldl HeartbeatNode.heartbeat row

/-- The call comes from the device of the node and passes the checks. -/
def HeartbeatCall.Accepted (call : HeartbeatCall) (row : HeartbeatNode) : Prop :=
  (nodeHeartbeat (some row) call.principal call.request call.now).isOk = true

/-- The policy that is in force once the call is accepted. -/
def HeartbeatNode.policyFor (row : HeartbeatNode) (request : HeartbeatRequest) : NodePolicyRow :=
  match updatePolicy row.policy request.policy with
  | .ok policy => policy
  | .error _ => row.policy

/-- The heartbeat drains the node or pauses it for another reason than its temperature. -/
def HeartbeatNode.Forgets (row : HeartbeatNode) (request : HeartbeatRequest) : Prop :=
  request.draining = true ∨ vramShort (row.policyFor request) request = true ∨
    atMaximum (row.policyFor request) request = true

/-- No temperature, or one at the limit. -/
def HeartbeatRequest.Hot (request : HeartbeatRequest) (limit : Nat) : Prop :=
  ∀ temperature, request.gpuTempC = some temperature → (limit : Int) ≤ temperature

/-- A temperature at which a pause ends. -/
def HeartbeatRequest.Cool (request : HeartbeatRequest) (limit : Nat) : Prop :=
  ∃ temperature, request.gpuTempC = some temperature ∧ temperature ≤ (limit : Int) - 5

/-- The calls have paused the node for its temperature, and none since then was cool. -/
def PauseOpen (limit : Nat) (calls : List HeartbeatCall) : Prop :=
  ∃ earlier hot rest, calls = earlier ++ hot :: rest ∧ hot.request.Hot limit ∧
    hot.request.draining = false ∧ ∀ call ∈ rest, ¬ call.request.Cool limit

section Calls
variable {row other : HeartbeatNode} {call : HeartbeatCall} {limit : Nat}

theorem nodeHeartbeat_eq_ok {principal : Principal} {request : HeartbeatRequest} {now : Int}
    {after : HeartbeatNode} {answer : HeartbeatAnswer}
    (h : nodeHeartbeat (some row) principal request now = .ok (after, answer)) :
    after = row.beat (row.policyFor request) request now := by
  simp only [nodeHeartbeat, bind_eq_ok, okOr_eq_ok, Option.some.injEq] at h
  obtain ⟨_, -, found, rfl, _, -, policy, hpolicy, hafter⟩ := h
  cases hafter
  rw [HeartbeatNode.policyFor, hpolicy]

theorem heartbeat_of_accepted (h : call.Accepted row) :
    row.heartbeat call = row.beat (row.policyFor call.request) call.request call.now := by
  unfold HeartbeatCall.Accepted at h
  unfold HeartbeatNode.heartbeat
  cases hcall : nodeHeartbeat (some row) call.principal call.request call.now with
  | error error =>
      rw [hcall] at h
      cases h
  | ok outcome =>
      obtain ⟨after, answer⟩ := outcome
      exact nodeHeartbeat_eq_ok hcall

theorem heartbeat_of_not_accepted (h : ¬ call.Accepted row) : row.heartbeat call = row := by
  unfold HeartbeatCall.Accepted at h
  unfold HeartbeatNode.heartbeat
  cases hcall : nodeHeartbeat (some row) call.principal call.request call.now with
  | error error => rfl
  | ok outcome =>
      rw [hcall] at h
      exact absurd rfl h

/-- Two states of the rows of one node. -/
def HeartbeatNode.SameNode (row other : HeartbeatNode) : Prop :=
  other.node.userId = row.node.userId ∧ other.node.deviceKeyId = row.node.deviceKeyId

theorem HeartbeatNode.SameNode.heartbeat (h : row.SameNode other) (call : HeartbeatCall) :
    row.SameNode (other.heartbeat call) := by
  by_cases hcall : call.Accepted other
  · rw [heartbeat_of_accepted hcall]
    exact h
  · rwa [heartbeat_of_not_accepted hcall]

theorem accepted_iff : call.Accepted row ↔
    (∃ u, (call.request.validate.mapError fun error =>
      ApiError.badRequest "invalid_protocol_payload" error.text) = .ok u) ∧
    (∃ u, requireNodeDeviceBinding call.principal row.node = .ok u) ∧
    ∃ policy, updatePolicy row.policy call.request.policy = .ok policy := by
  have hok {α : Type} {x : ApiResult α} : x.isOk = true ↔ ∃ a, x = .ok a := by
    cases x <;> simp [Except.isOk, Except.toBool]
  rw [HeartbeatCall.Accepted, hok]
  constructor
  · rintro ⟨outcome, h⟩
    simp only [nodeHeartbeat, bind_eq_ok, okOr_eq_ok, Option.some.injEq] at h
    obtain ⟨u, hvalid, found, rfl, v, hbinding, policy, hpolicy, -⟩ := h
    exact ⟨⟨u, hvalid⟩, ⟨v, hbinding⟩, policy, hpolicy⟩
  · rintro ⟨⟨u, hvalid⟩, ⟨v, hbinding⟩, policy, hpolicy⟩
    simp only [nodeHeartbeat, bind_eq_ok, okOr_eq_ok, Option.some.injEq]
    exact ⟨_, u, hvalid, row, rfl, v, hbinding, policy, hpolicy, rfl⟩

theorem updatePolicy_ok {a b new : NodePolicyRow} {policy : Option NodePolicyDto}
    (h : updatePolicy a policy = .ok new) : ∃ new', updatePolicy b policy = .ok new' := by
  cases policy with
  | none => exact ⟨b, rfl⟩
  | some policy =>
      obtain ⟨values, hvalues, -⟩ := bind_eq_ok.mp h
      exact ⟨_, bind_eq_ok.mpr ⟨values, hvalues, rfl⟩⟩

/-- Whether a call is accepted depends on the node, not on its status. -/
theorem HeartbeatNode.SameNode.accepted (h : row.SameNode other) :
    call.Accepted other ↔ call.Accepted row := by
  obtain ⟨huser, hdevice⟩ := h
  rw [accepted_iff, accepted_iff]
  simp only [requireNodeDeviceBinding, huser, hdevice]
  refine and_congr_right fun _ => and_congr_right fun _ => ?_
  constructor
  · rintro ⟨_, hpolicy⟩
    exact updatePolicy_ok hpolicy
  · rintro ⟨_, hpolicy⟩
    exact updatePolicy_ok hpolicy

instance : Decidable (call.Accepted row) := inferInstanceAs (Decidable (_ = true))

/-- The heartbeats of a node: the calls that are accepted. -/
def HeartbeatNode.accepted (row : HeartbeatNode) (calls : List HeartbeatCall) :
    List HeartbeatCall :=
  calls.filter fun call => call.Accepted row

/-- The calls that are turned away could be left out. -/
theorem heartbeats_accepted (h : row.SameNode other) (calls : List HeartbeatCall) :
    other.heartbeats (row.accepted calls) = other.heartbeats calls := by
  induction calls generalizing other with
  | nil => rfl
  | cons call rest ih =>
      by_cases hcall : call.Accepted row
      · rw [HeartbeatNode.accepted, List.filter_cons, if_pos (decide_eq_true hcall)]
        exact ih (h.heartbeat call)
      · rw [HeartbeatNode.accepted, List.filter_cons, if_neg (by simpa using hcall)]
        have hsame : other.heartbeat call = other :=
          heartbeat_of_not_accepted fun haccepted => hcall (h.accepted.mp haccepted)
        refine (ih h).trans ?_
        rw [HeartbeatNode.heartbeats, HeartbeatNode.heartbeats, List.foldl_cons, hsame]

/-- The limit stays as it is. -/
structure HeartbeatNode.Limited (row : HeartbeatNode) (limit : Nat) (call : HeartbeatCall) : Prop where
  row : row.policy.gpuTempLimitC = some limit
  request : ∀ policy, call.request.policy = some policy → policy.gpuTempLimitC = some limit

theorem HeartbeatNode.Limited.policyFor (h : row.Limited limit call) :
    (row.policyFor call.request).gpuTempLimitC = some limit := by
  unfold HeartbeatNode.policyFor
  cases hpolicy : call.request.policy with
  | none => exact h.row
  | some policy =>
      cases hupdate : updatePolicy row.policy (some policy) with
      | error error => exact h.row
      | ok updated =>
          simp only [updatePolicy, sqlPolicyValues, bind_eq_ok, rejectIf_eq_ok, exists_const] at hupdate
          obtain ⟨values, ⟨-, -, hvalues⟩, hupdated⟩ := hupdate
          cases hvalues
          cases hupdated
          exact h.request policy hpolicy

/-- An accepted heartbeat brings a node online if nothing requires a pause. -/
theorem online_iff (h : call.Accepted row) (hlimit : row.Limited limit call) :
    (row.heartbeat call).node.status = .online ↔ ¬ row.Forgets call.request ∧
      temperatureRequiresPause row.wasTemperaturePaused (some limit) call.request.gpuTempC =
        false := by
  rw [heartbeat_of_accepted h]
  simp only [HeartbeatNode.beat, newStatus, HeartbeatNode.newPauseReason, hlimit.policyFor,
    HeartbeatNode.Forgets]
  cases call.request.draining <;> cases atMaximum (row.policyFor call.request) call.request <;>
    cases vramShort (row.policyFor call.request) call.request <;>
    cases temperatureRequiresPause row.wasTemperaturePaused (some limit) call.request.gpuTempC <;>
    simp

/-- It remembers a pause for the temperature if nothing overwrites it. -/
theorem paused_iff (h : call.Accepted row) (hlimit : row.Limited limit call) :
    (row.heartbeat call).wasTemperaturePaused = true ↔ ¬ row.Forgets call.request ∧
      temperatureRequiresPause row.wasTemperaturePaused (some limit) call.request.gpuTempC =
        true := by
  rw [heartbeat_of_accepted h]
  simp only [HeartbeatNode.beat, newStatus, HeartbeatNode.newPauseReason, hlimit.policyFor,
    HeartbeatNode.Forgets, HeartbeatNode.wasTemperaturePaused, decide_eq_true_eq]
  cases call.request.draining <;> cases atMaximum (row.policyFor call.request) call.request <;>
    cases vramShort (row.policyFor call.request) call.request <;>
    cases temperatureRequiresPause (decide (row.node.status = .paused ∧
      row.pauseReason = some .gpuTemperatureLimit)) (some limit) call.request.gpuTempC <;>
    simp

theorem temperatureRequiresPause_of_hot (h : call.request.Hot limit) (wasPaused : Bool) :
    temperatureRequiresPause wasPaused (some limit) call.request.gpuTempC = true := by
  unfold HeartbeatRequest.Hot at h
  cases htemp : call.request.gpuTempC with
  | none => rfl
  | some temperature =>
      have hle := h temperature htemp
      cases wasPaused <;> simp [temperatureRequiresPause] <;> omega

theorem temperatureRequiresPause_of_not_cool (h : ¬ call.request.Cool limit) :
    temperatureRequiresPause true (some limit) call.request.gpuTempC = true := by
  cases htemp : call.request.gpuTempC with
  | none => rfl
  | some temperature =>
      have hlt : ¬ temperature ≤ (limit : Int) - 5 := fun hle => h ⟨temperature, htemp, hle⟩
      simp [temperatureRequiresPause]
      omega

theorem temperatureRequiresPause_of_not_hot (h : ¬ call.request.Hot limit) :
    temperatureRequiresPause false (some limit) call.request.gpuTempC = false := by
  simp only [HeartbeatRequest.Hot, not_forall] at h
  obtain ⟨temperature, htemp, hlt⟩ := h
  simp only [htemp, temperatureRequiresPause, Bool.false_eq_true, if_false, decide_eq_false_iff_not]
  exact hlt

theorem heartbeats_append (calls : List HeartbeatCall) (call : HeartbeatCall) :
    row.heartbeats (calls ++ [call]) = (row.heartbeats calls).heartbeat call :=
  List.foldl_append

/-- The pause ends or goes on with the last call, or has begun with it. -/
theorem PauseOpen.snoc {calls : List HeartbeatCall} (h : PauseOpen limit (calls ++ [call])) :
    (call.request.Hot limit ∧ call.request.draining = false) ∨
      (PauseOpen limit calls ∧ ¬ call.request.Cool limit) := by
  obtain ⟨earlier, hot, rest, hsplit, hhot, hdraining, hrest⟩ := h
  rcases List.eq_nil_or_concat rest with rfl | ⟨init, last, rfl⟩
  · obtain ⟨-, hlast⟩ := List.append_inj' hsplit rfl
    obtain rfl := List.singleton_inj.mp hlast
    exact .inl ⟨hhot, hdraining⟩
  · rw [List.concat_eq_append, ← List.cons_append, ← List.append_assoc] at hsplit
    obtain ⟨hinit, hlast⟩ := List.append_inj' hsplit rfl
    obtain rfl := List.singleton_inj.mp hlast
    rw [List.concat_eq_append] at hrest
    exact .inr ⟨⟨earlier, hot, init, hinit, hhot, hdraining,
      fun other hother => hrest other (List.mem_append_left _ hother)⟩, hrest call (by simp)⟩

theorem PauseOpen.append {calls : List HeartbeatCall} (h : PauseOpen limit calls)
    (hcall : ¬ call.request.Cool limit) : PauseOpen limit (calls ++ [call]) := by
  obtain ⟨earlier, hot, rest, rfl, hhot, hdraining, hrest⟩ := h
  refine ⟨earlier, hot, rest ++ [call], by simp, hhot, hdraining, fun other hother => ?_⟩
  rcases List.mem_append.mp hother with hother | hother
  · exact hrest other hother
  · obtain rfl := List.mem_singleton.mp hother
    exact hcall

end Calls

/-- After a pause for the temperature the node is not online before a cool heartbeat. -/
def HeartbeatNode.StaysPaused (row : HeartbeatNode) (limit : Nat) (beats : List HeartbeatCall) :
    Prop :=
  ∀ earlier last later, beats = earlier ++ last :: later → PauseOpen limit earlier →
    ¬ last.request.Cool limit → ((row.heartbeats earlier).heartbeat last).node.status ≠ .online

/-- Right after a heartbeat that has overwritten the memory of such a pause, one below the
limit overwrites it too. -/
def HeartbeatNode.PauseRemembered (row : HeartbeatNode) (limit : Nat)
    (beats : List HeartbeatCall) : Prop :=
  ∀ earlier previous last later, beats = earlier ++ previous :: last :: later →
    PauseOpen limit (earlier ++ [previous]) → ¬ last.request.Cool limit →
    ¬ last.request.Hot limit → (row.heartbeats earlier).Forgets previous.request →
    ((row.heartbeats earlier).heartbeat previous).Forgets last.request

section Beats
variable {row : HeartbeatNode} {limit : Nat} {beats : List HeartbeatCall}

/-- Accepted heartbeats of a node whose limit stays as it is. -/
structure HeartbeatNode.Steady (row : HeartbeatNode) (limit : Nat) (beats : List HeartbeatCall) :
    Prop where
  fixed : row.policy.gpuTempLimitC = some limit
  accepted : ∀ call ∈ beats, call.Accepted row
  policies : ∀ call ∈ beats, ∀ policy, call.request.policy = some policy →
    policy.gpuTempLimitC = some limit

theorem HeartbeatNode.Steady.earlier {earlier later : List HeartbeatCall}
    (h : row.Steady limit (earlier ++ later)) : row.Steady limit earlier where
  fixed := h.fixed
  accepted := fun call hcall => h.accepted call (List.mem_append_left _ hcall)
  policies := fun call hcall => h.policies call (List.mem_append_left _ hcall)

theorem HeartbeatNode.Steady.reached (h : row.Steady limit beats) :
    row.SameNode (row.heartbeats beats) ∧
      (row.heartbeats beats).policy.gpuTempLimitC = some limit := by
  induction beats using List.reverseRecOn with
  | nil => exact ⟨⟨rfl, rfl⟩, h.fixed⟩
  | append_singleton beats call ih =>
      obtain ⟨hsame, hlimit⟩ := ih h.earlier
      rw [heartbeats_append]
      refine ⟨hsame.heartbeat call, ?_⟩
      have haccepted : call.Accepted (row.heartbeats beats) :=
        hsame.accepted.mpr (h.accepted call (by simp))
      rw [heartbeat_of_accepted haccepted]
      exact HeartbeatNode.Limited.policyFor ⟨hlimit, h.policies call (by simp)⟩

theorem HeartbeatNode.Steady.next {call : HeartbeatCall} (h : row.Steady limit (beats ++ [call])) :
    call.Accepted (row.heartbeats beats) ∧ (row.heartbeats beats).Limited limit call := by
  obtain ⟨hsame, hlimit⟩ := h.earlier.reached
  exact ⟨hsame.accepted.mpr (h.accepted call (by simp)), hlimit, h.policies call (by simp)⟩

/-- The node remembers its pause, or the last heartbeat has overwritten the memory. -/
def HeartbeatNode.Remembers (row : HeartbeatNode) (beats : List HeartbeatCall) : Prop :=
  (row.heartbeats beats).wasTemperaturePaused = true ∨
    ∃ earlier previous, beats = earlier ++ [previous] ∧
      (row.heartbeats earlier).Forgets previous.request

theorem PauseRemembered.earlier {later : List HeartbeatCall}
    (h : row.PauseRemembered limit (beats ++ later)) : row.PauseRemembered limit beats := by
  intro earlier previous last rest hsplit
  exact h earlier previous last (rest ++ later) (by simp [hsplit])

/-- A heartbeat that is not cool pauses the node again, if nothing else does. -/
theorem requires_pause {call : HeartbeatCall} (hmemory : row.Remembers beats)
    (hremembered : row.PauseRemembered limit (beats ++ [call])) (hopen : PauseOpen limit beats)
    (hcool : ¬ call.request.Cool limit)
    (hforgets : ¬ (row.heartbeats beats).Forgets call.request) :
    temperatureRequiresPause (row.heartbeats beats).wasTemperaturePaused (some limit)
      call.request.gpuTempC = true := by
  rcases hmemory with hpaused | ⟨earlier, previous, rfl, hoverwritten⟩
  · rw [hpaused]
    exact temperatureRequiresPause_of_not_cool hcool
  · by_cases hhot : call.request.Hot limit
    · exact temperatureRequiresPause_of_hot hhot _
    · refine absurd ?_ hforgets
      rw [heartbeats_append]
      exact hremembered earlier previous call [] (by simp) hopen hcool hhot hoverwritten

theorem remembers_of_open (h : row.Steady limit beats)
    (hremembered : row.PauseRemembered limit beats) (hopen : PauseOpen limit beats) :
    row.Remembers beats := by
  induction beats using List.reverseRecOn with
  | nil =>
      obtain ⟨earlier, hot, rest, hsplit, -⟩ := hopen
      simp at hsplit
  | append_singleton beats call ih =>
      by_cases hforgets : (row.heartbeats beats).Forgets call.request
      · exact .inr ⟨beats, call, rfl, hforgets⟩
      left
      obtain ⟨haccepted, hlimited⟩ := h.next
      rw [heartbeats_append, paused_iff haccepted hlimited]
      refine ⟨hforgets, ?_⟩
      rcases hopen.snoc with ⟨hhot, -⟩ | ⟨hopen, hcool⟩
      · exact temperatureRequiresPause_of_hot hhot _
      · exact requires_pause (ih h.earlier (PauseRemembered.earlier hremembered) hopen)
          hremembered hopen hcool hforgets

theorem staysPaused_iff (h : row.Steady limit beats) :
    row.StaysPaused limit beats ↔ row.PauseRemembered limit beats := by
  constructor
  · intro hstays earlier previous last later hsplit hopen hcool hhot hoverwritten
    by_contra hforgets
    have hsplit' : beats = earlier ++ [previous] ++ last :: later := by simp [hsplit]
    refine hstays (earlier ++ [previous]) last later hsplit' hopen hcool ?_
    have hsteady : row.Steady limit (earlier ++ [previous] ++ [last]) := by
      rw [hsplit', ← List.singleton_append (l := later), ← List.append_assoc] at h
      exact h.earlier
    obtain ⟨haccepted, hlimited⟩ := hsteady.next
    obtain ⟨haccepted', hlimited'⟩ := hsteady.earlier.next
    have hlost : (row.heartbeats (earlier ++ [previous])).wasTemperaturePaused = false := by
      rw [heartbeats_append, Bool.eq_false_iff, ne_eq, paused_iff haccepted' hlimited']
      exact fun hpaused => hpaused.1 hoverwritten
    rw [online_iff haccepted hlimited, hlost, heartbeats_append]
    exact ⟨hforgets, temperatureRequiresPause_of_not_hot hhot⟩
  · intro hremembered earlier last later hsplit hopen hcool honline
    have hsplit' : beats = earlier ++ [last] ++ later := by simp [hsplit]
    rw [hsplit'] at h hremembered
    have hremembered := PauseRemembered.earlier hremembered
    obtain ⟨haccepted, hlimited⟩ := h.earlier.next
    obtain ⟨hforgets, hrequires⟩ := (online_iff haccepted hlimited).mp honline
    have hmemory := remembers_of_open h.earlier.earlier (PauseRemembered.earlier hremembered) hopen
    rw [requires_pause hmemory hremembered hopen hcool hforgets] at hrequires
    cases hrequires

end Beats

/-- For every history of calls on a node with a fixed limit, the accepted ones decide its
state, and a pause for the temperature lasts until a cool heartbeat if and only if no
heartbeat below the limit comes right after one that has overwritten the memory. -/
theorem temperature_pause_lasts {row : HeartbeatNode} {limit : Nat} (calls : List HeartbeatCall)
    (hlimit : row.policy.gpuTempLimitC = some limit)
    (hpolicies : ∀ call ∈ calls, ∀ policy, call.request.policy = some policy →
      policy.gpuTempLimitC = some limit) :
    row.heartbeats (row.accepted calls) = row.heartbeats calls ∧
      (row.StaysPaused limit (row.accepted calls) ↔
        row.PauseRemembered limit (row.accepted calls)) := by
  refine ⟨heartbeats_accepted ⟨rfl, rfl⟩ calls, staysPaused_iff ?_⟩
  exact {
    fixed := hlimit
    accepted := fun call hcall => by simpa using (List.mem_filter.mp hcall).2
    policies := fun call hcall => hpolicies call (List.mem_filter.mp hcall).1 }

section Sample

def sampleHeatNode : HeartbeatNode where
  node := {
    id := .fromU128 20
    userId := .fromU128 200
    deviceKeyId := some (.fromU128 201)
    status := .online
    trustLevel := .standard
    lastSeenAt := some 0
    attestationReportId := none
    trustExpiresAt := none }
  pauseReason := none
  policy := ⟨.fromU128 20, [], 1, some 85, 1024⟩

/-- A heartbeat with a temperature and some used memory. -/
def sampleBeat (gpuTempC vramUsedMib : Int) : HeartbeatCall where
  principal := ⟨.fromU128 200, .fromU128 201⟩
  request := {
    tpsMilli := 0
    ttftMs := 0
    currentConcurrent := 0
    gpuTempC := some gpuTempC
    vramUsedMib := some vramUsedMib
    vramTotalMib := some 8192
    errorRatePpm := 0
    coordinatorRttMs := none
    draining := false
    policy := none }
  now := 0

/-- The node is hot, then hot and short of memory, then one degree below its limit. -/
def sampleHeat : List HeartbeatCall := [sampleBeat 85 0, sampleBeat 85 8000, sampleBeat 84 0]

theorem temperature_pause_lasts_sample :
    sampleHeatNode.StaysPaused 85 (sampleHeatNode.accepted sampleHeat) ↔
      sampleHeatNode.PauseRemembered 85 (sampleHeatNode.accepted sampleHeat) :=
  (temperature_pause_lasts sampleHeat rfl (by simp [sampleHeat, sampleBeat])).2

/-- The node is online again at 84 degrees. -/
theorem temperature_pause_lasts_fails :
    ∃ (row : HeartbeatNode) (limit : Nat) (calls : List HeartbeatCall),
      row.policy.gpuTempLimitC = some limit ∧ (∀ call ∈ calls, call.request.policy = none) ∧
      ¬ row.StaysPaused limit (row.accepted calls) := by
  refine ⟨sampleHeatNode, 85, sampleHeat, rfl, by simp [sampleHeat, sampleBeat], fun stays => ?_⟩
  have haccepted : sampleHeatNode.accepted sampleHeat = sampleHeat :=
    List.filter_eq_self.mpr (by simp only [sampleHeat, List.mem_cons, List.not_mem_nil,
      or_false, forall_eq_or_imp, forall_eq]; decide +kernel)
  rw [haccepted] at stays
  refine stays [sampleBeat 85 0, sampleBeat 85 8000] (sampleBeat 84 0) [] rfl
    ⟨[], sampleBeat 85 0, [sampleBeat 85 8000], rfl, ?_, rfl, ?_⟩ ?_ (by decide +kernel)
  · rintro _ ⟨⟩
    decide
  · intro call hcall
    obtain rfl := List.mem_singleton.mp hcall
    rintro ⟨_, ⟨⟩, hle⟩
    revert hle
    decide
  · rintro ⟨_, ⟨⟩, hle⟩
    revert hle
    decide

end Sample

end MindOne.Coordinator
