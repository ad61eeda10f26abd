import MindOne.Lib.LabelledRuns

/-!
# The local serve proxy

The proxy lets one inference at a time through to slot 0 of the engine. A request
is a handler until the engine's response begins, and from then on a spawned task
that relays the response, erases the slot and gives the permit back. When a
client goes away its handler is dropped where it waits; a spawned task never is.
-/

namespace MindOne.Serve

open LabelledRuns

def managedLlamaSlotId : Nat := 0

/-- The receipt of an erase. -/
structure SlotEraseReceipt where
  idSlot : Nat
  nErased : Nat
  deriving DecidableEq

/-- Whether `erase_slot` accepts what the engine has answered. -/
def eraseConfirmed (receipt : Option SlotEraseReceipt) : Bool :=
  receipt.any fun receipt => receipt.idSlot == managedLlamaSlotId

/-- Where an inference request waits. The number in a phase that awaits an erase tells
how many inferences had been sent when the erase was. -/
inductive Phase where
  /-- Its handler has not run yet. -/
  | received
  /-- It has passed the first checks and waits for the permit. -/
  | queued
  /-- The erase that an earlier request owes is under way. -/
  | retrying (issuedAt : Nat)
  /-- Its outcome is about to be written to the status file. -/
  | retryRecording (success : Bool)
  /-- The body of the request is being read. -/
  | preparing
  /-- The request is with the engine, which has not begun to respond. -/
  | sending
  /-- The engine has failed; the handler erases the slot. -/
  | failedErasing (issuedAt : Nat)
  | failedRecording (success : Bool)
  /-- The spawned task relays the response. -/
  | streaming
  | erasing (issuedAt : Nat)
  | recording (success : Bool)
  | ended
  deriving DecidableEq

namespace Phase

/-- The phases in which the one permit of the inference gate is held. -/
def HoldsPermit : Phase → Prop
  | .retrying _ | .retryRecording _ | .preparing | .sending | .failedErasing _
  | .failedRecording _ | .streaming | .erasing _ | .recording _ => True
  | .received | .queued | .ended => False

/-- The phases between the check of the reporting flag and the request to the engine. -/
def WillSend : Phase → Prop
  | .queued | .retrying _ | .retryRecording _ | .preparing => True
  | _ => False

/-- The phases of a handler, which a disconnect of its client ends. -/
def IsHandler : Phase → Prop
  | .streaming | .erasing _ | .recording _ | .ended => False
  | _ => True

instance (phase : Phase) : Decidable phase.HoldsPermit := by
  cases phase <;> unfold HoldsPermit <;> infer_instance

instance (phase : Phase) : Decidable phase.WillSend := by
  cases phase <;> unfold WillSend <;> infer_instance

instance (phase : Phase) : Decidable phase.IsHandler := by
  cases phase <;> unfold IsHandler <;> infer_instance

end Phase

structure ServeProxy where
  requests : List Phase
  /-- `inference_gate` has its permit. -/
  permitFree : Bool
  cleanupRequired : Bool
  reportingFailed : Bool
  /-- The inferences that have been sent to the engine. -/
  sends : Nat
  /-- An erase that was sent after the last inference has been confirmed. -/
  erased : Bool

inductive Event where
  | arrive
  | check (request : Nat) (targetIdentity : Bool)
  | acquire (request : Nat) (targetIdentity : Bool)
  | eraseAnswered (request : Nat) (receipt : Option SlotEraseReceipt)
  /-- `record_cleanup` has written the status file, or has failed to. -/
  | recorded (request : Nat) (written : Bool)
  /-- The body is too large or not an inference. -/
  | refused (request : Nat)
  | send (request : Nat)
  | responded (request : Nat) (ok : Bool)
  | streamEnded (request : Nat)
  /-- The client goes away. -/
  | disconnect (request : Nat)
  /-- The periodic writer of the status file fails. -/
  | flushFailed

namespace ServeProxy

/-- A proxy that has just started. -/
def initial : ServeProxy where
  requests := []
  permitFree := true
  cleanupRequired := false
  reportingFailed := false
  sends := 0
  erased := true

/-- The phase of a request; one that does not exist has ended. -/
def phase (proxy : ServeProxy) (i : Nat) : Phase := proxy.requests[i]?.getD .ended

def setPhase (proxy : ServeProxy) (i : Nat) (phase : Phase) : ServeProxy :=
  { proxy with requests := proxy.requests.set i phase }

/-- The request is over, and its permit is back. -/
def finish (proxy : ServeProxy) (i : Nat) : ServeProxy :=
  { proxy.setPhase i .ended with permitFree := true }

/-- The first checks of `proxy_request_inner`. -/
def check (proxy : ServeProxy) (i : Nat) (targetIdentity : Bool) : ServeProxy :=
  if targetIdentity = false ∨ proxy.reportingFailed = true then proxy.setPhase i .ended
  else proxy.setPhase i .queued

/-- What follows the permit: the identity of the engine is checked again, and an erase
that is still owed comes first. -/
def acquire (proxy : ServeProxy) (i : Nat) (targetIdentity : Bool) : ServeProxy :=
  if targetIdentity = false then proxy.setPhase i .ended
  else if proxy.cleanupRequired = true then
    { proxy.setPhase i (.retrying proxy.sends) with permitFree := false }
  else { proxy.setPhase i .preparing with permitFree := false }

/-- `record_cleanup` up to the lock of the status: the flag is set at once. -/
def noteErase (proxy : ServeProxy) (i issuedAt : Nat) (success : Bool) (next : Phase) :
    ServeProxy :=
  { proxy.setPhase i next with
    cleanupRequired := !success
    erased := proxy.erased || (success && issuedAt == proxy.sends) }

def eraseAnswered (proxy : ServeProxy) (i : Nat) (receipt : Option SlotEraseReceipt) :
    Option ServeProxy :=
  let success := eraseConfirmed receipt
  match proxy.phase i with
  | .retrying issuedAt => some (proxy.noteErase i issuedAt success (.retryRecording success))
  | .failedErasing issuedAt => some (proxy.noteErase i issuedAt success (.failedRecording success))
  | .erasing issuedAt => some (proxy.noteErase i issuedAt success (.recording success))
  | _ => none

/-- The status file could not be written. -/
def failReporting (proxy : ServeProxy) : ServeProxy := { proxy with reportingFailed := true }

def recorded (proxy : ServeProxy) (i : Nat) (written : Bool) : Option ServeProxy :=
  let noted := if written = true then proxy else proxy.failReporting
  match proxy.phase i with
  | .retryRecording success =>
      if written = true ∧ success = true then some (noted.setPhase i .preparing)
      else some (noted.finish i)
  | .failedRecording _ | .recording _ => some (noted.finish i)
  | _ => none

/-- The handler of a request is dropped where it waits. -/
def disconnect (proxy : ServeProxy) (i : Nat) : ServeProxy :=
  if (proxy.phase i).HoldsPermit then proxy.finish i else proxy.setPhase i .ended

def step (event : Event) (proxy : ServeProxy) : Option ServeProxy :=
  match event with
  | .arrive => some { proxy with requests := proxy.requests ++ [.received] }
  | .check i targetIdentity =>
      if proxy.phase i = .received then some (proxy.check i targetIdentity) else none
  | .acquire i targetIdentity =>
      if proxy.phase i = .queued ∧ proxy.permitFree = true then
        some (proxy.acquire i targetIdentity)
      else none
  | .eraseAnswered i receipt => proxy.eraseAnswered i receipt
  | .recorded i written => proxy.recorded i written
  | .refused i => if proxy.phase i = .preparing then some (proxy.finish i) else none
  | .send i =>
      if proxy.phase i = .preparing then
        some { proxy.setPhase i .sending with sends := proxy.sends + 1, erased := false }
      else none
  | .responded i ok =>
      if proxy.phase i = .sending then
        some (proxy.setPhase i (if ok = true then .streaming else .failedErasing proxy.sends))
      else none
  | .streamEnded i =>
      if proxy.phase i = .streaming then some (proxy.setPhase i (.erasing proxy.sends)) else none
  | .disconnect i => if (proxy.phase i).IsHandler then some (proxy.disconnect i) else none
  | .flushFailed => some proxy.failReporting

variable {proxy : ServeProxy} {i j : Nat} {next : Phase}

/-- A request that has not ended is one of the list. -/
theorem lt_of_phase (h : proxy.phase i ≠ .ended) : i < proxy.requests.length := by
  by_contra hout
  apply h
  rw [phase, List.getElem?_eq_none (Nat.le_of_not_lt hout), Option.getD_none]

theorem phase_setPhase (h : proxy.phase i ≠ .ended) (next : Phase) (j : Nat) :
    (proxy.setPhase i next).phase j = if j = i then next else proxy.phase j := by
  have hlt := lt_of_phase h
  rw [phase, setPhase, List.getElem?_set]
  by_cases hj : i = j
  · subst hj
    rw [if_pos rfl, if_pos rfl, if_pos hlt, Option.getD_some]
  · rw [if_neg hj, if_neg (Ne.symm hj), phase]

/-- A new request waits for its handler; the others are as they were. -/
theorem phase_arrive (proxy : ServeProxy) (j : Nat) :
    ({ proxy with requests := proxy.requests ++ [.received] } : ServeProxy).phase j =
      if j = proxy.requests.length then .received else proxy.phase j := by
  simp only [phase]
  rcases Nat.lt_trichotomy j proxy.requests.length with hlt | heq | hgt
  · rw [List.getElem?_append_left hlt, if_neg (Nat.ne_of_lt hlt)]
  · rw [heq, List.getElem?_append_right (Nat.le_refl _), if_pos rfl]
    simp
  · have hpast : proxy.requests.length ≤ j := Nat.le_of_lt hgt
    rw [List.getElem?_append_right hpast, if_neg (Nat.ne_of_gt hgt), List.getElem?_eq_none hpast]
    rw [List.getElem?_eq_none (by simp; omega)]

end ServeProxy

end MindOne.Serve
