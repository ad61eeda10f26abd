import MindOne.Lib.Json
import MindOne.Values

/-!
# Errors of a client and the status in their texts

An answer of the service that is not a success becomes an error with a class and
a text. The class decides whether a submission is tried again; the status of the
answer is found again later, by its place in the text.
-/

namespace MindOne.Submission

open Json

inductive CliErrorKind where
  | cliParse | general | remoteRejected | authentication | engineOrSandbox | modelValidation
  | attestation | trustDowngraded | insufficientQuota | policyRejected
  deriving DecidableEq, Repr

structure CliError where
  kind : CliErrorKind
  message : String
  deriving DecidableEq

abbrev CliResult := Except CliError

def CliError.general (message : String) : CliError := ⟨.general, message⟩

/-- What follows the first occurrence of a text. -/
def after (marker : List Char) : List Char → Option (List Char)
  | [] => if marker = [] then some [] else none
  | c :: text =>
      if marker.isPrefixOf (c :: text) then some ((c :: text).drop marker.length)
      else after marker text

def contains (text part : String) : Bool := (after part.toList text.toList).isSome

/-- The class of an error answer, by its code, its type and at last its status. -/
def errorKind (status : Nat) (message : String) (serverCode : Option Int)
    (serverType : Option String) : CliErrorKind :=
  if serverCode = some 50 ∨ serverType = some "node_policy_rejected" then .policyRejected
  else if serverCode = some 40 ∨ serverType = some "insufficient_quota" then .insufficientQuota
  else if serverCode = some 31 ∨ serverType = some "trust_downgraded" then .trustDowngraded
  else if serverCode = some 30 ∨ serverType = some "attestation_failed" then .attestation
  else if serverCode = some 21 ∨ serverType = some "model_validation_failed" then .modelValidation
  else if serverType = some "model_binding_mismatch" ∨ serverType = some "usage_binding_mismatch" ∨
      serverType = some "invalid_job_result" then .modelValidation
  else if serverCode = some 20 ∨ serverType = some "engine_or_sandbox_failed" then .engineOrSandbox
  else if serverCode = some 10 ∨ serverType = some "authentication_failed" ∨
      serverType = some "forbidden" then .authentication
  else if status = 401 then .authentication
  else if status = 402 then .insufficientQuota
  else if status = 403 ∧ (contains message "policy" ∨ contains message "策略") then .policyRejected
  else if status = 403 then .authentication
  else if status = 408 ∨ status = 425 ∨ status = 429 ∨ (500 ≤ status ∧ status ≤ 599) then .general
  else .remoteRejected

def fromHttpResponse (status : Nat) (message : String) (serverCode : Option Int)
    (serverType : Option String) : CliError :=
  ⟨errorKind status message serverCode serverType, message⟩

/-- The member of an object, the member of that one, and so on. -/
def pointer : List String → Value → Option Value
  | [], value => some value
  | key :: path, value => (value.asObject.bind fun fields => fields.get key).bind (pointer path)

/-- An answer that is no success: its status, the standard name of the status, and the
body if it is JSON. -/
structure Refusal where
  status : Nat
  reason : Option String
  body : Option Value

def Refusal.message (refusal : Refusal) : String :=
  (((refusal.body.bind fun body =>
    (pointer ["error", "message"] body).or (pointer ["message"] body)).bind Value.asStr).or
      refusal.reason).getD "未知错误"

def statusMarker : String := "协调服务器请求失败（HTTP "

def serverError (refusal : Refusal) : CliError :=
  fromHttpResponse refusal.status
    (statusMarker ++ toString refusal.status ++ "）：" ++ refusal.message)
    (refusal.body.bind fun body => (pointer ["code"] body).bind Value.asI64)
    (refusal.body.bind fun body => (pointer ["error", "type"] body).bind Value.asStr)

/-- What comes back for a request. -/
inductive HttpAnswer (α : Type) where
  | accepted (value : α)
  | refused (refusal : Refusal)
  /-- The request or the answer is lost on the way. -/
  | unreachable (error : String)
  | unreadable (error : String)
  /-- A success without the expected body. -/
  | incompatible (status : String) (error : String)

def HttpAnswer.result {α : Type} : HttpAnswer α → CliResult α
  | .accepted value => .ok value
  | .refused refusal => .error (serverError refusal)
  | .unreachable error => .error (.general ("无法连接协调服务器：" ++ error))
  | .unreadable error => .error (.general ("无法读取协调服务器响应：" ++ error))
  | .incompatible status error =>
      .error (.general ("协调服务器返回了不兼容的 JSON（HTTP " ++ status ++ "）：" ++ error))

/-- `parse::<u16>` of decimal digits. -/
def parseU16 (digits : List Char) : Option Nat :=
  if digits = [] then none
  else if Nat.ofDigitChars 10 digits 0 < 65536 then some (Nat.ofDigitChars 10 digits 0)
  else none

def statusOf (text : List Char) : Nat :=
  match after statusMarker.toList text with
  | none => 0
  | some suffix =>
      match parseU16 (suffix.takeWhile Char.isDigit) with
      | none => 0
      | some status => if 100 ≤ status ∧ status ≤ 599 then status else 0

def submissionHttpStatus (error : CliError) : Nat := statusOf error.message.toList

def resultSubmissionRequiresTerminalFailure (error : CliError) : Bool :=
  submissionHttpStatus error = 400

def submissionErrorIsRetryable (error : CliError) : Bool :=
  error.kind = .general ∨ error.kind = .authentication

/-- A text without the first character of the marker does not hide one. -/
theorem after_append {marker text suffix : List Char} {c : Char} (h : c ∉ text) :
    after (c :: marker) (text ++ suffix) = after (c :: marker) suffix := by
  induction text with
  | nil => rfl
  | cons d text ih =>
    have hne : ¬ c = d := fun heq => h (heq ▸ List.mem_cons_self)
    have hrest : c ∉ text := fun hmem => h (List.mem_cons_of_mem _ hmem)
    rw [List.cons_append, after, if_neg, ih hrest]
    simp [hne]

theorem after_eq_none {marker text : List Char} {c : Char} (hmarker : c ∈ marker) (h : c ∉ text) :
    after marker text = none := by
  induction text with
  | nil =>
    rw [after, if_neg]
    rintro rfl
    cases hmarker
  | cons d text ih =>
    rw [after, if_neg, ih fun hmem => h (List.mem_cons_of_mem _ hmem)]
    intro hprefix
    exact h ((List.isPrefixOf_iff_prefix.mp hprefix).subset hmarker)

/-- A text in which the name of the protocol does not occur has no status. -/
theorem statusOf_eq_zero {text : List Char} (h : 'H' ∉ text) : statusOf text = 0 := by
  have hmarker : 'H' ∈ statusMarker.toList := by decide
  rw [statusOf, after_eq_none hmarker h]

theorem after_self {marker suffix : List Char} (h : marker ≠ []) :
    after marker (marker ++ suffix) = some suffix := by
  obtain ⟨c, marker, rfl⟩ := List.exists_cons_of_ne_nil h
  rw [List.cons_append, after, if_pos]
  · rw [← List.cons_append, List.drop_left]
  · rw [← List.cons_append]
    exact List.isPrefixOf_iff_prefix.mpr (List.prefix_append _ _)

theorem takeWhile_toDigits {n : Nat} {c : Char} {suffix : List Char} (h : c.isDigit = false) :
    (Nat.toDigits 10 n ++ c :: suffix).takeWhile Char.isDigit = Nat.toDigits 10 n := by
  rw [List.takeWhile_append_of_pos
      fun d hd => Nat.isDigit_of_mem_toDigits (by decide) (by decide) hd,
    List.takeWhile_cons_of_neg (by rw [h]; decide), List.append_nil]

/-- The status of an error answer is found again in a text that starts otherwise. -/
theorem statusOf_refusal {before : List Char} {refusal : Refusal} (hbefore : '协' ∉ before)
    (h : 100 ≤ refusal.status ∧ refusal.status ≤ 599) :
    statusOf (before ++ (serverError refusal).message.toList) = refusal.status := by
  have htext : (serverError refusal).message.toList = statusMarker.toList ++
      (Nat.toDigits 10 refusal.status ++ '）' :: '：' :: refusal.message.toList) := by
    simp [serverError, fromHttpResponse]
  have hafter : after statusMarker.toList (before ++ (serverError refusal).message.toList) =
      some (Nat.toDigits 10 refusal.status ++ '）' :: '：' :: refusal.message.toList) := by
    rw [htext, show statusMarker.toList = '协' :: statusMarker.toList.tail from rfl,
      after_append hbefore]
    exact after_self (List.cons_ne_nil _ _)
  have hdigits : Nat.toDigits 10 refusal.status ≠ [] :=
    List.ne_nil_of_length_pos Nat.length_toDigits_pos
  have hparse : parseU16 (Nat.toDigits 10 refusal.status) = some refusal.status := by
    rw [parseU16, if_neg hdigits, Nat.ofDigitChars_ten_toDigits, if_pos (by omega)]
  rw [statusOf, hafter]
  simp only [takeWhile_toDigits (show Char.isDigit '）' = false from by decide), hparse, h,
    and_self, if_true]

end MindOne.Submission
